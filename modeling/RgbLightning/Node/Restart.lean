import RgbLightning.Node.Schedule

/-! # Restarts

`start_ldk` empties the `rgb_utxos` file when it finds no channel manager file. That
file is written by the background processor of a running node, at any time. A
running node is the interleaved one; it may be stopped between any two actions.
-/
namespace RgbLightning.Node
open MachineInt Decimal Runs

/-- What the calls of `start_ldk` return: the network argument, the chain bitcoind
runs, and which groups of steps run without a panic. -/
structure StartCalls where
  parseStartupArgs : Except String Network
  bitcoindChain : Except String String
  /-- The steps up to the key seed. -/
  setup : Bool
  keysSeedPath : String
  /-- The error is that of creating the seed file, when there is none to read. -/
  keysSeed : Except String Unit
  /-- The steps from the key seed, once its file is there, up to the router. -/
  router : Bool
  readManager : Bool
  /-- The steps after the channel manager. -/
  completes : Bool

inductive StartResult where
  | refused (message : String)
  | panicked
  | started
  deriving DecidableEq

/-- The early returns of `start_ldk` up to the choice of the network. -/
def startRefusal (calls : StartCalls) : Option String :=
  match calls.parseStartupArgs with
  | .error e => some e
  | .ok network =>
    match calls.bitcoindChain with
    | .error e => some ("Failed to connect to bitcoind client: " ++ e)
    | .ok chain =>
      if chain ≠ network.chain then
        some ("Chain argument (" ++ network.display ++ ") didn't match bitcoind chain (" ++ chain ++ ")")
      else if network.supported then none
      else some "ERROR: PoC does not support selected network"

/-- The result of a start and the `rgb_utxos` file after it. -/
def startLdk (calls : StartCalls) (managerFile : Bool) (rgbUtxos : RgbUtxos) :
    StartResult × RgbUtxos :=
  match startRefusal calls with
  | some message => (.refused message, rgbUtxos)
  | none =>
    if !calls.setup then (.panicked, rgbUtxos)
    else match calls.keysSeed with
      | .error e =>
        (.refused ("ERROR: Unable to create keys seed file " ++ calls.keysSeedPath ++ ": " ++ e), rgbUtxos)
      | .ok () =>
        if !calls.router then (.panicked, rgbUtxos)
        else if managerFile && !calls.readManager then (.panicked, rgbUtxos)
        else
          let restartingNode := managerFile
          let rgbUtxos := if !restartingNode then [] else rgbUtxos
          (if calls.completes then .started else .panicked, rgbUtxos)

inductive LifeInput where
  | start (calls : StartCalls)
  | act (choice : Choice TaskId Operation)
  | persistManager
  | stop

/-- A node over its starts. `stopped` is what the file held when the node last
stopped running; it is read by the theorems only. -/
structure Life where
  managerFile : Bool
  rgbUtxos : RgbUtxos
  system : Option NodeSystem
  stopped : RgbUtxos

/-- Before its first start a node has no files. -/
def Life.init : Life := ⟨false, [], none, []⟩

def Life.stop (s : Life) : Life := { s with system := none, stopped := s.rgbUtxos }

variable (ids : ContractIdText) (p : Profile)

/-- An action of the running node; a panic ends it. -/
def actLife (s : Life) (system : NodeSystem) (choice : Choice TaskId Operation) : Life :=
  match system.step (nodeSchedule ids p) choice with
  | none => s
  | some system =>
    let s := { s with rgbUtxos := system.cell, system := some system }
    if system.halted then s.stop else s

/-- An input that is not possible changes nothing. -/
def lifeStep (s : Life) (input : LifeInput) : Life :=
  match input, s.system with
  | .start calls, none =>
    match startLdk calls s.managerFile s.rgbUtxos with
    | (.started, rgbUtxos) =>
      { s with rgbUtxos := rgbUtxos, system := some (TaskSystem.init rgbUtxos) }
    | (_, rgbUtxos) => { s with rgbUtxos := rgbUtxos }
  | .act choice, some system => actLife ids p s system choice
  | .persistManager, some _ => { s with managerFile := true }
  | .stop, some _ => s.stop
  | _, _ => s

def lifeRun (inputs : List LifeInput) : Life := run (lifeStep ids p) .init inputs

/-- The input is a start that completes the initialisation. -/
def Life.Starts (s : Life) (input : LifeInput) : Prop :=
  s.system = none ∧ ∃ calls rgbUtxos, input = .start calls ∧
    startLdk calls s.managerFile s.rgbUtxos = (.started, rgbUtxos)

/-- After every start that completes, the file still has all it had at the last stop. -/
def RestartsKeep (inputs : List LifeInput) : Prop :=
  EachAfter (fun older input => (lifeRun ids p older).Starts input →
    ∀ u ∈ (lifeRun ids p older).stopped, u ∈ (lifeRun ids p (older ++ [input])).rgbUtxos) inputs

/-- The background processor of a running node has persisted the manager. -/
def ManagerPersisted (inputs : List LifeInput) : Prop :=
  ∃ older newer, inputs = older ++ .persistManager :: newer ∧
    (lifeRun ids p older).system.isSome = true

variable {ids p} {s : Life} {input : LifeInput}

theorem startLdk_restarting (calls : StartCalls) (rgbUtxos : RgbUtxos) :
    (startLdk calls true rgbUtxos).2 = rgbUtxos := by
  unfold startLdk
  split
  · rfl
  · split
    · rfl
    · split
      · rfl
      · split
        · rfl
        · split <;> rfl

theorem startLdk_fresh {calls : StartCalls} {rgbUtxos rgbUtxos' : RgbUtxos}
    (h : startLdk calls false rgbUtxos = (.started, rgbUtxos')) : rgbUtxos' = [] := by
  unfold startLdk at h
  split at h
  · cases h
  · split at h
    · cases h
    · split at h
      · cases h
      · split at h
        · cases h
        · simp only [Bool.false_and, Bool.false_eq_true, if_false, Bool.not_false, if_true] at h
          exact (congrArg Prod.snd h).symm

/-- What one input does: it starts the node, or leaves a stopped node as it is save
for a reset without a manager file, or lets the running node act, persist or stop. -/
inductive LifeStepSpec (s : Life) : LifeInput → Life → Prop
  | started {calls : StartCalls} {rgbUtxos : RgbUtxos} (hstopped : s.system = none)
      (hstart : startLdk calls s.managerFile s.rgbUtxos = (.started, rgbUtxos)) :
      LifeStepSpec s (.start calls)
        { s with rgbUtxos := rgbUtxos, system := some (TaskSystem.init rgbUtxos) }
  | failed {calls : StartCalls} {rgbUtxos : RgbUtxos} (hstopped : s.system = none)
      (hsame : s.managerFile = true → rgbUtxos = s.rgbUtxos) :
      LifeStepSpec s (.start calls) { s with rgbUtxos := rgbUtxos }
  | acted {choice : Choice TaskId Operation} {system : NodeSystem} (hrunning : s.system.isSome = true) :
      LifeStepSpec s (.act choice) { s with rgbUtxos := system.cell, system := some system }
  | halted {choice : Choice TaskId Operation} {rgbUtxos : RgbUtxos} :
      LifeStepSpec s (.act choice) { s with rgbUtxos := rgbUtxos, system := none, stopped := rgbUtxos }
  | persisted (hrunning : s.system.isSome = true) :
      LifeStepSpec s .persistManager { s with managerFile := true }
  | stopped : LifeStepSpec s .stop s.stop
  | kept {input : LifeInput} (hidle : input = .persistManager → s.system = none)
      (hnone : ¬s.Starts input) : LifeStepSpec s input s

theorem startLife_spec (calls : StartCalls) (hstopped : s.system = none) :
    LifeStepSpec s (.start calls) (lifeStep ids p s (.start calls)) := by
  obtain ⟨managerFile, rgbUtxos, system, stopped⟩ := s
  cases hstopped
  unfold lifeStep
  dsimp only
  cases hstart : startLdk calls managerFile rgbUtxos with
  | mk result rgbUtxos' =>
    have hsame : managerFile = true → rgbUtxos' = rgbUtxos := by
      rintro rfl
      have hkept := startLdk_restarting calls rgbUtxos
      rwa [hstart] at hkept
    cases result with
    | started => exact .started rfl hstart
    | refused message => exact .failed rfl hsame
    | panicked => exact .failed rfl hsame

theorem actLife_spec {system : NodeSystem} (choice : Choice TaskId Operation)
    (hrunning : s.system = some system) :
    LifeStepSpec s (.act choice) (actLife ids p s system choice) := by
  have hsome : s.system.isSome = true := by rw [hrunning]; rfl
  unfold actLife
  cases system.step (nodeSchedule ids p) choice with
  | none =>
    refine .kept (fun h => by cases h) ?_
    intro hstarts
    obtain ⟨-, calls, rgbUtxos, h, -⟩ := hstarts
    cases h
  | some system' =>
    dsimp only
    split
    · exact .halted
    · exact .acted hsome

variable (ids p) in
theorem lifeStep_spec (s : Life) (input : LifeInput) : LifeStepSpec s input (lifeStep ids p s input) := by
  have hother : ∀ s : Life, (∀ calls, input ≠ .start calls) → ¬s.Starts input := by
    intro s h hstarts
    obtain ⟨-, calls, rgbUtxos, rfl, -⟩ := hstarts
    exact h calls rfl
  obtain ⟨managerFile, rgbUtxos, system, stopped⟩ := s
  cases input with
  | start calls =>
    cases system with
    | none => exact startLife_spec calls rfl
    | some system =>
      refine .kept (fun h => by cases h) ?_
      intro hstarts
      obtain ⟨h, -⟩ := hstarts
      cases h
  | act choice =>
    cases system with
    | none => exact .kept (fun _ => rfl) (hother _ fun _ h => by cases h)
    | some system => exact actLife_spec choice rfl
  | persistManager =>
    cases system with
    | none => exact .kept (fun _ => rfl) (hother _ fun _ h => by cases h)
    | some system => exact .persisted rfl
  | stop =>
    cases system with
    | none => exact .kept (fun _ => rfl) (hother _ fun _ h => by cases h)
    | some system => exact .stopped

variable (ids p) in
/-- The manager file exists iff it was persisted, and a stopped node that has one
still has the list it stopped with. -/
structure LifeInv (inputs : List LifeInput) (s : Life) : Prop where
  manager : s.managerFile = true ↔ ManagerPersisted ids p inputs
  listed : s.system = none → s.managerFile = true → s.rgbUtxos = s.stopped

variable (ids p) in
theorem managerPersisted_concat (inputs : List LifeInput) (input : LifeInput) :
    ManagerPersisted ids p (inputs ++ [input]) ↔ ManagerPersisted ids p inputs ∨
      (input = .persistManager ∧ (lifeRun ids p inputs).system.isSome = true) := by
  constructor
  · intro hpersisted
    obtain ⟨older, newer, hsplit, hrunning⟩ := hpersisted
    rcases concat_eq_split hsplit with ⟨rfl, rfl, rfl⟩ | ⟨rest, rfl, hinputs⟩
    · exact .inr ⟨rfl, hrunning⟩
    · exact .inl ⟨older, rest, hinputs, hrunning⟩
  · intro hpersisted
    rcases hpersisted with ⟨older, newer, rfl, hrunning⟩ | ⟨rfl, hrunning⟩
    · exact ⟨older, newer ++ [input], by simp, hrunning⟩
    · exact ⟨inputs, [], rfl, hrunning⟩

variable (ids p) in
theorem lifeRun_inv (inputs : List LifeInput) : LifeInv ids p inputs (lifeRun ids p inputs) := by
  induction inputs using List.reverseRecOn with
  | nil =>
    refine ⟨?_, fun _ h => by cases h⟩
    constructor
    · intro h
      cases h
    · intro hpersisted
      obtain ⟨older, newer, h, -⟩ := hpersisted
      simp at h
  | append_singleton inputs input ih =>
    have hpersisted := managerPersisted_concat ids p inputs input
    rw [lifeRun, run_concat]
    change LifeInv ids p (inputs ++ [input]) (lifeStep ids p (lifeRun ids p inputs) input)
    generalize lifeRun ids p inputs = s at ih hpersisted
    -- whoever persists nothing keeps the first half
    have hmanager : (input = .persistManager → s.system = none) →
        (s.managerFile = true ↔ ManagerPersisted ids p (inputs ++ [input])) := by
      intro hidle
      rw [hpersisted, ih.manager]
      constructor
      · exact .inl
      · intro hpersisted
        rcases hpersisted with h | ⟨rfl, hrunning⟩
        · exact h
        · rw [hidle rfl] at hrunning
          cases hrunning
    have hspec := lifeStep_spec ids p s input
    generalize lifeStep ids p s input = s' at hspec
    cases hspec with
    | started hstopped hstart => exact ⟨hmanager fun h => (by cases h), fun h => by cases h⟩
    | failed hstopped hsame =>
      refine ⟨hmanager fun h => (by cases h), fun _ hfile => ?_⟩
      exact (hsame hfile).trans (ih.listed hstopped hfile)
    | acted hrunning => exact ⟨hmanager fun h => (by cases h), fun h => by cases h⟩
    | halted => exact ⟨hmanager fun h => (by cases h), fun _ _ => rfl⟩
    | persisted hrunning =>
      refine ⟨⟨fun _ => hpersisted.mpr (.inr ⟨rfl, hrunning⟩), fun _ => rfl⟩, ?_⟩
      intro hstopped
      dsimp only at hstopped
      rw [hstopped] at hrunning
      cases hrunning
    | stopped => exact ⟨hmanager fun h => (by cases h), fun _ _ => rfl⟩
    | kept hidle hnone => exact ⟨hmanager hidle, ih.listed⟩

/-- Without a manager file a start empties the list, with one it keeps it. -/
theorem lifeStep_starts (hstarts : s.Starts input) :
    (lifeStep ids p s input).rgbUtxos = if s.managerFile then s.rgbUtxos else [] := by
  obtain ⟨hstopped, calls, rgbUtxos, rfl, hstart⟩ := hstarts
  have hstep : (lifeStep ids p s (.start calls)).rgbUtxos = rgbUtxos := by
    simp only [lifeStep, hstopped, hstart]
  rw [hstep]
  cases hmanager : s.managerFile with
  | false =>
    rw [hmanager] at hstart
    simpa using startLdk_fresh hstart
  | true =>
    rw [hmanager] at hstart
    have hkept := startLdk_restarting calls s.rgbUtxos
    rw [hstart] at hkept
    simpa using hkept

/-- All starts keep the list iff each comes after the manager was persisted, or
after a stop with an empty list. -/
theorem restarts_keep_iff (inputs : List LifeInput) :
    RestartsKeep ids p inputs ↔
      EachAfter (fun older input => (lifeRun ids p older).Starts input →
        ManagerPersisted ids p older ∨ (lifeRun ids p older).stopped = []) inputs := by
  have hstart : ∀ older input, (lifeRun ids p older).Starts input →
      ((∀ u ∈ (lifeRun ids p older).stopped, u ∈ (lifeRun ids p (older ++ [input])).rgbUtxos) ↔
        ManagerPersisted ids p older ∨ (lifeRun ids p older).stopped = []) := by
    intro older input hstarts
    have hinv := lifeRun_inv ids p older
    have hafter : (lifeRun ids p (older ++ [input])).rgbUtxos =
        if (lifeRun ids p older).managerFile then (lifeRun ids p older).rgbUtxos else [] := by
      rw [lifeRun, run_concat]
      exact lifeStep_starts hstarts
    rw [hafter, ← hinv.manager]
    cases hmanager : (lifeRun ids p older).managerFile with
    | true => simp [hinv.listed hstarts.1 hmanager]
    | false => simp [List.eq_nil_iff_forall_not_mem]
  constructor
  · intro h older input newer hsplit hstarts
    exact (hstart older input hstarts).mp (h older input newer hsplit hstarts)
  · intro h older input newer hsplit hstarts
    exact (hstart older input hstarts).mpr (h older input newer hsplit hstarts)

def regtestStart : StartCalls :=
  ⟨.ok .regtest, .ok "regtest", true, "dataldk0/.ldk/keys_seed", .ok (), true, true, true⟩

/-- UTXOs are created in the first run, which ends before the manager is persisted. -/
def firstRun : List LifeInput :=
  .start regtestStart ::
    (starting .cli (.command (.createutxos
      ⟨200000, [(⟨Bytes32.fill 1, 0⟩, 200000)], fun _ => some ⟨Bytes32.fill 2, [⟨Bytes32.fill 1, 0⟩]⟩⟩)) 9).map
      .act ++ [.stop]

theorem firstRun_forgotten :
    ¬RestartsKeep ⟨fun _ => none, fun _ => []⟩ .release (firstRun ++ [.start regtestStart]) := by
  intro hkeep
  have hlisted := hkeep firstRun (.start regtestStart) [] rfl ⟨by rfl, regtestStart, [], rfl, by rfl⟩
    ⟨⟨Bytes32.fill 2, 0⟩, false⟩ (by decide)
  revert hlisted
  decide

end RgbLightning.Node
