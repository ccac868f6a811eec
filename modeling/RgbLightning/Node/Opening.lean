import RgbLightning.Node.Runs
import RgbLightning.Node.Schedule

/-! # Opening channels

The command line creates a channel, persists the peer and, for a coloured channel,
writes the RGB info file last. From its creation on the channel may be accepted by
the peer and the event task may be asked to fund it. The log is read by the
theorems only.
-/
namespace RgbLightning.Node
open MachineInt Decimal Rgb Runs

variable (ids : ContractIdText) (p : Profile)

/-- The RGB info of a channel about to be created, after the checks of the command. -/
def openRgbInfo (isColored : Bool) (words : List Text) (calls : OpenCalls) : Outcome (Option RgbInfo) :=
  if isColored then
    (Outcome.ofExcept (opencoloredchannelArgs ids calls.parsePeerInfo words)).bind fun args =>
      match args.rgb with
      | none => .ok none
      | some (contractId, chanAmtRgb) =>
        (Outcome.ofOption (getRgbTotalAmount p calls.assets.history calls.assets.unspents contractId)).bind
          fun total => (Outcome.ofExcept (checkEnough chanAmtRgb total)).bind fun _ =>
            .ok (some ⟨contractId, chanAmtRgb, 0⟩)
  else (Outcome.ofExcept (openchannelArgs calls.parsePeerInfo words)).bind fun _ => .ok none

/-- A channel that has been created while its command has not returned. -/
structure Opening where
  channelId : ChannelId
  peer : Text
  rgbInfo : Option RgbInfo
  peerPersisted : Bool

inductive ChannelEntry where
  | created (channelId : ChannelId) (rgbInfo : Option RgbInfo)
  /-- A funding request, with the RGB info that its handler found. -/
  | funded (channelId : ChannelId) (seen : Option RgbInfo)
  deriving DecidableEq

structure ChannelTasks where
  opening : Option Opening
  rgbInfoFiles : ChannelId → Option RgbInfo
  channelPeerData : List Text
  alive : Bool
  log : List ChannelEntry

def ChannelTasks.init : ChannelTasks := ⟨none, fun _ => none, [], true, []⟩

/-- One choice of the scheduler. -/
inductive ChannelChoice where
  | openchannel (isColored : Bool) (words : List Text) (calls : OpenCalls)
  /-- The next step of the command after the channel has been created. -/
  | act
  | fundingGenerationReady (temporaryChannelId : ChannelId)

def createdIds (log : List ChannelEntry) : List ChannelId :=
  log.filterMap fun
    | .created channelId _ => some channelId
    | .funded .. => none

def createStep (s : ChannelTasks) (peer : Text) (rgbInfo : Option RgbInfo) (calls : OpenCalls) :
    ChannelTasks :=
  if calls.connectPeer then
    match calls.createChannel with
    | .error _ => s
    | .ok channelId =>
      -- temporary identifiers are not drawn twice
      if channelId ∈ createdIds s.log then s
      else { s with
        opening := some ⟨channelId, peer, rgbInfo, false⟩
        log := s.log ++ [.created channelId rgbInfo] }
  else s

def openStep (s : ChannelTasks) (isColored : Bool) (words : List Text) (calls : OpenCalls) :
    ChannelTasks :=
  match openRgbInfo ids p isColored words calls with
  | .ok rgbInfo => createStep s (words.headD []) rgbInfo calls
  | .err _ => s
  | .abort => { s with alive := false }

/-- Persist the peer, then write the info file of a coloured channel. -/
def actStep (s : ChannelTasks) (o : Opening) : ChannelTasks :=
  if o.peerPersisted then
    match o.rgbInfo with
    | some rgbInfo =>
      { s with
        opening := none
        rgbInfoFiles := Function.update s.rgbInfoFiles o.channelId (some rgbInfo) }
    | none => { s with opening := none }
  else
    { s with
      opening := some { o with peerPersisted := true }
      channelPeerData := s.channelPeerData ++ [o.peer ++ ['\n']] }

/-- A choice that is not possible changes nothing. -/
def channelStep (s : ChannelTasks) (choice : ChannelChoice) : ChannelTasks :=
  if s.alive then
    match choice, s.opening with
    | .openchannel isColored words calls, none => openStep ids p s isColored words calls
    | .openchannel .., some _ => s
    | .act, some o => actStep s o
    | .act, none => s
    | .fundingGenerationReady channelId, _ =>
      if channelId ∈ createdIds s.log then
        { s with log := s.log ++ [.funded channelId (s.rgbInfoFiles channelId)] }
      else s
  else s

def channelRun (choices : List ChannelChoice) : ChannelTasks := run (channelStep ids p) .init choices

section Branch

/-- The handler only spawns tasks for one kind of channel. -/
def branchMonitor (coloured : Bool) : Monitor Lock RgbUtxos Note Unit where
  sees _ _ := True
  ok _
    | .emit (.spawned task) => task.coloured = coloured
    | _ => True
  next _ _ := ()

theorem branch_describes (coloured : Bool) (m₀ : Machine Lock RgbUtxos Note) :
    (branchMonitor coloured).Describes fun _ m => ∀ task, .emit (.spawned task) ∈ m.trace →
      .emit (.spawned task) ∈ m₀.trace ∨ task.coloured = coloured := by
  have hkeep : ∀ (m : Machine Lock RgbUtxos Note) (a : Act Lock RgbUtxos Note),
      (∀ task, .emit (.spawned task) ∈ m.trace →
        .emit (.spawned task) ∈ m₀.trace ∨ task.coloured = coloured) →
      (∀ task, a = .emit (.spawned task) → task.coloured = coloured) →
      ∀ task, .emit (.spawned task) ∈ (m.perform a).trace →
        .emit (.spawned task) ∈ m₀.trace ∨ task.coloured = coloured := by
    intro m a hm ha task hmem
    rcases List.mem_append.mp hmem with hmem | hmem
    · exact hm task hmem
    · exact .inr (ha task (List.mem_singleton.mp hmem).symm)
  refine ⟨fun _ => trivial, ?_, ?_, ?_, ?_, ?_⟩
  · exact fun hm _ _ => hkeep _ _ hm fun _ h => by cases h
  · exact fun hm _ => hkeep _ _ hm fun _ h => by cases h
  · exact fun hm => hkeep _ _ hm fun _ h => by cases h
  · exact fun hm _ => hkeep _ _ hm fun _ h => by cases h
  · intro _ m e hm hok
    apply hkeep _ _ hm
    intro task h
    cases h
    exact hok

theorem fundingGenerationReady_branch (calls : FundingCalls) :
    (fundingGenerationReady p calls).wp (branchMonitor calls.rgbInfo.isSome) (fun _ _ => True) () := by
  unfold fundingGenerationReady
  cases calls.rgbInfo with
  | none => simp [fundingTx, fundingTransfer, branchMonitor]
  | some info =>
    simp [fundingInputs, fundingTx, fundingTransfer, placeChange, fundingChange, branchMonitor]

/-- The branch taken is the one of the info file the handler finds: it alone decides
whether the funding task it spawns is that of a coloured channel. -/
theorem funding_spawns (calls : FundingCalls) (m : Machine Lock RgbUtxos Note) (task : FundingTask)
    (h : .emit (.spawned task) ∈ ((fundingGenerationReady p calls).exec m).2.trace) :
    .emit (.spawned task) ∈ m.trace ∨ task.coloured = calls.rgbInfo.isSome := by
  obtain ⟨_, hspawned, -⟩ := Task.wp_exec (branch_describes calls.rgbInfo.isSome m)
    (s := ()) (m := m) (fun _ => .inl) (fundingGenerationReady_branch p calls)
  exact hspawned task h

end Branch

section Race

/-- Every funding request of a channel created as coloured found its RGB info. -/
def FundedAsCreated (log : List ChannelEntry) : Prop :=
  ∀ channelId rgbInfo seen, .created channelId (some rgbInfo) ∈ log → .funded channelId seen ∈ log →
    seen = some rgbInfo

/-- A funding request comes after the command that opens the coloured channel has
written its info file. -/
def RequestedAfterWrite (s : ChannelTasks) (choice : ChannelChoice) : Prop :=
  s.alive = true → ∀ channelId, choice = .fundingGenerationReady channelId →
    ∀ o, s.opening = some o → o.channelId = channelId → o.rgbInfo = none

/-- A channel is created once. While its command runs it has no info file; then it
has the one of its RGB info. -/
structure ChannelInv (s : ChannelTasks) : Prop where
  opened : ∀ o, s.opening = some o → .created o.channelId o.rgbInfo ∈ s.log
  once : ∀ channelId a b, .created channelId a ∈ s.log → .created channelId b ∈ s.log → a = b
  unwritten : ∀ o, s.opening = some o → s.rgbInfoFiles o.channelId = none
  written : ∀ channelId a, .created channelId a ∈ s.log →
    (∀ o, s.opening = some o → o.channelId ≠ channelId) → s.rgbInfoFiles channelId = a
  fresh : ∀ channelId, channelId ∉ createdIds s.log → s.rgbInfoFiles channelId = none
  requested : ∀ channelId seen, .funded channelId seen ∈ s.log → channelId ∈ createdIds s.log

variable {ids p} {s : ChannelTasks} {choice : ChannelChoice}

theorem mem_createdIds {log : List ChannelEntry} {channelId : ChannelId} :
    channelId ∈ createdIds log ↔ ∃ a, .created channelId a ∈ log := by
  unfold createdIds
  rw [List.mem_filterMap]
  constructor
  · rintro ⟨e, he, hid⟩
    cases e with
    | created id a =>
      cases hid
      exact ⟨a, he⟩
    | funded id seen => cases hid
  · rintro ⟨a, ha⟩
    exact ⟨_, ha, rfl⟩

/-- What one choice does to a live node. -/
inductive ChannelStepSpec (s : ChannelTasks) : ChannelChoice → ChannelTasks → Prop
  | created {isColored : Bool} {words : List Text} {calls : OpenCalls} (channelId : ChannelId)
      (peer : Text) (rgbInfo : Option RgbInfo) (hidle : s.opening = none)
      (hfresh : channelId ∉ createdIds s.log) :
      ChannelStepSpec s (.openchannel isColored words calls)
        { s with
          opening := some ⟨channelId, peer, rgbInfo, false⟩
          log := s.log ++ [.created channelId rgbInfo] }
  | persisted (o : Opening) (hopening : s.opening = some o) :
      ChannelStepSpec s .act
        { s with
          opening := some { o with peerPersisted := true }
          channelPeerData := s.channelPeerData ++ [o.peer ++ ['\n']] }
  | written (o : Opening) (rgbInfo : RgbInfo) (hopening : s.opening = some o)
      (hinfo : o.rgbInfo = some rgbInfo) :
      ChannelStepSpec s .act
        { s with
          opening := none
          rgbInfoFiles := Function.update s.rgbInfoFiles o.channelId (some rgbInfo) }
  | returned (o : Opening) (hopening : s.opening = some o) (hinfo : o.rgbInfo = none) :
      ChannelStepSpec s .act { s with opening := none }
  | funded (channelId : ChannelId) (hcreated : channelId ∈ createdIds s.log) :
      ChannelStepSpec s (.fundingGenerationReady channelId)
        { s with log := s.log ++ [.funded channelId (s.rgbInfoFiles channelId)] }
  | kept {choice : ChannelChoice} (alive : Bool)
      (hnone : ∀ channelId, choice = .fundingGenerationReady channelId →
        channelId ∉ createdIds s.log) :
      ChannelStepSpec s choice { s with alive := alive }

theorem openStep_spec (isColored : Bool) (words : List Text) (calls : OpenCalls)
    (hidle : s.opening = none) :
    ChannelStepSpec s (.openchannel isColored words calls) (openStep ids p s isColored words calls) := by
  have hkept : ∀ alive, ChannelStepSpec s (.openchannel isColored words calls) { s with alive := alive } :=
    fun alive => .kept alive fun _ h => by cases h
  unfold openStep
  cases openRgbInfo ids p isColored words calls with
  | err e => exact hkept s.alive
  | abort => exact hkept false
  | ok rgbInfo =>
    dsimp only [createStep]
    split
    · split
      · exact hkept s.alive
      · rename_i channelId _
        split
        · exact hkept s.alive
        · rename_i hfresh
          exact .created channelId _ rgbInfo hidle hfresh
    · exact hkept s.alive

variable (ids p) in
theorem channelStep_spec (halive : s.alive = true) (choice : ChannelChoice) :
    ChannelStepSpec s choice (channelStep ids p s choice) := by
  unfold channelStep
  rw [if_pos halive]
  cases choice with
  | openchannel isColored words calls =>
    cases hopening : s.opening with
    | none => exact openStep_spec isColored words calls hopening
    | some o => exact .kept s.alive fun _ h => by cases h
  | act =>
    cases hopening : s.opening with
    | none => exact .kept s.alive fun _ h => by cases h
    | some o =>
      dsimp only [actStep]
      split
      · split
        · rename_i rgbInfo hinfo
          exact .written o rgbInfo hopening hinfo
        · rename_i hinfo
          exact .returned o hopening hinfo
      · exact .persisted o hopening
  | fundingGenerationReady channelId =>
    dsimp only
    split
    · rename_i hcreated
      exact .funded channelId hcreated
    · rename_i hcreated
      refine .kept s.alive ?_
      rintro _ ⟨⟩
      exact hcreated

theorem channelStep_dead (halive : s.alive ≠ true) (choice : ChannelChoice) :
    channelStep ids p s choice = s := if_neg halive

@[simp] theorem createdIds_concat_created (log : List ChannelEntry) (channelId : ChannelId)
    (a : Option RgbInfo) : createdIds (log ++ [.created channelId a]) = createdIds log ++ [channelId] := by
  simp [createdIds]

@[simp] theorem createdIds_concat_funded (log : List ChannelEntry) (channelId : ChannelId)
    (seen : Option RgbInfo) : createdIds (log ++ [.funded channelId seen]) = createdIds log := by
  simp [createdIds]

theorem ChannelInv.created (hs : ChannelInv s) {channelId : ChannelId} (peer : Text)
    (rgbInfo : Option RgbInfo) (hidle : s.opening = none) (hfresh : channelId ∉ createdIds s.log) :
    ChannelInv { s with
      opening := some ⟨channelId, peer, rgbInfo, false⟩
      log := s.log ++ [.created channelId rgbInfo] } := by
  have hnew : ∀ a, .created channelId a ∉ s.log := fun a ha => hfresh (mem_createdIds.mpr ⟨a, ha⟩)
  refine ⟨?_, ?_, ?_, ?_, ?_, ?_⟩
  · rintro o ⟨⟩
    simp
  · intro id a b ha hb
    rcases List.mem_append.mp ha with ha | ha
    · rcases List.mem_append.mp hb with hb | hb
      · exact hs.once id a b ha hb
      · cases List.mem_singleton.mp hb
        exact absurd ha (hnew a)
    · cases List.mem_singleton.mp ha
      rcases List.mem_append.mp hb with hb | hb
      · exact absurd hb (hnew b)
      · cases List.mem_singleton.mp hb
        rfl
  · rintro o ⟨⟩
    exact hs.fresh channelId hfresh
  · intro id a ha hother
    have hid : channelId ≠ id := hother _ rfl
    rcases List.mem_append.mp ha with ha | ha
    · apply hs.written id a ha
      intro o ho
      rw [hidle] at ho
      cases ho
    · cases List.mem_singleton.mp ha
      exact absurd rfl hid
  · intro id hid
    rw [createdIds_concat_created] at hid
    exact hs.fresh id fun h => hid (List.mem_append_left _ h)
  · intro id seen hmem
    rw [createdIds_concat_created]
    rcases List.mem_append.mp hmem with hmem | hmem
    · exact List.mem_append_left _ (hs.requested id seen hmem)
    · cases List.mem_singleton.mp hmem

theorem ChannelInv.written_info (hs : ChannelInv s) {o : Opening} {rgbInfo : RgbInfo}
    (hopening : s.opening = some o) (hinfo : o.rgbInfo = some rgbInfo) :
    ChannelInv { s with
      opening := none
      rgbInfoFiles := Function.update s.rgbInfoFiles o.channelId (some rgbInfo) } := by
  have hcreated : .created o.channelId (some rgbInfo) ∈ s.log := hinfo ▸ hs.opened o hopening
  refine ⟨fun _ h => (by cases h), hs.once, fun _ h => (by cases h), ?_, ?_, hs.requested⟩
  · intro id a ha _
    dsimp only
    by_cases hid : id = o.channelId
    · subst hid
      rw [Function.update_self]
      exact hs.once _ _ _ hcreated ha
    · rw [Function.update_of_ne hid]
      apply hs.written id a ha
      intro o' ho'
      rw [hopening] at ho'
      cases ho'
      exact Ne.symm hid
  · intro id hid
    dsimp only
    have hne : id ≠ o.channelId := by
      rintro rfl
      exact hid (mem_createdIds.mpr ⟨_, hcreated⟩)
    rw [Function.update_of_ne hne]
    exact hs.fresh id hid

theorem ChannelInv.returned (hs : ChannelInv s) {o : Opening} (hopening : s.opening = some o)
    (hinfo : o.rgbInfo = none) : ChannelInv { s with opening := none } := by
  refine ⟨fun _ h => (by cases h), hs.once, fun _ h => (by cases h), ?_, hs.fresh, hs.requested⟩
  intro id a ha _
  by_cases hid : o.channelId = id
  · subst hid
    have hplain : a = none := by
      rw [hs.once _ a o.rgbInfo ha (hs.opened o hopening), hinfo]
    rw [hplain]
    exact hs.unwritten o hopening
  · apply hs.written id a ha
    intro o' ho'
    rw [hopening] at ho'
    cases ho'
    exact hid

theorem ChannelInv.funded (hs : ChannelInv s) {channelId : ChannelId} (seen : Option RgbInfo)
    (hcreated : channelId ∈ createdIds s.log) :
    ChannelInv { s with log := s.log ++ [.funded channelId seen] } := by
  have hold : ∀ {id a}, .created id a ∈ s.log ++ [.funded channelId seen] → .created id a ∈ s.log := by
    intro id a h
    simpa using h
  refine ⟨fun o ho => List.mem_append_left _ (hs.opened o ho),
    fun id a b ha hb => hs.once id a b (hold ha) (hold hb), hs.unwritten,
    fun id a ha => hs.written id a (hold ha), ?_, ?_⟩
  · intro id hid
    rw [createdIds_concat_funded] at hid
    exact hs.fresh id hid
  · intro id seen' hmem
    rw [createdIds_concat_funded]
    rcases List.mem_append.mp hmem with hmem | hmem
    · exact hs.requested id seen' hmem
    · cases List.mem_singleton.mp hmem
      exact hcreated

theorem ChannelInv.persisted (hs : ChannelInv s) {o : Opening} (hopening : s.opening = some o)
    (peers : List Text) :
    ChannelInv { s with
      opening := some { o with peerPersisted := true }
      channelPeerData := peers } := by
  refine ⟨?_, hs.once, ?_, ?_, hs.fresh, hs.requested⟩
  · rintro _ ⟨⟩
    exact hs.opened o hopening
  · rintro _ ⟨⟩
    exact hs.unwritten o hopening
  · intro id a ha hother
    apply hs.written id a ha
    intro o' ho'
    rw [hopening] at ho'
    cases ho'
    exact hother { o with peerPersisted := true } rfl

theorem channelStep_inv (hs : ChannelInv s) (choice : ChannelChoice) :
    ChannelInv (channelStep ids p s choice) := by
  by_cases halive : s.alive = true
  · have hspec := channelStep_spec ids p halive choice
    generalize channelStep ids p s choice = s' at hspec
    cases hspec with
    | created channelId peer rgbInfo hidle hfresh => exact hs.created peer rgbInfo hidle hfresh
    | persisted o hopening => exact hs.persisted hopening _
    | written o rgbInfo hopening hinfo => exact hs.written_info hopening hinfo
    | returned o hopening hinfo => exact hs.returned hopening hinfo
    | funded channelId hcreated => exact hs.funded _ hcreated
    | kept alive hnone =>
      exact ⟨hs.opened, hs.once, hs.unwritten, hs.written, hs.fresh, hs.requested⟩
  · rw [channelStep_dead halive]
    exact hs

theorem channelStep_asCreated (hs : ChannelInv s) (hfunded : FundedAsCreated s.log)
    (hok : RequestedAfterWrite s choice) : FundedAsCreated (channelStep ids p s choice).log := by
  by_cases halive : s.alive = true
  · have hspec := channelStep_spec ids p halive choice
    generalize channelStep ids p s choice = s' at hspec
    cases hspec with
    | created channelId peer rgbInfo hidle hfresh =>
      intro id info seen hcreated hmem
      have hold : .funded id seen ∈ s.log := by simpa using hmem
      rcases List.mem_append.mp hcreated with hcreated | hcreated
      · exact hfunded id info seen hcreated hold
      · cases List.mem_singleton.mp hcreated
        exact absurd (hs.requested _ seen hold) hfresh
    | funded channelId hcreated =>
      intro channelId' info seen hmem' hmem
      have hold : .created channelId' (some info) ∈ s.log := by simpa using hmem'
      rcases List.mem_append.mp hmem with hmem | hmem
      · exact hfunded channelId' info seen hold hmem
      · cases List.mem_singleton.mp hmem
        apply hs.written channelId (some info) hold
        intro o hopening hid
        have hplain : o.rgbInfo = none := hok halive channelId rfl o hopening hid
        subst hid
        have hinfo : o.rgbInfo = some info := hs.once _ _ _ (hs.opened o hopening) hold
        rw [hplain] at hinfo
        cases hinfo
    | persisted o hopening => exact hfunded
    | written o rgbInfo hopening hinfo => exact hfunded
    | returned o hopening hinfo => exact hfunded
    | kept alive hnone => exact hfunded
  · rwa [channelStep_dead halive]

/-- A request that comes before the write finds no info file. -/
theorem channelStep_fundsPlain (hs : ChannelInv s) (hbad : ¬RequestedAfterWrite s choice) :
    ¬FundedAsCreated (channelStep ids p s choice).log := by
  simp only [RequestedAfterWrite, not_forall, exists_prop] at hbad
  obtain ⟨halive, channelId, rfl, o, hopening, rfl, hcoloured⟩ := hbad
  obtain ⟨rgbInfo, hinfo⟩ := Option.ne_none_iff_exists'.mp hcoloured
  have hcreated : .created o.channelId (some rgbInfo) ∈ s.log := hinfo ▸ hs.opened o hopening
  have hspec := channelStep_spec ids p halive (.fundingGenerationReady o.channelId)
  generalize channelStep ids p s (.fundingGenerationReady o.channelId) = s' at hspec
  cases hspec with
  | funded _ _ =>
    intro hfunded
    have hseen := hfunded o.channelId rgbInfo (s.rgbInfoFiles o.channelId)
      (List.mem_append_left _ hcreated) (by simp)
    rw [hs.unwritten o hopening] at hseen
    cases hseen
  | kept alive hnone => exact absurd (mem_createdIds.mpr ⟨_, hcreated⟩) (hnone _ rfl)

theorem fundedAsCreated_of_step (h : FundedAsCreated (channelStep ids p s choice).log) :
    FundedAsCreated s.log := by
  have hgrows : ∀ e ∈ s.log, e ∈ (channelStep ids p s choice).log := by
    by_cases halive : s.alive = true
    · have hspec := channelStep_spec ids p halive choice
      generalize channelStep ids p s choice = s' at hspec
      cases hspec with
      | created channelId peer rgbInfo hidle hfresh => exact fun _ => List.mem_append_left _
      | funded channelId hcreated => exact fun _ => List.mem_append_left _
      | _ => exact fun _ => id
    · rw [channelStep_dead halive]
      exact fun _ => id
  intro channelId rgbInfo seen hcreated hmem
  exact h channelId rgbInfo seen (hgrows _ hcreated) (hgrows _ hmem)

/-- Every coloured channel is funded as coloured iff no funding request is handled
between the creation of its channel and the write of its info file. -/
theorem funded_coloured_iff (choices : List ChannelChoice) :
    FundedAsCreated (channelRun ids p choices).log ↔
      EachAfter (fun older choice => RequestedAfterWrite (channelRun ids p older) choice) choices := by
  have hinit : ChannelInv .init ∧ FundedAsCreated ChannelTasks.init.log := by
    refine ⟨⟨?_, ?_, ?_, ?_, ?_, ?_⟩, ?_⟩ <;> simp [ChannelTasks.init, FundedAsCreated]
  have hstep : ∀ s choice, ChannelInv s ∧ FundedAsCreated s.log → RequestedAfterWrite s choice →
      ChannelInv (channelStep ids p s choice) ∧ FundedAsCreated (channelStep ids p s choice).log :=
    fun _ _ hs hok => ⟨channelStep_inv hs.1 _, channelStep_asCreated hs.1 hs.2 hok⟩
  exact run_exact_last (P := fun s : ChannelTasks => FundedAsCreated s.log) hinit hstep
    (fun _ hs => hs.2) (fun _ _ hs => channelStep_fundsPlain hs.1)
    (fun _ _ => fundedAsCreated_of_step) choices

def oneContract : ContractIdText := ⟨fun _ => some (Bytes32.fill 7), fun _ => []⟩

def quickPeer : OpenCalls := ⟨fun _ => .ok (), ownedUnits, true, .ok (Bytes32.fill 9)⟩

/-- The peer accepts before the command line has written the info file. -/
def acceptedEarly : List ChannelChoice :=
  [.openchannel true ["peer".toList, "100000".toList, "600000".toList, "rgb".toList, "60".toList]
      quickPeer, .fundingGenerationReady (Bytes32.fill 9), .act, .act]

theorem acceptedEarly_plain :
    ¬FundedAsCreated (channelRun oneContract .release acceptedEarly).log := by
  intro hfunded
  have hcreated : .created (Bytes32.fill 9) (some ⟨Bytes32.fill 7, 60, 0⟩) ∈
      (channelRun oneContract .release acceptedEarly).log := by decide
  have hrequested : .funded (Bytes32.fill 9) none ∈
      (channelRun oneContract .release acceptedEarly).log := by decide
  cases hfunded _ _ _ hcreated hrequested

end Race

end RgbLightning.Node
