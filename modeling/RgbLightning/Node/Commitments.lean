import RgbLightning.Node.Opening
import RgbLightning.Rgb.Selection

/-! # Assets committed to transactions

Channel fundings and sends select their RGB inputs from the outputs that the wallet
reports as unspent. It reports an output as long as no transaction spending it has
been broadcast and seen by a sync; nothing else reserves it. A funding transaction
is broadcast by the channel manager at some later time.
-/
namespace RgbLightning.Node
open MachineInt Decimal Rgb Runs Cover

variable (ids : ContractIdText) (p : Profile)

inductive Stage where
  /-- The transaction may be broadcast, or has been without being seen. -/
  | pending
  | seen
  | abandoned
  deriving DecidableEq

structure Commitment where
  txid : Txid
  rgbInputs : List OutPoint
  stage : Stage
  deriving DecidableEq

/-- A channel with its info file, and the values owned when the balance was checked. -/
structure ColouredChannel where
  rgbInfo : RgbInfo
  checked : List (OwnedValue ℕ)

/-- What the handler computes the change from. -/
structure ChangeCount where
  inputAmount : ℕ
  channelRgbAmount : ℕ
  deriving DecidableEq

structure CommitState where
  node : NodeState
  channels : ChannelId → Option ColouredChannel
  commitments : List Commitment
  counts : List ChangeCount

def CommitState.init (file : RgbUtxos) : CommitState :=
  ⟨⟨.running, ⟨fun _ => false, file, []⟩⟩, fun _ => none, [], []⟩

inductive CommitChoice where
  | opencoloredchannel (words : List Text) (calls : OpenCalls)
  | fundingGenerationReady (temporaryChannelId : ChannelId) (calls : FundingCalls)
  | sendasset (words : List Text) (calls : SendCalls)
  /-- The task a funding has spawned. -/
  | spawned (task : FundingTask)
  /-- The transaction has been broadcast and a sync has seen it. -/
  | seen (txid : Txid)
  /-- The transaction will not be broadcast. -/
  | abandoned (txid : Txid)

section View

/-- The RGB inputs that the wallet does not report any more. -/
def CommitState.spent (s : CommitState) : List OutPoint :=
  (s.commitments.filter fun c => c.stage = .seen).flatMap Commitment.rgbInputs

/-- The RGB inputs of transactions that may still be broadcast. -/
def CommitState.reserved (s : CommitState) : List OutPoint :=
  (s.commitments.filter fun c => c.stage = .pending).flatMap Commitment.rgbInputs

def CommitState.view (s : CommitState) (assets : Assets) : Assets :=
  { assets with unspents := assets.unspents.filter fun o => o ∉ s.spent }

def Assets.owned (assets : Assets) (id : ContractId) : List (OwnedValue ℕ) :=
  match getAssetOwnedValues assets.history assets.unspents id with
  | .ok owned => owned.toList
  | .error _ => []

theorem Assets.owned_eq {assets : Assets} {id : ContractId} {owned : OwnedValues ℕ}
    (h : getAssetOwnedValues assets.history assets.unspents id = .ok owned) :
    assets.owned id = owned.toList := by
  rw [Assets.owned, h]

end View

section Step

/-- An operation that selects assets, with its own view of the wallet and the stage
in which it leaves its transaction. -/
structure Demand where
  operation : Operation
  contractId : ContractId
  amount : ℕ
  assets : Assets
  stage : Stage

def fundingDemand (s : CommitState) (rgbInfo : RgbInfo) (calls : FundingCalls) : Demand where
  operation := .event (.fundingGenerationReady
    { calls with rgbInfo := some rgbInfo, assets := s.view calls.assets })
  contractId := rgbInfo.contractId
  amount := rgbInfo.localRgbAmount
  assets := s.view calls.assets
  stage := if calls.sendRgb && calls.saveConsignment then .pending else .abandoned

/-- A posted send is broadcast and synced before anything else happens. -/
def sendassetDemand (s : CommitState) (words : List Text) (args : SendArgs) (calls : SendCalls) :
    Demand where
  operation := .command (.sendasset words { calls with assets := s.view calls.assets })
  contractId := args.contractId
  amount := args.amtRgb
  assets := s.view calls.assets
  stage := if calls.sendRgb && calls.postConsignment then .seen else .abandoned

def CommitState.demand (s : CommitState) : CommitChoice → Option Demand
  | .fundingGenerationReady channelId calls =>
    (s.channels channelId).map fun channel => fundingDemand s channel.rgbInfo calls
  | .sendasset words calls =>
    (sendassetArgs ids words).toOption.map fun args => sendassetDemand s words args calls
  | _ => none

/-- The transactions built, with the outpoints added to them by hand. -/
def selections (trace : List (Act Lock RgbUtxos Note)) : List (Txid × List OutPoint) :=
  trace.filterMap fun
    | .emit (.built params tx) => some (tx.txid, params.addUtxos)
    | _ => none

def CommitState.after (s : CommitState) (op : Operation) : NodeState := nodeStep ids p s.node op

/-- What an operation selects. -/
def CommitState.selected (s : CommitState) (op : Operation) : List (Txid × List OutPoint) :=
  (selections (s.after ids p op).machine.trace).drop (selections s.node.machine.trace).length

def CommitState.commit (s : CommitState) (d : Demand) : CommitState :=
  { s with
    node := s.after ids p d.operation
    commitments := s.commitments ++
      (s.selected ids p d.operation).map fun (txid, rgbInputs) => ⟨txid, rgbInputs, d.stage⟩ }

def CommitState.restage (s : CommitState) (txid : Txid) (stage : Stage) : CommitState :=
  { s with
    commitments := s.commitments.map fun c =>
      if c.txid = txid ∧ c.stage = .pending then { c with stage := stage } else c }

/-- The count of the loop over the owned values, when the handler gets that far. -/
def CommitState.changeCount (s : CommitState) (rgbInfo : RgbInfo) (assets : Assets) :
    Option ChangeCount :=
  if s.node.status = .running ∧ s.node.machine.held .runtime = false ∧
      s.node.machine.held .wallet = false then
    (getAssetOwnedValues assets.history assets.unspents rgbInfo.contractId).toOption.bind fun owned =>
      (selectFrom p rgbInfo.localRgbAmount owned.toList [] 0).map fun (_, inputAmount) =>
        ⟨inputAmount, rgbInfo.localRgbAmount⟩
  else none

/-- The command, and the info file that it writes last. -/
def CommitState.openChannel (s : CommitState) (words : List Text) (calls : OpenCalls) : CommitState :=
  let calls := { calls with assets := s.view calls.assets }
  let node := s.after ids p (.command (.opencoloredchannel words calls))
  match node.status, openRgbInfo ids p true words calls, calls.connectPeer, calls.createChannel with
  | .running, .ok (some rgbInfo), true, .ok channelId =>
    { s with
      node := node
      channels := Function.update s.channels channelId
        (some ⟨rgbInfo, calls.assets.owned rgbInfo.contractId⟩) }
  | _, _, _, _ => { s with node := node }

def commitStep (s : CommitState) (choice : CommitChoice) : CommitState :=
  match choice with
  | .opencoloredchannel words calls => s.openChannel ids p words calls
  | .fundingGenerationReady channelId calls =>
    match s.channels channelId with
    | none => s
    | some channel =>
      { s.commit ids p (fundingDemand s channel.rgbInfo calls) with
        counts := s.counts ++ (s.changeCount p channel.rgbInfo (s.view calls.assets)).toList }
  | .sendasset words calls =>
    match sendassetArgs ids words with
    | .error _ => s
    | .ok args => s.commit ids p (sendassetDemand s words args calls)
  | .spawned task => { s with node := s.after ids p (.spawned task) }
  | .seen txid => s.restage txid .seen
  | .abandoned txid => s.restage txid .abandoned

def commitRun (file : RgbUtxos) (choices : List CommitChoice) : CommitState :=
  run (commitStep ids p) (.init file) choices

end Step

section Selected

/-- At most one transaction is built, and what is added to it is in order. -/
def selectMonitor (Sel : List OutPoint → Prop) :
    Monitor Lock RgbUtxos Note (Option (Txid × List OutPoint)) where
  sees _ _ := True
  ok selected
    | .emit (.built params _) => selected = none ∧ Sel params.addUtxos
    | _ => True
  next selected
    | .emit (.built params tx) => some (tx.txid, params.addUtxos)
    | _ => selected

variable {ids p} {Sel : List OutPoint → Prop} {m₀ : Machine Lock RgbUtxos Note}
  {selected : Option (Txid × List OutPoint)}

@[simp] theorem select_sees (v : RgbUtxos) : (selectMonitor Sel).sees selected v ↔ True := Iff.rfl
@[simp] theorem select_acquire (l : Lock) : (selectMonitor Sel).ok selected (.acquire l) ↔ True := Iff.rfl
@[simp] theorem select_release (l : Lock) : (selectMonitor Sel).ok selected (.release l) ↔ True := Iff.rfl
@[simp] theorem select_write (v : RgbUtxos) : (selectMonitor Sel).ok selected (.write v) ↔ True := Iff.rfl
@[simp] theorem select_pushed (u : RgbUtxo) :
    (selectMonitor Sel).ok selected (.emit (.pushed u)) ↔ True := Iff.rfl
@[simp] theorem select_handed (o : OutPoint) :
    (selectMonitor Sel).ok selected (.emit (.handed o)) ↔ True := Iff.rfl
@[simp] theorem select_marked (o : OutPoint) :
    (selectMonitor Sel).ok selected (.emit (.marked o)) ↔ True := Iff.rfl
@[simp] theorem select_placed (o : OutPoint) :
    (selectMonitor Sel).ok selected (.emit (.placed o)) ↔ True := Iff.rfl
@[simp] theorem select_spawned (task : FundingTask) :
    (selectMonitor Sel).ok selected (.emit (.spawned task)) ↔ True := Iff.rfl
@[simp] theorem select_built (params : TxParams) (tx : Tx) :
    (selectMonitor Sel).ok selected (.emit (.built params tx)) ↔
      selected = none ∧ Sel params.addUtxos := Iff.rfl
@[simp] theorem select_next_acquire (l : Lock) :
    (selectMonitor Sel).next selected (.acquire l) = selected := rfl
@[simp] theorem select_next_release (l : Lock) :
    (selectMonitor Sel).next selected (.release l) = selected := rfl
@[simp] theorem select_next_read (v : RgbUtxos) :
    (selectMonitor Sel).next selected (.read v) = selected := rfl
@[simp] theorem select_next_write (v : RgbUtxos) :
    (selectMonitor Sel).next selected (.write v) = selected := rfl
@[simp] theorem select_next_pushed (u : RgbUtxo) :
    (selectMonitor Sel).next selected (.emit (.pushed u)) = selected := rfl
@[simp] theorem select_next_handed (o : OutPoint) :
    (selectMonitor Sel).next selected (.emit (.handed o)) = selected := rfl
@[simp] theorem select_next_marked (o : OutPoint) :
    (selectMonitor Sel).next selected (.emit (.marked o)) = selected := rfl
@[simp] theorem select_next_placed (o : OutPoint) :
    (selectMonitor Sel).next selected (.emit (.placed o)) = selected := rfl
@[simp] theorem select_next_spawned (task : FundingTask) :
    (selectMonitor Sel).next selected (.emit (.spawned task)) = selected := rfl

@[simp] theorem selections_concat (trace : List (Act Lock RgbUtxos Note)) (a : Act Lock RgbUtxos Note) :
    selections (trace ++ [a]) = selections trace ++ selections [a] := by
  simp [selections, List.filterMap_append]

/-- What was selected before, followed by what the operation selects. -/
def SelectedSince (Sel : List OutPoint → Prop) (m₀ : Machine Lock RgbUtxos Note)
    (selected : Option (Txid × List OutPoint)) (m : Machine Lock RgbUtxos Note) : Prop :=
  selections m.trace = selections m₀.trace ++ selected.toList ∧ ∀ x ∈ selected, Sel x.2

theorem SelectedSince.perform {m : Machine Lock RgbUtxos Note} (h : SelectedSince Sel m₀ selected m)
    {a : Act Lock RgbUtxos Note} (ha : selections [a] = []) :
    SelectedSince Sel m₀ selected (m.perform a) := by
  refine ⟨?_, h.2⟩
  change selections (m.trace ++ [a]) = _
  rw [selections_concat, ha, List.append_nil]
  exact h.1

theorem select_describes : (selectMonitor Sel).Describes (SelectedSince Sel m₀) where
  sees := fun _ => trivial
  acquire := fun h _ _ => h.perform rfl
  release := fun h _ => h.perform rfl
  read := fun h => h.perform rfl
  write := fun h _ => h.perform rfl
  emit := by
    intro selected m e h hok
    cases e with
    | built params tx =>
      obtain ⟨rfl, hsel⟩ := hok
      obtain ⟨htrace, -⟩ := h
      refine ⟨?_, ?_⟩
      · change selections (m.trace ++ [_]) = _
        rw [selections_concat, htrace]
        simp [selections, selectMonitor]
      · intro x hx
        cases hx
        exact hsel
    | _ => exact h.perform rfl

/-- The inputs come from the loop over what is owned. -/
def SelectedFrom (p : Profile) (assets : Assets) (id : ContractId) (amount : ℕ)
    (rgbInputs : List OutPoint) : Prop :=
  ∃ owned inputAmount, getAssetOwnedValues assets.history assets.unspents id = .ok owned ∧
    selectFrom p amount owned.toList [] 0 = some (rgbInputs, inputAmount)

theorem selectedFrom_of {assets : Assets} {id : ContractId} {amount : ℕ} {owned : OwnedValues ℕ}
    {selected : Selection}
    (howned : (getAssetOwnedValues assets.history assets.unspents id).toOption = some owned)
    (hselected : selectInputs p amount owned.toList = some selected) :
    SelectedFrom p assets id amount selected.rgbInputs := by
  obtain ⟨inputAmount, hloop, -⟩ := selectInputs_eq_some hselected
  exact ⟨owned, inputAmount, Outcome.except_toOption_eq_some.mp howned, hloop⟩

theorem fundingGenerationReady_selects (info : RgbInfo) (calls : FundingCalls)
    (hinfo : calls.rgbInfo = some info) :
    (fundingGenerationReady p calls).wp
      (selectMonitor (SelectedFrom p calls.assets info.contractId info.localRgbAmount))
      (fun _ _ => True) none := by
  simp only [fundingGenerationReady, hinfo, fundingInputs, Task.bind_def, Task.wp_bind, Task.wp_lock,
    wp_assetOwnedValues, Task.wp_expect, Task.wp_unlock, Task.pure_def, Task.wp_ret]
  refine ⟨trivial, trivial, trivial, fun owned howned selected hselected => ⟨trivial, ?_⟩⟩
  have hfrom := selectedFrom_of howned hselected
  simpa [fundingTx, fundingTransfer, placeChange, fundingChange, fundingParams] using
    fun _ _ _ => hfrom

theorem takeUncolored_selects :
    takeUncolored.wp (selectMonitor Sel) (fun _ selected => selected = none) none := by
  simp [takeUncolored, colorUtxo]

theorem sendassetTransfer_selects (selected : Selection) (calls : SendCalls)
    (hsel : Sel selected.rgbInputs) :
    (sendassetTransfer selected calls).wp (selectMonitor Sel) (fun _ _ => True) none := by
  simpa [sendassetTransfer] using fun _ _ => hsel

theorem sendassetChange_selects (selected : Selection) :
    (sendassetChange selected).wp (selectMonitor Sel) (fun _ selected => selected = none) none := by
  simp only [sendassetChange, Task.wp_ite, Task.bind_def, Task.wp_bind]
  refine ⟨fun _ => ?_, fun _ => rfl⟩
  apply Task.wp_mono _ takeUncolored_selects
  intro taken selected hnone
  subst hnone
  simp

theorem sendasset_selects (words : List Text) (args : SendArgs) (calls : SendCalls)
    (hargs : sendassetArgs ids words = .ok args) :
    (sendasset ids p words calls).wp
      (selectMonitor (SelectedFrom p calls.assets args.contractId args.amtRgb))
      (fun _ _ => True) none := by
  generalize hSel : SelectedFrom p calls.assets args.contractId args.amtRgb = Sel
  have hsend : ∀ selected, Sel selected.rgbInputs →
      (sendassetChange selected).wp (selectMonitor Sel) (fun change s =>
        ∀ u, change = .ok u → (sendassetTransfer selected calls).wp (selectMonitor Sel) (fun _ _ => True) s)
        none := by
    intro selected hsel
    apply Task.wp_mono _ (sendassetChange_selects selected)
    intro change selected hnone u _
    subst hnone
    exact sendassetTransfer_selects selected calls hsel
  have hfrom : ∀ owned selected,
      (getAssetOwnedValues calls.assets.history calls.assets.unspents args.contractId).toOption = some owned →
      selectInputs p args.amtRgb owned.toList = some selected → Sel selected.rgbInputs := by
    intro owned selected howned hselected
    rw [← hSel]
    exact selectedFrom_of howned hselected
  simpa [sendasset, hargs, sendassetChecks, sendassetInputs] using
    fun _ _ _ _ _ owned howned selected hselected => hsend selected (hfrom owned selected howned hselected)

variable {s : CommitState} {choice : CommitChoice} {d : Demand}

theorem demand_selects (h : s.demand ids choice = some d) :
    (d.operation.program p ids).wp (selectMonitor (SelectedFrom p d.assets d.contractId d.amount))
      (fun _ _ => True) none := by
  cases choice with
  | fundingGenerationReady channelId calls =>
    obtain ⟨channel, -, rfl⟩ := Option.map_eq_some_iff.mp h
    exact fundingGenerationReady_selects channel.rgbInfo
      { calls with rgbInfo := some channel.rgbInfo, assets := s.view calls.assets } rfl
  | sendasset words calls =>
    obtain ⟨args, hargs, rfl⟩ := Option.map_eq_some_iff.mp h
    have hparsed : sendassetArgs ids words = .ok args := Outcome.except_toOption_eq_some.mp hargs
    exact wp_command.mpr
      (sendasset_selects words args { calls with assets := s.view calls.assets } hparsed)
  | _ => cases h

/-- An operation selects at most once, from what it finds owned. -/
theorem selected_of_demand (p : Profile) (h : s.demand ids choice = some d) :
    s.selected ids p d.operation = [] ∨ ∃ txid rgbInputs,
      s.selected ids p d.operation = [(txid, rgbInputs)] ∧
        SelectedFrom p d.assets d.contractId d.amount rgbInputs := by
  unfold CommitState.selected CommitState.after nodeStep
  split
  · have hstart : SelectedSince (SelectedFrom p d.assets d.contractId d.amount) s.node.machine none
        s.node.machine := ⟨by simp, by simp⟩
    obtain ⟨selected, ⟨htrace, hsel⟩, -⟩ := Task.wp_exec select_describes hstart (demand_selects h)
    dsimp only
    rw [htrace, List.drop_left]
    cases selected with
    | none => exact .inl rfl
    | some x => exact .inr ⟨x.1, x.2, rfl, hsel x rfl⟩
  · exact .inl (by simp)

theorem commit_commitments (hselected : s.selected ids p d.operation = []) :
    (s.commit ids p d).commitments = s.commitments := by
  simp [CommitState.commit, hselected]

theorem commit_commitments_of {txid : Txid} {rgbInputs : List OutPoint}
    (hselected : s.selected ids p d.operation = [(txid, rgbInputs)]) :
    (s.commit ids p d).commitments = s.commitments ++ [⟨txid, rgbInputs, d.stage⟩] := by
  simp [CommitState.commit, hselected]

end Selected

end RgbLightning.Node
