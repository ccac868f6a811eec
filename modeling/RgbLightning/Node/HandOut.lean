import RgbLightning.Node.Colouring
import RgbLightning.Rgb.Selection

/-! # UTXOs handed out

Commands that need an uncoloured UTXO take the first one of the list and mark it by
its outpoint. All other writes append outputs of the transaction that was built last,
uncoloured ones only in `createutxos`, and no transaction spends an uncoloured UTXO or
one handed out by the same command.
-/
namespace RgbLightning.Node
open MachineInt Decimal Rgb

/-- What is followed through an operation: the file, the transaction whose outputs may be
listed, the outpoints on which an allocation was placed since it was built, the outpoint
handed out and not marked yet, the entries listed and not noted yet, and the outpoints
that the operation has handed out. -/
structure HandView where
  file : RgbUtxos
  building : Option Txid
  covered : List OutPoint
  owed : Option OutPoint
  unnoted : RgbUtxos
  handed : List OutPoint

def HandView.start (file : RgbUtxos) : HandView := ⟨file, none, [], none, [], []⟩

/-- All that was listed has been noted, and all that was handed out has been marked. -/
def HandView.Done (s : HandView) : Prop := s.unnoted = [] ∧ s.owed = none

/-- The first uncoloured entry is marked by its outpoint. -/
def MarksFirst (utxos utxos' : RgbUtxos) (outpoint : OutPoint) : Prop :=
  ∃ u, firstUncolored utxos = some u ∧ u.outpoint = outpoint ∧ markColored outpoint utxos = some utxos'

/-- The outpoint is an output that `createutxos` asks for. -/
def OutputOf (txid : Txid) (o : OutPoint) : Prop := ∃ i < UTXO_NUM, o = ⟨txid, i⟩

/-- New entries are distinct outputs of the transaction. An uncoloured one is an output
that `createutxos` has asked for, without an allocation. -/
structure OutputsOf (creates : Prop) (txid : Txid) (covered : List OutPoint) (new : RgbUtxos) : Prop where
  nodup : (new.map RgbUtxo.outpoint).Nodup
  outputs : ∀ u ∈ new, u.outpoint.txid = txid
  uncolored : ∀ o, ⟨o, false⟩ ∈ new → creates ∧ OutputOf txid o ∧ o ∉ covered

/-- Outputs of the transaction built last are appended. -/
def AppendsOutputs (creates : Prop) (s : HandView) (utxos' : RgbUtxos) : Prop :=
  ∃ txid new, s.building = some txid ∧ utxos' = s.file ++ new ∧ OutputsOf creates txid s.covered new

/-- The rules for an operation that may create UTXOs, or may hand them out. -/
def handMonitor (creates : Prop) : Monitor Lock RgbUtxos Note HandView where
  sees s v := v = s.file
  ok s
    | .write v => (∃ o, s.owed = some o ∧ MarksFirst s.file v o) ∨
        s.owed = none ∧ AppendsOutputs creates s v
    | .emit (.handed o) => s.Done ∧ ¬creates ∧ ∃ u, firstUncolored s.file = some u ∧ u.outpoint = o
    | .emit (.placed o) => s.owed = none ∧ (ListedColored o s.file ∨ s.building = some o.txid)
    | .emit (.built _ tx) => s.owed = none ∧ ∀ o ∈ tx.inputs, o ∉ s.handed ∧ ⟨o, false⟩ ∉ s.file
    | _ => True
  next s
    | .write v => ⟨v, none, [], none, s.unnoted ++ v.drop s.file.length, s.handed⟩
    | .emit (.handed o) => { s with owed := some o, handed := s.handed ++ [o] }
    | .emit (.placed o) => { s with covered := s.covered ++ [o] }
    | .emit (.pushed u) => { s with unnoted := s.unnoted.filter (· ≠ u) }
    | .emit (.built _ tx) => { s with building := some tx.txid, covered := [] }
    | _ => s

section Mark
variable {utxos utxos' : RgbUtxos} {o : OutPoint}

theorem markColored_outpoints (h : markColored o utxos = some utxos') :
    utxos'.map RgbUtxo.outpoint = utxos.map RgbUtxo.outpoint := by
  induction utxos generalizing utxos' with
  | nil => cases h
  | cons u rest ih =>
    unfold markColored at h
    split at h
    · cases h
      rfl
    · obtain ⟨rest', hrest, rfl⟩ := Option.map_eq_some_iff.mp h
      rw [List.map_cons, List.map_cons, ih hrest]

/-- An entry that is uncoloured after marking was so before. -/
theorem mem_of_markColored (h : markColored o utxos = some utxos') {u : RgbUtxo} (hu : u ∈ utxos')
    (hcolored : u.colored = false) : u ∈ utxos := by
  induction utxos generalizing utxos' with
  | nil => cases h
  | cons v rest ih =>
    unfold markColored at h
    split at h
    · cases h
      rcases List.mem_cons.mp hu with rfl | hu
      · cases hcolored
      · exact List.mem_cons_of_mem _ hu
    · obtain ⟨rest', hrest, rfl⟩ := Option.map_eq_some_iff.mp h
      rcases List.mem_cons.mp hu with rfl | hu
      · exact List.mem_cons_self ..
      · exact List.mem_cons_of_mem _ (ih hrest hu)

/-- Without repetitions an outpoint listed as coloured is not listed as uncoloured. -/
theorem ListedColored.not_uncolored (h : ListedColored o utxos)
    (hnodup : (utxos.map RgbUtxo.outpoint).Nodup) : ⟨o, false⟩ ∉ utxos := by
  obtain ⟨u, hu, ho, hcolored⟩ := h
  intro hmem
  have heq : u = ⟨o, false⟩ := List.inj_on_of_nodup_map hnodup hu hmem ho
  rw [heq] at hcolored
  cases hcolored

theorem uncolored_of_firstUncolored {u : RgbUtxo} (h : firstUncolored utxos = some u) :
    ⟨u.outpoint, false⟩ ∈ utxos := by
  obtain ⟨outpoint, colored⟩ := u
  obtain ⟨hmem, hcolored⟩ := mem_of_firstUncolored h
  cases hcolored
  exact hmem

theorem MarksFirst.drop (h : MarksFirst utxos utxos' o) : utxos'.drop utxos.length = [] := by
  obtain ⟨u, -, -, hmark⟩ := h
  have hlength := congrArg List.length (markColored_outpoints hmark)
  simp only [List.length_map] at hlength
  rw [← hlength, List.drop_length]

end Mark

section Programs
variable {file : RgbUtxos} {s : HandView} {creates : Prop}

@[simp] theorem hand_sees {v : RgbUtxos} : (handMonitor creates).sees s v ↔ v = s.file := Iff.rfl
@[simp] theorem hand_acquire (l : Lock) : (handMonitor creates).ok s (.acquire l) ↔ True := Iff.rfl
@[simp] theorem hand_release (l : Lock) : (handMonitor creates).ok s (.release l) ↔ True := Iff.rfl
@[simp] theorem hand_write (v : RgbUtxos) : (handMonitor creates).ok s (.write v) ↔
    (∃ o, s.owed = some o ∧ MarksFirst s.file v o) ∨ s.owed = none ∧ AppendsOutputs creates s v := Iff.rfl
@[simp] theorem hand_pushed (u : RgbUtxo) :
    (handMonitor creates).ok s (.emit (.pushed u)) ↔ True := Iff.rfl
@[simp] theorem hand_marked (o : OutPoint) :
    (handMonitor creates).ok s (.emit (.marked o)) ↔ True := Iff.rfl
@[simp] theorem hand_handed (o : OutPoint) : (handMonitor creates).ok s (.emit (.handed o)) ↔
    s.Done ∧ ¬creates ∧ ∃ u, firstUncolored s.file = some u ∧ u.outpoint = o := Iff.rfl
@[simp] theorem hand_placed (o : OutPoint) : (handMonitor creates).ok s (.emit (.placed o)) ↔
    s.owed = none ∧ (ListedColored o s.file ∨ s.building = some o.txid) := Iff.rfl
@[simp] theorem hand_built (params : TxParams) (tx : Tx) :
    (handMonitor creates).ok s (.emit (.built params tx)) ↔
      s.owed = none ∧ ∀ o ∈ tx.inputs, o ∉ s.handed ∧ ⟨o, false⟩ ∉ s.file := Iff.rfl
@[simp] theorem hand_spawned (task : FundingTask) :
    (handMonitor creates).ok s (.emit (.spawned task)) ↔ True := Iff.rfl
@[simp] theorem hand_next_acquire (l : Lock) : (handMonitor creates).next s (.acquire l) = s := rfl
@[simp] theorem hand_next_release (l : Lock) : (handMonitor creates).next s (.release l) = s := rfl
@[simp] theorem hand_next_read (v : RgbUtxos) : (handMonitor creates).next s (.read v) = s := rfl
@[simp] theorem hand_next_write (v : RgbUtxos) : (handMonitor creates).next s (.write v) =
    ⟨v, none, [], none, s.unnoted ++ v.drop s.file.length, s.handed⟩ := rfl
@[simp] theorem hand_next_pushed (u : RgbUtxo) : (handMonitor creates).next s (.emit (.pushed u)) =
    { s with unnoted := s.unnoted.filter (· ≠ u) } := rfl
@[simp] theorem hand_next_marked (o : OutPoint) :
    (handMonitor creates).next s (.emit (.marked o)) = s := rfl
@[simp] theorem hand_next_handed (o : OutPoint) : (handMonitor creates).next s (.emit (.handed o)) =
    { s with owed := some o, handed := s.handed ++ [o] } := rfl
@[simp] theorem hand_next_placed (o : OutPoint) : (handMonitor creates).next s (.emit (.placed o)) =
    { s with covered := s.covered ++ [o] } := rfl
@[simp] theorem hand_next_built (params : TxParams) (tx : Tx) :
    (handMonitor creates).next s (.emit (.built params tx)) =
      { s with building := some tx.txid, covered := [] } := rfl
@[simp] theorem hand_next_spawned (task : FundingTask) :
    (handMonitor creates).next s (.emit (.spawned task)) = s := rfl

/-- The operation keeps to the rules above, and leaves nothing undone. -/
def HandsOut {α : Type} (creates : Prop) (file : RgbUtxos) (program : Program α) : Prop :=
  program.wp (handMonitor creates) (fun _ s => s.Done) (.start file)

theorem done_start (file : RgbUtxos) : (HandView.start file).Done := ⟨rfl, rfl⟩

@[simp] theorem done_mk (building : Option Txid) (covered : List OutPoint) (owed : Option OutPoint)
    (unnoted : RgbUtxos) (handed : List OutPoint) :
    (HandView.mk file building covered owed unnoted handed).Done ↔ unnoted = [] ∧ owed = none := Iff.rfl

/-- After an outpoint was taken: it is listed as coloured, and no uncoloured UTXO is new. -/
structure HandView.Taken (file : RgbUtxos) (taken : Except String OutPoint) (s : HandView) : Prop where
  done : s.Done
  handed : ∀ o ∈ s.handed, ⟨o, false⟩ ∈ file
  kept : ∀ o, ⟨o, false⟩ ∈ s.file → ⟨o, false⟩ ∈ file
  colored : ∀ o, taken = .ok o → ListedColored o s.file

theorem takeUncolored_hand (file : RgbUtxos) :
    takeUncolored.wp (handMonitor False) (fun taken s => s.Taken file taken) (.start file) := by
  simp only [takeUncolored, colorUtxo, Task.bind_def, Task.wp_bind, wp_checkUncoloredUtxos,
    hand_sees, forall_eq, wp_orPrint, wp_getUtxo, Task.wp_get, Task.wp_expect, Task.wp_put, Task.wp_note]
  refine ⟨fun _ => ⟨fun _ _ => ?_, by simp⟩, fun _ => ⟨by simp, fun e _ => ?_⟩⟩
  · intro u hfirst
    refine ⟨⟨done_start file, id, u, hfirst, rfl⟩, ?_⟩
    intro utxos hmark
    have hmarks : MarksFirst file utxos u.outpoint := ⟨u, hfirst, rfl, hmark⟩
    refine ⟨.inl ⟨u.outpoint, rfl, hmarks⟩, trivial, ⟨?_, rfl⟩, ?_, ?_, ?_⟩
    · simpa [HandView.start] using hmarks.drop
    · simpa [HandView.start] using uncolored_of_firstUncolored hfirst
    · exact fun o ho => mem_of_markColored hmark ho rfl
    · rintro _ ⟨⟩
      exact (markColored_spec hmark).1
  · exact ⟨done_start file, by simp [HandView.start], fun _ => id, by simp⟩

theorem issueasset_hand (words : List Text) (issueContract : IssueArgs → OutPoint → Option ContractId) :
    HandsOut False file (issueasset words issueContract) := by
  simp only [HandsOut, issueasset, wp_orPrint, Task.bind_def, Task.wp_bind]
  refine ⟨fun args _ => ?_, fun _ _ => done_start file⟩
  apply Task.wp_mono _ (takeUncolored_hand file)
  intro taken s htaken
  obtain ⟨hdone, -, -, hplaced⟩ := htaken
  simpa [hdone.1, hdone.2] using ⟨fun o ho _ _ _ => .inl (hplaced o ho), fun _ _ => hdone⟩

theorem receiveasset_hand (storeSealSecret : OutPoint → Bool) :
    HandsOut False file (receiveasset storeSealSecret) := by
  simp only [HandsOut, receiveasset, Task.bind_def, Task.wp_bind]
  apply Task.wp_mono _ (takeUncolored_hand file)
  intro taken s htaken
  obtain ⟨hdone, -, -, hplaced⟩ := htaken
  simpa [hdone.1, hdone.2] using ⟨fun o ho _ => .inl (hplaced o ho), fun _ _ => hdone⟩

theorem outputsOf_newUtxos (txid : Txid) : OutputsOf True txid [] (newUtxos txid) where
  nodup := by simp [newUtxos, UTXO_NUM, List.range_succ]
  outputs := by
    intro u hu
    obtain ⟨i, -, rfl⟩ := List.mem_map.mp hu
    rfl
  uncolored := by
    intro o ho
    obtain ⟨i, hi, hio⟩ := List.mem_map.mp ho
    cases hio
    exact ⟨trivial, ⟨i, List.mem_range.mp hi, rfl⟩, List.not_mem_nil⟩

theorem createutxos_hand (p : Profile) (calls : CreateUtxosCalls)
    (htxs : ∀ params tx, calls.finish params = some tx → tx.Respects params) :
    HandsOut True file (createutxos p calls) := by
  simp only [HandsOut, createutxos, Task.bind_def, Task.wp_bind, Task.wp_lock, Task.wp_get, hand_sees,
    forall_eq, Task.wp_expect, Task.wp_ite, Task.wp_note, Task.wp_put, hand_built, hand_write]
  refine ⟨trivial, fun available _ => ⟨by simpa using fun _ => done_start file, fun _ tx htx => ?_⟩⟩
  have hbuilt : ∀ o ∈ tx.inputs, ⟨o, false⟩ ∉ file := by
    intro o ho hlisted
    rcases htxs _ tx htx o ho with h | ⟨-, h⟩
    · cases h
    · exact h (List.mem_map_of_mem hlisted)
  refine ⟨⟨rfl, fun o ho => ⟨by simp [HandView.start], hbuilt o ho⟩⟩,
    .inr ⟨rfl, tx.txid, newUtxos tx.txid, rfl, rfl, outputsOf_newUtxos _⟩, ?_⟩
  simp [HandView.start, newUtxos, UTXO_NUM, List.range_succ, Task.forEach]

/-- No allocation the runtime knows of is on an uncoloured UTXO. -/
def Assets.Apart (assets : Assets) (utxos : RgbUtxos) : Prop :=
  ∀ id h, assets.history id = some h → ∀ o ∈ h.fungibles, ⟨o.sealOutpoint, false⟩ ∉ utxos

theorem selected_apart {p : Profile} {assets : Assets} {id : ContractId} {amount : ℕ}
    {owned : OwnedValues ℕ} {selected : Selection} (hassets : assets.Apart file)
    (howned : (getAssetOwnedValues assets.history assets.unspents id).toOption = some owned)
    (hselected : selectInputs p amount owned.toList = some selected) :
    ∀ o ∈ selected.rgbInputs, ⟨o, false⟩ ∉ file := by
  obtain ⟨inputAmount, hloop, -⟩ := selectInputs_eq_some hselected
  intro o ho
  obtain ⟨before, v, after, hv, rfl, -⟩ := (mem_rgbInputs_iff hloop).mp ho
  have hmem : v ∈ owned.toList := by
    rw [hv]
    simp
  obtain ⟨h, hhistory, out, hout, -, rfl⟩ :=
    mem_getAssetOwnedValues (Outcome.except_toOption_eq_some.mp howned) hmem
  exact hassets id h hhistory out hout

theorem sendassetChange_hand (selected : Selection) :
    (sendassetChange selected).wp (handMonitor False) (fun _ s => s.Done ∧
      (∀ o ∈ s.handed, ⟨o, false⟩ ∈ file) ∧ ∀ o, ⟨o, false⟩ ∈ s.file → ⟨o, false⟩ ∈ file)
      (.start file) := by
  simp only [sendassetChange, Task.wp_ite, Task.bind_def, Task.wp_bind]
  refine ⟨fun _ => ?_, fun _ => ⟨done_start file, by simp [HandView.start], fun _ => id⟩⟩
  apply Task.wp_mono _ (takeUncolored_hand file)
  intro taken s htaken
  obtain ⟨hdone, hhanded, hkept, hplaced⟩ := htaken
  simpa [hdone.1, hdone.2] using
    ⟨fun o ho => ⟨.inl (hplaced o ho), hhanded, hkept⟩, fun _ _ => ⟨hdone, hhanded, hkept⟩⟩

theorem sendassetTransfer_hand (selected : Selection) (calls : SendCalls) (s : HandView)
    (htxs : ∀ params tx, calls.finish params = some tx → tx.Respects params) (hdone : s.Done)
    (hinputs : ∀ o ∈ selected.rgbInputs, o ∉ s.handed ∧ ⟨o, false⟩ ∉ s.file) :
    (sendassetTransfer selected calls).wp (handMonitor False) (fun _ s => s.Done) s := by
  have hbuilt : ∀ params tx, params.addUtxos = selected.rgbInputs → params.manuallySelectedOnly = true →
      calls.finish params = some tx → ∀ o ∈ tx.inputs, o ∉ s.handed ∧ ⟨o, false⟩ ∉ s.file := by
    intro params tx hadd hmanual htx o ho
    rcases htxs params tx htx o ho with h | ⟨h, -⟩
    · exact hinputs o (hadd ▸ h)
    · rw [hmanual] at h
      cases h
  obtain ⟨hnoted, howed⟩ := hdone
  simpa [sendassetTransfer, hnoted, howed] using fun tx htx => hbuilt _ tx rfl rfl htx

theorem sendasset_hand (ids : ContractIdText) (p : Profile) (words : List Text) (calls : SendCalls)
    (htxs : ∀ params tx, calls.finish params = some tx → tx.Respects params)
    (hassets : calls.assets.Apart file) : HandsOut False file (sendasset ids p words calls) := by
  have hsend : ∀ (args : SendArgs) owned selected,
      (getAssetOwnedValues calls.assets.history calls.assets.unspents args.contractId).toOption = some owned →
      selectInputs p args.amtRgb owned.toList = some selected →
      (sendassetChange selected).wp (handMonitor False) (fun change s =>
        (∀ u, change = .ok u →
          (sendassetTransfer selected calls).wp (handMonitor False) (fun _ s => s.Done) s) ∧
        ∀ e, change = .error e → s.Done) (.start file) := by
    intro args owned selected howned hselected
    have hinputs := selected_apart hassets howned hselected
    apply Task.wp_mono _ (sendassetChange_hand selected)
    intro change s hchange
    obtain ⟨hdone, hhanded, hkept⟩ := hchange
    refine ⟨fun u _ => ?_, fun _ _ => hdone⟩
    apply sendassetTransfer_hand selected calls s htxs hdone
    intro o ho
    exact ⟨fun h => hinputs o ho (hhanded o h), fun h => hinputs o ho (hkept o h)⟩
  unfold HandView.start at hsend
  simpa [HandsOut, HandView.start, sendasset, sendassetChecks, sendassetInputs] using
    fun args _ _ _ _ _ _ owned howned selected hselected => hsend args owned selected howned hselected

theorem uncolored_mem_fundingUnspendable {rgbState : Option Selection} {o : OutPoint}
    (ho : ⟨o, false⟩ ∈ file) : o ∈ fundingUnspendable rgbState file := by
  apply List.mem_map.mpr
  refine ⟨⟨o, false⟩, List.mem_filter.mpr ⟨ho, ?_⟩, rfl⟩
  cases rgbState <;> simp

theorem outputsOf_colored (creates : Prop) (outpoint : OutPoint) (covered : List OutPoint) :
    OutputsOf creates outpoint.txid covered [⟨outpoint, true⟩] := by
  constructor <;> simp

/-- A coloured output of the transaction built last is listed, whatever was placed on it. -/
theorem appendsOutputs_colored {txid : Txid} (vout : ℕ) (hbuilding : s.building = some txid) :
    AppendsOutputs creates s (s.file ++ [⟨⟨txid, vout⟩, true⟩]) :=
  ⟨txid, _, hbuilding, rfl, outputsOf_colored creates ⟨txid, vout⟩ s.covered⟩

theorem fundingTransfer_hand (rgbState : Option Selection) (calls : FundingCalls) {txid : Txid}
    (hdone : s.Done) (hbuilding : s.building = some txid) :
    (fundingTransfer calls s.file txid rgbState).wp (handMonitor False) (fun _ s => s.Done) s := by
  cases rgbState with
  | none => exact hdone
  | some selected =>
    obtain ⟨hnoted, howed⟩ := hdone
    by_cases hchange : 0 < selected.rgbChangeAmount
    · have happends : AppendsOutputs False { s with covered := s.covered ++ [⟨txid, 2⟩] }
          (s.file ++ [⟨⟨txid, 2⟩, true⟩]) :=
        appendsOutputs_colored (s := { s with covered := s.covered ++ [⟨txid, 2⟩] }) 2 hbuilding
      rw [howed] at happends
      simpa [fundingTransfer, placeChange, fundingChange, hchange, hnoted, howed, hbuilding]
        using fun _ => happends
    · simpa [fundingTransfer, placeChange, fundingChange, hchange] using fun _ _ => ⟨hnoted, howed⟩

theorem fundingTx_hand (rgbState : Option Selection) (calls : FundingCalls)
    (htxs : ∀ params tx, calls.finish params = some tx → tx.Respects params)
    (hinputs : ∀ selected, rgbState = some selected → ∀ o ∈ selected.rgbInputs, ⟨o, false⟩ ∉ file) :
    HandsOut False file (fundingTx rgbState calls) := by
  simp only [HandsOut, fundingTx, Task.bind_def, Task.wp_bind, Task.wp_get, hand_sees, forall_eq,
    Task.wp_lock, Task.wp_expect, Task.wp_note, hand_built]
  refine ⟨trivial, fun tx htx => ⟨⟨rfl, fun o ho => ⟨by simp [HandView.start], ?_⟩⟩, ?_⟩⟩
  · intro hlisted
    rcases htxs _ tx htx o ho with h | ⟨-, h⟩
    · cases hstate : rgbState with
      | none => simp [fundingParams, hstate] at h
      | some selected =>
        simp only [fundingParams, hstate] at h
        exact hinputs selected hstate o h hlisted
    · exact h (uncolored_mem_fundingUnspendable hlisted)
  · have htransfer := fundingTransfer_hand (s := ⟨file, some tx.txid, [], none, [], []⟩) rgbState calls
      ⟨rfl, rfl⟩ rfl
    exact Task.wp_mono (fun _ s hs => by simpa using hs) htransfer

theorem fundingGenerationReady_hand (p : Profile) (calls : FundingCalls)
    (htxs : ∀ params tx, calls.finish params = some tx → tx.Respects params)
    (hassets : calls.assets.Apart file) : HandsOut False file (fundingGenerationReady p calls) := by
  unfold fundingGenerationReady
  cases calls.rgbInfo with
  | none => exact fundingTx_hand none calls htxs fun _ h => by cases h
  | some info =>
    have hfund : ∀ owned selected,
        (getAssetOwnedValues calls.assets.history calls.assets.unspents info.contractId).toOption = some owned →
        selectInputs p info.localRgbAmount owned.toList = some selected →
        HandsOut False file (fundingTx (some selected) calls) := by
      intro owned selected howned hselected
      apply fundingTx_hand (some selected) calls htxs
      rintro _ ⟨⟩
      exact selected_apart hassets howned hselected
    unfold HandsOut at hfund
    simpa [HandsOut, fundingInputs] using
      fun owned howned selected hselected => hfund owned selected howned hselected

/-- Swept outputs are added to the list; none of them is an uncoloured UTXO. -/
theorem spendableOutputs_hand (outputs : List SpendableOutput)
    (hapart : ∀ output ∈ outputs, ⟨output.outpoint, false⟩ ∉ file) :
    HandsOut False file (spendableOutputs outputs) := by
  have hsweep : (Task.forEach sweepOutput outputs).wp (handMonitor False)
      (fun _ s => s.Done ∧ s.handed = [] ∧ ∀ o, ⟨o, false⟩ ∈ s.file → ⟨o, false⟩ ∈ file) (.start file) := by
    apply Task.wp_forEach (I := fun s : HandView => s.Done ∧ s.handed = [] ∧
      ∀ o, ⟨o, false⟩ ∈ s.file → ⟨o, false⟩ ∈ file) _ ⟨done_start file, rfl, fun _ => id⟩
    intro output houtput s hs
    obtain ⟨⟨hnoted, howed⟩, hhanded, hkept⟩ := hs
    have hinput : ⟨output.outpoint, false⟩ ∉ s.file := fun h => hapart output houtput (hkept _ h)
    simp only [sweepOutput, Task.wp_ite, Task.bind_def, Task.wp_bind, Task.wp_lock, Task.wp_expect,
      Task.wp_note, hand_built]
    refine ⟨fun _ => ⟨⟨hnoted, howed⟩, hhanded, hkept⟩, fun _ => ⟨trivial, fun txid _ =>
      ⟨⟨howed, ?_⟩, fun _ => ?_, ?_⟩⟩⟩
    · simpa [hhanded] using hinput
    · have happends : AppendsOutputs False
          ⟨s.file, some txid, [⟨txid, sealVout output.opReturnIndex⟩], none, [], []⟩
          (s.file ++ [⟨⟨txid, sealVout output.opReturnIndex⟩, true⟩]) := appendsOutputs_colored _ rfl
      simpa [pushSwept, hnoted, howed, hhanded] using ⟨happends, fun _ => hkept⟩
    · simpa [HandView.Done, hnoted, howed, hhanded] using fun _ => hkept
  simp only [HandsOut, spendableOutputs, Task.bind_def, Task.wp_bind, Task.wp_lock]
  refine ⟨trivial, Task.wp_mono (fun _ s hs => ?_) hsweep⟩
  simpa using hs.1

theorem hand_simulates : (handMonitor creates).Simulates sectionMonitor fun s _ => s.Done where
  sees := fun _ _ => trivial
  read := fun h _ => h
  ok := by
    intro s t a _ h
    cases a with
    | acquire l => trivial
    | release l => trivial
    | read v => trivial
    | write v => exact h.elim
    | emit e => exact h.elim
  next := by
    intro s t a hs h
    cases a with
    | acquire l => exact hs
    | release l => exact hs
    | read v => exact hs
    | write v => exact h.elim
    | emit e => exact h.elim

theorem OnlyLocks.handsOut {program : Program Unit} (h : OnlyLocks program) :
    HandsOut creates file program :=
  Task.wp_of_simulates hand_simulates (fun _ _ _ hs _ => hs) (done_start file) h

/-- The assets and outputs an operation is given are apart from the uncoloured UTXOs. -/
def Operation.Apart (utxos : RgbUtxos) : Operation → Prop
  | command (.sendasset _ calls) => calls.assets.Apart utxos
  | event (.fundingGenerationReady calls) => calls.assets.Apart utxos
  | event (.spendableOutputs outputs) => ∀ output ∈ outputs, ⟨output.outpoint, false⟩ ∉ utxos
  | _ => True

def Operation.Creates (op : Operation) : Prop := ∃ calls, op = .command (.createutxos calls)

theorem operation_hand (ids : ContractIdText) (p : Profile) (op : Operation) (htxs : op.TxsRespect)
    (hapart : op.Apart file) : HandsOut op.Creates file (op.program p ids) := by
  have hother : ∀ {op : Operation} {program : Program Unit}, (∀ calls, op ≠ .command (.createutxos calls)) →
      HandsOut False file program → HandsOut op.Creates file program := by
    intro op program hne h
    have hcreates : op.Creates = False := eq_false fun ⟨calls, hop⟩ => hne calls hop
    rwa [hcreates]
  cases op using Operation.casesFile ids p with
  | onlyLocks op h => exact h.handsOut
  | createutxos calls =>
    have hcreates : (Operation.command (.createutxos calls)).Creates = True := eq_true ⟨calls, rfl⟩
    rw [hcreates]
    exact wp_command.mpr (createutxos_hand p calls htxs)
  | issueasset words issueContract =>
    exact hother (fun _ h => by cases h) (wp_command.mpr (issueasset_hand words issueContract))
  | receiveasset storeSealSecret =>
    exact hother (fun _ h => by cases h) (wp_command.mpr (receiveasset_hand storeSealSecret))
  | sendasset words calls =>
    exact hother (fun _ h => by cases h) (wp_command.mpr (sendasset_hand ids p words calls htxs hapart))
  | fundingGenerationReady calls =>
    exact hother (fun _ h => by cases h) (fundingGenerationReady_hand p calls htxs hapart)
  | spendableOutputs outputs =>
    exact hother (fun _ h => by cases h) (spendableOutputs_hand outputs hapart)

end Programs

end RgbLightning.Node
