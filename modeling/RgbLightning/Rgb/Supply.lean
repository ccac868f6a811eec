import RgbLightning.Base.Runs
import RgbLightning.Rgb.Selection
import RgbLightning.Rgb.SendRgb

/-! # The supply of an asset

Assets come into being when they are issued. From then on transitions move them: what a
transition consumes leaves circulation, and so does everything else on the outputs that
are spent with it.
-/
namespace RgbLightning.Rgb
open MachineInt Cover Runs
variable {Opout : Type*}

/-- The amount of a contract among the allocations on unspent outputs. -/
def circulating (live : List (Allocation Opout)) (id : ContractId) : ℕ :=
  total Allocation.amount (live.filter fun a => a.contractId = id)

section Transitions

/-- The allocations a transition makes, where `place` is the opout and the outpoint of each
assignment. -/
def Transition.place (t : Transition Opout) (id : ContractId) (place : ℕ → Opout × OutPoint) :
    List (Allocation Opout) :=
  t.assignments.zipIdx.map fun (amount, no) => ⟨id, (place no).1, (place no).2, amount⟩

def spend (live : List (Allocation Opout)) (spent : List OutPoint) (new : List (Allocation Opout)) :
    List (Allocation Opout) :=
  live.filter (fun a => a.outpoint ∉ spent) ++ new

/-- What a node asks about the contract it moves. -/
structure WalletView (Opout : Type*) where
  p : Profile
  runtime : Runtime Opout
  unspents : List OutPoint
  id : ContractId

variable [LinearOrder Opout]

/-- The inputs of the transaction that carries a transition. -/
def WalletView.inputs (v : WalletView Opout) (amt : ℕ) (feeCoins : List OutPoint) : List OutPoint :=
  match getAssetOwnedValues v.runtime.debugHistory v.unspents v.id with
  | .error _ => []
  | .ok owned =>
    match selectInputs v.p amt owned.toList with
    | none => []
    | some selected => selected.rgbInputs ++ feeCoins

/-- The issues, and the transitions whose transactions confirm, by any wallet. -/
inductive SupplyInput (Opout : Type*) where
  | issueasset (allocation : Allocation Opout)
  | sendasset (v : WalletView Opout) (amt : ℕ) (sealValid uncoloredAvailable : Bool)
    (place : ℕ → Opout × OutPoint)
  | fundingGenerationReady (v : WalletView Opout) (amt : ℕ) (feeCoins : List OutPoint)
    (place : ℕ → Opout × OutPoint)

def supplyStep (live : List (Allocation Opout)) : SupplyInput Opout → List (Allocation Opout)
  | .issueasset allocation => live ++ [allocation]
  | .sendasset v amt sealValid uncoloredAvailable place =>
    match sendassetTransition v.p v.runtime v.unspents v.id amt sealValid uncoloredAvailable with
    | .ok t => spend live (v.inputs amt []) (t.place v.id place)
    | _ => live
  | .fundingGenerationReady v amt feeCoins place =>
    match fundingTransition v.p v.runtime v.unspents v.id amt feeCoins with
    | .ok t => spend live (v.inputs amt feeCoins) (t.place v.id place)
    | _ => live

def supplyRun (inputs : List (SupplyInput Opout)) : List (Allocation Opout) := run supplyStep [] inputs

def SupplyInput.genesis : SupplyInput Opout → List (Allocation Opout)
  | issueasset allocation => [allocation]
  | sendasset .. | fundingGenerationReady .. => []

/-- The amount of a contract that was issued. -/
def issued (inputs : List (SupplyInput Opout)) (id : ContractId) : ℕ :=
  circulating (inputs.flatMap SupplyInput.genesis) id

/-- What the wallet sees on its unspent outputs is there. -/
structure WalletView.Truly (v : WalletView Opout) (live : List (Allocation Opout)) : Prop where
  returnsAll : v.runtime.ReturnsAll
  known : ∀ h, v.runtime.debugHistory v.id = some h → ∀ o ∈ h.fungibles, o.sealOutpoint ∈ v.unspents →
    ⟨v.id, o.opout, o.sealOutpoint, o.amount⟩ ∈ live

/-- A funding built without overflow checks is also asked to be covered by what is owned
at that time, which is not checked. -/
def SupplyInput.Truly (live : List (Allocation Opout)) : SupplyInput Opout → Prop
  | issueasset _ => True
  | sendasset v .. => v.Truly live
  | fundingGenerationReady v amt feeCoins _ => v.Truly live ∧ feeCoins ⊆ v.unspents ∧
    (v.p.overflowChecks = false → ∀ owned,
      getAssetOwnedValues v.runtime.debugHistory v.unspents v.id = .ok owned →
        ¬Unfilled amt owned.toList)

end Transitions

section Amounts
variable {live : List (Allocation Opout)} {id : ContractId}

theorem circulating_append (live new : List (Allocation Opout)) (id : ContractId) :
    circulating (live ++ new) id = circulating live id + circulating new id := by
  rw [circulating, List.filter_append, total_append]
  rfl

theorem circulating_place (t : Transition Opout) (id : ContractId) (place : ℕ → Opout × OutPoint) :
    circulating (t.place id place) id = t.assignments.sum := by
  rw [circulating, List.filter_eq_self.mpr]
  · simp [Transition.place, total, Function.comp_def]
  · intro a ha
    obtain ⟨x, -, rfl⟩ := List.mem_map.mp ha
    simp

theorem circulating_place_of_ne (t : Transition Opout) {id id' : ContractId} (h : id ≠ id')
    (place : ℕ → Opout × OutPoint) : circulating (t.place id place) id' = 0 := by
  rw [circulating, List.filter_eq_nil_iff.mpr]
  · rfl
  · intro a ha
    obtain ⟨x, -, rfl⟩ := List.mem_map.mp ha
    simpa using h

/-- The part of a contract that leaves circulation when outputs are spent. -/
def leaving (live : List (Allocation Opout)) (spent : List OutPoint) (id : ContractId) : ℕ :=
  total Allocation.amount ((live.filter fun a => a.contractId = id).filter fun a => a.outpoint ∈ spent)

theorem circulating_spend (spent : List OutPoint) (new : List (Allocation Opout)) :
    circulating (spend live spent new) id + leaving live spent id =
      circulating live id + circulating new id := by
  have hsplit := total_filter_add Allocation.amount (live.filter fun a => a.contractId = id)
    fun a => decide (a.outpoint ∈ spent)
  have hstays : circulating (live.filter fun a => a.outpoint ∉ spent) id =
      total Allocation.amount ((live.filter fun a => a.contractId = id).filter
        fun a => !decide (a.outpoint ∈ spent)) := by
    simp only [circulating, List.filter_filter, decide_not, Bool.and_comm]
  have hall : circulating live id = total Allocation.amount (live.filter fun a => a.contractId = id) := rfl
  rw [spend, circulating_append, hstays, leaving, hall, ← hsplit]
  omega

end Amounts


section Moved
variable [LinearOrder Opout] {v : WalletView Opout} {live : List (Allocation Opout)}
  {h : ContractHistory Opout} {amt : ℕ} {feeCoins : List OutPoint} {t : Transition Opout}

omit [LinearOrder Opout] in
theorem consumed_mono {runtime : Runtime Opout} {id : ContractId} (hstate : runtime.ReturnsAll)
    (hid : runtime.debugHistory id = some h) {spent spent' : List OutPoint} (hsubset : spent ⊆ spent') :
    ((runtime.stateForOutpoints id spent).map Prod.snd).sum ≤
      ((runtime.stateForOutpoints id spent').map Prod.snd).sum := by
  rw [((hstate id h hid spent).map Prod.snd).sum_eq, ((hstate id h hid spent').map Prod.snd).sum_eq]
  have hsub : (h.fungibles.filter fun o => o.sealOutpoint ∈ spent).Sublist
      (h.fungibles.filter fun o => o.sealOutpoint ∈ spent') := by
    apply List.monotone_filter_right
    intro o ho
    simpa using hsubset (of_decide_eq_true ho)
  exact ((hsub.map _).map _).sum_le_sum fun _ _ => Nat.zero_le _

/-- A covered selection assigns no more than its transition consumes. -/
theorem assigned_le_consumed (hstate : v.runtime.ReturnsAll) (hid : v.runtime.debugHistory v.id = some h)
    {selected : Selection} {inputAmount : ℕ}
    (hloop : selectFrom v.p amt (collectOwned v.unspents h.fungibles).toList [] 0 =
      some (selected.rgbInputs, inputAmount))
    (hchange : subWord u64 v.p inputAmount amt = some selected.rgbChangeAmount)
    (hcovered : amt ≤ inputAmount) (feeCoins : List OutPoint) :
    amt + selected.rgbChangeAmount ≤
      ((v.runtime.stateForOutpoints v.id (selected.rgbInputs ++ feeCoins)).map Prod.snd).sum := by
  obtain ⟨taken, rest, hsplit, hinputs, hamount, -, -⟩ := exists_taken hloop
  rw [subWord_of_le hcovered] at hchange
  have hnone : ∀ o ∈ h.fungibles, o.sealOutpoint ∉ ([] : List OutPoint) := by simp
  have hconsumed := consumed_sum_cover hstate hid hnone hsplit
  have hmore := consumed_mono hstate hid (List.subset_append_left selected.rgbInputs feeCoins)
  have hcount : total OwnedValue.amount taken % 2 ^ u64 ≤ total OwnedValue.amount taken := Nat.mod_le _ _
  rw [List.append_nil, ← hinputs] at hconsumed
  have hchange := Option.some.inj hchange
  omega

theorem rgbInputs_subset {selected : List OutPoint} {inputAmount : ℕ}
    (hloop : selectFrom v.p amt (collectOwned v.unspents h.fungibles).toList [] 0 =
      some (selected, inputAmount)) : selected ⊆ v.unspents := by
  obtain ⟨taken, rest, hsplit, rfl, -⟩ := exists_taken hloop
  intro outpoint hmem
  obtain ⟨value, hvalue, rfl⟩ := List.mem_map.mp hmem
  have howned : value ∈ (collectOwned v.unspents h.fungibles).toList := by
    rw [hsplit]
    exact List.mem_append_left _ hvalue
  exact outpoint_mem_unspents howned

omit [LinearOrder Opout] in
/-- What a transition consumes leaves circulation. -/
theorem consumed_le_leaving (hview : v.Truly live) (hid : v.runtime.debugHistory v.id = some h)
    {spent : List OutPoint} (hspent : spent ⊆ v.unspents) :
    ((v.runtime.stateForOutpoints v.id spent).map Prod.snd).sum ≤ leaving live spent v.id := by
  let moved := (h.fungibles.filter fun o => o.sealOutpoint ∈ spent).map fun o : FungibleOutput Opout =>
    (⟨v.id, o.opout, o.sealOutpoint, o.amount⟩ : Allocation Opout)
  have hsum : ((v.runtime.stateForOutpoints v.id spent).map Prod.snd).sum =
      total Allocation.amount moved := by
    rw [((hview.returnsAll v.id h hid spent).map Prod.snd).sum_eq, total, List.map_map, List.map_map]
    rfl
  rw [hsum, leaving]
  apply total_le_of_nodup
  · apply List.Nodup.of_map Allocation.opout
    rw [List.map_map]
    exact (List.filter_sublist.map _).nodup h.nodup
  · intro a ha
    obtain ⟨o, ho, rfl⟩ := List.mem_map.mp ha
    obtain ⟨hmem, hseal⟩ := List.mem_filter.mp ho
    have hlive := hview.known h hid o hmem (hspent (of_decide_eq_true hseal))
    exact List.mem_filter.mpr ⟨List.mem_filter.mpr ⟨hlive, decide_eq_true rfl⟩, hseal⟩

/-- What is known of a transition that was built: the selection it is for and its inputs. -/
theorem sendassetTransition_eq_ok {sealValid uncoloredAvailable : Bool}
    (hok : sendassetTransition v.p v.runtime v.unspents v.id amt sealValid uncoloredAvailable = .ok t) :
    ∃ h selected, v.runtime.debugHistory v.id = some h ∧
      sendassetAccepts v.p v.runtime v.unspents v.id amt sealValid = .ok () ∧
      selectInputs v.p amt (collectOwned v.unspents h.fungibles).toList = some selected ∧
      t.assignments.sum = amt + selected.rgbChangeAmount ∧ v.inputs amt [] = selected.rgbInputs := by
  obtain ⟨u, hacc, hok⟩ := Outcome.bind_eq_ok.mp hok
  cases hid : v.runtime.debugHistory v.id with
  | none => simp [getAssetOwnedValues, hid] at hok
  | some h =>
    simp only [getAssetOwnedValues, hid] at hok
    obtain ⟨selected, hselected, hok⟩ := Outcome.bind_eq_ok.mp hok
    have hselected := Outcome.ofOption_eq_ok.mp hselected
    split_ifs at hok
    cases hok
    refine ⟨h, selected, rfl, hacc, hselected, ?_, ?_⟩
    · simp [sendRgb, Nat.add_comm]
    · simp [WalletView.inputs, getAssetOwnedValues, hid, hselected]

theorem fundingTransition_eq_ok (hok : fundingTransition v.p v.runtime v.unspents v.id amt feeCoins = .ok t) :
    ∃ h selected, v.runtime.debugHistory v.id = some h ∧
      selectInputs v.p amt (collectOwned v.unspents h.fungibles).toList = some selected ∧
      t.assignments.sum = amt + selected.rgbChangeAmount ∧
      v.inputs amt feeCoins = selected.rgbInputs ++ feeCoins := by
  unfold fundingTransition at hok
  cases hid : v.runtime.debugHistory v.id with
  | none => simp [getAssetOwnedValues, hid] at hok
  | some h =>
    simp only [getAssetOwnedValues, hid] at hok
    obtain ⟨selected, hselected, hok⟩ := Outcome.bind_eq_ok.mp hok
    have hselected := Outcome.ofOption_eq_ok.mp hselected
    cases hok
    refine ⟨h, selected, rfl, hselected, ?_, ?_⟩
    · simp [sendRgb]
    · simp [WalletView.inputs, getAssetOwnedValues, hid, hselected]

/-- An accepted amount is covered by what is selected, in both builds. -/
theorem covered_of_accepts (hid : v.runtime.debugHistory v.id = some h) {sealValid : Bool}
    (hacc : sendassetAccepts v.p v.runtime v.unspents v.id amt sealValid = .ok ()) {selected : List OutPoint}
    {inputAmount : ℕ} (hloop : selectFrom v.p amt (collectOwned v.unspents h.fungibles).toList [] 0 =
      some (selected, inputAmount)) : amt ≤ inputAmount := by
  have hle := le_of_sendassetAccepts hid (sendassetAccepts_release hid hacc)
  obtain ⟨taken, rest, hsplit, -, hamount, hstop, -⟩ := exists_taken hloop
  rcases hstop with rfl | hstop
  · rw [List.append_nil] at hsplit
    rw [hamount, ← hsplit]
    exact hle
  · exact hstop

/-- A transition whose selection is covered adds nothing to what circulates. -/
theorem circulating_spend_le (hview : v.Truly live) (hid : v.runtime.debugHistory v.id = some h)
    {selected : Selection}
    (hselected : selectInputs v.p amt (collectOwned v.unspents h.fungibles).toList = some selected)
    (hcovered : v.p.overflowChecks = false → ∀ inputAmount,
      selectFrom v.p amt (collectOwned v.unspents h.fungibles).toList [] 0 =
        some (selected.rgbInputs, inputAmount) → amt ≤ inputAmount)
    (hsum : t.assignments.sum = amt + selected.rgbChangeAmount) (hfees : feeCoins ⊆ v.unspents)
    (place : ℕ → Opout × OutPoint) (id : ContractId) :
    circulating (spend live (selected.rgbInputs ++ feeCoins) (t.place v.id place)) id ≤
      circulating live id := by
  have hspend : circulating (spend live (selected.rgbInputs ++ feeCoins) (t.place v.id place)) id + _ = _ :=
    circulating_spend (selected.rgbInputs ++ feeCoins) (t.place v.id place)
  by_cases hcontract : v.id = id
  · subst hcontract
    obtain ⟨inputAmount, hloop, hchange⟩ := selectInputs_eq_some hselected
    have hle : amt ≤ inputAmount := by
      cases hchecks : v.p.overflowChecks with
      | false => exact hcovered hchecks inputAmount hloop
      | true => exact le_of_subWord hchecks hchange
    have hassigned := assigned_le_consumed hview.returnsAll hid hloop hchange hle feeCoins
    have hspent : selected.rgbInputs ++ feeCoins ⊆ v.unspents :=
      List.append_subset.mpr ⟨rgbInputs_subset hloop, hfees⟩
    have hconsumed := consumed_le_leaving hview hid hspent
    rw [circulating_place, hsum] at hspend
    omega
  · rw [circulating_place_of_ne t hcontract] at hspend
    omega

end Moved

section Supply
variable [LinearOrder Opout] {live : List (Allocation Opout)} {inputs : List (SupplyInput Opout)}

theorem supplyStep_le {input : SupplyInput Opout} (htruly : input.Truly live) (id : ContractId) :
    circulating (supplyStep live input) id ≤ circulating live id + issued [input] id := by
  cases input with
  | issueasset allocation =>
    rw [supplyStep, circulating_append]
    rfl
  | sendasset v amt sealValid uncoloredAvailable place =>
    rw [supplyStep]
    cases hok : sendassetTransition v.p v.runtime v.unspents v.id amt sealValid uncoloredAvailable with
    | err e => exact Nat.le_add_right _ _
    | abort => exact Nat.le_add_right _ _
    | ok t =>
      obtain ⟨h, selected, hid, hacc, hselected, hsum, hinputs⟩ := sendassetTransition_eq_ok hok
      have hle := circulating_spend_le htruly hid hselected
        (fun _ _ hloop => covered_of_accepts hid hacc hloop) hsum (List.nil_subset _) place id
      rw [List.append_nil, ← hinputs] at hle
      exact hle.trans (Nat.le_add_right _ _)
  | fundingGenerationReady v amt feeCoins place =>
    obtain ⟨hview, hfees, hfilled⟩ := htruly
    rw [supplyStep]
    cases hok : fundingTransition v.p v.runtime v.unspents v.id amt feeCoins with
    | err e => exact Nat.le_add_right _ _
    | abort => exact Nat.le_add_right _ _
    | ok t =>
      obtain ⟨h, selected, hid, hselected, hsum, hinputs⟩ := fundingTransition_eq_ok hok
      have howned : getAssetOwnedValues v.runtime.debugHistory v.unspents v.id =
          .ok (collectOwned v.unspents h.fungibles) := by
        rw [getAssetOwnedValues, hid]
      have hle := circulating_spend_le hview hid hselected
        (fun hchecks _ hloop => (covered_iff hloop).mpr (hfilled hchecks _ howned)) hsum hfees place id
      rw [← hinputs] at hle
      exact hle.trans (Nat.le_add_right _ _)

omit [LinearOrder Opout] in
theorem issued_concat (inputs : List (SupplyInput Opout)) (input : SupplyInput Opout) (id : ContractId) :
    issued (inputs ++ [input]) id = issued inputs id + issued [input] id := by
  rw [issued, List.flatMap_append, circulating_append]
  rfl

/-- Never more of a contract circulates than was issued of it, whatever wallets issue,
send and fund channels, in either build. -/
theorem circulating_le_issued
    (htruly : EachAfter (fun older input => input.Truly (supplyRun older)) inputs) (id : ContractId) :
    circulating (supplyRun inputs) id ≤ issued inputs id := by
  induction inputs using List.reverseRecOn with
  | nil => exact Nat.le_refl _
  | append_singleton inputs input ih =>
    obtain ⟨hbefore, hinput⟩ := eachAfter_concat.mp htruly
    have hstep := supplyStep_le hinput id
    have hold := ih hbefore
    rw [supplyRun, run_concat, issued_concat]
    rw [supplyRun] at hold hstep
    omega

def issuedOnce : ContractHistory ℕ where
  fungibles := [⟨0, ⟨Bytes32.fill 1, 0⟩, 30⟩]
  nodup := by decide

def issuedRuntime : Runtime ℕ where
  debugHistory _ := some issuedOnce
  stateForOutpoints _ outpoints :=
    (issuedOnce.fungibles.filter fun o => o.sealOutpoint ∈ outpoints).map fun o => (o.opout, o.amount)

theorem issuedRuntime_returnsAll : issuedRuntime.ReturnsAll := by
  intro id h hid outpoints
  cases hid
  exact .refl _

def thirtyIssued : SupplyInput ℕ := .issueasset ⟨Bytes32.fill 9, 0, ⟨Bytes32.fill 1, 0⟩, 30⟩

/-- Ten of the 30 units go to somebody else. -/
def tenSent : SupplyInput ℕ :=
  .sendasset ⟨.release, issuedRuntime, [⟨Bytes32.fill 1, 0⟩], Bytes32.fill 9⟩ 10 true true
    fun no => (no + 1, ⟨Bytes32.fill 2, no⟩)

theorem circulating_le_issued_tenSent :
    circulating (supplyRun [thirtyIssued, tenSent]) (Bytes32.fill 9) ≤ 30 := by
  have hview : tenSent.Truly (supplyRun [thirtyIssued]) := by
    refine ⟨issuedRuntime_returnsAll, ?_⟩
    intro h hid o ho _
    cases hid
    obtain rfl := List.mem_singleton.mp ho
    exact List.mem_singleton.mpr rfl
  have htruly : EachAfter (fun older input => input.Truly (supplyRun older))
      ([] ++ [thirtyIssued] ++ [tenSent]) :=
    eachAfter_concat.mpr ⟨eachAfter_concat.mpr ⟨eachAfter_nil _, trivial⟩, hview⟩
  exact circulating_le_issued htruly (Bytes32.fill 9)

end Supply

end RgbLightning.Rgb
