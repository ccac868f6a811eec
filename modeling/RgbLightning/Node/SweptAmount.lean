import RgbLightning.Node.SealOutputs

/-! # The amount a sweep moves

The loop over the bundle of the closing transaction adds up what is assigned to the
index of the spent output. `send_rgb` then consumes what the RGB runtime has on that
outpoint.
-/
namespace RgbLightning.Node
open MachineInt Decimal Rgb Cover

inductive TxPtr where
  | witnessTx
  | txid (txid : Txid)
  deriving DecidableEq

structure GraphSeal where
  txid : TxPtr
  vout : ℕ
  deriving DecidableEq

def GraphSeal.resolve (witness : Txid) : GraphSeal → OutPoint
  | ⟨.witnessTx, vout⟩ => ⟨witness, vout⟩
  | ⟨.txid txid, vout⟩ => ⟨txid, vout⟩

/-- An assignment, of which the seal, the state or both may be concealed. A concealed
state has no amount to add. -/
inductive Assign where
  | revealed (graphSeal : GraphSeal) (amount : ℕ)
  | confidentialSeal (blindedUtxo : Text) (amount : ℕ)
  | confidentialState (graphSeal : GraphSeal)
  | confidential (blindedUtxo : Text)
  deriving DecidableEq

inductive TypedAssigns where
  | declarative
  | fungible (assigns : List Assign)
  | structured
  | attachment

def TypedAssigns.asFungible : TypedAssigns → List Assign
  | fungible assigns => assigns
  | _ => []

structure BundleTransition where
  assignments : List (ℕ × TypedAssigns)

structure BundleItem where
  transition : Option BundleTransition

abbrev TransitionBundle := List BundleItem

section Loop
variable (p : Profile) (vout : ℕ)

def addAssign (amtRgb : ℕ) : Assign → Option ℕ
  | .revealed graphSeal amount =>
    if graphSeal.vout = vout then addWord u64 p amtRgb amount else some amtRgb
  | _ => some amtRgb

def addTyped (amtRgb : ℕ) (assignment : ℕ × TypedAssigns) : Option ℕ :=
  assignment.2.asFungible.foldlM (addAssign p vout) amtRgb

def addItem (amtRgb : ℕ) (item : BundleItem) : Option ℕ :=
  match item.transition with
  | some transition => transition.assignments.foldlM (addTyped p vout) amtRgb
  | none => some amtRgb

/-- The loop looks at the index of a seal only. -/
def amtRgb (bundle : TransitionBundle) : Option ℕ := bundle.foldlM (addItem p vout) 0

end Loop

def BundleItem.assigns (item : BundleItem) : List Assign :=
  item.transition.toList.flatMap fun transition =>
    transition.assignments.flatMap fun assignment => assignment.2.asFungible

/-- All fungible assignments of a bundle. -/
def TransitionBundle.assigns (bundle : TransitionBundle) : List Assign := bundle.flatMap BundleItem.assigns

section Units
variable (spent : OutPoint) (sealSecret : Text → Option OutPoint)

/-- What the loop adds for an assignment. -/
def Assign.counted (vout : ℕ) : Assign → ℕ
  | .revealed graphSeal amount => if graphSeal.vout = vout then amount else 0
  | _ => 0

/-- Counted and on the spent output. -/
def Assign.own : Assign → ℕ
  | .revealed graphSeal amount => if graphSeal.resolve spent.txid = spent then amount else 0
  | _ => 0

/-- Counted although it is on an output of another transaction. -/
def Assign.stray : Assign → ℕ
  | .revealed ⟨.txid txid, vout⟩ amount => if vout = spent.vout ∧ txid ≠ spent.txid then amount else 0
  | _ => 0

/-- On the spent output but not counted, as the seal is concealed. -/
def Assign.missed : Assign → ℕ
  | .confidentialSeal blindedUtxo amount => if sealSecret blindedUtxo = some spent then amount else 0
  | _ => 0

/-- The outpoint of an assignment, if it is known, and the amount on it. -/
def Assign.allocation (witness : Txid) : Assign → Option (OutPoint × ℕ)
  | .revealed graphSeal amount => some (graphSeal.resolve witness, amount)
  | .confidentialSeal blindedUtxo amount => (sealSecret blindedUtxo).map fun outpoint => (outpoint, amount)
  | _ => none

/-- The allocations on an outpoint. -/
def allocatedOn (allocations : List (OutPoint × ℕ)) : ℕ :=
  total Prod.snd (allocations.filter fun a => a.1 = spent)

/-- The allocations of a contract: those of the closing transaction's bundle, and those
that other transactions have made. -/
def contractAllocations (bundle : TransitionBundle) (elsewhere : List (OutPoint × ℕ)) :
    List (OutPoint × ℕ) :=
  bundle.assigns.filterMap (Assign.allocation sealSecret spent.txid) ++ elsewhere

end Units

section Sums
variable {p : Profile} {vout : ℕ} {spent : OutPoint} {sealSecret : Text → Option OutPoint}
  {bundle : TransitionBundle} {elsewhere : List (OutPoint × ℕ)}

theorem narrow_bind_addAssign (n : ℕ) (a : Assign) :
    (narrow u64 p n).bind (fun amtRgb => addAssign p vout amtRgb a) = narrow u64 p (n + a.counted vout) := by
  cases a with
  | revealed graphSeal amount =>
    by_cases hvout : graphSeal.vout = vout
    · simpa [addAssign, Assign.counted, hvout, addWord] using narrow_bind_add p n amount
    · simp [addAssign, Assign.counted, hvout]
  | confidentialSeal blindedUtxo amount => simp [addAssign, Assign.counted]
  | confidentialState graphSeal => simp [addAssign, Assign.counted]
  | confidential blindedUtxo => simp [addAssign, Assign.counted]

/-- The nested loops add up what they count, as one word. -/
theorem amtRgb_eq : amtRgb p vout bundle = narrow u64 p (total (Assign.counted vout) bundle.assigns) := by
  have htyped : ∀ n assignment, (narrow u64 p n).bind (fun amtRgb => addTyped p vout amtRgb assignment) =
      narrow u64 p (n + total (Assign.counted vout) assignment.2.asFungible) := by
    intro n assignment
    exact foldlM_narrow narrow_bind_addAssign assignment.2.asFungible n
  have hitem : ∀ n item, (narrow u64 p n).bind (fun amtRgb => addItem p vout amtRgb item) =
      narrow u64 p (n + total (Assign.counted vout) item.assigns) := by
    intro n item
    unfold addItem BundleItem.assigns
    cases item.transition with
    | none => simp
    | some transition =>
      rw [Option.toList_some, List.flatMap_singleton, total_flatMap]
      exact foldlM_narrow htyped transition.assignments n
  have hbundle := foldlM_narrow hitem bundle 0
  rw [narrow_of_lt (by positivity), Option.bind_some, Nat.zero_add] at hbundle
  rw [TransitionBundle.assigns, total_flatMap]
  exact hbundle

theorem resolve_witnessTx {vout : ℕ} :
    (⟨.witnessTx, vout⟩ : GraphSeal).resolve spent.txid = spent ↔ vout = spent.vout := by
  obtain ⟨txid, index⟩ := spent
  simp [GraphSeal.resolve]

theorem resolve_txid {vout : ℕ} {txid : Txid} :
    (⟨.txid txid, vout⟩ : GraphSeal).resolve spent.txid = spent ↔ txid = spent.txid ∧ vout = spent.vout := by
  obtain ⟨spentTxid, index⟩ := spent
  simp [GraphSeal.resolve]

theorem counted_eq (a : Assign) : a.counted spent.vout = a.own spent + a.stray spent := by
  cases a with
  | revealed graphSeal amount =>
    obtain ⟨ptr, vout⟩ := graphSeal
    cases ptr with
    | witnessTx => simp [Assign.counted, Assign.own, Assign.stray, resolve_witnessTx]
    | txid txid =>
      by_cases htxid : txid = spent.txid
      · simp [Assign.counted, Assign.own, Assign.stray, resolve_txid, htxid]
      · simp [Assign.counted, Assign.own, Assign.stray, resolve_txid, htxid]
  | confidentialSeal blindedUtxo amount => rfl
  | confidentialState graphSeal => rfl
  | confidential blindedUtxo => rfl

theorem counted_total (assigns : List Assign) :
    total (Assign.counted spent.vout) assigns =
      total (Assign.own spent) assigns + total (Assign.stray spent) assigns := by
  induction assigns with
  | nil => rfl
  | cons a assigns ih =>
    simp only [total_cons, ih, counted_eq]
    omega

theorem allocatedOn_allocation (a : Assign) :
    allocatedOn spent (a.allocation sealSecret spent.txid).toList = a.own spent + a.missed spent sealSecret := by
  cases a with
  | revealed graphSeal amount =>
    by_cases hspent : graphSeal.resolve spent.txid = spent <;>
      simp [allocatedOn, Assign.allocation, Assign.own, Assign.missed, hspent]
  | confidentialSeal blindedUtxo amount =>
    cases hsecret : sealSecret blindedUtxo with
    | none => simp [allocatedOn, Assign.allocation, Assign.own, Assign.missed, hsecret]
    | some outpoint =>
      by_cases hspent : outpoint = spent <;>
        simp [allocatedOn, Assign.allocation, Assign.own, Assign.missed, hsecret, hspent]
  | confidentialState graphSeal => rfl
  | confidential blindedUtxo => rfl

theorem allocatedOn_append (xs ys : List (OutPoint × ℕ)) :
    allocatedOn spent (xs ++ ys) = allocatedOn spent xs + allocatedOn spent ys := by
  simp [allocatedOn]

theorem allocatedOn_filterMap (assigns : List Assign) :
    allocatedOn spent (assigns.filterMap (Assign.allocation sealSecret spent.txid)) =
      total (Assign.own spent) assigns + total (Assign.missed spent sealSecret) assigns := by
  induction assigns with
  | nil => rfl
  | cons a assigns ih =>
    have hsplit : (a :: assigns).filterMap (Assign.allocation sealSecret spent.txid) =
        (a.allocation sealSecret spent.txid).toList ++
          assigns.filterMap (Assign.allocation sealSecret spent.txid) := by
      cases h : a.allocation sealSecret spent.txid <;> simp [h]
    rw [hsplit, allocatedOn_append, allocatedOn_allocation, ih, total_cons, total_cons]
    omega

/-- What is on the spent output has been counted or missed, or comes from elsewhere. -/
theorem allocatedOn_contract : allocatedOn spent (contractAllocations spent sealSecret bundle elsewhere) =
    total (Assign.own spent) bundle.assigns +
      (total (Assign.missed spent sealSecret) bundle.assigns + allocatedOn spent elsewhere) := by
  rw [contractAllocations, allocatedOn_append, allocatedOn_filterMap, Nat.add_assoc]

end Sums

section Sweep
variable {Opout : Type} {p : Profile} {spent : OutPoint} {runtime : SendRuntime Opout}
  {bundle : TransitionBundle} {elsewhere : List (OutPoint × ℕ)} {contractId : ContractId}
  {psbt : Psbt Opout}

/-- The inputs and the assignments of a transition have the same amount. -/
def AmountsAgree (t : ContractTransition Opout) : Prop :=
  (t.inputs.map Prod.snd).sum = (t.assignments.map Prod.snd).sum

/-- The runtime knows the contract's allocations on the spent output. -/
def KnowsSpent (runtime : SendRuntime Opout) (contractId : ContractId) (spent : OutPoint)
    (allocations : List (OutPoint × ℕ)) : Prop :=
  ((runtime.stateForOutpoints contractId [spent]).map Prod.snd).Perm
    ((allocations.filter fun a => a.1 = spent).map Prod.snd)

/-- The transition of a sweep whose transaction has these outputs. -/
def sweepTransition (runtime : SendRuntime Opout) (contractId : ContractId) (psbt : Psbt Opout)
    (outputs : List TxOut) (amtRgb : ℕ) : ContractTransition Opout :=
  ownTransition runtime contractId psbt (updateTransitionBeneficiary outputs [] ⟨[], []⟩ amtRgb).2.2

theorem sweepTransition_inputs (outputs : List TxOut) (amtRgb : ℕ) :
    (sweepTransition runtime contractId psbt outputs amtRgb).inputs =
      runtime.stateForOutpoints contractId psbt.prevOutputs := by
  simp [sweepTransition, ownTransition, foldl_addInput, TransitionBuilder.completeTransition,
    updateTransitionBeneficiary]

theorem sweepTransition_assignments (outputs : List TxOut) (amtRgb : ℕ) :
    ((sweepTransition runtime contractId psbt outputs amtRgb).assignments.map Prod.snd).sum = amtRgb := by
  simp [sweepTransition, ownTransition, foldl_addInput, TransitionBuilder.completeTransition,
    updateTransitionBeneficiary]

/-- The sweep moves what is on the spent output iff the loop has counted as much on
other transactions as it has missed, up to whole words in an unchecked build. -/
theorem swept_amount_iff
    (hknows : KnowsSpent runtime contractId spent
      (contractAllocations spent runtime.sealSecret bundle elsewhere))
    (hspends : psbt.prevOutputs = [spent]) (outputs : List TxOut) :
    (∃ amt, amtRgb p spent.vout bundle = some amt ∧
      amt = allocatedOn spent (contractAllocations spent runtime.sealSecret bundle elsewhere) ∧
      AmountsAgree (sweepTransition runtime contractId psbt outputs amt)) ↔
    allocatedOn spent (contractAllocations spent runtime.sealSecret bundle elsewhere) < 2 ^ u64 ∧
      ∃ k, total (Assign.stray spent) bundle.assigns =
        total (Assign.missed spent runtime.sealSecret) bundle.assigns + allocatedOn spent elsewhere +
          k * 2 ^ u64 ∧ (p.overflowChecks = true → k = 0) := by
  have hinputs : ∀ amt, AmountsAgree (sweepTransition runtime contractId psbt outputs amt) ↔
      allocatedOn spent (contractAllocations spent runtime.sealSecret bundle elsewhere) = amt := by
    intro amt
    rw [AmountsAgree, sweepTransition_inputs, sweepTransition_assignments, hspends, hknows.sum_eq]
    rfl
  have hamt : (∃ amt, amtRgb p spent.vout bundle = some amt ∧
      amt = allocatedOn spent (contractAllocations spent runtime.sealSecret bundle elsewhere) ∧
      AmountsAgree (sweepTransition runtime contractId psbt outputs amt)) ↔
      amtRgb p spent.vout bundle =
        some (allocatedOn spent (contractAllocations spent runtime.sealSecret bundle elsewhere)) := by
    constructor
    · rintro ⟨amt, hamt, rfl, -⟩
      exact hamt
    · intro h
      exact ⟨_, h, rfl, (hinputs _).mpr rfl⟩
  rw [hamt, amtRgb_eq, narrow_eq_some_iff, counted_total]
  refine and_congr_right fun _ => exists_congr fun k => and_congr_left fun _ => ?_
  rw [allocatedOn_contract]
  omega

/-- Output 0 of a closing transaction, on which the runtime has ten units. -/
def closingOutput : OutPoint := ⟨Bytes32.fill 1, 0⟩

def tenUnits : SendRuntime ℕ where
  stateForOutpoints _ outpoints := if closingOutput ∈ outpoints then [(0, 10)] else []
  contractsByOutpoints _ := [Bytes32.fill 7]
  rgbBundles _ := []
  opout _ no := no
  sealSecret _ := none

/-- Ten units to output 0 of the closing transaction, and what else is assigned. -/
def closingBundle (others : List Assign) : TransitionBundle :=
  [⟨some ⟨[(4000, .fungible (.revealed ⟨.witnessTx, 0⟩ 10 :: others))]⟩⟩]

def sweepPsbt : Psbt ℕ := ⟨Bytes32.fill 5, [⟨closingOutput, []⟩], some 1, []⟩

theorem swept_amount_agrees :
    ∃ amt, amtRgb .dev 0 (closingBundle [.revealed ⟨.witnessTx, 1⟩ 90]) = some amt ∧ amt = 10 ∧
      AmountsAgree (sweepTransition tenUnits (Bytes32.fill 7) sweepPsbt [] amt) := by
  have hknows : KnowsSpent tenUnits (Bytes32.fill 7) closingOutput (contractAllocations closingOutput
      tenUnits.sealSecret (closingBundle [.revealed ⟨.witnessTx, 1⟩ 90]) []) := List.Perm.refl [10]
  exact (swept_amount_iff hknows rfl []).mpr ⟨by decide, 0, by decide, fun _ => rfl⟩

/-- Five units on output 0 of another transaction are counted too. -/
theorem swept_amount_inflated :
    KnowsSpent tenUnits (Bytes32.fill 7) closingOutput (contractAllocations closingOutput
      tenUnits.sealSecret (closingBundle [.revealed ⟨.txid (Bytes32.fill 2), 0⟩ 5]) []) ∧
    allocatedOn closingOutput (contractAllocations closingOutput tenUnits.sealSecret
      (closingBundle [.revealed ⟨.txid (Bytes32.fill 2), 0⟩ 5]) []) = 10 ∧
    amtRgb .dev 0 (closingBundle [.revealed ⟨.txid (Bytes32.fill 2), 0⟩ 5]) = some 15 ∧
    ¬AmountsAgree (sweepTransition tenUnits (Bytes32.fill 7) sweepPsbt [] 15) := by
  refine ⟨List.Perm.refl [10], by decide, by decide, ?_⟩
  rw [AmountsAgree, sweepTransition_assignments, sweepTransition_inputs]
  decide

end Sweep

end RgbLightning.Node
