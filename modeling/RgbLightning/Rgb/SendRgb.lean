import RgbLightning.Rgb.Transition

/-! # `send_rgb` and the other assets

A transaction output may carry allocations of several contracts. `send_rgb` moves
those of the contract that is sent. It also collects the other contracts found on
the transaction's inputs, but builds nothing for them.
-/
namespace RgbLightning.Rgb
open MachineInt Decimal Cover
variable {Opout : Type*}

inductive Seal where
  | explicit (outpoint : OutPoint)
  /-- An output of the transaction that is being built. -/
  | witnessVout (vout : ℕ)
  | concealed (blindedUtxo : Text)
  deriving DecidableEq

structure TransitionBuilder (Opout : Type*) where
  inputs : List (Opout × ℕ)
  assignments : List (Seal × ℕ)
  deriving DecidableEq

structure ContractTransition (Opout : Type*) where
  contractId : ContractId
  inputs : List (Opout × ℕ)
  assignments : List (Seal × ℕ)
  deriving DecidableEq

def TransitionBuilder.addInput (b : TransitionBuilder Opout) (input : Opout × ℕ) :
    TransitionBuilder Opout :=
  { b with inputs := b.inputs ++ [input] }

def TransitionBuilder.completeTransition (b : TransitionBuilder Opout) (contractId : ContractId) :
    ContractTransition Opout :=
  ⟨contractId, b.inputs, b.assignments⟩

structure PsbtInput (Opout : Type*) where
  previousOutput : OutPoint
  rgbConsumers : List (ContractId × ContractTransition Opout)
  deriving DecidableEq

structure Psbt (Opout : Type*) where
  txid : Txid
  inputs : List (PsbtInput Opout)
  opReturnIndex : Option ℕ
  rgbTransitions : List (ContractTransition Opout)
  deriving DecidableEq

abbrev Bundle (Opout : Type*) := ContractId × List (ContractTransition Opout)

/-- What `send_rgb` asks the RGB library for. The library numbers the assignments of
a transition, and knows the outpoints of the seals that this wallet has blinded. -/
structure SendRuntime (Opout : Type*) where
  stateForOutpoints : ContractId → List OutPoint → List (Opout × ℕ)
  contractsByOutpoints : List OutPoint → List ContractId
  rgbBundles : Psbt Opout → List (Bundle Opout)
  opout : ContractTransition Opout → ℕ → Opout
  sealSecret : Text → Option OutPoint

section SendRgb
variable (runtime : SendRuntime Opout)

/-- The inputs on which each contract has allocations. -/
def contractInputs (prevOutputs : List OutPoint) : ContractId → List OutPoint :=
  prevOutputs.foldl (fun inputs outpoint =>
    (runtime.contractsByOutpoints [outpoint]).foldl
      (fun inputs id => Function.update inputs id (inputs id ++ [outpoint])) inputs) fun _ => []

def Psbt.prevOutputs (psbt : Psbt Opout) : List OutPoint := psbt.inputs.map PsbtInput.previousOutput

def Psbt.setRgbConsumers (psbt : Psbt Opout) (t : ContractTransition Opout) (inputs : List OutPoint) :
    Psbt Opout :=
  { psbt with
    inputs := psbt.inputs.map fun input =>
      if input.previousOutput ∈ inputs then
        { input with rgbConsumers := input.rgbConsumers ++ [(t.contractId, t)] }
      else input }

def Psbt.pushRgbTransition (psbt : Psbt Opout) (t : ContractTransition Opout) : Psbt Opout :=
  { psbt with rgbTransitions := psbt.rgbTransitions ++ [t] }

/-- The transition that moves the contract's own allocations. -/
def ownTransition (contractId : ContractId) (psbt : Psbt Opout) (builder : TransitionBuilder Opout) :
    ContractTransition Opout :=
  ((runtime.stateForOutpoints contractId psbt.prevOutputs).foldl
    TransitionBuilder.addInput builder).completeTransition contractId

/-- The bundles that are committed to. Of the inputs collected only those of the sent
contract are used; a transaction without commitment output is a panic. -/
def sendRgbBundles (contractId : ContractId) (psbt : Psbt Opout) (builder : TransitionBuilder Opout) :
    Outcome (Psbt Opout × List (Bundle Opout)) :=
  let transition := ownTransition runtime contractId psbt builder
  let inputs := contractInputs runtime psbt.prevOutputs contractId
  let psbt := (psbt.setRgbConsumers transition inputs).pushRgbTransition transition
  (Outcome.ofOption psbt.opReturnIndex).bind fun _ => .ok (psbt, runtime.rgbBundles psbt)

theorem foldl_addInput (inputs : List (Opout × ℕ)) (builder : TransitionBuilder Opout) :
    inputs.foldl TransitionBuilder.addInput builder =
      ⟨builder.inputs ++ inputs, builder.assignments⟩ := by
  induction inputs generalizing builder with
  | nil => simp
  | cons input inputs ih => simp [ih, TransitionBuilder.addInput]

/-- In its amounts the transition is the one of the sent contract alone. -/
theorem ownTransition_eq_sendRgb {history : History Opout} (contractId : ContractId)
    (psbt : Psbt Opout) (assignments : List (Seal × ℕ)) :
    (⟨(ownTransition runtime contractId psbt ⟨[], assignments⟩).inputs,
      (ownTransition runtime contractId psbt ⟨[], assignments⟩).assignments.map Prod.snd⟩ :
        Transition Opout) =
      sendRgb ⟨history, runtime.stateForOutpoints⟩ contractId psbt.prevOutputs
        (assignments.map Prod.snd) := by
  simp [ownTransition, foldl_addInput, TransitionBuilder.completeTransition, sendRgb]

end SendRgb

section Ledger

structure Allocation (Opout : Type*) where
  contractId : ContractId
  opout : Opout
  outpoint : OutPoint
  amount : ℕ
  deriving DecidableEq

/-- The allocations known, and the unspent outputs that the wallet controls. -/
structure Ledger (Opout : Type*) where
  allocations : List (Allocation Opout)
  unspents : List OutPoint

/-- The amount of a contract on unspent outputs of the wallet. -/
def Ledger.balance (l : Ledger Opout) (id : ContractId) : ℕ :=
  total Allocation.amount (l.allocations.filter fun a => a.contractId = id ∧ a.outpoint ∈ l.unspents)

/-- The part of it that is on the inputs of a transaction. -/
def Ledger.lost (l : Ledger Opout) (psbt : Psbt Opout) (id : ContractId) : ℕ :=
  total Allocation.amount ((l.allocations.filter fun a =>
    a.contractId = id ∧ a.outpoint ∈ l.unspents).filter fun a => a.outpoint ∈ psbt.prevOutputs)

def Seal.resolve (runtime : SendRuntime Opout) (txid : Txid) : Seal → Option OutPoint
  | explicit outpoint => some outpoint
  | witnessVout vout => some ⟨txid, vout⟩
  | concealed blindedUtxo => runtime.sealSecret blindedUtxo

/-- The allocations a transition makes on outpoints that the wallet knows. -/
def ContractTransition.allocations (runtime : SendRuntime Opout) (txid : Txid)
    (t : ContractTransition Opout) : List (Allocation Opout) :=
  t.assignments.zipIdx.filterMap fun ((target, amount), no) =>
    (target.resolve runtime txid).map fun outpoint => ⟨t.contractId, runtime.opout t no, outpoint, amount⟩

def bundledAllocations (runtime : SendRuntime Opout) (txid : Txid) (bundles : List (Bundle Opout)) :
    List (Allocation Opout) :=
  bundles.flatMap fun bundle => bundle.2.flatMap (ContractTransition.allocations runtime txid)

/-- The transaction confirms: its inputs are spent, its outputs to the wallet are
unspent, and the bundled transitions take effect. -/
def Ledger.confirm (l : Ledger Opout) (runtime : SendRuntime Opout) (psbt : Psbt Opout)
    (walletVouts : List ℕ) (bundles : List (Bundle Opout)) : Ledger Opout where
  allocations := l.allocations ++ bundledAllocations runtime psbt.txid bundles
  unspents := (l.unspents.filter fun o => o ∉ psbt.prevOutputs) ++
    walletVouts.map fun vout => ⟨psbt.txid, vout⟩

/-- Every allocation of the contract on an input is consumed by a bundled transition
of that contract with an assignment to an output of the wallet. -/
def CarriedHome (l : Ledger Opout) (runtime : SendRuntime Opout) (psbt : Psbt Opout)
    (walletVouts : List ℕ) (bundles : List (Bundle Opout)) (id : ContractId) : Prop :=
  ∀ a ∈ l.allocations, a.contractId = id → a.outpoint ∈ psbt.prevOutputs →
    ∃ bundle ∈ bundles, ∃ t ∈ bundle.2, t.contractId = id ∧ a.opout ∈ t.inputs.map Prod.fst ∧
      ∃ b ∈ t.allocations runtime psbt.txid,
        b.outpoint ∈ (l.confirm runtime psbt walletVouts bundles).unspents

end Ledger

section OtherAssets
variable {runtime : SendRuntime Opout} {l : Ledger Opout} {psbt psbt' : Psbt Opout}
  {builder : TransitionBuilder Opout} {walletVouts : List ℕ} {bundles : List (Bundle Opout)}
  {contractId id : ContractId}

/-- The bundles of a transaction hold transitions that were pushed to it. -/
def SendRuntime.BundlesPushed (runtime : SendRuntime Opout) : Prop :=
  ∀ psbt, ∀ bundle ∈ runtime.rgbBundles psbt, ∀ t ∈ bundle.2, t ∈ psbt.rgbTransitions

theorem setRgbConsumers_prevOutputs (psbt : Psbt Opout) (t : ContractTransition Opout)
    (inputs : List OutPoint) : (psbt.setRgbConsumers t inputs).prevOutputs = psbt.prevOutputs := by
  simp only [Psbt.prevOutputs, Psbt.setRgbConsumers, List.map_map]
  apply List.map_congr_left
  intro input _
  rw [Function.comp_apply, apply_ite PsbtInput.previousOutput, ite_self]

theorem sendRgbBundles_ok (h : sendRgbBundles runtime contractId psbt builder = .ok (psbt', bundles)) :
    psbt'.rgbTransitions = psbt.rgbTransitions ++ [ownTransition runtime contractId psbt builder] ∧
      bundles = runtime.rgbBundles psbt' ∧ psbt'.txid = psbt.txid ∧
      psbt'.prevOutputs = psbt.prevOutputs := by
  obtain ⟨index, -, hok⟩ := Outcome.bind_eq_ok.mp h
  cases hok
  exact ⟨rfl, rfl, rfl, setRgbConsumers_prevOutputs _ _ _⟩

/-- Only the sent contract has transitions in the bundles. -/
theorem bundled_contractId (hbundles : runtime.BundlesPushed) (hplain : psbt.rgbTransitions = [])
    (h : sendRgbBundles runtime contractId psbt builder = .ok (psbt', bundles)) :
    ∀ bundle ∈ bundles, ∀ t ∈ bundle.2, t.contractId = contractId := by
  obtain ⟨htransitions, rfl, -, -⟩ := sendRgbBundles_ok h
  intro bundle hbundle t ht
  have hpushed : t ∈ psbt'.rgbTransitions := hbundles psbt' bundle hbundle t ht
  rw [htransitions, hplain, List.nil_append] at hpushed
  rw [List.mem_singleton.mp hpushed]
  rfl

theorem allocations_contractId {t : ContractTransition Opout} {txid : Txid} {a : Allocation Opout}
    (h : a ∈ t.allocations runtime txid) : a.contractId = t.contractId := by
  obtain ⟨⟨⟨target, amount⟩, no⟩, -, hresolve⟩ := List.mem_filterMap.mp h
  obtain ⟨outpoint, -, rfl⟩ := Option.map_eq_some_iff.mp hresolve
  rfl

variable (walletVouts) in
/-- What the wallet loses of another contract is what was on the inputs. -/
theorem balance_confirm (hbundles : runtime.BundlesPushed) (hplain : psbt.rgbTransitions = [])
    (hfresh : ∀ a ∈ l.allocations, a.outpoint.txid ≠ psbt.txid)
    (h : sendRgbBundles runtime contractId psbt builder = .ok (psbt', bundles)) (hid : id ≠ contractId) :
    (l.confirm runtime psbt' walletVouts bundles).balance id +
        l.lost psbt id = l.balance id := by
  have honly := bundled_contractId hbundles hplain h
  obtain ⟨-, -, htxid, hprev⟩ := sendRgbBundles_ok h
  have hnew : (bundledAllocations runtime psbt'.txid bundles).filter (fun a =>
      a.contractId = id ∧ a.outpoint ∈ (l.confirm runtime psbt' walletVouts bundles).unspents) = [] := by
    rw [List.filter_eq_nil_iff]
    intro a ha
    obtain ⟨bundle, hbundle, ha⟩ := List.mem_flatMap.mp ha
    obtain ⟨t, ht, ha⟩ := List.mem_flatMap.mp ha
    have hcontract : a.contractId = contractId :=
      (allocations_contractId ha).trans (honly bundle hbundle t ht)
    simp [hcontract, Ne.symm hid]
  have hold : l.allocations.filter (fun a =>
      a.contractId = id ∧ a.outpoint ∈ (l.confirm runtime psbt' walletVouts bundles).unspents) =
      (l.allocations.filter fun a => a.contractId = id ∧ a.outpoint ∈ l.unspents).filter
        fun a => !decide (a.outpoint ∈ psbt.prevOutputs) := by
    rw [List.filter_filter]
    apply List.filter_congr
    intro a ha
    have hother : ∀ vout, (⟨psbt.txid, vout⟩ : OutPoint) ≠ a.outpoint := by
      intro vout heq
      exact hfresh a ha (congrArg OutPoint.txid heq.symm)
    have hunspent : a.outpoint ∈ (l.confirm runtime psbt' walletVouts bundles).unspents ↔
        a.outpoint ∈ l.unspents ∧ a.outpoint ∉ psbt.prevOutputs := by
      simp [Ledger.confirm, htxid, hprev, hother]
    simp only [hunspent, ← and_assoc, Bool.decide_and, decide_not]
    rw [Bool.and_comm]
  have hafter : (l.confirm runtime psbt' walletVouts bundles).balance id =
      total Allocation.amount ((l.allocations.filter fun a =>
        a.contractId = id ∧ a.outpoint ∈ l.unspents).filter
          fun a => !decide (a.outpoint ∈ psbt.prevOutputs)) := by
    rw [← hold, ← Nat.add_zero (total _ _), ← total_nil Allocation.amount, ← hnew, ← total_append,
      ← List.filter_append]
    rfl
  rw [hafter, Nat.add_comm, Ledger.lost, total_filter_add, Ledger.balance]

/-- The amount of every other contract is kept, and what there was of it on the
inputs is carried home. -/
def OthersKept (l : Ledger Opout) (runtime : SendRuntime Opout) (psbt : Psbt Opout)
    (walletVouts : List ℕ) (bundles : List (Bundle Opout)) (contractId : ContractId) : Prop :=
  ∀ id, id ≠ contractId → (l.confirm runtime psbt walletVouts bundles).balance id = l.balance id ∧
    CarriedHome l runtime psbt walletVouts bundles id

/-- A send keeps the other contracts iff none of them is on its inputs. -/
theorem others_kept_iff (hbundles : runtime.BundlesPushed) (hplain : psbt.rgbTransitions = [])
    (hfresh : ∀ a ∈ l.allocations, a.outpoint.txid ≠ psbt.txid)
    (h : sendRgbBundles runtime contractId psbt builder = .ok (psbt', bundles)) :
    OthersKept l runtime psbt' walletVouts bundles contractId ↔
      ∀ a ∈ l.allocations, a.outpoint ∈ psbt.prevOutputs → a.contractId = contractId := by
  obtain ⟨-, -, -, hprev⟩ := sendRgbBundles_ok h
  constructor
  · intro hkept a ha hinput
    by_contra hother
    obtain ⟨-, hcarried⟩ := hkept a.contractId hother
    obtain ⟨bundle, hbundle, t, ht, hcontract, -⟩ := hcarried a ha rfl (hprev ▸ hinput)
    have hsent : t.contractId = contractId := bundled_contractId hbundles hplain h bundle hbundle t ht
    exact hother (hcontract.symm.trans hsent)
  · intro hclean id hid
    constructor
    · have hlost : l.lost psbt id = 0 := by
        apply List.sum_eq_zero
        intro n hn
        obtain ⟨a, ha, -⟩ := List.mem_map.mp hn
        obtain ⟨ha, hinput⟩ := List.mem_filter.mp ha
        obtain ⟨ha, howned⟩ := List.mem_filter.mp ha
        have hsent : a.contractId = contractId := hclean a ha (of_decide_eq_true hinput)
        exact absurd ((of_decide_eq_true howned).1.symm.trans hsent) hid
      have hbalance := balance_confirm walletVouts hbundles hplain hfresh h hid
      omega
    · intro a ha hcontract hinput
      have hsent : a.contractId = contractId := hclean a ha (hprev ▸ hinput)
      exact absurd (hcontract.symm.trans hsent) hid

/-- A library that knows one ledger and bundles the pushed transitions one by one. -/
def ledgerRuntime (l : Ledger ℕ) : SendRuntime ℕ where
  stateForOutpoints id outpoints := (l.allocations.filter fun a =>
    a.contractId = id ∧ a.outpoint ∈ outpoints).map fun a => (a.opout, a.amount)
  contractsByOutpoints outpoints :=
    (l.allocations.filter fun a => a.outpoint ∈ outpoints).map Allocation.contractId
  rgbBundles psbt := psbt.rgbTransitions.map fun t => (t.contractId, [t])
  opout _ no := no + 10
  sealSecret _ := none

theorem ledgerRuntime_bundlesPushed (l : Ledger ℕ) : (ledgerRuntime l).BundlesPushed := by
  intro psbt bundle hbundle t ht
  obtain ⟨pushed, hpushed, rfl⟩ := List.mem_map.mp hbundle
  rw [List.mem_singleton.mp ht]
  exact hpushed

def blindedOutpoint : OutPoint := ⟨Bytes32.fill 1, 0⟩
def changeOutpoint : OutPoint := ⟨Bytes32.fill 2, 1⟩

/-- Payments of one sender for each contract, to the outpoints given. -/
def received (first second : OutPoint) : Ledger ℕ where
  allocations := [⟨Bytes32.fill 7, 0, first, 100⟩, ⟨Bytes32.fill 8, 1, second, 50⟩]
  unspents := [blindedOutpoint, changeOutpoint]

def spendBlinded : Psbt ℕ := ⟨Bytes32.fill 3, [⟨blindedOutpoint, []⟩], some 1, []⟩

/-- 60 units go to somebody else and 40 come back. -/
def sixty : TransitionBuilder ℕ := ⟨[], [(.explicit changeOutpoint, 40), (.concealed [], 60)]⟩

theorem others_kept_apart : ∃ psbt bundles,
    sendRgbBundles (ledgerRuntime (received blindedOutpoint changeOutpoint)) (Bytes32.fill 7)
      spendBlinded sixty = .ok (psbt, bundles) ∧
    OthersKept (received blindedOutpoint changeOutpoint)
      (ledgerRuntime (received blindedOutpoint changeOutpoint)) psbt [0] bundles (Bytes32.fill 7) := by
  refine ⟨_, _, rfl, ?_⟩
  have hsent : sendRgbBundles (ledgerRuntime (received blindedOutpoint changeOutpoint))
      (Bytes32.fill 7) spendBlinded sixty = .ok _ := rfl
  exact (others_kept_iff (ledgerRuntime_bundlesPushed _) rfl (by decide) hsent).mpr (by decide)

/-- Both senders were given the same blinded outpoint: the second contract is lost. -/
theorem second_contract_lost : ∃ psbt bundles,
    sendRgbBundles (ledgerRuntime (received blindedOutpoint blindedOutpoint)) (Bytes32.fill 7)
      spendBlinded sixty = .ok (psbt, bundles) ∧
    (received blindedOutpoint blindedOutpoint).balance (Bytes32.fill 8) = 50 ∧
    ((received blindedOutpoint blindedOutpoint).confirm
      (ledgerRuntime (received blindedOutpoint blindedOutpoint)) psbt [0] bundles).balance
        (Bytes32.fill 8) = 0 ∧
    ¬OthersKept (received blindedOutpoint blindedOutpoint)
      (ledgerRuntime (received blindedOutpoint blindedOutpoint)) psbt [0] bundles (Bytes32.fill 7) := by
  refine ⟨_, _, rfl, by decide, by decide, ?_⟩
  intro hkept
  obtain ⟨hbalance, -⟩ := hkept (Bytes32.fill 8) (by decide)
  revert hbalance
  decide

end OtherAssets

end RgbLightning.Rgb
