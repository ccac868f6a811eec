import RgbLightning.Base.Effects
import RgbLightning.Node.SealOutputs

/-! # The effects of a sweep

Handling `SpendableOutputs` has effects on the network and on the files, one output
after the other. A coloured output whose transfer is not valid is passed over, and the
loop goes on.
-/
namespace RgbLightning.Node
open MachineInt Decimal Rgb Effects

structure Descriptor where
  kind : DescriptorKind
  outpoint : OutPoint
  isColored : Bool
  deriving DecidableEq

/-- A transaction that spends one output, and the index its RGB seal points at. -/
structure SweepTx where
  txid : Txid
  spends : OutPoint
  sealVout : ℕ
  deriving DecidableEq

def SweepTx.rgbOutpoint (tx : SweepTx) : OutPoint := ⟨tx.txid, tx.sealVout⟩

inductive SweepEffect where
  /-- The closing transfer is consumed, validated and accepted. -/
  | consume (outpoint : OutPoint)
  | build (kind : DescriptorKind) (outpoint : OutPoint)
  | broadcast (tx : SweepTx)
  | sync
  | record (outpoint : OutPoint)
  | accept
  deriving DecidableEq

/-- The transactions that were broadcast, and the `rgb_utxos` file. -/
structure SweepWorld where
  sent : List SweepTx
  utxos : RgbUtxos
  deriving DecidableEq

/-- The wallet library looks the output up, the transaction built by hand does not. -/
def DescriptorKind.addsUtxos : DescriptorKind → Bool
  | staticPaymentOutput | staticOutput => true
  | delayedPaymentOutput => false

/-- Whether the wallet can add an output and whether a transaction is taken, after these
transactions. -/
structure ChainCalls where
  addUtxos : List SweepTx → OutPoint → Bool
  broadcast : List SweepTx → SweepTx → Bool

/-- A spent output cannot be added, and a conflicting transaction is not taken. -/
structure ChainCalls.Honest (chain : ChainCalls) : Prop where
  addUtxos_unspent : ∀ {sent outpoint}, (∀ tx ∈ sent, tx.spends ≠ outpoint) →
    chain.addUtxos sent outpoint = true
  addUtxos_spent : ∀ {sent outpoint}, (∃ tx ∈ sent, tx.spends = outpoint) →
    chain.addUtxos sent outpoint = false
  broadcast_unspent : ∀ {sent tx}, (∀ other ∈ sent, other.spends ≠ tx.spends) →
    chain.broadcast sent tx = true
  broadcast_conflict : ∀ {sent tx}, (∃ other ∈ sent, other.spends = tx.spends ∧ other ≠ tx) →
    chain.broadcast sent tx = false

/-- What an effect does, unless the call fails. -/
def SweepEffect.perform (chain : ChainCalls) (w : SweepWorld) : SweepEffect → Option SweepWorld
  | consume _ | sync | accept => some w
  | build kind outpoint =>
    if kind.addsUtxos = true ∧ chain.addUtxos w.sent outpoint = false then none else some w
  | broadcast tx =>
    if chain.broadcast w.sent tx = true then some { w with sent := w.sent ++ [tx] } else none
  | record outpoint => some { w with utxos := w.utxos ++ [⟨outpoint, true⟩] }

section Perform
variable {chain : ChainCalls} {w : SweepWorld} {outpoint : OutPoint}

@[simp] theorem perform_consume : SweepEffect.perform chain w (.consume outpoint) = some w := rfl
@[simp] theorem perform_sync : SweepEffect.perform chain w .sync = some w := rfl
@[simp] theorem perform_accept : SweepEffect.perform chain w .accept = some w := rfl
@[simp] theorem perform_record : SweepEffect.perform chain w (.record outpoint) =
    some { w with utxos := w.utxos ++ [⟨outpoint, true⟩] } := rfl

theorem perform_build_eq_some {kind : DescriptorKind} {w' : SweepWorld} :
    SweepEffect.perform chain w (.build kind outpoint) = some w' ↔
      ¬(kind.addsUtxos = true ∧ chain.addUtxos w.sent outpoint = false) ∧ w = w' := by
  rw [SweepEffect.perform, ite_eq_iff]
  simp

theorem perform_broadcast_eq_some {tx : SweepTx} {w' : SweepWorld} :
    SweepEffect.perform chain w (.broadcast tx) = some w' ↔
      chain.broadcast w.sent tx = true ∧ { w with sent := w.sent ++ [tx] } = w' := by
  rw [SweepEffect.perform, ite_eq_iff]
  simp

end Perform

/-- An output with what the calls return for it while it is handled. -/
structure SweepItem where
  descriptor : Descriptor
  validity : Validity
  txid : Txid
  opReturnIndex : Option ℕ
  deriving DecidableEq

namespace SweepItem

def tx (i : SweepItem) : SweepTx := ⟨i.txid, i.descriptor.outpoint, Node.sealVout i.opReturnIndex⟩

/-- The output is not passed over. -/
def Swept (i : SweepItem) : Prop := i.descriptor.isColored = true → i.validity = .valid

instance (i : SweepItem) : Decidable i.Swept :=
  inferInstanceAs (Decidable (i.descriptor.isColored = true → i.validity = .valid))

/-- What is done for the output in order. -/
def effects (i : SweepItem) : List SweepEffect :=
  if i.descriptor.isColored then
    .consume i.descriptor.outpoint ::
      if i.validity = .valid then
        [.build i.descriptor.kind i.descriptor.outpoint, .broadcast i.tx, .sync,
          .record i.tx.rgbOutpoint, .accept]
      else []
  else [.build i.descriptor.kind i.descriptor.outpoint, .broadcast i.tx, .sync]

end SweepItem

def plan (items : List SweepItem) : List SweepEffect := items.flatMap SweepItem.effects

/-- The entries that a handling writes. -/
def recorded (items : List SweepItem) : RgbUtxos :=
  (items.filter fun i => i.descriptor.isColored ∧ i.Swept).map fun i => ⟨i.tx.rgbOutpoint, true⟩

def broadcasts (items : List SweepItem) : List SweepTx := (items.filter fun i => i.Swept).map SweepItem.tx

/-- The process handles the event to its end, or a call has panicked. -/
def handle (chain : ChainCalls) (items : List SweepItem) (w : SweepWorld) : Bool × SweepWorld :=
  attempt (SweepEffect.perform chain) (plan items) w

section Handle
variable {chain : ChainCalls} {i : SweepItem} {items : List SweepItem} {w w' : SweepWorld}

/-- The calls for the output succeed in a state. -/
def Sweepable (chain : ChainCalls) (i : SweepItem) (w : SweepWorld) : Prop :=
  ¬(i.descriptor.kind.addsUtxos = true ∧ chain.addUtxos w.sent i.descriptor.outpoint = false) ∧
    chain.broadcast w.sent i.tx = true

theorem sweepable_unspent (hchain : chain.Honest) (h : ∀ tx ∈ w.sent, tx.spends ≠ i.descriptor.outpoint) :
    Sweepable chain i w := by
  refine ⟨?_, hchain.broadcast_unspent h⟩
  rw [hchain.addUtxos_unspent h]
  simp

theorem effects_of_skipped (h : ¬i.Swept) :
    attempt (SweepEffect.perform chain) i.effects w = (true, w) := by
  obtain ⟨hcoloured, hvalid⟩ := Classical.not_imp.mp h
  simp [SweepItem.effects, hcoloured, hvalid, attempt]

theorem effects_of_swept (h : i.Swept) (hok : Sweepable chain i w) :
    attempt (SweepEffect.perform chain) i.effects w =
      (true, ⟨w.sent ++ [i.tx], w.utxos ++ recorded [i]⟩) := by
  have hbuild : SweepEffect.perform chain w (.build i.descriptor.kind i.descriptor.outpoint) = some w :=
    if_neg hok.1
  have hbroadcast : SweepEffect.perform chain w (.broadcast i.tx) =
      some { w with sent := w.sent ++ [i.tx] } := if_pos hok.2
  cases hcoloured : i.descriptor.isColored with
  | false => simp [SweepItem.effects, recorded, hcoloured, attempt, hbuild, hbroadcast]
  | true =>
    have hvalid := h hcoloured
    simp [SweepItem.effects, recorded, hcoloured, hvalid, h, attempt, hbuild, hbroadcast]

theorem effects_of_stuck (h : i.Swept) (hstuck : ¬Sweepable chain i w) :
    attempt (SweepEffect.perform chain) i.effects w = (false, w) := by
  have hfails : SweepEffect.perform chain w (.build i.descriptor.kind i.descriptor.outpoint) = none ∨
      SweepEffect.perform chain w (.build i.descriptor.kind i.descriptor.outpoint) = some w ∧
        SweepEffect.perform chain w (.broadcast i.tx) = none := by
    by_cases hspent : i.descriptor.kind.addsUtxos = true ∧
        chain.addUtxos w.sent i.descriptor.outpoint = false
    · exact .inl (if_pos hspent)
    · exact .inr ⟨if_neg hspent, if_neg fun htaken => hstuck ⟨hspent, htaken⟩⟩
  cases hcoloured : i.descriptor.isColored with
  | false =>
    rcases hfails with hbuild | ⟨hbuild, hbroadcast⟩
    · simp [SweepItem.effects, hcoloured, attempt, hbuild]
    · simp [SweepItem.effects, hcoloured, attempt, hbuild, hbroadcast]
  | true =>
    have hvalid := h hcoloured
    rcases hfails with hbuild | ⟨hbuild, hbroadcast⟩
    · simp [SweepItem.effects, hcoloured, hvalid, attempt, hbuild]
    · simp [SweepItem.effects, hcoloured, hvalid, attempt, hbuild, hbroadcast]

theorem handle_cons_of {next : SweepWorld} (h : attempt (SweepEffect.perform chain) i.effects w = (true, next)) :
    handle chain (i :: items) w = handle chain items next := attempt_append_of h

theorem handle_cons_stuck (h : i.Swept) (hstuck : ¬Sweepable chain i w) :
    handle chain (i :: items) w = (false, w) := attempt_append_failed (effects_of_stuck h hstuck)

theorem broadcasts_cons : broadcasts (i :: items) = broadcasts [i] ++ broadcasts items := by
  by_cases h : i.Swept <;> simp [broadcasts, h]

theorem recorded_cons : recorded (i :: items) = recorded [i] ++ recorded items := by
  by_cases h : i.descriptor.isColored = true ∧ i.Swept <;> simp [recorded, h]

theorem broadcasts_swept (h : i.Swept) : broadcasts [i] = [i.tx] := by simp [broadcasts, h]

theorem broadcasts_skipped (h : ¬i.Swept) : broadcasts [i] = [] := by simp [broadcasts, h]

theorem recorded_skipped (h : ¬i.Swept) : recorded [i] = [] := by simp [recorded, h]

/-- A handling that gets through has swept every output that it did not pass over. -/
theorem handle_returned (h : (handle chain items w).1 = true) :
    (handle chain items w).2 = ⟨w.sent ++ broadcasts items, w.utxos ++ recorded items⟩ := by
  induction items generalizing w with
  | nil => simp [handle, plan, broadcasts, recorded]
  | cons i items ih =>
    rw [broadcasts_cons, recorded_cons]
    by_cases hswept : i.Swept
    · by_cases hok : Sweepable chain i w
      · rw [handle_cons_of (effects_of_swept hswept hok)] at h ⊢
        rw [ih h, broadcasts_swept hswept, List.append_assoc, List.append_assoc]
      · rw [handle_cons_stuck hswept hok] at h
        cases h
    · rw [handle_cons_of (effects_of_skipped hswept)] at h ⊢
      rw [ih h, broadcasts_skipped hswept, recorded_skipped hswept, List.nil_append, List.nil_append]

/-- Outputs that nobody has spent are swept without a panic. -/
theorem handle_unspent (hchain : chain.Honest) (hnodup : (items.map fun i => i.descriptor.outpoint).Nodup)
    (hunspent : ∀ i ∈ items, ∀ tx ∈ w.sent, tx.spends ≠ i.descriptor.outpoint) :
    (handle chain items w).1 = true := by
  induction items generalizing w with
  | nil => rfl
  | cons i items ih =>
    obtain ⟨hnotMem, hnodup⟩ := List.nodup_cons.mp hnodup
    by_cases hswept : i.Swept
    · have hok : Sweepable chain i w := sweepable_unspent hchain (hunspent i (List.mem_cons_self ..))
      rw [handle_cons_of (effects_of_swept hswept hok)]
      refine ih hnodup fun j hj tx htx => ?_
      rcases List.mem_append.mp htx with htx | htx
      · exact hunspent j (List.mem_cons_of_mem _ hj) tx htx
      · cases List.mem_singleton.mp htx
        intro hsame
        exact hnotMem (List.mem_map.mpr ⟨j, hj, hsame.symm⟩)
    · rw [handle_cons_of (effects_of_skipped hswept)]
      exact ih hnodup fun j hj => hunspent j (List.mem_cons_of_mem _ hj)

theorem mem_broadcasts {tx : SweepTx} : tx ∈ broadcasts items ↔ ∃ i ∈ items, i.Swept ∧ i.tx = tx := by
  simp [broadcasts, and_assoc]

/-- When the handler returns, every output has been spent by a transaction that it
broadcast iff every output, or one with the same outpoint, is plain or has a valid
transfer. -/
theorem no_output_dropped_iff (chain : ChainCalls) (items : List SweepItem) (w : SweepWorld)
    (hreturns : (handle chain items w).1 = true) :
    (∃ sent, (handle chain items w).2.sent = w.sent ++ sent ∧
      ∀ i ∈ items, ∃ tx ∈ sent, tx.spends = i.descriptor.outpoint) ↔
    ∀ i ∈ items, ∃ j ∈ items, j.descriptor.outpoint = i.descriptor.outpoint ∧ j.Swept := by
  have hsent : (handle chain items w).2.sent = w.sent ++ broadcasts items := by
    rw [handle_returned hreturns]
  rw [hsent]
  constructor
  · rintro ⟨sent, hsame, hspent⟩ i hi
    cases List.append_cancel_left hsame
    obtain ⟨tx, htx, hspends⟩ := hspent i hi
    obtain ⟨j, hj, hswept, rfl⟩ := mem_broadcasts.mp htx
    exact ⟨j, hj, hspends, hswept⟩
  · intro h
    refine ⟨broadcasts items, rfl, fun i hi => ?_⟩
    obtain ⟨j, hj, hsame, hswept⟩ := h i hi
    exact ⟨j.tx, mem_broadcasts.mpr ⟨j, hj, hswept, rfl⟩, hsame⟩

/-- The calls fail on spent outputs and on conflicts only. -/
def plainChain : ChainCalls where
  addUtxos sent outpoint := decide (∀ tx ∈ sent, tx.spends ≠ outpoint)
  broadcast sent tx := decide (∀ other ∈ sent, other.spends = tx.spends → other = tx)

theorem plainChain_honest : plainChain.Honest where
  addUtxos_unspent h := decide_eq_true h
  addUtxos_spent h := by
    obtain ⟨tx, htx, hspends⟩ := h
    exact decide_eq_false fun hall => hall tx htx hspends
  broadcast_unspent h := decide_eq_true fun other hother hsame => absurd hsame (h other hother)
  broadcast_conflict h := by
    obtain ⟨other, hother, hspends, hne⟩ := h
    exact decide_eq_false fun hall => hne (hall other hother hspends)

/-- A coloured output and a plain one, whose transactions are built. -/
def twoOutputs (validity : Validity) : List SweepItem :=
  [⟨⟨.staticOutput, ⟨Bytes32.fill 1, 0⟩, true⟩, validity, Bytes32.fill 5, some 1⟩,
    ⟨⟨.delayedPaymentOutput, ⟨Bytes32.fill 2, 1⟩, false⟩, .other, Bytes32.fill 6, none⟩]

theorem two_outputs_swept : ∃ sent, (handle plainChain (twoOutputs .valid) ⟨[], []⟩).2.sent = sent ∧
    ∀ i ∈ twoOutputs .valid, ∃ tx ∈ sent, tx.spends = i.descriptor.outpoint := by
  have hiff := no_output_dropped_iff plainChain (twoOutputs .valid) ⟨[], []⟩ (by decide)
  obtain ⟨sent, hsent, hspent⟩ := hiff.mpr (by decide)
  exact ⟨sent, hsent, hspent⟩

/-- The closing transfer has unmined terminals, and its output is left behind. -/
theorem unmined_output_dropped :
    (handle plainChain (twoOutputs .unminedTerminals) ⟨[], []⟩).1 = true ∧
    (handle plainChain (twoOutputs .unminedTerminals) ⟨[], []⟩).2.sent =
      [⟨Bytes32.fill 6, ⟨Bytes32.fill 2, 1⟩, 0⟩] := by
  decide

end Handle

section Program
variable {i : SweepItem} {m : Machine Lock RgbUtxos Note}

/-- The results of the calls for an output, as the handler's program has them. -/
def SweepItem.calls (i : SweepItem) (txid : Option Txid) : SpendableOutput where
  outpoint := i.descriptor.outpoint
  transfer := if i.descriptor.isColored then some i.validity else none
  txid := txid
  opReturnIndex := i.opReturnIndex
  acceptTransfer := true

/-- The transaction of an output exists if it could be built and broadcast. -/
def sweepCalls (chain : ChainCalls) : List SweepItem → SweepWorld → List SpendableOutput
  | [], _ => []
  | i :: rest, w =>
    let attempted := attempt (SweepEffect.perform chain) i.effects w
    i.calls (if attempted.1 then some i.txid else none) :: sweepCalls chain rest attempted.2

theorem sweepOutput_skipped (h : ¬i.Swept) (txid : Option Txid) :
    sweepOutput (i.calls txid) = pure () := by
  obtain ⟨hcoloured, hvalid⟩ := Classical.not_imp.mp h
  simp [sweepOutput, SweepItem.calls, hcoloured, hvalid]

theorem sweepOutput_swept (h : i.Swept) (hwallet : m.held .wallet = false) :
    ∃ m', (sweepOutput (i.calls (some i.txid))).exec m = (.returned (), m') ∧
      m'.held .wallet = false ∧ m'.cell = m.cell ++ recorded [i] := by
  cases hcoloured : i.descriptor.isColored with
  | false =>
    simp only [sweepOutput, SweepItem.calls, hcoloured, Bool.false_eq_true, if_false, Option.isSome_none,
      false_and, Task.bind_def]
    rw [Task.exec_lock_bind hwallet, Task.exec_expect_bind, Task.exec_note_bind]
    exact ⟨_, rfl, by simp [Machine.perform], by simp [Machine.perform, recorded, hcoloured]⟩
  | true =>
    have hvalid : (i.calls (some i.txid)).transfer = some .valid := by
      simp [SweepItem.calls, hcoloured, h hcoloured]
    obtain ⟨m', hexec, hcell⟩ := sweepOutput_recorded hwallet hvalid rfl
    refine ⟨m'.perform (.release .wallet), hexec, by simp [Machine.perform], hcell.trans ?_⟩
    simp [recorded, hcoloured, h, SweepItem.calls, SweepItem.tx, SweepTx.rgbOutpoint]

theorem sweepOutput_stuck (h : i.Swept) (hwallet : m.held .wallet = false) :
    (sweepOutput (i.calls none)).exec m = (.aborted, m.perform (.acquire .wallet)) := by
  have hnotSkipped : ¬((i.calls none).transfer.isSome = true ∧ (i.calls none).transfer ≠ some .valid) := by
    cases hcoloured : i.descriptor.isColored with
    | false => simp [SweepItem.calls, hcoloured]
    | true => simp [SweepItem.calls, hcoloured, h hcoloured]
  rw [sweepOutput, if_neg hnotSkipped, Task.bind_def, Task.exec_lock_bind hwallet]
  rfl

/-- How a program ends whose calls all succeed or not. -/
def exitOf (returned : Bool) : Exit Lock Unit := if returned then .returned () else .aborted

theorem sweep_exec (chain : ChainCalls) (items : List SweepItem) (w : SweepWorld)
    (hwallet : m.held .wallet = false) (hcell : m.cell = w.utxos) :
    ∃ m', (Task.forEach sweepOutput (sweepCalls chain items w)).exec m = (exitOf (handle chain items w).1, m') ∧
      m'.cell = (handle chain items w).2.utxos := by
  induction items generalizing w m with
  | nil => exact ⟨m, rfl, hcell⟩
  | cons i items ih =>
    by_cases hswept : i.Swept
    · by_cases hok : Sweepable chain i w
      · have hattempt := effects_of_swept hswept hok
        obtain ⟨m', hexec, hwallet', hcell'⟩ := sweepOutput_swept hswept hwallet
        rw [handle_cons_of hattempt, sweepCalls, hattempt]
        rw [if_pos rfl, Task.forEach, Task.exec_bind_returned hexec]
        exact ih _ hwallet' (by rw [hcell', hcell])
      · have hattempt := effects_of_stuck hswept hok
        rw [handle_cons_stuck hswept hok, sweepCalls, hattempt]
        rw [if_neg Bool.false_ne_true, Task.forEach,
          Task.exec_bind_aborted (sweepOutput_stuck hswept hwallet)]
        exact ⟨_, rfl, hcell⟩
    · have hattempt : attempt (SweepEffect.perform chain) i.effects w = (true, w) :=
        effects_of_skipped hswept
      rw [handle_cons_of hattempt, sweepCalls, hattempt]
      rw [Task.forEach, sweepOutput_skipped hswept]
      exact ih w hwallet hcell

/-- The handler's program ends as the attempt of its effects does, with the same file. -/
theorem spendableOutputs_exec (chain : ChainCalls) (items : List SweepItem) (w : SweepWorld)
    (hfree : ∀ l, m.held l = false) (hcell : m.cell = w.utxos) :
    ∃ m', (spendableOutputs (sweepCalls chain items w)).exec m = (exitOf (handle chain items w).1, m') ∧
      m'.cell = (handle chain items w).2.utxos := by
  have hwallet : (m.perform (.acquire .runtime)).held .wallet = false := by
    simp [Machine.perform, hfree]
  obtain ⟨m', hexec, hcell'⟩ := sweep_exec chain items w hwallet hcell
  rw [spendableOutputs, Task.bind_def, Task.exec_lock_bind (hfree _), Task.bind_def]
  cases hreturns : (handle chain items w).1 with
  | true =>
    rw [hreturns] at hexec
    exact ⟨_, Task.exec_bind_returned hexec, hcell'⟩
  | false =>
    rw [hreturns] at hexec
    exact ⟨m', Task.exec_bind_aborted hexec, hcell'⟩

end Program

end RgbLightning.Node
