import RgbLightning.Base.Runs
import RgbLightning.Node.SweepEffects

/-! # Sweeps that are handled again

An event is delivered again until its handler has returned and the state was
persisted. The process may stop after any effect of a handling. The network and the
file keep what was done.
-/
namespace RgbLightning.Node
open MachineInt Decimal Rgb Effects Runs

/-- A handling that stops after some of its effects. -/
structure Delivery where
  items : List SweepItem
  crash : ℕ
  deriving DecidableEq

/-- The effects that come before the crash. A crash behind the last one has returned
without being persisted. -/
def Delivery.done (d : Delivery) : List SweepEffect := (plan d.items).take d.crash

def Delivery.attempt (chain : ChainCalls) (d : Delivery) (w : SweepWorld) : Bool × SweepWorld :=
  Effects.attempt (SweepEffect.perform chain) d.done w

def worldAfter (chain : ChainCalls) (crashed : List Delivery) (w : SweepWorld) : SweepWorld :=
  run (fun w d => (d.attempt chain w).2) w crashed

/-- The deliveries of one event, the last of which is not cut off. The outputs are
distinct and unspent at first. Every transaction pays a new address, so that no two
have the same identifier. -/
structure SweepRun where
  world : SweepWorld
  event : List Descriptor
  crashed : List Delivery
  final : List SweepItem
  outpoints_nodup : (event.map Descriptor.outpoint).Nodup
  unspent : ∀ d ∈ event, ∀ tx ∈ world.sent, tx.spends ≠ d.outpoint
  redelivered : ∀ d ∈ crashed, d.items.map SweepItem.descriptor = event
  delivered : final.map SweepItem.descriptor = event
  final_nodup : (final.map SweepItem.txid).Nodup
  txid_new : ∀ d ∈ crashed, ∀ i ∈ d.items, ∀ j ∈ final, i.txid ≠ j.txid
  txid_unlisted : ∀ i ∈ final, ∀ u ∈ world.utxos, u.outpoint.txid ≠ i.txid

theorem worldAfter_concat (chain : ChainCalls) (crashed : List Delivery) (d : Delivery) (w : SweepWorld) :
    worldAfter chain (crashed ++ [d]) w = (d.attempt chain (worldAfter chain crashed w)).2 := run_concat ..

namespace SweepRun
variable (chain : ChainCalls) (r : SweepRun)

def before : SweepWorld := worldAfter chain r.crashed r.world

/-- The world after the final handling. -/
def finalWorld : SweepWorld := (handle chain r.final (r.before chain)).2

/-- No handling panics, and every coloured output is swept by one transaction, whose RGB
outpoint is listed once, as coloured. -/
structure Safe : Prop where
  crashed : ∀ older d newer, r.crashed = older ++ d :: newer →
    (d.attempt chain (worldAfter chain older r.world)).1 = true
  final : (handle chain r.final (r.before chain)).1 = true
  swept : ∀ d ∈ r.event, d.isColored = true →
    ∃ tx, (∀ other, other ∈ (r.finalWorld chain).sent ∧ other.spends = d.outpoint ↔ other = tx) ∧
      (r.finalWorld chain).utxos.filter (fun u => u.outpoint = tx.rgbOutpoint) = [⟨tx.rgbOutpoint, true⟩]

/-- No handling stops after a broadcast. -/
def StopsInTime : Prop := ∀ d ∈ r.crashed, ∀ tx, .broadcast tx ∉ d.done

/-- The final handling finds the transfer of every coloured output valid. -/
def AllValid : Prop := ∀ i ∈ r.final, i.Swept

/-- A transfer that was found valid is found valid again. -/
def StaysValid : Prop := ∀ d ∈ r.crashed, ∀ i ∈ d.items, ∀ j ∈ r.final,
  i.descriptor = j.descriptor → i.Swept → j.Swept

end SweepRun

section Prefix
variable {items : List SweepItem} {n : ℕ}

theorem record_take {i : SweepItem} {outpoint : OutPoint} (h : .record outpoint ∈ i.effects.take n) :
    .broadcast i.tx ∈ i.effects.take n := by
  have hmem := List.mem_of_mem_take h
  cases hcoloured : i.descriptor.isColored with
  | false => simp [SweepItem.effects, hcoloured] at hmem
  | true =>
    by_cases hvalid : i.validity = .valid
    · rcases n with _ | _ | _ | n
      · simp at h
      · simp [SweepItem.effects, hcoloured] at h
      · simp [SweepItem.effects, hcoloured, hvalid] at h
      · simp [SweepItem.effects, hcoloured, hvalid]
    · simp [SweepItem.effects, hcoloured, hvalid] at hmem

/-- Nothing is recorded before a broadcast. -/
theorem record_done {outpoint : OutPoint} (h : .record outpoint ∈ (plan items).take n) :
    ∃ tx, .broadcast tx ∈ (plan items).take n := by
  induction items generalizing n with
  | nil => simp [plan] at h
  | cons i items ih =>
    have hplan : plan (i :: items) = i.effects ++ plan items := rfl
    rw [hplan, List.take_append] at h ⊢
    rcases List.mem_append.mp h with h | h
    · exact ⟨i.tx, List.mem_append_left _ (record_take h)⟩
    · obtain ⟨tx, htx⟩ := ih h
      exact ⟨tx, List.mem_append_right _ htx⟩

/-- An effect of a plan is one of an output; a broadcast is that of a swept output. -/
theorem broadcast_plan {tx : SweepTx} (h : .broadcast tx ∈ plan items) : tx ∈ broadcasts items := by
  obtain ⟨i, hi, h⟩ := List.mem_flatMap.mp h
  have hswept : i.Swept ∧ tx = i.tx := by
    cases hcoloured : i.descriptor.isColored with
    | false =>
      have htx : tx = i.tx := by simpa [SweepItem.effects, hcoloured] using h
      exact ⟨by simp [SweepItem.Swept, hcoloured], htx⟩
    | true =>
      by_cases hvalid : i.validity = .valid
      · have htx : tx = i.tx := by simpa [SweepItem.effects, hcoloured, hvalid] using h
        exact ⟨fun _ => hvalid, htx⟩
      · simp [SweepItem.effects, hcoloured, hvalid] at h
  exact mem_broadcasts.mpr ⟨i, hi, hswept.1, hswept.2.symm⟩

theorem plan_broadcast {i : SweepItem} (hi : i ∈ items) (hswept : i.Swept) :
    .broadcast i.tx ∈ plan items := by
  refine List.mem_flatMap.mpr ⟨i, hi, ?_⟩
  cases hcoloured : i.descriptor.isColored with
  | false => simp [SweepItem.effects, hcoloured]
  | true => simp [SweepItem.effects, hcoloured, hswept hcoloured]

theorem build_plan {kind : DescriptorKind} {outpoint : OutPoint} (h : .build kind outpoint ∈ plan items) :
    ∃ i ∈ items, i.descriptor.outpoint = outpoint := by
  obtain ⟨i, hi, h⟩ := List.mem_flatMap.mp h
  refine ⟨i, hi, ?_⟩
  cases hcoloured : i.descriptor.isColored with
  | false => simp_all [SweepItem.effects]
  | true =>
    by_cases hvalid : i.validity = .valid
    · simp_all [SweepItem.effects]
    · simp [SweepItem.effects, hcoloured, hvalid] at h

end Prefix

section Quiet
variable {chain : ChainCalls} {w : SweepWorld} {d : Delivery}

/-- A handling that stops before it has broadcast has changed nothing. -/
theorem attempt_quiet (hchain : chain.Honest)
    (hunspent : ∀ i ∈ d.items, ∀ tx ∈ w.sent, tx.spends ≠ i.descriptor.outpoint)
    (hquiet : ∀ tx, .broadcast tx ∉ d.done) : d.attempt chain w = (true, w) := by
  have hstep : ∀ e ∈ d.done, SweepEffect.perform chain w e = some w := by
    intro e he
    cases e with
    | consume outpoint => rfl
    | sync => rfl
    | accept => rfl
    | broadcast tx => exact absurd he (hquiet tx)
    | record outpoint =>
      obtain ⟨tx, htx⟩ := record_done he
      exact absurd htx (hquiet tx)
    | build kind outpoint =>
      obtain ⟨i, hi, hsame⟩ := build_plan (List.mem_of_mem_take he)
      refine perform_build_eq_some.mpr ⟨?_, rfl⟩
      rw [hchain.addUtxos_unspent (hsame ▸ hunspent i hi)]
      simp
  exact attempt_unchanged hstep

/-- What was broadcast stays broadcast. -/
theorem perform_keeps_sent {tx : SweepTx} {e : SweepEffect} {w w' : SweepWorld} (h : tx ∈ w.sent)
    (hperform : SweepEffect.perform chain w e = some w') : tx ∈ w'.sent := by
  cases e with
  | consume outpoint | sync | accept | record outpoint =>
    cases hperform
    exact h
  | build kind outpoint =>
    obtain ⟨-, rfl⟩ := perform_build_eq_some.mp hperform
    exact h
  | broadcast tx' =>
    obtain ⟨-, rfl⟩ := perform_broadcast_eq_some.mp hperform
    exact List.mem_append_left _ h

theorem broadcast_sent {tx : SweepTx} {w w' : SweepWorld}
    (hperform : SweepEffect.perform chain w (.broadcast tx) = some w') : tx ∈ w'.sent := by
  obtain ⟨-, rfl⟩ := perform_broadcast_eq_some.mp hperform
  exact List.mem_append_right _ (List.mem_singleton_self tx)

theorem worldAfter_keeps_sent {tx : SweepTx} (older newer : List Delivery) {w : SweepWorld}
    (h : tx ∈ (worldAfter chain older w).sent) : tx ∈ (worldAfter chain (older ++ newer) w).sent := by
  induction newer using List.reverseRecOn with
  | nil => rwa [List.append_nil]
  | append_singleton newer d ih =>
    rw [← List.append_assoc, worldAfter_concat]
    exact attempt_invariant (fun _ _ _ _ => perform_keeps_sent) ih

end Quiet

section Recorded
variable {items : List SweepItem} {o : OutPoint}

theorem recorded_filter_none (h : ∀ i ∈ items, i.txid ≠ o.txid) :
    (recorded items).filter (fun u => u.outpoint = o) = [] := by
  refine List.filter_eq_nil_iff.mpr fun u hu => ?_
  obtain ⟨i, hi, rfl⟩ := List.mem_map.mp hu
  have hne := h i (List.mem_of_mem_filter hi)
  simp only [decide_eq_true_eq]
  rintro rfl
  exact hne rfl

/-- A handling records the output of a transaction once. -/
theorem recorded_filter {j : SweepItem} (hnodup : (items.map SweepItem.txid).Nodup) (hj : j ∈ items)
    (hcoloured : j.descriptor.isColored = true) (hswept : j.Swept) :
    (recorded items).filter (fun u => u.outpoint = j.tx.rgbOutpoint) = [⟨j.tx.rgbOutpoint, true⟩] := by
  induction items with
  | nil => cases hj
  | cons i items ih =>
    obtain ⟨hnotMem, hnodup⟩ := List.nodup_cons.mp hnodup
    have hother : ∀ k ∈ items, k.txid ≠ i.txid := by
      intro k hk hsame
      exact hnotMem (List.mem_map.mpr ⟨k, hk, hsame⟩)
    rw [recorded_cons, List.filter_append]
    rcases List.mem_cons.mp hj with rfl | hj
    · have hrest : (recorded items).filter (fun u => u.outpoint = j.tx.rgbOutpoint) = [] :=
        recorded_filter_none hother
      rw [hrest, List.append_nil]
      simp [recorded, hcoloured, hswept]
    · have hfirst : ∀ k ∈ [i], k.txid ≠ j.tx.rgbOutpoint.txid := by
        intro k hk
        rw [List.mem_singleton.mp hk]
        exact (hother j hj).symm
      rw [recorded_filter_none hfirst, List.nil_append]
      exact ih hnodup hj

end Recorded

namespace SweepRun
variable {chain : ChainCalls} {r : SweepRun}

/-- An output of one handling is an output of any other. -/
theorem exists_final {d : Delivery} (hd : d ∈ r.crashed) {i : SweepItem} (hi : i ∈ d.items) :
    ∃ j ∈ r.final, i.descriptor = j.descriptor := by
  have hmem : i.descriptor ∈ r.final.map SweepItem.descriptor := by
    rw [r.delivered, ← r.redelivered d hd]
    exact List.mem_map_of_mem hi
  obtain ⟨j, hj, hsame⟩ := List.mem_map.mp hmem
  exact ⟨j, hj, hsame.symm⟩

theorem unspent_final {i : SweepItem} (hi : i ∈ r.final) :
    ∀ tx ∈ r.world.sent, tx.spends ≠ i.descriptor.outpoint := by
  apply r.unspent
  rw [← r.delivered]
  exact List.mem_map_of_mem hi

theorem unspent_delivery {d : Delivery} (hd : d ∈ r.crashed) :
    ∀ i ∈ d.items, ∀ tx ∈ r.world.sent, tx.spends ≠ i.descriptor.outpoint := by
  intro i hi
  obtain ⟨j, hj, hsame⟩ := exists_final hd hi
  rw [hsame]
  exact unspent_final hj

theorem final_outpoints_nodup : (r.final.map fun i => i.descriptor.outpoint).Nodup := by
  have h := r.outpoints_nodup
  rw [← r.delivered, List.map_map] at h
  exact h

/-- Handlings that stop in time leave the world as it was. -/
theorem worldAfter_eq (hchain : chain.Honest) (h : r.StopsInTime) (older : List Delivery)
    (holder : ∀ d ∈ older, d ∈ r.crashed) :
    worldAfter chain older r.world = r.world := by
  refine run_invariant (fun w => w = r.world) (fun d => d ∈ r.crashed) rfl ?_ older holder
  rintro w d hd rfl
  rw [attempt_quiet hchain (unspent_delivery hd) (h d hd)]

theorem finalWorld_eq (hbefore : r.before chain = r.world)
    (hreturns : (handle chain r.final (r.before chain)).1 = true) :
    r.finalWorld chain = ⟨r.world.sent ++ broadcasts r.final, r.world.utxos ++ recorded r.final⟩ := by
  rw [finalWorld, handle_returned hreturns, hbefore]

/-- The only transaction that spends a swept output is the one broadcast in the end. -/
theorem spends_iff {j : SweepItem} (hj : j ∈ r.final) (hswept : j.Swept) {other : SweepTx} :
    other ∈ r.world.sent ++ broadcasts r.final ∧ other.spends = j.descriptor.outpoint ↔ other = j.tx := by
  constructor
  · rintro ⟨hother, hspends⟩
    rcases List.mem_append.mp hother with hother | hother
    · exact absurd hspends (unspent_final hj other hother)
    · obtain ⟨k, hk, -, rfl⟩ := mem_broadcasts.mp hother
      rw [List.inj_on_of_nodup_map final_outpoints_nodup hk hj hspends]
  · rintro rfl
    exact ⟨List.mem_append_right _ (mem_broadcasts.mpr ⟨j, hj, hswept, rfl⟩), rfl⟩

theorem listed_once {j : SweepItem} (hj : j ∈ r.final) (hcoloured : j.descriptor.isColored = true)
    (hswept : j.Swept) :
    (r.world.utxos ++ recorded r.final).filter (fun u => u.outpoint = j.tx.rgbOutpoint) =
      [⟨j.tx.rgbOutpoint, true⟩] := by
  have hold : r.world.utxos.filter (fun u => u.outpoint = j.tx.rgbOutpoint) = [] := by
    refine List.filter_eq_nil_iff.mpr fun u hu => ?_
    have hne := r.txid_unlisted j hj u hu
    simp only [decide_eq_true_eq]
    intro hsame
    exact hne (by rw [hsame]; rfl)
  rw [List.filter_append, hold, List.nil_append]
  exact recorded_filter r.final_nodup hj hcoloured hswept

theorem safe_of (hchain : chain.Honest) (hstops : r.StopsInTime) (hvalid : r.AllValid) : r.Safe chain := by
  have hbefore : r.before chain = r.world := worldAfter_eq hchain hstops r.crashed fun _ hd => hd
  have hreturns : (handle chain r.final (r.before chain)).1 = true := by
    rw [hbefore]
    exact handle_unspent hchain final_outpoints_nodup fun i hi => unspent_final hi
  refine ⟨?_, hreturns, ?_⟩
  · intro older d newer hsplit
    have hd : d ∈ r.crashed := by simp [hsplit]
    have holder : ∀ e ∈ older, e ∈ r.crashed := by
      intro e he
      simp [hsplit, he]
    rw [worldAfter_eq hchain hstops older holder, attempt_quiet hchain (unspent_delivery hd) (hstops d hd)]
  · intro d hd hcoloured
    rw [← r.delivered] at hd
    obtain ⟨j, hj, rfl⟩ := List.mem_map.mp hd
    refine ⟨j.tx, fun other => ?_, ?_⟩
    · rw [finalWorld_eq hbefore hreturns]
      exact spends_iff hj (hvalid j hj)
    · rw [finalWorld_eq hbefore hreturns]
      exact listed_once hj hcoloured (hvalid j hj)

/-- After a handling that was cut off behind a broadcast the final one panics. -/
theorem stopsInTime_of_safe (hchain : chain.Honest) (hstays : r.StaysValid) (hsafe : r.Safe chain) :
    r.StopsInTime := by
  intro d hd tx htx
  obtain ⟨older, newer, hsplit⟩ := List.append_of_mem hd
  have hsent : tx ∈ (worldAfter chain (older ++ [d]) r.world).sent := by
    rw [worldAfter_concat]
    exact established_of_attempt (fun _ _ _ => perform_keeps_sent) (fun _ _ => broadcast_sent)
      (hsafe.crashed older d newer hsplit) htx
  have hbefore : tx ∈ (r.before chain).sent := by
    rw [before, hsplit, List.append_cons older d newer]
    exact worldAfter_keeps_sent _ _ hsent
  obtain ⟨i, hi, hswept, rfl⟩ := mem_broadcasts.mp (broadcast_plan (List.mem_of_mem_take htx))
  obtain ⟨j, hj, hsame⟩ := exists_final hd hi
  have hagain : .broadcast j.tx ∈ plan r.final := plan_broadcast hj (hstays d hd i hi j hj hsame hswept)
  obtain ⟨w, next, hconflict, hperform⟩ := performed_of_attempt
    (fun _ _ _ => perform_keeps_sent) hbefore hsafe.final hagain
  have hne : i.tx ≠ j.tx := fun h => r.txid_new d hd i hi j hj (congrArg SweepTx.txid h)
  have hspends : i.tx.spends = j.tx.spends := congrArg Descriptor.outpoint hsame
  have htaken := (perform_broadcast_eq_some.mp hperform).1
  rw [hchain.broadcast_conflict ⟨i.tx, hconflict, hspends, hne⟩] at htaken
  cases htaken

/-- A coloured output that the final handling passes over is swept by no transaction. -/
theorem allValid_of_safe (hchain : chain.Honest) (hstops : r.StopsInTime) (hsafe : r.Safe chain) :
    r.AllValid := by
  intro j hj hcoloured
  have hbefore : r.before chain = r.world := worldAfter_eq hchain hstops r.crashed fun _ hd => hd
  have hevent : j.descriptor ∈ r.event := by
    rw [← r.delivered]
    exact List.mem_map_of_mem hj
  obtain ⟨tx, htx, -⟩ := hsafe.swept j.descriptor hevent hcoloured
  obtain ⟨hsent, hspends⟩ := (htx tx).mpr rfl
  rw [finalWorld_eq hbefore hsafe.final] at hsent
  rcases List.mem_append.mp hsent with hsent | hsent
  · exact absurd hspends (unspent_final hj tx hsent)
  · obtain ⟨k, hk, hswept, rfl⟩ := mem_broadcasts.mp hsent
    rw [← List.inj_on_of_nodup_map final_outpoints_nodup hk hj hspends] at hcoloured ⊢
    exact hswept hcoloured

end SweepRun

/-- The outputs of `twoOutputs` with the transactions of an earlier handling. -/
def firstItems : List SweepItem :=
  [⟨⟨.staticOutput, ⟨Bytes32.fill 1, 0⟩, true⟩, .valid, Bytes32.fill 8, some 1⟩,
    ⟨⟨.delayedPaymentOutput, ⟨Bytes32.fill 2, 1⟩, false⟩, .other, Bytes32.fill 9, none⟩]

/-- A handling that stops after some effects, and then one that does not. -/
def handledTwice (crash : ℕ) : SweepRun where
  world := ⟨[], []⟩
  event := firstItems.map SweepItem.descriptor
  crashed := [⟨firstItems, crash⟩]
  final := twoOutputs .valid
  outpoints_nodup := by decide
  unspent := by decide
  redelivered := by simp
  delivered := by decide
  final_nodup := by decide
  txid_new := by
    simp only [List.mem_singleton, forall_eq]
    decide
  txid_unlisted := by decide

end RgbLightning.Node
