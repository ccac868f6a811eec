import RgbLightning.Base.Serializable

/-! # What tasks emit while they hold a lock

When emissions of one kind are made under one lock, the log has them in the order in which
the operations run alone would emit them.
-/
namespace RgbLightning.Guarded
open Runs
variable {T L E O : Type} {M : L → Type} [DecidableEq L]

/-- A property that looks at the entries of one kind only. -/
theorem eachAfter_filter {P : List E → E → Prop} {kind : E → Bool}
    (hkind : ∀ older e, kind e = true → (P (older.filter kind) e ↔ P older e))
    (hother : ∀ older e, kind e = false → P older e) (log : List E) :
    EachAfter P (log.filter kind) ↔ EachAfter P log := by
  induction log using List.reverseRecOn with
  | nil => rfl
  | append_singleton log e ih =>
    rw [List.filter_append, eachAfter_concat]
    cases h : kind e with
    | true => simp [h, ih, hkind log e h]
    | false => simp [h, ih, hother log e h]

/-- The lock is held at every emission of the kind. -/
def Proc.EmitsUnder (l : L) (kind : E → Bool) : Finset L → Proc L M E → Prop
  | _, .done | _, .abort => True
  | held, .acquire l' k => k.EmitsUnder l kind (insert l' held)
  | held, .release l' k => k.EmitsUnder l kind (held.erase l')
  | held, .access _ _ k => ∀ v, (k v).EmitsUnder l kind held
  | held, .emit e k => (kind e = true → l ∈ held) ∧ k.EmitsUnder l kind held

/-- The operations run alone one after the other: the store and all that is emitted. -/
def serialLog (S : Schedule T L M E O) (store : Store M) (ops : List O) : Store M × List E :=
  run (fun x o => (((S.body o).exec x.1).1, x.2 ++ ((S.body o).exec x.1).2)) (store, []) ops

namespace System
variable [DecidableEq T] {S : Schedule T L M E O} {rank : L → ℕ} {s s' : System T L M E O}
  {l : L} {kind : E → Bool}

theorem Serializes.serialLog_eq {store : Store M} (hs : Serializes S store s) :
    serialLog S store (s.commits.map Prod.fst) =
      (serial S store s.commits, (s.commits.map Prod.snd).flatten) := by
  have hemitted := hs.emitted
  generalize s.commits = commits at hemitted
  induction commits using List.reverseRecOn with
  | nil => rfl
  | append_singleton commits c ih =>
    obtain ⟨hbefore, hlast⟩ := eachAfter_concat.mp hemitted
    have hrun := ih hbefore
    rw [List.map_append, List.map_singleton, serialLog, run_concat, ← serialLog, hrun, hlast]
    simp [serial]

/-- The operation that holds a lock and has not begun to release. -/
def holder (s : System T L M E O) (l : L) : Option (Thread L M E O) :=
  ((s.owner l).bind s.thread).filter fun r => !r.leaving

/-- What the holder of a lock has emitted. -/
def pending (s : System T L M E O) (l : L) : List E :=
  ((s.holder l).map Thread.emitted).getD []

/-- Under its lock, the log has what was committed and then what the holder has emitted. -/
structure LogsUnder (l : L) (kind : E → Bool) (s : System T L M E O) : Prop where
  under : ∀ t r, s.thread t = some r → ∀ held : Finset L, (∀ l', l' ∈ held ↔ s.owner l' = some t) →
    r.prog.EmitsUnder l kind held
  quiet : ∀ t r, s.thread t = some r → r.leaving = false → s.owner l ≠ some t →
    r.emitted.filter kind = []
  log : s.log.filter kind =
    (s.commits.map Prod.snd).flatten.filter kind ++ (s.pending l).filter kind

omit [DecidableEq T] [DecidableEq L] in
theorem holder_of_ne {t : T} (hl : s'.owner l = s.owner l) (hne : s.owner l ≠ some t)
    (hother : ∀ t', t' ≠ t → s'.thread t' = s.thread t') : s'.holder l = s.holder l := by
  unfold holder
  rw [hl]
  cases ho : s.owner l with
  | none => rfl
  | some t' =>
    have ht : t' ≠ t := fun ht => hne (ht ▸ ho)
    simp [hother t' ht]

omit [DecidableEq T] [DecidableEq L] in
theorem holder_of_eq {t : T} {r : Thread L M E O} (ho : s.owner l = some t)
    (hr : s.thread t = some r) : s.holder l = if r.leaving then none else some r := by
  cases hleaving : r.leaving <;> simp [holder, ho, hr, Option.filter, hleaving]

omit [DecidableEq T] [DecidableEq L] in
theorem holder_of_none (ho : s.owner l = none) : s.holder l = none := by
  simp [holder, ho]

omit [DecidableEq T] [DecidableEq L] in
theorem pending_of_none (ho : s.owner l = none) : s.pending l = [] := by
  rw [pending, holder_of_none ho]
  rfl

omit [DecidableEq T] [DecidableEq L] in
theorem pending_of_eq {t : T} {r : Thread L M E O} (ho : s.owner l = some t)
    (hr : s.thread t = some r) : s.pending l = if r.leaving then [] else r.emitted := by
  rw [pending, holder_of_eq ho hr]
  cases r.leaving <;> rfl

omit [DecidableEq T] [DecidableEq L] in
theorem pending_of_ne {t : T} (hl : s'.owner l = s.owner l) (hne : s.owner l ≠ some t)
    (hother : ∀ t', t' ≠ t → s'.thread t' = s.thread t') : s'.pending l = s.pending l := by
  rw [pending, pending, holder_of_ne hl hne hother]

omit [DecidableEq T] [DecidableEq L] in
theorem pending_of_same {t : T} {r r' : Thread L M E O} (hl : s'.owner l = s.owner l)
    (hr : s.thread t = some r) (hr' : s'.thread t = some r') (hemitted : r'.emitted = r.emitted)
    (hleaving : r'.leaving = r.leaving) (hother : ∀ t', t' ≠ t → s'.thread t' = s.thread t') :
    s'.pending l = s.pending l := by
  by_cases ho : s.owner l = some t
  · rw [pending_of_eq ho hr, pending_of_eq (hl.trans ho) hr', hemitted, hleaving]
  · exact pending_of_ne hl ho hother

omit [DecidableEq T] [DecidableEq L] in
theorem pending_cases (s : System T L M E O) (l : L) :
    s.pending l = [] ∨
      ∃ t r, s.thread t = some r ∧ r.leaving = false ∧ s.pending l = r.emitted := by
  unfold pending holder
  cases ho : s.owner l with
  | none => simp
  | some t =>
    cases hr : s.thread t with
    | none => simp [hr]
    | some r =>
      cases hleaving : r.leaving with
      | true => simp [hr, Option.filter, hleaving]
      | false => exact .inr ⟨t, r, hr, hleaving, by simp [hr, Option.filter, hleaving]⟩

/-- A step of one task keeps what is known of the others, if they own what they owned. -/
theorem LogsUnder.of_update {t : T} {x : Option (Thread L M E O)} (hs : LogsUnder l kind s)
    (hthread : s'.thread = Function.update s.thread t x)
    (howner : ∀ t' l', t' ≠ t → (s'.owner l' = some t' ↔ s.owner l' = some t'))
    (hunder : ∀ r, x = some r → ∀ held : Finset L, (∀ l', l' ∈ held ↔ s'.owner l' = some t) →
      r.prog.EmitsUnder l kind held)
    (hquiet : ∀ r, x = some r → r.leaving = false → s'.owner l ≠ some t → r.emitted.filter kind = [])
    (hlog : s'.log.filter kind =
      (s'.commits.map Prod.snd).flatten.filter kind ++ (s'.pending l).filter kind) :
    LogsUnder l kind s' where
  under t' r hr held hheld := by
    rw [hthread] at hr
    by_cases ht : t' = t
    · subst ht
      rw [Function.update_self] at hr
      exact hunder r hr held hheld
    · rw [Function.update_of_ne ht] at hr
      exact hs.under t' r hr held fun l' => (hheld l').trans (howner t' l' ht)
  quiet t' r hr hleaving hne := by
    rw [hthread] at hr
    by_cases ht : t' = t
    · subst ht
      rw [Function.update_self] at hr
      exact hquiet r hr hleaving hne
    · rw [Function.update_of_ne ht] at hr
      exact hs.quiet t' r hr hleaving fun ho => hne ((howner t' l ht).mpr ho)
  log := hlog

theorem LogsUnder.step (hS : ∀ o, (S.body o).EmitsUnder l kind ∅) (hs : LogsUnder l kind s)
    (hordered : Ordered rank s) (h : StepSpec S s s') : LogsUnder l kind s' := by
  cases h with
  | @start t o hidle hmay =>
    have hnone : ∀ l, s.owner l ≠ some t := hordered.idle t hidle
    refine hs.of_update (t := t) rfl (fun _ _ _ => Iff.rfl) ?_ ?_ ?_
    · rintro _ ⟨rfl⟩ held hheld
      obtain rfl : held = ∅ := Finset.eq_empty_of_forall_notMem fun l' hl' => hnone l' ((hheld l').mp hl')
      exact hS o
    · rintro _ ⟨rfl⟩ _ _
      rfl
    · have hpending : (s.setThread t (some ⟨o, S.body o, [], false⟩)).pending l = s.pending l :=
        pending_of_ne rfl (hnone l) fun t' ht => setThread_of_ne ht _
      rw [hpending]
      exact hs.log
  | @done t r hr hp =>
    obtain ⟨held, hheld, -, hprog⟩ := hordered.busy t r hr
    rw [hp] at hprog
    obtain rfl : held = ∅ := hprog
    have hnone : s.owner l ≠ some t := fun ho => by simpa using (hheld l).mpr ho
    refine hs.of_update (t := t) rfl (fun _ _ _ => Iff.rfl) (by simp) (by simp) ?_
    have hpending : (s.setThread t none).pending l = s.pending l :=
      pending_of_ne rfl hnone fun t' ht => setThread_of_ne ht _
    rw [hpending]
    exact hs.log
  | @abort t r hr hp => exact ⟨hs.under, hs.quiet, hs.log⟩
  | @acquire t r l' k hr hp hfree =>
    obtain ⟨held, hheld, hleaving, -⟩ := hordered.busy t r hr
    have hunder := hs.under t r hr held hheld
    rw [hp] at hleaving hunder
    have hgrows : r.leaving = false := by simpa [Proc.Leaving] using hleaving
    refine hs.of_update (t := t) rfl (fun t' l₁ ht => ?_) ?_ ?_ ?_
    · exact owner_update (by simp [hfree]) (by simpa using ht.symm) l₁
    · rintro _ ⟨rfl⟩ held' hheld'
      obtain rfl : held' = insert l' held := by
        ext l₁
        by_cases heq : l₁ = l'
        · simp [hheld', heq]
        · simp [hheld', hheld, heq]
      exact hunder
    · rintro _ ⟨rfl⟩ _ hne
      refine hs.quiet t r hr hgrows fun ho => hne ?_
      by_cases heq : l = l'
      · simp [heq]
      · simp [heq, ho]
    · by_cases heq : l' = l
      · -- what the task emitted before it took the lock is not of the kind
        subst heq
        have hquiet := hs.quiet t r hr hgrows (by simp [hfree])
        have hlog := hs.log
        rw [pending_of_none hfree] at hlog
        rw [pending_of_eq (Function.update_self ..) (Function.update_self ..), hgrows]
        simpa [hquiet, setThread] using hlog
      · have hpending : System.pending { s.setThread t (some { r with prog := k }) with
            owner := Function.update s.owner l' (some t) } l = s.pending l :=
          pending_of_same (Function.update_of_ne (Ne.symm heq) _ _) hr (Function.update_self ..) rfl rfl
            fun t' ht => setThread_of_ne ht _
        rw [hpending]
        exact hs.log
  | @release t r l' k hr hp =>
    obtain ⟨held, hheld, -, hprog⟩ := hordered.busy t r hr
    have hunder := hs.under t r hr held hheld
    rw [hp] at hprog hunder
    have howns : s.owner l' = some t := (hheld l').mp hprog.1
    refine hs.of_update (t := t) rfl (fun t' l₁ ht => ?_) ?_ (by rintro _ ⟨rfl⟩ ⟨⟩) ?_
    · exact owner_update (by simpa [howns] using ht.symm) (by simp) l₁
    · rintro _ ⟨rfl⟩ held' hheld'
      obtain rfl : held' = held.erase l' := by
        ext l₁
        by_cases heq : l₁ = l'
        · simp [hheld', heq]
        · simp [hheld', hheld, heq]
      exact hunder
    · -- what was pending is committed
      have hlog := hs.log
      by_cases ho : s.owner l = some t
      · rw [pending_of_eq ho hr] at hlog
        have hpending : System.pending { s.setThread t (some { r with prog := k, leaving := true }) with
            owner := Function.update s.owner l' none
            commits := if r.leaving then s.commits else s.commits ++ [(r.op, r.emitted)] } l = [] := by
          by_cases heq : l = l'
          · exact pending_of_none (by simp [heq])
          · rw [pending_of_eq (by simpa [heq] using ho) (Function.update_self ..)]
            rfl
        rw [hpending]
        cases hleaving : r.leaving <;> simpa [hleaving, setThread] using hlog
      · have hpending : System.pending { s.setThread t (some { r with prog := k, leaving := true }) with
            owner := Function.update s.owner l' none
            commits := if r.leaving then s.commits else s.commits ++ [(r.op, r.emitted)] } l =
            s.pending l := by
          have hne : l ≠ l' := fun heq => ho (by rwa [heq])
          exact pending_of_ne (Function.update_of_ne hne _ _) ho fun t' ht => setThread_of_ne ht _
        rw [hpending]
        cases hleaving : r.leaving with
        | true => simpa [hleaving, setThread] using hlog
        | false => simpa [hleaving, setThread, hs.quiet t r hr hleaving ho] using hlog
  | @access t r l' update k hr hp =>
    obtain ⟨held, hheld, -, -⟩ := hordered.busy t r hr
    have hunder := hs.under t r hr held hheld
    rw [hp] at hunder
    refine hs.of_update (t := t) rfl (fun _ _ _ => Iff.rfl) ?_ ?_ ?_
    · rintro _ ⟨rfl⟩ held' hheld'
      obtain rfl : held' = held := Finset.ext fun l₁ => (hheld' l₁).trans (hheld l₁).symm
      exact hunder _
    · rintro _ ⟨rfl⟩ hleaving hne
      exact hs.quiet t r hr hleaving hne
    · have hpending : System.pending { s.setThread t (some { r with prog := k (s.store l') }) with
          store := Function.update s.store l' (update (s.store l')) } l = s.pending l :=
        pending_of_same rfl hr (Function.update_self ..) rfl rfl fun t' ht => setThread_of_ne ht _
      rw [hpending]
      exact hs.log
  | @emit t r e k hr hp =>
    obtain ⟨held, hheld, hleaving, -⟩ := hordered.busy t r hr
    have hunder := hs.under t r hr held hheld
    rw [hp] at hleaving hunder
    have hgrows : r.leaving = false := by simpa [Proc.Leaving] using hleaving
    have hkind : s.owner l ≠ some t → kind e = false := by
      intro ho
      by_contra hkind
      exact ho ((hheld l).mp (hunder.1 (by simpa using hkind)))
    refine hs.of_update (t := t) rfl (fun _ _ _ => Iff.rfl) ?_ ?_ ?_
    · rintro _ ⟨rfl⟩ held' hheld'
      obtain rfl : held' = held := Finset.ext fun l₁ => (hheld' l₁).trans (hheld l₁).symm
      exact hunder.2
    · rintro _ ⟨rfl⟩ _ hne
      simpa [hkind hne] using hs.quiet t r hr hgrows hne
    · have hlog := hs.log
      by_cases ho : s.owner l = some t
      · have hpending : System.pending { s.setThread t
            (some { r with prog := k, emitted := r.emitted ++ [e] }) with log := s.log ++ [e] } l =
            r.emitted ++ [e] := by
          refine Eq.trans (pending_of_eq ho (Function.update_self ..)) ?_
          rw [hgrows]
          rfl
        rw [pending_of_eq ho hr, hgrows] at hlog
        rw [hpending, List.filter_append, List.filter_append, hlog]
        simp [setThread]
      · have hpending : System.pending { s.setThread t
            (some { r with prog := k, emitted := r.emitted ++ [e] }) with log := s.log ++ [e] } l =
            s.pending l :=
          pending_of_ne rfl ho fun t' ht => setThread_of_ne ht _
        rw [hpending]
        simpa [hkind ho, setThread] using hlog

omit [DecidableEq T] in
theorem logsUnder_init (store : Store M) : LogsUnder l kind (init store : System T L M E O) where
  under _ _ h := by cases h
  quiet _ _ h := by cases h
  log := rfl

/-- What is emitted under a lock is, in every state reached, a beginning of what some
operations emit that run alone one after the other. -/
theorem log_initial_serialLog (hS : S.Disciplined rank) (hunder : ∀ o, (S.body o).EmitsUnder l kind ∅)
    {store : Store M} {choices : List (Choice T O)} (hs : after S store choices = some s) :
    ∃ ops, s.log.filter kind <+: (serialLog S store ops).2.filter kind := by
  obtain ⟨hordered, hlogs⟩ := after_invariant (fun s => Ordered rank s ∧ LogsUnder l kind s)
    ⟨ordered_init store, logsUnder_init store⟩
    (fun _ _ hs h => ⟨hs.1.step hS h, hs.2.step hunder hs.1 h⟩) hs
  have hserial := serializes_of_after hS hs
  have hcommitted := hserial.serialLog_eq
  have hlog := hlogs.log
  rcases pending_cases s l with hnone | ⟨t, r, hr, hgrows, hsome⟩
  · refine ⟨s.commits.map Prod.fst, ?_⟩
    rw [hcommitted, hlog, hnone, List.filter_nil, List.append_nil]
  · -- the holder's operation comes last, with what it has still to emit
    obtain hbody := hserial.growing t r hr hgrows _ fun _ _ => rfl
    refine ⟨s.commits.map Prod.fst ++ [r.op], ?_⟩
    rw [serialLog, run_concat, ← serialLog, hcommitted, hlog, hsome, hbody, List.filter_append,
      List.filter_append, ← List.append_assoc]
    exact List.prefix_append ..

end System

end RgbLightning.Guarded
