import RgbLightning.Base.Guarded

/-! # Disciplined operations do not deadlock and are serializable

Operations that take their locks in rising rank never wait for each other in a circle.
When they also release nothing before their last access, every interleaving leaves what
the operations leave that run alone, one after the other, in the order in which they
begin to release.
-/
namespace RgbLightning.Guarded
open Runs
variable {T L E O : Type} {M : L → Type} [DecidableEq L]

def Schedule.Disciplined (S : Schedule T L M E O) (rank : L → ℕ) : Prop :=
  ∀ o, (S.body o).Disciplined rank ∅

/-- The program fits to the locks that its task owns. -/
def Thread.Follows (rank : L → ℕ) (Owns : L → Prop) (r : Thread L M E O) : Prop :=
  ∃ held : Finset L, (∀ l, l ∈ held ↔ Owns l) ∧
    (r.leaving = true → r.prog.Leaving held) ∧ r.prog.Disciplined rank held

namespace System
variable [DecidableEq T] {S : Schedule T L M E O} {rank : L → ℕ} {s s' : System T L M E O}

structure Ordered (rank : L → ℕ) (s : System T L M E O) : Prop where
  idle : ∀ t, s.thread t = none → ∀ l, s.owner l ≠ some t
  busy : ∀ t r, s.thread t = some r → r.Follows rank fun l => s.owner l = some t

omit [DecidableEq T] in
theorem ordered_init (store : Store M) : Ordered rank (init store : System T L M E O) where
  idle _ _ _ h := by cases h
  busy _ _ h := by cases h

/-- A step of one task keeps the others in order, if they own what they owned. -/
theorem Ordered.of_thread {t : T} (hs : Ordered rank s)
    (hother : ∀ t', t' ≠ t → s'.thread t' = s.thread t')
    (howner : ∀ t' l, t' ≠ t → (s'.owner l = some t' ↔ s.owner l = some t'))
    (hidle : s'.thread t = none → ∀ l, s'.owner l ≠ some t)
    (hbusy : ∀ r, s'.thread t = some r → r.Follows rank fun l => s'.owner l = some t) :
    Ordered rank s' where
  idle t' h l := by
    by_cases ht : t' = t
    · subst ht
      exact hidle h l
    · rw [hother t' ht] at h
      exact fun ho => hs.idle t' h l ((howner t' l ht).mp ho)
  busy t' r h := by
    by_cases ht : t' = t
    · subst ht
      exact hbusy r h
    · rw [hother t' ht] at h
      obtain ⟨held, hheld, hprog⟩ := hs.busy t' r h
      exact ⟨held, fun l => (hheld l).trans (howner t' l ht).symm, hprog⟩

omit [DecidableEq L] in
theorem setThread_of_ne {t t' : T} (h : t' ≠ t) (r : Option (Thread L M E O)) :
    (s.setThread t r).thread t' = s.thread t' := Function.update_of_ne h _ _

omit [DecidableEq L] in
@[simp] theorem setThread_self (t : T) (r : Option (Thread L M E O)) :
    (s.setThread t r).thread t = r := Function.update_self ..

omit [DecidableEq T] in
theorem owner_update {t : T} {l : L} {u : Option T} (hl : s.owner l ≠ some t) (hu : u ≠ some t) (l' : L) :
    Function.update s.owner l u l' = some t ↔ s.owner l' = some t := by
  by_cases heq : l' = l
  · subst heq
    simp [hl, hu]
  · rw [Function.update_of_ne heq]

theorem Ordered.step (hS : S.Disciplined rank) (hs : Ordered rank s) (h : StepSpec S s s') :
    Ordered rank s' := by
  cases h with
  | @start t o hidle hmay =>
    refine hs.of_thread (t := t) (fun t' ht => setThread_of_ne ht _) (fun _ _ _ => Iff.rfl)
      (fun h => by simp at h) fun r h => ?_
    rw [setThread_self, Option.some.injEq] at h
    subst h
    have hnone : ∀ l, l ∈ (∅ : Finset L) ↔ s.owner l = some t := by
      intro l
      simpa using hs.idle t hidle l
    exact ⟨∅, hnone, by simp, hS o⟩
  | @done t r hr hp =>
    refine hs.of_thread (t := t) (fun t' ht => setThread_of_ne ht _) (fun _ _ _ => Iff.rfl)
      (fun _ l ho => ?_) fun r h => by simp at h
    obtain ⟨held, hheld, -, hprog⟩ := hs.busy t r hr
    rw [hp] at hprog
    obtain rfl : held = ∅ := hprog
    simpa using (hheld l).mpr ho
  | @abort t r hr hp => exact ⟨hs.idle, hs.busy⟩
  | @acquire t r l k hr hp hfree =>
    obtain ⟨held, hheld, hleaving, hprog⟩ := hs.busy t r hr
    rw [hp] at hleaving hprog
    refine hs.of_thread (t := t) (fun t' ht => setThread_of_ne ht _) (fun t' l' ht => ?_)
      (fun h => by simp at h) fun r' h => ?_
    · exact owner_update (by simp [hfree]) (by simpa using ht.symm) l'
    · rw [setThread_self, Option.some.injEq] at h
      subst h
      refine ⟨insert l held, fun l' => ?_, fun hl => (hleaving hl).elim, hprog.2⟩
      by_cases heq : l' = l
      · simp [heq]
      · simp [heq, hheld]
  | @release t r l k hr hp =>
    obtain ⟨held, hheld, hleaving, hprog⟩ := hs.busy t r hr
    rw [hp] at hleaving hprog
    have howns : s.owner l = some t := (hheld l).mp hprog.1
    refine hs.of_thread (t := t) (fun t' ht => setThread_of_ne ht _) (fun t' l' ht => ?_)
      (fun h => by simp at h) fun r' h => ?_
    · exact owner_update (by simpa [howns] using ht.symm) (by simp) l'
    · rw [setThread_self, Option.some.injEq] at h
      subst h
      refine ⟨held.erase l, fun l' => ?_, fun _ => hprog.2, hprog.2.disciplined⟩
      by_cases heq : l' = l
      · simp [heq]
      · simp [heq, hheld]
  | @access t r l update k hr hp =>
    obtain ⟨held, hheld, hleaving, hprog⟩ := hs.busy t r hr
    rw [hp] at hleaving hprog
    refine hs.of_thread (t := t) (fun t' ht => setThread_of_ne ht _) (fun _ _ _ => Iff.rfl)
      (fun h => by simp at h) fun r' h => ?_
    rw [setThread_self, Option.some.injEq] at h
    subst h
    exact ⟨held, hheld, fun hl => (hleaving hl).elim, hprog.2 _⟩
  | @emit t r e k hr hp =>
    obtain ⟨held, hheld, hleaving, hprog⟩ := hs.busy t r hr
    rw [hp] at hleaving hprog
    refine hs.of_thread (t := t) (fun t' ht => setThread_of_ne ht _) (fun _ _ _ => Iff.rfl)
      (fun h => by simp at h) fun r' h => ?_
    rw [setThread_self, Option.some.injEq] at h
    subst h
    exact ⟨held, hheld, fun hl => (hleaving hl).elim, hprog⟩

theorem ordered_of_after (hS : S.Disciplined rank) {store : Store M} {choices : List (Choice T O)}
    (hs : after S store choices = some s) : Ordered rank s :=
  after_invariant (Ordered rank) (ordered_init store) (fun _ _ hs h => hs.step hS h) hs

/-- Whoever waits, waits in the end for a task that can act: ranks rise along the wait. -/
theorem Ordered.exists_act (hs : Ordered rank s) {n : ℕ} (hrank : ∀ l, rank l < n) {t : T}
    {r : Thread L M E O} (hr : s.thread t = some r) : ∃ t', (s.act t').isSome = true := by
  have hwaiting : ∀ m t r l k, s.thread t = some r → r.prog = .acquire l k → n - rank l = m →
      ∃ t', (s.act t').isSome = true := by
    intro m
    induction m using Nat.strong_induction_on with
    | _ m ih =>
      intro t r l k hr hp hm
      cases howner : s.owner l with
      | none => exact ⟨t, by simp [act, hr, hp, howner]⟩
      | some t' =>
        cases hr' : s.thread t' with
        | none => exact absurd howner (hs.idle t' hr' l)
        | some r' =>
          obtain ⟨held, hheld, -, hprog⟩ := hs.busy t' r' hr'
          have hl : l ∈ held := (hheld l).mpr howner
          cases hp' : r'.prog with
          | acquire l' k' =>
            rw [hp'] at hprog
            have hrise : rank l < rank l' := hprog.1 l hl
            have hbound := hrank l'
            exact ih (n - rank l') (by omega) t' r' l' k' hr' hp' rfl
          | _ => exact ⟨t', by simp [act, hr', hp']⟩
  cases hp : r.prog with
  | acquire l k => exact hwaiting _ t r l k hr hp rfl
  | _ => exact ⟨t, by simp [act, hr, hp]⟩

/-- The store after the operations, run alone one after the other. -/
def serial (S : Schedule T L M E O) (store : Store M) (commits : List (O × List E)) : Store M :=
  run (fun store c => ((S.body c.1).exec store).1) store commits

/-- What a task sees: the values it owns, and else those of the store given. -/
def seenBy (s : System T L M E O) (t : T) (store : Store M) : Store M :=
  fun l => if s.owner l = some t then s.store l else store l

omit [DecidableEq L] in
theorem seenBy_congr {t : T} (howner : ∀ l, s'.owner l = some t ↔ s.owner l = some t)
    (hstore : ∀ l, s.owner l = some t → s'.store l = s.store l) (store : Store M) :
    s'.seenBy t store = s.seenBy t store := by
  funext l
  unfold seenBy
  by_cases ho : s.owner l = some t
  · rw [if_pos ho, if_pos ((howner l).mpr ho), hstore l ho]
  · rw [if_neg ho, if_neg fun h => ho ((howner l).mp h)]

/-- The values that no unfinished task owns are those of the serial run. A task that
has not begun to release has done the first part of its operation, alone. -/
structure Serializes (S : Schedule T L M E O) (store : Store M) (s : System T L M E O) : Prop where
  settled : ∀ l, (∀ t r, s.thread t = some r → s.owner l = some t → r.leaving = true) →
    s.store l = serial S store s.commits l
  growing : ∀ t r, s.thread t = some r → r.leaving = false →
    ∀ B, (∀ l, s.owner l = some t → B l = serial S store s.commits l) →
      (S.body r.op).exec B =
        ((r.prog.exec (s.seenBy t B)).1, r.emitted ++ (r.prog.exec (s.seenBy t B)).2)
  emitted : EachAfter (fun older c => ((S.body c.1).exec (serial S store older)).2 = c.2) s.commits

theorem serializes_init (store : Store M) : Serializes S store (init store) where
  settled _ _ := rfl
  growing _ _ h := by cases h
  emitted := eachAfter_nil _

/-- A step that logs nothing and changes at most what its task owns. -/
theorem Serializes.of_thread {store : Store M} {t : T} (hs : Serializes S store s)
    (hcommits : s'.commits = s.commits) (hother : ∀ t', t' ≠ t → s'.thread t' = s.thread t')
    (howner : ∀ t' l, t' ≠ t → (s'.owner l = some t' ↔ s.owner l = some t'))
    (hstore : ∀ t' l, t' ≠ t → s.owner l = some t' → s'.store l = s.store l)
    (hsettled : ∀ l, (∀ t r, s'.thread t = some r → s'.owner l = some t → r.leaving = true) →
      s'.store l = serial S store s.commits l)
    (hgrowing : ∀ r, s'.thread t = some r → r.leaving = false →
      ∀ B, (∀ l, s'.owner l = some t → B l = serial S store s.commits l) →
        (S.body r.op).exec B =
          ((r.prog.exec (s'.seenBy t B)).1, r.emitted ++ (r.prog.exec (s'.seenBy t B)).2)) :
    Serializes S store s' where
  settled l hl := by
    rw [hcommits]
    exact hsettled l hl
  growing t' r hr hleaving B hB := by
    rw [hcommits] at hB
    by_cases ht : t' = t
    · subst ht
      exact hgrowing r hr hleaving B hB
    · rw [hother t' ht] at hr
      rw [seenBy_congr (fun l => howner t' l ht) fun l ho => hstore t' l ht ho]
      exact hs.growing t' r hr hleaving B fun l ho => hB l ((howner t' l ht).mpr ho)
  emitted := hcommits ▸ hs.emitted

/-- A task that has done all it does takes effect at once. -/
theorem Serializes.commit {store : Store M} {t : T} {r : Thread L M E O} (hs : Serializes S store s)
    (hcommits : s'.commits = s.commits ++ [(r.op, r.emitted)])
    (hbody : (S.body r.op).exec (serial S store s.commits) =
      (s.seenBy t (serial S store s.commits), r.emitted))
    (hother : ∀ t', t' ≠ t → s'.thread t' = s.thread t')
    (howner : ∀ t' l, t' ≠ t → (s'.owner l = some t' ↔ s.owner l = some t'))
    (hstore : s'.store = s.store) (hleaving : ∀ r', s'.thread t = some r' → r'.leaving = true) :
    Serializes S store s' := by
  have hserial : serial S store s'.commits = s.seenBy t (serial S store s.commits) := by
    rw [hcommits, serial, run_concat]
    exact congrArg Prod.fst hbody
  refine ⟨fun l hl => ?_, fun t' r' hr' hgrows B hB => ?_, ?_⟩
  · rw [hserial, hstore, seenBy]
    by_cases ho : s.owner l = some t
    · rw [if_pos ho]
    · rw [if_neg ho]
      refine hs.settled l fun t' r' hr' ho' => ?_
      have ht : t' ≠ t := fun ht => ho (ht ▸ ho')
      exact hl t' r' ((hother t' ht).trans hr') ((howner t' l ht).mpr ho')
  · by_cases ht : t' = t
    · subst ht
      rw [hleaving r' hr'] at hgrows
      cases hgrows
    · have hB' : ∀ l, s.owner l = some t' → B l = serial S store s.commits l := by
        intro l ho
        have hnot : s.owner l ≠ some t := by simpa [ho] using ht
        rw [hB l ((howner t' l ht).mpr ho), hserial, seenBy, if_neg hnot]
      rw [seenBy_congr (fun l => howner t' l ht) fun l _ => congrFun hstore l]
      exact hs.growing t' r' ((hother t' ht).symm.trans hr') hgrows B hB'
  · rw [hcommits, eachAfter_concat]
    exact ⟨hs.emitted, congrArg Prod.snd hbody⟩

theorem Serializes.step {store : Store M} (hs : Serializes S store s) (hordered : Ordered rank s)
    (h : StepSpec S s s') : Serializes S store s' := by
  cases h with
  | @start t o hidle hmay =>
    have hnone : ∀ l, s.owner l ≠ some t := hordered.idle t hidle
    refine hs.of_thread (t := t) rfl (fun t' ht => setThread_of_ne ht _) (fun _ _ _ => Iff.rfl)
      (fun _ _ _ _ => rfl) (fun l hl => hs.settled l fun t' r' hr' ho => ?_) fun r hr _ B _ => ?_
    · have ht : t' ≠ t := fun ht => by simp [ht, hidle] at hr'
      exact hl t' r' ((setThread_of_ne ht _).trans hr') ho
    · rw [setThread_self, Option.some.injEq] at hr
      subst hr
      have hseen : (s.setThread t (some ⟨o, S.body o, [], false⟩)).seenBy t B = B := by
        funext l
        exact if_neg (hnone l)
      rw [hseen, List.nil_append]
  | @done t r hr hp =>
    obtain ⟨held, hheld, -, hprog⟩ := hordered.busy t r hr
    rw [hp] at hprog
    obtain rfl : held = ∅ := hprog
    have hnone : ∀ l, s.owner l ≠ some t := fun l ho => by simpa using (hheld l).mpr ho
    refine hs.of_thread (t := t) rfl (fun t' ht => setThread_of_ne ht _) (fun _ _ _ => Iff.rfl)
      (fun _ _ _ _ => rfl) (fun l hl => hs.settled l fun t' r' hr' ho => ?_) fun r hr => by simp at hr
    have ht : t' ≠ t := fun ht => hnone l (ht ▸ ho)
    exact hl t' r' ((setThread_of_ne ht _).trans hr') ho
  | @abort t r hr hp => exact ⟨hs.settled, hs.growing, hs.emitted⟩
  | @acquire t r l k hr hp hfree =>
    obtain ⟨held, hheld, hleaving, -⟩ := hordered.busy t r hr
    rw [hp] at hleaving
    have hgrows : r.leaving = false := by simpa [Proc.Leaving] using hleaving
    refine hs.of_thread (t := t) rfl (fun t' ht => setThread_of_ne ht _) (fun t' l' ht => ?_)
      (fun _ _ _ _ => rfl) (fun l' hl' => ?_) fun r' hr' _ B hB => ?_
    · exact owner_update (by simp [hfree]) (by simpa using ht.symm) l'
    · refine hs.settled l' fun t' r' hr' ho => ?_
      have hne : l' ≠ l := fun heq => by simp [heq, hfree] at ho
      by_cases ht : t' = t
      · subst ht
        rw [hr, Option.some.injEq] at hr'
        subst hr'
        exact hl' t' { r with prog := k } (Function.update_self ..)
          ((Function.update_of_ne hne _ _).trans ho)
      · exact hl' t' r' ((setThread_of_ne ht _).trans hr') ((Function.update_of_ne hne _ _).trans ho)
    · -- the value taken over is that of the serial run, as nobody owned it
      change Function.update s.thread t _ t = _ at hr'
      rw [Function.update_self, Option.some.injEq] at hr'
      subst hr'
      have hsettled : s.store l = serial S store s.commits l :=
        hs.settled l fun t' _ _ ho => by simp [hfree] at ho
      have hB' : ∀ l', s.owner l' = some t → B l' = serial S store s.commits l' := by
        intro l' ho
        have hne : l' ≠ l := fun heq => by simp [heq, hfree] at ho
        exact hB l' ((Function.update_of_ne hne _ _).trans ho)
      have hbody := hs.growing t r hr hgrows B hB'
      rw [hp] at hbody
      rw [hbody]
      have hseen : System.seenBy { s.setThread t (some { r with prog := k }) with
          owner := Function.update s.owner l (some t) } t B = s.seenBy t B := by
        funext l'
        by_cases hne : l' = l
        · subst hne
          have hBl : B l' = serial S store s.commits l' := hB l' (Function.update_self ..)
          simp [seenBy, hfree, hBl, hsettled, setThread]
        · simp [seenBy, hne, setThread]
      rw [hseen]
      rfl
  | @release t r l k hr hp =>
    obtain ⟨held, hheld, -, hprog⟩ := hordered.busy t r hr
    rw [hp] at hprog
    have howns : s.owner l = some t := (hheld l).mp hprog.1
    have howner : ∀ t' l', t' ≠ t → (Function.update s.owner l none l' = some t' ↔ s.owner l' = some t') :=
      fun t' l' ht => owner_update (by simpa [howns] using ht.symm) (by simp) l'
    cases hleaving : r.leaving with
    | true =>
      refine hs.of_thread (t := t) (by simp) (fun t' ht => setThread_of_ne ht _) howner
        (fun _ _ _ _ => rfl) (fun l' hl' => hs.settled l' fun t' r' hr' ho => ?_) fun r' hr' hgrows => ?_
      · by_cases ht : t' = t
        · subst ht
          rw [hr, Option.some.injEq] at hr'
          rwa [← hr']
        · exact hl' t' r' ((setThread_of_ne ht _).trans hr') ((howner t' l' ht).mpr ho)
      · change Function.update s.thread t _ t = _ at hr'
        rw [Function.update_self, Option.some.injEq] at hr'
        subst hr'
        cases hgrows
    | false =>
      have hbody := hs.growing t r hr hleaving _ fun _ _ => rfl
      rw [hp, Proc.exec, Proc.exec_leaving hprog.2, List.append_nil] at hbody
      refine hs.commit (by simp) hbody (fun t' ht => setThread_of_ne ht _) howner rfl
        fun r' hr' => ?_
      change Function.update s.thread t _ t = _ at hr'
      rw [Function.update_self, Option.some.injEq] at hr'
      rw [← hr']
  | @access t r l update k hr hp =>
    obtain ⟨held, hheld, hleaving, hprog⟩ := hordered.busy t r hr
    rw [hp] at hleaving hprog
    have howns : s.owner l = some t := (hheld l).mp hprog.1
    have hgrows : r.leaving = false := by simpa [Proc.Leaving] using hleaving
    have hkeep : ∀ l', s.owner l' ≠ some t →
        Function.update s.store l (update (s.store l)) l' = s.store l' := by
      intro l' ho
      have hne : l' ≠ l := fun heq => ho (by rwa [heq])
      exact Function.update_of_ne hne _ _
    refine hs.of_thread (t := t) rfl (fun t' ht => setThread_of_ne ht _) (fun _ _ _ => Iff.rfl)
      (fun t' l' ht ho => hkeep l' (by simpa [ho] using ht)) (fun l' hl' => ?_) fun r' hr' _ B hB => ?_
    · have hother : s.owner l' ≠ some t := by
        intro ho
        have hl := hl' t _ (Function.update_self ..) ho
        simp [hgrows] at hl
      change Function.update s.store l (update (s.store l)) l' = _
      rw [hkeep l' hother]
      refine hs.settled l' fun t' r' hr' ho => ?_
      have ht : t' ≠ t := fun ht => hother (ht ▸ ho)
      exact hl' t' r' ((setThread_of_ne ht _).trans hr') ho
    · change Function.update s.thread t _ t = _ at hr'
      rw [Function.update_self, Option.some.injEq] at hr'
      subst hr'
      have hbody := hs.growing t r hr hgrows B hB
      have hsees : s.seenBy t B l = s.store l := if_pos howns
      rw [hp, Proc.exec, hsees] at hbody
      rw [hbody]
      have hseen : System.seenBy { s.setThread t (some { r with prog := k (s.store l) }) with
          store := Function.update s.store l (update (s.store l)) } t B =
          Function.update (s.seenBy t B) l (update (s.store l)) := by
        funext l'
        by_cases heq : l' = l
        · subst heq
          simp [seenBy, howns, setThread]
        · simp [seenBy, heq, setThread]
      rw [hseen]
  | @emit t r e k hr hp =>
    obtain ⟨held, hheld, hleaving, -⟩ := hordered.busy t r hr
    rw [hp] at hleaving
    have hgrows : r.leaving = false := by simpa [Proc.Leaving] using hleaving
    refine hs.of_thread (t := t) rfl (fun t' ht => setThread_of_ne ht _) (fun _ _ _ => Iff.rfl)
      (fun _ _ _ _ => rfl) (fun l hl => hs.settled l fun t' r' hr' ho => ?_) fun r' hr' _ B hB => ?_
    · by_cases ht : t' = t
      · subst ht
        have hl := hl t' _ (Function.update_self ..) ho
        rw [hr, Option.some.injEq] at hr'
        rwa [← hr']
      · exact hl t' r' ((setThread_of_ne ht _).trans hr') ho
    · change Function.update s.thread t _ t = _ at hr'
      rw [Function.update_self, Option.some.injEq] at hr'
      subst hr'
      have hbody := hs.growing t r hr hgrows B hB
      rw [hp] at hbody
      rw [hbody, List.append_assoc]
      rfl

/-- In every state reached, the values that are free are those of the operations run alone
in the order of the log, and these have emitted what they emit then. -/
theorem serializes_of_after (hS : S.Disciplined rank) {store : Store M} {choices : List (Choice T O)}
    (hs : after S store choices = some s) : Serializes S store s :=
  (after_invariant (fun s => Ordered rank s ∧ Serializes S store s)
    ⟨ordered_init store, serializes_init store⟩
    (fun _ _ hs h => ⟨hs.1.step hS h, hs.2.step hs.1 h⟩) hs).2

theorem Serializes.settled_of_free {store : Store M} (hs : Serializes S store s) {l : L}
    (hfree : s.owner l = none) : s.store l = serial S store s.commits l :=
  hs.settled l fun _ _ _ ho => by simp [hfree] at ho

end System

end RgbLightning.Guarded
