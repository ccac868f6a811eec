import RgbLightning.Base.Interleaving

/-! # Two locks taken in opposite orders

A task nests `b` in `a` when it holds `a` and will take `b` before releasing `a`.
A deadlock over two locks needs two tasks with opposite nestings, and each
nesting is entered by taking the outer lock, or by starting with it held.
-/
namespace RgbLightning
open Runs
variable {T L V E O α : Type}

namespace Task

/-- On some path the task takes `b` before it releases `a`. -/
def Ahead (a b : L) : Task L V E α → Prop
  | ret _ | abort => False
  | acquire l k => l = b ∨ k.Ahead a b
  | release l k => l ≠ a ∧ k.Ahead a b
  | read k => ∃ v, (k v).Ahead a b
  | write _ k | emit _ k => k.Ahead a b

def decidableNextAcquire [DecidableEq L] (l : L) :
    (x : Task L V E α) → Decidable (∃ k, x = .acquire l k)
  | acquire l' k =>
    decidable_of_iff (l' = l) ⟨fun h => ⟨k, by rw [h]⟩, fun ⟨_, h⟩ => (acquire.inj h).1⟩
  | ret _ | abort | release _ _ | read _ | write _ _ | emit _ _ => isFalse fun ⟨_, h⟩ => by cases h

end Task

namespace TaskSystem
variable [DecidableEq T] [DecidableEq L] {S : Schedule T L V E O}

def Nests (s : TaskSystem T L V E O) (t : T) (a b : L) : Prop :=
  s.owner a = some t ∧ (s.prog t).Ahead a b

def WaitsFor (s : TaskSystem T L V E O) (t : T) (l : L) : Prop := ∃ k, s.prog t = .acquire l k

instance (s : TaskSystem T L V E O) (t : T) (l : L) : Decidable (s.WaitsFor t l) :=
  (s.prog t).decidableNextAcquire l

/-- One task holds `a` and waits for `b`, another holds `b` and waits for `a`. -/
def Deadlocked (s : TaskSystem T L V E O) (a b : L) : Prop :=
  ∃ t t', t ≠ t' ∧ s.owner a = some t ∧ s.WaitsFor t b ∧ s.owner b = some t' ∧ s.WaitsFor t' a

/-- The step makes the task nest `b` in `a`. -/
def Enters (S : Schedule T L V E O) (s : TaskSystem T L V E O) (choice : Choice T O) (t : T) (a b : L) :
    Prop :=
  (choice = .act t ∧ ∃ k, s.prog t = .acquire a k ∧ k.Ahead a b) ∨
  ∃ o, choice = .start t o ∧ s.owner a = some t ∧ (S.body o).Ahead a b

omit [DecidableEq T] [DecidableEq L] in
theorem WaitsFor.nests {s : TaskSystem T L V E O} {t : T} {a b : L} (h : s.WaitsFor t b)
    (ho : s.owner a = some t) : s.Nests t a b := by
  obtain ⟨k, hk⟩ := h
  refine ⟨ho, ?_⟩
  rw [hk]
  exact .inl rfl

theorem StepSpec.nests {s s' : TaskSystem T L V E O} {choice : Choice T O}
    (h : StepSpec S s choice s') {t : T} {a b : L} (hn : s'.Nests t a b) :
    s.Nests t a b ∨ s.Enters S choice t a b := by
  obtain ⟨howner, hahead⟩ := hn
  by_cases ht : t = choice.task
  · cases h with
    | @start u o hidle hmay =>
      obtain rfl : t = u := ht
      rw [setProg_prog_self] at hahead
      exact .inr (.inr ⟨o, rfl, howner, hahead⟩)
    | abort hp => exact .inl ⟨howner, hahead⟩
    | @acquire u l k hp hfree =>
      obtain rfl : t = u := ht
      rw [setProg_prog_self] at hahead
      dsimp only at howner
      by_cases hl : a = l
      · subst hl
        exact .inr (.inl ⟨rfl, k, hp, hahead⟩)
      · rw [Function.update_of_ne hl] at howner
        have hbefore : (s.prog t).Ahead a b := by
          rw [hp]
          exact .inr hahead
        exact .inl ⟨howner, hbefore⟩
    | @release u l k hp =>
      obtain rfl : t = u := ht
      rw [setProg_prog_self] at hahead
      dsimp only at howner
      have hl : a ≠ l := by
        intro heq
        subst heq
        simp at howner
      rw [Function.update_of_ne hl] at howner
      have hbefore : (s.prog t).Ahead a b := by
        rw [hp]
        exact ⟨hl.symm, hahead⟩
      exact .inl ⟨howner, hbefore⟩
    | @read u k hp =>
      obtain rfl : t = u := ht
      rw [setProg_prog_self] at hahead
      have hbefore : (s.prog t).Ahead a b := by
        rw [hp]
        exact ⟨s.cell, hahead⟩
      exact .inl ⟨howner, hbefore⟩
    | @write u v k hp =>
      obtain rfl : t = u := ht
      rw [setProg_prog_self] at hahead
      have hbefore : (s.prog t).Ahead a b := by
        rw [hp]
        exact hahead
      exact .inl ⟨howner, hbefore⟩
    | @emit u e k hp =>
      obtain rfl : t = u := ht
      rw [setProg_prog_self] at hahead
      have hbefore : (s.prog t).Ahead a b := by
        rw [hp]
        exact hahead
      exact .inl ⟨howner, hbefore⟩
  · obtain ⟨hprog, -, hlocks⟩ := h.frame ht
    rw [hprog] at hahead
    exact .inl ⟨hlocks a howner, hahead⟩

/-- Follows whether the task holds `a`. An ordered task does not take `b` then. -/
def orderMonitor (V E : Type) (a b : L) (ordered : Prop) : Monitor L V E Bool where
  sees _ _ := True
  ok held
    | .acquire l => l = b → ordered → held = false
    | _ => True
  next held
    | .acquire l => if l = a then true else held
    | .release l => if l = a then false else held
    | _ => held

/-- Every operation releases `a` and, when ordered, does not take `b` while holding it. -/
def Disciplined (S : Schedule T L V E O) (a b : L) (Ordered : O → Prop) : Prop :=
  ∀ o, (S.body o).wp (orderMonitor V E a b (Ordered o)) (fun _ held => held = false) false

/-- The monitor of the running operation says whether the task holds `a`. -/
def Followed (a b : L) (Ordered : O → Prop) (s : TaskSystem T L V E O) (t : T) : Prop :=
  ∃ held, (s.owner a = some t → held = true) ∧
    (s.prog t).wp (orderMonitor V E a b (∀ o, s.op t = some o → Ordered o))
      (fun _ held => held = false) held

theorem StepSpec.followed {s s' : TaskSystem T L V E O} {choice : Choice T O} {a b : L}
    {Ordered : O → Prop} (hS : Disciplined S a b Ordered) (h : StepSpec S s choice s') {t : T}
    (hs : Followed a b Ordered s t) : Followed a b Ordered s' t := by
  obtain ⟨held, hheld, hwp⟩ := hs
  by_cases ht : t = choice.task
  · cases h with
    | @start u o hidle hmay =>
      obtain rfl : t = u := ht
      rw [hidle] at hwp
      obtain rfl : held = false := hwp
      refine ⟨false, hheld, ?_⟩
      rw [setProg_prog_self]
      simpa using hS o
    | abort hp => exact ⟨held, hheld, hwp⟩
    | @acquire u l k hp hfree =>
      obtain rfl : t = u := ht
      rw [hp] at hwp
      have hnext : Function.update s.owner l (some t) a = some t →
          (if l = a then true else held) = true := by
        intro ho
        by_cases hl : l = a
        · rw [if_pos hl]
        · rw [Function.update_of_ne (Ne.symm hl)] at ho
          rw [if_neg hl, hheld ho]
      refine ⟨_, hnext, ?_⟩
      rw [setProg_prog_self]
      exact hwp.2
    | @release u l k hp =>
      obtain rfl : t = u := ht
      rw [hp] at hwp
      have hnext : Function.update s.owner l none a = some t →
          (if l = a then false else held) = true := by
        intro ho
        by_cases hl : l = a
        · simp [hl] at ho
        · rw [Function.update_of_ne (Ne.symm hl)] at ho
          rw [if_neg hl, hheld ho]
      refine ⟨_, hnext, ?_⟩
      rw [setProg_prog_self]
      exact hwp.2
    | @read u k hp =>
      obtain rfl : t = u := ht
      rw [hp] at hwp
      refine ⟨held, hheld, ?_⟩
      rw [setProg_prog_self]
      exact hwp s.cell trivial
    | @write u v k hp =>
      obtain rfl : t = u := ht
      rw [hp] at hwp
      refine ⟨held, hheld, ?_⟩
      rw [setProg_prog_self]
      exact hwp.2
    | @emit u e k hp =>
      obtain rfl : t = u := ht
      rw [hp] at hwp
      refine ⟨held, hheld, ?_⟩
      rw [setProg_prog_self]
      exact hwp.2
  · obtain ⟨hprog, hop, hlocks⟩ := h.frame ht
    have howner : s'.owner a = some t → held = true := by
      intro ho
      exact hheld (hlocks a ho)
    refine ⟨held, howner, ?_⟩
    rw [hprog, hop]
    exact hwp

omit [DecidableEq T] in
theorem followed_init (cell : V) (a b : L) (Ordered : O → Prop) (t : T) :
    Followed a b Ordered (init cell : TaskSystem T L V E O) t :=
  ⟨false, fun h => by simp [init] at h, rfl⟩

omit [DecidableEq T] in
theorem Followed.not_ordered {s : TaskSystem T L V E O} {t : T} {a b : L} {Ordered : O → Prop}
    (h : Followed a b Ordered s t) (howner : s.owner a = some t) (hwait : s.WaitsFor t b) :
    ∃ o, s.op t = some o ∧ ¬Ordered o := by
  obtain ⟨held, hheld, hwp⟩ := h
  obtain ⟨k, hk⟩ := hwait
  rw [hk] at hwp
  by_contra hall
  push Not at hall
  have hfree := hwp.1 rfl hall
  rw [hheld howner] at hfree
  cases hfree

omit [DecidableEq T] in
theorem Followed.not_idle {s : TaskSystem T L V E O} {t : T} {a b : L} {Ordered : O → Prop}
    (h : Followed a b Ordered s t) (howner : s.owner a = some t) : s.prog t ≠ .ret () := by
  obtain ⟨held, hheld, hwp⟩ := h
  intro hidle
  rw [hidle] at hwp
  have hfree : held = false := hwp
  rw [hheld howner] at hfree
  cases hfree

end TaskSystem

end RgbLightning
