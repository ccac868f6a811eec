import RgbLightning.Base.Runs

/-! # Tasks over values that are guarded by locks

Every value has a lock and is only read and changed by the task that holds it. Tasks
run their operations one action at a time, in any order. A lock that is held makes its
next taker wait; an abort halts everything.
-/
namespace RgbLightning.Guarded
open Runs
variable {T L E O : Type} {M : L → Type}

/-- A program. An access changes the value of a lock and goes on with what was there. -/
inductive Proc (L : Type) (M : L → Type) (E : Type) where
  | done
  | abort
  | acquire (l : L) (k : Proc L M E)
  | release (l : L) (k : Proc L M E)
  | access (l : L) (update : M l → M l) (k : M l → Proc L M E)
  | emit (e : E) (k : Proc L M E)

abbrev Store (M : L → Type) := ∀ l, M l

namespace Proc
variable [DecidableEq L]

/-- The program run alone: what it leaves in the store, and what it has emitted. -/
def exec : Proc L M E → Store M → Store M × List E
  | done, store | abort, store => (store, [])
  | acquire _ k, store | release _ k, store => k.exec store
  | access l update k, store => (k (store l)).exec (Function.update store l (update (store l)))
  | emit e k, store => ((k.exec store).1, e :: (k.exec store).2)

/-- Nothing but releases is left. -/
def Leaving : Finset L → Proc L M E → Prop
  | held, done => held = ∅
  | held, release l k => l ∈ held ∧ k.Leaving (held.erase l)
  | _, _ => False

/-- Values are accessed under their locks, locks are taken in rising rank, and the first
release comes after everything else. -/
def Disciplined (rank : L → ℕ) : Finset L → Proc L M E → Prop
  | held, done => held = ∅
  | _, abort => True
  | held, acquire l k => (∀ l' ∈ held, rank l' < rank l) ∧ k.Disciplined rank (insert l held)
  | held, release l k => l ∈ held ∧ k.Leaving (held.erase l)
  | held, access l _ k => l ∈ held ∧ ∀ v, (k v).Disciplined rank held
  | held, emit _ k => k.Disciplined rank held

theorem exec_leaving {held : Finset L} {x : Proc L M E} (h : x.Leaving held)
    (store : Store M) : x.exec store = (store, []) := by
  induction x generalizing held with
  | done => rfl
  | release l k ih => exact ih h.2
  | abort | acquire | access | emit => exact h.elim

theorem Leaving.disciplined {rank : L → ℕ} {held : Finset L} {x : Proc L M E} (h : x.Leaving held) :
    x.Disciplined rank held := by
  cases x with
  | done => exact h
  | release l k => exact h
  | abort | acquire | access | emit => exact h.elim

end Proc

/-- The operation a task runs: what is left of it, what it has emitted, and whether it
has begun to release its locks. -/
structure Thread (L : Type) (M : L → Type) (E O : Type) where
  op : O
  prog : Proc L M E
  emitted : List E
  leaving : Bool

/-- The operations are logged in the order in which they begin to release. -/
structure System (T L : Type) (M : L → Type) (E O : Type) where
  thread : T → Option (Thread L M E O)
  owner : L → Option T
  store : Store M
  log : List E
  commits : List (O × List E)
  halted : Bool

inductive Choice (T O : Type) where
  | start (t : T) (o : O)
  | act (t : T)

/-- The program of each operation, and when a task may start one. -/
structure Schedule (T L : Type) (M : L → Type) (E O : Type) where
  body : O → Proc L M E
  mayStart : T → O → List E → Bool

namespace System
variable [DecidableEq T] [DecidableEq L]

def init (store : Store M) : System T L M E O := ⟨fun _ => none, fun _ => none, store, [], [], false⟩

def setThread (s : System T L M E O) (t : T) (r : Option (Thread L M E O)) : System T L M E O :=
  { s with thread := Function.update s.thread t r }

/-- The next action of a task, if it has one and need not wait. -/
def act (s : System T L M E O) (t : T) : Option (System T L M E O) :=
  match s.thread t with
  | none => none
  | some r =>
    match r.prog with
    | .done => some (s.setThread t none)
    | .abort => some { s with halted := true }
    | .acquire l k =>
      match s.owner l with
      | none => some { s.setThread t (some { r with prog := k }) with
          owner := Function.update s.owner l (some t) }
      | some _ => none
    | .release l k => some { s.setThread t (some { r with prog := k, leaving := true }) with
        owner := Function.update s.owner l none
        commits := if r.leaving then s.commits else s.commits ++ [(r.op, r.emitted)] }
    | .access l update k => some { s.setThread t (some { r with prog := k (s.store l) }) with
        store := Function.update s.store l (update (s.store l)) }
    | .emit e k => some { s.setThread t (some { r with prog := k, emitted := r.emitted ++ [e] }) with
        log := s.log ++ [e] }

variable (S : Schedule T L M E O)

def start (s : System T L M E O) (t : T) (o : O) : Option (System T L M E O) :=
  match s.thread t with
  | none => if S.mayStart t o s.log then some (s.setThread t (some ⟨o, S.body o, [], false⟩)) else none
  | some _ => none

def step (s : System T L M E O) (choice : Choice T O) : Option (System T L M E O) :=
  if s.halted then none
  else match choice with
    | .start t o => s.start S t o
    | .act t => s.act t

/-- The state after a list of choices, if all of them were possible. -/
def after (store : Store M) (choices : List (Choice T O)) : Option (System T L M E O) :=
  choices.foldlM (step S) (init store)

inductive StepSpec (s : System T L M E O) : System T L M E O → Prop
  | start {t : T} {o : O} (hidle : s.thread t = none) (hmay : S.mayStart t o s.log = true) :
      StepSpec s (s.setThread t (some ⟨o, S.body o, [], false⟩))
  | done {t : T} {r : Thread L M E O} (hr : s.thread t = some r) (hp : r.prog = .done) :
      StepSpec s (s.setThread t none)
  | abort {t : T} {r : Thread L M E O} (hr : s.thread t = some r) (hp : r.prog = .abort) :
      StepSpec s { s with halted := true }
  | acquire {t : T} {r : Thread L M E O} {l : L} {k : Proc L M E} (hr : s.thread t = some r)
      (hp : r.prog = .acquire l k) (hfree : s.owner l = none) :
      StepSpec s { s.setThread t (some { r with prog := k }) with
        owner := Function.update s.owner l (some t) }
  | release {t : T} {r : Thread L M E O} {l : L} {k : Proc L M E} (hr : s.thread t = some r)
      (hp : r.prog = .release l k) :
      StepSpec s { s.setThread t (some { r with prog := k, leaving := true }) with
        owner := Function.update s.owner l none
        commits := if r.leaving then s.commits else s.commits ++ [(r.op, r.emitted)] }
  | access {t : T} {r : Thread L M E O} {l : L} {update : M l → M l} {k : M l → Proc L M E}
      (hr : s.thread t = some r) (hp : r.prog = .access l update k) :
      StepSpec s { s.setThread t (some { r with prog := k (s.store l) }) with
        store := Function.update s.store l (update (s.store l)) }
  | emit {t : T} {r : Thread L M E O} {e : E} {k : Proc L M E} (hr : s.thread t = some r)
      (hp : r.prog = .emit e k) :
      StepSpec s { s.setThread t (some { r with prog := k, emitted := r.emitted ++ [e] }) with
        log := s.log ++ [e] }

variable {S}

theorem step_spec {s s' : System T L M E O} {choice : Choice T O} (h : s.step S choice = some s') :
    StepSpec S s s' := by
  unfold step at h
  split at h
  · cases h
  · cases choice with
    | start t o =>
      simp only [start] at h
      cases hr : s.thread t with
      | some r => simp [hr] at h
      | none =>
        rw [hr] at h
        by_cases hmay : S.mayStart t o s.log = true
        · simp only [if_pos hmay, Option.some.injEq] at h
          subst h
          exact .start hr hmay
        · simp [hmay] at h
    | act t =>
      simp only [act] at h
      cases hr : s.thread t with
      | none => simp [hr] at h
      | some r =>
        simp only [hr] at h
        cases hp : r.prog with
        | done => rw [hp] at h; cases h; exact .done hr hp
        | abort => rw [hp] at h; cases h; exact .abort hr hp
        | acquire l k =>
          rw [hp] at h
          cases hfree : s.owner l with
          | none => simp only [hfree] at h; cases h; exact .acquire hr hp hfree
          | some t' => simp [hfree] at h
        | release l k => rw [hp] at h; cases h; exact .release hr hp
        | access l update k => rw [hp] at h; cases h; exact .access hr hp
        | emit e k => rw [hp] at h; cases h; exact .emit hr hp

theorem after_concat {store : Store M} {choices : List (Choice T O)} {choice : Choice T O}
    {s' : System T L M E O} (h : after S store (choices ++ [choice]) = some s') :
    ∃ s, after S store choices = some s ∧ s.step S choice = some s' := by
  rw [after, List.foldlM_append] at h
  obtain ⟨s, hs, hstep⟩ := Option.bind_eq_some_iff.mp h
  exact ⟨s, hs, by simpa using hstep⟩

/-- What a step preserves, a run preserves. -/
theorem after_invariant {store : Store M} (Inv : System T L M E O → Prop) (hinit : Inv (init store))
    (hstep : ∀ s s', Inv s → StepSpec S s s' → Inv s') {choices : List (Choice T O)}
    {s : System T L M E O} (hs : after S store choices = some s) : Inv s := by
  induction choices using List.reverseRecOn generalizing s with
  | nil =>
    cases hs
    exact hinit
  | append_singleton choices choice ih =>
    obtain ⟨s₀, hs₀, hlast⟩ := after_concat hs
    exact hstep s₀ s (ih hs₀) (step_spec hlast)

end System

end RgbLightning.Guarded
