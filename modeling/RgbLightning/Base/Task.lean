import Mathlib.Tactic

/-! # Tasks over locks and one shared cell

A task is a program tree. It takes and releases locks, reads and writes a cell as
a whole, notes what it does, and may abort the process. Everything else a task
depends on is fixed before it starts.
-/
namespace RgbLightning

/-- One action of a task, with the value a read returned. -/
inductive Act (L V E : Type) where
  | acquire (l : L)
  | release (l : L)
  | read (v : V)
  | write (v : V)
  | emit (e : E)
  deriving DecidableEq

inductive Task (L V E α : Type) where
  | ret (a : α)
  | abort
  | acquire (l : L) (k : Task L V E α)
  | release (l : L) (k : Task L V E α)
  | read (k : V → Task L V E α)
  | write (v : V) (k : Task L V E α)
  | emit (e : E) (k : Task L V E α)

namespace Task
variable {L V E α β : Type}

protected def bind : Task L V E α → (α → Task L V E β) → Task L V E β
  | ret a, f => f a
  | abort, _ => abort
  | acquire l k, f => acquire l (k.bind f)
  | release l k, f => release l (k.bind f)
  | read k, f => read fun v => (k v).bind f
  | write v k, f => write v (k.bind f)
  | emit e k, f => emit e (k.bind f)

instance : Monad (Task L V E) where
  pure := ret
  bind := Task.bind

@[simp] theorem pure_def (a : α) : (pure a : Task L V E α) = ret a := rfl
@[simp] theorem bind_def (x : Task L V E α) (f : α → Task L V E β) : x >>= f = x.bind f := rfl

theorem bind_assoc {γ : Type} (x : Task L V E α) (f : α → Task L V E β) (g : β → Task L V E γ) :
    (x.bind f).bind g = x.bind fun a => (f a).bind g := by
  induction x <;> simp_all [Task.bind]

def lock (l : L) : Task L V E Unit := acquire l (ret ())
def unlock (l : L) : Task L V E Unit := release l (ret ())
def get : Task L V E V := read ret
def put (v : V) : Task L V E Unit := write v (ret ())
def note (e : E) : Task L V E Unit := emit e (ret ())

/-- Unwrap a value whose absence is a panic. -/
def expect : Option α → Task L V E α
  | some a => ret a
  | none => abort

def forEach (f : β → Task L V E Unit) : List β → Task L V E Unit
  | [] => ret ()
  | b :: rest => (f b).bind fun _ => forEach f rest

def decidableDone : (x : Task L V E Unit) → Decidable (x = ret ())
  | ret _ => isTrue rfl
  | abort | acquire _ _ | release _ _ | read _ | write _ _ | emit _ _ => isFalse fun h => by cases h

instance (x : Task L V E Unit) : Decidable (x = ret ()) := x.decidableDone

end Task

/-- How a task run on its own ends. -/
inductive Exit (L α : Type) where
  | returned (a : α)
  | aborted
  | blocked (l : L)
  deriving DecidableEq

/-- The state a task runs in: the locks held by anyone, the cell, and what was done. -/
structure Machine (L V E : Type) where
  held : L → Bool
  cell : V
  trace : List (Act L V E)

variable {L V E α β : Type} [DecidableEq L]

def Machine.perform (m : Machine L V E) (a : Act L V E) : Machine L V E where
  held := match a with
    | .acquire l => Function.update m.held l true
    | .release l => Function.update m.held l false
    | _ => m.held
  cell := match a with
    | .write v => v
    | _ => m.cell
  trace := m.trace ++ [a]

/-- Run a task on its own. A lock that is held is never released by someone else. -/
def Task.exec : Task L V E α → Machine L V E → Exit L α × Machine L V E
  | .ret a, m => (.returned a, m)
  | .abort, m => (.aborted, m)
  | .acquire l k, m => if m.held l then (.blocked l, m) else k.exec (m.perform (.acquire l))
  | .release l k, m => k.exec (m.perform (.release l))
  | .read k, m => (k m.cell).exec (m.perform (.read m.cell))
  | .write v k, m => k.exec (m.perform (.write v))
  | .emit e k, m => k.exec (m.perform (.emit e))

section Exec
variable {m : Machine L V E}

theorem Task.exec_lock_bind {l : L} {f : Unit → Task L V E α} (hfree : m.held l = false) :
    ((lock l).bind f).exec m = (f ()).exec (m.perform (.acquire l)) := by
  change (if m.held l then _ else _) = _
  rw [if_neg (by simp [hfree])]
  rfl

theorem Task.exec_lock_held {l : L} {f : Unit → Task L V E α} (hheld : m.held l = true) :
    ((lock l).bind f).exec m = (.blocked l, m) := by
  change (if m.held l then _ else _) = _
  rw [if_pos hheld]

theorem Task.exec_unlock_bind {l : L} {f : Unit → Task L V E α} :
    ((unlock l).bind f).exec m = (f ()).exec (m.perform (.release l)) := rfl

theorem Task.exec_get_bind {f : V → Task L V E α} :
    (get.bind f).exec m = (f m.cell).exec (m.perform (.read m.cell)) := rfl

theorem Task.exec_put_bind {v : V} {f : Unit → Task L V E α} :
    ((put v).bind f).exec m = (f ()).exec (m.perform (.write v)) := rfl

theorem Task.exec_note_bind {e : E} {f : Unit → Task L V E α} :
    ((note e).bind f).exec m = (f ()).exec (m.perform (.emit e)) := rfl

theorem Task.exec_expect_bind {a : β} {f : β → Task L V E α} :
    ((expect (some a)).bind f).exec m = (f a).exec m := rfl

end Exec

theorem Task.exec_bind_returned {x : Task L V E α} {f : α → Task L V E β} {m m' : Machine L V E} {a : α}
    (h : x.exec m = (.returned a, m')) : (x.bind f).exec m = (f a).exec m' := by
  induction x generalizing m with
  | ret b =>
    cases h
    rfl
  | abort => cases h
  | acquire l k ih =>
    unfold exec at h
    rw [Task.bind, exec]
    split at h
    · cases h
    · rw [if_neg ‹_›]
      exact ih h
  | release l k ih => exact ih h
  | read k ih => exact ih m.cell h
  | write v k ih => exact ih h
  | emit e k ih => exact ih h

theorem Task.exec_bind_aborted {x : Task L V E α} {f : α → Task L V E β} {m m' : Machine L V E}
    (h : x.exec m = (.aborted, m')) : (x.bind f).exec m = (.aborted, m') := by
  induction x generalizing m with
  | ret b => cases h
  | abort =>
    cases h
    rfl
  | acquire l k ih =>
    unfold exec at h
    rw [Task.bind, exec]
    split at h
    · cases h
    · rw [if_neg ‹_›]
      exact ih h
  | release l k ih => exact ih h
  | read k ih => exact ih m.cell h
  | write v k ih => exact ih h
  | emit e k ih => exact ih h

/-- What never changes the cell may as well not run. -/
theorem Task.exec_bind_cell {x : Task L V E α} {f : α → Task L V E β} {m : Machine L V E}
    (h : ∀ a m, ((f a).exec m).2.cell = m.cell) : ((x.bind f).exec m).2.cell = (x.exec m).2.cell := by
  induction x generalizing m with
  | ret a => exact h a m
  | abort => rfl
  | acquire l k ih =>
    rw [Task.bind, exec, exec]
    split
    · rfl
    · exact ih
  | release l k ih => exact ih
  | read k ih => exact ih m.cell
  | write v k ih => exact ih
  | emit e k ih => exact ih

/-- A task that only notes leaves the locks and the cell. -/
theorem Task.exec_forEach_note {γ : Type} (e : γ → E) (xs : List γ) (m : Machine L V E) :
    (forEach (fun x => note (e x)) xs).exec m =
      (.returned (), ⟨m.held, m.cell, m.trace ++ xs.map fun x => .emit (e x)⟩) := by
  induction xs generalizing m with
  | nil => simp [forEach, exec]
  | cons x xs ih =>
    have hrest := ih (m.perform (.emit (e x)))
    simp only [Machine.perform, List.append_assoc, List.singleton_append] at hrest
    exact hrest

theorem Task.trace_prefix_exec (x : Task L V E α) (m : Machine L V E) : m.trace <+: (x.exec m).2.trace := by
  have hperform : ∀ (m : Machine L V E) a, m.trace <+: (m.perform a).trace :=
    fun m a => List.prefix_append m.trace [a]
  induction x generalizing m with
  | ret a => exact List.prefix_refl _
  | abort => exact List.prefix_refl _
  | acquire l k ih =>
    unfold exec
    split
    · exact List.prefix_refl _
    · exact (hperform m _).trans (ih _)
  | release l k ih => exact (hperform m _).trans (ih _)
  | read k ih => exact (hperform m _).trans (ih m.cell _)
  | write v k ih => exact (hperform m _).trans (ih _)
  | emit e k ih => exact (hperform m _).trans (ih _)

end RgbLightning
