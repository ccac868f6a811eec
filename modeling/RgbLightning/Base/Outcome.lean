import RgbLightning.Base.MachineInt
import RgbLightning.Base.Decimal

/-! # Outcomes of fallible computations

A computation returns a value, reports an error text, or aborts the process:
both build profiles abort on a panic, so nothing runs after one.
-/
namespace RgbLightning

inductive Outcome (α : Type*) where
  | ok (a : α)
  | err (message : String)
  | abort
  deriving DecidableEq, Repr

namespace Outcome
variable {α β : Type*}

def bind : Outcome α → (α → Outcome β) → Outcome β
  | ok a, f => f a
  | err e, _ => err e
  | abort, _ => abort

/-- Unwrap a value whose absence is a panic. -/
def ofOption : Option α → Outcome α
  | some a => ok a
  | none => abort

def ofExcept : Except String α → Outcome α
  | .ok a => ok a
  | .error e => err e

@[simp] theorem bind_ok (a : α) (f : α → Outcome β) : (ok a).bind f = f a := rfl
@[simp] theorem bind_err (e : String) (f : α → Outcome β) : (err e).bind f = err e := rfl
@[simp] theorem bind_abort (f : α → Outcome β) : (abort : Outcome α).bind f = abort := rfl
@[simp] theorem ofOption_some (a : α) : ofOption (some a) = ok a := rfl
@[simp] theorem ofOption_none : ofOption (none : Option α) = abort := rfl
@[simp] theorem ofExcept_ok (a : α) : ofExcept (.ok a) = ok a := rfl
@[simp] theorem ofExcept_error (e : String) : ofExcept (.error e : Except String α) = err e := rfl

theorem bind_eq_ok {x : Outcome α} {f : α → Outcome β} {b : β} :
    x.bind f = ok b ↔ ∃ a, x = ok a ∧ f a = ok b := by
  cases x <;> simp

theorem ofOption_eq_ok {o : Option α} {a : α} : ofOption o = ok a ↔ o = some a := by
  cases o <;> simp

theorem ofExcept_eq_ok {r : Except String α} {a : α} : ofExcept r = ok a ↔ r = .ok a := by
  cases r <;> simp

theorem ofExcept_bind_eq_ok {r : Except String α} {f : α → Outcome β} {b : β} :
    (ofExcept r).bind f = ok b ↔ ∃ a, r = .ok a ∧ f a = ok b := by
  cases r <;> simp

theorem ofExcept_bind_eq_abort {r : Except String α} {f : α → Outcome β} :
    (ofExcept r).bind f = abort ↔ ∃ a, r = .ok a ∧ f a = abort := by
  cases r <;> simp

theorem bind_ok_eq_abort {x : Outcome α} {f : α → β} :
    (x.bind fun a => ok (f a)) = abort ↔ x = abort := by
  cases x <;> simp

theorem ofExcept_bind_ok_ne_abort {r : Except String α} {f : α → β} :
    ((ofExcept r).bind fun a => ok (f a)) ≠ abort := by
  cases r <;> simp

theorem except_toOption_eq_some {ε : Type*} {r : Except ε α} {a : α} :
    r.toOption = some a ↔ r = .ok a := by
  cases r <;> simp [Except.toOption]

theorem except_bind_eq_ok {γ δ : Type} {x : Except String γ} {f : γ → Except String δ} {d : δ} :
    x >>= f = .ok d ↔ ∃ c, x = .ok c ∧ f c = .ok d := by
  constructor
  · intro h
    cases x with
    | error e => cases h
    | ok c => exact ⟨c, rfl, h⟩
  · rintro ⟨c, rfl, h⟩
    exact h

end Outcome

end RgbLightning
