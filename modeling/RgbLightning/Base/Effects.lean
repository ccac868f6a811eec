import Mathlib.Tactic

/-! # Effects that may fail

A plan is a list of effects on a state that outlives the process. An attempt performs
them in order and stops at the first that fails; what was done before it stays done.
-/
namespace RgbLightning.Effects
variable {W E : Type*} (perform : W → E → Option W)

/-- Whether all effects were performed, and the state reached. -/
def attempt : List E → W → Bool × W
  | [], w => (true, w)
  | e :: rest, w =>
    match perform w e with
    | some w' => attempt rest w'
    | none => (false, w)

variable {perform} {w w' : W} {e : E} {xs ys : List E}

@[simp] theorem attempt_nil : attempt perform [] w = (true, w) := rfl

theorem attempt_cons_some (h : perform w e = some w') :
    attempt perform (e :: xs) w = attempt perform xs w' := by
  rw [attempt, h]

theorem attempt_cons_none (h : perform w e = none) : attempt perform (e :: xs) w = (false, w) := by
  rw [attempt, h]

theorem attempt_append_of (h : attempt perform xs w = (true, w')) :
    attempt perform (xs ++ ys) w = attempt perform ys w' := by
  induction xs generalizing w with
  | nil =>
    cases h
    rfl
  | cons e xs ih =>
    cases hperform : perform w e with
    | none =>
      rw [attempt_cons_none hperform] at h
      cases h
    | some next =>
      rw [attempt_cons_some hperform] at h
      rw [List.cons_append, attempt_cons_some hperform]
      exact ih h

theorem attempt_append_failed (h : attempt perform xs w = (false, w')) :
    attempt perform (xs ++ ys) w = (false, w') := by
  induction xs generalizing w with
  | nil => cases h
  | cons e xs ih =>
    cases hperform : perform w e with
    | none =>
      rw [attempt_cons_none hperform] at h
      rw [List.cons_append, attempt_cons_none hperform, h]
    | some next =>
      rw [attempt_cons_some hperform] at h
      rw [List.cons_append, attempt_cons_some hperform]
      exact ih h

/-- What every effect of the plan keeps, the attempt keeps. -/
theorem attempt_invariant {Inv : W → Prop}
    (hstep : ∀ e ∈ xs, ∀ w w', Inv w → perform w e = some w' → Inv w') (hw : Inv w) :
    Inv (attempt perform xs w).2 := by
  induction xs generalizing w with
  | nil => exact hw
  | cons e xs ih =>
    have hrest : ∀ e ∈ xs, ∀ w w', Inv w → perform w e = some w' → Inv w' := by
      intro e he
      exact hstep e (List.mem_cons_of_mem _ he)
    cases hperform : perform w e with
    | none => rwa [attempt_cons_none hperform]
    | some next =>
      rw [attempt_cons_some hperform]
      exact ih hrest (hstep e (List.mem_cons_self ..) w next hw hperform)

theorem attempt_unchanged (h : ∀ e ∈ xs, perform w e = some w) : attempt perform xs w = (true, w) := by
  induction xs with
  | nil => rfl
  | cons e xs ih =>
    rw [attempt_cons_some (h e (List.mem_cons_self ..))]
    exact ih fun e he => h e (List.mem_cons_of_mem _ he)

/-- An attempt that gets through has performed every effect of its plan. -/
theorem performed_of_attempt {Inv : W → Prop}
    (hstep : ∀ e w w', Inv w → perform w e = some w' → Inv w') (hw : Inv w)
    (h : (attempt perform xs w).1 = true) (he : e ∈ xs) : ∃ w' next, Inv w' ∧ perform w' e = some next := by
  induction xs generalizing w with
  | nil => cases he
  | cons first xs ih =>
    cases hperform : perform w first with
    | none =>
      rw [attempt_cons_none hperform] at h
      cases h
    | some next =>
      rw [attempt_cons_some hperform] at h
      rcases List.mem_cons.mp he with rfl | he
      · exact ⟨w, next, hw, hperform⟩
      · exact ih (hstep _ _ _ hw hperform) h he

/-- What an effect brings about and the others keep holds in the end. -/
theorem established_of_attempt {P : W → Prop} (hkeep : ∀ e w w', P w → perform w e = some w' → P w')
    (hsets : ∀ w w', perform w e = some w' → P w') (h : (attempt perform xs w).1 = true) (he : e ∈ xs) :
    P (attempt perform xs w).2 := by
  induction xs generalizing w with
  | nil => cases he
  | cons first xs ih =>
    cases hperform : perform w first with
    | none =>
      rw [attempt_cons_none hperform] at h
      cases h
    | some next =>
      rw [attempt_cons_some hperform] at h ⊢
      rcases List.mem_cons.mp he with rfl | he
      · exact attempt_invariant (fun e _ => hkeep e) (hsets _ _ hperform)
      · exact ih h he

end RgbLightning.Effects
