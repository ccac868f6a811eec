import RgbLightning.Base.Runs

/-! # Runs that touch one key at a time

Each input changes the cell of at most one key, by what this cell holds. The cell of a
key is then decided by the inputs of that key alone, and inputs of different keys may
come in any order.
-/
namespace RgbLightning.KeyedRuns
open Runs
variable {K V I : Type*} [DecidableEq K]

def keyedStep (key : I → Option K) (cell : I → V → V) (m : K → V) (i : I) : K → V :=
  match key i with
  | some k => Function.update m k (cell i (m k))
  | none => m

/-- The inputs that touch a key, in their order. -/
def touching (key : I → Option K) (k : K) (inputs : List I) : List I :=
  inputs.filter fun i => key i = some k

variable {key : I → Option K} {cell : I → V → V}

@[simp] theorem touching_nil (k : K) : touching key k [] = [] := rfl

theorem touching_concat_of_eq {k : K} {i : I} (h : key i = some k) (inputs : List I) :
    touching key k (inputs ++ [i]) = touching key k inputs ++ [i] := by
  simp [touching, h]

theorem touching_concat_of_ne {k : K} {i : I} (h : key i ≠ some k) (inputs : List I) :
    touching key k (inputs ++ [i]) = touching key k inputs := by
  simp [touching, h]

theorem keyedStep_of_eq {k : K} {i : I} (h : key i = some k) (m : K → V) :
    keyedStep key cell m i k = cell i (m k) := by
  simp [keyedStep, h]

theorem keyedStep_of_ne {k : K} {i : I} (h : key i ≠ some k) (m : K → V) :
    keyedStep key cell m i k = m k := by
  unfold keyedStep
  cases hk : key i with
  | none => rfl
  | some k' =>
    have hne : k ≠ k' := fun heq => h (by rw [hk, heq])
    exact Function.update_of_ne hne _ _

/-- The cell of a key is folded from the inputs that touch it. -/
theorem run_keyedStep (m : K → V) (inputs : List I) (k : K) :
    run (keyedStep key cell) m inputs k = run (fun v i => cell i v) (m k) (touching key k inputs) := by
  induction inputs using List.reverseRecOn with
  | nil => rfl
  | append_singleton inputs i ih =>
    rw [run_concat]
    by_cases h : key i = some k
    · rw [keyedStep_of_eq h, touching_concat_of_eq h, run_concat, ih]
    · rw [keyedStep_of_ne h, touching_concat_of_ne h, ih]

/-- Runs with the same inputs for every key end alike, however these are interleaved. -/
theorem run_keyedStep_congr (m : K → V) {xs ys : List I}
    (h : ∀ k, touching key k xs = touching key k ys) :
    run (keyedStep key cell) m xs = run (keyedStep key cell) m ys := by
  funext k
  rw [run_keyedStep, run_keyedStep, h k]

/-- The list that is met when a predicate is looked for from the end. -/
theorem exists_last_of_mem {p : I → Prop} [DecidablePred p] {inputs : List I} (h : ∃ i ∈ inputs, p i) :
    ∃ older i newer, inputs = older ++ i :: newer ∧ p i ∧ ∀ x ∈ newer, ¬p x := by
  induction inputs using List.reverseRecOn with
  | nil => simp at h
  | append_singleton inputs last ih =>
    by_cases hlast : p last
    · exact ⟨inputs, last, [], rfl, hlast, by simp⟩
    · obtain ⟨i, hi, hp⟩ := h
      have hbefore : i ∈ inputs := by
        rcases List.mem_append.mp hi with hi | hi
        · exact hi
        · rw [List.mem_singleton.mp hi] at hp
          exact absurd hp hlast
      obtain ⟨older, i, newer, rfl, hpi, hnewer⟩ := ih ⟨i, hbefore, hp⟩
      refine ⟨older, i, newer ++ [last], by simp, hpi, fun x hx => ?_⟩
      rcases List.mem_append.mp hx with hx | hx
      · exact hnewer x hx
      · rwa [List.mem_singleton.mp hx]

end RgbLightning.KeyedRuns
