import Mathlib.Tactic

/-! # Unsigned machine words under both build profiles

A checked build aborts on unsigned overflow, an unchecked one wraps. Every
operation is computed in `ℕ` and narrowed to the word, so one definition serves
both builds; `none` is the abort.
-/
namespace RgbLightning.MachineInt

/-- The build profile, as far as arithmetic depends on it. -/
structure Profile where
  overflowChecks : Bool
  deriving DecidableEq, Repr

def Profile.dev : Profile := ⟨true⟩
def Profile.release : Profile := ⟨false⟩

variable {w : ℕ}

def narrow (w : ℕ) (p : Profile) (n : ℕ) : Option ℕ :=
  if n < 2 ^ w then some n else if p.overflowChecks then none else some (n % 2 ^ w)

def addWord (w : ℕ) (p : Profile) (a b : ℕ) : Option ℕ := narrow w p (a + b)
def mulWord (w : ℕ) (p : Profile) (a b : ℕ) : Option ℕ := narrow w p (a * b)

def subWord (w : ℕ) (p : Profile) (a b : ℕ) : Option ℕ :=
  if b ≤ a then some (a - b) else if p.overflowChecks then none else some (2 ^ w + a - b)

theorem narrow_of_lt {p : Profile} {n : ℕ} (h : n < 2 ^ w) : narrow w p n = some n := by
  simp [narrow, h]

theorem mulWord_eq_none {p : Profile} {a b : ℕ} :
    mulWord w p a b = none ↔ p.overflowChecks = true ∧ 2 ^ w ≤ a * b := by
  unfold mulWord narrow
  split_ifs with hfits hchecks
  · simp [hfits]
  · simpa [hchecks] using hfits
  · simp [hchecks]

@[simp] theorem narrow_release (n : ℕ) : narrow w .release n = some (n % 2 ^ w) := by
  unfold narrow
  by_cases h : n < 2 ^ w
  · simp [h, Nat.mod_eq_of_lt h]
  · simp [h, Profile.release]

/-- Both builds agree where neither aborts. -/
theorem eq_mod_of_narrow {p : Profile} {n m : ℕ} (h : narrow w p n = some m) : m = n % 2 ^ w := by
  unfold narrow at h
  split at h
  · rename_i hfit
    cases h
    exact (Nat.mod_eq_of_lt hfit).symm
  · split at h
    · cases h
    · exact (Option.some.inj h).symm

/-- Narrowing before an addition does not change what it is narrowed to. -/
theorem narrow_bind_add (p : Profile) (n m : ℕ) :
    (narrow w p n).bind (fun acc => narrow w p (acc + m)) = narrow w p (n + m) := by
  by_cases hfit : n < 2 ^ w
  · rw [narrow_of_lt hfit, Option.bind_some]
  · have hsum : ¬n + m < 2 ^ w := by omega
    rcases p with ⟨_ | _⟩
    · have hwrap : narrow w ⟨false⟩ n = some (n % 2 ^ w) := narrow_release n
      rw [hwrap, Option.bind_some]
      change narrow w .release _ = narrow w .release _
      rw [narrow_release, narrow_release, Nat.mod_add_mod]
    · simp [narrow, hfit, hsum]

/-- A loop that adds a weight and narrows at each step narrows the sum. -/
theorem foldlM_narrow {α : Type*} {p : Profile} {f : ℕ → α → Option ℕ} {weight : α → ℕ}
    (hf : ∀ n x, (narrow w p n).bind (fun acc => f acc x) = narrow w p (n + weight x)) (xs : List α) (n : ℕ) :
    (narrow w p n).bind (fun acc => xs.foldlM f acc) = narrow w p (n + (xs.map weight).sum) := by
  induction xs generalizing n with
  | nil => simp
  | cons x xs ih =>
    have hstep : ∀ acc, (x :: xs).foldlM f acc = (f acc x).bind fun acc => xs.foldlM f acc := fun _ => rfl
    simp only [hstep]
    rw [← Option.bind_assoc, hf, ih, List.map_cons, List.sum_cons, Nat.add_assoc]

theorem foldlM_addWord {α : Type*} (p : Profile) (weight : α → ℕ) (xs : List α) :
    xs.foldlM (fun acc x => addWord w p acc (weight x)) 0 = narrow w p (xs.map weight).sum := by
  have hloop := foldlM_narrow (f := fun acc x => addWord w p acc (weight x))
    (fun n x => narrow_bind_add p n (weight x)) xs 0
  rwa [narrow_of_lt (by positivity), Option.bind_some, Nat.zero_add] at hloop

theorem narrow_eq_some_iff {p : Profile} {n m : ℕ} :
    narrow w p n = some m ↔
      m < 2 ^ w ∧ ∃ k, n = m + k * 2 ^ w ∧ (p.overflowChecks = true → k = 0) := by
  by_cases hfit : n < 2 ^ w
  · rw [narrow_of_lt hfit]
    constructor
    · intro h
      cases h
      exact ⟨hfit, 0, by simp⟩
    · rintro ⟨-, k, hn, -⟩
      have hk : k = 0 := by
        by_contra hpos
        have hle := Nat.le_mul_of_pos_left (2 ^ w) (Nat.pos_of_ne_zero hpos)
        omega
      simp [hn, hk]
  · unfold narrow
    rw [if_neg hfit]
    split
    · constructor
      · intro h
        cases h
      · rintro ⟨hm, k, hn, hk⟩
        have hk := hk ‹_›
        simp only [hk, Nat.zero_mul, Nat.add_zero] at hn
        omega
    · constructor
      · intro h
        cases h
        exact ⟨Nat.mod_lt _ (by positivity), n / 2 ^ w, (Nat.mod_add_div' _ _).symm, fun h => absurd h ‹_›⟩
      · rintro ⟨hm, k, rfl, -⟩
        rw [Nat.add_mul_mod_self_right, Nat.mod_eq_of_lt hm]

/-- Wrapping only takes away. -/
theorem narrow_le {p : Profile} {n m : ℕ} (h : narrow w p n = some m) : m ≤ n := by
  obtain ⟨-, k, rfl, -⟩ := narrow_eq_some_iff.mp h
  exact Nat.le_add_right m _

theorem narrow_release_of {p : Profile} {n m : ℕ} (h : narrow w p n = some m) :
    narrow w .release n = some m := by
  unfold narrow at h ⊢
  split
  · rwa [if_pos ‹_›] at h
  · rw [if_neg ‹_›] at h
    split at h
    · cases h
    · simpa [Profile.release] using h

theorem narrow_dev_of_le {n : ℕ} (h : 2 ^ w ≤ n) : narrow w .dev n = none := by
  simp [narrow, Nat.not_lt.mpr h, Profile.dev]

theorem narrow_dev_eq {n m : ℕ} (h : narrow w .dev n = some m) : m = n ∧ n < 2 ^ w := by
  by_cases hn : n < 2 ^ w
  · rw [narrow_of_lt hn] at h
    cases h
    exact ⟨rfl, hn⟩
  · rw [narrow_dev_of_le (Nat.not_lt.mp hn)] at h
    cases h

@[simp] theorem subWord_of_le {p : Profile} {a b : ℕ} (h : b ≤ a) :
    subWord w p a b = some (a - b) := by
  simp [subWord, h]

theorem subWord_dev_eq {a b m : ℕ} (h : subWord w .dev a b = some m) : b ≤ a ∧ m = a - b := by
  unfold subWord at h
  split at h
  · cases h
    exact ⟨‹_›, rfl⟩
  · simp [Profile.dev] at h

theorem le_of_subWord {p : Profile} {a b m : ℕ} (hchecks : p.overflowChecks = true)
    (h : subWord w p a b = some m) : b ≤ a := by
  by_contra hlt
  simp [subWord, hlt, hchecks] at h

end RgbLightning.MachineInt
