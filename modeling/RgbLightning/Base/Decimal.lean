import Mathlib.Tactic

/-! # Reading and printing unsigned decimal words

The grammar is the one of the standard integer parser: an optional leading plus
sign, at least one digit, digits only, and a value that fits the word.
-/
namespace RgbLightning.Decimal

abbrev Text := List Char

inductive ParseIntError where
  | empty
  | invalidDigit
  | posOverflow
  deriving DecidableEq, Repr

def ParseIntError.message : ParseIntError → String
  | .empty => "cannot parse integer from empty string"
  | .invalidDigit => "invalid digit found in string"
  | .posOverflow => "number too large to fit in target type"

def digitValue (c : Char) : Option ℕ :=
  if '0' ≤ c ∧ c ≤ '9' then some (c.toNat - '0'.toNat) else none

def readDigits (w : ℕ) : ℕ → Text → Except ParseIntError ℕ
  | acc, [] => .ok acc
  | acc, c :: cs =>
    match digitValue c with
    | none => .error .invalidDigit
    | some d =>
      if acc * 10 + d < 2 ^ w then readDigits w (acc * 10 + d) cs else .error .posOverflow

def parseUnsigned (w : ℕ) : Text → Except ParseIntError ℕ
  | [] => .error .empty
  | ['+'] => .error .invalidDigit
  | '+' :: cs => readDigits w 0 cs
  | cs => readDigits w 0 cs

example : parseUnsigned 64 "+18446744073709551615".toList = .ok 18446744073709551615 := by rfl
example : parseUnsigned 64 "18446744073709551616".toList = .error .posOverflow := by rfl

section Printing
variable {w : ℕ}

theorem readDigits_lt {acc n : ℕ} {cs : Text} (hacc : acc < 2 ^ w) (h : readDigits w acc cs = .ok n) :
    n < 2 ^ w := by
  induction cs generalizing acc with
  | nil =>
    cases h
    exact hacc
  | cons c cs ih =>
    rw [readDigits] at h
    cases hc : digitValue c with
    | none => simp [hc] at h
    | some d =>
      simp only [hc] at h
      by_cases hfit : acc * 10 + d < 2 ^ w
      · rw [if_pos hfit] at h
        exact ih hfit h
      · simp [hfit] at h

theorem parseUnsigned_lt {n : ℕ} {s : Text} (h : parseUnsigned w s = .ok n) : n < 2 ^ w := by
  have hzero : 0 < 2 ^ w := by positivity
  unfold parseUnsigned at h
  split at h
  · cases h
  · cases h
  · exact readDigits_lt hzero h
  · exact readDigits_lt hzero h

/-- A text read after another one continues with its value. -/
theorem readDigits_append {acc n : ℕ} {xs : Text} (ys : Text) (h : readDigits w acc xs = .ok n) :
    readDigits w acc (xs ++ ys) = readDigits w n ys := by
  induction xs generalizing acc with
  | nil =>
    cases h
    rfl
  | cons c cs ih =>
    rw [readDigits] at h
    rw [List.cons_append, readDigits]
    cases hc : digitValue c with
    | none => simp [hc] at h
    | some d =>
      simp only [hc] at h ⊢
      by_cases hfit : acc * 10 + d < 2 ^ w
      · rw [if_pos hfit] at h ⊢
        exact ih h
      · simp [hfit] at h

theorem digitValue_digitChar {d : ℕ} (h : d < 10) : digitValue d.digitChar = some d := by
  interval_cases d <;> rfl

theorem readDigits_digitChar {acc d : ℕ} (hd : d < 10) (hfit : acc * 10 + d < 2 ^ w) :
    readDigits w acc [d.digitChar] = .ok (acc * 10 + d) := by
  simp [readDigits, digitValue_digitChar hd, hfit]

theorem readDigits_toDigits {n : ℕ} (h : n < 2 ^ w) : readDigits w 0 (Nat.toDigits 10 n) = .ok n := by
  induction n using Nat.strong_induction_on with
  | _ n ih =>
    by_cases hn : n < 10
    · rw [Nat.toDigits_of_lt_base hn, readDigits_digitChar hn]
      · simp
      · omega
    · have hquot : n / 10 < n := by omega
      have hlead : readDigits w 0 (Nat.toDigits 10 (n / 10)) = .ok (n / 10) :=
        ih (n / 10) hquot (hquot.trans h)
      have hvalue : n / 10 * 10 + n % 10 = n := by omega
      have hlast : n % 10 < 10 := Nat.mod_lt n (by omega)
      rw [Nat.toDigits_of_base_le (by omega) (Nat.not_lt.mp hn), readDigits_append _ hlead,
        readDigits_digitChar hlast]
      · rw [hvalue]
      · rwa [hvalue]

theorem isDigit_of_mem_toDigits {c : Char} {n : ℕ} (h : c ∈ Nat.toDigits 10 n) : c.isDigit = true :=
  Nat.isDigit_of_mem_toDigits (by omega) (by omega) h

/-- What is printed is read back: no sign, no leading space, at least one digit. -/
theorem parseUnsigned_toDigits {n : ℕ} (h : n < 2 ^ w) :
    parseUnsigned w (Nat.toDigits 10 n) = .ok n := by
  have hread : readDigits w 0 (Nat.toDigits 10 n) = .ok n := readDigits_toDigits h
  have hdigit : ∀ c ∈ Nat.toDigits 10 n, c.isDigit = true := fun _ => isDigit_of_mem_toDigits
  cases hs : Nat.toDigits 10 n with
  | nil => exact absurd hs Nat.toDigits_ne_nil
  | cons c cs =>
    rw [hs] at hread hdigit
    have hplus : c ≠ '+' := by
      rintro rfl
      exact absurd (hdigit '+' (by simp)) (by decide)
    have hread' : parseUnsigned w (c :: cs) = readDigits w 0 (c :: cs) := by
      rw [parseUnsigned] <;> simp [hplus]
    rw [hread', hread]

theorem readDigits_mono {w' acc n : ℕ} {cs : Text} (hw : w ≤ w') (h : readDigits w acc cs = .ok n) :
    readDigits w' acc cs = .ok n := by
  have hpow : 2 ^ w ≤ 2 ^ w' := Nat.pow_le_pow_right (by omega) hw
  induction cs generalizing acc with
  | nil => exact h
  | cons c cs ih =>
    rw [readDigits] at h ⊢
    cases hc : digitValue c with
    | none => simp [hc] at h
    | some d =>
      simp only [hc] at h ⊢
      by_cases hfit : acc * 10 + d < 2 ^ w
      · rw [if_pos hfit] at h
        rw [if_pos (hfit.trans_le hpow)]
        exact ih h
      · simp [hfit] at h

theorem parseUnsigned_mono {w' n : ℕ} {s : Text} (hw : w ≤ w') (h : parseUnsigned w s = .ok n) :
    parseUnsigned w' s = .ok n := by
  unfold parseUnsigned at h ⊢
  split at h
  · cases h
  · cases h
  · exact readDigits_mono hw h
  · exact readDigits_mono hw h

/-- A number that is too large is not read as another one. -/
theorem eq_of_parseUnsigned_toDigits {n m : ℕ} (h : parseUnsigned w (Nat.toDigits 10 n) = .ok m) :
    m = n := by
  have hfits : n < 2 ^ (w + n) :=
    Nat.lt_two_pow_self.trans_le (Nat.pow_le_pow_right (by omega) (Nat.le_add_left n w))
  have hread := parseUnsigned_mono (Nat.le_add_right w n) h
  rw [parseUnsigned_toDigits hfits] at hread
  exact (Except.ok.inj hread).symm

end Printing

end RgbLightning.Decimal
