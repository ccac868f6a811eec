import RgbLightning.Base.Decimal

/-! # Pieces and bytes of a text

The pieces the standard library cuts a text into: at most so many from the left or
from the right, and the lines. A line ends in a line feed, with or without a carriage
return before it, or with the text.
-/
namespace RgbLightning.Split
open Decimal

section Pieces

/-- What is before and after the first `c`. -/
def cutFirst (c : Char) : Text → Option (Text × Text)
  | [] => none
  | d :: s => if d = c then some ([], s) else (cutFirst c s).map fun cut => (d :: cut.1, cut.2)

/-- At most `n` pieces from the left, the last one with the separators that are left. -/
def splitn (c : Char) : ℕ → Text → List Text
  | 0, _ => []
  | 1, s => [s]
  | n + 2, s =>
    match cutFirst c s with
    | none => [s]
    | some (a, b) => a :: splitn c (n + 1) b

/-- At most `n` pieces from the right, the rightmost first. -/
def rsplitn (c : Char) (n : ℕ) (s : Text) : List Text := (splitn c n s.reverse).map List.reverse

variable {c : Char} {a b s : Text}

theorem cutFirst_append_cons (ha : c ∉ a) (b : Text) : cutFirst c (a ++ c :: b) = some (a, b) := by
  induction a with
  | nil => simp [cutFirst]
  | cons d a ih =>
    have hd : d ≠ c := fun h => ha (by simp [h])
    have htail : c ∉ a := fun h => ha (by simp [h])
    simp [cutFirst, hd, ih htail]

theorem cutFirst_of_not_mem (h : c ∉ s) : cutFirst c s = none := by
  induction s with
  | nil => rfl
  | cons d s ih =>
    have hd : d ≠ c := fun hd => h (by simp [hd])
    have htail : c ∉ s := fun hs => h (by simp [hs])
    simp [cutFirst, hd, ih htail]

theorem splitn_two_append (ha : c ∉ a) (b : Text) : splitn c 2 (a ++ c :: b) = [a, b] := by
  simp [splitn, cutFirst_append_cons ha]

theorem splitn_two_of_not_mem (h : c ∉ s) : splitn c 2 s = [s] := by
  simp [splitn, cutFirst_of_not_mem h]

theorem rsplitn_two_append (a : Text) (hb : c ∉ b) : rsplitn c 2 (a ++ c :: b) = [b, a] := by
  have hreverse : (a ++ c :: b).reverse = b.reverse ++ c :: a.reverse := by simp
  rw [rsplitn, hreverse, splitn_two_append (by simpa using hb)]
  simp

/-- Cutting everywhere gives back two parts iff the second has no separator itself. -/
theorem splitOn_pair_iff (ha : c ∉ a) : (a ++ c :: b).splitOn c = [a, b] ↔ c ∉ b := by
  rw [List.splitOn_append_cons_self_of_not_mem ha, List.cons_eq_cons]
  constructor
  · intro h hb
    obtain ⟨x, y, rfl, hx⟩ := List.eq_append_cons_of_mem hb
    rw [List.splitOn_append_cons_self_of_not_mem hx] at h
    have hrest := (List.cons.inj h.2).2
    exact List.splitOn_ne_nil c y hrest
  · intro hb
    exact ⟨rfl, List.splitOn_eq_singleton hb⟩

end Pieces

section Lines

/-- The carriage return that belongs to a line feed. -/
def stripCr (line : Text) : Text := if line.getLast? = some '\r' then line.dropLast else line

/-- The lines of a text whose first line has begun with `line`. -/
def linesFrom : Text → Text → List Text
  | line, [] => if line = [] then [] else [line]
  | line, c :: s => if c = '\n' then stripCr line :: linesFrom [] s else linesFrom (line ++ [c]) s

def lines (s : Text) : List Text := linesFrom [] s

example : lines "a=1\r\n\nb".toList = ["a=1".toList, [], "b".toList] := by decide

variable {line s t : Text}

theorem linesFrom_append (line s t : Text) :
    linesFrom line (s ++ '\n' :: t) = linesFrom line (s ++ ['\n']) ++ linesFrom [] t := by
  induction s generalizing line with
  | nil => simp [linesFrom]
  | cons c s ih =>
    rw [List.cons_append, List.cons_append, linesFrom, linesFrom]
    split
    · rw [ih, List.cons_append]
    · rw [ih]

/-- What follows a line feed is read as a text of its own. -/
theorem lines_append (s t : Text) : lines (s ++ '\n' :: t) = lines (s ++ ['\n']) ++ lines t :=
  linesFrom_append [] s t

theorem lines_flatMap (texts : List Text) :
    lines (texts.flatMap fun s => s ++ ['\n']) = texts.flatMap fun s => lines (s ++ ['\n']) := by
  induction texts with
  | nil => rfl
  | cons s texts ih =>
    have hcons : (s :: texts).flatMap (fun s => s ++ ['\n']) =
        s ++ '\n' :: texts.flatMap fun s => s ++ ['\n'] := by simp
    rw [hcons, lines_append, ih, List.flatMap_cons]

theorem linesFrom_single (line : Text) (hs : '\n' ∉ s) :
    linesFrom line (s ++ ['\n']) = [stripCr (line ++ s)] := by
  induction s generalizing line with
  | nil => simp [linesFrom]
  | cons c s ih =>
    have hc : c ≠ '\n' := fun hc => hs (by simp [hc])
    have htail : '\n' ∉ s := fun h => hs (by simp [h])
    rw [List.cons_append, linesFrom, if_neg hc, ih _ htail]
    simp

theorem lines_single (hs : '\n' ∉ s) : lines (s ++ ['\n']) = [stripCr s] := by
  rw [lines, linesFrom_single [] hs, List.nil_append]

end Lines

section Bytes

/-- The bytes of a text. -/
def utf8 (s : Text) : List UInt8 := s.flatMap String.utf8EncodeChar

@[simp] theorem utf8_nil : utf8 [] = [] := rfl

@[simp] theorem utf8_append (s t : Text) : utf8 (s ++ t) = utf8 s ++ utf8 t := List.flatMap_append

theorem length_utf8_pos {s : Text} (h : s ≠ []) : 0 < (utf8 s).length := by
  cases s with
  | nil => exact absurd rfl h
  | cons c s =>
    have hc : 0 < (String.utf8EncodeChar c).length := by
      rw [String.length_utf8EncodeChar]
      exact c.utf8Size_pos
    simp only [utf8, List.flatMap_cons, List.length_append]
    omega

end Bytes

end RgbLightning.Split
