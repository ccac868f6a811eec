import RgbLightning.Base.Decimal

/-! # Words of a line

A line is split at white space, and empty words are dropped. White space is the
Unicode property of that name.
-/
namespace RgbLightning.Words
open Decimal

def isWhitespace (c : Char) : Bool :=
  (0x09 ≤ c.toNat && c.toNat ≤ 0x0D) || c.toNat = 0x20 || c.toNat = 0x85 || c.toNat = 0xA0 ||
    c.toNat = 0x1680 || (0x2000 ≤ c.toNat && c.toNat ≤ 0x200A) || c.toNat = 0x2028 ||
    c.toNat = 0x2029 || c.toNat = 0x202F || c.toNat = 0x205F || c.toNat = 0x3000

def splitWhitespace (line : Text) : List Text := (line.splitOnP isWhitespace).filter fun w => w ≠ []

/-- A text that is a word: there is something, and no white space in it. -/
def IsWord (s : Text) : Prop := s ≠ [] ∧ ∀ c ∈ s, isWhitespace c = false

instance (s : Text) : Decidable (IsWord s) :=
  decidable_of_iff (s ≠ [] ∧ s.all (fun c => !isWhitespace c) = true) (by simp [IsWord])

theorem splitWhitespace_of_isWord {s : Text} (h : IsWord s) : splitWhitespace s = [s] := by
  obtain ⟨hne, hclean⟩ := h
  rw [splitWhitespace, List.splitOnP_eq_singleton hclean]
  simp [hne]

theorem splitWhitespace_skip {c : Char} (hc : isWhitespace c = true) (s : Text) :
    splitWhitespace (c :: s) = splitWhitespace s := by
  simp [splitWhitespace, List.splitOnP_cons_eq_if_modifyHead, hc]

theorem splitWhitespace_word {s : Text} (h : IsWord s) {c : Char} (hc : isWhitespace c = true)
    (rest : Text) : splitWhitespace (s ++ c :: rest) = s :: splitWhitespace rest := by
  obtain ⟨hne, hclean⟩ := h
  rw [splitWhitespace, List.splitOnP_append_cons_of_forall_mem hclean c hc]
  simp [hne, splitWhitespace]

theorem splitWhitespace_cons {s : Text} (h : IsWord s) (rest : Text) :
    splitWhitespace (s ++ ' ' :: rest) = s :: splitWhitespace rest :=
  splitWhitespace_word h (by decide) rest

/-- Where the first word stands: behind white space, and before white space or the end. -/
theorem splitWhitespace_eq_cons {s w : Text} {rest : List Text} (h : splitWhitespace s = w :: rest) :
    ∃ lead tail, s = lead ++ (w ++ tail) ∧ (∀ c ∈ lead, isWhitespace c = true) ∧ IsWord w ∧
      ∀ c ∈ tail.head?, isWhitespace c = true := by
  induction s with
  | nil => cases h
  | cons c s ih =>
    by_cases hc : isWhitespace c = true
    · rw [splitWhitespace_skip hc] at h
      obtain ⟨lead, tail, rfl, hlead, hrest⟩ := ih h
      refine ⟨c :: lead, tail, rfl, ?_, hrest⟩
      simpa [hc] using hlead
    · -- the word is what stands before the next white space
      have hsplit := List.takeWhile_append_dropWhile (p := fun d => !isWhitespace d) (l := c :: s)
      have hword : IsWord ((c :: s).takeWhile fun d => !isWhitespace d) := by
        constructor
        · simp [hc]
        · intro d hd
          simpa using List.all_eq_true.mp List.all_takeWhile d hd
      have hhead : ∀ d ∈ ((c :: s).dropWhile fun d => !isWhitespace d).head?,
          isWhitespace d = true := by
        intro d hd
        have hstop := List.head?_dropWhile_not (fun d => !isWhitespace d) (c :: s)
        rw [Option.mem_def.mp hd] at hstop
        simpa using hstop
      generalize (c :: s).takeWhile (fun d => !isWhitespace d) = word at hsplit hword
      generalize (c :: s).dropWhile (fun d => !isWhitespace d) = tail at hsplit hhead
      have hfirst : word = w := by
        rw [← hsplit] at h
        cases tail with
        | nil =>
          rw [List.append_nil, splitWhitespace_of_isWord hword] at h
          exact (List.cons.inj h).1
        | cons d tail =>
          rw [splitWhitespace_word hword (hhead d rfl)] at h
          exact (List.cons.inj h).1
      subst hfirst
      exact ⟨[], tail, hsplit.symm, by simp, hword, hhead⟩

/-- The words of a line contain no white space. -/
theorem isWord_of_mem_splitWhitespace {s w : Text} (h : w ∈ splitWhitespace s) : IsWord w := by
  obtain ⟨hsplit, hne⟩ := List.mem_filter.mp h
  refine ⟨by simpa using hne, ?_⟩
  clear h hne
  induction s generalizing w with
  | nil =>
    rw [List.mem_singleton.mp hsplit]
    simp
  | cons d s ih =>
    rw [List.splitOnP_cons_eq_if_modifyHead] at hsplit
    split_ifs at hsplit with hd
    · rcases List.mem_cons.mp hsplit with rfl | hsplit
      · simp
      · exact ih hsplit
    · cases hpieces : s.splitOnP isWhitespace with
      | nil => exact absurd hpieces (List.splitOnP_ne_nil isWhitespace s)
      | cons piece pieces =>
        rw [hpieces, List.modifyHead_cons] at hsplit
        rcases List.mem_cons.mp hsplit with rfl | hsplit
        · have hpiece : ∀ c ∈ piece, isWhitespace c = false := ih (by simp [hpieces])
          have hfirst : isWhitespace d = false := eq_false_of_ne_true hd
          simpa using ⟨hfirst, hpiece⟩
        · exact ih (by simp [hpieces, hsplit])

/-- Words joined by blanks, with a line feed at the end, are found again. -/
theorem splitWhitespace_intercalate {words : List Text} (h : ∀ w ∈ words, IsWord w) :
    splitWhitespace ([' '].intercalate words ++ ['\n']) = words := by
  induction words with
  | nil => decide
  | cons w words ih =>
    have hw : IsWord w := h w (List.mem_cons_self ..)
    cases words with
    | nil =>
      rw [List.intercalate_singleton]
      exact splitWhitespace_word hw (by decide : isWhitespace '\n' = true) []
    | cons w' words =>
      rw [List.intercalate_cons_cons, List.append_assoc, List.append_assoc, List.singleton_append,
        splitWhitespace_cons hw, ih fun v hv => h v (List.mem_cons_of_mem w hv)]

theorem not_isWhitespace_intercalate {sep : Char} (hsep : isWhitespace sep = false)
    {parts : List Text} (hparts : ∀ s ∈ parts, ∀ c ∈ s, isWhitespace c = false) :
    ∀ c ∈ [sep].intercalate parts, isWhitespace c = false := by
  induction parts with
  | nil => simp
  | cons s rest ih =>
    have hs : ∀ c ∈ s, isWhitespace c = false := hparts s (List.mem_cons_self ..)
    have hrest := ih fun t ht => hparts t (List.mem_cons_of_mem s ht)
    cases rest with
    | nil => simpa using hs
    | cons t rest =>
      intro c hc
      rw [List.intercalate_cons_cons] at hc
      rcases List.mem_append.mp hc with hc | hc
      · rcases List.mem_append.mp hc with hc | hc
        · exact hs c hc
        · rw [List.mem_singleton.mp hc]
          exact hsep
      · exact hrest c hc

/-- Parts joined by a character that is not white space are one word. -/
theorem isWord_intercalate {sep : Char} (hsep : isWhitespace sep = false) {s : Text}
    {rest : List Text} (hs : IsWord s) (hrest : ∀ t ∈ rest, ∀ c ∈ t, isWhitespace c = false) :
    IsWord ([sep].intercalate (s :: rest)) := by
  constructor
  · cases rest with
    | nil => simpa using hs.1
    | cons t rest => simp [List.intercalate_cons_cons]
  · apply not_isWhitespace_intercalate hsep
    intro t ht
    rcases List.mem_cons.mp ht with rfl | ht
    · exact hs.2
    · exact hrest t ht

/-- Lower-case letters of the Latin alphabet. -/
def isLetter (c : Char) : Bool := 97 ≤ c.toNat && c.toNat ≤ 122

theorem not_isWhitespace_of_isLetter {c : Char} (h : isLetter c = true) : isWhitespace c = false := by
  simp only [isLetter, Bool.and_eq_true, decide_eq_true_eq] at h
  simp only [isWhitespace, Bool.or_eq_false_iff, Bool.and_eq_false_iff, decide_eq_false_iff_not]
  omega

theorem isWord_of_isLetter {s : Text} (hne : s ≠ []) (h : s.all isLetter = true) : IsWord s := by
  refine ⟨hne, fun c hc => ?_⟩
  apply not_isWhitespace_of_isLetter
  exact List.all_eq_true.mp h c hc

theorem isWord_toDigits (n : ℕ) : IsWord (Nat.toDigits 10 n) := by
  refine ⟨Nat.toDigits_ne_nil, fun c hc => ?_⟩
  have hdigit : c.isDigit = true := isDigit_of_mem_toDigits hc
  simp only [Char.isDigit, Bool.and_eq_true, decide_eq_true_eq, ge_iff_le, UInt32.le_iff_toNat_le]
    at hdigit
  have hlow : 48 ≤ c.toNat := hdigit.1
  have hhigh : c.toNat ≤ 57 := hdigit.2
  simp only [isWhitespace, Bool.or_eq_false_iff, Bool.and_eq_false_iff, decide_eq_false_iff_not]
  omega

end RgbLightning.Words
