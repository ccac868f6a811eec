import RgbLightning.Base.Split
import RgbLightning.Base.Words
import RgbLightning.Base.Outcome

/-! # `signmessage`

The command is found among the words of the line. The message is cut from the bytes of
the whole line at a fixed position.
-/
namespace RgbLightning.Node
open Decimal Split Words

section Command

def signmessageWord : Text := "signmessage".toList

def MSG_STARTPOS : ℕ := (utf8 signmessageWord).length + 1

/-- The bytes that are handed to the signer. -/
def signmessage (line : Text) : Except String (List UInt8) :=
  if (utf8 line).length ≤ MSG_STARTPOS then .error "ERROR: signmsg requires a message"
  else .ok ((utf8 line).drop MSG_STARTPOS)

/-- One turn of the input loop, as far as it signs. -/
inductive Turn where
  | ended
  | signing (result : Except String (List UInt8))
  | other
  deriving DecidableEq

/-- The loop reads a line, with its terminator; an empty one is the end of the input. -/
def pollForUserInput (line : Text) : Turn :=
  if line.length = 0 then .ended
  else
    match splitWhitespace line with
    | [] => .other
    | word :: _ => if word = signmessageWord then .signing (signmessage line) else .other

end Command

section Typed
variable (line : Text)

/-- The line feed at the end of a line, with a carriage return before it. -/
def terminator : Text :=
  if "\r\n".toList <:+ line then "\r\n".toList
  else if "\n".toList <:+ line then "\n".toList
  else []

def body : Text := line.take (line.length - (terminator line).length)

def leadingSpace : Text := (body line).takeWhile isWhitespace

/-- What was typed after the first word. -/
def afterWord : Text := ((body line).dropWhile isWhitespace).dropWhile fun c => !isWhitespace c

def separator : Text := (afterWord line).take 1

def message : Text := (afterWord line).drop 1

/-- The turn signs the message, or reports that there is none. -/
def SignsTyped : Prop :=
  (message line ≠ [] → pollForUserInput line = .signing (.ok (utf8 (message line)))) ∧
    (message line = [] →
      pollForUserInput line = .signing (.error "ERROR: signmsg requires a message"))

instance : Decidable (SignsTyped line) := inferInstanceAs (Decidable (_ ∧ _))

/-- The bytes of the line that belong neither to the command nor to the message. -/
def surplus : Text := leadingSpace line ++ separator line ++ terminator line

end Typed

section Shape
variable {line : Text}

theorem body_append_terminator (line : Text) : body line ++ terminator line = line := by
  have hsuffix : terminator line <:+ line := by
    unfold terminator
    split
    · assumption
    · split
      · assumption
      · exact List.nil_suffix
  obtain ⟨front, hfront⟩ := hsuffix
  generalize hterminator : terminator line = t at hfront
  rw [body, hterminator, ← hfront]
  simp

theorem isWhitespace_of_mem_terminator {c : Char} (h : c ∈ terminator line) : isWhitespace c = true := by
  have hall : (terminator line).all isWhitespace = true := by
    unfold terminator
    split
    · rfl
    · split <;> rfl
  exact List.all_eq_true.mp hall c h

/-- White space at the end of a text whose last word is `w` stands behind `w`. -/
theorem suffix_of_isWhitespace {front w tail t : Text} (hw : IsWord w)
    (ht : ∀ c ∈ t, isWhitespace c = true) (h : t <:+ front ++ (w ++ tail)) : t <:+ tail := by
  have htail : tail <:+ front ++ (w ++ tail) := ⟨front ++ w, by simp⟩
  rcases List.suffix_or_suffix_of_suffix h htail with hshort | hlong
  · exact hshort
  · obtain ⟨x, rfl⟩ := hlong
    have hx : x <:+ front ++ w := by
      obtain ⟨y, hy⟩ := h
      refine ⟨y, ?_⟩
      rw [← List.append_assoc, ← List.append_assoc] at hy
      exact List.append_cancel_right hy
    cases hlast : x.getLast? with
    | none => simp [List.getLast?_eq_none_iff.mp hlast]
    | some c =>
      -- the last character of the word would be white space
      have hword : (front ++ w).getLast? = some c := by
        obtain ⟨y, hy⟩ := hx
        rw [← hy, List.getLast?_append, hlast]
        rfl
      have hmem : c ∈ w := by
        rw [List.getLast?_append_of_ne_nil _ hw.1] at hword
        exact List.mem_of_getLast? hword
      have hspace := ht c (by simp [List.mem_of_getLast? hlast])
      rw [hw.2 c hmem] at hspace
      cases hspace

/-- The parts of a line whose first word is the command, in their order. -/
theorem line_eq {words : List Text} (h : splitWhitespace line = signmessageWord :: words) :
    line = leadingSpace line ++ (signmessageWord ++ (separator line ++ (message line ++ terminator line))) := by
  obtain ⟨lead, tail, hline, hlead, hword, hstop⟩ := splitWhitespace_eq_cons h
  have hbody := body_append_terminator line
  have hterminator : terminator line <:+ tail := by
    apply suffix_of_isWhitespace hword (fun c hc => isWhitespace_of_mem_terminator hc)
    rw [← hline]
    exact ⟨body line, hbody⟩
  obtain ⟨rest, rfl⟩ := hterminator
  have hfront : body line = lead ++ (signmessageWord ++ rest) := by
    have hjoined : body line ++ terminator line = lead ++ (signmessageWord ++ rest) ++ terminator line := by
      rw [hbody]
      simpa using hline
    exact List.append_cancel_right hjoined
  have hleading : leadingSpace line = lead := by
    rw [leadingSpace, hfront, List.takeWhile_append_of_pos hlead]
    change lead ++ [] = lead
    simp
  have hcommand : (body line).dropWhile isWhitespace = signmessageWord ++ rest := by
    rw [hfront, List.dropWhile_append_of_pos hlead]
    rfl
  have hrest : rest.dropWhile (fun c => !isWhitespace c) = rest := by
    cases rest with
    | nil => rfl
    | cons c rest =>
      have hc : isWhitespace c = true := hstop c rfl
      simp [hc]
  have hafter : afterWord line = rest := by
    rw [afterWord, hcommand, List.dropWhile_append_of_pos (by simpa using hword.2), hrest]
  have hparts : separator line ++ message line = rest := by
    rw [separator, message, hafter, List.take_append_drop]
  rw [hleading, ← List.append_assoc (separator line), hparts]
  exact hline

theorem separator_ne_nil (h : message line ≠ []) : separator line ≠ [] := by
  unfold message at h
  unfold separator
  cases hafter : afterWord line with
  | nil => simp [hafter] at h
  | cons c rest => simp

end Shape

section Exact
variable {line : Text} {words : List Text}

theorem pollForUserInput_signmessage (h : splitWhitespace line = signmessageWord :: words) :
    pollForUserInput line = .signing (signmessage line) := by
  have hline : line.length ≠ 0 := by
    intro hempty
    rw [List.length_eq_zero_iff.mp hempty] at h
    cases h
  rw [pollForUserInput, if_neg hline, h]
  simp

/-- The bytes of the line, counted by its parts. -/
theorem length_utf8_line (h : splitWhitespace line = signmessageWord :: words) :
    (utf8 line).length + 1 = MSG_STARTPOS + (utf8 (surplus line)).length + (utf8 (message line)).length := by
  conv_lhs => rw [line_eq h]
  simp only [surplus, utf8_append, List.length_append, MSG_STARTPOS]
  omega

/-- The cut falls before the message iff nothing but one byte of a separator is in the
line besides. -/
theorem drop_utf8_line_iff (h : splitWhitespace line = signmessageWord :: words)
    (hmessage : message line ≠ []) :
    (utf8 line).drop MSG_STARTPOS = utf8 (message line) ↔ (utf8 (surplus line)).length ≤ 1 := by
  have hlength := length_utf8_line h
  have hbytes : 0 < (utf8 (message line)).length := length_utf8_pos hmessage
  have hseparator : 0 < (utf8 (separator line)).length := length_utf8_pos (separator_ne_nil hmessage)
  have hsurplus : (utf8 (surplus line)).length = (utf8 (leadingSpace line)).length +
      (utf8 (separator line)).length + (utf8 (terminator line)).length := by
    simp only [surplus, utf8_append, List.length_append]
  constructor
  · intro hdrop
    have hcount := congrArg List.length hdrop
    rw [List.length_drop] at hcount
    omega
  · intro hone
    have hleading : utf8 (leadingSpace line) = [] := List.eq_nil_of_length_eq_zero (by omega)
    have hterminator : utf8 (terminator line) = [] := List.eq_nil_of_length_eq_zero (by omega)
    have hfront : (utf8 signmessageWord ++ utf8 (separator line)).length = MSG_STARTPOS := by
      rw [List.length_append, MSG_STARTPOS]
      omega
    have hline : utf8 line = (utf8 signmessageWord ++ utf8 (separator line)) ++ utf8 (message line) := by
      conv_lhs => rw [line_eq h]
      simp [hleading, hterminator]
    rw [hline, ← hfront, List.drop_left]

/-- The message is signed as typed, or found missing, iff the rest of the line has at
most one byte beside the command: a separator or a terminator, and no leading space. -/
theorem signs_typed_iff (line : Text) (h : (splitWhitespace line).head? = some signmessageWord) :
    SignsTyped line ↔ (utf8 (surplus line)).length ≤ 1 := by
  obtain ⟨words, hwords⟩ : ∃ words, splitWhitespace line = signmessageWord :: words :=
    List.head?_eq_some_iff.mp h
  have hlength := length_utf8_line hwords
  have hpoll := pollForUserInput_signmessage hwords
  by_cases hmessage : message line = []
  · -- nothing was typed, and the count of bytes must show it
    have hempty : (utf8 (message line)).length = 0 := by rw [hmessage]; rfl
    have hmissing : SignsTyped line ↔
        signmessage line = .error "ERROR: signmsg requires a message" := by
      simp [SignsTyped, hmessage, hpoll]
    rw [hmissing, signmessage]
    split
    · simp only [true_iff]
      omega
    · simp only [reduceCtorEq, false_iff]
      omega
  · have hbytes : 0 < (utf8 (message line)).length := length_utf8_pos hmessage
    have hseparator : 0 < (utf8 (separator line)).length :=
      length_utf8_pos (separator_ne_nil hmessage)
    have hlong : ¬(utf8 line).length ≤ MSG_STARTPOS := by
      simp only [surplus, utf8_append, List.length_append] at hlength
      omega
    have hsigned : SignsTyped line ↔ (utf8 line).drop MSG_STARTPOS = utf8 (message line) := by
      simp [SignsTyped, hmessage, hpoll, signmessage, hlong]
    rw [hsigned, drop_utf8_line_iff hwords hmessage]

theorem signs_typed_endOfInput : SignsTyped "signmessage hello".toList :=
  (signs_typed_iff _ (by decide)).mpr (by decide)

theorem signed_with_lineFeed : ¬SignsTyped "signmessage hello\n".toList := by decide

end Exact

end RgbLightning.Node
