import RgbLightning.Node.CommandGrammar
import RgbLightning.Swap.SwapAmounts

/-! # Typed text that aborts the node

Reading a line ends the process in one case only: a swap is offered or pasted whose amount
times its price does not fit the word, and the build checks for overflow.
-/
namespace RgbLightning.Node
open MachineInt Decimal Outcome Split Words HexUtils Payment Swap

section Swaps
variable {p : Profile} {side : Text} {amount price : ℕ}

theorem ofSide_eq_abort {invalid : String} : SwapType.ofSide p invalid side amount price = .abort ↔
    p.overflowChecks = true ∧ SwapType.ValidSide side ∧ 2 ^ u64 ≤ amount * price := by
  by_cases hside : SwapType.ValidSide side
  · have hmul : SwapType.ofSide p invalid side amount price = .abort ↔ mulWord u64 p amount price = none := by
      rcases hside with rfl | rfl <;> cases hmul : mulWord u64 p amount price <;> simp [SwapType.ofSide, hmul]
    rw [hmul, mulWord_eq_none]
    simp [hside]
  · simp [ofSide_of_invalid hside, hside]

theorem fromStr_eq_abort {ids : ContractIdText} {s : Text} :
    Swap.fromStr ids p s = .abort ↔ p.overflowChecks = true ∧ ¬PartsFit ids s := by
  rw [Swap.fromStr, ofExcept_bind_eq_abort]
  simp only [bind_ok_eq_abort, ofSide_eq_abort, PartsFit, not_forall, Nat.not_lt, exists_prop]
  constructor
  · rintro ⟨parts, hparts, hchecks, hside, hlarge⟩
    exact ⟨hchecks, parts, hparts, hside, hlarge⟩
  · rintro ⟨hchecks, parts, hparts, hside, hlarge⟩
    exact ⟨parts, hparts, hchecks, hside, hlarge⟩

end Swaps

/-- The swap that a command offers or reads does not fit. -/
def CommandName.Overflows (R : Readers) (words : List Text) : CommandName → Prop
  | makerinit => ∃ args, makerArgs R.ids R.fetchPrice words = .ok args ∧ SwapType.ValidSide args.swaptype ∧
      2 ^ u64 ≤ args.amtAsset * args.price
  | taker => ∃ swapstring rest, words = swapstring :: rest ∧ ¬PartsFit R.ids swapstring
  | makerexecute => ∃ swapstring secret peer rest, words = swapstring :: secret :: peer :: rest ∧
      ¬PartsFit R.ids swapstring
  | _ => False

section Arguments
variable {R : Readers} {words : List Text}

theorem makerinitArgs_eq_abort : makerinitArgs R words = .abort ↔
    R.profile.overflowChecks = true ∧ CommandName.makerinit.Overflows R words := by
  rw [makerinitArgs, ofExcept_bind_eq_abort]
  simp only [bind_ok_eq_abort, makerSwapType, ofSide_eq_abort, CommandName.Overflows]
  constructor
  · rintro ⟨args, hargs, hchecks, hside, hlarge⟩
    exact ⟨hchecks, args, hargs, hside, hlarge⟩
  · rintro ⟨hchecks, args, hargs, hside, hlarge⟩
    exact ⟨args, hargs, hchecks, hside, hlarge⟩

theorem takerArgs_eq_abort : takerArgs R words = .abort ↔
    R.profile.overflowChecks = true ∧ CommandName.taker.Overflows R words := by
  cases words with
  | nil => simp [takerArgs, takerSwapString, CommandName.Overflows]
  | cons swapstring rest =>
    have hstring : takerArgs R (swapstring :: rest) = .abort ↔
        Swap.fromStr R.ids R.profile swapstring = .abort := by
      rw [takerArgs, takerSwapString]
      cases Swap.fromStr R.ids R.profile swapstring with
      | abort => simp
      | err e => simp
      | ok swap =>
        dsimp only
        split_ifs <;> simp
    rw [hstring, fromStr_eq_abort]
    simp [CommandName.Overflows]

theorem executeArgs_eq_abort : executeArgs R words = .abort ↔
    R.profile.overflowChecks = true ∧ CommandName.makerexecute.Overflows R words := by
  unfold executeArgs
  match words with
  | [] | [_] | [_, _] => simp [makerexecuteArgs, CommandName.Overflows]
  | swapstring :: secret :: peer :: rest =>
    have hstring : (makerexecuteArgs R.ids R.keys R.profile R.now (swapstring :: secret :: peer :: rest)) =
        .abort ↔ Swap.fromStr R.ids R.profile swapstring = .abort := by
      rw [makerexecuteArgs]
      cases Swap.fromStr R.ids R.profile swapstring with
      | abort => simp
      | err e => simp
      | ok swap =>
        dsimp only
        split_ifs
        · simp
        · cases toBytes32 secret with
          | none => simp
          | some secret => cases R.keys.fromStr peer <;> simp
    rw [bind_ok_eq_abort, hstring, fromStr_eq_abort]
    simp [CommandName.Overflows]

theorem onionPath_ne_nil {R : Readers} {word : Text} : onionPath R word ≠ .ok [] := by
  intro h
  unfold onionPath at h
  cases hpieces : word.splitOn ',' with
  | nil => exact List.splitOn_ne_nil ',' word hpieces
  | cons piece pieces =>
    rw [hpieces, List.mapM_cons] at h
    obtain ⟨key, -, h⟩ := Outcome.except_bind_eq_ok.mp h
    obtain ⟨rest, -, h⟩ := Outcome.except_bind_eq_ok.mp h
    cases h

/-- The path of an onion message has a last node, whatever is typed. -/
theorem onionArgs_ne_abort (R : Readers) (words : List Text) : onionArgs R words ≠ .abort := by
  cases words with
  | nil => simp [onionArgs]
  | cons pathPksStr words =>
    intro h
    rw [onionArgs, ofExcept_bind_eq_abort] at h
    obtain ⟨nodePks, hpath, h⟩ := h
    obtain ⟨tlvType, -, h⟩ := ofExcept_bind_eq_abort.mp h
    obtain ⟨data, -, h⟩ := ofExcept_bind_eq_abort.mp h
    cases hlast : nodePks.getLast? with
    | none =>
      rw [List.getLast?_eq_none_iff.mp hlast] at hpath
      exact onionPath_ne_nil hpath
    | some node => simp [hlast] at h

theorem request_eq_abort (c : CommandName) (line : Text) : c.request R line words = .abort ↔
    R.profile.overflowChecks = true ∧ c.Overflows R words := by
  cases c with
  | makerinit =>
    rw [← makerinitArgs_eq_abort]
    exact bind_ok_eq_abort
  | taker =>
    rw [← takerArgs_eq_abort]
    exact bind_ok_eq_abort
  | makerexecute =>
    rw [← executeArgs_eq_abort]
    exact bind_ok_eq_abort
  | sendonionmessage =>
    simp [CommandName.request, bind_ok_eq_abort, CommandName.Overflows, onionArgs_ne_abort]
  | _ => simp [CommandName.request, CommandName.Overflows, ofExcept_bind_ok_ne_abort]

end Arguments

/-- The line offers or pastes a swap that does not fit. -/
def OverflowingLine (R : Readers) (line : Text) : Prop :=
  ∃ c words, splitWhitespace line = CommandName.word c :: words ∧ c.Overflows R words

section Loop

theorem lineTurn_eq_aborted {R : Readers} {line : Text} : lineTurn R line = .aborted ↔
    R.profile.overflowChecks = true ∧ OverflowingLine R line := by
  unfold lineTurn OverflowingLine
  split_ifs with hline
  · have hempty : splitWhitespace line = [] := by
      rw [List.length_eq_zero_iff.mp hline]
      rfl
    simp [hempty]
  · cases hwords : splitWhitespace line with
    | nil => simp
    | cons word words =>
      dsimp only
      cases hname : CommandName.ofWord word with
      | none =>
        have hother : ∀ c, word ≠ CommandName.word c := by
          rintro c rfl
          rw [CommandName.ofWord_word] at hname
          cases hname
        simp [hother]
      | some c =>
        have hword : word = c.word := CommandName.word_of_ofWord hname
        have hturn : c.request R line words = .abort ↔
            R.profile.overflowChecks = true ∧ c.Overflows R words := request_eq_abort c line
        trans c.request R line words = .abort
        · cases hr : c.request R line words <;> simp [hr]
        rw [hturn]
        subst hword
        constructor
        · rintro ⟨hchecks, hlarge⟩
          exact ⟨hchecks, c, words, rfl, hlarge⟩
        · rintro ⟨hchecks, c', words', hsplit, hlarge⟩
          obtain ⟨hsame, rfl⟩ := List.cons.inj hsplit
          have hc : c = c' := by
            have hboth := CommandName.ofWord_word c
            rw [hsame, CommandName.ofWord_word] at hboth
            exact (Option.some.inj hboth).symm
          exact ⟨hchecks, hc ▸ hlarge⟩

/-- The loop aborts at a line that it reaches. -/
theorem aborted_mem_inputLoop {R : ℕ → Readers} {lines : List Text} {k : ℕ} :
    .aborted ∈ inputLoop R k lines ↔ ∃ older line newer, lines = older ++ line :: newer ∧
      (∀ i, (h : i < older.length) → lineTurn (R (k + i)) older[i] ≠ .request .quit) ∧
      lineTurn (R (k + older.length)) line = .aborted := by
  induction lines generalizing k with
  | nil => simp [inputLoop]
  | cons line lines ih =>
    have hcons : (∃ older last newer, line :: lines = older ++ last :: newer ∧
        (∀ i, (h : i < older.length) → lineTurn (R (k + i)) older[i] ≠ .request .quit) ∧
        lineTurn (R (k + older.length)) last = .aborted) ↔
        lineTurn (R k) line = .aborted ∨ lineTurn (R k) line ≠ .request .quit ∧
          ∃ older last newer, lines = older ++ last :: newer ∧
            (∀ i, (h : i < older.length) → lineTurn (R (k + 1 + i)) older[i] ≠ .request .quit) ∧
            lineTurn (R (k + 1 + older.length)) last = .aborted := by
      constructor
      · rintro ⟨older, last, newer, hsplit, hstays, hlast⟩
        cases older with
        | nil =>
          obtain ⟨rfl, rfl⟩ := List.cons.inj hsplit
          exact .inl hlast
        | cons first older =>
          obtain ⟨rfl, rfl⟩ := List.cons.inj hsplit
          refine .inr ⟨hstays 0 (by simp), older, last, newer, rfl, fun i hi => ?_, ?_⟩
          · have hi' := hstays (i + 1) (by simpa using hi)
            simpa [Nat.add_assoc, Nat.add_comm 1] using hi'
          · simpa [Nat.add_assoc, Nat.add_comm 1] using hlast
      · rintro (hfirst | ⟨hquit, older, last, newer, rfl, hstays, hlast⟩)
        · exact ⟨[], line, lines, rfl, by simp, by simpa using hfirst⟩
        · refine ⟨line :: older, last, newer, rfl, fun i hi => ?_, ?_⟩
          · cases i with
            | zero => exact hquit
            | succ i => simpa [Nat.add_assoc, Nat.add_comm 1] using hstays i (by simpa using hi)
          · simpa [Nat.add_assoc, Nat.add_comm 1] using hlast
    rw [hcons, ← ih, inputLoop]
    cases hturn : lineTurn (R k) line with
    | request r => cases r <;> simp
    | _ => simp

/-- Whatever is typed, reading it aborts the node iff the build checks for overflow and a
line before the first `quit` offers or pastes a swap that does not fit. -/
theorem typed_aborts_iff (R : ℕ → Readers) (stdin : Text) :
    .aborted ∈ inputLoop R 0 (inputLines stdin) ↔
      ∃ older line newer, inputLines stdin = older ++ line :: newer ∧
        (∀ i, (h : i < older.length) → lineTurn (R i) older[i] ≠ .request .quit) ∧
        (R older.length).profile.overflowChecks = true ∧ OverflowingLine (R older.length) line := by
  simp only [aborted_mem_inputLoop, Nat.zero_add, lineTurn_eq_aborted]

end Loop

end RgbLightning.Node
