import RgbLightning.Node.PaymentArguments

/-! # The grammar of the command line

Every accepted request has a line of its own. That line is read as the request, and no
line is read as a request that is not accepted.
-/
namespace RgbLightning.Node
open MachineInt Decimal Split Words HexUtils Payment Swap

section Lines
variable {R : Readers}

theorem CommandName.ofWord_word (c : CommandName) : CommandName.ofWord c.word = some c := by
  cases c <;> decide

theorem CommandName.word_of_ofWord {word : Text} {c : CommandName} (h : CommandName.ofWord word = some c) :
    word = c.word := by
  have hfound : c.word = word := by simpa using List.find?_some h
  exact hfound.symm

theorem CommandName.isWord_word (c : CommandName) : IsWord c.word := by
  cases c <;> decide

/-- What the arm of a command reads is accepted, whatever the line was. -/
theorem request_accepted (hR : R.Lawful) {line : Text} {words : List Text} {c : CommandName} {r : Request}
    (hwords : AllWords words) (hc : c ≠ .signmessage) (h : c.request R line words = .ok r) :
    r.Accepted R := by
  cases c with
  | help | listunspent | getaddress | createutxos | receiveasset | refresh | listchannels
  | listpayments | nodeinfo | listpeers | quit | exit =>
    cases h
    trivial
  | signmessage => exact absurd rfl hc
  | mine =>
    obtain ⟨n, hread, h⟩ := Outcome.ofExcept_bind_eq_ok.mp h
    cases h
    exact (mineArgs_format R).sound words n hwords hread
  | issueasset =>
    obtain ⟨args, hread, h⟩ := Outcome.ofExcept_bind_eq_ok.mp h
    cases h
    exact issueArgs_format.sound words args hwords hread
  | assetbalance =>
    obtain ⟨id, hread, h⟩ := Outcome.ofExcept_bind_eq_ok.mp h
    cases h
    trivial
  | sendasset =>
    obtain ⟨args, hread, h⟩ := Outcome.ofExcept_bind_eq_ok.mp h
    cases h
    exact (sendassetArgs_format hR).sound words args hwords hread
  | openchannel =>
    obtain ⟨args, hread, h⟩ := Outcome.ofExcept_bind_eq_ok.mp h
    cases h
    exact ((openArgsWithPeer_format hR false).sound words args hwords hread).2
  | opencoloredchannel =>
    obtain ⟨args, hread, h⟩ := Outcome.ofExcept_bind_eq_ok.mp h
    cases h
    exact ((openArgsWithPeer_format hR true).sound words args hwords hread).2
  | sendpayment =>
    obtain ⟨args, hread, h⟩ := Outcome.ofExcept_bind_eq_ok.mp h
    cases h
    exact (sendpaymentArgs_format R).sound words args hwords hread
  | keysend =>
    obtain ⟨args, hread, h⟩ := Outcome.ofExcept_bind_eq_ok.mp h
    cases h
    exact ((keysendArgs_format hR false).sound words args hwords hread).2
  | coloredkeysend =>
    obtain ⟨args, hread, h⟩ := Outcome.ofExcept_bind_eq_ok.mp h
    cases h
    exact ((keysendArgs_format hR true).sound words args hwords hread).2
  | getinvoice =>
    obtain ⟨args, hread, h⟩ := Outcome.ofExcept_bind_eq_ok.mp h
    cases h
    exact ((getinvoiceArgs_format hR).sound words args hwords hread).2
  | getcoloredinvoice =>
    obtain ⟨args, hread, h⟩ := Outcome.ofExcept_bind_eq_ok.mp h
    cases h
    exact ((getcoloredinvoiceArgs_format hR).sound words args hwords hread).2
  | connectpeer =>
    obtain ⟨args, hread, h⟩ := Outcome.ofExcept_bind_eq_ok.mp h
    cases h
    exact (connectpeerArgs_format R).sound words args hwords hread
  | disconnectpeer =>
    obtain ⟨key, hread, h⟩ := Outcome.ofExcept_bind_eq_ok.mp h
    cases h
    exact (disconnectpeerArgs_format hR).sound words key hwords hread
  | makerinit =>
    obtain ⟨args, hread, h⟩ := Outcome.bind_eq_ok.mp h
    cases h
    exact (makerinitArgs_format hR).sound words args hwords hread
  | taker =>
    obtain ⟨args, hread, h⟩ := Outcome.bind_eq_ok.mp h
    cases h
    exact (takerArgs_format R).sound words args hwords hread
  | tradeslist =>
    cases h
    intro word hword
    exact hwords word (List.mem_of_mem_head? hword)
  | makerexecute =>
    obtain ⟨args, hread, h⟩ := Outcome.bind_eq_ok.mp h
    cases h
    exact (executeArgs_format hR).sound words args hwords hread
  | invoicestatus =>
    obtain ⟨args, hread, h⟩ := Outcome.ofExcept_bind_eq_ok.mp h
    cases h
    exact (invoicestatusArgs_format R).sound words args hwords hread
  | closechannel =>
    obtain ⟨args, hread, h⟩ := Outcome.ofExcept_bind_eq_ok.mp h
    cases h
    exact (closeArgs_format hR "closechannel").sound words args hwords hread
  | forceclosechannel =>
    obtain ⟨args, hread, h⟩ := Outcome.ofExcept_bind_eq_ok.mp h
    cases h
    exact (closeArgs_format hR "forceclosechannel").sound words args hwords hread
  | sendonionmessage =>
    obtain ⟨args, hread, h⟩ := Outcome.bind_eq_ok.mp h
    cases h
    exact (onionArgs_format hR).sound words args hwords hread

/-- The arm of its command reads the words of an accepted request. -/
theorem request_args (hR : R.Lawful) {r : Request} (hr : r.Accepted R) (hsign : r.command ≠ .signmessage)
    (line : Text) : AllWords (r.args R) ∧ r.command.request R line (r.args R) = .ok r := by
  cases r with
  | help | listunspent | getaddress | createutxos | receiveasset | refresh | listchannels
  | listpayments | nodeinfo | listpeers | quit => exact ⟨allWords_nil, rfl⟩
  | signmessage => exact absurd rfl hsign
  | mine n =>
    exact ⟨(mineArgs_format R).dom n hr, Outcome.ofExcept_bind_eq_ok.mpr ⟨n, (mineArgs_format R).reads n hr, rfl⟩⟩
  | issueasset args =>
    exact ⟨issueArgs_format.dom args hr,
      Outcome.ofExcept_bind_eq_ok.mpr ⟨args, issueArgs_format.reads args hr, rfl⟩⟩
  | assetbalance id =>
    exact ⟨(assetbalanceArgs_format hR).dom id trivial,
      Outcome.ofExcept_bind_eq_ok.mpr ⟨id, (assetbalanceArgs_format hR).reads id trivial, rfl⟩⟩
  | sendasset args =>
    exact ⟨(sendassetArgs_format hR).dom args hr,
      Outcome.ofExcept_bind_eq_ok.mpr ⟨args, (sendassetArgs_format hR).reads args hr, rfl⟩⟩
  | openchannel peer args =>
    have hformat := openArgsWithPeer_format hR args.rgb.isSome
    refine ⟨hformat.dom (peer, args) ⟨rfl, hr⟩, ?_⟩
    have hread := hformat.reads (peer, args) ⟨rfl, hr⟩
    cases hrgb : args.rgb with
    | none =>
      simp only [hrgb] at hread
      simp only [Request.command, hrgb]
      exact Outcome.ofExcept_bind_eq_ok.mpr ⟨(peer, args), hread, rfl⟩
    | some rgb =>
      simp only [hrgb] at hread
      simp only [Request.command, hrgb]
      exact Outcome.ofExcept_bind_eq_ok.mpr ⟨(peer, args), hread, rfl⟩
  | sendpayment invoiceStr invoice =>
    have hformat := sendpaymentArgs_format R
    exact ⟨hformat.dom (invoiceStr, invoice) hr,
      Outcome.ofExcept_bind_eq_ok.mpr ⟨_, hformat.reads (invoiceStr, invoice) hr, rfl⟩⟩
  | keysend args =>
    have hformat := keysendArgs_format hR args.rgbPayment.isSome
    refine ⟨hformat.dom args ⟨rfl, hr⟩, ?_⟩
    have hread := hformat.reads args ⟨rfl, hr⟩
    cases hrgb : args.rgbPayment with
    | none =>
      simp only [hrgb] at hread
      simp only [Request.command, hrgb]
      exact Outcome.ofExcept_bind_eq_ok.mpr ⟨args, hread, rfl⟩
    | some rgb =>
      simp only [hrgb] at hread
      simp only [Request.command, hrgb]
      exact Outcome.ofExcept_bind_eq_ok.mpr ⟨args, hread, rfl⟩
  | getinvoice args =>
    cases hrgb : args.rgb with
    | none =>
      have hformat := getinvoiceArgs_format hR
      refine ⟨hformat.dom args ⟨hrgb, hr⟩, ?_⟩
      simp only [Request.command, hrgb]
      exact Outcome.ofExcept_bind_eq_ok.mpr ⟨args, hformat.reads args ⟨hrgb, hr⟩, rfl⟩
    | some rgb =>
      have hformat := getcoloredinvoiceArgs_format hR
      have hcolored : args.rgb.isSome = true := by rw [hrgb]; rfl
      refine ⟨hformat.dom args ⟨hcolored, hr⟩, ?_⟩
      simp only [Request.command, hrgb]
      exact Outcome.ofExcept_bind_eq_ok.mpr ⟨args, hformat.reads args ⟨hcolored, hr⟩, rfl⟩
  | connectpeer peer info =>
    have hformat := connectpeerArgs_format R
    exact ⟨hformat.dom (peer, info) hr,
      Outcome.ofExcept_bind_eq_ok.mpr ⟨_, hformat.reads (peer, info) hr, rfl⟩⟩
  | disconnectpeer key =>
    have hformat := disconnectpeerArgs_format hR
    exact ⟨hformat.dom key hr, Outcome.ofExcept_bind_eq_ok.mpr ⟨key, hformat.reads key hr, rfl⟩⟩
  | makerinit args swaptype =>
    have hformat := makerinitArgs_format hR
    exact ⟨hformat.dom (args, swaptype) hr,
      Outcome.bind_eq_ok.mpr ⟨_, hformat.reads (args, swaptype) hr, rfl⟩⟩
  | taker swapstring swap =>
    have hformat := takerArgs_format R
    exact ⟨hformat.dom (swapstring, swap) hr,
      Outcome.bind_eq_ok.mpr ⟨_, hformat.reads (swapstring, swap) hr, rfl⟩⟩
  | tradeslist filter =>
    cases filter with
    | none => exact ⟨allWords_nil, rfl⟩
    | some word => exact ⟨by simpa [Request.args] using hr word rfl, rfl⟩
  | makerexecute swapstring args =>
    have hformat := executeArgs_format hR
    exact ⟨hformat.dom (swapstring, args) hr,
      Outcome.bind_eq_ok.mpr ⟨_, hformat.reads (swapstring, args) hr, rfl⟩⟩
  | invoicestatus invoiceStr invoice =>
    have hformat := invoicestatusArgs_format R
    exact ⟨hformat.dom (invoiceStr, invoice) hr,
      Outcome.ofExcept_bind_eq_ok.mpr ⟨_, hformat.reads (invoiceStr, invoice) hr, rfl⟩⟩
  | closechannel channelId peerPubkey =>
    have hformat := closeArgs_format hR "closechannel"
    exact ⟨hformat.dom (channelId, peerPubkey) hr,
      Outcome.ofExcept_bind_eq_ok.mpr ⟨_, hformat.reads (channelId, peerPubkey) hr, rfl⟩⟩
  | forceclosechannel channelId peerPubkey =>
    have hformat := closeArgs_format hR "forceclosechannel"
    exact ⟨hformat.dom (channelId, peerPubkey) hr,
      Outcome.ofExcept_bind_eq_ok.mpr ⟨_, hformat.reads (channelId, peerPubkey) hr, rfl⟩⟩
  | sendonionmessage args =>
    have hformat := onionArgs_format hR
    exact ⟨hformat.dom args hr, Outcome.bind_eq_ok.mpr ⟨args, hformat.reads args hr, rfl⟩⟩

theorem lineTurn_eq_request_iff {line : Text} {r : Request} : lineTurn R line = .request r ↔
    ∃ word words c, splitWhitespace line = word :: words ∧ CommandName.ofWord word = some c ∧
      c.request R line words = .ok r := by
  constructor
  · intro h
    unfold lineTurn at h
    split_ifs at h
    cases hsplit : splitWhitespace line with
    | nil => simp [hsplit] at h
    | cons word words =>
      cases hc : CommandName.ofWord word with
      | none => simp [hsplit, hc] at h
      | some c =>
        cases hr : c.request R line words with
        | ok r' => simp_all
        | err e => simp [hsplit, hc, hr] at h
        | abort => simp [hsplit, hc, hr] at h
  · rintro ⟨word, words, c, hsplit, hc, hr⟩
    have hne : line.length ≠ 0 := by
      intro hempty
      rw [List.length_eq_zero_iff.mp hempty] at hsplit
      cases hsplit
    simp [lineTurn, hne, hsplit, hc, hr]

theorem line_feed_not_mem_intercalate {words : List Text} (h : AllWords words) :
    '\n' ∉ [' '].intercalate words := by
  induction words with
  | nil => simp
  | cons w words ih =>
    obtain ⟨hw, hwords⟩ := allWords_cons.mp h
    have hfirst : '\n' ∉ w := fun hmem => absurd (hw.2 '\n' hmem) (by decide)
    cases words with
    | nil => simpa using hfirst
    | cons w' words =>
      rw [List.intercalate_cons_cons]
      simpa [hfirst] using ih hwords

/-- A message is the only request that is not typed word by word. -/
theorem line_eq_intercalate {r : Request} (h : r.command ≠ .signmessage) :
    r.line R = [' '].intercalate (r.command.word :: r.args R) ++ ['\n'] := by
  cases r with
  | signmessage line => exact absurd rfl h
  | _ => rfl

theorem eq_signmessage_of_command {r : Request} (h : r.command = .signmessage) :
    ∃ line, r = .signmessage line := by
  cases r with
  | signmessage line => exact ⟨line, rfl⟩
  | openchannel peer args =>
    rw [Request.command] at h
    split_ifs at h
  | keysend args =>
    rw [Request.command] at h
    split_ifs at h
  | getinvoice args =>
    rw [Request.command] at h
    split_ifs at h
  | _ => cases h

theorem lines_format (hR : R.Lawful) : Format Terminated (fun line r => lineTurn R line = .request r)
    (Request.line R) (Request.Accepted R) where
  dom r hr := by
    by_cases hsign : r.command = .signmessage
    · obtain ⟨line, rfl⟩ := eq_signmessage_of_command hsign
      exact hr.1
    · rw [line_eq_intercalate hsign]
      refine ⟨_, line_feed_not_mem_intercalate ?_, rfl⟩
      exact allWords_cons.mpr ⟨r.command.isWord_word, (request_args hR hr hsign []).1⟩
  reads r hr := by
    rw [lineTurn_eq_request_iff]
    by_cases hsign : r.command = .signmessage
    · obtain ⟨line, rfl⟩ := eq_signmessage_of_command hsign
      obtain ⟨-, hlength, hhead⟩ := hr
      obtain ⟨words, hsplit⟩ := List.head?_eq_some_iff.mp hhead
      refine ⟨_, words, .signmessage, hsplit, CommandName.ofWord_word .signmessage, ?_⟩
      change (Outcome.ofExcept (Node.signmessage line)).bind (fun _ => .ok (Request.signmessage line)) = _
      rw [Node.signmessage, if_neg (Nat.not_le.mpr hlength)]
      rfl
    · obtain ⟨hwords, hread⟩ := request_args hR hr hsign (r.line R)
      refine ⟨_, r.args R, r.command, ?_, CommandName.ofWord_word _, hread⟩
      rw [line_eq_intercalate hsign]
      exact splitWhitespace_intercalate (allWords_cons.mpr ⟨r.command.isWord_word, hwords⟩)
  sound line r hline h := by
    obtain ⟨word, words, c, hsplit, hc, hr⟩ := lineTurn_eq_request_iff.mp h
    have hall : AllWords (word :: words) := by
      intro w hw
      rw [← hsplit] at hw
      exact isWord_of_mem_splitWhitespace hw
    by_cases hsign : c = .signmessage
    · subst hsign
      obtain ⟨bytes, hbytes, hr⟩ := Outcome.ofExcept_bind_eq_ok.mp hr
      cases hr
      refine ⟨hline, ?_, ?_⟩
      · rw [Node.signmessage] at hbytes
        split_ifs at hbytes with hshort
        exact Nat.not_le.mp hshort
      · rw [hsplit, List.head?_cons, CommandName.word_of_ofWord hc]
        rfl
    · exact request_accepted hR (allWords_cons.mp hall).2 hsign hr

theorem eq_signmessage_of_request {line line' : Text} {words : List Text} {c : CommandName}
    (h : c.request R line words = .ok (.signmessage line')) : c = .signmessage := by
  cases c with
  | signmessage => rfl
  | _ => simp [CommandName.request, Outcome.bind_eq_ok] at h

/-- The loop signs what the request for the line signs. -/
theorem pollForUserInput_signing_iff {line : Text} {bytes : List UInt8} :
    pollForUserInput line = .signing (.ok bytes) ↔
      lineTurn R line = .request (.signmessage line) ∧ Node.signmessage line = .ok bytes := by
  rw [lineTurn_eq_request_iff]
  unfold pollForUserInput
  by_cases hempty : line.length = 0
  · rw [List.length_eq_zero_iff.mp hempty]
    simp [splitWhitespace]
  · rw [if_neg hempty]
    cases hsplit : splitWhitespace line with
    | nil => simp
    | cons word words =>
      by_cases hword : word = signmessageWord
      · subst hword
        simp only [if_true, Turn.signing.injEq, List.cons.injEq]
        constructor
        · intro hbytes
          refine ⟨⟨_, words, .signmessage, ⟨rfl, rfl⟩, CommandName.ofWord_word .signmessage, ?_⟩, hbytes⟩
          rw [CommandName.request, hbytes]
          rfl
        · exact And.right
      · simp only [if_neg hword, reduceCtorEq, false_iff, not_and]
        rintro ⟨word', words', c, hcons, hc, hr⟩
        obtain ⟨rfl, rfl⟩ := List.cons.inj hcons
        rw [eq_signmessage_of_request hr] at hc
        exact absurd (CommandName.word_of_ofWord hc) hword

/-- The requests a line can make are exactly the accepted ones, and each of them is made by
its own line. -/
theorem request_of_line_iff (hR : R.Lawful) (r : Request) :
    ((∃ line, Terminated line ∧ lineTurn R line = .request r) ↔ r.Accepted R) ∧
      ∀ line, Terminated line → lineTurn R line = .request r → lineTurn R (r.line R) = .request r :=
  ⟨(lines_format hR).exists_reads_iff r, fun _ hline hread => (lines_format hR).rewrites hline hread⟩

/-- A regtest node whose libraries know hexadecimal only. -/
def hexReaders : Readers where
  ids := ⟨toBytes32, fun id => hexStr id.val⟩
  keys := ⟨fun bytes => if bytes.length = 33 then some bytes else none, fun word =>
    match toVec word with
    | some bytes => if bytes.length = 33 then .ok bytes else .error "malformed public key"
    | none => .error "malformed public key"⟩
  parseSocketAddr _ := none
  lookup _ _ := none
  parseInvoice _ := .error "not an invoice"
  fetchPrice _ := .error "no price"
  network := .regtest
  profile := .release
  now := 0

theorem hexReaders_lawful : hexReaders.Lawful where
  ids := ⟨toBytes32_hexStr, fun _ _ hc => hexStr_clean hc⟩
  display_ne id := (isWord_hexStr_bytes32 id).1
  key_of_fromSlice bytes key h := by
    simp only [hexReaders, Option.ite_none_right_eq_some, Option.some.injEq] at h
    obtain ⟨hlength, rfl⟩ := h
    exact ⟨if_pos hlength, hlength⟩
  key_of_fromStr word key h := by
    simp only [hexReaders] at h
    split at h
    · split_ifs at h with hlength
      cases h
      exact ⟨if_pos hlength, hlength⟩
    · cases h
  fromStr_hexStr key h := by simp [hexReaders, h.2]
  fetchPrice_lt := nofun

theorem request_of_line_iff_mine :
    ∃ line, Terminated line ∧ lineTurn hexReaders line = .request (.mine 6) :=
  (request_of_line_iff hexReaders_lawful (.mine 6)).1.mpr ⟨rfl, by decide⟩

end Lines

section Session
variable {R : ℕ → Readers}

theorem inputLinesFrom_append (start : Text) {l : Text} (h : '\n' ∉ l) (rest : Text) :
    inputLinesFrom start (l ++ '\n' :: rest) = (start ++ l ++ ['\n']) :: inputLinesFrom [] rest := by
  induction l generalizing start with
  | nil => simp [inputLinesFrom]
  | cons c l ih =>
    have hc : c ≠ '\n' := fun hc => h (by simp [hc])
    have hl : '\n' ∉ l := fun hl => h (List.mem_cons_of_mem c hl)
    rw [List.cons_append, inputLinesFrom, if_neg hc, ih _ hl]
    simp

theorem inputLines_terminated {line : Text} (h : Terminated line) (rest : Text) :
    inputLines (line ++ rest) = line :: inputLines rest := by
  obtain ⟨l, hl, rfl⟩ := h
  rw [List.append_assoc]
  exact inputLinesFrom_append [] hl rest

/-- The requests, typed one line after the other. -/
def typed (R : ℕ → Readers) : ℕ → List Request → Text
  | _, [] => []
  | k, r :: requests => r.line (R k) ++ typed R (k + 1) requests

/-- Each request is accepted at its turn. -/
def AllAccepted (R : ℕ → Readers) : ℕ → List Request → Prop
  | _, [] => True
  | k, r :: requests => r.Accepted (R k) ∧ AllAccepted R (k + 1) requests

/-- The loop makes the typed requests in order and then goes on with the rest. -/
theorem inputLoop_typed (hR : ∀ k, (R k).Lawful) {requests : List Request} {k : ℕ}
    (haccepted : AllAccepted R k requests) (hstays : .quit ∉ requests) (rest : Text) :
    inputLoop R k (inputLines (typed R k requests ++ rest)) =
      requests.map .request ++ inputLoop R (k + requests.length) (inputLines rest) := by
  induction requests generalizing k with
  | nil => rfl
  | cons r requests ih =>
    obtain ⟨hr, haccepted⟩ := haccepted
    have hquit : r ≠ .quit := fun h => hstays (by simp [h])
    have hlater : .quit ∉ requests := fun h => hstays (List.mem_cons_of_mem r h)
    have hread : lineTurn (R k) (r.line (R k)) = .request r := (lines_format (hR k)).reads r hr
    rw [typed, List.append_assoc, inputLines_terminated ((lines_format (hR k)).dom r hr), inputLoop, hread]
    have hnext : k + (r :: requests).length = k + 1 + requests.length := by
      rw [List.length_cons]
      omega
    rw [hnext, List.map_cons, List.cons_append, ← ih haccepted hlater]
    cases r with
    | quit => exact absurd rfl hquit
    | _ => rfl

theorem typed_append (requests later : List Request) (k : ℕ) :
    typed R k (requests ++ later) = typed R k requests ++ typed R (k + requests.length) later := by
  induction requests generalizing k with
  | nil => rfl
  | cons r requests ih =>
    rw [List.cons_append, typed, typed, ih, List.append_assoc, List.length_cons, Nat.add_right_comm,
      Nat.add_assoc]

/-- Requests typed one after the other and a `quit` at the end are made in order, and
nothing is made of what follows. -/
theorem inputLoop_typed_quit (hR : ∀ k, (R k).Lawful) (requests : List Request)
    (haccepted : AllAccepted R 0 requests) (hstays : .quit ∉ requests) (rest : Text) :
    inputLoop R 0 (inputLines (typed R 0 (requests ++ [.quit]) ++ rest)) =
      requests.map .request ++ [.request .quit] := by
  have hquit := lines_format (hR (0 + requests.length))
  rw [typed_append, List.append_assoc, inputLoop_typed hR haccepted hstays, typed, typed, List.append_nil,
    inputLines_terminated (hquit.dom .quit trivial), inputLoop, hquit.reads .quit trivial]

theorem inputLoop_typed_quit_createutxos :
    inputLoop (fun _ => hexReaders) 0 (inputLines
      (typed (fun _ => hexReaders) 0 [.mine 6, .createutxos, .quit] ++ "listpeers".toList)) =
        [.request (.mine 6), .request .createutxos, .request .quit] :=
  inputLoop_typed_quit (fun _ => hexReaders_lawful) [.mine 6, .createutxos] ⟨⟨rfl, by decide⟩, trivial, trivial⟩ (by decide) _

end Session

end RgbLightning.Node
