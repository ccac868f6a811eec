import RgbLightning.Node.CommandArguments

/-! # The arguments of payments and swaps

The readers of the commands that make invoices, payments and swaps take back the words of
their arguments, and read nothing that has no such words.
-/
namespace RgbLightning.Node
open MachineInt Decimal Split Words HexUtils Payment Swap

section Arguments
variable {R : Readers}

theorem invoiceArg_eq_ok {word : Text} {read : Text × Invoice} (h : invoiceArg R word = .ok read) :
    read.1 = word ∧ R.parseInvoice word = .ok read.2 := by
  unfold invoiceArg at h
  cases hread : R.parseInvoice word with
  | error e => simp [hread] at h
  | ok invoice =>
    simp only [hread, Except.ok.injEq] at h
    subst h
    exact ⟨rfl, rfl⟩

theorem sendpaymentArgs_format (R : Readers) : Format AllWords
    (fun words a => sendpaymentArgs R words = .ok a) (fun (invoiceStr, _) => [invoiceStr])
    (fun (invoiceStr, invoice) => (Request.sendpayment invoiceStr invoice).Accepted R) where
  dom := by
    rintro ⟨invoiceStr, invoice⟩ ⟨hword, -⟩
    simpa using hword
  reads := by
    rintro ⟨invoiceStr, invoice⟩ ⟨-, hread, amtMsat, hamount, hmin⟩
    simp [sendpaymentArgs, invoiceArg, hread, hamount, Nat.not_lt.mpr hmin]
  sound := by
    rintro words ⟨invoiceStr, invoice⟩ hwords h
    cases words with
    | nil => cases h
    | cons word words =>
      rw [sendpaymentArgs] at h
      cases hread : invoiceArg R word with
      | error e => simp [hread] at h
      | ok read =>
        obtain ⟨invoiceStr', invoice'⟩ := read
        obtain ⟨rfl, hparse⟩ := invoiceArg_eq_ok hread
        simp only [hread] at h
        cases hamount : invoice'.amountMilliSatoshis with
        | none => simp [hamount] at h
        | some amtMsat =>
          simp only [hamount] at h
          split_ifs at h with hmin
          cases h
          exact ⟨(allWords_cons.mp hwords).1, hparse, amtMsat, hamount, Nat.not_lt.mp hmin⟩

/-- The attempt of `sendpayment` is the one for the invoice of the request. -/
theorem sendpayment_eq_bind (R : Readers) (words : List Text) : sendpayment R.parseInvoice words =
    (Outcome.ofExcept (sendpaymentArgs R words)).bind fun (_, invoice) => sendPayment invoice := by
  cases words with
  | nil => rfl
  | cons word words =>
    rw [sendpayment, sendpaymentArgs, invoiceArg]
    cases R.parseInvoice word with
    | error e => rfl
    | ok invoice =>
      dsimp only
      cases invoice.amountMilliSatoshis with
      | none => rfl
      | some amtMsat =>
        dsimp only
        split_ifs
        · rfl
        · rfl

theorem invoicestatusArgs_format (R : Readers) : Format AllWords
    (fun words a => invoicestatusArgs R words = .ok a) (fun (invoiceStr, _) => [invoiceStr])
    (fun (invoiceStr, invoice) => (Request.invoicestatus invoiceStr invoice).Accepted R) where
  dom := by
    rintro ⟨invoiceStr, invoice⟩ ⟨hword, -⟩
    simpa using hword
  reads := by
    rintro ⟨invoiceStr, invoice⟩ ⟨-, hread⟩
    simp [invoicestatusArgs, invoiceArg, hread]
  sound := by
    rintro words ⟨invoiceStr, invoice⟩ hwords h
    cases words with
    | nil => cases h
    | cons word words =>
      obtain ⟨rfl, hparse⟩ := invoiceArg_eq_ok h
      exact ⟨(allWords_cons.mp hwords).1, hparse⟩

theorem coloredkeysendArgs_eq_ok {ids : ContractIdText} {amtMsat : ℕ} {words : List Text}
    {rgb : ContractId × ℕ} (h : coloredkeysendArgs ids amtMsat words = .ok rgb) :
    HTLC_MIN_MSAT ≤ amtMsat ∧ rgb.2 < 2 ^ u64 := by
  unfold coloredkeysendArgs at h
  split_ifs at h with hmin
  cases words with
  | nil => cases h
  | cons contractId words =>
    cases hid : ids.fromStr contractId with
    | none => simp [hid] at h
    | some id =>
      simp only [hid] at h
      cases words with
      | nil => cases h
      | cons amount words =>
        cases hamount : parseU64 amount with
        | error e => simp [hamount] at h
        | ok n =>
          simp only [hamount, Except.ok.injEq] at h
          subst h
          exact ⟨Nat.not_lt.mp hmin, parseUnsigned_lt hamount⟩

theorem keysendArgs_format (hR : R.Lawful) (isColored : Bool) : Format AllWords
    (fun words a => keysendArgs R.keys R.ids isColored words = .ok a) (keysendWords R)
    (fun a => a.rgbPayment.isSome = isColored ∧ keysendAccepted R a) where
  dom a h := by
    simp [keysendWords, h.2.1.isWord, isWord_toDigits, hR.allWords_rgbWords]
  reads a h := by
    obtain ⟨hcolored, hkey, hamount, hrgb⟩ := h
    obtain ⟨destPubkey, amtMsat, rgbPayment⟩ := a
    cases rgbPayment with
    | none =>
      have hplain : isColored = false := hcolored.symm
      simp [keysendWords, rgbWords, keysendArgs, hkey.toCompressedPubkey, parseU64_toDigits hamount,
        hplain]
    | some rgb =>
      have hplain : isColored = true := hcolored.symm
      obtain ⟨hmin, hrgb⟩ := hrgb rgb rfl
      simp [keysendWords, rgbWords, keysendArgs, coloredkeysendArgs, hkey.toCompressedPubkey,
        parseU64_toDigits hamount, hplain, Nat.not_lt.mpr hmin, hR.ids.fromStr_display,
        parseU64_toDigits hrgb, Except.map]
  sound words a hwords h := by
    unfold keysendArgs at h
    cases words with
    | nil => cases h
    | cons dest words =>
      cases hdest : toCompressedPubkey R.keys dest with
      | none => simp [hdest] at h
      | some key =>
        have hkey : R.Key key := by
          rw [toCompressedPubkey] at hdest
          split_ifs at hdest
          obtain ⟨bytes, -, hslice⟩ := Option.bind_eq_some_iff.mp hdest
          exact hR.key_of_fromSlice bytes key hslice
        simp only [hdest] at h
        cases words with
        | nil => cases h
        | cons amount words =>
          cases hamount : parseU64 amount with
          | error e => simp [hamount] at h
          | ok amtMsat =>
            have hword : amtMsat < 2 ^ u64 := parseUnsigned_lt hamount
            simp only [hamount] at h
            cases isColored with
            | false =>
              cases h
              refine ⟨rfl, hkey, hword, ?_⟩
              intro rgb hrgb
              cases hrgb
            | true =>
              obtain ⟨rgb, hrgb, rfl⟩ := except_map_eq_ok h
              refine ⟨rfl, hkey, hword, ?_⟩
              rintro rgb ⟨⟩
              exact coloredkeysendArgs_eq_ok hrgb

theorem invoiceAmountArg_eq_ok {word : Text} {n : ℕ} (h : invoiceAmountArg word = .ok n) :
    INVOICE_MIN_MSAT ≤ n ∧ n < 2 ^ u64 := by
  unfold invoiceAmountArg at h
  cases hread : parseU64 word with
  | error e => simp [hread] at h
  | ok m =>
    simp only [hread] at h
    split_ifs at h with hmin
    cases h
    exact ⟨Nat.not_lt.mp hmin, parseUnsigned_lt hread⟩

theorem invoiceAmountArg_toDigits {n : ℕ} (hmin : INVOICE_MIN_MSAT ≤ n) (hword : n < 2 ^ u64) :
    invoiceAmountArg (Nat.toDigits 10 n) = .ok n := by
  simp [invoiceAmountArg, parseU64_toDigits hword, Nat.not_lt.mpr hmin]

theorem invoiceExpiryArg_eq_ok {word : Text} {n : ℕ} (h : invoiceExpiryArg word = .ok n) :
    n < 2 ^ u32 := by
  unfold invoiceExpiryArg at h
  cases hread : parseU32 word with
  | error e => simp [hread] at h
  | ok m =>
    simp only [hread, Except.ok.injEq] at h
    subst h
    exact parseUnsigned_lt hread

theorem invoiceExpiryArg_toDigits {n : ℕ} (hword : n < 2 ^ u32) :
    invoiceExpiryArg (Nat.toDigits 10 n) = .ok n := by
  have hread : parseU32 (Nat.toDigits 10 n) = .ok n := parseUnsigned_toDigits hword
  rw [invoiceExpiryArg, hread]

theorem invoiceRgbArg_eq_ok {ids : ContractIdText} {contractId amount : Text} {rgb : ContractId × ℕ}
    (h : invoiceRgbArg ids contractId amount = .ok rgb) : rgb.2 < 2 ^ u64 := by
  unfold invoiceRgbArg at h
  cases hid : ids.fromStr contractId with
  | none => simp [hid] at h
  | some id =>
    cases hread : parseU64 amount with
    | error e => simp [hid, hread] at h
    | ok n =>
      simp only [hid, hread, Except.ok.injEq] at h
      subst h
      exact parseUnsigned_lt hread

theorem invoiceRgbArg_words (hR : R.Lawful) {rgb : ContractId × ℕ} (h : rgb.2 < 2 ^ u64) :
    invoiceRgbArg R.ids (R.ids.display rgb.1) (Nat.toDigits 10 rgb.2) = .ok rgb := by
  rw [invoiceRgbArg, hR.ids.fromStr_display, parseU64_toDigits h]

theorem allWords_invoiceWords (hR : R.Lawful) (a : GetInvoiceArgs) : AllWords (invoiceWords R a) := by
  simp [invoiceWords, isWord_toDigits, hR.allWords_rgbWords]

theorem getinvoiceArgs_format (hR : R.Lawful) : Format AllWords
    (fun words a => getinvoiceArgs words = .ok a) (invoiceWords R)
    (fun a => a.rgb = none ∧ invoiceAccepted a) where
  dom a _ := allWords_invoiceWords hR a
  reads a h := by
    obtain ⟨amtMsat, expirySecs, rgb⟩ := a
    obtain ⟨rfl, ⟨hmin, hword⟩, hexpiry, -⟩ := h
    simp only [invoiceWords, rgbWords, List.append_nil, getinvoiceArgs,
      invoiceAmountArg_toDigits hmin hword, invoiceExpiryArg_toDigits hexpiry]
    rfl
  sound words a hwords h := by
    unfold getinvoiceArgs at h
    split at h
    · obtain ⟨amtMsat, hamount, h⟩ := Outcome.except_bind_eq_ok.mp h
      obtain ⟨expirySecs, hexpiry, h⟩ := Outcome.except_bind_eq_ok.mp h
      cases h
      refine ⟨rfl, invoiceAmountArg_eq_ok hamount, invoiceExpiryArg_eq_ok hexpiry, ?_⟩
      intro rgb hrgb
      cases hrgb
    · cases h

theorem getcoloredinvoiceArgs_format (hR : R.Lawful) : Format AllWords
    (fun words a => getcoloredinvoiceArgs R.ids words = .ok a) (invoiceWords R)
    (fun a => a.rgb.isSome = true ∧ invoiceAccepted a) where
  dom a _ := allWords_invoiceWords hR a
  reads a h := by
    obtain ⟨hrgb, ⟨hmin, hword⟩, hexpiry, hamount⟩ := h
    obtain ⟨rgb, hrgb⟩ := Option.isSome_iff_exists.mp hrgb
    obtain ⟨amtMsat, expirySecs, rgb'⟩ := a
    obtain rfl : rgb' = some rgb := hrgb
    simp only [invoiceWords, rgbWords, List.cons_append, List.nil_append, getcoloredinvoiceArgs,
      invoiceAmountArg_toDigits hmin hword, invoiceExpiryArg_toDigits hexpiry,
      invoiceRgbArg_words hR (hamount rgb rfl)]
    rfl
  sound words a hwords h := by
    unfold getcoloredinvoiceArgs at h
    split at h
    · obtain ⟨amtMsat, hamount, h⟩ := Outcome.except_bind_eq_ok.mp h
      obtain ⟨expirySecs, hexpiry, h⟩ := Outcome.except_bind_eq_ok.mp h
      obtain ⟨rgb, hrgb, h⟩ := Outcome.except_bind_eq_ok.mp h
      cases h
      refine ⟨rfl, invoiceAmountArg_eq_ok hamount, invoiceExpiryArg_eq_ok hexpiry, ?_⟩
      rintro rgb ⟨⟩
      exact invoiceRgbArg_eq_ok hrgb
    · cases h

theorem makerPrice_toDigits {id : ContractId} {n : ℕ} (h : n < 2 ^ u64) :
    makerPrice R.fetchPrice id (some (Nat.toDigits 10 n)) = .ok n := by
  have hblank : (Nat.toDigits 10 n).all isWhitespace = false := by
    obtain ⟨c, digits, hdigits⟩ := List.exists_cons_of_ne_nil (Nat.toDigits_ne_nil (n := n) (b := 10))
    have hspace : isWhitespace c = false := (isWord_toDigits n).2 c (by simp [hdigits])
    simp [hdigits, hspace]
  simp [makerPrice, hblank, parseU64_toDigits h]

theorem makerPrice_none_lt (hR : R.Lawful) {id : ContractId} {n : ℕ}
    (h : makerPrice R.fetchPrice id none = .ok n) : n < 2 ^ u64 := by
  unfold makerPrice at h
  cases hprice : R.fetchPrice id with
  | error e => simp [hprice] at h
  | ok m =>
    simp only [hprice, Except.ok.injEq] at h
    subst h
    exact hR.fetchPrice_lt id _ hprice

theorem makerPrice_lt (hR : R.Lawful) {id : ContractId} {word : Option Text} {n : ℕ}
    (h : makerPrice R.fetchPrice id word = .ok n) : n < 2 ^ u64 := by
  cases word with
  | none => exact makerPrice_none_lt hR h
  | some word =>
    unfold makerPrice at h
    dsimp only at h
    split_ifs at h
    · exact makerPrice_none_lt hR h
    · cases hread : parseU64 word with
      | error e => simp [hread] at h
      | ok m =>
        simp only [hread, Except.ok.injEq] at h
        subst h
        exact parseUnsigned_lt hread

theorem makerArgs_eq_ok {words : List Text} {a : MakerArgs}
    (h : makerArgs R.ids R.fetchPrice words = .ok a) :
    ∃ amtAsset id timeout rest, words = amtAsset :: id :: a.swaptype :: timeout :: rest ∧
      parseU64 amtAsset = .ok a.amtAsset ∧ makerPrice R.fetchPrice a.assetId rest.head? = .ok a.price := by
  unfold makerArgs at h
  split at h
  · rename_i amtAsset id side timeout rest
    split at h
    · cases h
    · split at h
      · cases h
      · cases h
      · split at h
        · cases h
        · cases h
        · rename_i price _ hprice
          split at h
          · cases h
          · cases h
          · rename_i amt _ hamt
            cases h
            exact ⟨amtAsset, id, timeout, rest, rfl, hamt, hprice⟩
  · cases h

theorem makerArgs_format (hR : R.Lawful) : Format AllWords
    (fun words a => makerArgs R.ids R.fetchPrice words = .ok a) (makerWords R) makerAccepted where
  dom a h := by simp [makerWords, isWord_toDigits, hR.isWord_display, h.2.1]
  reads a h := by
    obtain ⟨amtAsset, assetId, swaptype, timeout, price⟩ := a
    obtain ⟨⟨hasset, hassetLt⟩, -, ⟨htimeout, htimeoutLt⟩, hprice, hpriceLt⟩ := h
    obtain ⟨amtAsset, rfl⟩ := Nat.exists_eq_succ_of_ne_zero hasset
    obtain ⟨timeout, rfl⟩ := Nat.exists_eq_succ_of_ne_zero htimeout
    obtain ⟨price, rfl⟩ := Nat.exists_eq_succ_of_ne_zero hprice
    have hread : parseU32 (Nat.toDigits 10 (timeout + 1)) = .ok (timeout + 1) :=
      parseUnsigned_toDigits htimeoutLt
    simp only [makerWords, makerArgs, hR.ids.fromStr_display, hread, List.head?_cons,
      makerPrice_toDigits hpriceLt, parseU64_toDigits hassetLt]
  sound words a hwords h := by
    obtain ⟨hasset, hprice, htimeout, htimeoutLt⟩ := makerArgs_bounds h
    obtain ⟨amtAsset, id, timeout, rest, rfl, hamount, hread⟩ := makerArgs_eq_ok h
    simp only [allWords_cons] at hwords
    exact ⟨⟨hasset, parseUnsigned_lt hamount⟩, hwords.2.2.1, ⟨htimeout, htimeoutLt⟩, hprice,
      makerPrice_lt hR hread⟩

theorem makerinitArgs_format (hR : R.Lawful) : Format AllWords (fun words a => makerinitArgs R words = .ok a)
    (fun (args, _) => makerWords R args)
    (fun (args, swaptype) => (Request.makerinit args swaptype).Accepted R) where
  dom := by
    rintro ⟨a, swaptype⟩ ⟨ha, -⟩
    exact (makerArgs_format hR).dom a ha
  reads := by
    rintro ⟨a, swaptype⟩ ⟨ha, hswaptype⟩
    have hread := (makerArgs_format hR).reads a ha
    rw [makerinitArgs, hread, Outcome.ofExcept_ok, Outcome.bind_ok, hswaptype, Outcome.bind_ok]
  sound := by
    rintro words ⟨a, swaptype⟩ hwords hok
    obtain ⟨a', hread, h⟩ := Outcome.ofExcept_bind_eq_ok.mp hok
    obtain ⟨swaptype', hswaptype, h⟩ := Outcome.bind_eq_ok.mp h
    cases h
    exact ⟨(makerArgs_format hR).sound words a hwords hread, hswaptype⟩

theorem takerArgs_format (R : Readers) : Format AllWords (fun words a => takerArgs R words = .ok a)
    (fun (swapstring, _) => [swapstring])
    (fun (swapstring, swap) => (Request.taker swapstring swap).Accepted R) where
  dom := by
    rintro ⟨swapstring, swap⟩ ⟨hword, -⟩
    simpa using hword
  reads := by
    rintro ⟨swapstring, swap⟩ ⟨-, hread, hnow⟩
    have hstring : takerSwapString R.ids R.profile R.now [swapstring] = .ok swap := by
      simp only [takerSwapString, hread, if_neg (Nat.not_lt.mpr hnow)]
    rw [takerArgs, hstring]
    rfl
  sound := by
    rintro words ⟨swapstring, swap⟩ hwords hok
    obtain ⟨swap', hread, h⟩ := Outcome.bind_eq_ok.mp hok
    cases h
    cases words with
    | nil => cases hread
    | cons word words =>
      rw [takerSwapString] at hread
      cases hstring : Swap.fromStr R.ids R.profile word with
      | abort => simp [hstring] at hread
      | err e => simp [hstring] at hread
      | ok s =>
        simp only [hstring] at hread
        split_ifs at hread with hnow
        cases hread
        exact ⟨(allWords_cons.mp hwords).1, hstring, Nat.not_lt.mp hnow⟩

theorem executeArgs_format (hR : R.Lawful) : Format AllWords (fun words a => executeArgs R words = .ok a)
    (fun (swapstring, args) => [swapstring, hexStr args.paymentSecret.val, hexStr args.peerPubkey])
    (fun (swapstring, args) => (Request.makerexecute swapstring args).Accepted R) where
  dom := by
    rintro ⟨swapstring, args⟩ ⟨hword, -, -, hkey⟩
    simpa using ⟨hword, isWord_hexStr_bytes32 args.paymentSecret, hkey.isWord⟩
  reads := by
    rintro ⟨swapstring, args⟩ ⟨-, hread, hnow, hkey⟩
    have hargs : makerexecuteArgs R.ids R.keys R.profile R.now
        [swapstring, hexStr args.paymentSecret.val, hexStr args.peerPubkey] = .ok args := by
      simp only [makerexecuteArgs, hread, if_neg (Nat.not_lt.mpr hnow), toBytes32_hexStr,
        hR.fromStr_hexStr _ hkey]
    rw [executeArgs, hargs]
    rfl
  sound := by
    rintro words ⟨swapstring, args⟩ hwords hok
    obtain ⟨args', hread, h⟩ := Outcome.bind_eq_ok.mp hok
    cases h
    unfold makerexecuteArgs at hread
    split at hread
    · rename_i word secret peer rest
      cases hstring : Swap.fromStr R.ids R.profile word with
      | abort => simp [hstring] at hread
      | err e => simp [hstring] at hread
      | ok s =>
        simp only [hstring] at hread
        split_ifs at hread with hnow
        cases hsecret : toBytes32 secret with
        | none => simp [hsecret] at hread
        | some paymentSecret =>
          cases hpeer : R.keys.fromStr peer with
          | error e => simp [hsecret, hpeer] at hread
          | ok key =>
            simp only [hsecret, hpeer, Outcome.ok.injEq] at hread
            subst hread
            exact ⟨(allWords_cons.mp hwords).1, hstring, Nat.not_lt.mp hnow,
              hR.key_of_fromStr peer key hpeer⟩
    · cases hread

end Arguments

end RgbLightning.Node
