import RgbLightning.Swap.SwapAmounts
import RgbLightning.Swap.TakerRuns

/-! # The maker and the taker agree on the terms

The swap string is printed by `makerinit` and read by `taker`. Its six parts
contain neither a colon nor white space, and each is read back as it was printed.
-/
namespace RgbLightning
open Decimal Words

/-- What the asset library guarantees of the text of a contract identifier. -/
structure ContractIdText.RoundTrips (ids : ContractIdText) : Prop where
  fromStr_display : ∀ id, ids.fromStr (ids.display id) = some id
  display_clean : ∀ id, ∀ c ∈ ids.display id, isWhitespace c = false ∧ c ≠ ':'

namespace Swap
open MachineInt HexUtils Rgb Words

variable {ids : ContractIdText} {fetchPrice : ContractId → Except String ℕ} {p : Profile}

section Printed
variable {args : MakerArgs} {swaptype : SwapType} {expiry : ℕ}

theorem side_isLetter (swaptype : SwapType) : swaptype.side.all isLetter = true := by
  cases swaptype with
  | buyAsset r m => rfl
  | sellAsset r m => rfl

theorem side_clean (swaptype : SwapType) :
    ∀ c ∈ swaptype.side, isWhitespace c = false ∧ c ≠ ':' := by
  intro c hc
  have hletter : isLetter c = true := List.all_eq_true.mp (side_isLetter swaptype) c hc
  refine ⟨not_isWhitespace_of_isLetter hletter, ?_⟩
  rintro rfl
  exact absurd hletter (by decide)

theorem toDigits_clean (n : ℕ) :
    ∀ c ∈ Nat.toDigits 10 n, isWhitespace c = false ∧ c ≠ ':' := by
  intro c hc
  have hdigit : c.isDigit = true := isDigit_of_mem_toDigits hc
  refine ⟨(isWord_toDigits n).2 c hc, ?_⟩
  rintro rfl
  exact absurd hdigit (by decide)

def printedParts (ids : ContractIdText) (args : MakerArgs) (swaptype : SwapType) (expiry : ℕ)
    (hash : PaymentHash) : List Text :=
  [Nat.toDigits 10 args.amtAsset, ids.display args.assetId, swaptype.side,
    Nat.toDigits 10 args.price, Nat.toDigits 10 expiry, hexStr hash.val]

theorem printedParts_clean (hids : ids.RoundTrips) (args : MakerArgs) (swaptype : SwapType)
    (expiry : ℕ) (hash : PaymentHash) :
    ∀ part ∈ printedParts ids args swaptype expiry hash,
      ∀ c ∈ part, isWhitespace c = false ∧ c ≠ ':' := by
  intro part hpart
  simp only [printedParts, List.mem_cons, List.not_mem_nil, or_false] at hpart
  rcases hpart with rfl | rfl | rfl | rfl | rfl | rfl
  · exact toDigits_clean args.amtAsset
  · exact hids.display_clean args.assetId
  · exact side_clean swaptype
  · exact toDigits_clean args.price
  · exact toDigits_clean expiry
  · exact fun c => hexStr_clean

theorem isWord_formatSwapString (hids : ids.RoundTrips) (hash : PaymentHash) :
    IsWord (formatSwapString ids args swaptype expiry hash) := by
  have hcolon : isWhitespace ':' = false := by decide
  have hclean := printedParts_clean hids args swaptype expiry hash
  apply isWord_intercalate hcolon (isWord_toDigits args.amtAsset)
  intro part hpart c hc
  exact (hclean part (List.mem_cons_of_mem _ hpart) c hc).1

theorem splitOn_formatSwapString (hids : ids.RoundTrips) (hash : PaymentHash) :
    (formatSwapString ids args swaptype expiry hash).splitOn ':' =
      printedParts ids args swaptype expiry hash := by
  apply List.splitOn_intercalate
  · intro part hpart hcolon
    exact (printedParts_clean hids args swaptype expiry hash part hpart ':' hcolon).2 rfl
  · exact List.cons_ne_nil _ _

theorem parseParts_printedParts (hids : ids.RoundTrips) (swaptype : SwapType) (hash : PaymentHash)
    (hamt : args.amtAsset ≠ 0 ∧ args.amtAsset < 2 ^ u64) (hprice : args.price ≠ 0 ∧ args.price < 2 ^ u64)
    (hexpiry : expiry ≠ 0 ∧ expiry < 2 ^ u64) :
    parseParts ids (printedParts ids args swaptype expiry hash) =
      .ok ⟨args.amtAsset, args.assetId, swaptype.side, args.price, expiry, hash⟩ := by
  have hread : ∀ n, n < 2 ^ u64 → parseU64 (Nat.toDigits 10 n) = .ok n :=
    fun n hn => parseUnsigned_toDigits hn
  simp only [printedParts, parseParts, hread _ hamt.2, hread _ hprice.2, hread _ hexpiry.2,
    hids.fromStr_display, toBytes32_hexStr]
  simp [hamt.1, hprice.1, hexpiry.1]

/-- The side printed and the product recomputed give the type that was stored. -/
theorem ofSide_side (p' : Profile) {invalid : String} (invalid' : String) {side : Text} {amount price : ℕ}
    (hfits : amount * price < 2 ^ u64)
    (h : SwapType.ofSide p invalid side amount price = .ok swaptype) :
    SwapType.ofSide p' invalid' swaptype.side amount price = .ok swaptype := by
  have hmul : ∀ q, mulWord u64 q amount price = some (amount * price) := fun q => narrow_of_lt hfits
  have hside : SwapType.ValidSide side := by
    by_contra hside
    rw [ofSide_of_invalid hside] at h
    cases h
  rcases hside with rfl | rfl
  · simp only [SwapType.ofSide, hmul, if_true, Outcome.ofOption_some, Outcome.bind_ok,
      Outcome.ok.injEq] at h
    subst h
    simp [SwapType.ofSide, SwapType.side, hmul]
  · have hne : "sell".toList ≠ "buy".toList := by decide
    simp only [SwapType.ofSide, hmul, if_neg hne, if_true, Outcome.ofOption_some, Outcome.bind_ok,
      Outcome.ok.injEq] at h
    subst h
    simp [SwapType.ofSide, SwapType.side, hmul]

end Printed

section Offered
variable {words : List Text} {args : MakerArgs} {calls : MakerCalls} {trades trades' : Trades}
  {offer : MakerOffer}

/-- The words a taker's `taker` command gets when the printed string is pasted. -/
def takerWords (swapString : Text) : List Text :=
  (splitWhitespace ("taker ".toList ++ swapString)).tail

theorem takerWords_of_isWord {s : Text} (h : IsWord s) : takerWords s = [s] := by
  have hcommand : IsWord "taker".toList := isWord_of_isLetter (List.cons_ne_nil _ _) rfl
  have hline : "taker ".toList ++ s = "taker".toList ++ ' ' :: s := rfl
  rw [takerWords, hline, splitWhitespace_cons hcommand, splitWhitespace_of_isWord h, List.tail_cons]

/-- A `taker` that reads the string in time and has enough assets whitelists it. -/
theorem takerStep_of_fromStr {p' : Profile} {s : TakerState} {text : Text} {swap : SwapString}
    {now : ℕ} {history : History ℕ} {unspents : List OutPoint} (halive : s.alive = true)
    (hread : fromStr ids p' text = .ok swap) (htime : now ≤ swap.expiry)
    (hbalance : takerBalance p' history unspents swap = .ok ()) :
    (takerStep ids p' s (.taker [text] now history unspents)).whitelistedTrades swap.paymentHash =
      some swap.terms := by
  have htaker : taker ids p' now history unspents [text] = .ok swap := by
    simp [taker, takerSwapString, hread, Nat.not_lt.mpr htime, hbalance]
  simp [takerStep, halive, htaker]

/-- The swap string of a successful `makerinit` is one word, it is read as what
was stored, and a taker who pastes it whitelists the value the maker stored. The
clock counts signed 64-bit seconds. -/
theorem swap_terms_agree (p p' : Profile) (hids : ids.RoundTrips) (hclock : calls.now < 2 ^ 63)
    (h : makerinit ids fetchPrice p calls words trades = (trades', .ok offer))
    (hfits : ∀ args, makerArgs ids fetchPrice words = .ok args →
      args.amtAsset * args.price < 2 ^ u64) :
    splitWhitespace offer.swapString = [offer.swapString] ∧
    ∃ args swap secret, makerArgs ids fetchPrice words = .ok args ∧
      makerSwapType p args = .ok swap.swapType ∧ swap.assetId = args.assetId ∧
      calls.createInboundPayment swap.swapType.amountMsats args.timeout =
        some (swap.paymentHash, secret) ∧
      swap.expiry = calls.now + args.timeout ∧
      trades' = Function.update trades swap.paymentHash (some swap.terms) ∧
      offer.swapString = formatSwapString ids args swap.swapType swap.expiry swap.paymentHash ∧
      fromStr ids p' offer.swapString = .ok swap ∧
      ∀ s : TakerState, s.alive = true → ∀ now history unspents, now ≤ swap.expiry →
        takerBalance p' history unspents swap = .ok () →
        (takerStep ids p' s (.taker (takerWords offer.swapString) now history unspents)).whitelistedTrades
          swap.paymentHash = trades' swap.paymentHash := by
  obtain ⟨args, swaptype, hash, secret, expiry, hargs, htype, hcreate, hstored, hexpiry, hprinted⟩ :=
    makerinit_eq_ok h
  obtain ⟨hamt, hprice, htimeout, htimeout'⟩ := makerArgs_bounds hargs
  have hproduct : args.amtAsset * args.price < 2 ^ u64 := hfits args hargs
  have hsum : calls.now + args.timeout < 2 ^ 64 := by
    change args.timeout < 2 ^ 32 at htimeout'
    omega
  have hexpiry' : calls.now + args.timeout = expiry := by
    rw [addWord, narrow_of_lt hsum] at hexpiry
    exact Option.some.inj hexpiry
  subst hexpiry'
  -- each factor of a product that fits does
  have hamt' : args.amtAsset < 2 ^ u64 :=
    (Nat.le_mul_of_pos_right _ (Nat.pos_of_ne_zero hprice)).trans_lt hproduct
  have hprice' : args.price < 2 ^ u64 :=
    (Nat.le_mul_of_pos_left _ (Nat.pos_of_ne_zero hamt)).trans_lt hproduct
  have hword : IsWord offer.swapString := by
    rw [hprinted]
    exact isWord_formatSwapString hids hash
  have hparts := parseParts_printedParts hids swaptype hash ⟨hamt, hamt'⟩
    ⟨hprice, hprice'⟩ ⟨by omega, hsum⟩
  have hread : fromStr ids p' offer.swapString =
      .ok ⟨args.assetId, swaptype, calls.now + args.timeout, hash⟩ := by
    have hside := ofSide_side p' "Invalid swap type" hproduct htype
    rw [fromStr, hprinted, splitOn_formatSwapString hids, hparts]
    simp [hside]
  refine ⟨splitWhitespace_of_isWord hword, args, ⟨args.assetId, swaptype, calls.now + args.timeout, hash⟩,
    secret, hargs, htype, rfl, hcreate, rfl, hstored, hprinted, hread, ?_⟩
  intro s halive now history unspents htime hbalance
  rw [takerWords_of_isWord hword, takerStep_of_fromStr halive hread htime hbalance, hstored,
    Function.update_self]
  rfl

/-- Contract identifiers shown as hexadecimal. -/
def hexIds : ContractIdText := ⟨toBytes32, fun id => hexStr id.val⟩

theorem hexIds_roundTrips : hexIds.RoundTrips :=
  ⟨toBytes32_hexStr, fun _ _ hc => hexStr_clean hc⟩

/-- Five units sold to a buyer for 2000 each. -/
def offerWords : List Text :=
  ["5".toList, List.replicate 64 '7', "buy".toList, "100".toList, "2000".toList]

/-- The wallet holds ten units of the asset on one coin. -/
def offerCalls : MakerCalls where
  history _ := some ⟨[⟨0, ⟨Bytes32.fill 1, 0⟩, 10⟩], by simp⟩
  unspents := [⟨Bytes32.fill 1, 0⟩]
  createInboundPayment _ _ := some (Bytes32.fill 1, Bytes32.fill 2)
  now := 1700000000

def offeredArgs : MakerArgs := ⟨5, Bytes32.fill 0x77, "buy".toList, 100, 2000⟩

def offered : MakerOffer where
  swapString := formatSwapString hexIds offeredArgs (.buyAsset 5 10000) 1700000100 (Bytes32.fill 1)
  paymentSecret := hexStr (Bytes32.fill 2).val

theorem swap_terms_agree_offered :
    splitWhitespace offered.swapString = [offered.swapString] ∧
    ∃ swap, fromStr hexIds .release offered.swapString = .ok swap ∧ swap.expiry = 1700000100 := by
  have hargs : makerArgs hexIds (fun _ => .error "") offerWords = .ok offeredArgs := by rfl
  have hfits : ∀ args, makerArgs hexIds (fun _ => .error "") offerWords = .ok args →
      args.amtAsset * args.price < 2 ^ u64 := by
    rw [hargs]
    rintro args ⟨⟩
    decide
  have hmaker : makerinit hexIds (fun _ => .error "") .dev offerCalls offerWords (fun _ => none) =
      (Function.update (fun _ => none) (Bytes32.fill 1) (some (Bytes32.fill 0x77, .buyAsset 5 10000)),
        .ok offered) := by rfl
  have hclock : offerCalls.now < 2 ^ 63 := by decide
  obtain ⟨hword, args, swap, secret, hargs', -, -, -, hexpiry, -, -, hread, -⟩ :=
    swap_terms_agree .dev .release hexIds_roundTrips hclock hmaker hfits
  obtain rfl : offeredArgs = args := Except.ok.inj (hargs.symm.trans hargs')
  exact ⟨hword, swap, hread, hexpiry⟩

end Offered

end Swap

end RgbLightning
