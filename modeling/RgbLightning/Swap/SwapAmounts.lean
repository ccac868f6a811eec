import RgbLightning.Swap.Commands

/-! # Exactness of the swap amounts

The product of amount and price is exact in both build profiles exactly when it
fits the word at every place where it is computed. `makerinit` also adds up the owned
values, in a word of the same size.
-/
namespace RgbLightning.Swap
open MachineInt Decimal HexUtils Rgb

variable (ids : ContractIdText) (fetchPrice : ContractId → Except String ℕ)

section Side
variable {p : Profile} {invalid : String} {side : Text} {amount price : ℕ} {t : SwapType}

theorem ofSide_of_fit (hside : SwapType.ValidSide side) (h : amount * price < 2 ^ u64) :
    ∃ t, SwapType.ofSide p invalid side amount price = .ok t ∧ t.amountMsats = amount * price := by
  have hmul : mulWord u64 p amount price = some (amount * price) := narrow_of_lt h
  rcases hside with rfl | rfl
  · exact ⟨.buyAsset amount (amount * price), by simp [SwapType.ofSide, hmul], rfl⟩
  · exact ⟨.sellAsset amount (amount * price), by simp [SwapType.ofSide, hmul], rfl⟩

theorem ofSide_of_invalid (hside : ¬SwapType.ValidSide side) :
    SwapType.ofSide p invalid side amount price = .err invalid := by
  simp only [SwapType.ValidSide, not_or] at hside
  rw [SwapType.ofSide, if_neg hside.1, if_neg hside.2]

theorem ofSide_dev_overflow (hside : SwapType.ValidSide side) (h : 2 ^ u64 ≤ amount * price) :
    SwapType.ofSide .dev invalid side amount price = .abort := by
  have hmul : mulWord u64 .dev amount price = none := narrow_dev_of_le h
  rcases hside with rfl | rfl <;> simp [SwapType.ofSide, hmul]

/-- The multiplication is exact in both builds iff it stays inside the word. -/
theorem ofSide_exact_iff (invalid : String) (side : Text) (amount price : ℕ) :
    (∀ p, (∃ e, SwapType.ofSide p invalid side amount price = .err e) ∨
      ∃ t, SwapType.ofSide p invalid side amount price = .ok t ∧ t.amountMsats = amount * price) ↔
    (SwapType.ValidSide side → amount * price < 2 ^ u64) := by
  constructor
  · intro h hside
    by_contra hlt
    have hdev := h .dev
    rw [ofSide_dev_overflow hside (Nat.not_lt.mp hlt)] at hdev
    simp at hdev
  · intro h p
    by_cases hside : SwapType.ValidSide side
    · exact .inr (ofSide_of_fit hside (h hside))
    · exact .inl ⟨invalid, ofSide_of_invalid hside⟩

theorem ofSide_eq_ok (h : SwapType.ofSide p invalid side amount price = .ok t) :
    (side = "buy".toList ∧ t = .buyAsset amount t.amountMsats) ∨
    (side ≠ "buy".toList ∧ side = "sell".toList ∧ t = .sellAsset amount t.amountMsats) := by
  unfold SwapType.ofSide at h
  split at h
  · rename_i hs
    obtain ⟨m, _, he⟩ := Outcome.bind_eq_ok.mp h
    cases he
    exact .inl ⟨hs, rfl⟩
  · rename_i hb
    split at h
    · rename_i hs
      obtain ⟨m, _, he⟩ := Outcome.bind_eq_ok.mp h
      cases he
      exact .inr ⟨hb, hs, rfl⟩
    · cases h

end Side

section Parse

def amountField (s : Text) : Option ℕ := (s.splitOn ':')[0]?.bind fun t => (parseU64 t).toOption
def priceField (s : Text) : Option ℕ := (s.splitOn ':')[3]?.bind fun t => (parseU64 t).toOption

/-- A string is refused or read with the exact, nonzero product of its fields. -/
def ExactParse (p : Profile) (s : Text) : Prop :=
  (∃ e, fromStr ids p s = .err e) ∨
  ∃ swap a b, fromStr ids p s = .ok swap ∧ amountField s = some a ∧ priceField s = some b ∧
    swap.swapType.amountMsats = a * b ∧ swap.swapType.amountMsats ≠ 0

/-- A string that reaches the multiplication has factors whose product fits. -/
def PartsFit (s : Text) : Prop :=
  ∀ parts, parseParts ids (s.splitOn ':') = .ok parts → SwapType.ValidSide parts.side →
    parts.amount * parts.price < 2 ^ u64

theorem parseParts_fields {s : Text} {parts : SwapParts}
    (h : parseParts ids (s.splitOn ':') = .ok parts) :
    amountField s = some parts.amount ∧ priceField s = some parts.price ∧
      parts.amount * parts.price ≠ 0 := by
  unfold parseParts at h
  split at h
  · rename_i amount assetId side price expiry hash hsplit
    split at h
    · rename_i a i b e k ha _ hb _ _
      split at h
      · cases h
      · rename_i hz
        cases h
        simp only [not_or] at hz
        refine ⟨?_, ?_, Nat.mul_ne_zero hz.1 hz.2.1⟩
        · simp [amountField, hsplit, ha, Except.toOption]
        · simp [priceField, hsplit, hb, Except.toOption]
    · cases h
  · cases h

theorem exactParse_iff (s : Text) : (∀ p, ExactParse ids p s) ↔ PartsFit ids s := by
  unfold ExactParse PartsFit fromStr
  cases hparts : parseParts ids (s.splitOn ':') with
  | error e => simp
  | ok parts =>
    obtain ⟨ha, hb, hne⟩ := parseParts_fields ids hparts
    have hexact := ofSide_exact_iff "Invalid swap type" parts.side parts.amount parts.price
    simp only [Outcome.ofExcept_ok, Outcome.bind_ok, ha, hb, Except.ok.injEq, Option.some.injEq]
    constructor
    · rintro h parts' rfl
      apply hexact.mp
      intro p
      rcases h p with ⟨e, he⟩ | ⟨swap, a, b, hs, rfl, rfl, hm, _⟩
      · cases ht : SwapType.ofSide p "Invalid swap type" parts.side parts.amount parts.price with
        | ok t => simp [ht] at he
        | err e' => exact .inl ⟨e', rfl⟩
        | abort => simp [ht] at he
      · obtain ⟨t, ht, hok⟩ := Outcome.bind_eq_ok.mp hs
        cases hok
        exact .inr ⟨t, ht, hm⟩
    · intro h p
      rcases hexact.mpr (h parts rfl) p with ⟨e, he⟩ | ⟨t, ht, hm⟩
      · exact .inl ⟨e, by simp [he]⟩
      · have hpos : t.amountMsats ≠ 0 := by
          rw [hm]
          exact hne
        rw [ht]
        exact .inr ⟨_, _, _, rfl, rfl, rfl, hm, hpos⟩

end Parse

section Offer

/-- `makerinit` reports an error or stores the exact product. -/
def ExactOffer (p : Profile) (calls : MakerCalls) (words : List Text) (trades : Trades) : Prop :=
  (∃ e, (makerinit ids fetchPrice p calls words trades).2 = .err e) ∨
  ∃ args hash assetId t, makerArgs ids fetchPrice words = .ok args ∧
    (makerinit ids fetchPrice p calls words trades).1 =
      Function.update trades hash (some (assetId, t)) ∧
    t.amountMsats = args.amtAsset * args.price ∧ t.amountMsats ≠ 0

/-- A maker who gives assets out owns enough of them. -/
def Affords (calls : MakerCalls) (args : MakerArgs) : Prop :=
  args.swaptype = "buy".toList →
    ∃ n, ownedTotal calls.history calls.unspents args.assetId = .ok n ∧ args.amtAsset ≤ n

/-- The balance, where it is checked, fits the word. -/
def BalanceFits (calls : MakerCalls) (args : MakerArgs) : Prop :=
  args.swaptype = "buy".toList →
    ∀ n, ownedTotal calls.history calls.unspents args.assetId = .ok n → n < 2 ^ u64

/-- The product and the balance fit, and the inbound payment can be registered whenever
the balance check lets the command get that far. -/
def OfferFits (calls : MakerCalls) (words : List Text) : Prop :=
  ∀ args, makerArgs ids fetchPrice words = .ok args → SwapType.ValidSide args.swaptype →
    args.amtAsset * args.price < 2 ^ u64 ∧ BalanceFits calls args ∧
    (Affords calls args →
      (calls.createInboundPayment (args.amtAsset * args.price) args.timeout).isSome)

theorem makerArgs_ne_zero {words : List Text} {args : MakerArgs}
    (h : makerArgs ids fetchPrice words = .ok args) : args.amtAsset * args.price ≠ 0 := by
  unfold makerArgs at h
  split at h
  · split at h
    · cases h
    · split at h
      · cases h
      · cases h
      · split at h
        · cases h
        · cases h
        · rename_i price hprice _
          split at h
          · cases h
          · cases h
          · rename_i amtAsset hamt _
            cases h
            exact Nat.mul_ne_zero hamt hprice
  · cases h

/-- A run that gets past the side text reports an error, aborts, or stores the multiplied
amounts. -/
theorem makerinit_of_args {p : Profile} (calls : MakerCalls) {words : List Text} (trades : Trades)
    {args : MakerArgs} {t : SwapType} (ha : makerArgs ids fetchPrice words = .ok args)
    (ht : makerSwapType p args = .ok t) :
    (∃ e, makerBalance p calls args.assetId t = .err e ∧
      makerinit ids fetchPrice p calls words trades = (trades, .err e)) ∨
    ((makerBalance p calls args.assetId t = .abort ∨ makerBalance p calls args.assetId t = .ok () ∧
        calls.createInboundPayment t.amountMsats args.timeout = none) ∧
      makerinit ids fetchPrice p calls words trades = (trades, .abort)) ∨
    (∃ hash secret, calls.createInboundPayment t.amountMsats args.timeout = some (hash, secret) ∧
      (makerinit ids fetchPrice p calls words trades).1 =
        Function.update trades hash (some (args.assetId, t))) := by
  cases hb : makerBalance p calls args.assetId t with
  | err e =>
    have hrun : makerinit ids fetchPrice p calls words trades = (trades, .err e) := by
      simp [makerinit, ha, ht, hb]
    exact .inl ⟨e, rfl, hrun⟩
  | abort =>
    have hrun : makerinit ids fetchPrice p calls words trades = (trades, .abort) := by
      simp [makerinit, ha, ht, hb]
    exact .inr (.inl ⟨.inl rfl, hrun⟩)
  | ok u =>
    cases hc : calls.createInboundPayment t.amountMsats args.timeout with
    | none =>
      have hrun : makerinit ids fetchPrice p calls words trades = (trades, .abort) := by
        simp [makerinit, makerInit, ha, ht, hb, hc]
      exact .inr (.inl ⟨.inr ⟨rfl, rfl⟩, hrun⟩)
    | some r =>
      have hstored : (makerinit ids fetchPrice p calls words trades).1 =
          Function.update trades r.1 (some (args.assetId, t)) := by
        simp [makerinit, makerInit, ha, ht, hb, hc]
      exact .inr (.inr ⟨r.1, r.2, rfl, hstored⟩)

section Balance
variable {calls : MakerCalls} {args : MakerArgs} {p : Profile} {t : SwapType}

/-- A balance that fits is compared as a natural number. -/
theorem makerBalance_of_fits (ht : makerSwapType p args = .ok t) (hfits : BalanceFits calls args) :
    makerBalance p calls args.assetId t ≠ .abort ∧
      (makerBalance p calls args.assetId t = .ok () ↔ Affords calls args) := by
  rcases ofSide_eq_ok ht with ⟨hs, he⟩ | ⟨hb, _, he⟩
  · have hcheck : makerBalance p calls args.assetId t =
        Outcome.ofExcept (checkEnough args.amtAsset (ownedTotal calls.history calls.unspents args.assetId)) := by
      rw [he]
      simp [makerBalance, checkBalance, SwapType.isBuy, SwapType.amountRgb,
        getRgbTotalAmount_of_fits (hfits hs)]
    rw [hcheck, Outcome.ofExcept_eq_ok, checkEnough_eq_ok]
    refine ⟨?_, fun h _ => h, fun h => h hs⟩
    cases checkEnough args.amtAsset (ownedTotal calls.history calls.unspents args.assetId) <;> simp
  · rw [he]
    exact ⟨by simp [makerBalance, SwapType.isBuy], fun _ hs => absurd hs hb, fun _ => rfl⟩

theorem makerBalance_dev_overflow (ht : makerSwapType .dev args = .ok t) (hfits : ¬BalanceFits calls args) :
    makerBalance .dev calls args.assetId t = .abort := by
  simp only [BalanceFits, Classical.not_imp, not_forall, Nat.not_lt] at hfits
  obtain ⟨hs, n, hn, hover⟩ := hfits
  rcases ofSide_eq_ok ht with ⟨_, he⟩ | ⟨hb, _, _⟩
  · rw [he]
    simp [makerBalance, checkBalance, SwapType.isBuy, getRgbTotalAmount_dev_overflow hn hover]
  · exact absurd hs hb

end Balance

/-- A command that aborts before it has stored anything is not exact. -/
theorem not_exactOffer_of_abort {p : Profile} {calls : MakerCalls} {words : List Text}
    (h : makerinit ids fetchPrice p calls words (fun _ => none) = (fun _ => none, .abort)) :
    ¬ExactOffer ids fetchPrice p calls words (fun _ => none) := by
  rintro (⟨e, he⟩ | ⟨args, hash, a, t, -, hstored, -⟩)
  · simp [h] at he
  · rw [h] at hstored
    have hnone := congrFun hstored hash
    simp at hnone

theorem offerFits_of_exact {calls : MakerCalls} {words : List Text}
    (h : ∀ p trades, ExactOffer ids fetchPrice p calls words trades) :
    OfferFits ids fetchPrice calls words := by
  intro args ha hside
  have hfit : args.amtAsset * args.price < 2 ^ u64 := by
    by_contra hlt
    have habort : makerSwapType .dev args = .abort := ofSide_dev_overflow hside (Nat.not_lt.mp hlt)
    exact not_exactOffer_of_abort ids fetchPrice (by simp [makerinit, ha, habort]) (h .dev _)
  obtain ⟨t, ht, hm⟩ : ∃ t, makerSwapType .dev args = .ok t ∧ _ := ofSide_of_fit hside hfit
  have hbalance : BalanceFits calls args := by
    by_contra hover
    have habort := makerBalance_dev_overflow ht hover
    exact not_exactOffer_of_abort ids fetchPrice (by simp [makerinit, ha, ht, habort]) (h .dev _)
  refine ⟨hfit, hbalance, fun hafford => ?_⟩
  have hok := (makerBalance_of_fits ht hbalance).2.mpr hafford
  rw [← hm]
  rcases makerinit_of_args ids fetchPrice calls (fun _ => none) ha ht with
    ⟨e, he, _⟩ | ⟨_, habort⟩ | ⟨hash, secret, hc, _⟩
  · rw [hok] at he
    cases he
  · exact absurd (h .dev _) (not_exactOffer_of_abort ids fetchPrice habort)
  · simp [hc]

theorem exact_of_offerFits {calls : MakerCalls} {words : List Text}
    (h : OfferFits ids fetchPrice calls words) (p : Profile) (trades : Trades) :
    ExactOffer ids fetchPrice p calls words trades := by
  cases ha : makerArgs ids fetchPrice words with
  | error e =>
    have hrun : (makerinit ids fetchPrice p calls words trades).2 = .err e := by
      simp [makerinit, ha]
    exact .inl ⟨e, hrun⟩
  | ok args =>
    by_cases hside : SwapType.ValidSide args.swaptype
    · obtain ⟨hfit, hbalance, hpay⟩ := h args ha hside
      obtain ⟨t, ht, hm⟩ : ∃ t, makerSwapType p args = .ok t ∧ _ := ofSide_of_fit hside hfit
      obtain ⟨hchecked, hok⟩ := makerBalance_of_fits ht hbalance
      rcases makerinit_of_args ids fetchPrice calls trades ha ht with
        ⟨e, _, hr⟩ | ⟨habort | ⟨hpassed, hc⟩, _⟩ | ⟨hash, secret, _, hr⟩
      · exact .inl ⟨e, by simp [hr]⟩
      · exact absurd habort hchecked
      · have hsome := hpay (hok.mp hpassed)
        rw [← hm, hc] at hsome
        cases hsome
      · have hne : t.amountMsats ≠ 0 := by
          rw [hm]
          exact makerArgs_ne_zero ids fetchPrice ha
        exact .inr ⟨args, hash, args.assetId, t, ha, hr, hm, hne⟩
    · obtain ⟨e, he⟩ : ∃ e, makerSwapType p args = .err e := ⟨_, ofSide_of_invalid hside⟩
      have hrun : (makerinit ids fetchPrice p calls words trades).2 = .err e := by
        simp only [makerinit, ha, he]
      exact .inl ⟨e, hrun⟩

theorem exactOffer_iff (calls : MakerCalls) (words : List Text) :
    (∀ p trades, ExactOffer ids fetchPrice p calls words trades) ↔
      OfferFits ids fetchPrice calls words := by
  constructor
  · exact offerFits_of_exact ids fetchPrice
  · exact exact_of_offerFits ids fetchPrice

end Offer

/-- Every swap string is read exactly and every offer is stored exactly. -/
def SwapAmountsExact : Prop :=
  (∀ p s, ExactParse ids p s) ∧
  ∀ p calls words trades, ExactOffer ids fetchPrice p calls words trades

/-- For each string and each command, in both builds, the amounts are exact iff the
product and the checked balance fit and the inbound payment of an affordable offer is
registered. -/
theorem swap_amounts_exact_iff :
    (∀ s, (∀ p, ExactParse ids p s) ↔ PartsFit ids s) ∧
    ∀ calls words, (∀ p trades, ExactOffer ids fetchPrice p calls words trades) ↔
      OfferFits ids fetchPrice calls words :=
  ⟨exactParse_iff ids, exactOffer_iff ids fetchPrice⟩

/-- Two factors of `2 ^ 32` wrap to a zero amount in the release build. -/
def wrappingSwapString : Text :=
  "4294967296:rgb:sell:4294967296:1:".toList ++ List.replicate 64 '0'

/-- One contract, written `rgb`. -/
def oneContract : ContractIdText where
  fromStr t := if t = "rgb".toList then some (Bytes32.fill 7) else none
  display _ := "rgb".toList

theorem swap_amounts_wrap :
    fromStr oneContract .release wrappingSwapString =
      .ok ⟨Bytes32.fill 7, .sellAsset (2 ^ 32) 0, 1, Bytes32.fill 0⟩ ∧
    ¬SwapAmountsExact oneContract (fun _ => .ok 1) := by
  have hwrap : fromStr oneContract .release wrappingSwapString =
      .ok ⟨Bytes32.fill 7, .sellAsset (2 ^ 32) 0, 1, Bytes32.fill 0⟩ := by decide
  refine ⟨hwrap, fun h => ?_⟩
  rcases h.1 .release wrappingSwapString with ⟨e, he⟩ | ⟨swap, a, b, hs, _, _, _, hne⟩
  · rw [hwrap] at he
    cases he
  · rw [hwrap] at hs
    cases hs
    exact hne rfl

end RgbLightning.Swap
