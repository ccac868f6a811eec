import RgbLightning.Rgb.OwnedValues
import RgbLightning.Swap.SwapString
import RgbLightning.Base.Words

/-! # The `makerinit` and `taker` commands

Both commands are split at the balance check, which is the only part that runs
under the RGB runtime lock. The words are those after the command name.
-/
namespace RgbLightning.Swap
open MachineInt Decimal HexUtils Rgb Words

/-- The balance covers the amount. Its sum panics when a checked build overflows. -/
def checkBalance (p : Profile) (history : History ℕ) (unspents : List OutPoint) (id : ContractId)
    (amount : ℕ) : Outcome Unit :=
  (Outcome.ofOption (getRgbTotalAmount p history unspents id)).bind fun total =>
    Outcome.ofExcept (checkEnough amount total)

abbrev Trades := PaymentHash → Option Terms

section Maker

structure MakerArgs where
  amtAsset : ℕ
  assetId : ContractId
  swaptype : Text
  timeout : ℕ
  price : ℕ
  deriving DecidableEq

variable (ids : ContractIdText) (fetchPrice : ContractId → Except String ℕ)

/-- The price argument, or the fetched price when it is missing or blank. -/
def makerPrice (assetId : ContractId) (price : Option Text) : Except String ℕ :=
  let fetched := match fetchPrice assetId with
    | .ok n => .ok n
    | .error e => .error ("ERROR: invalid price_msats_per_asset: " ++ e)
  match price with
  | some x =>
    if x.all isWhitespace then fetched
    else match parseU64 x with
      | .ok n => .ok n
      | .error _ => .error "ERROR: invalid price_msats_per_asset"
  | none => fetched

/-- Everything `makerinit` parses, in the order it reports errors. -/
def makerArgs : List Text → Except String MakerArgs
  | amtAsset :: assetId :: swaptype :: timeout :: rest =>
    match ids.fromStr assetId with
    | none => .error ("ERROR: invalid contract ID: " ++ String.ofList assetId)
    | some assetId =>
      match parseU32 timeout with
      | .error _ | .ok 0 => .error "ERROR: Invalid expiry_secs value"
      | .ok timeout =>
        match makerPrice fetchPrice assetId rest.head? with
        | .error e => .error e
        | .ok 0 => .error "ERROR: invalid price_msats_per_asset"
        | .ok price =>
          match parseU64 amtAsset with
          | .error _ | .ok 0 => .error "ERROR: invalid amt_asset"
          | .ok amtAsset => .ok ⟨amtAsset, assetId, swaptype, timeout, price⟩
  | _ => .error "ERROR: makerinit requires at least 4 args: makerinit <amount> <asset_id> <buy|sell> <expiry_secs> [<price_msats_per_asset>]"

def makerSwapType (p : Profile) (args : MakerArgs) : Outcome SwapType :=
  SwapType.ofSide p "ERROR: invalid swap type, use either `buy` or `sell`" args.swaptype
    args.amtAsset args.price

/-- Results of the calls `makerinit` makes, and what the RGB runtime and the wallet hold.
`createInboundPayment` takes the amount and the timeout and is unwrapped by its caller. -/
structure MakerCalls where
  history : History ℕ
  unspents : List OutPoint
  createInboundPayment : ℕ → ℕ → Option (PaymentHash × PaymentSecret)
  now : ℕ

/-- A maker gives assets out in a buy swap, so only then its balance matters. -/
def makerBalance (p : Profile) (calls : MakerCalls) (assetId : ContractId) (swaptype : SwapType) :
    Outcome Unit :=
  if swaptype.isBuy then checkBalance p calls.history calls.unspents assetId swaptype.amountRgb
  else .ok ()

/-- `maker_init`: register the inbound payment, then store the trade. -/
def makerInit (calls : MakerCalls) (swaptype : SwapType) (timeout : ℕ) (assetId : ContractId)
    (makerTrades : Trades) : Trades × Outcome (PaymentHash × PaymentSecret) :=
  match calls.createInboundPayment swaptype.amountMsats timeout with
  | none => (makerTrades, .abort)
  | some (hash, secret) =>
    (Function.update makerTrades hash (some (assetId, swaptype)), .ok (hash, secret))

def formatSwapString (args : MakerArgs) (swaptype : SwapType) (expiry : ℕ) (hash : PaymentHash) :
    Text :=
  [':'].intercalate [Nat.toDigits 10 args.amtAsset, ids.display args.assetId, swaptype.side,
    Nat.toDigits 10 args.price, Nat.toDigits 10 expiry, hexStr hash.val]

structure MakerOffer where
  swapString : Text
  paymentSecret : Text
  deriving DecidableEq

def makerinit (p : Profile) (calls : MakerCalls) (words : List Text) (makerTrades : Trades) :
    Trades × Outcome MakerOffer :=
  match makerArgs ids fetchPrice words with
  | .error e => (makerTrades, .err e)
  | .ok args =>
    match makerSwapType p args with
    | .abort => (makerTrades, .abort)
    | .err e => (makerTrades, .err e)
    | .ok swaptype =>
      match makerBalance p calls args.assetId swaptype with
      | .abort => (makerTrades, .abort)
      | .err e => (makerTrades, .err e)
      | .ok _ =>
        let (makerTrades, init) := makerInit calls swaptype args.timeout args.assetId makerTrades
        (makerTrades, init.bind fun (hash, secret) =>
          (Outcome.ofOption (addWord u64 p calls.now args.timeout)).bind fun expiry =>
            .ok ⟨formatSwapString ids args swaptype expiry hash, hexStr secret.val⟩)

variable {ids fetchPrice} {p : Profile} {words : List Text} {args : MakerArgs} {calls : MakerCalls}
  {trades trades' : Trades} {offer : MakerOffer}

theorem makerArgs_bounds (h : makerArgs ids fetchPrice words = .ok args) :
    args.amtAsset ≠ 0 ∧ args.price ≠ 0 ∧ args.timeout ≠ 0 ∧ args.timeout < 2 ^ u32 := by
  unfold makerArgs at h
  split at h
  · split at h
    · cases h
    · split at h
      · cases h
      · cases h
      · rename_i timeout htimeout hparse
        split at h
        · cases h
        · cases h
        · rename_i price hprice _
          split at h
          · cases h
          · cases h
          · rename_i amt hamt _
            cases h
            exact ⟨hamt, hprice, htimeout, parseUnsigned_lt hparse⟩
  · cases h

/-- What a successful `makerinit` stores and prints. -/
theorem makerinit_eq_ok (h : makerinit ids fetchPrice p calls words trades = (trades', .ok offer)) :
    ∃ args swaptype hash secret expiry, makerArgs ids fetchPrice words = .ok args ∧
      makerSwapType p args = .ok swaptype ∧
      calls.createInboundPayment swaptype.amountMsats args.timeout = some (hash, secret) ∧
      trades' = Function.update trades hash (some (args.assetId, swaptype)) ∧
      addWord u64 p calls.now args.timeout = some expiry ∧
      offer.swapString = formatSwapString ids args swaptype expiry hash := by
  unfold makerinit at h
  cases hargs : makerArgs ids fetchPrice words with
  | error e => simp [hargs] at h
  | ok args =>
    simp only [hargs] at h
    cases htype : makerSwapType p args with
    | abort => simp [htype] at h
    | err e => simp [htype] at h
    | ok swaptype =>
      simp only [htype] at h
      cases hbalance : makerBalance p calls args.assetId swaptype with
      | abort => simp [hbalance] at h
      | err e => simp [hbalance] at h
      | ok u =>
        simp only [hbalance, makerInit] at h
        cases hcreate : calls.createInboundPayment swaptype.amountMsats args.timeout with
        | none => simp [hcreate] at h
        | some pair =>
          obtain ⟨hash, secret⟩ := pair
          simp only [hcreate, Outcome.bind_ok, Prod.mk.injEq] at h
          obtain ⟨hstored, hprinted⟩ := h
          obtain ⟨expiry, hexpiry, hoffer⟩ := Outcome.bind_eq_ok.mp hprinted
          cases hoffer
          have hadd : addWord u64 p calls.now args.timeout = some expiry := by
            cases hsum : addWord u64 p calls.now args.timeout with
            | none => simp [hsum] at hexpiry
            | some n =>
              simp only [hsum, Outcome.ofOption_some, Outcome.ok.injEq] at hexpiry
              rw [hexpiry]
          exact ⟨args, swaptype, hash, secret, expiry, rfl, htype, hcreate, hstored.symm, hadd, rfl⟩

/-- A `makerinit` that reports an error has stored nothing. -/
theorem makerinit_err {e : String}
    (h : makerinit ids fetchPrice p calls words trades = (trades', .err e)) : trades' = trades := by
  unfold makerinit at h
  cases hargs : makerArgs ids fetchPrice words with
  | error e => simp_all
  | ok args =>
    simp only [hargs] at h
    cases htype : makerSwapType p args with
    | abort => simp [htype] at h
    | err e => simp_all
    | ok swaptype =>
      simp only [htype] at h
      cases hbalance : makerBalance p calls args.assetId swaptype with
      | abort => simp [hbalance] at h
      | err e => simp_all
      | ok u =>
        simp only [hbalance, makerInit] at h
        cases hcreate : calls.createInboundPayment swaptype.amountMsats args.timeout with
        | none => simp [hcreate] at h
        | some pair =>
          -- once the trade is stored only the expiry can fail, and that aborts
          simp only [hcreate, Outcome.bind_ok, Prod.mk.injEq] at h
          cases hsum : addWord u64 p calls.now args.timeout with
          | none => simp [hsum] at h
          | some expiry => simp [hsum] at h

end Maker

section Taker
variable (ids : ContractIdText)

/-- The swap string of `taker`, refused once the clock has passed its expiry. -/
def takerSwapString (p : Profile) (now : ℕ) : List Text → Outcome SwapString
  | [] => .err "ERROR: taker requires 1 arg: taker <swap_string>"
  | swapstring :: _ =>
    match fromStr ids p swapstring with
    | .abort => .abort
    | .err e => .err ("ERROR: " ++ e)
    | .ok s => if now > s.expiry then .err "ERROR: the swap offer has already expired" else .ok s

/-- A taker gives assets out in a sell swap. -/
def takerBalance (p : Profile) (history : History ℕ) (unspents : List OutPoint) (s : SwapString) :
    Outcome Unit :=
  if s.swapType.isBuy then .ok ()
  else checkBalance p history unspents s.assetId s.swapType.amountRgb

/-- The swap string that a `taker` command whitelists. -/
def taker (p : Profile) (now : ℕ) (history : History ℕ) (unspents : List OutPoint) (words : List Text) :
    Outcome SwapString :=
  (takerSwapString ids p now words).bind fun s =>
    (takerBalance p history unspents s).bind fun _ => .ok s

end Taker

end RgbLightning.Swap
