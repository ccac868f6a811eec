import RgbLightning.Node.HexUtils

/-! # Swap types and the swap string

The string has six parts separated by colons. Its amount and price are
multiplied when it is read; the product is an unchecked `u64` operation.
-/
namespace RgbLightning.Swap
open MachineInt Decimal HexUtils

/-- Sides are named from the taker's point of view. -/
inductive SwapType where
  | buyAsset (amountRgb amountMsats : ℕ)
  | sellAsset (amountRgb amountMsats : ℕ)
  deriving DecidableEq, Repr

namespace SwapType

def isBuy : SwapType → Bool
  | buyAsset .. => true
  | sellAsset .. => false

def amountMsats : SwapType → ℕ
  | buyAsset _ m | sellAsset _ m => m

def amountRgb : SwapType → ℕ
  | buyAsset r _ | sellAsset r _ => r

def side : SwapType → Text
  | buyAsset .. => "buy".toList
  | sellAsset .. => "sell".toList

def ValidSide (side : Text) : Prop := side = "buy".toList ∨ side = "sell".toList

instance (side : Text) : Decidable (ValidSide side) :=
  inferInstanceAs (Decidable (_ ∨ _))

/-- The match on the side text. The amounts are multiplied in its two valid arms. -/
def ofSide (p : Profile) (invalid : String) (side : Text) (amount price : ℕ) : Outcome SwapType :=
  if side = "buy".toList then
    (Outcome.ofOption (mulWord u64 p amount price)).bind fun m => .ok (buyAsset amount m)
  else if side = "sell".toList then
    (Outcome.ofOption (mulWord u64 p amount price)).bind fun m => .ok (sellAsset amount m)
  else .err invalid

end SwapType

/-- What both parties agree to: the asset and the terms. -/
abbrev Terms := ContractId × SwapType

structure SwapString where
  assetId : ContractId
  swapType : SwapType
  expiry : ℕ
  paymentHash : PaymentHash
  deriving DecidableEq

/-- The six parts, parsed, before the amounts are multiplied. -/
structure SwapParts where
  amount : ℕ
  assetId : ContractId
  side : Text
  price : ℕ
  expiry : ℕ
  paymentHash : PaymentHash
  deriving DecidableEq

variable (ids : ContractIdText)

def parseParts : List Text → Except String SwapParts
  | [amount, assetId, side, price, expiry, paymentHash] =>
    match parseU64 amount, ids.fromStr assetId, parseU64 price, parseU64 expiry,
        toBytes32 paymentHash with
    | .ok amount, some assetId, .ok price, .ok expiry, some paymentHash =>
      if amount = 0 ∨ price = 0 ∨ expiry = 0 then
        .error "Parsing swap string: amount, price and expiry should be non-zero"
      else .ok ⟨amount, assetId, side, price, expiry, paymentHash⟩
    | _, _, _, _, _ => .error "Parsing swap string: unable to parse parts"
  | _ => .error "Parsing swap string: wrong number of parts"

def fromStr (p : Profile) (s : Text) : Outcome SwapString :=
  (Outcome.ofExcept (parseParts ids (s.splitOn ':'))).bind fun parts =>
    (SwapType.ofSide p "Invalid swap type" parts.side parts.amount parts.price).bind fun swapType =>
      .ok ⟨parts.assetId, swapType, parts.expiry, parts.paymentHash⟩

end RgbLightning.Swap
