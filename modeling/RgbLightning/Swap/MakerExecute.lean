import RgbLightning.Payment.Senders
import RgbLightning.Swap.Commands

/-! # The `makerexecute` command

The maker pays himself along a route through the taker. The terms of the swap
string decide which leg carries the assets and which the millisatoshis.
-/
namespace RgbLightning.Swap
open MachineInt Decimal HexUtils Payment

def SwapType.opposite : SwapType → SwapType
  | buyAsset r m => sellAsset r m
  | sellAsset r m => buyAsset r m

structure UsableChannel where
  nodeId : PublicKey
  shortChannelId : Option ℕ
  /-- Delta, base fee and proportional fee. -/
  forwardingInfo : Option (ℕ × ℕ × ℕ)
  deriving DecidableEq

structure RouteHintHop where
  srcNodeId : PublicKey
  shortChannelId : ℕ
  cltvExpiryDelta : ℕ
  feeBaseMsat : ℕ
  feeProportionalMillionths : ℕ
  deriving DecidableEq

/-- Both optional fields of a usable channel are unwrapped. -/
def receiveHint (details : UsableChannel) : Option RouteHintHop :=
  details.forwardingInfo.bind fun (delta, base, proportional) =>
    details.shortChannelId.map fun scid => ⟨details.nodeId, scid, delta, base, proportional⟩

abbrev Hops := List RouteHop

/-- The paths of a route. -/
abbrev Route := List Hops

structure RouteQuery where
  start : PublicKey
  dest : PublicKey
  assetId : Option ContractId
  finalValueMsat : ℕ
  hints : List RouteHintHop
  deriving DecidableEq

/-- What `maker_execute` asks the channel manager and the router. The preimage is
found from the hash and the secret. -/
structure ExecuteCalls where
  getPaymentPreimage : PaymentHash → PaymentSecret → Except String PaymentPreimage
  listUsableChannels : List UsableChannel
  ourNodeId : PublicKey
  findRoute : RouteQuery → Option Route
  isSwapScid : ℕ

def getRoute (calls : ExecuteCalls) (start dest : PublicKey) (assetId : Option ContractId)
    (finalValueMsat : Option ℕ) (hints : List RouteHintHop) : Option Route :=
  calls.findRoute ⟨start, dest, assetId, finalValueMsat.getD HTLC_MIN_MSAT, hints⟩

/-- The two legs, from the maker's point of view of the swap. -/
def swapLegs (calls : ExecuteCalls) (takerPk : PublicKey) (swaptype : SwapType) (assetId : ContractId)
    (hints : List RouteHintHop) : Option Route × Option Route :=
  (getRoute calls calls.ourNodeId takerPk (if swaptype.isBuy then none else some assetId)
      (if swaptype.isBuy then some swaptype.amountMsats else none) [],
    getRoute calls takerPk calls.ourNodeId (if swaptype.isBuy then some assetId else none)
      (if swaptype.isBuy then some HTLC_MIN_MSAT else some swaptype.amountMsats) hints)

/-- The first hop of the second leg carries the swap flag. -/
def flagSwap (isSwapScid : ℕ) : Hops → Option Hops
  | [] => none
  | hop :: rest => some ({ hop with shortChannelId := hop.shortChannelId ||| isSwapScid } :: rest)

/-- The fee of the last hop of the first leg. -/
def setLastFee (feeMsat : ℕ) : Hops → Option Hops
  | [] => none
  | [hop] => some [{ hop with feeMsat := feeMsat }]
  | hop :: rest => (setLastFee feeMsat rest).map (hop :: ·)

def carryAssets (amountRgb : ℕ) (hop : RouteHop) : RouteHop :=
  { hop with rgbAmount := some amountRgb, paymentAmount := HTLC_MIN_MSAT }

/-- One path out of the first paths of both legs. -/
def swapHops (isSwapScid : ℕ) (swaptype : SwapType) (firstLeg secondLeg : Route) : Option Hops :=
  secondLeg.head?.bind fun second => (flagSwap isSwapScid second).bind fun second =>
    firstLeg.head?.bind fun first =>
      (setLastFee (if swaptype.isBuy then HTLC_MIN_MSAT else 0) first).map fun first =>
        match swaptype with
        | .sellAsset amountRgb _ => first.map (carryAssets amountRgb) ++ second
        | .buyAsset amountRgb _ => first ++ second.map (carryAssets amountRgb)

/-- The RGB info file is only written when the maker sends assets. -/
def swapRgbInfo (swaptype : SwapType) (assetId : ContractId) : Option RgbPaymentInfo :=
  match swaptype with
  | .sellAsset amountRgb _ => some (assetId, amountRgb, none)
  | .buyAsset .. => none

def makerExecute (calls : ExecuteCalls) (takerPk : PublicKey) (swaptype : SwapType)
    (assetId : ContractId) (paymentHash : PaymentHash) (paymentSecret : PaymentSecret) :
    Outcome Attempt :=
  match calls.getPaymentPreimage paymentHash paymentSecret with
  | .error e => .err ("ERROR: unable to find payment preimage, have you provided the correct swapstring and payment secret? " ++ e)
  | .ok preimage =>
    -- terms are seen from the taker's side until here
    let swaptype := swaptype.opposite
    (Outcome.ofOption (calls.listUsableChannels.mapM receiveHint)).bind fun hints =>
      match swapLegs calls takerPk swaptype assetId hints with
      | (some firstLeg, some secondLeg) =>
        (Outcome.ofOption (swapHops calls.isSwapScid swaptype firstLeg secondLeg)).bind fun hops =>
          .ok ⟨paymentHash, none, some swaptype.amountMsats, swapRgbInfo swaptype assetId,
            .swap preimage hops⟩
      | (some _, none) => .err "ERROR: unable to find from the taker to us"
      | (none, some _) => .err "ERROR: unable to find path to the taker"
      | (none, none) => .err "ERROR: no path found"

structure ExecuteArgs where
  swapString : SwapString
  paymentSecret : PaymentSecret
  peerPubkey : PublicKey
  deriving DecidableEq

variable (ids : ContractIdText) (keys : PublicKeyText)

def makerexecuteArgs (p : Profile) (now : ℕ) : List Text → Outcome ExecuteArgs
  | swapstring :: paymentSecret :: peerPubkey :: _ =>
    match fromStr ids p swapstring with
    | .abort => .abort
    | .err e => .err ("ERROR: " ++ e)
    | .ok swapString =>
      if now > swapString.expiry then .err "ERROR: the swap offer has already expired"
      else match toBytes32 paymentSecret with
        | none => .err "ERROR: invalid payment hash"
        | some paymentSecret =>
          match keys.fromStr peerPubkey with
          | .error e => .err ("ERROR: " ++ e)
          | .ok peerPubkey => .ok ⟨swapString, paymentSecret, peerPubkey⟩
  | _ => .err "ERROR: makerexecute requires 3 args: makerexecute <swap_string> <payment_secret> <peer_pubkey>"

def ExecuteArgs.attempt (calls : ExecuteCalls) (args : ExecuteArgs) : Outcome Attempt :=
  makerExecute calls args.peerPubkey args.swapString.swapType args.swapString.assetId
    args.swapString.paymentHash args.paymentSecret

/-- `makerexecute` up to the hand-over of the payment. -/
def makerexecute (p : Profile) (now : ℕ) (calls : ExecuteCalls) (words : List Text) :
    Outcome Attempt :=
  (makerexecuteArgs ids keys p now words).bind (ExecuteArgs.attempt calls)

end RgbLightning.Swap
