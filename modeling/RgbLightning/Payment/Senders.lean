import RgbLightning.Node.HexUtils
import RgbLightning.Payment.Storage

/-! # `sendpayment`, `keysend` and `coloredkeysend`

The words of a command are those after its name. A command that stops early says
what it prints.
-/
namespace RgbLightning.Payment
open MachineInt Decimal HexUtils

def INVOICE_MIN_MSAT : ℕ := HTLC_MIN_MSAT

/-- Keys are decoded by the signature library. -/
structure PublicKeyText where
  fromSlice : List UInt8 → Option PublicKey
  fromStr : Text → Except String PublicKey

section SendPayment

/-- The info file of an RGB invoice; an invoice without the amount is a panic. -/
def invoiceRgbInfo (invoice : Invoice) : Outcome (Option RgbPaymentInfo) :=
  match invoice.rgbContractId with
  | none => .ok none
  | some contractId =>
    (Outcome.ofOption invoice.rgbAmount).bind fun amount => .ok (some (contractId, amount, some amount))

def sendPayment (invoice : Invoice) : Outcome Attempt :=
  (invoiceRgbInfo invoice).bind fun info =>
    .ok ⟨invoice.paymentHash, some invoice.paymentSecret, invoice.amountMilliSatoshis, info,
      .payInvoice invoice⟩

def sendpayment (parseInvoice : Text → Except String Invoice) : List Text → Outcome Attempt
  | [] => .err "ERROR: sendpayment requires an invoice: `sendpayment <invoice>`"
  | invoiceStr :: _ =>
    match parseInvoice invoiceStr with
    | .error e => .err ("ERROR: invalid invoice: " ++ e)
    | .ok invoice =>
      match invoice.amountMilliSatoshis with
      | none => .err "ERROR: msat amount missing in invoice"
      | some amtMsat =>
        if amtMsat < INVOICE_MIN_MSAT then
          .err ("ERROR: msat amount in invoice cannot be less than " ++ toString INVOICE_MIN_MSAT)
        else sendPayment invoice

end SendPayment

section Keysend
variable (keys : PublicKeyText) (ids : ContractIdText)

def toCompressedPubkey (hex : Text) : Option PublicKey :=
  if hex.length = 33 * 2 then (toVec hex).bind keys.fromSlice else none

structure KeysendArgs where
  destPubkey : PublicKey
  amtMsat : ℕ
  rgbPayment : Option (ContractId × ℕ)
  deriving DecidableEq

def keysendCmd : String := "`keysend <dest_pubkey> <amt_msat> <contract_id> <amt_rgb>`"

def coloredkeysendArgs (amtMsat : ℕ) (words : List Text) : Except String (ContractId × ℕ) :=
  if amtMsat < HTLC_MIN_MSAT then
    .error ("ERROR: amount_msat cannot be less than " ++ toString HTLC_MIN_MSAT)
  else match words with
    | [] => .error ("ERROR: keysend requires a contract ID: " ++ keysendCmd)
    | contractIdStr :: words =>
      match ids.fromStr contractIdStr with
      | none => .error ("ERROR: invalid contract ID: " ++ String.ofList contractIdStr)
      | some contractId =>
        match words with
        | [] => .error ("ERROR: keysend requires an RGB amount: " ++ keysendCmd)
        | amtRgbStr :: _ =>
          match parseU64 amtRgbStr with
          | .error e => .error ("ERROR: couldn't parse amt_rgb: " ++ e.message)
          | .ok amtRgb => .ok (contractId, amtRgb)

def keysendArgs (isColored : Bool) (words : List Text) : Except String KeysendArgs :=
  match words with
  | [] => .error ("ERROR: keysend requires a destination pubkey: " ++ keysendCmd)
  | dest :: words =>
    match toCompressedPubkey keys dest with
    | none => .error "ERROR: couldn't parse destination pubkey"
    | some destPubkey =>
      match words with
      | [] => .error ("ERROR: keysend requires an amount in millisatoshis: " ++ keysendCmd)
      | amtMsatStr :: words =>
        match parseU64 amtMsatStr with
        | .error e => .error ("ERROR: couldn't parse amount_msat: " ++ e.message)
        | .ok amtMsat =>
          if isColored then (coloredkeysendArgs ids amtMsat words).map fun rgbPayment =>
            ⟨destPubkey, amtMsat, some rgbPayment⟩
          else .ok ⟨destPubkey, amtMsat, none⟩

/-- `sha256` is the hash of the preimage drawn from the entropy source. -/
def keysend (sha256 : List UInt8 → PaymentHash) (payeePubkey : PublicKey) (amtMsat : ℕ)
    (entropy : Bytes32) (rgbPayment : Option (ContractId × ℕ)) : Attempt :=
  ⟨sha256 entropy.val, none, some amtMsat,
    rgbPayment.map fun (contractId, amtRgb) => (contractId, amtRgb, some amtRgb),
    .keysend entropy payeePubkey amtMsat⟩

end Keysend

end RgbLightning.Payment
