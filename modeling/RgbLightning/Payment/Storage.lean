import RgbLightning.Node.Types

/-! # The outbound payments

The three senders hand a payment to the channel manager and then insert an entry
under its hash, whatever was stored there. The two outcome events only change an
entry that exists. The map is empty when the node starts.
-/
namespace RgbLightning.Payment

abbrev PaymentPreimage := Bytes32

inductive HTLCStatus where
  | pending
  | succeeded
  | failed
  deriving DecidableEq, Repr

structure PaymentInfo where
  preimage : Option PaymentPreimage
  secret : Option PaymentSecret
  status : HTLCStatus
  amtMsat : Option ℕ
  deriving DecidableEq

abbrev Payments := PaymentHash → Option PaymentInfo

/-- The RGB info file of a payment: contract, amount and optional route amount. -/
abbrev RgbPaymentInfo := ContractId × ℕ × Option ℕ

/-- The key of a node, compressed. -/
abbrev PublicKey := List UInt8

/-- The fields of an invoice that are read. -/
structure Invoice where
  paymentHash : PaymentHash
  paymentSecret : PaymentSecret
  amountMilliSatoshis : Option ℕ
  rgbContractId : Option ContractId
  rgbAmount : Option ℕ
  deriving DecidableEq

/-- The fields of a hop that a swap reads or sets. -/
structure RouteHop where
  shortChannelId : ℕ
  feeMsat : ℕ
  rgbAmount : Option ℕ
  paymentAmount : ℕ
  deriving DecidableEq

/-- The payment a channel manager is given by `send_payment`, `keysend` or
`maker_execute`. -/
inductive Call where
  | payInvoice (invoice : Invoice)
  | keysend (preimage : PaymentPreimage) (payeePubkey : PublicKey) (amtMsat : ℕ)
  | swap (preimage : PaymentPreimage) (hops : List RouteHop)
  deriving DecidableEq

/-- A payment ready to be handed over, with the RGB info file written before. -/
structure Attempt where
  paymentHash : PaymentHash
  secret : Option PaymentSecret
  amtMsat : Option ℕ
  rgbPaymentInfo : Option RgbPaymentInfo
  call : Call
  deriving DecidableEq

/-- What the channel manager answers to a payment handed to it. -/
abbrev Answer := Except String Unit

def Answer.accepted (answer : Answer) : Bool := answer.isOk

namespace Attempt
variable (a : Attempt)

/-- An accepted payment unwraps its amount to print it; only an invoice may lack one. -/
def status (answer : Answer) : Outcome HTLCStatus :=
  if answer.accepted then (Outcome.ofOption a.amtMsat).bind fun _ => .ok .pending else .ok .failed

def info (status : HTLCStatus) : PaymentInfo := ⟨none, a.secret, status, a.amtMsat⟩

/-- The insertion that ends every sender. -/
def insert (status : HTLCStatus) (payments : Payments) : Payments :=
  Function.update payments a.paymentHash (some (a.info status))

/-- A sender from its hand-over to its end. -/
def send (answer : Answer) (payments : Payments) : Outcome Payments :=
  (a.status answer).bind fun status => .ok (a.insert status payments)

end Attempt

/-- The events that report what became of a payment. -/
inductive PaymentEvent where
  | paymentSent (paymentHash : PaymentHash) (paymentPreimage : PaymentPreimage)
  | paymentFailed (paymentHash : PaymentHash)
  deriving DecidableEq

namespace PaymentEvent

def paymentHash : PaymentEvent → PaymentHash
  | paymentSent hash _ | paymentFailed hash => hash

/-- The change of an entry whose payment was sent or has failed. -/
def resolve : PaymentEvent → PaymentInfo → PaymentInfo
  | paymentSent _ preimage, info => { info with preimage := some preimage, status := .succeeded }
  | paymentFailed _, info => { info with status := .failed }

/-- The handlers: entries of other hashes are kept, a missing entry stays missing. -/
def handle (event : PaymentEvent) (payments : Payments) : Payments :=
  Function.update payments event.paymentHash ((payments event.paymentHash).map event.resolve)

/-- An entry that shows what the event reported. -/
def ShownBy (info : PaymentInfo) : PaymentEvent → Prop
  | paymentSent _ preimage => info.status = .succeeded ∧ info.preimage = some preimage
  | paymentFailed _ => info.status = .failed

theorem resolve_shown (event : PaymentEvent) (info : PaymentInfo) :
    event.ShownBy (event.resolve info) := by
  cases event with
  | paymentSent hash preimage => exact ⟨rfl, rfl⟩
  | paymentFailed hash => rfl

@[simp] theorem handle_self (event : PaymentEvent) (payments : Payments) :
    event.handle payments event.paymentHash =
      (payments event.paymentHash).map event.resolve := Function.update_self ..

theorem handle_of_ne {event : PaymentEvent} {hash : PaymentHash} (h : hash ≠ event.paymentHash)
    (payments : Payments) : event.handle payments hash = payments hash :=
  Function.update_of_ne h _ _

end PaymentEvent

namespace Attempt
variable {a : Attempt} {payments : Payments}

@[simp] theorem insert_self (status : HTLCStatus) (payments : Payments) :
    a.insert status payments a.paymentHash = some (a.info status) := Function.update_self ..

theorem insert_of_ne {hash : PaymentHash} (h : hash ≠ a.paymentHash) (status : HTLCStatus)
    (payments : Payments) : a.insert status payments hash = payments hash :=
  Function.update_of_ne h _ _

/-- What a sender does once its payment has been handed over. -/
theorem send_cases (answer : Answer) (payments : Payments) :
    (answer.accepted = true ∧ (a.amtMsat.isSome = true ∧
        a.send answer payments = .ok (a.insert .pending payments) ∨
      a.amtMsat = none ∧ a.send answer payments = .abort)) ∨
    (answer.accepted = false ∧ a.send answer payments = .ok (a.insert .failed payments)) := by
  cases h : answer.accepted with
  | false => exact .inr ⟨rfl, by simp [send, status, h]⟩
  | true =>
    cases hamt : a.amtMsat with
    | none => exact .inl ⟨rfl, .inr ⟨rfl, by simp [send, status, h, hamt]⟩⟩
    | some amt => exact .inl ⟨rfl, .inl ⟨rfl, by simp [send, status, h, hamt]⟩⟩

end Attempt

end RgbLightning.Payment
