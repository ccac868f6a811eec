import RgbLightning.Base.Runs
import RgbLightning.Swap.MakerExecute

/-! # Runs of the senders and the outcome events

A run mixes sends, each accepted or rejected by the channel manager, with the
events that report outcomes. An abort ends it.
-/
namespace RgbLightning.Payment
open MachineInt Decimal Runs

inductive Sender where
  | sendPayment (invoice : Invoice)
  | keysend (payeePubkey : PublicKey) (amtMsat : ℕ) (entropy : Bytes32)
      (rgbPayment : Option (ContractId × ℕ))
  | makerExecute (calls : Swap.ExecuteCalls) (takerPk : PublicKey) (swaptype : Swap.SwapType)
      (assetId : ContractId) (paymentHash : PaymentHash) (paymentSecret : PaymentSecret)

variable (sha256 : List UInt8 → PaymentHash)

/-- The payment a sender prepares before it hands it over. -/
def Sender.prepare : Sender → Outcome Attempt
  | sendPayment invoice => Payment.sendPayment invoice
  | keysend payeePubkey amtMsat entropy rgbPayment =>
    .ok (Payment.keysend sha256 payeePubkey amtMsat entropy rgbPayment)
  | makerExecute calls takerPk swaptype assetId paymentHash paymentSecret =>
    Swap.makerExecute calls takerPk swaptype assetId paymentHash paymentSecret

inductive PaymentInput where
  | send (sender : Sender) (answer : Answer)
  | event (e : PaymentEvent)

structure PaymentState where
  payments : Payments
  alive : Bool

def PaymentState.init : PaymentState := ⟨fun _ => none, true⟩

def PaymentState.settle (s : PaymentState) : Outcome Payments → PaymentState
  | .ok payments => { s with payments := payments }
  | .err _ => s
  | .abort => { s with alive := false }

def paymentStep (s : PaymentState) (input : PaymentInput) : PaymentState :=
  if s.alive then
    match input with
    | .send sender answer =>
      s.settle ((sender.prepare sha256).bind fun attempt => attempt.send answer s.payments)
    | .event e => { s with payments := e.handle s.payments }
  else s

def paymentRun (inputs : List PaymentInput) : PaymentState := run (paymentStep sha256) .init inputs

/-- The input hands this payment over and gets this answer. -/
def PaymentInput.Hands (input : PaymentInput) (attempt : Attempt) (answer : Answer) : Prop :=
  ∃ sender, input = .send sender answer ∧ sender.prepare sha256 = .ok attempt

variable {sha256} {s : PaymentState} {input : PaymentInput}

theorem hands_send {sender : Sender} {answer answer' : Answer} {attempt : Attempt} :
    (PaymentInput.send sender answer).Hands sha256 attempt answer' ↔
      answer = answer' ∧ sender.prepare sha256 = .ok attempt := by
  constructor
  · rintro ⟨_, h, hprepared⟩
    cases h
    exact ⟨rfl, hprepared⟩
  · rintro ⟨rfl, hprepared⟩
    exact ⟨sender, rfl, hprepared⟩

theorem not_hands_event {e : PaymentEvent} {attempt : Attempt} {answer : Answer} :
    ¬(PaymentInput.event e).Hands sha256 attempt answer := by
  rintro ⟨_, h, -⟩
  cases h

theorem PaymentInput.Hands.unique {attempt attempt' : Attempt} {answer answer' : Answer}
    (h : input.Hands sha256 attempt answer) (h' : input.Hands sha256 attempt' answer') :
    attempt = attempt' ∧ answer = answer' := by
  obtain ⟨sender, rfl, hprepared⟩ := h
  obtain ⟨rfl, hprepared'⟩ := hands_send.mp h'
  exact ⟨Outcome.ok.inj (hprepared.symm.trans hprepared'), rfl⟩

variable (sha256) in
/-- What one step of a live run does. -/
inductive PaymentStepSpec (s : PaymentState) (input : PaymentInput) : PaymentState → Prop
  | event (e : PaymentEvent) (hinput : input = .event e) :
      PaymentStepSpec s input ⟨e.handle s.payments, true⟩
  | inserted (attempt : Attempt) (answer : Answer) (hands : input.Hands sha256 attempt answer) :
      PaymentStepSpec s input
        ⟨attempt.insert (if answer.accepted then .pending else .failed) s.payments, true⟩
  | kept (alive : Bool)
      (hands : ∀ attempt answer, input.Hands sha256 attempt answer → answer.accepted = true) :
      PaymentStepSpec s input ⟨s.payments, alive⟩

variable (sha256) in
theorem paymentStep_spec (halive : s.alive = true) (input : PaymentInput) :
    PaymentStepSpec sha256 s input (paymentStep sha256 s input) := by
  unfold paymentStep
  rw [if_pos halive]
  cases input with
  | event e =>
    rw [halive]
    exact .event e rfl
  | send sender answer =>
    dsimp only
    cases hprepared : sender.prepare sha256 with
    | err e => exact .kept s.alive fun _ _ hands => by simp [hands_send, hprepared] at hands
    | abort => exact .kept false fun _ _ hands => by simp [hands_send, hprepared] at hands
    | ok attempt =>
      have hands : (PaymentInput.send sender answer).Hands sha256 attempt answer :=
        ⟨sender, rfl, hprepared⟩
      have hinserted := PaymentStepSpec.inserted (s := s) attempt answer hands
      rw [Outcome.bind_ok]
      obtain ⟨haccepted, ⟨-, hsent⟩ | ⟨-, hsent⟩⟩ | ⟨hrejected, hsent⟩ :=
        attempt.send_cases answer s.payments
      · rw [haccepted, if_pos rfl] at hinserted
        rwa [hsent, PaymentState.settle, halive]
      · rw [hsent, PaymentState.settle]
        refine .kept false ?_
        intro attempt' answer' hands'
        obtain ⟨-, rfl⟩ := hands.unique hands'
        exact haccepted
      · rw [hrejected, if_neg Bool.false_ne_true] at hinserted
        rwa [hsent, PaymentState.settle, halive]

theorem paymentStep_dead (halive : s.alive ≠ true) (input : PaymentInput) :
    paymentStep sha256 s input = s := if_neg halive

/-- A rejected send always writes its own failure. -/
theorem paymentStep_rejected {attempt : Attempt} {answer : Answer} (halive : s.alive = true)
    (hands : input.Hands sha256 attempt answer) (hrejected : answer.accepted = false) :
    (paymentStep sha256 s input).payments attempt.paymentHash = some (attempt.info .failed) := by
  have hspec := paymentStep_spec sha256 halive input
  generalize paymentStep sha256 s input = s' at hspec
  cases hspec with
  | event e hinput =>
    subst hinput
    exact absurd hands not_hands_event
  | inserted attempt' answer' hands' =>
    obtain ⟨rfl, rfl⟩ := hands.unique hands'
    rw [hrejected, if_neg Bool.false_ne_true]
    exact attempt.insert_self .failed s.payments
  | kept alive hnone =>
    rw [hnone attempt answer hands] at hrejected
    cases hrejected

/-- The entries shown as succeeded carry a preimage. -/
def PaymentInv (s : PaymentState) : Prop :=
  ∀ hash info, s.payments hash = some info → info.status = .succeeded → info.preimage.isSome = true

theorem paymentStep_inv (hs : PaymentInv s) (input : PaymentInput) :
    PaymentInv (paymentStep sha256 s input) := by
  by_cases halive : s.alive = true
  · have hspec := paymentStep_spec sha256 halive input
    generalize paymentStep sha256 s input = s' at hspec
    cases hspec with
    | event e hinput =>
      intro hash info hinfo hsucceeded
      dsimp only at hinfo
      by_cases hhash : hash = e.paymentHash
      · subst hhash
        rw [PaymentEvent.handle_self] at hinfo
        obtain ⟨old, -, rfl⟩ := Option.map_eq_some_iff.mp hinfo
        cases e with
        | paymentSent hash preimage => rfl
        | paymentFailed hash => cases hsucceeded
      · rw [PaymentEvent.handle_of_ne hhash] at hinfo
        exact hs hash info hinfo hsucceeded
    | inserted attempt answer hands =>
      intro hash info hinfo hsucceeded
      dsimp only at hinfo
      by_cases hhash : hash = attempt.paymentHash
      · subst hhash
        rw [Attempt.insert_self] at hinfo
        cases hinfo
        split at hsucceeded <;> cases hsucceeded
      · rw [Attempt.insert_of_ne hhash] at hinfo
        exact hs hash info hinfo hsucceeded
    | kept alive hands => exact hs
  · rw [paymentStep_dead halive]
    exact hs

theorem paymentRun_inv (inputs : List PaymentInput) : PaymentInv (paymentRun sha256 inputs) :=
  run_invariant PaymentInv (fun _ => True) (fun _ _ h => by cases h)
    (fun _ input _ hs => paymentStep_inv hs input) inputs fun _ _ => trivial

end RgbLightning.Payment
