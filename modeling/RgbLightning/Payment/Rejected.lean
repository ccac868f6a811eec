import RgbLightning.Payment.Runs

/-! # Rejected sends and earlier payments

All three senders end with the same insertion, also when the channel manager has
rejected the payment: what was stored under the hash is lost then.
-/
namespace RgbLightning.Payment
open Runs

variable (sha256 : List UInt8 → PaymentHash)

def PaymentInfo.SucceededWith (info : PaymentInfo) (preimage : PaymentPreimage) : Prop :=
  info.status = .succeeded ∧ info.preimage = some preimage

/-- Every send that is rejected leaves the entry of its hash as it was. -/
def RejectedKeeps (inputs : List PaymentInput) : Prop :=
  EachAfter (fun older input => ∀ attempt answer, input.Hands sha256 attempt answer →
    answer.accepted = false → ∀ info, (paymentRun sha256 older).payments attempt.paymentHash = some info →
      (paymentRun sha256 (older ++ [input])).payments attempt.paymentHash = some info) inputs

/-- No send for the hash is accepted. -/
def NoneAccepted (hash : PaymentHash) (inputs : List PaymentInput) : Prop :=
  ∀ input ∈ inputs, ∀ attempt answer, input.Hands sha256 attempt answer →
    attempt.paymentHash = hash → answer.accepted = false

/-- A payment that has succeeded stays so while sends for its hash are rejected. -/
def SucceededStays (inputs : List PaymentInput) : Prop :=
  ∀ older later newer, inputs = older ++ later ++ newer → ∀ hash preimage,
    (∃ info, (paymentRun sha256 older).payments hash = some info ∧ info.SucceededWith preimage) →
    NoneAccepted sha256 hash later →
    ∃ info, (paymentRun sha256 (older ++ later)).payments hash = some info ∧
      info.SucceededWith preimage

/-- A rejected send has no entry, or repeats one that already stands as this very
rejection; no failure, nor another preimage, is reported for what has succeeded. -/
def InOrder (s : PaymentState) (input : PaymentInput) : Prop :=
  s.alive = true →
    (∀ attempt answer, input.Hands sha256 attempt answer → answer.accepted = false →
      ∀ info, s.payments attempt.paymentHash = some info → info = attempt.info .failed) ∧
    (∀ hash info, input = .event (.paymentFailed hash) → s.payments hash = some info →
      info.status ≠ .succeeded) ∧
    (∀ hash preimage info, input = .event (.paymentSent hash preimage) →
      s.payments hash = some info → info.status = .succeeded → info.preimage = some preimage)

variable {sha256} {s : PaymentState} {input : PaymentInput}

theorem paymentStep_keeps {attempt : Attempt} {answer : Answer} {info : PaymentInfo}
    (hok : InOrder sha256 s input) (hands : input.Hands sha256 attempt answer)
    (hrejected : answer.accepted = false) (hinfo : s.payments attempt.paymentHash = some info) :
    (paymentStep sha256 s input).payments attempt.paymentHash = some info := by
  by_cases halive : s.alive = true
  · have hsame : info = attempt.info .failed := (hok halive).1 attempt answer hands hrejected info hinfo
    rw [paymentStep_rejected halive hands hrejected, hsame]
  · rw [paymentStep_dead halive]
    exact hinfo

/-- In order, and without an accepted send, a success survives a step. -/
theorem paymentStep_succeeded {hash : PaymentHash} {preimage : PaymentPreimage}
    (hok : InOrder sha256 s input)
    (hs : ∃ info, s.payments hash = some info ∧ info.SucceededWith preimage)
    (hnone : NoneAccepted sha256 hash [input]) :
    ∃ info, (paymentStep sha256 s input).payments hash = some info ∧ info.SucceededWith preimage := by
  by_cases halive : s.alive = true
  · obtain ⟨info, hinfo, hstatus, hpreimage⟩ := hs
    obtain ⟨hsends, hfailures, hsuccesses⟩ := hok halive
    have hspec := paymentStep_spec sha256 halive input
    generalize paymentStep sha256 s input = s' at hspec
    cases hspec with
    | event e hinput =>
      by_cases hhash : hash = e.paymentHash
      · subst hhash
        dsimp only
        rw [PaymentEvent.handle_self, hinfo]
        cases e with
        | paymentSent hash preimage' =>
          have hsame := hsuccesses hash preimage' info hinput hinfo hstatus
          exact ⟨_, rfl, rfl, hsame.symm.trans hpreimage⟩
        | paymentFailed hash => exact absurd hstatus (hfailures hash info hinput hinfo)
      · dsimp only
        rw [PaymentEvent.handle_of_ne hhash]
        exact ⟨info, hinfo, hstatus, hpreimage⟩
    | inserted attempt answer hands =>
      by_cases hhash : hash = attempt.paymentHash
      · -- a rejected send for this hash would have to repeat a failure
        subst hhash
        have hrejected := hnone input (List.mem_singleton_self input) attempt answer hands rfl
        have hsame := hsends attempt answer hands hrejected info hinfo
        rw [hsame] at hstatus
        cases hstatus
      · dsimp only
        rw [Attempt.insert_of_ne hhash]
        exact ⟨info, hinfo, hstatus, hpreimage⟩
    | kept alive hands => exact ⟨info, hinfo, hstatus, hpreimage⟩
  · rw [paymentStep_dead halive]
    exact hs

theorem succeededStays_of_inOrder {inputs : List PaymentInput}
    (h : EachAfter (fun older input => InOrder sha256 (paymentRun sha256 older) input) inputs) :
    SucceededStays sha256 inputs := by
  intro older later newer hsplit hash preimage hs hnone
  induction later using List.reverseRecOn generalizing newer with
  | nil => simpa using hs
  | append_singleton later input ih =>
    have hsplit' : inputs = (older ++ later) ++ input :: newer := by simp [hsplit]
    have hnone' : NoneAccepted sha256 hash later := fun i hi => hnone i (by simp [hi])
    have hlast : NoneAccepted sha256 hash [input] := fun i hi => hnone i (by simp_all)
    have hbefore := ih (input :: newer) (by simp [hsplit]) hnone'
    have hok := h (older ++ later) input newer hsplit'
    have hstep := paymentStep_succeeded hok hbefore hlast
    rwa [← List.append_assoc, paymentRun, run_concat]

/-- Rejected sends keep what was stored, and successes stay, iff every rejected
send only repeats its own failure and no event contradicts a success. -/
theorem rejected_send_keeps_iff (inputs : List PaymentInput) :
    (RejectedKeeps sha256 inputs ∧ SucceededStays sha256 inputs) ↔
      EachAfter (fun older input => InOrder sha256 (paymentRun sha256 older) input) inputs := by
  constructor
  · rintro ⟨hkeeps, hstays⟩ older input newer hsplit halive
    have hlater : ∀ hash preimage, (∃ info, (paymentRun sha256 older).payments hash = some info ∧
        info.SucceededWith preimage) → NoneAccepted sha256 hash [input] →
        ∃ info, (paymentStep sha256 (paymentRun sha256 older) input).payments hash = some info ∧
          info.SucceededWith preimage := by
      intro hash preimage hs hnone
      have hstep := hstays older [input] newer (by simp [hsplit]) hash preimage hs hnone
      rwa [paymentRun, run_concat] at hstep
    have hsucceeded : ∀ hash info, (paymentRun sha256 older).payments hash = some info →
        info.status = .succeeded → ∃ preimage, info.SucceededWith preimage := by
      intro hash info hinfo hstatus
      obtain ⟨preimage, hpreimage⟩ := Option.isSome_iff_exists.mp
        (paymentRun_inv older hash info hinfo hstatus)
      exact ⟨preimage, hstatus, hpreimage⟩
    refine ⟨?_, ?_, ?_⟩
    · intro attempt answer hands hrejected info hinfo
      have hsame := hkeeps older input newer hsplit attempt answer hands hrejected info hinfo
      rw [paymentRun, run_concat] at hsame
      have hwritten := paymentStep_rejected halive hands hrejected
      exact Option.some.inj (hsame.symm.trans hwritten)
    · rintro hash info rfl hinfo hstatus
      obtain ⟨preimage, hs⟩ := hsucceeded hash info hinfo hstatus
      obtain ⟨info', hinfo', hstatus', -⟩ := hlater hash preimage ⟨info, hinfo, hs⟩ (by
        intro i hi attempt answer hands
        rw [List.mem_singleton.mp hi] at hands
        exact absurd hands not_hands_event)
      rw [paymentStep, if_pos halive] at hinfo'
      have hfailed := PaymentEvent.handle_self (.paymentFailed hash) (paymentRun sha256 older).payments
      rw [PaymentEvent.paymentHash, hinfo] at hfailed
      cases hfailed.symm.trans hinfo'
      cases hstatus'
    · rintro hash preimage info rfl hinfo hstatus
      obtain ⟨preimage', hs⟩ := hsucceeded hash info hinfo hstatus
      obtain ⟨info', hinfo', -, hpreimage'⟩ := hlater hash preimage' ⟨info, hinfo, hs⟩ (by
        intro i hi attempt answer hands
        rw [List.mem_singleton.mp hi] at hands
        exact absurd hands not_hands_event)
      rw [paymentStep, if_pos halive] at hinfo'
      have hsent := PaymentEvent.handle_self (.paymentSent hash preimage)
        (paymentRun sha256 older).payments
      rw [PaymentEvent.paymentHash, hinfo] at hsent
      cases hsent.symm.trans hinfo'
      rw [hs.2]
      exact hpreimage'.symm
  · intro h
    refine ⟨?_, succeededStays_of_inOrder h⟩
    intro older input newer hsplit attempt answer hands hrejected info hinfo
    rw [paymentRun, run_concat]
    exact paymentStep_keeps (h older input newer hsplit) hands hrejected hinfo

def exampleInvoice : Invoice := ⟨Bytes32.fill 4, Bytes32.fill 5, some 3000000, none, none⟩

/-- An invoice is paid and, once it has succeeded, refused as a duplicate. -/
def paidTwice : List PaymentInput :=
  [.send (.sendPayment exampleInvoice) (.ok ()), .event (.paymentSent (Bytes32.fill 4) (Bytes32.fill 6)),
    .send (.sendPayment exampleInvoice) (.error "DuplicatePayment")]

/-- The preimage of the first payment is gone. -/
theorem paidTwice_lost : ¬(RejectedKeeps (fun _ => Bytes32.fill 7) paidTwice ∧
    SucceededStays (fun _ => Bytes32.fill 7) paidTwice) := by
  rintro ⟨hkeeps, -⟩
  have hsame := hkeeps (paidTwice.take 2) (.send (.sendPayment exampleInvoice) (.error "DuplicatePayment")) []
    rfl _ _ ⟨_, rfl, rfl⟩ rfl _ rfl
  revert hsame
  decide

end RgbLightning.Payment
