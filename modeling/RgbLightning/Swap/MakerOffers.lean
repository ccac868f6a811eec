import RgbLightning.Swap.Agreement
import RgbLightning.Swap.MakerExecute

/-! # The maker's offers and what he executes

A run mixes `makerinit`, `makerexecute` and claimed payments. The log records the
trades stored, the claims that remove them and the payments handed over; it is
read by the theorems only. An abort ends the run.
-/
namespace RgbLightning.Swap
open MachineInt Decimal HexUtils Runs KeyedLog Payment

inductive PaymentPurpose where
  | invoicePayment (preimage : Option PaymentPreimage) (secret : PaymentSecret)
  | spontaneousPayment (preimage : PaymentPreimage)
  deriving DecidableEq

def PaymentPurpose.preimage : PaymentPurpose → Option PaymentPreimage
  | invoicePayment preimage _ => preimage
  | spontaneousPayment preimage => some preimage

def PaymentPurpose.secret : PaymentPurpose → Option PaymentSecret
  | invoicePayment _ secret => some secret
  | spontaneousPayment _ => none

structure PaymentClaimed where
  paymentHash : PaymentHash
  purpose : PaymentPurpose
  amountMsat : ℕ
  deriving DecidableEq

/-- An entry that exists is updated and keeps its amount, else one is made. -/
def PaymentClaimed.info (ev : PaymentClaimed) (amtMsat : Option ℕ) : PaymentInfo where
  preimage := ev.purpose.preimage
  secret := ev.purpose.secret
  status := .succeeded
  amtMsat := amtMsat

def PaymentClaimed.settle (ev : PaymentClaimed) (inbound : Payments) : Payments :=
  Function.update inbound ev.paymentHash (some (ev.info
    (match inbound ev.paymentHash with
    | some info => info.amtMsat
    | none => some ev.amountMsat)))

inductive MakerInput where
  | makerinit (fetchPrice : ContractId → Except String ℕ) (words : List Text) (calls : MakerCalls)
  | makerexecute (words : List Text) (now : ℕ) (calls : ExecuteCalls) (answer : Answer)
  | paymentClaimed (ev : PaymentClaimed)

inductive MakerEntry where
  | offered (hash : PaymentHash) (terms : Terms)
  /-- The terms pasted, what `maker_trades` held for the hash, and the payment. -/
  | handed (terms : Terms) (held : Option Terms) (attempt : Attempt)
  | claimed (hash : PaymentHash)
  deriving DecidableEq

structure MakerState where
  makerTrades : Trades
  inboundPayments : Payments
  outboundPayments : Payments
  alive : Bool
  log : List MakerEntry

def MakerState.init : MakerState := ⟨fun _ => none, fun _ => none, fun _ => none, true, []⟩

variable (ids : ContractIdText) (keys : PublicKeyText) (p : Profile)

/-- The trade a `makerinit` stores. -/
def offeredBy (fetchPrice : ContractId → Except String ℕ) (words : List Text) (calls : MakerCalls) :
    Outcome (PaymentHash × Terms) :=
  (Outcome.ofExcept (makerArgs ids fetchPrice words)).bind fun args =>
    (makerSwapType p args).bind fun swaptype =>
      (Outcome.ofOption (calls.createInboundPayment swaptype.amountMsats args.timeout)).bind
        fun (hash, _) => .ok (hash, (args.assetId, swaptype))

def makerinitStep (s : MakerState) (fetchPrice : ContractId → Except String ℕ) (words : List Text)
    (calls : MakerCalls) : MakerState :=
  match makerinit ids fetchPrice p calls words s.makerTrades with
  | (makerTrades, .ok _) =>
    { s with
      makerTrades := makerTrades
      log := s.log ++ match offeredBy ids p fetchPrice words calls with
        | .ok (hash, terms) => [.offered hash terms]
        | _ => [] }
  | (makerTrades, .err _) => { s with makerTrades := makerTrades }
  | (makerTrades, .abort) => { s with makerTrades := makerTrades, alive := false }

/-- The payment is handed over, then the entry is inserted. -/
def handOver (s : MakerState) (terms : Terms) (attempt : Attempt) (answer : Answer) : MakerState :=
  let log := s.log ++ [.handed terms (s.makerTrades attempt.paymentHash) attempt]
  match attempt.send answer s.outboundPayments with
  | .ok outboundPayments => { s with outboundPayments := outboundPayments, log := log }
  | _ => { s with alive := false, log := log }

def makerexecuteStep (s : MakerState) (words : List Text) (now : ℕ) (calls : ExecuteCalls)
    (answer : Answer) : MakerState :=
  match makerexecuteArgs ids keys p now words with
  | .err _ => s
  | .abort => { s with alive := false }
  | .ok args =>
    match args.attempt calls with
    | .err _ => s
    | .abort => { s with alive := false }
    | .ok attempt => handOver s args.swapString.terms attempt answer

def makerStep (s : MakerState) (input : MakerInput) : MakerState :=
  if s.alive then
    match input with
    | .makerinit fetchPrice words calls => makerinitStep ids p s fetchPrice words calls
    | .makerexecute words now calls answer => makerexecuteStep ids keys p s words now calls answer
    | .paymentClaimed ev =>
      { s with
        inboundPayments := ev.settle s.inboundPayments
        makerTrades := Function.update s.makerTrades ev.paymentHash none
        log := s.log ++ [.claimed ev.paymentHash] }
  else s

def makerRun (inputs : List MakerInput) : MakerState := run (makerStep ids keys p) .init inputs

def MakerEntry.effect : MakerEntry → Effect PaymentHash Terms
  | offered hash terms => .put hash terms
  | claimed hash => .take hash
  | handed .. => .skip

/-- Every payment handed over was for a trade that `maker_trades` held with the
terms that were pasted. -/
def OffersOnly (log : List MakerEntry) : Prop :=
  ∀ terms held attempt, .handed terms held attempt ∈ log → held = some terms

/-- A `makerexecute` that hands over a payment. -/
def MakerInput.HandsOver : MakerInput → SwapString → Attempt → Prop
  | makerexecute words now calls _, swap, attempt =>
    ∃ args, makerexecuteArgs ids keys p now words = .ok args ∧ args.swapString = swap ∧
      args.attempt calls = .ok attempt
  | _, _, _ => False

/-- The string pasted has the terms that were last offered for its hash, and the
payment of that offer has not been claimed. -/
def MakerInput.PastesOffer (s : MakerState) (input : MakerInput) : Prop :=
  s.alive = true → ∀ swap attempt, input.HandsOver ids keys p swap attempt →
    Standing MakerEntry.effect swap.paymentHash swap.terms s.log

variable {ids keys p}

theorem makerExecute_paymentHash {calls : ExecuteCalls} {takerPk : PublicKey} {swaptype : SwapType}
    {assetId : ContractId} {hash : PaymentHash} {secret : PaymentSecret} {attempt : Attempt}
    (h : makerExecute calls takerPk swaptype assetId hash secret = .ok attempt) :
    attempt.paymentHash = hash := by
  unfold makerExecute at h
  split at h
  · cases h
  · obtain ⟨hints, -, h⟩ := Outcome.bind_eq_ok.mp h
    split at h
    · obtain ⟨hops, -, h⟩ := Outcome.bind_eq_ok.mp h
      cases h
      rfl
    all_goals cases h

theorem makerinit_offeredBy {fetchPrice : ContractId → Except String ℕ} {words : List Text}
    {calls : MakerCalls} {trades trades' : Trades} {offer : MakerOffer}
    (h : makerinit ids fetchPrice p calls words trades = (trades', .ok offer)) :
    ∃ hash terms, offeredBy ids p fetchPrice words calls = .ok (hash, terms) ∧
      trades' = Function.update trades hash (some terms) := by
  obtain ⟨args, swaptype, hash, secret, expiry, hargs, htype, hcreate, hstored, -⟩ :=
    makerinit_eq_ok h
  exact ⟨hash, (args.assetId, swaptype), by simp [offeredBy, hargs, htype, hcreate], hstored⟩

@[simp] theorem handOver_log (s : MakerState) (terms : Terms) (attempt : Attempt) (answer : Answer) :
    (handOver s terms attempt answer).log =
      s.log ++ [.handed terms (s.makerTrades attempt.paymentHash) attempt] := by
  unfold handOver
  split <;> rfl

@[simp] theorem handOver_makerTrades (s : MakerState) (terms : Terms) (attempt : Attempt)
    (answer : Answer) : (handOver s terms attempt answer).makerTrades = s.makerTrades := by
  unfold handOver
  split <;> rfl

variable {s : MakerState} {input : MakerInput}

variable (ids keys p) in
/-- What one step of a live run does to the trades and to the log. -/
inductive MakerStepSpec (s : MakerState) (input : MakerInput) (s' : MakerState) : Prop
  | offered (hash : PaymentHash) (terms : Terms)
      (htrades : s'.makerTrades = Function.update s.makerTrades hash (some terms))
      (hlog : s'.log = s.log ++ [.offered hash terms])
      (hnone : ∀ swap attempt, ¬input.HandsOver ids keys p swap attempt)
  | claimed (hash : PaymentHash)
      (htrades : s'.makerTrades = Function.update s.makerTrades hash none)
      (hlog : s'.log = s.log ++ [.claimed hash])
      (hnone : ∀ swap attempt, ¬input.HandsOver ids keys p swap attempt)
  | handed (swap : SwapString) (attempt : Attempt) (htrades : s'.makerTrades = s.makerTrades)
      (hlog : s'.log = s.log ++ [.handed swap.terms (s.makerTrades swap.paymentHash) attempt])
      (honly : ∀ swap' attempt', input.HandsOver ids keys p swap' attempt' ↔
        swap' = swap ∧ attempt' = attempt)
  | kept (htrades : s'.alive = true → s'.makerTrades = s.makerTrades) (hlog : s'.log = s.log)
      (hnone : ∀ swap attempt, ¬input.HandsOver ids keys p swap attempt)

theorem makerinitStep_spec (s : MakerState) (fetchPrice : ContractId → Except String ℕ)
    (words : List Text) (calls : MakerCalls) :
    MakerStepSpec ids keys p s (.makerinit fetchPrice words calls)
      (makerinitStep ids p s fetchPrice words calls) := by
  have hnone : ∀ swap attempt,
      ¬(MakerInput.makerinit fetchPrice words calls).HandsOver ids keys p swap attempt :=
    fun _ _ => id
  unfold makerinitStep
  split
  · rename_i trades' offer hinit
    obtain ⟨hash, terms, hoffered, hstored⟩ := makerinit_offeredBy hinit
    rw [hoffered]
    exact .offered hash terms hstored rfl hnone
  · rename_i trades' e hinit
    refine .kept (fun _ => ?_) rfl hnone
    exact makerinit_err hinit
  · exact .kept (fun h => by cases h) rfl hnone

theorem makerexecuteStep_spec (s : MakerState) (words : List Text) (now : ℕ) (calls : ExecuteCalls)
    (answer : Answer) :
    MakerStepSpec ids keys p s (.makerexecute words now calls answer)
      (makerexecuteStep ids keys p s words now calls answer) := by
  have hiff : ∀ swap attempt,
      (MakerInput.makerexecute words now calls answer).HandsOver ids keys p swap attempt ↔
        ∃ args, makerexecuteArgs ids keys p now words = .ok args ∧ args.swapString = swap ∧
          args.attempt calls = .ok attempt := fun _ _ => Iff.rfl
  unfold makerexecuteStep
  cases hargs : makerexecuteArgs ids keys p now words with
  | err e => exact .kept (fun _ => rfl) rfl fun swap attempt => by simp [hiff, hargs]
  | abort => exact .kept (fun _ => rfl) rfl fun swap attempt => by simp [hiff, hargs]
  | ok args =>
    dsimp only
    cases hattempt : args.attempt calls with
    | err e => exact .kept (fun _ => rfl) rfl fun swap attempt => by simp [hiff, hargs, hattempt]
    | abort => exact .kept (fun _ => rfl) rfl fun swap attempt => by simp [hiff, hargs, hattempt]
    | ok attempt =>
      have hhash : attempt.paymentHash = args.swapString.paymentHash :=
        makerExecute_paymentHash hattempt
      refine .handed args.swapString attempt (by simp) (by simp [hhash]) fun swap' attempt' => ?_
      rw [hiff]
      constructor
      · rintro ⟨args', hargs', rfl, hattempt'⟩
        obtain rfl : args = args' := Outcome.ok.inj (hargs.symm.trans hargs')
        exact ⟨rfl, Outcome.ok.inj (hattempt'.symm.trans hattempt)⟩
      · rintro ⟨rfl, rfl⟩
        exact ⟨args, hargs, rfl, hattempt⟩

variable (ids keys p) in
theorem makerStep_spec (halive : s.alive = true) (input : MakerInput) :
    MakerStepSpec ids keys p s input (makerStep ids keys p s input) := by
  unfold makerStep
  rw [if_pos halive]
  cases input with
  | makerinit fetchPrice words calls => exact makerinitStep_spec s fetchPrice words calls
  | makerexecute words now calls answer => exact makerexecuteStep_spec s words now calls answer
  | paymentClaimed ev => exact .claimed ev.paymentHash rfl rfl fun _ _ => id

theorem makerStep_dead (halive : s.alive ≠ true) (input : MakerInput) :
    makerStep ids keys p s input = s := if_neg halive

/-- The trades held are those offered and not claimed since. -/
structure MakerInv (s : MakerState) : Prop where
  held : s.alive = true → s.makerTrades = contents MakerEntry.effect s.log
  offers : OffersOnly s.log

@[simp] theorem offersOnly_concat {log : List MakerEntry} {e : MakerEntry} :
    OffersOnly (log ++ [e]) ↔
      OffersOnly log ∧ ∀ terms held attempt, e = .handed terms held attempt → held = some terms := by
  constructor
  · intro h
    refine ⟨fun terms held attempt hmem => h terms held attempt (by simp [hmem]), ?_⟩
    rintro terms held attempt rfl
    exact h terms held attempt (by simp)
  · rintro ⟨hlog, he⟩ terms held attempt hmem
    rcases List.mem_append.mp hmem with hmem | hmem
    · exact hlog terms held attempt hmem
    · exact he terms held attempt (List.mem_singleton.mp hmem).symm

theorem makerStep_inv (hs : MakerInv s) (hok : input.PastesOffer ids keys p s) :
    MakerInv (makerStep ids keys p s input) := by
  by_cases halive : s.alive = true
  · have hheld := hs.held halive
    have hspec := makerStep_spec ids keys p halive input
    generalize makerStep ids keys p s input = s' at hspec
    cases hspec with
    | offered hash terms htrades hlog hnone =>
      refine ⟨fun _ => ?_, ?_⟩
      · rw [htrades, hlog, contents_concat, hheld]
        rfl
      · rw [hlog, offersOnly_concat]
        exact ⟨hs.offers, fun _ _ _ h => by cases h⟩
    | claimed hash htrades hlog hnone =>
      refine ⟨fun _ => ?_, ?_⟩
      · rw [htrades, hlog, contents_concat, hheld]
        rfl
      · rw [hlog, offersOnly_concat]
        exact ⟨hs.offers, fun _ _ _ h => by cases h⟩
    | handed swap attempt htrades hlog honly =>
      have hstanding := hok halive swap attempt ((honly swap attempt).mpr ⟨rfl, rfl⟩)
      refine ⟨fun _ => ?_, ?_⟩
      · rw [htrades, hlog, contents_concat, hheld]
        rfl
      · rw [hlog, offersOnly_concat]
        refine ⟨hs.offers, ?_⟩
        intro terms held attempt' h
        cases h
        rw [hheld]
        exact (contents_eq_some MakerEntry.effect).mpr hstanding
    | kept htrades hlog hnone =>
      refine ⟨fun h => ?_, ?_⟩
      · rw [htrades h, hlog]
        exact hheld
      · rw [hlog]
        exact hs.offers
  · rw [makerStep_dead halive]
    exact hs

/-- A string that is not the standing offer is executed all the same. -/
theorem makerStep_strays (hs : MakerInv s) (hbad : ¬input.PastesOffer ids keys p s) :
    ¬OffersOnly (makerStep ids keys p s input).log := by
  simp only [MakerInput.PastesOffer, not_forall] at hbad
  obtain ⟨halive, swap, attempt, hhands, hstray⟩ := hbad
  have hspec := makerStep_spec ids keys p halive input
  generalize makerStep ids keys p s input = s' at hspec
  cases hspec with
  | handed swap' attempt' htrades hlog honly =>
    obtain ⟨rfl, rfl⟩ := (honly swap attempt).mp hhands
    rw [hlog, offersOnly_concat]
    rintro ⟨-, honly⟩
    have hheld := honly _ _ _ rfl
    rw [hs.held halive] at hheld
    exact hstray ((contents_eq_some MakerEntry.effect).mp hheld)
  | offered hash terms htrades hlog hnone => exact absurd hhands (hnone swap attempt)
  | claimed hash htrades hlog hnone => exact absurd hhands (hnone swap attempt)
  | kept htrades hlog hnone => exact absurd hhands (hnone swap attempt)

theorem offersOnly_of_step (h : OffersOnly (makerStep ids keys p s input).log) :
    OffersOnly s.log := by
  by_cases halive : s.alive = true
  · have hspec := makerStep_spec ids keys p halive input
    generalize makerStep ids keys p s input = s' at hspec h
    cases hspec with
    | offered hash terms htrades hlog hnone => exact (offersOnly_concat.mp (hlog ▸ h)).1
    | claimed hash htrades hlog hnone => exact (offersOnly_concat.mp (hlog ▸ h)).1
    | handed swap attempt htrades hlog honly => exact (offersOnly_concat.mp (hlog ▸ h)).1
    | kept htrades hlog hnone => exact hlog ▸ h
  · rwa [makerStep_dead halive] at h

/-- Every payment is for a trade held with the pasted terms iff every string that
reaches the hand-over has the terms last offered for its hash and not yet claimed. -/
theorem executes_offers_iff (inputs : List MakerInput) :
    OffersOnly (makerRun ids keys p inputs).log ↔
      EachAfter (fun older input => input.PastesOffer ids keys p (makerRun ids keys p older)) inputs := by
  have hinit : MakerInv .init := ⟨fun _ => rfl, fun _ _ _ h => by cases h⟩
  exact run_exact_last (P := fun s : MakerState => OffersOnly s.log) hinit
    (fun _ _ => makerStep_inv) (fun _ hs => hs.offers) (fun _ _ => makerStep_strays)
    (fun _ _ => offersOnly_of_step) inputs

def hexKeys : PublicKeyText where
  fromSlice := some
  fromStr s := match toVec s with
    | some key => .ok key
    | none => .error "malformed public key"

def oneHopCalls : ExecuteCalls where
  getPaymentPreimage hash secret :=
    if hash = Bytes32.fill 1 ∧ secret = Bytes32.fill 2 then .ok (Bytes32.fill 3) else .error "APIMisuseError"
  listUsableChannels := [⟨[2], some 1, some (40, 1000, 1)⟩]
  ourNodeId := [3]
  findRoute query := some [[⟨1, query.finalValueMsat, none, query.finalValueMsat⟩]]
  isSwapScid := 2 ^ 63

/-- Five units are offered for 2000 each; the string is pasted with a price of 1. -/
def alteredRun : List MakerInput :=
  [.makerinit (fun _ => .error "") offerWords offerCalls,
    .makerexecute [formatSwapString hexIds { offeredArgs with price := 1 } (.buyAsset 5 5) 1700000100
        (Bytes32.fill 1), hexStr (Bytes32.fill 2).val, "02".toList] 1700000000 oneHopCalls (.ok ())]

def alteredPayment : Attempt :=
  ⟨Bytes32.fill 1, none, some 5, some (Bytes32.fill 0x77, 5, none),
    .swap (Bytes32.fill 3) [⟨1, 0, some 5, HTLC_MIN_MSAT⟩, ⟨1 ||| 2 ^ 63, 5, none, 5⟩]⟩

theorem altered_string_executed : ¬OffersOnly (makerRun hexIds hexKeys .dev alteredRun).log := by
  have hhanded : .handed (Bytes32.fill 0x77, .buyAsset 5 5)
      (some (Bytes32.fill 0x77, .buyAsset 5 10000)) alteredPayment ∈
        (makerRun hexIds hexKeys .dev alteredRun).log := by decide
  intro h
  have hheld := h _ _ _ hhanded
  revert hheld
  decide

end RgbLightning.Swap
