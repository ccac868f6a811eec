import RgbLightning.Swap.MakerOffers
import RgbLightning.Swap.TakerWhitelist

/-! # The maker and the taker together

The two nodes only share the swap strings that `makerinit` prints. What is whitelisted,
forwarded and paid is what was offered under the hash, whichever builds the two run.
-/
namespace RgbLightning.Swap
open MachineInt Decimal HexUtils Rgb Runs KeyedLog Payment

section Printed
variable {ids : ContractIdText} {args : MakerArgs} {swaptype swaptype' : SwapType} {expiry : ℕ}
  {hash : PaymentHash} {p p' : Profile} {invalid invalid' : String} {side : Text} {amount price : ℕ}

/-- A printed string that can be read at all is read as it was printed. -/
theorem eq_of_parseParts_printedParts (hids : ids.RoundTrips) {parts : SwapParts}
    (h : parseParts ids (printedParts ids args swaptype expiry hash) = .ok parts) :
    parts = ⟨args.amtAsset, args.assetId, swaptype.side, args.price, expiry, hash⟩ := by
  simp only [printedParts, parseParts, hids.fromStr_display, toBytes32_hexStr] at h
  split at h
  · rename_i amount assetId price expiry' hash' hamount hid hprice hexpiry hhash
    split at h
    · cases h
    · cases h
      cases hid
      cases hhash
      rw [eq_of_parseUnsigned_toDigits hamount, eq_of_parseUnsigned_toDigits hprice,
        eq_of_parseUnsigned_toDigits hexpiry]
  · cases h

theorem ofSide_amountMsats (h : SwapType.ofSide p invalid side amount price = .ok swaptype) :
    swaptype.amountMsats = amount * price % 2 ^ u64 := by
  unfold SwapType.ofSide at h
  split at h
  · obtain ⟨m, hm, he⟩ := Outcome.bind_eq_ok.mp h
    cases he
    exact eq_mod_of_narrow (Outcome.ofOption_eq_ok.mp hm)
  · split at h
    · obtain ⟨m, hm, he⟩ := Outcome.bind_eq_ok.mp h
      cases he
      exact eq_mod_of_narrow (Outcome.ofOption_eq_ok.mp hm)
    · cases h

/-- The product is computed twice, and comes out the same or not at all. -/
theorem ofSide_side_eq (h : SwapType.ofSide p invalid side amount price = .ok swaptype)
    (h' : SwapType.ofSide p' invalid' swaptype.side amount price = .ok swaptype') :
    swaptype' = swaptype := by
  have hproduct := ofSide_amountMsats h
  have hproduct' := ofSide_amountMsats h'
  rcases ofSide_eq_ok h with ⟨-, htype⟩ | ⟨-, -, htype⟩
  · rw [htype] at h'
    rcases ofSide_eq_ok h' with ⟨-, htype'⟩ | ⟨hne, -⟩
    · rw [htype, htype', hproduct, hproduct']
    · exact absurd rfl hne
  · rw [htype] at h'
    rcases ofSide_eq_ok h' with ⟨hbuy, -⟩ | ⟨-, -, htype'⟩
    · exact absurd (show "sell".toList = "buy".toList from hbuy) (by decide)
    · rw [htype, htype', hproduct, hproduct']

end Printed

variable (ids : ContractIdText) (keys : PublicKeyText)

structure TwoParties where
  maker : MakerState
  taker : TakerState
  printed : List Text

def TwoParties.init : TwoParties := ⟨.init, .init, []⟩

inductive PartyInput where
  | maker (input : MakerInput)
  | taker (input : TakerInput)

/-- The swap string that a successful `makerinit` prints. -/
def printedBy (p : Profile) (s : MakerState) : MakerInput → Option Text
  | .makerinit fetchPrice words calls =>
    if s.alive then
      match (makerinit ids fetchPrice p calls words s.makerTrades).2 with
      | .ok offer => some offer.swapString
      | _ => none
    else none
  | .makerexecute .. | .paymentClaimed _ => none

/-- The maker runs with the first profile and the taker with the second. -/
def partyStep (p p' : Profile) (s : TwoParties) : PartyInput → TwoParties
  | .maker input => { s with
    maker := makerStep ids keys p s.maker input
    printed := s.printed ++ (printedBy ids p s.maker input).toList }
  | .taker input => { s with taker := takerStep ids p' s.taker input }

def partyRun (p p' : Profile) (inputs : List PartyInput) : TwoParties :=
  run (partyStep ids keys p p') .init inputs

/-- The string pasted into a command is one that was printed. -/
def PartyInput.PastesPrinted (printed : List Text) : PartyInput → Prop
  | maker (.makerexecute (swapstring :: _) ..) | taker (.taker (swapstring :: _) ..) => swapstring ∈ printed
  | _ => True

variable {ids keys} {p p' : Profile}

/-- The terms read from a text are among those offered. -/
def ReadsOffered (ids : ContractIdText) (log : List MakerEntry) (text : Text) : Prop :=
  ∀ q swap, fromStr ids q text = .ok swap → .offered swap.paymentHash swap.terms ∈ log

theorem readsOffered_formatSwapString (hids : ids.RoundTrips) {args : MakerArgs} {swaptype : SwapType}
    (htype : makerSwapType p args = .ok swaptype) (expiry : ℕ) {hash : PaymentHash} {log : List MakerEntry}
    (hlog : .offered hash (args.assetId, swaptype) ∈ log) :
    ReadsOffered ids log (formatSwapString ids args swaptype expiry hash) := by
  intro q swap hread
  rw [fromStr, splitOn_formatSwapString hids] at hread
  obtain ⟨parts, hparts, hread⟩ := Outcome.bind_eq_ok.mp hread
  obtain rfl := eq_of_parseParts_printedParts hids (Outcome.ofExcept_eq_ok.mp hparts)
  obtain ⟨swaptype', hside, hswap⟩ := Outcome.bind_eq_ok.mp hread
  obtain rfl := ofSide_side_eq htype hside
  cases hswap
  exact hlog

theorem ReadsOffered.append {log : List MakerEntry} {text : Text} (h : ReadsOffered ids log text)
    (entries : List MakerEntry) : ReadsOffered ids (log ++ entries) text :=
  fun q swap hread => List.mem_append_left _ (h q swap hread)

/-- What a step prints is read as what it has logged. -/
theorem printedBy_readsOffered (hids : ids.RoundTrips) (s : MakerState) (input : MakerInput) {text : Text}
    (h : printedBy ids p s input = some text) :
    ReadsOffered ids (makerStep ids keys p s input).log text := by
  cases input with
  | makerexecute words now calls answer => cases h
  | paymentClaimed ev => cases h
  | makerinit fetchPrice words calls =>
    simp only [printedBy] at h
    split at h
    · rename_i halive
      simp only [makerStep, if_pos halive, makerinitStep]
      generalize hinit : makerinit ids fetchPrice p calls words s.makerTrades = x at h ⊢
      obtain ⟨trades', outcome⟩ := x
      cases outcome with
      | ok offer =>
        cases h
        obtain ⟨args, swaptype, hash, secret, expiry, hargs, htype, hcreate, -, -, hprinted⟩ :=
          makerinit_eq_ok hinit
        have hoffered : offeredBy ids p fetchPrice words calls = .ok (hash, (args.assetId, swaptype)) := by
          simp [offeredBy, hargs, htype, hcreate]
        rw [hprinted, hoffered]
        exact readsOffered_formatSwapString hids htype expiry (by simp)
      | err e => cases h
      | abort => cases h
    · cases h

theorem makerexecuteArgs_fromStr {now : ℕ} {words : List Text} {args : ExecuteArgs}
    (h : makerexecuteArgs ids keys p now words = .ok args) :
    ∃ swapstring rest, words = swapstring :: rest ∧ fromStr ids p swapstring = .ok args.swapString := by
  unfold makerexecuteArgs at h
  split at h
  · rename_i swapstring paymentSecret peerPubkey rest
    refine ⟨swapstring, _, rfl, ?_⟩
    cases hread : fromStr ids p swapstring with
    | abort => simp [hread] at h
    | err e => simp [hread] at h
    | ok swap =>
      simp only [hread] at h
      split at h
      · cases h
      · split at h
        · cases h
        · split at h
          · cases h
          · cases h
            rfl
  · cases h

theorem taker_fromStr {now : ℕ} {history : History ℕ} {unspents : List OutPoint} {words : List Text}
    {swap : SwapString} (h : taker ids p now history unspents words = .ok swap) :
    ∃ swapstring rest, words = swapstring :: rest ∧ fromStr ids p swapstring = .ok swap := by
  obtain ⟨swap', hread, h⟩ := Outcome.bind_eq_ok.mp h
  obtain ⟨-, -, h⟩ := Outcome.bind_eq_ok.mp h
  cases h
  unfold takerSwapString at hread
  split at hread
  · cases hread
  · rename_i swapstring rest
    refine ⟨swapstring, rest, rfl, ?_⟩
    cases hstr : fromStr ids p swapstring with
    | abort => simp [hstr] at hread
    | err e => simp [hstr] at hread
    | ok swap' =>
      simp only [hstr] at hread
      split at hread
      · cases hread
      · exact hread

/-- Everything that either node holds, forwards or pays was offered. -/
structure PartyInv (ids : ContractIdText) (s : TwoParties) : Prop where
  printed : ∀ text ∈ s.printed, ReadsOffered ids s.maker.log text
  held : s.maker.alive = true → ∀ hash terms, s.maker.makerTrades hash = some terms →
    .offered hash terms ∈ s.maker.log
  handed : ∀ terms held attempt, .handed terms held attempt ∈ s.maker.log →
    .offered attempt.paymentHash terms ∈ s.maker.log
  whitelisted : s.taker.alive = true → ∀ hash terms, s.taker.whitelistedTrades hash = some terms →
    .offered hash terms ∈ s.maker.log
  forwarded : ∀ r, .intercepted r ∈ s.taker.log → r.forwarded = true →
    ∃ terms, .offered r.ev.paymentHash terms ∈ s.maker.log ∧ Passes r.ev r.view terms

theorem PartyInv.taker {s : TwoParties} (hs : PartyInv ids s) {input : TakerInput}
    (hpasted : (PartyInput.taker input).PastesPrinted s.printed) :
    PartyInv ids { s with taker := takerStep ids p' s.taker input } := by
  by_cases halive : s.taker.alive = true
  · have hspec := takerStep_spec ids p' halive input
    generalize takerStep ids p' s.taker input = t at hspec
    suffices h : (t.alive = true → ∀ hash terms, t.whitelistedTrades hash = some terms →
        .offered hash terms ∈ s.maker.log) ∧ ∀ r, .intercepted r ∈ t.log → r.forwarded = true →
        ∃ terms, .offered r.ev.paymentHash terms ∈ s.maker.log ∧ Passes r.ev r.view terms from
      ⟨hs.printed, hs.held, hs.handed, h.1, h.2⟩
    have hwhitelisted := hs.whitelisted halive
    cases hspec with
    | @accepted words now history unspents swap htaker =>
      obtain ⟨swapstring, rest, rfl, hread⟩ := taker_fromStr htaker
      have hoffered := hs.printed swapstring hpasted p' swap hread
      refine ⟨fun _ hash terms hlisted => ?_, fun r hr => ?_⟩
      · dsimp only at hlisted
        by_cases heq : hash = swap.paymentHash
        · subst heq
          rw [Function.update_self, Option.some.injEq] at hlisted
          rwa [← hlisted]
        · rw [Function.update_of_ne heq] at hlisted
          exact hwhitelisted hash terms hlisted
      · exact hs.forwarded r (by simpa using hr)
    | refused alive => exact ⟨fun _ => hwhitelisted, hs.forwarded⟩
    | @forwarded ev view now terms hlisted hpasses hfwd =>
      refine ⟨fun _ hash terms' hlisted' => ?_, fun r hr hr' => ?_⟩
      · dsimp only at hlisted'
        by_cases heq : hash = ev.paymentHash
        · simp [heq] at hlisted'
        · rw [Function.update_of_ne heq] at hlisted'
          exact hwhitelisted hash terms' hlisted'
      · rcases List.mem_append.mp hr with hr | hr
        · exact hs.forwarded r hr hr'
        · cases List.mem_singleton.mp hr
          exact ⟨terms, hwhitelisted _ _ hlisted, hpasses⟩
    | @notForwarded ev view now alive trades hsame hfwd =>
      refine ⟨fun ha hash terms hlisted => ?_, fun r hr hr' => ?_⟩
      · rw [hsame (.inr ha)] at hlisted
        exact hwhitelisted hash terms hlisted
      · rcases List.mem_append.mp hr with hr | hr
        · exact hs.forwarded r hr hr'
        · cases List.mem_singleton.mp hr
          rw [hfwd] at hr'
          cases hr'
  · rw [takerStep_dead halive]
    exact hs

theorem makerStep_log (s : MakerState) (input : MakerInput) :
    ∃ entries, (makerStep ids keys p s input).log = s.log ++ entries := by
  by_cases halive : s.alive = true
  · have hspec := makerStep_spec ids keys p halive input
    generalize makerStep ids keys p s input = s' at hspec
    cases hspec with
    | offered hash terms htrades hlog hnone => exact ⟨_, hlog⟩
    | claimed hash htrades hlog hnone => exact ⟨_, hlog⟩
    | handed swap attempt htrades hlog honly => exact ⟨_, hlog⟩
    | kept htrades hlog hnone => exact ⟨[], by rw [hlog, List.append_nil]⟩
  · exact ⟨[], by rw [makerStep_dead halive, List.append_nil]⟩

/-- What the step of the maker does to what he holds and has paid. -/
theorem PartyInv.makerStep {s : TwoParties} (hs : PartyInv ids s) {input : MakerInput}
    (hpasted : (PartyInput.maker input).PastesPrinted s.printed) (halive : s.maker.alive = true)
    {s' : MakerState} (hspec : MakerStepSpec ids keys p s.maker input s') :
    (s'.alive = true → ∀ hash terms, s'.makerTrades hash = some terms → .offered hash terms ∈ s'.log) ∧
      ∀ terms held attempt, .handed terms held attempt ∈ s'.log →
        .offered attempt.paymentHash terms ∈ s'.log := by
  have hheld := hs.held halive
  cases hspec with
  | offered hash terms htrades hlog hnone =>
    rw [htrades, hlog]
    refine ⟨fun _ hash' terms' htrade => ?_, fun terms' held attempt hmem => ?_⟩
    · by_cases heq : hash' = hash
      · subst heq
        rw [Function.update_self, Option.some.injEq] at htrade
        simp [htrade]
      · rw [Function.update_of_ne heq] at htrade
        exact List.mem_append_left _ (hheld hash' terms' htrade)
    · exact List.mem_append_left _ (hs.handed terms' held attempt (by simpa using hmem))
  | claimed hash htrades hlog hnone =>
    rw [htrades, hlog]
    refine ⟨fun _ hash' terms' htrade => ?_, fun terms' held attempt hmem => ?_⟩
    · by_cases heq : hash' = hash
      · simp [heq] at htrade
      · rw [Function.update_of_ne heq] at htrade
        exact List.mem_append_left _ (hheld hash' terms' htrade)
    · exact List.mem_append_left _ (hs.handed terms' held attempt (by simpa using hmem))
  | handed swap attempt htrades hlog honly =>
    rw [htrades, hlog]
    refine ⟨fun _ hash' terms' htrade => List.mem_append_left _ (hheld hash' terms' htrade), ?_⟩
    intro terms' held attempt' hmem
    rcases List.mem_append.mp hmem with hmem | hmem
    · exact List.mem_append_left _ (hs.handed terms' held attempt' hmem)
    · -- the payment is for the string that was pasted
      cases List.mem_singleton.mp hmem
      have hhands := (honly swap attempt).mpr ⟨rfl, rfl⟩
      cases input with
      | makerexecute words now calls answer =>
        obtain ⟨args, hargs, rfl, hattempt⟩ := hhands
        obtain ⟨swapstring, rest, rfl, hread⟩ := makerexecuteArgs_fromStr hargs
        have hoffered := hs.printed swapstring hpasted p _ hread
        rw [makerExecute_paymentHash hattempt]
        exact List.mem_append_left _ hoffered
      | makerinit fetchPrice words calls => exact hhands.elim
      | paymentClaimed ev => exact hhands.elim
  | kept htrades hlog hnone =>
    rw [hlog]
    refine ⟨fun ha hash terms htrade => ?_, hs.handed⟩
    rw [htrades ha] at htrade
    exact hheld hash terms htrade

theorem PartyInv.maker (hids : ids.RoundTrips) {s : TwoParties} (hs : PartyInv ids s) {input : MakerInput}
    (hpasted : (PartyInput.maker input).PastesPrinted s.printed) :
    PartyInv ids (partyStep ids keys p p' s (.maker input)) := by
  by_cases halive : s.maker.alive = true
  · obtain ⟨hheld, hhanded⟩ := hs.makerStep hpasted halive (makerStep_spec ids keys p halive input)
    obtain ⟨entries, hlog⟩ : ∃ entries, (Swap.makerStep ids keys p s.maker input).log =
        s.maker.log ++ entries := makerStep_log s.maker input
    have hgrow : ∀ e ∈ s.maker.log, e ∈ (Swap.makerStep ids keys p s.maker input).log := by
      intro e he
      rw [hlog]
      exact List.mem_append_left _ he
    refine ⟨fun text htext => ?_, hheld, hhanded, fun ha hash terms h => ?_, fun r hr hfwd => ?_⟩
    · rcases List.mem_append.mp htext with htext | htext
      · exact fun q swap hread => hgrow _ (hs.printed text htext q swap hread)
      · exact printedBy_readsOffered hids s.maker input (by simpa using htext)
    · exact hgrow _ (hs.whitelisted ha hash terms h)
    · obtain ⟨terms, hoffered, hpasses⟩ := hs.forwarded r hr hfwd
      exact ⟨terms, hgrow _ hoffered, hpasses⟩
  · have hsame : partyStep ids keys p p' s (.maker input) = s := by
      have hnone : printedBy ids p s.maker input = none := by
        cases input <;> simp [printedBy, halive]
      simp [partyStep, makerStep_dead halive, hnone]
    rw [hsame]
    exact hs

theorem partyInv_init : PartyInv ids .init where
  printed _ h := by cases h
  held _ _ _ h := by cases h
  handed _ _ _ h := by cases h
  whitelisted _ _ _ h := by cases h
  forwarded _ h := by cases h

theorem partyRun_inv (hids : ids.RoundTrips) (inputs : List PartyInput)
    (hpasted : EachAfter (fun older input => input.PastesPrinted (partyRun ids keys p p' older).printed) inputs) :
    PartyInv ids (partyRun ids keys p p' inputs) := by
  induction inputs using List.reverseRecOn with
  | nil => exact partyInv_init
  | append_singleton inputs input ih =>
    obtain ⟨hbefore, hinput⟩ := eachAfter_concat.mp hpasted
    rw [partyRun, run_concat, ← partyRun]
    cases input with
    | maker input => exact (ih hbefore).maker hids hinput
    | taker input => exact (ih hbefore).taker hinput

def MakerEntry.offeredHash : MakerEntry → Option PaymentHash
  | offered hash _ => some hash
  | handed .. | claimed _ => none

theorem offered_unique {log : List MakerEntry} (h : (log.filterMap MakerEntry.offeredHash).Nodup)
    {hash : PaymentHash} {terms terms' : Terms} (hterms : .offered hash terms ∈ log)
    (hterms' : .offered hash terms' ∈ log) : terms = terms' := by
  by_contra hne
  have hsymm : Std.Symm fun e e' : MakerEntry =>
      ∀ k, e.offeredHash = some k → ∀ k', e'.offeredHash = some k' → k ≠ k' :=
    ⟨fun e e' h k hk k' hk' => (h k' hk' k hk).symm⟩
  have hapart := (List.pairwise_filterMap.mp h).forall hterms hterms' fun heq => hne (by cases heq; rfl)
  exact hapart hash rfl hash rfl rfl

/-- As long as only printed strings are pasted and every offer has a hash of its own, the
two nodes hold the same terms for a hash, and what the taker forwards and the maker
pays under one hash are the terms that were offered for it. -/
theorem parties_agree (hids : ids.RoundTrips) (inputs : List PartyInput)
    (hpasted : EachAfter (fun older input => input.PastesPrinted (partyRun ids keys p p' older).printed) inputs)
    (hfresh : ((partyRun ids keys p p' inputs).maker.log.filterMap MakerEntry.offeredHash).Nodup) :
    let s := partyRun ids keys p p' inputs
    (s.maker.alive = true → s.taker.alive = true → ∀ hash terms terms',
      s.maker.makerTrades hash = some terms → s.taker.whitelistedTrades hash = some terms' →
        terms = terms') ∧
    (∀ r, .intercepted r ∈ s.taker.log → r.forwarded = true →
      ∃ terms, .offered r.ev.paymentHash terms ∈ s.maker.log ∧ Passes r.ev r.view terms) ∧
    ∀ terms held attempt, .handed terms held attempt ∈ s.maker.log →
      .offered attempt.paymentHash terms ∈ s.maker.log ∧
      ∀ r, .intercepted r ∈ s.taker.log → r.forwarded = true → r.ev.paymentHash = attempt.paymentHash →
        Passes r.ev r.view terms := by
  intro s
  have hinv : PartyInv ids s := partyRun_inv hids inputs hpasted
  refine ⟨fun hmaker htaker hash terms terms' hheld hlisted => ?_, hinv.forwarded,
    fun terms held attempt hhanded => ⟨hinv.handed terms held attempt hhanded, fun r hr hfwd heq => ?_⟩⟩
  · exact offered_unique hfresh (hinv.held hmaker hash terms hheld) (hinv.whitelisted htaker hash terms' hlisted)
  · obtain ⟨terms', hoffered, hpasses⟩ := hinv.forwarded r hr hfwd
    have hpaid := hinv.handed terms held attempt hhanded
    rw [heq] at hoffered
    rwa [offered_unique hfresh hpaid hoffered]

instance (printed : List Text) : (input : PartyInput) → Decidable (input.PastesPrinted printed)
  | .maker (.makerexecute (swapstring :: _) ..) | .taker (.taker (swapstring :: _) ..) =>
    inferInstanceAs (Decidable (swapstring ∈ printed))
  | .maker (.makerexecute [] ..) | .taker (.taker [] ..) | .maker (.makerinit ..)
  | .maker (.paymentClaimed _) | .taker (.htlcIntercepted ..) => inferInstanceAs (Decidable True)

def dealHtlc : HTLCIntercepted where
  isSwap := true
  paymentHash := .fill 1
  interceptId := .fill 9
  inboundAmountMsat := HTLC_MIN_MSAT
  expectedOutboundAmountMsat := 10000
  inboundRgbAmount := some 5
  expectedOutboundRgbAmount := none
  requestedNextHopScid := 2
  prevShortChannelId := 1

def dealView : ChannelView where
  inboundListing := [⟨.fill 4, some 1⟩, ⟨.fill 5, some 2⟩]
  outboundListing := [⟨.fill 4, some 1⟩, ⟨.fill 5, some 2⟩]
  rgbInfo id := if id = .fill 4 then some ⟨.fill 0x77, 10, 10⟩ else none

/-- The offer is pasted by both, and the taker forwards the payment. -/
def dealRun : List PartyInput :=
  [.maker (.makerinit (fun _ => .error "") offerWords offerCalls),
    .taker (.taker [offered.swapString] 1700000000 (fun _ => none) []),
    .maker (.makerexecute [offered.swapString, offered.paymentSecret, "02".toList] 1700000000
      oneHopCalls (.ok ())),
    .taker (.htlcIntercepted dealHtlc dealView 1700000000)]

theorem parties_agree_dealRun :
    ∃ terms, .offered dealHtlc.paymentHash terms ∈ (partyRun hexIds hexKeys .dev .release dealRun).maker.log ∧
      Passes dealHtlc dealView terms :=
  (parties_agree hexIds_roundTrips dealRun (by decide) (by decide)).2.1
    ⟨dealHtlc, dealView, 1700000000, some (.fill 0x77, .buyAsset 5 10000), true,
      [.forwardInterceptedHtlc (.fill 9) 2 10000 none]⟩ (List.mem_of_getElem? (i := 1) rfl) rfl

end RgbLightning.Swap
