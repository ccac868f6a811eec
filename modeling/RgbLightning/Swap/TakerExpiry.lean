import RgbLightning.Swap.TakerValue

/-! # Expiry of whitelisted swaps

`taker` compares the expiry with the clock when the swap string is entered, and
`makerexecute` compares it when the swap is executed. The intercept handler only
sees the terms.
-/
namespace RgbLightning.Swap
open MachineInt Decimal Runs KeyedLog

/-- A forward happens no later than the expiry of the swap string that whitelisted it. -/
def ForwardInTime (older : List TakerEntry) : TakerEntry → Prop
  | .accepted .. => True
  | .intercepted r => r.forwarded = true →
    ∀ swap, Standing TakerEntry.effect r.ev.paymentHash swap older → r.now ≤ swap.expiry

/-- A swap HTLC with the terms of the standing swap string arrives before it expires. -/
def TakerInput.ArrivesInTime (s : TakerState) : TakerInput → Prop
  | taker .. => True
  | htlcIntercepted ev view now => s.alive = true → ev.isSwap = true →
    ∀ swap, Standing TakerEntry.effect ev.paymentHash swap s.log → Passes ev view swap.terms →
      now ≤ swap.expiry

def TakerInput.now : TakerInput → ℕ
  | taker _ now _ _ => now
  | htlcIntercepted _ _ now => now

def ClockRuns (inputs : List TakerInput) : Prop :=
  (inputs.map TakerInput.now).Pairwise (· ≤ ·)

variable {ids : ContractIdText} {p : Profile} {A : SwapString → ℕ → Prop}

theorem handled_forwarded_iff_standing {s : TakerState} (hs : TakerInv A s) (halive : s.alive = true)
    {ev : HTLCIntercepted} {view : ChannelView} {now : ℕ} :
    (handled s ev view now).forwarded = true ↔
      ev.isSwap = true ∧ ∃ swap, Standing TakerEntry.effect ev.paymentHash swap s.log ∧
        Passes ev view swap.terms := by
  rw [handled_forwarded_iff, hs.listed halive]
  apply and_congr_right
  intro _
  constructor
  · rintro ⟨terms, ht, hp⟩
    obtain ⟨swap, hw, rfl⟩ := Option.map_eq_some_iff.mp ht
    exact ⟨swap, (contents_eq_some TakerEntry.effect).mp hw, hp⟩
  · rintro ⟨swap, hw, hp⟩
    refine ⟨swap.terms, ?_, hp⟩
    rw [whitelisting, (contents_eq_some TakerEntry.effect).mpr hw]
    rfl

theorem standing_unique {log : List TakerEntry} {hash : PaymentHash} {swap swap' : SwapString}
    (h : Standing TakerEntry.effect hash swap log) (h' : Standing TakerEntry.effect hash swap' log) :
    swap = swap' := by
  have he := (contents_eq_some TakerEntry.effect).mpr h
  rw [(contents_eq_some TakerEntry.effect).mpr h'] at he
  cases he
  rfl

theorem handled_inTime_iff {s : TakerState} (hs : TakerInv A s) (halive : s.alive = true)
    {ev : HTLCIntercepted} {view : ChannelView} {now : ℕ} :
    ForwardInTime s.log (.intercepted (handled s ev view now)) ↔
      TakerInput.ArrivesInTime s (.htlcIntercepted ev view now) := by
  constructor
  · intro h _ hswap swap hstand hp
    have hfwd : (handled s ev view now).forwarded = true :=
      (handled_forwarded_iff_standing hs halive).mpr ⟨hswap, swap, hstand, hp⟩
    exact h hfwd swap hstand
  · intro h hfwd swap hstand
    obtain ⟨hswap, swap', hstand', hp⟩ := (handled_forwarded_iff_standing hs halive).mp hfwd
    cases standing_unique hstand hstand'
    exact h halive hswap swap hstand hp

theorem takerStep_inTime_iff {s : TakerState} (hs : TakerInv A s) (input : TakerInput) :
    EachAfter ForwardInTime (takerStep ids p s input).log ↔
      EachAfter ForwardInTime s.log ∧ input.ArrivesInTime s := by
  by_cases halive : s.alive = true
  · have hspec := takerStep_spec ids p halive input
    generalize takerStep ids p s input = s' at hspec
    cases hspec with
    | accepted h => simp [ForwardInTime, TakerInput.ArrivesInTime]
    | refused alive => simp [TakerInput.ArrivesInTime]
    | forwarded hlisted hpasses hfwd => rw [eachAfter_concat, handled_inTime_iff hs halive]
    | notForwarded alive trades hsame hfwd => rw [eachAfter_concat, handled_inTime_iff hs halive]
  · rw [takerStep_dead halive]
    cases input with
    | taker words now history unspents => simp [TakerInput.ArrivesInTime]
    | htlcIntercepted ev view now => simp [TakerInput.ArrivesInTime, halive]

/-- In any run no forward is late iff no HTLC with the terms of the standing swap
string arrives after that string has expired. -/
theorem forwards_in_time_iff (inputs : List TakerInput) :
    EachAfter ForwardInTime (takerRun ids p inputs).log ↔
      EachAfter (fun older input => input.ArrivesInTime (takerRun ids p older)) inputs := by
  induction inputs using List.reverseRecOn with
  | nil => simp [takerRun, TakerState.init]
  | append_singleton inputs input ih =>
    rw [eachAfter_concat, ← ih, takerRun, run_concat, ← takerRun]
    exact takerStep_inTime_iff (takerRun_inv_any inputs) input

theorem expired_swap_forwarded :
    ClockRuns (buyRun 200) ∧
    ¬∀ inputs, ClockRuns inputs →
      EachAfter ForwardInTime (takerRun anyContract .release inputs).log := by
  have hclock : ClockRuns (buyRun 200) := by simp [ClockRuns, buyRun, TakerInput.now]
  refine ⟨hclock, fun h => ?_⟩
  have hswap : taker anyContract .release 50 (fun _ => none) [] [shortOffer] =
      .ok ⟨Bytes32.fill 7, .buyAsset 5 5, 100, Bytes32.fill 0⟩ := by decide
  have hfirst : takerRun anyContract .release [.taker [shortOffer] 50 (fun _ => none) []] =
      ⟨Function.update (fun _ => none) (Bytes32.fill 0) (some (Bytes32.fill 7, .buyAsset 5 5)),
        true, [.accepted ⟨Bytes32.fill 7, .buyAsset 5 5, 100, Bytes32.fill 0⟩ 50]⟩ := by
    simp [takerRun, run, takerStep, TakerState.init, hswap, SwapString.terms]
  have hlog : (takerRun anyContract .release (buyRun 200)).log =
      [.accepted ⟨Bytes32.fill 7, .buyAsset 5 5, 100, Bytes32.fill 0⟩ 50] ++
        [.intercepted (handled (takerRun anyContract .release [.taker [shortOffer] 50 (fun _ => none) []])
          buyHtlc colouredInbound 200)] := by
    rw [buyRun, takerRun, ← List.singleton_append, run_concat, ← takerRun, hfirst]
    rfl
  have hterms : (takerRun anyContract .release [.taker [shortOffer] 50 (fun _ => none) []]).whitelistedTrades
      buyHtlc.paymentHash = some (Bytes32.fill 7, .buyAsset 5 5) := by
    rw [hfirst]
    rfl
  have hfwd : (handled (takerRun anyContract .release [.taker [shortOffer] 50 (fun _ => none) []])
      buyHtlc colouredInbound 200).forwarded = true :=
    handled_forwarded_iff.mpr ⟨rfl, _, hterms, by decide⟩
  have hlate := h (buyRun 200) hclock _ _ [] hlog hfwd _ ⟨[], _, [], rfl, rfl, by simp⟩
  revert hlate
  decide

end RgbLightning.Swap
