import RgbLightning.Swap.Commands

/-! # The `HTLCIntercepted` event

The handler answers an intercepted HTLC through the channel manager, which
accepts the first answer for a pending intercept and refuses every later one.
A refused answer is unwrapped, hence an abort.
-/
namespace RgbLightning.Swap
open MachineInt Decimal

abbrev InterceptId := Bytes32

structure HTLCIntercepted where
  isSwap : Bool
  paymentHash : PaymentHash
  interceptId : InterceptId
  inboundAmountMsat : ℕ
  expectedOutboundAmountMsat : ℕ
  inboundRgbAmount : Option ℕ
  expectedOutboundRgbAmount : Option ℕ
  requestedNextHopScid : ℕ
  prevShortChannelId : ℕ
  deriving DecidableEq

structure ChannelDetails where
  channelId : ChannelId
  shortChannelId : Option ℕ
  deriving DecidableEq

/-- What the handler looks up: the channels are listed once for each side, and a
channel is coloured when its info file exists. -/
structure ChannelView where
  inboundListing : List ChannelDetails
  outboundListing : List ChannelDetails
  rgbInfo : ChannelId → Option RgbInfo

inductive Call where
  | failInterceptedHtlc (id : InterceptId)
  | forwardInterceptedHtlc (id : InterceptId) (nextHopScid amtMsat : ℕ) (amtRgb : Option ℕ)
  deriving DecidableEq

def Call.interceptId : Call → InterceptId
  | failInterceptedHtlc id => id
  | forwardInterceptedHtlc id .. => id

structure HandlerState where
  whitelistedTrades : Trades
  pending : InterceptId → Bool
  calls : List Call

/-- Errors are panic messages; the state at the panic is kept. -/
abbrev Handler := EStateM String HandlerState

/-- Answer through the channel manager and unwrap its result. -/
def resolve (call : Call) (panicMessage : String) : Handler Unit := fun s =>
  let s' := { s with
    calls := s.calls ++ [call]
    pending := Function.update s.pending call.interceptId false }
  if s.pending call.interceptId then .ok () s' else .error panicMessage s'

def failInterceptedHtlc (id : InterceptId) : Handler Unit :=
  resolve (.failInterceptedHtlc id) "called `Result::unwrap()` on an `Err` value"

def forwardInterceptedHtlc (ev : HTLCIntercepted) : Handler Unit :=
  resolve (.forwardInterceptedHtlc ev.interceptId ev.requestedNextHopScid
    ev.expectedOutboundAmountMsat ev.expectedOutboundRgbAmount) "Forward should be valid"

def channelByScid (listing : List ChannelDetails) (scid : ℕ) : Option ChannelDetails :=
  listing.find? fun details => details.shortChannelId = some scid

def expectChannel (listing : List ChannelDetails) (scid : ℕ) : Handler ChannelDetails :=
  match channelByScid listing scid with
  | some details => pure details
  | none => throw "Should always be a valid channel"

/-- The amounts given out net of the ones received. A node receiving an RGB
payment also receives `HTLC_MIN_MSAT` with it. Subtraction saturates. -/
def netMsatDiff (ev : HTLCIntercepted) : SwapType → ℕ
  | .buyAsset .. => ev.expectedOutboundAmountMsat - (ev.inboundAmountMsat - HTLC_MIN_MSAT)
  | .sellAsset .. => ev.inboundAmountMsat - ev.expectedOutboundAmountMsat

/-- The rejecting condition of the two match arms. -/
def Mismatch (ev : HTLCIntercepted) (inboundRgbInfo outboundRgbInfo : Option RgbInfo) :
    Terms → Prop
  | (whitelistContractId, .buyAsset amountRgb amountMsats) =>
    ev.inboundRgbAmount ≠ some amountRgb
      ∨ inboundRgbInfo.map RgbInfo.contractId ≠ some whitelistContractId
      ∨ netMsatDiff ev (.buyAsset amountRgb amountMsats) ≠ amountMsats
      ∨ outboundRgbInfo.isSome
  | (whitelistContractId, .sellAsset amountRgb amountMsats) =>
    ev.expectedOutboundRgbAmount ≠ some amountRgb
      ∨ outboundRgbInfo.map RgbInfo.contractId ≠ some whitelistContractId
      ∨ netMsatDiff ev (.sellAsset amountRgb amountMsats) ≠ amountMsats
      ∨ inboundRgbInfo.isSome

instance (ev : HTLCIntercepted) (i o : Option RgbInfo) (t : Terms) : Decidable (Mismatch ev i o t) :=
  match t with
  | (_, .buyAsset ..) => inferInstanceAs (Decidable (_ ∨ _))
  | (_, .sellAsset ..) => inferInstanceAs (Decidable (_ ∨ _))

def swapChecks (ev : HTLCIntercepted) (view : ChannelView) : Handler Unit := do
  let inboundChannel ← expectChannel view.inboundListing ev.prevShortChannelId
  let outboundChannel ← expectChannel view.outboundListing ev.requestedNextHopScid
  let inboundRgbInfo := view.rgbInfo inboundChannel.channelId
  let outboundRgbInfo := view.rgbInfo outboundChannel.channelId
  match (← get).whitelistedTrades ev.paymentHash with
  | none => failInterceptedHtlc ev.interceptId
  | some terms =>
    if Mismatch ev inboundRgbInfo outboundRgbInfo terms then
      failInterceptedHtlc ev.interceptId
    else
      modify fun s =>
        { s with whitelistedTrades := Function.update s.whitelistedTrades ev.paymentHash none }
      forwardInterceptedHtlc ev

/-- `handle_ldk_events` on `Event::HTLCIntercepted`. -/
def handleHtlcIntercepted (ev : HTLCIntercepted) (view : ChannelView) : Handler Unit := do
  if !ev.isSwap then
    failInterceptedHtlc ev.interceptId
  -- there is no return here: a failed non-swap HTLC goes on into the swap checks
  swapChecks ev view

/-- The decision the swap checks come to. -/
inductive Verdict where
  | noChannel
  | notWhitelisted
  | mismatch
  | forward (terms : Terms) (inboundRgbInfo outboundRgbInfo : Option RgbInfo)
  deriving DecidableEq

def verdict (ev : HTLCIntercepted) (view : ChannelView) (whitelistedTrades : Trades) : Verdict :=
  match channelByScid view.inboundListing ev.prevShortChannelId,
      channelByScid view.outboundListing ev.requestedNextHopScid with
  | some inbound, some outbound =>
    match whitelistedTrades ev.paymentHash with
    | none => .notWhitelisted
    | some terms =>
      if Mismatch ev (view.rgbInfo inbound.channelId) (view.rgbInfo outbound.channelId) terms then
        .mismatch
      else .forward terms (view.rgbInfo inbound.channelId) (view.rgbInfo outbound.channelId)
  | _, _ => .noChannel

def Verdict.trades (ev : HTLCIntercepted) (trades : Trades) : Verdict → Trades
  | forward .. => Function.update trades ev.paymentHash none
  | _ => trades

def Verdict.call (ev : HTLCIntercepted) : Verdict → Option Call
  | noChannel => none
  | notWhitelisted | mismatch => some (.failInterceptedHtlc ev.interceptId)
  | forward .. => some (.forwardInterceptedHtlc ev.interceptId ev.requestedNextHopScid
      ev.expectedOutboundAmountMsat ev.expectedOutboundRgbAmount)

def HandlerState.fresh (trades : Trades) (ev : HTLCIntercepted) : HandlerState :=
  ⟨trades, fun id => decide (id = ev.interceptId), []⟩

/-- How the handler ends: with a normal return or with a panic, and the calls made. -/
structure Handled where
  returned : Bool
  whitelistedTrades : Trades
  calls : List Call

def runHandler (ev : HTLCIntercepted) (view : ChannelView) (trades : Trades) : Handled :=
  match handleHtlcIntercepted ev view (.fresh trades ev) with
  | .ok _ s => ⟨true, s.whitelistedTrades, s.calls⟩
  | .error _ s => ⟨false, s.whitelistedTrades, s.calls⟩

variable {ev : HTLCIntercepted} {view : ChannelView} {trades : Trades}

/-- The swap checks run as their verdict says, in any state. -/
theorem swapChecks_run (s : HandlerState) :
    swapChecks ev view s =
      match verdict ev view s.whitelistedTrades with
      | .noChannel => .error "Should always be a valid channel" s
      | .notWhitelisted | .mismatch => failInterceptedHtlc ev.interceptId s
      | .forward .. => forwardInterceptedHtlc ev
          { s with whitelistedTrades := Function.update s.whitelistedTrades ev.paymentHash none } := by
  unfold swapChecks verdict expectChannel
  cases channelByScid view.inboundListing ev.prevShortChannelId with
  | none => rfl
  | some inbound =>
    cases channelByScid view.outboundListing ev.requestedNextHopScid with
    | none => rfl
    | some outbound =>
      have hget : (get : Handler HandlerState) s = .ok s s := rfl
      simp only [bind, EStateM.bind, pure, EStateM.pure, hget]
      cases hw : s.whitelistedTrades ev.paymentHash with
      | none => rfl
      | some terms =>
        by_cases hm : Mismatch ev (view.rgbInfo inbound.channelId)
            (view.rgbInfo outbound.channelId) terms
        · simp only [if_pos hm]
        · simp only [if_neg hm]
          rfl

/-- An answer is accepted exactly when its intercept is still pending. -/
theorem resolve_run (call : Call) (m : String) (s : HandlerState) :
    resolve call m s =
      if s.pending call.interceptId then
        .ok () { s with
          calls := s.calls ++ [call], pending := Function.update s.pending call.interceptId false }
      else .error m { s with
          calls := s.calls ++ [call], pending := Function.update s.pending call.interceptId false } := rfl

/-- A swap HTLC is answered as its verdict says, and not at all without channels. -/
theorem runHandler_swap (h : ev.isSwap = true) :
    runHandler ev view trades =
      ⟨((verdict ev view trades).call ev).isSome, (verdict ev view trades).trades ev trades,
        ((verdict ev view trades).call ev).toList⟩ := by
  have hrun : handleHtlcIntercepted ev view = swapChecks ev view := by
    simp [handleHtlcIntercepted, h]
  rw [runHandler, hrun, swapChecks_run, HandlerState.fresh]
  cases verdict ev view trades <;>
    simp [failInterceptedHtlc, forwardInterceptedHtlc, resolve_run, Verdict.call, Verdict.trades,
      Call.interceptId]

/-- A non-swap HTLC is failed and then handled again: whatever the swap checks
decide, the handler never returns. -/
theorem runHandler_nonSwap (h : ev.isSwap = false) :
    runHandler ev view trades =
      ⟨false, (verdict ev view trades).trades ev trades,
        .failInterceptedHtlc ev.interceptId :: ((verdict ev view trades).call ev).toList⟩ := by
  have hrun : handleHtlcIntercepted ev view (.fresh trades ev) = swapChecks ev view
      ⟨trades, fun _ => false, [.failInterceptedHtlc ev.interceptId]⟩ := by
    have hp : Function.update (fun id => decide (id = ev.interceptId)) ev.interceptId false =
        fun _ => false := by
      funext id
      by_cases hid : id = ev.interceptId <;> simp [hid]
    simp [handleHtlcIntercepted, h, bind, EStateM.bind, failInterceptedHtlc, resolve_run,
      HandlerState.fresh, Call.interceptId, hp]
  rw [runHandler, hrun, swapChecks_run]
  cases verdict ev view trades <;>
    simp [failInterceptedHtlc, forwardInterceptedHtlc, resolve_run,
      Verdict.call, Verdict.trades, Call.interceptId]

def ChannelView.inboundRgbInfo (view : ChannelView) (ev : HTLCIntercepted) : Option RgbInfo :=
  (channelByScid view.inboundListing ev.prevShortChannelId).bind fun d => view.rgbInfo d.channelId

def ChannelView.outboundRgbInfo (view : ChannelView) (ev : HTLCIntercepted) : Option RgbInfo :=
  (channelByScid view.outboundListing ev.requestedNextHopScid).bind fun d => view.rgbInfo d.channelId

/-- Both channels are listed and the HTLC has the given terms. -/
def Passes (ev : HTLCIntercepted) (view : ChannelView) (terms : Terms) : Prop :=
  (channelByScid view.inboundListing ev.prevShortChannelId).isSome = true ∧
  (channelByScid view.outboundListing ev.requestedNextHopScid).isSome = true ∧
  ¬Mismatch ev (view.inboundRgbInfo ev) (view.outboundRgbInfo ev) terms

instance (ev : HTLCIntercepted) (view : ChannelView) (terms : Terms) :
    Decidable (Passes ev view terms) :=
  inferInstanceAs (Decidable (_ ∧ _ ∧ _))

variable (ev view trades) in
/-- The verdict is to forward exactly for an HTLC with the whitelisted terms. -/
theorem verdict_cases :
    (∃ terms, trades ev.paymentHash = some terms ∧ Passes ev view terms ∧
      verdict ev view trades =
        .forward terms (view.inboundRgbInfo ev) (view.outboundRgbInfo ev)) ∨
    ((∀ terms, trades ev.paymentHash = some terms → ¬Passes ev view terms) ∧
      (verdict ev view trades = .noChannel ∨ verdict ev view trades = .notWhitelisted ∨
        verdict ev view trades = .mismatch)) := by
  unfold verdict Passes ChannelView.inboundRgbInfo ChannelView.outboundRgbInfo
  cases channelByScid view.inboundListing ev.prevShortChannelId with
  | none => simp
  | some inbound =>
    cases channelByScid view.outboundListing ev.requestedNextHopScid with
    | none => simp
    | some outbound =>
      cases trades ev.paymentHash with
      | none => simp
      | some terms =>
        by_cases hm : Mismatch ev (view.rgbInfo inbound.channelId)
            (view.rgbInfo outbound.channelId) terms
        · simp [hm]
        · simp [hm]

/-- The intercept is answered by exactly one call and the handler returns. -/
def ResolvedOnce (ev : HTLCIntercepted) (view : ChannelView) (trades : Trades) : Prop :=
  (runHandler ev view trades).returned = true ∧
  ∃ call, (runHandler ev view trades).calls = [call] ∧ call.interceptId = ev.interceptId

theorem channelByScid_isSome {listing : List ChannelDetails} {scid : ℕ} :
    (channelByScid listing scid).isSome ↔ ∃ d ∈ listing, d.shortChannelId = some scid := by
  simp [channelByScid]

variable (ev view trades) in
theorem verdict_ne_noChannel_iff :
    verdict ev view trades ≠ .noChannel ↔
      (∃ d ∈ view.inboundListing, d.shortChannelId = some ev.prevShortChannelId) ∧
      ∃ d ∈ view.outboundListing, d.shortChannelId = some ev.requestedNextHopScid := by
  rw [← channelByScid_isSome, ← channelByScid_isSome]
  unfold verdict
  cases channelByScid view.inboundListing ev.prevShortChannelId with
  | none => simp
  | some inbound =>
    cases channelByScid view.outboundListing ev.requestedNextHopScid with
    | none => simp
    | some outbound =>
      simp only [Option.isSome_some, and_self, iff_true]
      cases trades ev.paymentHash with
      | none => simp
      | some terms => dsimp only; split <;> simp

/-- An intercept is resolved exactly once iff it is a swap between two channels
that are listed; a non-swap HTLC and an unknown channel both abort the node. -/
theorem intercept_resolved_once_iff (ev : HTLCIntercepted) (view : ChannelView) (trades : Trades) :
    ResolvedOnce ev view trades ↔
      ev.isSwap = true ∧
      (∃ d ∈ view.inboundListing, d.shortChannelId = some ev.prevShortChannelId) ∧
      ∃ d ∈ view.outboundListing, d.shortChannelId = some ev.requestedNextHopScid := by
  rw [← verdict_ne_noChannel_iff ev view trades]
  unfold ResolvedOnce
  cases hs : ev.isSwap with
  | false => simp [runHandler_nonSwap hs]
  | true =>
    rw [runHandler_swap hs]
    cases hv : verdict ev view trades <;> simp [Verdict.call, Call.interceptId]

/-- A non-swap HTLC between two listed channels, with nothing whitelisted. -/
def nonSwapHtlc : HTLCIntercepted :=
  ⟨false, Bytes32.fill 1, Bytes32.fill 2, 5000000, 4000000, none, none, 20, 10⟩

def twoChannels : ChannelView where
  inboundListing := [⟨Bytes32.fill 3, some 10⟩, ⟨Bytes32.fill 4, some 20⟩]
  outboundListing := [⟨Bytes32.fill 3, some 10⟩, ⟨Bytes32.fill 4, some 20⟩]
  rgbInfo _ := none

theorem nonSwap_resolved_twice :
    (runHandler nonSwapHtlc twoChannels fun _ => none).calls =
      [.failInterceptedHtlc (Bytes32.fill 2), .failInterceptedHtlc (Bytes32.fill 2)] ∧
    ¬∀ ev view trades, ResolvedOnce ev view trades := by
  refine ⟨by decide, fun h => ?_⟩
  have hr := (h nonSwapHtlc twoChannels fun _ => none).1
  revert hr
  decide

end RgbLightning.Swap
