import RgbLightning.Base.KeyedLog
import RgbLightning.Swap.Intercept

/-! # Runs of the taker

A run mixes `taker` commands and intercepted HTLCs. The log records what was
whitelisted and what the handler did; it is read by the theorems only. An abort
ends the run.
-/
namespace RgbLightning.Swap
open MachineInt Decimal Rgb Runs KeyedLog

inductive TakerInput where
  | taker (words : List Text) (now : ℕ) (history : History ℕ) (unspents : List OutPoint)
  | htlcIntercepted (ev : HTLCIntercepted) (view : ChannelView) (now : ℕ)

/-- One handled intercept: what it met in the whitelist and what came of it. -/
structure Intercepted where
  ev : HTLCIntercepted
  view : ChannelView
  now : ℕ
  listed : Option Terms
  returned : Bool
  calls : List Call

inductive TakerEntry where
  | accepted (swap : SwapString) (now : ℕ)
  | intercepted (r : Intercepted)

structure TakerState where
  whitelistedTrades : Trades
  alive : Bool
  log : List TakerEntry

def TakerState.init : TakerState := ⟨fun _ => none, true, []⟩

def SwapString.terms (s : SwapString) : Terms := (s.assetId, s.swapType)

/-- The channel manager accepted a forward of this intercept. -/
def Intercepted.forwarded (r : Intercepted) : Bool :=
  r.returned && r.calls.any fun
    | .forwardInterceptedHtlc .. => true
    | .failInterceptedHtlc _ => false

variable (ids : ContractIdText) (p : Profile)

def handled (s : TakerState) (ev : HTLCIntercepted) (view : ChannelView) (now : ℕ) : Intercepted :=
  ⟨ev, view, now, s.whitelistedTrades ev.paymentHash,
    (runHandler ev view s.whitelistedTrades).returned,
    (runHandler ev view s.whitelistedTrades).calls⟩

def takerStep (s : TakerState) (input : TakerInput) : TakerState :=
  if s.alive then
    match input with
    | .taker words now history unspents =>
      match taker ids p now history unspents words with
      | .ok swap =>
        { s with
          whitelistedTrades :=
            Function.update s.whitelistedTrades swap.paymentHash (some swap.terms)
          log := s.log ++ [.accepted swap now] }
      | .err _ => s
      | .abort => { s with alive := false }
    | .htlcIntercepted ev view now =>
      { whitelistedTrades := (runHandler ev view s.whitelistedTrades).whitelistedTrades
        alive := (runHandler ev view s.whitelistedTrades).returned
        log := s.log ++ [.intercepted (handled s ev view now)] }
  else s

def takerRun (inputs : List TakerInput) : TakerState := run (takerStep ids p) .init inputs

/-- A whitelisting puts a swap string under its hash, a forward takes it away. -/
def TakerEntry.effect : TakerEntry → Effect PaymentHash SwapString
  | accepted swap _ => .put swap.paymentHash swap
  | intercepted r => if r.forwarded then .take r.ev.paymentHash else .skip

/-- The swap string that currently whitelists a hash. -/
abbrev whitelisting (log : List TakerEntry) (hash : PaymentHash) : Option SwapString :=
  contents TakerEntry.effect log hash

variable {ids p} {s : TakerState}

theorem takerStep_dead (h : s.alive ≠ true) (input : TakerInput) : takerStep ids p s input = s := by
  unfold takerStep
  exact if_neg h

theorem handled_forwarded_iff {ev : HTLCIntercepted} {view : ChannelView} {now : ℕ} :
    (handled s ev view now).forwarded = true ↔
      ev.isSwap = true ∧
      ∃ terms, s.whitelistedTrades ev.paymentHash = some terms ∧ Passes ev view terms := by
  unfold handled Intercepted.forwarded
  cases hs : ev.isSwap with
  | false => simp [runHandler_nonSwap hs]
  | true =>
    rw [runHandler_swap hs]
    rcases verdict_cases ev view s.whitelistedTrades with
      ⟨terms, hl, hp, hv⟩ | ⟨hn, hv | hv | hv⟩
    · simp [hv, Verdict.call, hl, hp]
    all_goals
      simp only [hv, Verdict.call, true_and]
      simpa using hn

variable (ids p) in
/-- What one step of a live run does. -/
inductive TakerStepSpec (s : TakerState) : TakerInput → TakerState → Prop
  | accepted {words : List Text} {now : ℕ} {history : History ℕ} {unspents : List OutPoint}
      {swap : SwapString} (h : taker ids p now history unspents words = .ok swap) :
      TakerStepSpec s (.taker words now history unspents)
        ⟨Function.update s.whitelistedTrades swap.paymentHash (some swap.terms), true,
          s.log ++ [.accepted swap now]⟩
  | refused {words : List Text} {now : ℕ} {history : History ℕ} {unspents : List OutPoint}
      (alive : Bool) : TakerStepSpec s (.taker words now history unspents) { s with alive := alive }
  | forwarded {ev : HTLCIntercepted} {view : ChannelView} {now : ℕ} {terms : Terms}
      (hlisted : s.whitelistedTrades ev.paymentHash = some terms) (hpasses : Passes ev view terms)
      (hfwd : (handled s ev view now).forwarded = true) :
      TakerStepSpec s (.htlcIntercepted ev view now)
        ⟨Function.update s.whitelistedTrades ev.paymentHash none, true,
          s.log ++ [.intercepted (handled s ev view now)]⟩
  | notForwarded {ev : HTLCIntercepted} {view : ChannelView} {now : ℕ} (alive : Bool)
      (trades : Trades) (hsame : ev.isSwap = true ∨ alive = true → trades = s.whitelistedTrades)
      (hfwd : (handled s ev view now).forwarded = false) :
      TakerStepSpec s (.htlcIntercepted ev view now)
        ⟨trades, alive, s.log ++ [.intercepted (handled s ev view now)]⟩

variable (ids p) in
theorem takerStep_spec (halive : s.alive = true) (input : TakerInput) :
    TakerStepSpec ids p s input (takerStep ids p s input) := by
  unfold takerStep
  rw [if_pos halive]
  cases input with
  | taker words now history unspents =>
    dsimp only
    cases h : taker ids p now history unspents words with
    | ok swap =>
      rw [halive]
      exact .accepted h
    | err e => exact .refused (s := s) s.alive
    | abort => exact .refused false
  | htlcIntercepted ev view now =>
    dsimp only
    have hcases := verdict_cases ev view s.whitelistedTrades
    cases hfwd : (handled s ev view now).forwarded with
    | true =>
      obtain ⟨hs, terms, hl, hp⟩ := handled_forwarded_iff.mp hfwd
      obtain ⟨_, _, _, hv⟩ | ⟨hn, _⟩ := hcases
      · simp only [runHandler_swap hs, hv, Verdict.call, Verdict.trades, Option.isSome_some]
        exact .forwarded hl hp hfwd
      · exact absurd hp (hn terms hl)
    | false =>
      refine .notForwarded _ _ ?_ hfwd
      intro hor
      have hs : ev.isSwap = true := by
        rcases hor with hs | hr
        · exact hs
        · by_contra hs
          simp [runHandler_nonSwap (Bool.eq_false_iff.mpr hs)] at hr
      rw [runHandler_swap hs]
      obtain ⟨terms, hl, hp, _⟩ | ⟨_, hv | hv | hv⟩ := hcases
      · rw [handled_forwarded_iff.mpr ⟨hs, terms, hl, hp⟩] at hfwd
        cases hfwd
      all_goals simp [hv, Verdict.trades]

end RgbLightning.Swap
