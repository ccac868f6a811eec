import RgbLightning.Swap.TakerWhitelist

/-! # Value given out by the taker

Every forward is bounded by the terms it was whitelisted with, so the totals of a
run are bounded by the totals agreed to. The bounds are over the integers; the
handler compares saturating differences.
-/
namespace RgbLightning.Swap
open MachineInt Decimal Runs KeyedLog

/-- What a forward may give out under its terms. -/
def SafeForward (r : Intercepted) : Terms → Prop
  | (c, .buyAsset amountRgb amountMsats) =>
    (r.view.inboundRgbInfo r.ev).map RgbInfo.contractId = some c ∧
    r.ev.inboundRgbAmount = some amountRgb ∧
    r.view.outboundRgbInfo r.ev = none ∧
    (r.ev.expectedOutboundAmountMsat : ℤ) - r.ev.inboundAmountMsat ≤ amountMsats
  | (c, .sellAsset amountRgb amountMsats) =>
    (r.view.outboundRgbInfo r.ev).map RgbInfo.contractId = some c ∧
    r.ev.expectedOutboundRgbAmount = some amountRgb ∧
    r.view.inboundRgbInfo r.ev = none ∧
    r.ev.inboundAmountMsat = r.ev.expectedOutboundAmountMsat + amountMsats

/-- The saturating checks bound the exact amounts once the agreed amount is positive. -/
theorem safeForward_of_passes {r : Intercepted} {terms : Terms} (hpos : 1 ≤ terms.2.amountMsats)
    (hp : Passes r.ev r.view terms) : SafeForward r terms := by
  obtain ⟨-, -, hm⟩ := hp
  rcases terms with ⟨c, ⟨amountRgb, amountMsats⟩ | ⟨amountRgb, amountMsats⟩⟩
  · simp only [Mismatch, netMsatDiff, not_or, ne_eq, Decidable.not_not, Option.not_isSome_iff_eq_none]
      at hm
    obtain ⟨hrgb, hc, hdiff, hout⟩ := hm
    refine ⟨hc, hrgb, hout, ?_⟩
    -- below `HTLC_MIN_MSAT` the inner difference is zero and the bound only gets looser
    omega
  · simp only [Mismatch, netMsatDiff, not_or, ne_eq, Decidable.not_not, Option.not_isSome_iff_eq_none]
      at hm
    obtain ⟨hrgb, hc, hdiff, hin⟩ := hm
    refine ⟨hc, hrgb, hin, ?_⟩
    -- a zero difference would hide an outbound amount above the inbound one
    have hpos : 1 ≤ amountMsats := hpos
    omega

def forwards (log : List TakerEntry) : List Intercepted :=
  log.filterMap fun
    | .accepted .. => none
    | .intercepted r => if r.forwarded then some r else none

/-- Millisatoshis sent out minus received, over all forwards. -/
def netOutflow (log : List TakerEntry) : ℤ :=
  ((forwards log).map fun r =>
    (r.ev.expectedOutboundAmountMsat : ℤ) - r.ev.inboundAmountMsat).sum

/-- What the terms allow: the amounts of the buys minus those of the sells. -/
def Intercepted.agreedOutflow (r : Intercepted) : ℤ :=
  match r.listed with
  | some (_, .buyAsset _ amountMsats) => amountMsats
  | some (_, .sellAsset _ amountMsats) => -amountMsats
  | none => 0

def agreedOutflow (log : List TakerEntry) : ℤ :=
  ((forwards log).map Intercepted.agreedOutflow).sum

/-- Units of a contract leaving through an outbound channel coloured with it. -/
def Intercepted.givenOut (c : ContractId) (r : Intercepted) : ℕ :=
  if (r.view.outboundRgbInfo r.ev).map RgbInfo.contractId = some c then
    r.ev.expectedOutboundRgbAmount.getD 0
  else 0

def givenOut (c : ContractId) (log : List TakerEntry) : ℕ :=
  ((forwards log).map (Intercepted.givenOut c)).sum

/-- Units of a contract the forwarded sells agreed to. -/
def Intercepted.soldFor (c : ContractId) (r : Intercepted) : ℕ :=
  match r.listed with
  | some (c', .sellAsset amountRgb _) => if c' = c then amountRgb else 0
  | _ => 0

def soldFor (c : ContractId) (log : List TakerEntry) : ℕ :=
  ((forwards log).map (Intercepted.soldFor c)).sum

theorem mem_forwards {log : List TakerEntry} {r : Intercepted} :
    r ∈ forwards log ↔ .intercepted r ∈ log ∧ r.forwarded = true := by
  simp only [forwards, List.mem_filterMap]
  constructor
  · rintro ⟨e, he, hr⟩
    cases e with
    | accepted swap now => cases hr
    | intercepted r' =>
      by_cases hfwd : r'.forwarded = true
      · simp only [hfwd, if_true, Option.some.injEq] at hr
        subst hr
        exact ⟨he, hfwd⟩
      · simp [hfwd] at hr
  · rintro ⟨he, hfwd⟩
    exact ⟨_, he, by simp [hfwd]⟩

theorem SafeForward.outflow_le {r : Intercepted} {terms : Terms} (hlisted : r.listed = some terms)
    (h : SafeForward r terms) :
    (r.ev.expectedOutboundAmountMsat : ℤ) - r.ev.inboundAmountMsat ≤ r.agreedOutflow := by
  rcases terms with ⟨c, ⟨amountRgb, amountMsats⟩ | ⟨amountRgb, amountMsats⟩⟩
  · simpa [Intercepted.agreedOutflow, hlisted] using h.2.2.2
  · obtain ⟨-, -, -, hin⟩ := h
    simp [Intercepted.agreedOutflow, hlisted, hin]

theorem SafeForward.givenOut_le {r : Intercepted} {terms : Terms} (hlisted : r.listed = some terms)
    (h : SafeForward r terms) (c : ContractId) : r.givenOut c ≤ r.soldFor c := by
  rcases terms with ⟨c', ⟨amountRgb, amountMsats⟩ | ⟨amountRgb, amountMsats⟩⟩
  · obtain ⟨-, -, hout, -⟩ := h
    simp [Intercepted.givenOut, hout]
  · obtain ⟨hc, hrgb, -, -⟩ := h
    simp only [Intercepted.givenOut, Intercepted.soldFor, hlisted, hc, hrgb, Option.some.injEq,
      Option.getD_some]
    exact le_rfl

variable {ids : ContractIdText} {p : Profile}

def anyContract : ContractIdText where
  fromStr _ := some (Bytes32.fill 7)
  display _ := "rgb".toList

/-- Five units for five msats, until time 100. -/
def shortOffer : Text := "5:rgb:buy:1:100:".toList ++ List.replicate 64 '0'

/-- An HTLC with exactly these terms. -/
def buyHtlc : HTLCIntercepted :=
  ⟨true, Bytes32.fill 0, Bytes32.fill 2, 6000000, 3000005, some 5, none, 20, 10⟩

/-- Channel 10 is coloured with the contract, channel 20 is not. -/
def colouredInbound : ChannelView where
  inboundListing := [⟨Bytes32.fill 3, some 10⟩, ⟨Bytes32.fill 4, some 20⟩]
  outboundListing := [⟨Bytes32.fill 3, some 10⟩, ⟨Bytes32.fill 4, some 20⟩]
  rgbInfo id := if id = Bytes32.fill 3 then some ⟨Bytes32.fill 7, 0, 100⟩ else none

/-- The offer is accepted at time 50 and executed at a later time. -/
def buyRun (later : ℕ) : List TakerInput :=
  [.taker [shortOffer] 50 (fun _ => none) [], .htlcIntercepted buyHtlc colouredInbound later]

end RgbLightning.Swap
