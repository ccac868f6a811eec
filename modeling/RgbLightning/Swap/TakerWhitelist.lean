import RgbLightning.Swap.TakerRuns

/-! # The taker's whitelist over whole runs

The whitelist holds exactly the terms of the standing swap strings. It keeps no
expiry, so a forward may come after the swap string has expired.
-/
namespace RgbLightning.Swap
open MachineInt Decimal Runs KeyedLog
variable (ids : ContractIdText) (p : Profile)

/-- The commands among the inputs only whitelist swap strings satisfying `A`. -/
def TakerInput.AcceptsOnly (A : SwapString → ℕ → Prop) : TakerInput → Prop
  | taker words now history unspents =>
    ∀ swap, Swap.taker ids p now history unspents words = .ok swap → A swap now
  | htlcIntercepted .. => True

variable {ids p} {A : SwapString → ℕ → Prop}

/-- What a log entry says about the log before it. -/
def EntryOk (A : SwapString → ℕ → Prop) (older : List TakerEntry) : TakerEntry → Prop
  | .accepted swap now => A swap now
  | .intercepted r =>
    r.listed = (whitelisting older r.ev.paymentHash).map SwapString.terms ∧
    (r.forwarded = true →
      r.ev.isSwap = true ∧ ∃ terms, r.listed = some terms ∧ Passes r.ev r.view terms)

structure TakerInv (A : SwapString → ℕ → Prop) (s : TakerState) : Prop where
  listed : s.alive = true →
    ∀ hash, s.whitelistedTrades hash = (whitelisting s.log hash).map SwapString.terms
  entries : EachAfter (EntryOk A) s.log

theorem TakerInv.init : TakerInv A .init :=
  ⟨fun _ _ => rfl, eachAfter_nil _⟩

/-- The effect of an entry on the whitelist is the one on the standing swap strings. -/
theorem map_terms_put (m : PaymentHash → Option SwapString) (hash : PaymentHash) (v : Option SwapString)
    {trades : Trades} (h : ∀ x, trades x = (m x).map SwapString.terms) (x : PaymentHash) :
    Function.update trades hash (v.map SwapString.terms) x =
      (Function.update m hash v x).map SwapString.terms := by
  by_cases hx : x = hash
  · subst hx
    simp
  · rw [Function.update_of_ne hx, Function.update_of_ne hx, h]

theorem handled_entryOk {s : TakerState} (hs : TakerInv A s) (halive : s.alive = true)
    (ev : HTLCIntercepted) (view : ChannelView) (now : ℕ) :
    EntryOk A s.log (.intercepted (handled s ev view now)) := by
  refine ⟨hs.listed halive ev.paymentHash, ?_⟩
  intro hfwd
  exact handled_forwarded_iff.mp hfwd

theorem takerStep_inv {s : TakerState} (hs : TakerInv A s) {input : TakerInput}
    (hi : input.AcceptsOnly ids p A) : TakerInv A (takerStep ids p s input) := by
  by_cases halive : s.alive = true
  · have hspec := takerStep_spec ids p halive input
    generalize takerStep ids p s input = s' at hspec
    cases hspec with
    | @accepted words now history unspents swap h =>
      have hentry : EntryOk A s.log (.accepted swap now) := hi swap h
      have hentries := eachAfter_concat.mpr ⟨hs.entries, hentry⟩
      refine ⟨?_, hentries⟩
      intro _ x
      rw [whitelisting, contents_concat]
      exact map_terms_put _ swap.paymentHash (some swap) (hs.listed halive) x
    | refused alive => exact ⟨fun _ => hs.listed halive, hs.entries⟩
    | @forwarded ev view now terms hlisted hpasses hfwd =>
      have hentries := eachAfter_concat.mpr ⟨hs.entries, handled_entryOk hs halive ev view now⟩
      refine ⟨?_, hentries⟩
      intro _ x
      rw [whitelisting, contents_concat]
      simp only [TakerEntry.effect, hfwd, if_true]
      exact map_terms_put _ ev.paymentHash none (hs.listed halive) x
    | @notForwarded ev view now alive trades hsame hfwd =>
      have hentries := eachAfter_concat.mpr ⟨hs.entries, handled_entryOk hs halive ev view now⟩
      refine ⟨?_, hentries⟩
      intro ha x
      rw [hsame (.inr ha), whitelisting, contents_concat]
      simp only [TakerEntry.effect, hfwd, Bool.false_eq_true, if_false]
      exact hs.listed halive x
  · rw [takerStep_dead halive]
    exact hs

theorem takerRun_inv {inputs : List TakerInput} (h : ∀ i ∈ inputs, i.AcceptsOnly ids p A) :
    TakerInv A (takerRun ids p inputs) := by
  have hstep : ∀ s i, TakerInput.AcceptsOnly ids p A i → TakerInv A s →
      TakerInv A (takerStep ids p s i) := fun _ _ hi hs => takerStep_inv hs hi
  exact run_invariant (TakerInv A) (TakerInput.AcceptsOnly ids p A) TakerInv.init hstep inputs h

theorem takerRun_inv_any (inputs : List TakerInput) :
    TakerInv (fun _ _ => True) (takerRun ids p inputs) := by
  apply takerRun_inv
  intro i _
  cases i with
  | taker words now history unspents => exact fun _ _ => trivial
  | htlcIntercepted ev view now => trivial

/-- A forward answers the terms of the swap string standing for its hash. -/
theorem EntryOk.forwarded {older : List TakerEntry} {r : Intercepted}
    (h : EntryOk A older (.intercepted r)) (hfwd : r.forwarded = true) :
    ∃ swap, Standing TakerEntry.effect r.ev.paymentHash swap older ∧
      r.listed = some swap.terms ∧ Passes r.ev r.view swap.terms := by
  obtain ⟨hlisted, hall⟩ := h
  obtain ⟨-, terms, ht, hp⟩ := hall hfwd
  rw [ht] at hlisted
  obtain ⟨swap, hw, rfl⟩ := Option.map_eq_some_iff.mp hlisted.symm
  exact ⟨swap, (contents_eq_some TakerEntry.effect).mp hw, ht, hp⟩

theorem accepted_of_standing {log : List TakerEntry} {hash : PaymentHash} {swap : SwapString}
    (h : Standing TakerEntry.effect hash swap log) :
    ∃ now, .accepted swap now ∈ log ∧ swap.paymentHash = hash := by
  obtain ⟨older, e, newer, rfl, hput, -⟩ := h
  cases e with
  | accepted swap' now =>
    cases hput
    exact ⟨now, by simp, rfl⟩
  | intercepted r =>
    simp only [TakerEntry.effect] at hput
    split at hput <;> cases hput

theorem takesStand_of_entryOk {log : List TakerEntry} (h : EachAfter (EntryOk A) log) :
    TakesStand TakerEntry.effect log := by
  intro older e newer hsplit hash htake
  have he := h older e newer hsplit
  cases e with
  | accepted swap now => cases htake
  | intercepted r =>
    simp only [TakerEntry.effect] at htake
    by_cases hfwd : r.forwarded = true
    · rw [if_pos hfwd] at htake
      cases htake
      obtain ⟨swap, hstand, -⟩ := he.forwarded hfwd
      simp [(contents_eq_some TakerEntry.effect).mpr hstand]
    · rw [if_neg hfwd] at htake
      cases htake

abbrev forwardsOf (hash : PaymentHash) (log : List TakerEntry) : ℕ :=
  takes TakerEntry.effect hash log

abbrev acceptedOf (hash : PaymentHash) (log : List TakerEntry) : ℕ :=
  puts TakerEntry.effect hash log

theorem intercept_whitelist {inputs : List TakerInput} {ev : HTLCIntercepted} {view : ChannelView}
    {now : ℕ} (hswap : ev.isSwap = true) :
    (takerRun ids p (inputs ++ [.htlcIntercepted ev view now])).whitelistedTrades =
      if (takerRun ids p inputs).alive = true ∧
          (handled (takerRun ids p inputs) ev view now).forwarded = true then
        Function.update (takerRun ids p inputs).whitelistedTrades ev.paymentHash none
      else (takerRun ids p inputs).whitelistedTrades := by
  rw [takerRun, run_concat, ← takerRun]
  by_cases halive : (takerRun ids p inputs).alive = true
  · have hspec := takerStep_spec ids p halive (.htlcIntercepted ev view now)
    generalize takerStep ids p (takerRun ids p inputs) _ = s' at hspec
    cases hspec with
    | forwarded hlisted hpasses hfwd => rw [if_pos ⟨halive, hfwd⟩]
    | notForwarded alive trades hsame hfwd =>
      rw [if_neg (by simp [hfwd])]
      exact hsame (.inl hswap)
  · rw [takerStep_dead halive, if_neg (fun h => halive h.1)]

/-- The whitelist is consumed exactly: no more forwards than accepted commands,
each with the terms of the standing one, and no other change by an intercept. -/
theorem whitelist_consumed_exactly (inputs : List TakerInput) :
    (∀ hash, forwardsOf hash (takerRun ids p inputs).log ≤
      acceptedOf hash (takerRun ids p inputs).log) ∧
    EachAfter (fun older e => ∀ r, e = .intercepted r → r.forwarded = true →
        ∃ swap, Standing TakerEntry.effect r.ev.paymentHash swap older ∧
          r.listed = some swap.terms ∧ Passes r.ev r.view swap.terms)
      (takerRun ids p inputs).log ∧
    ∀ ev view now, ev.isSwap = true →
      (takerRun ids p (inputs ++ [.htlcIntercepted ev view now])).whitelistedTrades =
        if (takerRun ids p inputs).alive = true ∧
            (handled (takerRun ids p inputs) ev view now).forwarded = true then
          Function.update (takerRun ids p inputs).whitelistedTrades ev.paymentHash none
        else (takerRun ids p inputs).whitelistedTrades := by
  have hinv : TakerInv _ (takerRun ids p inputs) := takerRun_inv_any inputs
  have hcount : ∀ hash, forwardsOf hash (takerRun ids p inputs).log ≤
      acceptedOf hash (takerRun ids p inputs).log := by
    intro hash
    have hle := takes_le_puts TakerEntry.effect (takesStand_of_entryOk hinv.entries) hash
    exact (Nat.le_add_right _ _).trans hle
  have hterms : EachAfter (fun older e => ∀ r, e = .intercepted r → r.forwarded = true →
      ∃ swap, Standing TakerEntry.effect r.ev.paymentHash swap older ∧
        r.listed = some swap.terms ∧ Passes r.ev r.view swap.terms) (takerRun ids p inputs).log := by
    intro older e newer hsplit r he hfwd
    have hok := hinv.entries older e newer hsplit
    rw [he] at hok
    exact hok.forwarded hfwd
  exact ⟨hcount, hterms, fun ev view now hs => intercept_whitelist hs⟩

end RgbLightning.Swap
