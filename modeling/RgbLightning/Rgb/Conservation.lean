import RgbLightning.Rgb.Transition

/-! # Conservation of assets by the transitions built

The inputs counted by the selection are a prefix of the owned values; the inputs
consumed are all allocations on the outpoints of that prefix. The transition is
balanced when both weigh the same and the counting did not wrap.
-/
namespace RgbLightning.Rgb
open MachineInt Cover
variable {Opout : Type*}

/-- The owned values, in opout order, from which `amt` is selected exactly. -/
structure Selectable (amt : ℕ) (owned : List (OwnedValue Opout)) : Prop where
  covered : amt ≤ total OwnedValue.amount owned
  /-- Counting up to the amount stays within the word. -/
  fits : ∀ before a after, owned = before ++ a :: after → total OwnedValue.amount before < amt →
    total OwnedValue.amount before + a.amount < 2 ^ u64
  /-- An outpoint whose first allocation is taken has all of them taken. -/
  whole : GroupsWhole OwnedValue.amount OwnedValue.outpoint amt owned

section Loop
variable {amt acc : ℕ} {xs : List (OwnedValue Opout)} {rgbInputs : List OutPoint}

/-- Without overflow the loop takes the shortest covering prefix. -/
theorem selectFrom_eq_cover (p : Profile) (acc : ℕ) (rgbInputs : List OutPoint)
    (hfits : ∀ before a after, xs = before ++ a :: after →
      acc + total OwnedValue.amount before < amt →
      acc + total OwnedValue.amount before + a.amount < 2 ^ u64) :
    selectFrom p amt xs rgbInputs acc =
      some (rgbInputs ++ (cover OwnedValue.amount amt acc xs).map OwnedValue.outpoint,
        acc + total OwnedValue.amount (cover OwnedValue.amount amt acc xs)) := by
  induction xs generalizing rgbInputs acc with
  | nil => simp [selectFrom, cover]
  | cons a xs ih =>
    by_cases h : amt ≤ acc
    · simp [selectFrom, cover_of_le h, h]
    · have hlt := Nat.not_le.mp h
      have hfit : acc + a.amount < 2 ^ u64 := hfits [] a xs rfl hlt
      rw [selectFrom, if_neg h, addWord, narrow_of_lt hfit, Option.bind_some, cover_cons_of_lt hlt, ih]
      · simp [Nat.add_assoc]
      · intro before b after hsplit hb
        have hnext := hfits (a :: before) b after (by rw [hsplit]; rfl)
        rw [total_cons, ← Nat.add_assoc] at hnext
        exact hnext hb

theorem fits_of_selectFrom_dev {r : List OutPoint × ℕ}
    (h : selectFrom .dev amt xs rgbInputs acc = some r) :
    ∀ before a after, xs = before ++ a :: after → acc + total OwnedValue.amount before < amt →
      acc + total OwnedValue.amount before + a.amount < 2 ^ u64 := by
  induction xs generalizing rgbInputs acc with
  | nil =>
    intro before a after hsplit
    simp at hsplit
  | cons b xs ih =>
    intro before a after hsplit hlt
    have hacc : ¬acc ≥ amt := by omega
    rw [selectFrom, if_neg hacc] at h
    obtain ⟨next, hadd, hrest⟩ := Option.bind_eq_some_iff.mp h
    obtain ⟨rfl, hfit⟩ := narrow_dev_eq hadd
    cases before with
    | nil =>
      obtain ⟨rfl, -⟩ := List.cons.inj hsplit
      simpa using hfit
    | cons c before =>
      obtain ⟨rfl, htail⟩ := List.cons.inj hsplit
      rw [total_cons, ← Nat.add_assoc] at hlt ⊢
      exact ih hrest before a after htail hlt

theorem selectFrom_release (amt : ℕ) (xs : List (OwnedValue Opout)) (hacc : acc < 2 ^ u64) (rgbInputs : List OutPoint) :
    ∃ taken rest, xs = taken ++ rest ∧
      selectFrom .release amt xs rgbInputs acc = some (rgbInputs ++ taken.map OwnedValue.outpoint,
        (acc + total OwnedValue.amount taken) % 2 ^ u64) ∧
      (rest = [] ∨ amt ≤ (acc + total OwnedValue.amount taken) % 2 ^ u64) ∧
      ∀ before a after, taken = before ++ a :: after →
        (acc + total OwnedValue.amount before) % 2 ^ u64 < amt := by
  induction xs generalizing rgbInputs acc with
  | nil => exact ⟨[], [], rfl, by simp [selectFrom, Nat.mod_eq_of_lt hacc], .inl rfl, by simp⟩
  | cons b xs ih =>
    by_cases h : amt ≤ acc
    · refine ⟨[], b :: xs, rfl, by simp [selectFrom, h, Nat.mod_eq_of_lt hacc], .inr ?_, by simp⟩
      simpa [Nat.mod_eq_of_lt hacc] using h
    · have hstep : (acc + b.amount) % 2 ^ u64 < 2 ^ u64 := Nat.mod_lt _ (by positivity)
      obtain ⟨taken, rest, hsplit, hrun, hstop, hlight⟩ :=
        ih hstep (rgbInputs ++ [b.outpoint])
      have hmod : ∀ ys, ((acc + b.amount) % 2 ^ u64 + total OwnedValue.amount ys) % 2 ^ u64 =
          (acc + total OwnedValue.amount (b :: ys)) % 2 ^ u64 := by
        intro ys
        rw [Nat.mod_add_mod, total_cons, Nat.add_assoc]
      refine ⟨b :: taken, rest, by rw [hsplit]; rfl, ?_, ?_, ?_⟩
      · rw [selectFrom, if_neg h, addWord, narrow_release, Option.bind_some, hrun, hmod]
        simp
      · rwa [hmod] at hstop
      · intro before a after hb
        cases before with
        | nil => simpa [Nat.mod_eq_of_lt hacc] using Nat.not_le.mp h
        | cons c before =>
          obtain ⟨rfl, htail⟩ := List.cons.inj hb
          rw [← hmod]
          exact hlight before a after htail

end Loop

section Consumed

/-- The runtime returns every allocation of a contract on the given outpoints. -/
def Runtime.ReturnsAll (runtime : Runtime Opout) : Prop :=
  ∀ id h, runtime.debugHistory id = some h → ∀ outpoints,
    (runtime.stateForOutpoints id outpoints).Perm
      ((h.fungibles.filter fun o => o.sealOutpoint ∈ outpoints).map fun o => (o.opout, o.amount))

variable [LinearOrder Opout] {runtime : Runtime Opout} {h : ContractHistory Opout}
  {unspents feeCoins : List OutPoint} {id : ContractId}

theorem consumed_sum (unspents : List OutPoint) (hstate : runtime.ReturnsAll) (hid : runtime.debugHistory id = some h)
    (hfees : ∀ o ∈ h.fungibles, o.sealOutpoint ∉ feeCoins) {selected : List OutPoint}
    (hselected : ∀ x ∈ selected, x ∈ unspents) :
    ((runtime.stateForOutpoints id (selected ++ feeCoins)).map Prod.snd).sum =
      total OwnedValue.amount
        ((collectOwned unspents h.fungibles).toList.filter fun v => v.outpoint ∈ selected) := by
  have hsame : ∀ o ∈ h.fungibles, decide (o.sealOutpoint ∈ selected ++ feeCoins) =
      (decide (o.sealOutpoint ∈ selected) && decide (o.sealOutpoint ∈ unspents)) := by
    intro o ho
    have hfee : o.sealOutpoint ∉ feeCoins := hfees o ho
    by_cases hs : o.sealOutpoint ∈ selected
    · simp [hs, hselected _ hs]
    · simp [hs, hfee]
  calc ((runtime.stateForOutpoints id (selected ++ feeCoins)).map Prod.snd).sum
      = (((h.fungibles.filter fun o => o.sealOutpoint ∈ selected ++ feeCoins).map fun o =>
          (o.opout, o.amount)).map Prod.snd).sum := ((hstate id h hid _).map Prod.snd).sum_eq
    _ = total OwnedValue.amount (((h.fungibles.filter fun o => o.sealOutpoint ∈ unspents).map
          FungibleOutput.owned).filter fun v => v.outpoint ∈ selected) := by
        rw [List.filter_map, List.filter_filter, List.filter_congr hsame, total, List.map_map,
          List.map_map]
        rfl
    _ = _ := total_perm _ ((collectOwned_perm unspents h).filter _).symm

theorem outpoint_mem_unspents {v : OwnedValue Opout}
    (hv : v ∈ (collectOwned unspents h.fungibles).toList) : v.outpoint ∈ unspents := by
  obtain ⟨o, -, hseal, rfl⟩ := (mem_collectOwned h.nodup).mp hv
  exact hseal

/-- When a prefix is selected, what is left out on its outpoints is consumed too. -/
theorem consumed_sum_cover (hstate : runtime.ReturnsAll) (hid : runtime.debugHistory id = some h)
    (hfees : ∀ o ∈ h.fungibles, o.sealOutpoint ∉ feeCoins) {taken rest : List (OwnedValue Opout)}
    (hsplit : (collectOwned unspents h.fungibles).toList = taken ++ rest) :
    ((runtime.stateForOutpoints id (taken.map OwnedValue.outpoint ++ feeCoins)).map Prod.snd).sum =
      total OwnedValue.amount taken + total OwnedValue.amount
        (rest.filter fun v => v.outpoint ∈ taken.map OwnedValue.outpoint) := by
  rw [consumed_sum unspents hstate hid hfees, hsplit, List.filter_append, total_append]
  · congr 2
    rw [List.filter_eq_self]
    intro v hv
    exact decide_eq_true (List.mem_map_of_mem hv)
  · intro x hx
    obtain ⟨v, hv, rfl⟩ := List.mem_map.mp hx
    have howned : v ∈ (collectOwned unspents h.fungibles).toList := by
      rw [hsplit]
      exact List.mem_append_left _ hv
    exact outpoint_mem_unspents howned

end Consumed

section Balance
variable [LinearOrder Opout] {runtime : Runtime Opout} {h : ContractHistory Opout}
  {unspents feeCoins : List OutPoint} {id : ContractId} {amt : ℕ}

def SelectsBalanced (p : Profile) (runtime : Runtime Opout) (id : ContractId) (amt : ℕ)
    (owned : List (OwnedValue Opout)) (feeCoins : List OutPoint) : Prop :=
  ∃ selected, selectInputs p amt owned = some selected ∧
    ((runtime.stateForOutpoints id (selected.rgbInputs ++ feeCoins)).map Prod.snd).sum =
      amt + selected.rgbChangeAmount

theorem selectsBalanced_of_selectable (p : Profile) (hstate : runtime.ReturnsAll)
    (hid : runtime.debugHistory id = some h)
    (hfees : ∀ o ∈ h.fungibles, o.sealOutpoint ∉ feeCoins)
    (hsel : Selectable amt (collectOwned unspents h.fungibles).toList) :
    SelectsBalanced p runtime id amt (collectOwned unspents h.fungibles).toList feeCoins := by
  generalize howned : (collectOwned unspents h.fungibles).toList = owned at hsel ⊢
  obtain ⟨rest, hsplit, hstop⟩ := exists_cover_append OwnedValue.amount amt 0 owned
  generalize htaken : cover OwnedValue.amount amt 0 owned = taken at hsplit hstop
  have hle : amt ≤ total OwnedValue.amount taken := by
    rcases hstop with rfl | hle
    · simpa [hsplit] using hsel.covered
    · simpa using hle
  have hfits : ∀ before a after, owned = before ++ a :: after →
      0 + total OwnedValue.amount before < amt →
      0 + total OwnedValue.amount before + a.amount < 2 ^ u64 := by
    simpa only [Nat.zero_add] using hsel.fits
  have hrun := selectFrom_eq_cover p 0 [] hfits
  rw [htaken, List.nil_append, Nat.zero_add] at hrun
  refine ⟨⟨taken.map OwnedValue.outpoint, total OwnedValue.amount taken - amt⟩, ?_, ?_⟩
  · simp [selectInputs, hrun, hle]
  · have hzero := (groupsWhole_iff (hsplit ▸ htaken)).mp (hsplit ▸ hsel.whole)
    rw [consumed_sum_cover hstate hid hfees (howned.trans hsplit), hzero]
    dsimp only
    omega

/-- A checked build only balances a selectable amount. -/
theorem selectable_of_dev (hstate : runtime.ReturnsAll) (hid : runtime.debugHistory id = some h)
    (hfees : ∀ o ∈ h.fungibles, o.sealOutpoint ∉ feeCoins)
    (hbal : SelectsBalanced .dev runtime id amt (collectOwned unspents h.fungibles).toList feeCoins) :
    Selectable amt (collectOwned unspents h.fungibles).toList := by
  generalize howned : (collectOwned unspents h.fungibles).toList = owned at hbal ⊢
  obtain ⟨selected, hselected, hsum⟩ := hbal
  obtain ⟨r, hloop, hsub⟩ := Option.bind_eq_some_iff.mp hselected
  have hfits := fits_of_selectFrom_dev hloop
  rw [selectFrom_eq_cover _ _ _ hfits] at hloop
  obtain ⟨rest, hsplit, hstop⟩ := exists_cover_append OwnedValue.amount amt 0 owned
  generalize htaken : cover OwnedValue.amount amt 0 owned = taken at hsplit hstop hloop
  cases hloop
  obtain ⟨change, hchange, hsel⟩ := Option.map_eq_some_iff.mp hsub
  obtain ⟨hle, rfl⟩ := subWord_dev_eq hchange
  subst hsel
  simp only [List.nil_append, Nat.zero_add] at hsum hle hfits
  rw [consumed_sum_cover hstate hid hfees (howned.trans hsplit)] at hsum
  refine ⟨?_, hfits, ?_⟩
  · rw [hsplit, total_append]
    omega
  · rw [hsplit, groupsWhole_iff (by rw [← hsplit]; exact htaken)]
    omega

/-- An unchecked build that balances an amount within the wrapped total balances
a selectable amount. -/
theorem selectable_of_release (hstate : runtime.ReturnsAll) (hid : runtime.debugHistory id = some h)
    (hfees : ∀ o ∈ h.fungibles, o.sealOutpoint ∉ feeCoins)
    (hamt : amt ≤ total OwnedValue.amount (collectOwned unspents h.fungibles).toList % 2 ^ u64)
    (hbal : SelectsBalanced .release runtime id amt
      (collectOwned unspents h.fungibles).toList feeCoins) :
    Selectable amt (collectOwned unspents h.fungibles).toList := by
  generalize howned : (collectOwned unspents h.fungibles).toList = owned at hbal hamt ⊢
  obtain ⟨selected, hselected, hsum⟩ := hbal
  obtain ⟨taken, rest, hsplit, hrun, hstop, hlight⟩ :=
    selectFrom_release amt owned (by positivity : 0 < 2 ^ u64) []
  simp only [List.nil_append, Nat.zero_add] at hrun hstop hlight
  have hle : amt ≤ total OwnedValue.amount taken % 2 ^ u64 := by
    rcases hstop with rfl | hle
    · simpa [hsplit] using hamt
    · exact hle
  simp only [selectInputs, hrun, Option.bind_some, subWord_of_le hle, Option.map_some] at hselected
  cases hselected
  dsimp only at hsum
  rw [consumed_sum_cover hstate hid hfees (howned.trans hsplit)] at hsum
  -- the wrapped count is at most the exact one, so a balance leaves no room for a wrap
  have hmod : total OwnedValue.amount taken % 2 ^ u64 ≤ total OwnedValue.amount taken :=
    Nat.mod_le _ _
  have hlt : total OwnedValue.amount taken % 2 ^ u64 < 2 ^ u64 := Nat.mod_lt _ (by positivity)
  have hexact : total OwnedValue.amount taken % 2 ^ u64 = total OwnedValue.amount taken := by omega
  have hlight' : ∀ before a after, taken = before ++ a :: after →
      0 + total OwnedValue.amount before < amt := by
    intro before a after hb
    have hbefore : total OwnedValue.amount before ≤ total OwnedValue.amount taken := by
      rw [hb, total_append]
      omega
    have hfit : total OwnedValue.amount before < 2 ^ u64 := by omega
    have hcount := hlight before a after hb
    rw [Nat.mod_eq_of_lt hfit] at hcount
    omega
  have hcover : cover OwnedValue.amount amt 0 (taken ++ rest) = taken :=
    cover_append_eq hlight' (.inr (by omega))
  refine ⟨?_, ?_, ?_⟩
  · rw [hsplit, total_append]
    omega
  · intro before a after hb hba
    have hreached : 0 + total OwnedValue.amount before < amt := by omega
    obtain ⟨mid, hmid⟩ := (cover_split_iff 0 after).mpr hreached
    rw [← hb, hsplit, hcover] at hmid
    have hcounted : total OwnedValue.amount before + a.amount ≤ total OwnedValue.amount taken := by
      rw [hmid, total_append, total_cons]
      omega
    omega
  · rw [hsplit, groupsWhole_iff hcover]
    omega

/-- An amount accepted by `sendasset` leads to a balanced transition, unless there
is change and no uncoloured UTXO to hold it. -/
def SendassetBalanced (p : Profile) (runtime : Runtime Opout) (unspents : List OutPoint)
    (id : ContractId) (amt : ℕ) (sealValid : Bool) : Prop :=
  sendassetAccepts p runtime unspents id amt sealValid = .ok () → ∀ uncoloredAvailable,
    sendassetTransition p runtime unspents id amt sealValid uncoloredAvailable =
        .err Error.noAvailableUtxos.message ∧ uncoloredAvailable = false ∨
      ∃ t, sendassetTransition p runtime unspents id amt sealValid uncoloredAvailable = .ok t ∧
        t.Balanced

def FundingBalanced (p : Profile) (runtime : Runtime Opout) (unspents : List OutPoint)
    (id : ContractId) (amt : ℕ) (feeCoins : List OutPoint) : Prop :=
  ∃ t, fundingTransition p runtime unspents id amt feeCoins = .ok t ∧ t.Balanced

theorem fundingBalanced_iff (p : Profile) (hid : runtime.debugHistory id = some h) :
    FundingBalanced p runtime unspents id amt feeCoins ↔
      SelectsBalanced p runtime id amt (collectOwned unspents h.fungibles).toList feeCoins := by
  unfold FundingBalanced SelectsBalanced fundingTransition
  simp only [getAssetOwnedValues, hid]
  cases selectInputs p amt (collectOwned unspents h.fungibles).toList with
  | none => simp
  | some selected => simp [sendRgb, Transition.Balanced]

theorem sendassetBalanced_iff (p : Profile) (hid : runtime.debugHistory id = some h)
    {sealValid : Bool} (hacc : sendassetAccepts p runtime unspents id amt sealValid = .ok ()) :
    SendassetBalanced p runtime unspents id amt sealValid ↔
      SelectsBalanced p runtime id amt (collectOwned unspents h.fungibles).toList [] := by
  unfold SendassetBalanced SelectsBalanced sendassetTransition
  simp only [hacc, getAssetOwnedValues, hid, Outcome.bind_ok, true_implies]
  cases selectInputs p amt (collectOwned unspents h.fungibles).toList with
  | none =>
    simp only [Outcome.ofOption_none, Outcome.bind_abort, reduceCtorEq, false_and, exists_false,
      or_self, iff_false, not_forall]
    exact ⟨true, fun h => h⟩
  | some selected =>
    have hsum : Transition.Balanced (sendRgb runtime id selected.rgbInputs
        (changeAssignment selected.rgbChangeAmount ++ [amt])) ↔
        ((runtime.stateForOutpoints id selected.rgbInputs).map Prod.snd).sum =
          amt + selected.rgbChangeAmount := by
      simp [sendRgb, Transition.Balanced, Nat.add_comm]
    simp only [Outcome.ofOption_some, Outcome.bind_ok, List.append_nil, Option.some.injEq,
      exists_eq_left', ← hsum]
    constructor
    · intro hall
      simpa using hall true
    · intro hb u
      by_cases hu : selected.rgbChangeAmount > 0 ∧ u = false
      · rw [if_pos hu]
        exact .inl ⟨rfl, hu.2⟩
      · rw [if_neg hu]
        exact .inr ⟨_, rfl, hb⟩

/-- Acceptance bounds the amount by the wrapped total. -/
theorem le_of_sendassetAccepts (hid : runtime.debugHistory id = some h) {sealValid : Bool}
    (hacc : sendassetAccepts .release runtime unspents id amt sealValid = .ok ()) :
    amt ≤ total OwnedValue.amount (collectOwned unspents h.fungibles).toList % 2 ^ u64 := by
  simp only [sendassetAccepts, getRgbTotalAmount, getAssetOwnedValues, hid, sumAmounts_release,
    Option.map_some, Outcome.ofOption_some, Outcome.bind_ok] at hacc
  obtain ⟨u, hu, -⟩ := Outcome.bind_eq_ok.mp hacc
  cases hcheck : checkEnough amt
      (.ok (total OwnedValue.amount (collectOwned unspents h.fungibles).toList % 2 ^ u64)) with
  | error e => simp [hcheck] at hu
  | ok u =>
    obtain ⟨t, ht, hle⟩ := checkEnough_eq_ok.mp hcheck
    cases ht
    exact hle

/-- What a checked build accepts, an unchecked one accepts. -/
theorem sendassetAccepts_release (hid : runtime.debugHistory id = some h) {sealValid : Bool}
    {p : Profile} (hacc : sendassetAccepts p runtime unspents id amt sealValid = .ok ()) :
    sendassetAccepts .release runtime unspents id amt sealValid = .ok () := by
  rcases p with ⟨_ | _⟩
  · exact hacc
  · unfold sendassetAccepts at hacc ⊢
    simp only [getRgbTotalAmount, getAssetOwnedValues, hid] at hacc ⊢
    cases hsum : sumAmounts .dev (collectOwned unspents h.fungibles).toList with
    | none =>
      rw [show (⟨true⟩ : Profile) = .dev from rfl, hsum] at hacc
      cases hacc
    | some t =>
      rw [show (⟨true⟩ : Profile) = .dev from rfl, hsum] at hacc
      rw [sumAmounts_release_of hsum]
      exact hacc

/-- In both builds, `sendasset` and the channel funding build balanced transitions
iff the amount is selectable from the owned values. -/
theorem transition_balanced_iff (hstate : runtime.ReturnsAll)
    (hid : runtime.debugHistory id = some h)
    (hfees : ∀ o ∈ h.fungibles, o.sealOutpoint ∉ feeCoins) (sealValid : Bool) :
    ((∀ p, SendassetBalanced p runtime unspents id amt sealValid) ↔
      (sendassetAccepts .release runtime unspents id amt sealValid = .ok () →
        Selectable amt (collectOwned unspents h.fungibles).toList)) ∧
    ((∀ p, FundingBalanced p runtime unspents id amt feeCoins) ↔
      Selectable amt (collectOwned unspents h.fungibles).toList) := by
  have hnone : ∀ o ∈ h.fungibles, o.sealOutpoint ∉ ([] : List OutPoint) := by simp
  have hsend : (∀ p, SendassetBalanced p runtime unspents id amt sealValid) ↔
      (sendassetAccepts .release runtime unspents id amt sealValid = .ok () →
        Selectable amt (collectOwned unspents h.fungibles).toList) := by
    constructor
    · intro hall hacc
      have hbal := (sendassetBalanced_iff .release hid hacc).mp (hall .release)
      exact selectable_of_release hstate hid hnone (le_of_sendassetAccepts hid hacc) hbal
    · intro hsel p hacc
      have hbal := selectsBalanced_of_selectable p hstate hid hnone
        (hsel (sendassetAccepts_release hid hacc))
      exact (sendassetBalanced_iff p hid hacc).mpr hbal hacc
  have hfund : (∀ p, FundingBalanced p runtime unspents id amt feeCoins) ↔
      Selectable amt (collectOwned unspents h.fungibles).toList := by
    constructor
    · intro hall
      exact selectable_of_dev hstate hid hfees ((fundingBalanced_iff .dev hid).mp (hall .dev))
    · intro hsel p
      exact (fundingBalanced_iff p hid).mpr (selectsBalanced_of_selectable p hstate hid hfees hsel)
  exact ⟨hsend, hfund⟩

end Balance

/-- One outpoint was paid twice, 10 and then 20 units. -/
def paidTwice : ContractHistory ℕ where
  fungibles := [⟨0, ⟨Bytes32.fill 1, 0⟩, 10⟩, ⟨1, ⟨Bytes32.fill 1, 0⟩, 20⟩]
  nodup := by decide

def paidTwiceRuntime : Runtime ℕ where
  debugHistory _ := some paidTwice
  stateForOutpoints _ outpoints :=
    (paidTwice.fungibles.filter fun o => o.sealOutpoint ∈ outpoints).map fun o => (o.opout, o.amount)

theorem paidTwiceRuntime_returnsAll : paidTwiceRuntime.ReturnsAll := by
  intro id h hid outpoints
  cases hid
  exact .refl _

theorem transition_balanced_paidTwice :
    ¬Selectable 10 (collectOwned [⟨Bytes32.fill 1, 0⟩] paidTwice.fungibles).toList := by
  intro hsel
  obtain ⟨t, ht, hb⟩ := (transition_balanced_iff paidTwiceRuntime_returnsAll
    (rfl : paidTwiceRuntime.debugHistory (Bytes32.fill 9) = some paidTwice)
    (by simp : ∀ o ∈ paidTwice.fungibles, o.sealOutpoint ∉ []) true).2.mpr hsel .release
  have hrun : fundingTransition .release paidTwiceRuntime [⟨Bytes32.fill 1, 0⟩] (Bytes32.fill 9) 10
      [] = .ok ⟨[(0, 10), (1, 20)], [10]⟩ := by decide
  rw [hrun] at ht
  cases ht
  revert hb
  decide

theorem sendasset_destroys_paidTwice :
    sendassetTransition .release paidTwiceRuntime [⟨Bytes32.fill 1, 0⟩] (Bytes32.fill 9) 10 true true =
      .ok ⟨[(0, 10), (1, 20)], [10]⟩ ∧
    ¬∀ (runtime : Runtime ℕ) (unspents : List OutPoint) (id : ContractId) (amt : ℕ),
      runtime.ReturnsAll → ∀ p, SendassetBalanced p runtime unspents id amt true := by
  have hrun : sendassetTransition .release paidTwiceRuntime [⟨Bytes32.fill 1, 0⟩] (Bytes32.fill 9)
      10 true true = .ok ⟨[(0, 10), (1, 20)], [10]⟩ := by decide
  refine ⟨hrun, fun hall => ?_⟩
  have hb := hall paidTwiceRuntime [⟨Bytes32.fill 1, 0⟩] (Bytes32.fill 9) 10
    paidTwiceRuntime_returnsAll .release (by decide) true
  rw [hrun] at hb
  rcases hb with ⟨h, -⟩ | ⟨t, ht, hbal⟩
  · cases h
  · cases ht
    revert hbal
    decide

end RgbLightning.Rgb
