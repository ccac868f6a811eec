import RgbLightning.Rgb.Conservation

/-! # What the selection reaches

Both builds visit the owned values in opout order while the amount counted so far,
as a 64-bit word, is below the amount wanted.
-/
namespace RgbLightning.Rgb
open MachineInt Cover
variable {Opout : Type*} {p : Profile} {amt : ℕ} {owned : List (OwnedValue Opout)}

/-- The loop goes on behind these values: no count on the way has reached the amount. -/
def Unfilled (amt : ℕ) (before : List (OwnedValue Opout)) : Prop :=
  ∀ counted, counted <+: before → total OwnedValue.amount counted % 2 ^ u64 < amt

section Loop
variable {rgbInputs : List OutPoint} {acc inputAmount : ℕ}

/-- What a checked build selects, an unchecked one selects. -/
theorem selectFrom_release_of {r : List OutPoint × ℕ}
    (h : selectFrom p amt owned rgbInputs acc = some r) :
    selectFrom .release amt owned rgbInputs acc = some r := by
  induction owned generalizing rgbInputs acc with
  | nil => exact h
  | cons v owned ih =>
    unfold selectFrom at h ⊢
    split at h
    · rwa [if_pos ‹_›]
    · rw [if_neg ‹_›]
      obtain ⟨next, hadd, hrest⟩ := Option.bind_eq_some_iff.mp h
      have hnext : addWord u64 .release acc v.amount = some next := narrow_release_of hadd
      rw [hnext, Option.bind_some]
      exact ih hrest

theorem selectInputs_eq_some {selected : Selection} (h : selectInputs p amt owned = some selected) :
    ∃ inputAmount, selectFrom p amt owned [] 0 = some (selected.rgbInputs, inputAmount) ∧
      subWord u64 p inputAmount amt = some selected.rgbChangeAmount := by
  obtain ⟨⟨rgbInputs, inputAmount⟩, hloop, hchange⟩ := Option.bind_eq_some_iff.mp h
  obtain ⟨change, hsub, rfl⟩ := Option.map_eq_some_iff.mp hchange
  exact ⟨inputAmount, hloop, hsub⟩

theorem selectInputs_of {change : ℕ} (hloop : selectFrom p amt owned [] 0 = some (rgbInputs, inputAmount))
    (hchange : subWord u64 p inputAmount amt = some change) :
    selectInputs p amt owned = some ⟨rgbInputs, change⟩ := by
  simp [selectInputs, hloop, hchange]

/-- The values taken are a prefix, which ends where the amount is reached. -/
theorem exists_taken (h : selectFrom p amt owned [] 0 = some (rgbInputs, inputAmount)) :
    ∃ taken rest, owned = taken ++ rest ∧ rgbInputs = taken.map OwnedValue.outpoint ∧
      inputAmount = total OwnedValue.amount taken % 2 ^ u64 ∧ (rest = [] ∨ amt ≤ inputAmount) ∧
      ∀ counted v after, taken = counted ++ v :: after →
        total OwnedValue.amount counted % 2 ^ u64 < amt := by
  obtain ⟨taken, rest, hsplit, hrun, hstop, hlight⟩ :=
    selectFrom_release amt owned (by positivity : 0 < 2 ^ u64) []
  rw [selectFrom_release_of h] at hrun
  simp only [List.nil_append, Nat.zero_add, Option.some.injEq, Prod.mk.injEq] at hrun hstop hlight
  obtain ⟨hinputs, hamount⟩ := hrun
  exact ⟨taken, rest, hsplit, hinputs, hamount, hamount ▸ hstop, hlight⟩

theorem prefix_concat_split {before counted after : List (OwnedValue Opout)} {v : OwnedValue Opout}
    (h : counted <+: before) : ∃ w rest, before ++ v :: after = counted ++ w :: rest := by
  obtain ⟨between, rfl⟩ := h
  cases between with
  | nil => exact ⟨v, after, by simp⟩
  | cons w between => exact ⟨w, between ++ v :: after, by simp⟩

/-- An outpoint is selected iff one of its values comes before the amount is reached. -/
theorem mem_rgbInputs_iff (h : selectFrom p amt owned [] 0 = some (rgbInputs, inputAmount))
    {o : OutPoint} : o ∈ rgbInputs ↔
      ∃ before v after, owned = before ++ v :: after ∧ v.outpoint = o ∧ Unfilled amt before := by
  obtain ⟨taken, rest, hsplit, rfl, hamount, hstop, hlight⟩ := exists_taken h
  constructor
  · intro ho
    obtain ⟨v, hv, hvo⟩ := List.mem_map.mp ho
    obtain ⟨before, after, htaken⟩ := List.append_of_mem hv
    refine ⟨before, v, after ++ rest, by simp [hsplit, htaken], hvo, ?_⟩
    intro counted hcounted
    obtain ⟨w, tail, hw⟩ := prefix_concat_split hcounted
    exact hlight counted w tail (htaken.trans hw)
  · intro hreached
    obtain ⟨before, v, after, hv, rfl, hunfilled⟩ := hreached
    have hgoes : ∀ mid, before = taken ++ mid → rest ≠ [] → False := by
      intro mid hmid hrest
      have hfilled : amt ≤ inputAmount := hstop.resolve_left hrest
      have hcount := hunfilled taken ⟨mid, hmid.symm⟩
      omega
    rcases List.append_eq_append_iff.mp (hsplit.symm.trans hv) with ⟨mid, hmid, hrest⟩ | ⟨mid, hmid, hrest⟩
    · exact (hgoes mid hmid (by simp [hrest])).elim
    · cases mid with
      | nil =>
        have hbefore : before = taken ++ [] := by simpa using hmid.symm
        have hne : rest ≠ [] := by
          rw [← List.nil_append rest, ← hrest]
          simp
        exact (hgoes [] hbefore hne).elim
      | cons w mid =>
        obtain ⟨rfl, -⟩ := List.cons.inj hrest
        simp [hmid]

/-- The amount is covered iff it is reached on the way. -/
theorem covered_iff (h : selectFrom p amt owned [] 0 = some (rgbInputs, inputAmount)) :
    amt ≤ inputAmount ↔ ¬Unfilled amt owned := by
  obtain ⟨taken, rest, hsplit, -, hamount, hstop, hlight⟩ := exists_taken h
  constructor
  · intro hle hunfilled
    have hcount := hunfilled taken ⟨rest, hsplit.symm⟩
    omega
  · intro hfilled
    by_contra hlt
    have hall : rest = [] := hstop.resolve_right hlt
    subst hall
    apply hfilled
    intro counted hcounted
    rw [hsplit, List.append_nil] at hcounted
    obtain ⟨between, hbetween⟩ := hcounted
    cases between with
    | nil =>
      rw [List.append_nil] at hbetween
      rw [hbetween]
      omega
    | cons w between => exact hlight counted w between hbetween.symm

/-- Below one word the amount is reached iff the values add up to it. -/
theorem unfilled_iff (hfits : total OwnedValue.amount owned < 2 ^ u64) :
    Unfilled amt owned ↔ total OwnedValue.amount owned < amt := by
  constructor
  · intro hunfilled
    have hcount := hunfilled owned (List.prefix_refl _)
    rwa [Nat.mod_eq_of_lt hfits] at hcount
  · intro hlt counted hcounted
    obtain ⟨rest, rfl⟩ := hcounted
    have hle : total OwnedValue.amount counted % 2 ^ u64 ≤ total OwnedValue.amount counted :=
      Nat.mod_le _ _
    rw [total_append] at hlt
    omega

/-- A checked build that gets through the loop over too many units has stopped in time. -/
theorem covered_of_dev (h : selectFrom .dev amt owned [] 0 = some (rgbInputs, inputAmount))
    (hamt : amt < 2 ^ u64) (hmany : 2 ^ u64 ≤ total OwnedValue.amount owned) : amt ≤ inputAmount := by
  have hfits := fits_of_selectFrom_dev h
  rw [selectFrom_eq_cover _ _ _ hfits] at h
  cases h
  obtain ⟨rest, hsplit, hstop⟩ := exists_cover_append OwnedValue.amount amt 0 owned
  rcases hstop with rfl | hle
  · rw [List.append_nil] at hsplit
    rw [← hsplit]
    omega
  · exact hle

end Loop

section Since
variable [DecidableEq Opout] {checked : List (OwnedValue Opout)}

/-- Since the balance was checked no more has left the wallet than there was to spare
and has come in since. A total beyond one word is a matter of the loop's own count. -/
def StillCovered (p : Profile) (amt : ℕ) (checked owned : List (OwnedValue Opout)) : Prop :=
  if total OwnedValue.amount owned < 2 ^ u64 then
    amt + total OwnedValue.amount (checked.filter fun v => v ∉ owned) ≤
      total OwnedValue.amount checked + total OwnedValue.amount (owned.filter fun v => v ∉ checked)
  else p.overflowChecks = true ∨ ¬Unfilled amt owned

/-- What was there and has not left is what is there and has not come in. -/
theorem total_since (hchecked : checked.Nodup) (howned : owned.Nodup) :
    total OwnedValue.amount checked + total OwnedValue.amount (owned.filter fun v => v ∉ checked) =
      total OwnedValue.amount owned + total OwnedValue.amount (checked.filter fun v => v ∉ owned) := by
  have hboth : (checked.filter fun v => v ∈ owned).Perm (owned.filter fun v => v ∈ checked) := by
    rw [List.perm_ext_iff_of_nodup (hchecked.filter _) (howned.filter _)]
    intro v
    simp [and_comm]
  have hstays := total_perm OwnedValue.amount hboth
  have hleft := total_filter_add OwnedValue.amount checked fun v => decide (v ∈ owned)
  have hcame := total_filter_add OwnedValue.amount owned fun v => decide (v ∈ checked)
  simp only [← decide_not] at hleft hcame
  omega

theorem covered_iff_since {rgbInputs : List OutPoint} {inputAmount : ℕ}
    (h : selectFrom p amt owned [] 0 = some (rgbInputs, inputAmount)) (hamt : amt < 2 ^ u64)
    (hchecked : checked.Nodup) (howned : owned.Nodup) :
    amt ≤ inputAmount ↔ StillCovered p amt checked owned := by
  have hsince := total_since hchecked howned
  unfold StillCovered
  by_cases hfits : total OwnedValue.amount owned < 2 ^ u64
  · rw [if_pos hfits, covered_iff h, unfilled_iff hfits]
    omega
  · rw [if_neg hfits]
    rcases p with ⟨_ | _⟩
    · simpa using covered_iff h
    · have hcovered : amt ≤ inputAmount := covered_of_dev h hamt (Nat.not_lt.mp hfits)
      simp [hcovered]

end Since

end RgbLightning.Rgb
