import RgbLightning.Rgb.Selection

/-! # The inputs handed to the transaction builder

The loop collects one outpoint for each allocation that it visits. The builder wants
some coins, each of them once.
-/
namespace RgbLightning.Rgb
open MachineInt Cover
variable {Opout : Type*} {p : Profile} {amt : ℕ} {owned : List (OwnedValue Opout)}

/-- These values reach the amount, and no initial part of them does. -/
structure ShortestReaching (amt : ℕ) (owned taken : List (OwnedValue Opout)) : Prop where
  initial : taken <+: owned
  reaches : amt ≤ total OwnedValue.amount taken
  shortest : ∀ counted v after, taken = counted ++ v :: after → total OwnedValue.amount counted < amt

structure WellFormedInputs (amt : ℕ) (owned : List (OwnedValue Opout)) (rgbInputs : List OutPoint) :
    Prop where
  nonempty : rgbInputs ≠ []
  nodup : rgbInputs.Nodup
  reaching : ∃ taken, ShortestReaching amt owned taken ∧ rgbInputs = taken.map OwnedValue.outpoint

/-- Two allocations that come before the amount is reached have different outpoints. -/
def ReachedApart (amt : ℕ) (owned : List (OwnedValue Opout)) : Prop :=
  ∀ before a between b after, owned = before ++ a :: (between ++ b :: after) →
    total OwnedValue.amount (before ++ a :: between) < amt → a.outpoint ≠ b.outpoint

/-- Counting up to the amount does not leave the word before the last allocation. -/
def CountFits (amt : ℕ) (owned : List (OwnedValue Opout)) : Prop :=
  ∀ before a after, owned = before ++ a :: after → after ≠ [] →
    total OwnedValue.amount before < amt → total OwnedValue.amount before + a.amount < 2 ^ u64

section Lists
variable {α β : Type*}

theorem nodup_map_iff_split {f : α → β} {xs : List α} : (xs.map f).Nodup ↔
    ∀ before a between b after, xs = before ++ a :: (between ++ b :: after) → f a ≠ f b := by
  induction xs with
  | nil => simp
  | cons x xs ih =>
    rw [List.map_cons, List.nodup_cons, ih]
    constructor
    · rintro ⟨hfirst, hrest⟩ before a between b after hsplit
      cases before with
      | nil =>
        obtain ⟨rfl, rfl⟩ := List.cons.inj hsplit
        intro heq
        exact hfirst (List.mem_map.mpr ⟨b, by simp, heq.symm⟩)
      | cons c before =>
        obtain ⟨rfl, rfl⟩ := List.cons.inj hsplit
        exact hrest before a between b after rfl
    · intro h
      constructor
      · intro hmem
        obtain ⟨b, hb, heq⟩ := List.mem_map.mp hmem
        obtain ⟨between, after, rfl⟩ := List.append_of_mem hb
        exact h [] x between b after rfl heq.symm
      · intro before a between b after hsplit
        exact h (x :: before) a between b after (by rw [hsplit]; rfl)

end Lists

section Shortest
variable {taken before after : List (OwnedValue Opout)} {a : OwnedValue Opout}

/-- What comes before the amount is reached is taken. -/
theorem ShortestReaching.takes (h : ShortestReaching amt owned taken)
    (hsplit : owned = before ++ a :: after) (hlight : total OwnedValue.amount before < amt) :
    ∃ mid, taken = before ++ a :: mid := by
  have hreaches := h.reaches
  obtain ⟨rest, hrest⟩ := h.initial
  rw [hsplit] at hrest
  rcases List.append_eq_append_iff.mp hrest with ⟨ext, rfl, -⟩ | ⟨ext, rfl, htail⟩
  · rw [total_append] at hlight
    omega
  · cases ext with
    | nil =>
      rw [List.append_nil] at hreaches
      omega
    | cons x mid =>
      obtain ⟨rfl, -⟩ := List.cons.inj htail
      exact ⟨mid, rfl⟩

theorem ShortestReaching.nodup_iff (h : ShortestReaching amt owned taken) :
    (taken.map OwnedValue.outpoint).Nodup ↔ ReachedApart amt owned := by
  rw [nodup_map_iff_split]
  constructor
  · intro hapart before a between b after hsplit hlight
    have howned : owned = (before ++ a :: between) ++ b :: after := by simpa using hsplit
    obtain ⟨mid, hmid⟩ := h.takes howned hlight
    exact hapart before a between b mid (by simpa using hmid)
  · intro hapart before a between b after hsplit
    obtain ⟨rest, hrest⟩ := h.initial
    have hlight := h.shortest (before ++ a :: between) b after (by simpa using hsplit)
    exact hapart before a between b (after ++ rest) (by simp [← hrest, hsplit]) hlight

end Shortest

section Loop
variable {rgbInputs : List OutPoint} {inputAmount : ℕ}

/-- The loop takes a shortest part that reaches the amount iff its count fits. -/
theorem selectFrom_shortest_iff (h : selectFrom p amt owned [] 0 = some (rgbInputs, inputAmount))
    (hpos : 0 < amt) (hamt : amt < 2 ^ u64) (henough : amt ≤ total OwnedValue.amount owned)
    (hword : ∀ v ∈ owned, v.amount < 2 ^ u64) :
    (∃ taken, ShortestReaching amt owned taken ∧ rgbInputs = taken.map OwnedValue.outpoint) ↔
      CountFits amt owned := by
  obtain ⟨taken, rest, hsplit, hinputs, hamount, hstop, hlight⟩ := exists_taken h
  constructor
  · rintro ⟨taken', hshortest, hinputs'⟩ before a after howned hafter hbefore
    have hsame : taken' = taken := by
      obtain ⟨rest', hrest'⟩ := hshortest.initial
      have hlength := congrArg List.length (hinputs.symm.trans hinputs')
      rw [List.length_map, List.length_map] at hlength
      exact (List.append_inj (hrest'.trans hsplit) hlength.symm).1
    subst hsame
    have hword' := hword a (by simp [howned])
    obtain ⟨mid, htaken⟩ := hshortest.takes howned hbefore
    cases mid with
    | nil =>
      -- the loop stops behind `a`, so the word holds the amount there
      have hrest : rest ≠ [] := by
        rintro rfl
        rw [List.append_nil, htaken] at hsplit
        rw [hsplit] at howned
        have htail := List.append_cancel_left howned
        exact hafter (List.cons.inj htail).2.symm
      have hfull := hstop.resolve_left hrest
      rw [hamount, htaken, total_append, total_cons, total_nil, Nat.add_zero] at hfull
      by_contra hwraps
      rw [Nat.mod_eq_sub_mod (by omega), Nat.mod_eq_of_lt (by omega)] at hfull
      omega
    | cons b mid =>
      have hnext := hshortest.shortest (before ++ [a]) b mid (by simpa using htaken)
      rw [total_append, total_cons, total_nil, Nat.add_zero] at hnext
      omega
  · intro hfits
    have htrue : ∀ counted v after, taken = counted ++ v :: after →
        total OwnedValue.amount counted < amt := by
      intro counted
      induction counted using List.reverseRecOn with
      | nil => exact fun _ _ _ => hpos
      | append_singleton counted w ih =>
        intro v after htaken
        have hbefore := ih w (v :: after) (by simpa using htaken)
        have hfit := hfits counted w (v :: after ++ rest) (by simp [hsplit, htaken]) (by simp) hbefore
        have hcount := hlight (counted ++ [w]) v after htaken
        rw [total_append, total_cons, total_nil, Nat.add_zero] at hcount ⊢
        rwa [Nat.mod_eq_of_lt hfit] at hcount
    have hreaches : amt ≤ total OwnedValue.amount taken := by
      rcases hstop with rfl | hle
      · rwa [hsplit, List.append_nil] at henough
      · exact hle.trans (hamount ▸ Nat.mod_le _ _)
    exact ⟨taken, ⟨⟨rest, hsplit.symm⟩, hreaches, htrue⟩, hinputs⟩

/-- The inputs are well formed iff something is wanted, no coin is reached twice, and
the count fits. -/
theorem wellFormedInputs_iff (h : selectFrom p amt owned [] 0 = some (rgbInputs, inputAmount))
    (hamt : amt < 2 ^ u64) (henough : amt ≤ total OwnedValue.amount owned)
    (hword : ∀ v ∈ owned, v.amount < 2 ^ u64) :
    WellFormedInputs amt owned rgbInputs ↔ 0 < amt ∧ ReachedApart amt owned ∧ CountFits amt owned := by
  by_cases hpos : 0 < amt
  · rw [← selectFrom_shortest_iff h hpos hamt henough hword]
    constructor
    · rintro ⟨-, hnodup, taken, hshortest, rfl⟩
      exact ⟨hpos, hshortest.nodup_iff.mp hnodup, taken, hshortest, rfl⟩
    · rintro ⟨-, hapart, taken, hshortest, rfl⟩
      refine ⟨?_, hshortest.nodup_iff.mpr hapart, taken, hshortest, rfl⟩
      rintro hnil
      have hreaches := hshortest.reaches
      rw [List.map_eq_nil_iff.mp hnil, total_nil] at hreaches
      omega
  · have hzero : amt = 0 := by omega
    subst hzero
    constructor
    · rintro ⟨hnonempty, -, taken, hshortest, rfl⟩
      cases taken with
      | nil => exact absurd rfl hnonempty
      | cons v after => exact absurd (hshortest.shortest [] v after rfl) (by simp)
    · rintro ⟨hpos', -⟩
      exact absurd hpos' hpos

end Loop

end RgbLightning.Rgb
