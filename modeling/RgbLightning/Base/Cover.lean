import Mathlib.Tactic

/-! # The shortest covering prefix

Items are taken from the front until their total weight reaches an amount. When
the whole list is too light, all of it is taken.
-/
namespace RgbLightning.Cover
variable {α : Type*} (weight : α → ℕ)

def total (xs : List α) : ℕ := (xs.map weight).sum

@[simp] theorem total_nil : total weight [] = 0 := rfl

@[simp] theorem total_cons (a : α) (xs : List α) : total weight (a :: xs) = weight a + total weight xs := by
  simp [total]

@[simp] theorem total_append (xs ys : List α) :
    total weight (xs ++ ys) = total weight xs + total weight ys := by
  simp [total]

theorem total_perm {xs ys : List α} (h : xs.Perm ys) : total weight xs = total weight ys :=
  (h.map weight).sum_eq

theorem total_filter_add (xs : List α) (keep : α → Bool) :
    total weight (xs.filter keep) + total weight (xs.filter fun a => !keep a) = total weight xs := by
  rw [← total_append]
  exact total_perm weight (List.filter_append_perm keep xs)

/-- A part of a list, with other repetitions, weighs no more than it. -/
theorem total_le_of_nodup {xs ys : List α} (hnodup : xs.Nodup) (hsubset : xs ⊆ ys) :
    total weight xs ≤ total weight ys := by
  obtain ⟨zs, hperm, hsub⟩ := hnodup.subperm hsubset
  rw [← total_perm weight hperm]
  exact (hsub.map weight).sum_le_sum fun _ _ => Nat.zero_le _

theorem total_flatMap {β : Type*} (f : β → List α) (xs : List β) :
    total weight (xs.flatMap f) = total (fun x => total weight (f x)) xs := by
  induction xs with
  | nil => rfl
  | cons x xs ih => rw [List.flatMap_cons, total_append, total_cons, ih]

/-- The rest of the cover once `acc` has been collected. -/
def cover (amount : ℕ) : ℕ → List α → List α
  | _, [] => []
  | acc, a :: rest => if amount ≤ acc then [] else a :: cover amount (acc + weight a) rest

variable {weight} {amount acc : ℕ} {xs : List α}

theorem cover_of_le (h : amount ≤ acc) : cover weight amount acc xs = [] := by
  cases xs with
  | nil => rfl
  | cons a rest => simp [cover, h]

theorem cover_cons_of_lt {a : α} (h : acc < amount) :
    cover weight amount acc (a :: xs) = a :: cover weight amount (acc + weight a) xs := by
  simp [cover, Nat.not_le.mpr h]

/-- The cover is a prefix, and what follows it is only reached when it is heavy enough. -/
theorem exists_cover_append (weight : α → ℕ) (amount acc : ℕ) (xs : List α) :
    ∃ rest, xs = cover weight amount acc xs ++ rest ∧
      (rest = [] ∨ amount ≤ acc + total weight (cover weight amount acc xs)) := by
  induction xs generalizing acc with
  | nil => exact ⟨[], rfl, .inl rfl⟩
  | cons a xs ih =>
    by_cases h : amount ≤ acc
    · rw [cover_of_le h]
      exact ⟨a :: xs, rfl, .inr (by simpa using h)⟩
    · obtain ⟨rest, hsplit, hrest⟩ := ih (acc + weight a)
      rw [cover_cons_of_lt (Nat.not_le.mp h)]
      refine ⟨rest, ?_, ?_⟩
      · rw [List.cons_append, ← hsplit]
      · rw [total_cons, ← Nat.add_assoc]
        exact hrest

theorem lt_of_cover_split {before after : List α} {a : α}
    (h : cover weight amount acc xs = before ++ a :: after) : acc + total weight before < amount := by
  induction xs generalizing acc before with
  | nil => simp [cover] at h
  | cons b xs ih =>
    by_cases hacc : amount ≤ acc
    · rw [cover_of_le hacc] at h
      simp at h
    · rw [cover_cons_of_lt (Nat.not_le.mp hacc)] at h
      cases before with
      | nil => simpa using Nat.not_le.mp hacc
      | cons c before =>
        obtain ⟨rfl, htail⟩ := List.cons.inj h
        rw [total_cons, ← Nat.add_assoc]
        exact ih htail

/-- A prefix that stops in time is the cover. -/
theorem cover_append_eq {taken rest : List α}
    (hlight : ∀ before a after, taken = before ++ a :: after → acc + total weight before < amount)
    (hstop : rest = [] ∨ amount ≤ acc + total weight taken) :
    cover weight amount acc (taken ++ rest) = taken := by
  induction taken generalizing acc with
  | nil =>
    rcases hstop with rfl | h
    · rfl
    · exact cover_of_le (by simpa using h)
  | cons a taken ih =>
    have hacc : acc < amount := by simpa using hlight [] a taken rfl
    have htail : ∀ before b after, taken = before ++ b :: after →
        acc + weight a + total weight before < amount := by
      intro before b after hsplit
      have hbefore := hlight (a :: before) b after (by rw [hsplit]; rfl)
      rwa [total_cons, ← Nat.add_assoc] at hbefore
    have hstop' : rest = [] ∨ amount ≤ acc + weight a + total weight taken := by
      simpa [Nat.add_assoc] using hstop
    rw [List.cons_append, cover_cons_of_lt hacc, ih htail hstop']

theorem cover_split_iff (acc : ℕ) {before : List α} (after : List α) {a : α} :
    (∃ mid, cover weight amount acc (before ++ a :: after) = before ++ a :: mid) ↔
      acc + total weight before < amount := by
  constructor
  · rintro ⟨mid, h⟩
    exact lt_of_cover_split h
  · induction before generalizing acc with
    | nil =>
      intro h
      exact ⟨_, cover_cons_of_lt (by simpa using h)⟩
    | cons b before ih =>
      intro h
      rw [total_cons, ← Nat.add_assoc] at h
      have hacc : acc < amount := by omega
      obtain ⟨mid, hmid⟩ := ih _ h
      refine ⟨mid, ?_⟩
      rw [List.cons_append, cover_cons_of_lt hacc, hmid]
      rfl

/-- No item behind the cover that weighs something shares its group with an item
of the cover: once an item is taken, so are the later ones of its group. -/
def GroupsWhole {β : Type*} (weight : α → ℕ) (group : α → β) (amount : ℕ) (xs : List α) : Prop :=
  ∀ before a between b after, xs = before ++ a :: (between ++ b :: after) →
    group a = group b → 0 < weight b →
    total weight before < amount → total weight (before ++ a :: between) < amount

/-- The groups met by the cover weigh as much as the cover iff they are whole. -/
theorem groupsWhole_iff {β : Type*} [DecidableEq β] {group : α → β} {taken rest : List α}
    (htaken : cover weight amount 0 (taken ++ rest) = taken) :
    GroupsWhole weight group amount (taken ++ rest) ↔
      total weight (rest.filter fun b => group b ∈ taken.map group) = 0 := by
  have hstop : rest = [] ∨ amount ≤ total weight taken := by
    obtain ⟨rest', hsplit, hrest⟩ := exists_cover_append weight amount 0 (taken ++ rest)
    rw [htaken] at hsplit hrest
    rw [Nat.zero_add] at hrest
    rwa [List.append_cancel_left hsplit]
  constructor
  · intro h
    apply List.sum_eq_zero
    intro n hn
    obtain ⟨b, hb, rfl⟩ := List.mem_map.mp hn
    obtain ⟨hmem, hgroup⟩ := List.mem_filter.mp hb
    obtain ⟨a, ha, hab⟩ := List.mem_map.mp (of_decide_eq_true hgroup)
    obtain ⟨r₁, r₂, rfl⟩ := List.append_of_mem hmem
    obtain ⟨t₁, t₂, rfl⟩ := List.append_of_mem ha
    by_contra hne
    have hlight : total weight t₁ < amount := by
      have hbefore := lt_of_cover_split htaken
      omega
    have hwhole := h t₁ a (t₂ ++ r₁) b r₂ (by simp) hab (Nat.pos_of_ne_zero hne) hlight
    rcases hstop with hnil | hle
    · simp at hnil
    · simp only [total_append, total_cons] at hwhole hle
      omega
  · intro hzero before a between b after hsplit hgroup hpos hlight
    by_contra hheavy
    have hsplit' : taken ++ rest = (before ++ a :: between) ++ b :: after := by
      rw [hsplit]
      simp
    have hmem : a ∈ taken := by
      obtain ⟨mid, hmid⟩ := (cover_split_iff 0 (between ++ b :: after)).mpr
        (by simpa using hlight)
      rw [← hsplit, htaken] at hmid
      simp [hmid]
    have hb : b ∈ rest := by
      -- otherwise the cover would reach `b` although the items before it suffice
      rcases List.append_eq_append_iff.mp hsplit' with ⟨mid, hmid, hrest⟩ | ⟨mid, htk, hmid⟩
      · simp [hrest]
      · cases mid with
        | nil =>
          simp only [List.nil_append] at hmid
          simp [← hmid]
        | cons c mid =>
          obtain ⟨rfl, -⟩ := List.cons.inj hmid
          rw [htk] at htaken
          have hbefore := lt_of_cover_split htaken
          omega
    have hkept : b ∈ rest.filter fun b => group b ∈ taken.map group := by
      rw [List.mem_filter]
      exact ⟨hb, decide_eq_true (List.mem_map.mpr ⟨a, hmem, hgroup⟩)⟩
    have hle := List.single_le_sum (fun _ _ => Nat.zero_le _) _ (List.mem_map_of_mem (f := weight) hkept)
    unfold total at hzero
    omega

end RgbLightning.Cover
