import RgbLightning.Base.Runs

/-! # Logs that drive an overwriting, consuming map

Each log entry puts a value under a key, takes the value of a key, or does
neither. The map such a log builds is described by the log alone: a key holds the
value of its last put when nothing touched the key afterwards.
-/
namespace RgbLightning.KeyedLog
open Runs
variable {K V E : Type*} [DecidableEq K]

inductive Effect (K V : Type*) where
  | put (k : K) (v : V)
  | take (k : K)
  | skip

namespace Effect

def Touches (k : K) : Effect K V → Prop
  | put k' _ => k' = k
  | take k' => k' = k
  | skip => False

def apply (m : K → Option V) : Effect K V → K → Option V
  | put k v => Function.update m k (some v)
  | take k => Function.update m k none
  | skip => m

omit [DecidableEq K] in
theorem touches_of_put {k : K} {v : V} {e : Effect K V} (h : e = .put k v) : e.Touches k := by
  subst h; rfl

theorem apply_of_not_touches {m : K → Option V} {k : K} {e : Effect K V} (h : ¬e.Touches k) :
    e.apply m k = m k := by
  cases e with
  | put k' v => exact Function.update_of_ne (fun hk => h hk.symm) _ _
  | take k' => exact Function.update_of_ne (fun hk => h hk.symm) _ _
  | skip => rfl

def isPut (k : K) : Effect K V → Bool
  | put k' _ => k' = k
  | _ => false

def isTake (k : K) : Effect K V → Bool
  | take k' => k' = k
  | _ => false

@[simp] theorem isPut_put (k : K) (v : V) : (put k v).isPut k = true := by simp [isPut]
@[simp] theorem isPut_take (k k' : K) : (take k' : Effect K V).isPut k = false := rfl
@[simp] theorem isTake_put (k k' : K) (v : V) : (put k' v).isTake k = false := rfl
@[simp] theorem isTake_take (k : K) : (take k : Effect K V).isTake k = true := by simp [isTake]

theorem isPut_of_not_touches {k : K} {e : Effect K V} (h : ¬e.Touches k) : e.isPut k = false := by
  cases e <;> simp_all [isPut, Touches]

theorem isTake_of_not_touches {k : K} {e : Effect K V} (h : ¬e.Touches k) :
    e.isTake k = false := by
  cases e <;> simp_all [isTake, Touches]

end Effect

variable (effect : E → Effect K V)

def contents (log : List E) : K → Option V := log.foldl (fun m e => (effect e).apply m) fun _ => none

@[simp] theorem contents_nil : contents effect [] = fun _ => none := rfl

@[simp] theorem contents_concat (log : List E) (e : E) :
    contents effect (log ++ [e]) = (effect e).apply (contents effect log) := by
  simp [contents]

/-- `v` was the last value put under `k`, and nothing touched `k` since. -/
def Standing (k : K) (v : V) (log : List E) : Prop :=
  ∃ older e newer, log = older ++ e :: newer ∧ effect e = .put k v ∧
    ∀ x ∈ newer, ¬(effect x).Touches k

omit [DecidableEq K] in
theorem not_standing_nil (k : K) (v : V) : ¬Standing effect k v [] := by
  rintro ⟨older, e, newer, h, -⟩
  simp at h

omit [DecidableEq K] in
theorem standing_concat_of_not_touches {k : K} {v : V} {log : List E} {e : E}
    (h : ¬(effect e).Touches k) :
    Standing effect k v (log ++ [e]) ↔ Standing effect k v log := by
  constructor
  · rintro ⟨older, x, newer, hsplit, hput, hnew⟩
    rcases concat_eq_split hsplit with ⟨rfl, rfl, rfl⟩ | ⟨rest, rfl, hlog⟩
    · exact absurd (Effect.touches_of_put hput) h
    · have hnew' : ∀ y ∈ rest, ¬(effect y).Touches k := by
        intro y hy
        apply hnew
        simp [hy]
      exact ⟨older, x, rest, hlog, hput, hnew'⟩
  · rintro ⟨older, x, newer, rfl, hput, hnew⟩
    refine ⟨older, x, newer ++ [e], by simp, hput, fun y hy => ?_⟩
    rcases List.mem_append.mp hy with hy | hy
    · exact hnew y hy
    · rw [List.mem_singleton.mp hy]
      exact h

omit [DecidableEq K] in
theorem standing_concat_of_touches {k : K} {v : V} {log : List E} {e : E}
    (h : (effect e).Touches k) :
    Standing effect k v (log ++ [e]) ↔ effect e = .put k v := by
  constructor
  · rintro ⟨older, x, newer, hsplit, hput, hnew⟩
    rcases concat_eq_split hsplit with ⟨rfl, rfl, rfl⟩ | ⟨rest, rfl, -⟩
    · exact hput
    · exact absurd h (hnew e (by simp))
  · intro hput
    exact ⟨log, e, [], rfl, hput, by simp⟩

/-- The map holds exactly the standing values. -/
theorem contents_eq_some {k : K} {v : V} {log : List E} :
    contents effect log k = some v ↔ Standing effect k v log := by
  induction log using List.reverseRecOn with
  | nil =>
    simp only [contents_nil, reduceCtorEq, false_iff]
    exact not_standing_nil effect k v
  | append_singleton log e ih =>
    rw [contents_concat]
    by_cases h : (effect e).Touches k
    · rw [standing_concat_of_touches effect h]
      cases he : effect e with
      | put k' v' =>
        rw [he] at h
        obtain rfl : k' = k := h
        simp [Effect.apply]
      | take k' =>
        rw [he] at h
        obtain rfl : k' = k := h
        simp [Effect.apply]
      | skip => simp [he, Effect.Touches] at h
    · rw [standing_concat_of_not_touches effect h, Effect.apply_of_not_touches h, ih]

def puts (k : K) (log : List E) : ℕ := log.countP fun e => (effect e).isPut k
def takes (k : K) (log : List E) : ℕ := log.countP fun e => (effect e).isTake k

def TakesStand : List E → Prop :=
  EachAfter fun older e => ∀ k, effect e = .take k → (contents effect older k).isSome

/-- When every take finds a value, a key is taken at most as often as it is put,
and strictly less often while it still holds a value. -/
theorem takes_le_puts {log : List E} (h : TakesStand effect log) (k : K) :
    takes effect k log + (if (contents effect log k).isSome then 1 else 0) ≤
      puts effect k log := by
  induction log using List.reverseRecOn with
  | nil => simp [takes, puts]
  | append_singleton log e ih =>
    obtain ⟨hlog, he⟩ := eachAfter_concat.mp h
    have ih := ih hlog
    simp only [takes, puts, contents_concat, List.countP_append, List.countP_singleton] at ih ⊢
    by_cases ht : (effect e).Touches k
    · cases hx : effect e with
      | put k' v =>
        rw [hx] at ht
        obtain rfl : k' = k := ht
        simp only [Effect.apply, Effect.isTake_put, Effect.isPut_put, Function.update_self]
        split at ih <;> simp <;> omega
      | take k' =>
        rw [hx] at ht
        obtain rfl : k' = k := ht
        rw [if_pos (he k' hx)] at ih
        simpa [Effect.apply] using ih
      | skip => simp [hx, Effect.Touches] at ht
    · rw [Effect.apply_of_not_touches ht, Effect.isPut_of_not_touches ht,
        Effect.isTake_of_not_touches ht]
      simpa using ih

end RgbLightning.KeyedLog
