import RgbLightning.Base.KeyedLog
import RgbLightning.Base.KeyedRuns

/-! # Files of keyed records

A reader parses one record after the other and puts each value under its key. It ends
at the first record that does not parse.
-/
namespace RgbLightning.RecordFile
open KeyedLog
variable {R K V ε : Type*} [DecidableEq K] (parse : R → Except ε (K × V))

def readInto (m : K → Option V) : List R → Except ε (K → Option V)
  | [] => .ok m
  | r :: records =>
    match parse r with
    | .ok (k, v) => readInto (Function.update m k (some v)) records
    | .error e => .error e

def read (records : List R) : Except ε (K → Option V) := readInto parse (fun _ => none) records

/-- What a record does to the map. -/
def effect (r : R) : Effect K V :=
  match parse r with
  | .ok (k, v) => .put k v
  | .error _ => .skip

def Parses (r : R) : Prop := ∃ entry, parse r = .ok entry

instance (r : R) : Decidable (Parses parse r) :=
  match h : parse r with
  | .ok entry => isTrue ⟨entry, h⟩
  | .error e => isFalse fun hparses => by
    obtain ⟨entry, hentry⟩ := hparses
    rw [h] at hentry
    cases hentry

variable {parse} {r : R} {k : K} {v : V} {records : List R}

omit [DecidableEq K] in
theorem effect_eq_put : effect parse r = .put k v ↔ parse r = .ok (k, v) := by
  unfold effect
  split <;> simp_all

omit [DecidableEq K] in
theorem effect_touches : (effect parse r).Touches k ↔ ∃ v, parse r = .ok (k, v) := by
  unfold effect
  split <;> simp_all [Effect.Touches]

theorem readInto_eq_ok {m m' : K → Option V} :
    readInto parse m records = .ok m' ↔ (∀ r ∈ records, Parses parse r) ∧
      records.foldl (fun m r => (effect parse r).apply m) m = m' := by
  induction records generalizing m with
  | nil => simp [readInto]
  | cons r records ih =>
    cases hr : parse r with
    | error e => simp [readInto, Parses, hr]
    | ok entry =>
      obtain ⟨k, v⟩ := entry
      have heffect : effect parse r = .put k v := effect_eq_put.mpr hr
      simp [readInto, Parses, hr, heffect, Effect.apply, ih]

/-- A file is read iff every record parses, and then gives the map of its puts. -/
theorem read_eq_ok {m : K → Option V} :
    read parse records = .ok m ↔ (∀ r ∈ records, Parses parse r) ∧ contents (effect parse) records = m :=
  readInto_eq_ok

theorem parses_of_read {m : K → Option V} (h : read parse records = .ok m) :
    ∀ r ∈ records, Parses parse r := (read_eq_ok.mp h).1

/-- The last record of a key decides its value. -/
theorem lookup_of_last {m : K → Option V} (hread : read parse records = .ok m) {older newer : List R}
    (hsplit : records = older ++ r :: newer) (hr : parse r = .ok (k, v))
    (hlast : ∀ x ∈ newer, ∀ w, parse x ≠ .ok (k, w)) : m k = some v := by
  obtain ⟨-, rfl⟩ := read_eq_ok.mp hread
  apply (contents_eq_some (effect parse)).mpr
  refine ⟨older, r, newer, hsplit, effect_eq_put.mpr hr, ?_⟩
  intro x hx htouches
  obtain ⟨w, hw⟩ := effect_touches.mp htouches
  exact hlast x hx w hw

/-- The value of a key in a file that was read is that of its last record. -/
theorem lookup_eq_some_iff {m : K → Option V} (hread : read parse records = .ok m) :
    m k = some v ↔ ∃ older r newer, records = older ++ r :: newer ∧ parse r = .ok (k, v) ∧
      ∀ x ∈ newer, ∀ w, parse x ≠ .ok (k, w) := by
  obtain ⟨-, hm⟩ := read_eq_ok.mp hread
  constructor
  · intro hv
    rw [← hm] at hv
    obtain ⟨older, r, newer, hsplit, hput, hlast⟩ := (contents_eq_some (effect parse)).mp hv
    refine ⟨older, r, newer, hsplit, effect_eq_put.mp hput, fun x hx w hw => ?_⟩
    exact hlast x hx (effect_touches.mpr ⟨w, hw⟩)
  · rintro ⟨older, r, newer, hsplit, hr, hlast⟩
    exact lookup_of_last hread hsplit hr hlast

/-- Every key of a file that was read has a value. -/
theorem exists_lookup {m : K → Option V} (hread : read parse records = .ok m) (hr : r ∈ records)
    (hparse : parse r = .ok (k, v)) : ∃ w, m k = some w := by
  have hsome : ∃ x ∈ records, ∃ w, parse x = .ok (k, w) := ⟨r, hr, v, hparse⟩
  classical
  obtain ⟨older, last, newer, hsplit, ⟨w, hw⟩, hlast⟩ := KeyedRuns.exists_last_of_mem hsome
  exact ⟨w, lookup_of_last hread hsplit hw fun x hx w' hx' => hlast x hx ⟨w', hx'⟩⟩

end RgbLightning.RecordFile
