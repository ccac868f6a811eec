import Mathlib.Tactic

/-! # Runs of a step function and logs that grow at the end

A run folds a step function over its inputs. A property of a log entry may speak
about the entries before it; such properties are extended one entry at a time.
-/
namespace RgbLightning.Runs
variable {S I E : Type*}

def run (step : S → I → S) (init : S) (inputs : List I) : S := inputs.foldl step init

@[simp] theorem run_nil (step : S → I → S) (init : S) : run step init [] = init := rfl

@[simp] theorem run_concat (step : S → I → S) (init : S) (inputs : List I) (i : I) :
    run step init (inputs ++ [i]) = step (run step init inputs) i := by
  simp [run]

/-- What a step preserves, a run preserves. The inputs may be restricted. -/
theorem run_invariant {step : S → I → S} {init : S} (Inv : S → Prop) (Ok : I → Prop)
    (hinit : Inv init) (hstep : ∀ s i, Ok i → Inv s → Inv (step s i)) (inputs : List I)
    (hok : ∀ i ∈ inputs, Ok i) : Inv (run step init inputs) := by
  induction inputs using List.reverseRecOn with
  | nil => exact hinit
  | append_singleton inputs i ih =>
    have hinputs : ∀ j ∈ inputs, Ok j := by
      intro j hj
      apply hok
      simp [hj]
    have hi : Ok i := hok i (by simp)
    rw [run_concat]
    exact hstep _ i hi (ih hinputs)

/-- A place in a log that has grown by one entry is the new entry or a place before it. -/
theorem concat_eq_split {log older newer : List E} {last e : E}
    (h : log ++ [last] = older ++ e :: newer) :
    newer = [] ∧ older = log ∧ e = last ∨ ∃ rest, newer = rest ++ [last] ∧ log = older ++ e :: rest := by
  rcases List.eq_nil_or_concat newer with rfl | ⟨rest, x, rfl⟩
  · obtain ⟨rfl, hlast⟩ := List.append_inj' h rfl
    cases hlast
    exact .inl ⟨rfl, rfl, rfl⟩
  · have hsplit : log ++ [last] = (older ++ e :: rest) ++ [x] := by simp [h]
    obtain ⟨rfl, hlast⟩ := List.append_inj' hsplit rfl
    cases hlast
    exact .inr ⟨rest, List.concat_eq_append, rfl⟩

/-- Every entry satisfies `P` relative to the entries before it. -/
def EachAfter (P : List E → E → Prop) (log : List E) : Prop :=
  ∀ older e newer, log = older ++ e :: newer → P older e

@[simp] theorem eachAfter_nil (P : List E → E → Prop) : EachAfter P [] := by
  intro older e newer h
  simp at h

@[simp] theorem eachAfter_concat {P : List E → E → Prop} {log : List E} {e : E} :
    EachAfter P (log ++ [e]) ↔ EachAfter P log ∧ P log e := by
  constructor
  · intro h
    refine ⟨fun older x newer hx => h older x (newer ++ [e]) (by simp [hx]), h log e [] rfl⟩
  · rintro ⟨hlog, he⟩ older x newer hx
    rcases concat_eq_split hx with ⟨rfl, rfl, rfl⟩ | ⟨rest, rfl, hrest⟩
    · exact he
    · exact hlog older x rest hrest

/-- Steps in order keep an invariant that gives the property, and a step out of
order loses the property at once: then every state reached has the property iff all
steps are in order. -/
theorem run_exact {step : S → I → S} {init : S} {Inv P : S → Prop} {Ok : S → I → Prop}
    (hinit : Inv init) (hstep : ∀ s i, Inv s → Ok s i → Inv (step s i)) (hgood : ∀ s, Inv s → P s)
    (hbad : ∀ s i, Inv s → ¬Ok s i → ¬P (step s i)) (inputs : List I) :
    (∀ older newer, inputs = older ++ newer → P (run step init older)) ↔
      EachAfter (fun older i => Ok (run step init older) i) inputs := by
  have hkeep : ∀ inputs, EachAfter (fun older i => Ok (run step init older) i) inputs →
      Inv (run step init inputs) := by
    intro inputs
    induction inputs using List.reverseRecOn with
    | nil => exact fun _ => hinit
    | append_singleton inputs i ih =>
      intro h
      obtain ⟨hbefore, hi⟩ := eachAfter_concat.mp h
      rw [run_concat]
      exact hstep _ i (ih hbefore) hi
  constructor
  · intro h
    induction inputs using List.reverseRecOn with
    | nil => exact eachAfter_nil _
    | append_singleton inputs i ih =>
      have hbefore := ih fun older newer hsplit => h older (newer ++ [i]) (by simp [hsplit])
      refine eachAfter_concat.mpr ⟨hbefore, ?_⟩
      by_contra hi
      have hlost := hbad _ i (hkeep inputs hbefore) hi
      have hreached : P (run step init (inputs ++ [i])) := h (inputs ++ [i]) [] (by simp)
      rw [run_concat] at hreached
      exact hlost hreached
  · intro h older newer hsplit
    apply hgood
    apply hkeep
    intro before i after hbefore
    exact h before i (after ++ newer) (by simp [hsplit, hbefore])

/-- The same when a property that is lost stays lost. -/
theorem run_exact_last {step : S → I → S} {init : S} {Inv P : S → Prop} {Ok : S → I → Prop}
    (hinit : Inv init) (hstep : ∀ s i, Inv s → Ok s i → Inv (step s i)) (hgood : ∀ s, Inv s → P s)
    (hbad : ∀ s i, Inv s → ¬Ok s i → ¬P (step s i)) (hback : ∀ s i, P (step s i) → P s)
    (inputs : List I) :
    P (run step init inputs) ↔ EachAfter (fun older i => Ok (run step init older) i) inputs := by
  rw [← run_exact hinit hstep hgood hbad]
  constructor
  · rintro h older newer rfl
    induction newer using List.reverseRecOn with
    | nil => simpa using h
    | append_singleton newer i ih =>
      rw [← List.append_assoc, run_concat] at h
      exact ih (hback _ i h)
  · intro h
    exact h inputs [] (by simp)

theorem eachAfter_iff_getElem {P : List E → E → Prop} {log : List E} :
    EachAfter P log ↔ ∀ i, (h : i < log.length) → P (log.take i) log[i] := by
  constructor
  · intro h i hi
    exact h (log.take i) log[i] (log.drop (i + 1)) (by simp)
  · intro h older e newer hsplit
    subst hsplit
    simpa using h older.length (by simp)

instance {P : List E → E → Prop} [∀ older e, Decidable (P older e)] (log : List E) :
    Decidable (EachAfter P log) :=
  decidable_of_iff _ eachAfter_iff_getElem.symm

/-- Some entry satisfies `P` relative to the entries before it. -/
def SomeAfter (P : List E → E → Prop) (log : List E) : Prop :=
  ∃ older e newer, log = older ++ e :: newer ∧ P older e

theorem not_eachAfter_iff {P : List E → E → Prop} {log : List E} :
    ¬EachAfter (fun older e => ¬P older e) log ↔ SomeAfter P log := by
  simp [EachAfter, SomeAfter]

@[simp] theorem someAfter_nil (P : List E → E → Prop) : ¬SomeAfter P [] := by
  simp [← not_eachAfter_iff]

@[simp] theorem someAfter_concat {P : List E → E → Prop} {log : List E} {e : E} :
    SomeAfter P (log ++ [e]) ↔ SomeAfter P log ∨ P log e := by
  rw [← not_eachAfter_iff, eachAfter_concat, not_and_or, not_eachAfter_iff, not_not]

theorem EachAfter.initial {P : List E → E → Prop} {xs ys : List E} (h : EachAfter P ys)
    (hinitial : xs <+: ys) : EachAfter P xs := by
  obtain ⟨rest, rfl⟩ := hinitial
  intro older e newer hsplit
  exact h older e (newer ++ rest) (by simp [hsplit])

theorem eachAfter_append_of {P : List E → E → Prop} {xs ys : List E} (hxs : EachAfter P xs)
    (hys : EachAfter P ys) (hlater : ∀ before older e, P older e → P (before ++ older) e) :
    EachAfter P (xs ++ ys) := by
  induction ys using List.reverseRecOn with
  | nil => simpa using hxs
  | append_singleton ys e ih =>
    obtain ⟨hys, he⟩ := eachAfter_concat.mp hys
    rw [← List.append_assoc]
    exact eachAfter_concat.mpr ⟨ih hys, hlater xs ys e he⟩

theorem EachAfter.mem {P : List E → E → Prop} {log : List E} (h : EachAfter P log) {e : E}
    (he : e ∈ log) : ∃ older, P older e := by
  obtain ⟨older, newer, rfl⟩ := List.append_of_mem he
  exact ⟨older, h older e newer rfl⟩

end RgbLightning.Runs
