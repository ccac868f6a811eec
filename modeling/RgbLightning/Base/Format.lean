import Mathlib.Tactic

/-! # Formats

A reader and a writer between raw inputs and values. The writer gives an input in the
domain, the reader takes back what was written, and reads nothing but what can be written.
-/
namespace RgbLightning

structure Format {W A : Type*} (Dom : W → Prop) (Reads : W → A → Prop) (write : A → W)
    (Ok : A → Prop) : Prop where
  dom : ∀ a, Ok a → Dom (write a)
  reads : ∀ a, Ok a → Reads (write a) a
  sound : ∀ w a, Dom w → Reads w a → Ok a

namespace Format
variable {W A : Type*} {Dom : W → Prop} {Reads : W → A → Prop} {write : A → W} {Ok : A → Prop}

/-- What an input of the domain can be read as. -/
theorem exists_reads_iff (h : Format Dom Reads write Ok) (a : A) : (∃ w, Dom w ∧ Reads w a) ↔ Ok a := by
  constructor
  · rintro ⟨w, hw, hread⟩
    exact h.sound w a hw hread
  · intro ha
    exact ⟨write a, h.dom a ha, h.reads a ha⟩

/-- Writing what was read gives an input that is read the same way. -/
theorem rewrites (h : Format Dom Reads write Ok) {w : W} {a : A} (hw : Dom w) (hread : Reads w a) :
    Reads (write a) a :=
  h.reads a (h.sound w a hw hread)

end Format

end RgbLightning
