import RgbLightning.Base.Runs

/-! # The fee estimates

A task polls the estimates of three targets and then stores them one after the other.
Whoever needs a fee rate loads a single one at any time, also between two stores.
-/
namespace RgbLightning.Node
open Runs

inductive Target where
  | background
  | normal
  | highPriority
  deriving DecidableEq

inductive ConfirmationTarget where
  | background
  | normal
  | highPriority
  deriving DecidableEq

def MIN_FEERATE : ℕ := 253

namespace Target

/-- The arguments of `estimatesmartfee`: the blocks to confirm in and the mode. -/
def query : Target → ℕ × String
  | background => (144, "ECONOMICAL")
  | normal => (18, "ECONOMICAL")
  | highPriority => (6, "CONSERVATIVE")

/-- The rate that is stored at the start, and when no estimate is given. -/
def fallback : Target → ℕ
  | background => MIN_FEERATE
  | normal => 2000
  | highPriority => 5000

/-- The order of the stores. -/
def rank : Target → ℕ
  | background => 0
  | normal => 1
  | highPriority => 2

def estimate (target : Target) : Option ℕ → ℕ
  | some feerate => max feerate MIN_FEERATE
  | none => target.fallback

end Target

def ConfirmationTarget.target : ConfirmationTarget → Target
  | background => .background
  | normal => .normal
  | highPriority => .highPriority

abbrev Estimates := Target → ℕ

/-- Where the polling task is: asking for a target with the estimates so far, storing
with the targets left, or sleeping. -/
inductive PollPhase where
  | ask (target : Target) (got : Estimates)
  | store (estimates : Estimates) (left : List Target)
  | sleep

/-- A load, with the round its value comes from and the latest round at that time. -/
structure Load where
  target : Target
  value : ℕ
  round : ℕ
  latest : ℕ

/-- The rounds, the round of each value stored, and the loads are read by the
theorems only. Round 0 is what is stored at the start. -/
structure FeeState where
  fees : Estimates
  phase : PollPhase
  alive : Bool
  rounds : List Estimates
  stored : Target → ℕ
  loads : List Load

inductive FeeInput where
  /-- The answer to the query of the polling task. -/
  | answer (estimatesmartfee : ℕ × String → Except String (Option ℕ))
  | store
  | wake
  | getEst (confirmationTarget : ConfirmationTarget)

def FeeState.init : FeeState :=
  ⟨Target.fallback, .ask .background Target.fallback, true, [Target.fallback], fun _ => 0, []⟩

def FeeState.latest (s : FeeState) : ℕ := s.rounds.length - 1

/-- `get_est_sat_per_1000_weight`. -/
def FeeState.getEstSatPer1000Weight (s : FeeState) (confirmationTarget : ConfirmationTarget) : ℕ :=
  s.fees confirmationTarget.target

/-- The polling task with an estimate more. -/
def FeeState.estimated (s : FeeState) (target : Target) (got : Estimates) : FeeState :=
  match target with
  | .background => { s with phase := .ask .normal got }
  | .normal => { s with phase := .ask .highPriority got }
  | .highPriority => { s with
    phase := .store got [.background, .normal, .highPriority]
    rounds := s.rounds ++ [got] }

/-- A failed call is unwrapped, hence an abort. -/
def feeStep (s : FeeState) (input : FeeInput) : FeeState :=
  if s.alive then
    match input, s.phase with
    | .answer estimatesmartfee, .ask target got =>
      match estimatesmartfee target.query with
      | .ok feerate => s.estimated target (Function.update got target (target.estimate feerate))
      | .error _ => { s with alive := false }
    | .store, .store estimates (target :: left) => { s with
        fees := Function.update s.fees target (estimates target)
        stored := Function.update s.stored target s.latest
        phase := if left = [] then .sleep else .store estimates left }
    | .wake, .sleep => { s with phase := .ask .background Target.fallback }
    | .getEst confirmationTarget, _ => { s with
        loads := s.loads ++ [⟨confirmationTarget.target, s.getEstSatPer1000Weight confirmationTarget,
          s.stored confirmationTarget.target, s.latest⟩] }
    | _, _ => s
  else s

def feeRun (inputs : List FeeInput) : FeeState := run feeStep .init inputs

theorem Target.min_le_fallback (target : Target) : MIN_FEERATE ≤ target.fallback := by
  cases target <;> decide

theorem Target.min_le_estimate (target : Target) (feerate : Option ℕ) :
    MIN_FEERATE ≤ target.estimate feerate := by
  cases feerate with
  | none => exact target.min_le_fallback
  | some feerate => exact le_max_right _ _

namespace PollPhase

def order : List Target := [.background, .normal, .highPriority]

/-- The targets whose value is still the one of the round before. -/
def left : PollPhase → List Target
  | store _ left => left
  | ask .. | sleep => []

def Fits (rounds : List Estimates) : PollPhase → Prop
  | ask _ got => ∀ target, MIN_FEERATE ≤ got target
  | store estimates _ => rounds.getLast? = some estimates
  | sleep => True

theorem rank_lt_of_left {left : List Target} (h : left <:+ order) {target target' : Target}
    (hleft : target ∈ left) (hnot : target' ∉ left) : target'.rank < target.rank := by
  obtain ⟨stored, horder⟩ := h
  match stored, horder with
  | [], h => subst h; cases target' <;> simp [order] at hnot
  | [_], h => cases h; cases target' <;> cases target <;> simp_all [Target.rank]
  | [_, _], h => cases h; cases target' <;> cases target <;> simp_all [Target.rank]
  | [_, _, _], h => cases h; cases hleft
  | _ :: _ :: _ :: _ :: _, h => cases h

end PollPhase

/-- Each value stored is the one of its round, and of the latest round but for the targets
left. A load of the same or an earlier target never goes back to an older round. -/
structure FeeInv (s : FeeState) : Prop where
  nonempty : s.rounds ≠ []
  lower : ∀ estimates ∈ s.rounds, ∀ target, MIN_FEERATE ≤ estimates target
  fits : s.phase.Fits s.rounds
  order : s.phase.left <:+ PollPhase.order
  stored : ∀ target, s.stored target + (if target ∈ s.phase.left then 1 else 0) = s.latest
  fees : ∀ target, ∃ estimates, s.rounds[s.stored target]? = some estimates ∧
    s.fees target = estimates target
  loads : ∀ load ∈ s.loads, load.latest ≤ load.round + 1 ∧
    (∃ estimates, s.rounds[load.round]? = some estimates ∧ load.value = estimates load.target) ∧
    ∀ target, target.rank ≤ load.target.rank → load.round ≤ s.stored target
  ordered : s.loads.Pairwise fun earlier later =>
    later.target.rank ≤ earlier.target.rank → earlier.round ≤ later.round

theorem FeeInv.stored_anti {s : FeeState} (hs : FeeInv s) {target target' : Target}
    (h : target.rank ≤ target'.rank) : s.stored target' ≤ s.stored target := by
  have hstored := hs.stored target
  have hstored' := hs.stored target'
  by_cases hleft : target ∈ s.phase.left
  · by_cases hleft' : target' ∈ s.phase.left
    · simp only [hleft, hleft', if_true] at hstored hstored'
      omega
    · exact absurd (PollPhase.rank_lt_of_left hs.order hleft hleft') (by omega)
  · simp only [hleft, if_false] at hstored
    omega

theorem feeInv_init : FeeInv .init where
  nonempty := List.cons_ne_nil _ _
  lower estimates h target := by
    rw [List.mem_singleton.mp h]
    exact target.min_le_fallback
  fits := Target.min_le_fallback
  order := List.nil_suffix
  stored target := rfl
  fees target := ⟨Target.fallback, rfl, rfl⟩
  loads _ h := by cases h
  ordered := .nil

/-- A step that only moves the polling task on. -/
theorem FeeInv.of_phase {s : FeeState} (hs : FeeInv s) {phase : PollPhase} (hfits : phase.Fits s.rounds)
    (hleft : phase.left = s.phase.left) (alive : Bool) :
    FeeInv { s with phase := phase, alive := alive } :=
  ⟨hs.nonempty, hs.lower, hfits, hleft ▸ hs.order, fun target => by
    dsimp only [FeeState.latest]
    rw [hleft]
    exact hs.stored target, hs.fees, hs.loads, hs.ordered⟩

theorem FeeInv.estimated {s : FeeState} (hs : FeeInv s) {target : Target} {got : Estimates}
    (hphase : s.phase.left = []) (hgot : ∀ target, MIN_FEERATE ≤ got target) :
    FeeInv (s.estimated target got) := by
  cases target with
  | background =>
    have hfits : PollPhase.Fits s.rounds (.ask .normal got) := hgot
    exact hs.of_phase hfits hphase.symm s.alive
  | normal =>
    have hfits : PollPhase.Fits s.rounds (.ask .highPriority got) := hgot
    exact hs.of_phase hfits hphase.symm s.alive
  | highPriority =>
    have hgrow : ∀ {n : ℕ} {e : Estimates}, s.rounds[n]? = some e → (s.rounds ++ [got])[n]? = some e := by
      intro n e h
      rw [List.getElem?_append_left (List.getElem?_eq_some_iff.mp h).1, h]
    refine ⟨by simp [FeeState.estimated], fun estimates h => ?_, by simp [FeeState.estimated, PollPhase.Fits],
      List.suffix_refl _, fun target => ?_, fun target => ?_, fun load h => ?_, hs.ordered⟩
    · rcases List.mem_append.mp h with h | h
      · exact hs.lower estimates h
      · rw [List.mem_singleton.mp h]
        exact hgot
    · have hstored := hs.stored target
      have hlength := List.length_pos_iff.mpr hs.nonempty
      have hmem : target ∈ PollPhase.order := by cases target <;> simp [PollPhase.order]
      simp only [hphase, List.not_mem_nil, if_false, FeeState.latest] at hstored
      change s.stored target + (if target ∈ PollPhase.order then 1 else 0) = (s.rounds ++ [got]).length - 1
      simp only [hmem, if_true, List.length_append, List.length_singleton]
      omega
    · obtain ⟨estimates, hround, hfee⟩ := hs.fees target
      exact ⟨estimates, hgrow hround, hfee⟩
    · obtain ⟨hlatest, ⟨estimates, hround, hvalue⟩, hearlier⟩ := hs.loads load h
      exact ⟨hlatest, ⟨estimates, hgrow hround, hvalue⟩, hearlier⟩

theorem FeeInv.store {s : FeeState} (hs : FeeInv s) {estimates : Estimates} {target : Target}
    {left : List Target} (hphase : s.phase = .store estimates (target :: left)) {phase : PollPhase}
    (hfits : phase.Fits s.rounds) (hleft : phase.left = left) :
    FeeInv { s with
      fees := Function.update s.fees target (estimates target)
      stored := Function.update s.stored target s.latest
      phase := phase } := by
  have horder := hs.order
  have hlast := hs.fits
  rw [hphase] at horder hlast
  have hnodup : (target :: left).Nodup := List.Nodup.sublist horder.sublist (by decide)
  have hround : s.rounds[s.latest]? = some estimates := by
    rw [FeeState.latest, ← List.getLast?_eq_getElem?]
    exact hlast
  have hgrow : ∀ target', s.stored target' ≤ Function.update s.stored target s.latest target' := by
    intro target'
    by_cases heq : target' = target
    · have hstored := hs.stored target'
      rw [heq] at hstored ⊢
      rw [Function.update_self]
      omega
    · rw [Function.update_of_ne heq]
  refine ⟨hs.nonempty, hs.lower, hfits, ?_, fun target' => ?_, fun target' => ?_, fun load h => ?_, hs.ordered⟩
  · dsimp only
    rw [hleft]
    exact (List.suffix_cons target left).trans horder
  · dsimp only [FeeState.latest]
    rw [hleft]
    by_cases heq : target' = target
    · subst heq
      simp [(List.nodup_cons.mp hnodup).1]
    · have hstored := hs.stored target'
      rw [hphase] at hstored
      simpa [PollPhase.left, heq, FeeState.latest] using hstored
  · by_cases heq : target' = target
    · subst heq
      exact ⟨estimates, by simpa using hround, by simp⟩
    · obtain ⟨old, hold, hfee⟩ := hs.fees target'
      exact ⟨old, by simpa [heq] using hold, by simpa [heq] using hfee⟩
  · obtain ⟨hlatest, hvalue, hearlier⟩ := hs.loads load h
    exact ⟨hlatest, hvalue, fun target' hrank => (hearlier target' hrank).trans (hgrow target')⟩

theorem FeeInv.load {s : FeeState} (hs : FeeInv s) (target : Target) :
    FeeInv { s with loads := s.loads ++ [⟨target, s.fees target, s.stored target, s.latest⟩] } := by
  refine ⟨hs.nonempty, hs.lower, hs.fits, hs.order, hs.stored, hs.fees, fun load h => ?_, ?_⟩
  · rcases List.mem_append.mp h with h | h
    · exact hs.loads load h
    · rw [List.mem_singleton.mp h]
      have hstored := hs.stored target
      refine ⟨?_, hs.fees target, fun target' hrank => hs.stored_anti hrank⟩
      split at hstored <;> dsimp only <;> omega
  · refine List.pairwise_append.mpr ⟨hs.ordered, List.pairwise_singleton _ _, fun earlier h later h' => ?_⟩
    rw [List.mem_singleton.mp h']
    exact fun hrank => (hs.loads earlier h).2.2 target hrank

theorem feeStep_inv {s : FeeState} (hs : FeeInv s) (input : FeeInput) : FeeInv (feeStep s input) := by
  unfold feeStep
  split
  · split
    · rename_i estimatesmartfee target got hphase
      have hgot : ∀ target, MIN_FEERATE ≤ got target := by
        have hfits := hs.fits
        rwa [hphase] at hfits
      split
      · rename_i feerate hfeerate
        refine hs.estimated (by rw [hphase]; rfl) fun target' => ?_
        by_cases heq : target' = target
        · subst heq
          rw [Function.update_self]
          exact target'.min_le_estimate feerate
        · rw [Function.update_of_ne heq]
          exact hgot target'
      · exact hs.of_phase hs.fits rfl false
    · rename_i estimates target left hphase
      have hlast : s.rounds.getLast? = some estimates := by
        have hfits := hs.fits
        rwa [hphase] at hfits
      split
      · rename_i hnil
        exact hs.store hphase trivial hnil.symm
      · exact hs.store hphase hlast rfl
    · rename_i hphase
      have hfits : PollPhase.Fits s.rounds (.ask .background Target.fallback) := Target.min_le_fallback
      exact hs.of_phase hfits (by rw [hphase]; rfl) s.alive
    · exact hs.load _
    · exact hs
  · exact hs

/-- Whenever fee rates are loaded, also between the stores of a round: each is at least
the minimum and comes from the latest round or the one before, and no later load of the
same target, or of one that is stored earlier, comes from an older round. -/
theorem loads_from_two_rounds (inputs : List FeeInput) :
    (∀ load ∈ (feeRun inputs).loads, MIN_FEERATE ≤ load.value ∧ load.latest ≤ load.round + 1 ∧
      ∃ estimates, (feeRun inputs).rounds[load.round]? = some estimates ∧
        load.value = estimates load.target) ∧
    (feeRun inputs).loads.Pairwise fun earlier later =>
      later.target.rank ≤ earlier.target.rank → earlier.round ≤ later.round := by
  have hinv : FeeInv (feeRun inputs) := run_invariant FeeInv (fun _ => True) feeInv_init
    (fun _ input _ hs => feeStep_inv hs input) inputs (by simp)
  refine ⟨fun load h => ?_, hinv.ordered⟩
  obtain ⟨hlatest, ⟨estimates, hround, hvalue⟩, -⟩ := hinv.loads load h
  have hlower := hinv.lower estimates (List.mem_of_getElem? hround) load.target
  exact ⟨hvalue ▸ hlower, hlatest, estimates, hround, hvalue⟩

end RgbLightning.Node
