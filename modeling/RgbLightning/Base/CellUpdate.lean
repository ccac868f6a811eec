import RgbLightning.Base.Interleaving

/-! # Reading the cell and writing it back

A task that reads the cell and later writes a value made from what it read loses
every write in between. A task may keep guards from its read to its write; two
tasks with a common guard cannot do this to each other.
-/
namespace RgbLightning
open Runs
variable {T L V E O α : Type}

namespace Task

/-- The next access of the cell is a write. -/
def WritesBack : Task L V E α → Prop
  | ret _ | abort | read _ => False
  | write _ _ => True
  | acquire _ k | release _ k | emit _ k => k.WritesBack

def decidableWritesBack : (x : Task L V E α) → Decidable x.WritesBack
  | ret _ | abort | read _ => isFalse id
  | write _ _ => isTrue trivial
  | acquire _ k | release _ k | emit _ k => decidableWritesBack k

instance (x : Task L V E α) : Decidable x.WritesBack := x.decidableWritesBack

end Task

/-- The locks a task holds, those it has held since its last read, what it read
if nothing was written since, and what it has written last. -/
structure UpdateState (L V : Type) where
  held : L → Bool
  heldSince : L → Bool
  lastRead : Option V
  written : Option V

def UpdateState.init : UpdateState L V := ⟨fun _ => false, fun _ => false, none, none⟩

section Updates
variable (Claim : E → V → Prop)

/-- Every note that is true of the one value is true of the other. -/
def Keeps (v v' : V) : Prop := ∀ e, Claim e v → Claim e v'

variable {Claim} [DecidableEq L]

/-- Every write keeps what was read, under the guards held since. Every note is true
of what the task has written, or of any cell. -/
def updateMonitor (Claim : E → V → Prop) (guard : L → Prop) : Monitor L V E (UpdateState L V) where
  sees _ _ := True
  ok g
    | .release l => g.held l = true
    | .write v' => (∃ v, g.lastRead = some v ∧ Keeps Claim v v') ∧ ∀ l, guard l → g.heldSince l = true
    | .emit e => (∃ w, g.written = some w ∧ Claim e w) ∨ ∀ w, Claim e w
    | _ => True
  next g
    | .acquire l => { g with held := Function.update g.held l true }
    | .release l => { g with held := Function.update g.held l false,
                             heldSince := Function.update g.heldSince l false }
    | .read v => { g with heldSince := g.held, lastRead := some v }
    | .write v' => { g with lastRead := none, written := some v' }
    | .emit _ => g

theorem Task.WritesBack.guarded {guard : L → Prop} {x : Task L V E α} {post : α → UpdateState L V → Prop}
    {g : UpdateState L V} (h : x.WritesBack) (hwp : x.wp (updateMonitor Claim guard) post g) {l : L}
    (hl : guard l) : g.heldSince l = true := by
  induction x generalizing g with
  | ret a => exact h.elim
  | abort => exact h.elim
  | read k ih => exact h.elim
  | acquire l' k ih =>
    have hsince := ih h hwp.2
    exact hsince
  | release l' k ih =>
    have hsince : Function.update g.heldSince l' false l = true := ih h hwp.2
    by_cases hl' : l = l'
    · subst hl'
      simp at hsince
    · rwa [Function.update_of_ne hl'] at hsince
  | write v k ih => exact hwp.1.2 l hl
  | emit e k ih => exact ih h hwp.2

/-- The monitor knows the locks a task owns and, while the task is to write back, the cell. -/
structure Tracks (Claim : E → V → Prop) (guard : L → Prop) (x : Task L V E Unit) (Owns : L → Prop)
    (cell : V) (g : UpdateState L V) : Prop where
  wp : x.wp (updateMonitor Claim guard) (fun _ _ => True) g
  owns : ∀ l, g.held l = true → Owns l
  since : ∀ l, g.heldSince l = true → g.held l = true
  written : ∀ w, g.written = some w → Keeps Claim w cell
  current : ∀ v, g.lastRead = some v → x.WritesBack → v = cell

namespace Tracks
variable {guard : L → Prop} {k : Task L V E Unit} {Owns Owns' : L → Prop} {cell : V}
  {g : UpdateState L V} {l : L}

theorem init {x : Task L V E Unit} (h : x.wp (updateMonitor Claim guard) (fun _ _ => True) .init) :
    Tracks Claim guard x Owns cell .init where
  wp := h
  owns l hl := by cases hl
  since l hl := by cases hl
  written w hw := by cases hw
  current _ hv := by cases hv

theorem acquire (h : Tracks Claim guard (.acquire l k) Owns cell g)
    (howns : ∀ l', l' ≠ l → Owns l' → Owns' l') (hl : Owns' l) :
    Tracks Claim guard k Owns' cell ((updateMonitor Claim guard).next g (.acquire l)) where
  wp := h.wp.2
  owns l' hl' := by
    by_cases heq : l' = l
    · rwa [heq]
    · exact howns l' heq (h.owns l' (by simpa [updateMonitor, heq] using hl'))
  since l' hl' := by
    by_cases heq : l' = l
    · simp [updateMonitor, heq]
    · simpa [updateMonitor, heq] using h.since l' hl'
  written := h.written
  current := h.current

theorem release (h : Tracks Claim guard (.release l k) Owns cell g)
    (howns : ∀ l', l' ≠ l → Owns l' → Owns' l') :
    Tracks Claim guard k Owns' cell ((updateMonitor Claim guard).next g (.release l)) where
  wp := h.wp.2
  owns l' hl' := by
    by_cases heq : l' = l
    · simp [updateMonitor, heq] at hl'
    · exact howns l' heq (h.owns l' (by simpa [updateMonitor, heq] using hl'))
  since l' hl' := by
    by_cases heq : l' = l
    · simp [updateMonitor, heq] at hl'
    · simp only [updateMonitor, ne_eq, heq, not_false_eq_true, Function.update_of_ne] at hl' ⊢
      exact h.since l' hl'
  written := h.written
  current := h.current

theorem read {f : V → Task L V E Unit} (h : Tracks Claim guard (.read f) Owns cell g) :
    Tracks Claim guard (f cell) Owns cell ((updateMonitor Claim guard).next g (.read cell)) where
  wp := h.wp cell trivial
  owns := h.owns
  since _ hl := hl
  written := h.written
  current _ hv _ := (Option.some.inj hv).symm

theorem write {v : V} (h : Tracks Claim guard (.write v k) Owns cell g) :
    Tracks Claim guard k Owns v ((updateMonitor Claim guard).next g (.write v)) where
  wp := h.wp.2
  owns := h.owns
  since := h.since
  written w hw e he := by
    cases hw
    exact he
  current _ hv' := by cases hv'

theorem emit {e : E} (h : Tracks Claim guard (.emit e k) Owns cell g) :
    Tracks Claim guard k Owns cell ((updateMonitor Claim guard).next g (.emit e)) where
  wp := h.wp.2
  owns := h.owns
  since := h.since
  written := h.written
  current := h.current

/-- What the others do to a task. -/
theorem frame {x : Task L V E Unit} {cell' : V} (h : Tracks Claim guard x Owns cell g)
    (howns : ∀ l, Owns l → Owns' l) (hkeeps : Keeps Claim cell cell')
    (hcell : x.WritesBack → cell' = cell) : Tracks Claim guard x Owns' cell' g where
  wp := h.wp
  owns l hl := howns l (h.owns l hl)
  since := h.since
  written w hw e he := hkeeps e (h.written w hw e he)
  current v hv hx := (h.current v hv hx).trans (hcell hx).symm

theorem keeps {v : V} (h : Tracks Claim guard (.write v k) Owns cell g) : Keeps Claim cell v := by
  obtain ⟨v₀, hread, hkeeps⟩ := h.wp.1.1
  rwa [h.current v₀ hread trivial] at hkeeps

theorem noted {e : E} (h : Tracks Claim guard (.emit e k) Owns cell g) : Claim e cell := by
  rcases h.wp.1 with ⟨w, hw, he⟩ | he
  · exact h.written w hw e he
  · exact he cell

theorem guarded {x : Task L V E Unit} (h : Tracks Claim guard x Owns cell g) (hx : x.WritesBack)
    (hl : guard l) : Owns l :=
  h.owns l (h.since l (hx.guarded h.wp hl))

end Tracks

end Updates

namespace TaskSystem
variable [DecidableEq T] [DecidableEq L] {S : Schedule T L V E O}
  {Claim : E → V → Prop} {guard : O → L → Prop}

def guardOf (guard : O → L → Prop) (s : TaskSystem T L V E O) (t : T) (l : L) : Prop :=
  ∀ o, s.op t = some o → guard o l

omit [DecidableEq T] [DecidableEq L] in
theorem guardOf_of_op {s : TaskSystem T L V E O} {t : T} {o : O} (h : s.op t = some o) :
    guardOf guard s t = guard o := by
  funext l
  simp [guardOf, h]

/-- The task writes while another one is about to write back what it read before,
and the two have no guard in common. -/
def Clobbers (guard : O → L → Prop) (s : TaskSystem T L V E O) (choice : Choice T O) : Prop :=
  ∃ t t', t ≠ t' ∧ choice = .act t ∧ (∃ v k, s.prog t = .write v k) ∧ (s.prog t').WritesBack ∧
    ¬∃ l, guardOf guard s t l ∧ guardOf guard s t' l

def Updates (S : Schedule T L V E O) (Claim : E → V → Prop) (guard : O → L → Prop) : Prop :=
  ∀ o, (S.body o).wp (updateMonitor Claim (guard o)) (fun _ _ => True) .init

def Tracked (Claim : E → V → Prop) (guard : O → L → Prop) (s : TaskSystem T L V E O) (t : T) : Prop :=
  ∃ g, Tracks Claim (guardOf guard s t) (s.prog t) (fun l => s.owner l = some t) s.cell g

structure UpdateInv (Claim : E → V → Prop) (guard : O → L → Prop) (s : TaskSystem T L V E O) :
    Prop where
  tracked : ∀ t, Tracked Claim guard s t
  noted : ∀ t e, (t, e) ∈ s.log → Claim e s.cell

omit [DecidableEq T] in
theorem updateInv_init (cell : V) :
    UpdateInv Claim guard (init cell : TaskSystem T L V E O) where
  tracked t := ⟨.init, .init trivial⟩
  noted t e h := by cases h

theorem StepSpec.keeps {s s' : TaskSystem T L V E O} {choice : Choice T O} (h : StepSpec S s choice s')
    (hs : ∀ t, Tracked Claim guard s t) : Keeps Claim s.cell s'.cell := by
  cases h with
  | @write t v k hp =>
    obtain ⟨g, hg⟩ := hs t
    rw [hp] at hg
    exact hg.keeps
  | _ => exact fun e he => he

theorem StepSpec.tracked_self {s s' : TaskSystem T L V E O} {choice : Choice T O}
    (hS : Updates S Claim guard) (h : StepSpec S s choice s') (hs : Tracked Claim guard s choice.task) :
    Tracked Claim guard s' choice.task := by
  obtain ⟨g, hg⟩ := hs
  cases h with
  | @start t o hidle hmay =>
    refine ⟨.init, .init ?_⟩
    rw [Choice.task, guardOf_of_op (Function.update_self ..), setProg_prog_self]
    exact hS o
  | abort hp => exact ⟨g, hg⟩
  | @acquire t l k hp hfree =>
    rw [Choice.task, hp] at hg
    rw [Tracked, Choice.task, setProg_prog_self]
    exact ⟨_, hg.acquire (fun l' hl' ho => by simpa [hl'] using ho) (by simp)⟩
  | @release t l k hp =>
    rw [Choice.task, hp] at hg
    rw [Tracked, Choice.task, setProg_prog_self]
    exact ⟨_, hg.release (fun l' hl' ho => by simpa [hl'] using ho)⟩
  | @read t k hp =>
    rw [Choice.task, hp] at hg
    rw [Tracked, Choice.task, setProg_prog_self]
    exact ⟨_, hg.read⟩
  | @write t v k hp =>
    rw [Choice.task, hp] at hg
    rw [Tracked, Choice.task, setProg_prog_self]
    exact ⟨_, hg.write⟩
  | @emit t e k hp =>
    rw [Choice.task, hp] at hg
    rw [Tracked, Choice.task, setProg_prog_self]
    exact ⟨_, hg.emit⟩

/-- The other tasks stay tracked, unless the step clobbers. -/
theorem StepSpec.tracked_of_ne {s s' : TaskSystem T L V E O} {choice : Choice T O}
    (h : StepSpec S s choice s') (hok : ¬Clobbers guard s choice)
    (hs : ∀ t, Tracked Claim guard s t) {t : T} (ht : t ≠ choice.task) : Tracked Claim guard s' t := by
  obtain ⟨hprog, hop, -⟩ := h.frame ht
  obtain ⟨g, hg⟩ := hs t
  have hguard : guardOf guard s' t = guardOf guard s t := by
    funext l
    simp only [guardOf, hop]
  -- nobody else takes or releases a lock the task owns
  have howns : ∀ l, s.owner l = some t → s'.owner l = some t := by
    intro l ho
    cases h with
    | @acquire u l' k hp hfree =>
      have hl : l ≠ l' := by
        intro hl
        rw [hl, hfree] at ho
        cases ho
      simpa [hl] using ho
    | @release u l' k hp =>
      obtain ⟨gu, hgu⟩ := hs u
      rw [hp] at hgu
      have hu : s.owner l' = some u := hgu.owns l' hgu.wp.1
      have hl : l ≠ l' := by
        intro hl
        rw [hl, hu] at ho
        exact ht (Option.some.inj ho).symm
      simpa [hl] using ho
    | _ => exact ho
  have hcell : (s.prog t).WritesBack → s'.cell = s.cell := by
    intro hwrites
    cases h with
    | @write u v k hp =>
      have hdisjoint : ¬∃ l, guardOf guard s u l ∧ guardOf guard s t l := by
        rintro ⟨l, hlu, hlt⟩
        obtain ⟨gu, hgu⟩ := hs u
        have hwritesu : (s.prog u).WritesBack := by
          rw [hp]
          trivial
        have hu : s.owner l = some u := hgu.guarded hwritesu hlu
        have ht' : s.owner l = some t := hg.guarded hwrites hlt
        rw [hu] at ht'
        exact ht (Option.some.inj ht').symm
      exact absurd ⟨u, t, Ne.symm ht, rfl, ⟨v, k, hp⟩, hwrites, hdisjoint⟩ hok
    | _ => rfl
  rw [Tracked, hprog, hguard]
  exact ⟨g, hg.frame howns (h.keeps hs) hcell⟩

theorem UpdateInv.step {s s' : TaskSystem T L V E O} {choice : Choice T O} (hS : Updates S Claim guard)
    (hs : UpdateInv Claim guard s) (hok : ¬Clobbers guard s choice) (h : StepSpec S s choice s') :
    UpdateInv Claim guard s' where
  tracked t := by
    by_cases ht : t = choice.task
    · subst ht
      exact h.tracked_self hS (hs.tracked _)
    · exact h.tracked_of_ne hok hs.tracked ht
  noted t e he := by
    have hkeeps := h.keeps hs.tracked
    cases h with
    | @emit u e' k hp =>
      rcases List.mem_append.mp he with he | he
      · exact hs.noted t e he
      · obtain ⟨g, hg⟩ := hs.tracked u
        rw [hp] at hg
        cases List.mem_singleton.mp he
        exact hg.noted
    | _ => exact hkeeps e (hs.noted t e he)

/-- In every run without clobbering steps, all that was noted is true of the cell. -/
theorem noted_of_after (hS : Updates S Claim guard) {cell : V} {choices : List (Choice T O)}
    (hok : EachAfter (fun older choice => ∀ s, after S cell older = some s → ¬Clobbers guard s choice)
      choices) {s : TaskSystem T L V E O} (hs : after S cell choices = some s) {t : T} {e : E}
    (he : (t, e) ∈ s.log) : Claim e s.cell := by
  have hstep : ∀ s choice s', UpdateInv Claim guard s → ¬Clobbers guard s choice →
      StepSpec S s choice s' → UpdateInv Claim guard s' := by
    intro s choice s' hs hok h
    exact hs.step hS hok h
  have hinv : UpdateInv Claim guard s :=
    after_invariant _ (fun s choice => ¬Clobbers guard s choice) (updateInv_init cell) hstep hok hs
  exact hinv.noted t e he

end TaskSystem

end RgbLightning
