import RgbLightning.Base.Monitor
import RgbLightning.Base.Runs

/-! # Interleaved tasks

Tasks share locks, a cell and a log. Each task runs one operation at a time, one
action per step, in any order of steps. A lock that is held makes its next taker
wait; an abort halts everything.
-/
namespace RgbLightning
open Runs
variable {T L V E O : Type}

structure TaskSystem (T L V E O : Type) where
  prog : T → Task L V E Unit
  op : T → Option O
  owner : L → Option T
  cell : V
  log : List (T × E)
  halted : Bool

/-- One choice of the scheduler: a task starts an operation or acts. -/
inductive Choice (T O : Type) where
  | start (t : T) (o : O)
  | act (t : T)

def Choice.task : Choice T O → T
  | start t _ | act t => t

/-- The program of each operation, and when a task may start one: this may depend
on the log and on the operation the task ran last. -/
structure Schedule (T L V E O : Type) where
  body : O → Task L V E Unit
  mayStart : T → O → List (T × E) → Option O → Bool

namespace TaskSystem

def init (cell : V) : TaskSystem T L V E O :=
  ⟨fun _ => .ret (), fun _ => none, fun _ => none, cell, [], false⟩

variable [DecidableEq T] [DecidableEq L]

def setProg (s : TaskSystem T L V E O) (t : T) (k : Task L V E Unit) : TaskSystem T L V E O :=
  { s with prog := Function.update s.prog t k }

def act (s : TaskSystem T L V E O) (t : T) : Option (TaskSystem T L V E O) :=
  match s.prog t with
  | .ret _ => none
  | .abort => some { s with halted := true }
  | .acquire l k =>
    match s.owner l with
    | none => some { s.setProg t k with owner := Function.update s.owner l (some t) }
    | some _ => none
  | .release l k => some { s.setProg t k with owner := Function.update s.owner l none }
  | .read k => some (s.setProg t (k s.cell))
  | .write v k => some { s.setProg t k with cell := v }
  | .emit e k => some { s.setProg t k with log := s.log ++ [(t, e)] }

variable (S : Schedule T L V E O)

def start (s : TaskSystem T L V E O) (t : T) (o : O) : Option (TaskSystem T L V E O) :=
  match s.prog t with
  | .ret _ =>
    if S.mayStart t o s.log (s.op t) then
      some { s.setProg t (S.body o) with op := Function.update s.op t (some o) }
    else none
  | _ => none

def step (s : TaskSystem T L V E O) (choice : Choice T O) : Option (TaskSystem T L V E O) :=
  if s.halted then none
  else match choice with
    | .start t o => s.start S t o
    | .act t => s.act t

/-- The state after a list of choices, if all of them were possible. -/
def after (cell : V) (choices : List (Choice T O)) : Option (TaskSystem T L V E O) :=
  choices.foldlM (step S) (init cell)

inductive StepSpec (s : TaskSystem T L V E O) : Choice T O → TaskSystem T L V E O → Prop
  | start {t : T} {o : O} (hidle : s.prog t = .ret ()) (hmay : S.mayStart t o s.log (s.op t) = true) :
      StepSpec s (.start t o) { s.setProg t (S.body o) with op := Function.update s.op t (some o) }
  | abort {t : T} (hp : s.prog t = .abort) : StepSpec s (.act t) { s with halted := true }
  | acquire {t : T} {l : L} {k : Task L V E Unit} (hp : s.prog t = .acquire l k)
      (hfree : s.owner l = none) :
      StepSpec s (.act t) { s.setProg t k with owner := Function.update s.owner l (some t) }
  | release {t : T} {l : L} {k : Task L V E Unit} (hp : s.prog t = .release l k) :
      StepSpec s (.act t) { s.setProg t k with owner := Function.update s.owner l none }
  | read {t : T} {k : V → Task L V E Unit} (hp : s.prog t = .read k) :
      StepSpec s (.act t) (s.setProg t (k s.cell))
  | write {t : T} {v : V} {k : Task L V E Unit} (hp : s.prog t = .write v k) :
      StepSpec s (.act t) { s.setProg t k with cell := v }
  | emit {t : T} {e : E} {k : Task L V E Unit} (hp : s.prog t = .emit e k) :
      StepSpec s (.act t) { s.setProg t k with log := s.log ++ [(t, e)] }

variable {S}

theorem step_spec {s s' : TaskSystem T L V E O} {choice : Choice T O}
    (h : s.step S choice = some s') : StepSpec S s choice s' := by
  unfold step at h
  split at h
  · cases h
  · cases choice with
    | start t o =>
      simp only [start] at h
      cases hp : s.prog t with
      | ret u =>
        rw [hp] at h
        by_cases hmay : S.mayStart t o s.log (s.op t) = true
        · simp only [if_pos hmay, Option.some.injEq] at h
          subst h
          exact .start hp hmay
        · simp [hmay] at h
      | _ => simp [hp] at h
    | act t =>
      simp only [act] at h
      cases hp : s.prog t with
      | ret u => simp [hp] at h
      | abort => rw [hp] at h; cases h; exact .abort hp
      | acquire l k =>
        rw [hp] at h
        cases hfree : s.owner l with
        | none => simp only [hfree] at h; cases h; exact .acquire hp hfree
        | some t' => simp [hfree] at h
      | release l k => rw [hp] at h; cases h; exact .release hp
      | read k => rw [hp] at h; cases h; exact .read hp
      | write v k => rw [hp] at h; cases h; exact .write hp
      | emit e k => rw [hp] at h; cases h; exact .emit hp

omit [DecidableEq L] in
@[simp] theorem setProg_prog_self (s : TaskSystem T L V E O) (t : T) (k : Task L V E Unit) :
    (s.setProg t k).prog t = k := by simp [setProg]

omit [DecidableEq L] in
theorem setProg_prog_of_ne {s : TaskSystem T L V E O} {t t' : T} (h : t' ≠ t) (k : Task L V E Unit) :
    (s.setProg t k).prog t' = s.prog t' := by simp [setProg, h]

/-- A step leaves the other tasks alone, with the locks they hold. -/
theorem StepSpec.frame {s s' : TaskSystem T L V E O} {choice : Choice T O}
    (h : StepSpec S s choice s') {t : T} (ht : t ≠ choice.task) :
    s'.prog t = s.prog t ∧ s'.op t = s.op t ∧ ∀ l, s'.owner l = some t → s.owner l = some t := by
  cases h with
  | start hidle hmay => exact ⟨setProg_prog_of_ne ht _, Function.update_of_ne ht _ _, fun _ => id⟩
  | abort hp => exact ⟨rfl, rfl, fun _ => id⟩
  | @acquire u l k hp hfree =>
    refine ⟨setProg_prog_of_ne ht _, rfl, fun l' ho => ?_⟩
    dsimp only at ho
    by_cases hl : l' = l
    · subst hl
      rw [Function.update_self, Option.some.injEq] at ho
      exact absurd ho.symm ht
    · rwa [Function.update_of_ne hl] at ho
  | @release u l k hp =>
    refine ⟨setProg_prog_of_ne ht _, rfl, fun l' ho => ?_⟩
    dsimp only at ho
    by_cases hl : l' = l
    · subst hl
      simp at ho
    · rwa [Function.update_of_ne hl] at ho
  | read hp => exact ⟨setProg_prog_of_ne ht _, rfl, fun _ => id⟩
  | write hp => exact ⟨setProg_prog_of_ne ht _, rfl, fun _ => id⟩
  | emit hp => exact ⟨setProg_prog_of_ne ht _, rfl, fun _ => id⟩

theorem StepSpec.op_of_act {s s' : TaskSystem T L V E O} {t : T} (h : StepSpec S s (.act t) s') :
    s'.op = s.op := by
  cases h <;> rfl

theorem after_concat {cell : V} {choices : List (Choice T O)} {choice : Choice T O}
    {s' : TaskSystem T L V E O} (h : after S cell (choices ++ [choice]) = some s') :
    ∃ s, after S cell choices = some s ∧ s.step S choice = some s' := by
  rw [after, List.foldlM_append] at h
  obtain ⟨s, hs, hstep⟩ := Option.bind_eq_some_iff.mp h
  exact ⟨s, hs, by simpa using hstep⟩

/-- What a step preserves, a run preserves. The choices may be restricted by the
state they are made in. -/
theorem after_invariant {cell : V} (Inv : TaskSystem T L V E O → Prop)
    (Ok : TaskSystem T L V E O → Choice T O → Prop) (hinit : Inv (init cell))
    (hstep : ∀ s choice s', Inv s → Ok s choice → StepSpec S s choice s' → Inv s')
    {choices : List (Choice T O)}
    (hok : EachAfter (fun older choice => ∀ s, after S cell older = some s → Ok s choice) choices)
    {s : TaskSystem T L V E O} (hs : after S cell choices = some s) : Inv s := by
  induction choices using List.reverseRecOn generalizing s with
  | nil =>
    cases hs
    exact hinit
  | append_singleton choices choice ih =>
    obtain ⟨s₀, hs₀, hlast⟩ := after_concat hs
    obtain ⟨hbefore, hchoice⟩ := eachAfter_concat.mp hok
    have hinv : Inv s₀ := ih hbefore hs₀
    exact hstep s₀ choice s hinv (hchoice s₀ hs₀) (step_spec hlast)

theorem idle_of_not_chosen {cell : V} {choices : List (Choice T O)} {t : T}
    (h : ∀ choice ∈ choices, choice.task ≠ t) {s : TaskSystem T L V E O}
    (hs : after S cell choices = some s) : s.prog t = .ret () ∧ s.op t = none := by
  refine after_invariant (fun s => s.prog t = .ret () ∧ s.op t = none)
    (fun _ choice => choice.task ≠ t) ⟨rfl, rfl⟩ ?_ ?_ hs
  · intro s choice s' hidle ht hstep
    obtain ⟨hprog, hop, -⟩ := hstep.frame ht.symm
    exact ⟨hprog.trans hidle.1, hop.trans hidle.2⟩
  · intro older choice newer hsplit _ _
    have hmem : choice ∈ choices := by simp [hsplit]
    exact h choice hmem

end TaskSystem

end RgbLightning
