import RgbLightning.Base.KeyedLog
import RgbLightning.Payment.Runs

/-! # Payment outcomes under interleaving

The command line hands a payment over first and inserts its entry in a later
critical section; the event task may handle the outcome of the payment between the
two. The log is read by the theorems only.
-/
namespace RgbLightning.Payment
open MachineInt Decimal Runs KeyedLog

/-- One choice of the scheduler. The command line hands over or inserts, the event
task handles one outcome. -/
inductive PaymentChoice where
  | handOver (sender : Sender) (answer : Answer)
  | insert
  | handle (e : PaymentEvent)

inductive PaymentEntry where
  | handed (paymentHash : PaymentHash) (accepted : Bool)
  | handled (e : PaymentEvent)
  deriving DecidableEq

structure PaymentTasks where
  payments : Payments
  /-- The payment that the command line has handed over and not yet inserted. -/
  pending : Option (Attempt × Answer)
  alive : Bool
  log : List PaymentEntry

def PaymentTasks.init : PaymentTasks := ⟨fun _ => none, none, true, []⟩

/-- The channel manager reports outcomes of payments it has accepted. -/
def PaymentTasks.Reports (s : PaymentTasks) (e : PaymentEvent) : Prop :=
  .handed e.paymentHash true ∈ s.log

instance (s : PaymentTasks) (e : PaymentEvent) : Decidable (s.Reports e) :=
  inferInstanceAs (Decidable (_ ∈ _))

variable (sha256 : List UInt8 → PaymentHash)

/-- A choice that is not possible changes nothing. -/
def taskStep (s : PaymentTasks) (choice : PaymentChoice) : PaymentTasks :=
  if s.alive then
    match choice, s.pending with
    | .handOver sender answer, none =>
      match sender.prepare sha256 with
      | .ok attempt =>
        { s with
          pending := some (attempt, answer)
          log := s.log ++ [.handed attempt.paymentHash answer.accepted] }
      | .err _ => s
      | .abort => { s with alive := false }
    | .handOver _ _, some _ => s
    | .insert, some (attempt, answer) =>
      match attempt.send answer s.payments with
      | .ok payments => { s with payments := payments, pending := none }
      | _ => { s with alive := false }
    | .insert, none => s
    | .handle e, _ =>
      if s.Reports e then
        { s with payments := e.handle s.payments, log := s.log ++ [.handled e] }
      else s
  else s

def taskRun (choices : List PaymentChoice) : PaymentTasks := run (taskStep sha256) .init choices

/-- The outcome of a hash stands from its event to the next hand-over. -/
def PaymentEntry.effect : PaymentEntry → Effect PaymentHash PaymentEvent
  | handed hash _ => .take hash
  | handled e => .put e.paymentHash e

/-- The sender of a payment for the hash has not returned. -/
def PaymentTasks.Sending (s : PaymentTasks) (hash : PaymentHash) : Prop :=
  ∃ attempt answer, s.pending = some (attempt, answer) ∧ attempt.paymentHash = hash

/-- Once the sender has returned and an outcome has been handled since the
hand-over, the entry shows the last such outcome. -/
def PaymentTasks.OutcomesShown (s : PaymentTasks) : Prop :=
  ∀ hash e, Standing PaymentEntry.effect hash e s.log → ¬s.Sending hash →
    ∃ info, s.payments hash = some info ∧ e.ShownBy info

/-- An insertion that completes has had no outcome of its payment handled since the
hand-over, save a failure when the payment was rejected. -/
def InsertsInTime (s : PaymentTasks) (choice : PaymentChoice) : Prop :=
  choice = .insert → s.alive = true → ∀ attempt answer status, s.pending = some (attempt, answer) →
    attempt.status answer = .ok status → ∀ e, Standing PaymentEntry.effect attempt.paymentHash e s.log →
      answer.accepted = false ∧ e = .paymentFailed attempt.paymentHash

variable {sha256} {s : PaymentTasks} {choice : PaymentChoice}

variable (sha256) in
/-- What one choice does to a live node. -/
inductive TaskStepSpec (s : PaymentTasks) : PaymentChoice → PaymentTasks → Prop
  | handed {sender : Sender} {answer : Answer} {attempt : Attempt} (hidle : s.pending = none)
      (hprepared : sender.prepare sha256 = .ok attempt) :
      TaskStepSpec s (.handOver sender answer) ⟨s.payments, some (attempt, answer), true,
        s.log ++ [.handed attempt.paymentHash answer.accepted]⟩
  | inserted {attempt : Attempt} {answer : Answer} {status : HTLCStatus}
      (hpending : s.pending = some (attempt, answer)) (hstatus : attempt.status answer = .ok status) :
      TaskStepSpec s .insert ⟨attempt.insert status s.payments, none, true, s.log⟩
  | handled {e : PaymentEvent} (hreports : s.Reports e) :
      TaskStepSpec s (.handle e) ⟨e.handle s.payments, s.pending, true, s.log ++ [.handled e]⟩
  | kept {choice : PaymentChoice} (alive : Bool)
      (hreturned : choice = .insert → ∀ attempt answer, s.pending = some (attempt, answer) →
        ∀ status, attempt.status answer ≠ .ok status) :
      TaskStepSpec s choice { s with alive := alive }

variable (sha256) in
theorem taskStep_spec (halive : s.alive = true) (choice : PaymentChoice) :
    TaskStepSpec sha256 s choice (taskStep sha256 s choice) := by
  obtain ⟨payments, pending, alive, log⟩ := s
  cases halive
  unfold taskStep
  rw [if_pos rfl]
  cases choice with
  | handOver sender answer =>
    cases pending with
    | some p => exact .kept true fun h => by cases h
    | none =>
      dsimp only
      cases hprepared : sender.prepare sha256 with
      | ok attempt => exact .handed rfl hprepared
      | err e => exact .kept true fun h => by cases h
      | abort => exact .kept false fun h => by cases h
  | insert =>
    cases pending with
    | none => exact .kept true fun _ _ _ h => by cases h
    | some p =>
      obtain ⟨attempt, answer⟩ := p
      dsimp only [Attempt.send]
      cases hstatus : attempt.status answer with
      | ok status => exact .inserted rfl hstatus
      | err e =>
        refine .kept false fun _ attempt' answer' h status hok => ?_
        cases h
        cases hstatus.symm.trans hok
      | abort =>
        refine .kept false fun _ attempt' answer' h status hok => ?_
        cases h
        cases hstatus.symm.trans hok
  | handle e =>
    dsimp only
    split
    · rename_i hreports
      exact .handled hreports
    · exact .kept true fun h => by cases h

theorem taskStep_dead (halive : s.alive ≠ true) (choice : PaymentChoice) :
    taskStep sha256 s choice = s := if_neg halive

/-- Every hash handed over is being sent or has an entry. -/
structure TaskInv (s : PaymentTasks) : Prop where
  stored : ∀ hash accepted, .handed hash accepted ∈ s.log →
    s.Sending hash ∨ (s.payments hash).isSome = true
  shown : s.OutcomesShown

theorem status_failed {attempt : Attempt} {answer : Answer} {status : HTLCStatus}
    (h : attempt.status answer = .ok status) :
    (answer.accepted = true ∧ status = .pending) ∨ (answer.accepted = false ∧ status = .failed) := by
  unfold Attempt.status at h
  split at h
  · rename_i haccepted
    obtain ⟨amt, -, hstatus⟩ := Outcome.bind_eq_ok.mp h
    cases hstatus
    exact .inl ⟨haccepted, rfl⟩
  · rename_i hrejected
    cases h
    exact .inr ⟨Bool.eq_false_iff.mpr hrejected, rfl⟩

theorem standing_paymentHash {hash : PaymentHash} {e : PaymentEvent} {log : List PaymentEntry}
    (h : Standing PaymentEntry.effect hash e log) : e.paymentHash = hash := by
  obtain ⟨older, x, newer, -, hput, -⟩ := h
  cases x with
  | handed hash' accepted => cases hput
  | handled e' =>
    cases hput
    rfl

theorem taskStep_inv (hs : TaskInv s) (hok : InsertsInTime s choice) :
    TaskInv (taskStep sha256 s choice) := by
  by_cases halive : s.alive = true
  · have hspec := taskStep_spec sha256 halive choice
    generalize taskStep sha256 s choice = s' at hspec
    cases hspec with
    | @handed sender answer attempt hidle hprepared =>
      have hnot : ∀ hash, ¬s.Sending hash := by
        rintro hash ⟨attempt', answer', h, -⟩
        rw [hidle] at h
        cases h
      refine ⟨?_, ?_⟩
      · intro hash accepted hmem
        rcases List.mem_append.mp hmem with hmem | hmem
        · exact .inr ((hs.stored hash accepted hmem).resolve_left (hnot hash))
        · cases List.mem_singleton.mp hmem
          exact .inl ⟨attempt, answer, rfl, rfl⟩
      · intro hash e hstanding hsent
        have hhash : attempt.paymentHash ≠ hash := fun h => hsent ⟨attempt, answer, rfl, h⟩
        have hbefore : Standing PaymentEntry.effect hash e s.log :=
          (standing_concat_of_not_touches PaymentEntry.effect
            (e := .handed attempt.paymentHash answer.accepted) hhash).mp hstanding
        exact hs.shown hash e hbefore (hnot hash)
    | @inserted attempt answer status hpending hstatus =>
      have hsending : ∀ hash, s.Sending hash → hash = attempt.paymentHash := by
        rintro hash ⟨attempt', answer', h, rfl⟩
        cases h.symm.trans hpending
        rfl
      refine ⟨?_, ?_⟩
      · intro hash accepted hmem
        right
        dsimp only
        by_cases hhash : hash = attempt.paymentHash
        · rw [hhash, Attempt.insert_self]
          rfl
        · rw [Attempt.insert_of_ne hhash]
          exact (hs.stored hash accepted hmem).resolve_left fun h => hhash (hsending hash h)
      · intro hash e hstanding _
        by_cases hhash : hash = attempt.paymentHash
        · subst hhash
          obtain ⟨hrejected, rfl⟩ :=
            hok rfl halive attempt answer status hpending hstatus e hstanding
          obtain ⟨haccepted, -⟩ | ⟨-, rfl⟩ := status_failed hstatus
          · rw [hrejected] at haccepted
            cases haccepted
          · exact ⟨_, Attempt.insert_self _ _, rfl⟩
        · dsimp only
          rw [Attempt.insert_of_ne hhash]
          exact hs.shown hash e hstanding fun h => hhash (hsending hash h)
    | @handled e hreports =>
      refine ⟨?_, ?_⟩
      · intro hash accepted hmem
        have hmem' : PaymentEntry.handed hash accepted ∈ s.log := by simpa using hmem
        rcases hs.stored hash accepted hmem' with h | h
        · exact .inl h
        · right
          by_cases hhash : hash = e.paymentHash
          · subst hhash
            simpa using h
          · dsimp only
            rwa [PaymentEvent.handle_of_ne hhash]
      · intro hash e' hstanding hsent
        by_cases hhash : e.paymentHash = hash
        · subst hhash
          have hput := (standing_concat_of_touches _ (by rfl)).mp hstanding
          cases hput
          have hstored := (hs.stored _ true hreports).resolve_left hsent
          obtain ⟨info, hinfo⟩ := Option.isSome_iff_exists.mp hstored
          refine ⟨e.resolve info, ?_, e.resolve_shown info⟩
          dsimp only
          rw [PaymentEvent.handle_self, hinfo]
          rfl
        · have hbefore : Standing PaymentEntry.effect hash e' s.log :=
            (standing_concat_of_not_touches PaymentEntry.effect (e := .handled e) hhash).mp hstanding
          dsimp only
          rw [PaymentEvent.handle_of_ne (Ne.symm hhash)]
          exact hs.shown hash e' hbefore hsent
    | kept alive hreturned => exact ⟨hs.stored, hs.shown⟩
  · rw [taskStep_dead halive]
    exact hs

/-- An insertion out of time hides the outcome it comes after. -/
theorem taskStep_hides (hbad : ¬InsertsInTime s choice) :
    ¬(taskStep sha256 s choice).OutcomesShown := by
  simp only [InsertsInTime, not_forall, exists_prop] at hbad
  obtain ⟨rfl, halive, attempt, answer, status, hpending, hstatus, e, hstanding, hlate⟩ := hbad
  have hspec := taskStep_spec sha256 halive .insert
  generalize taskStep sha256 s .insert = s' at hspec
  cases hspec with
  | @inserted attempt' answer' status' hpending' hstatus' =>
    obtain ⟨rfl, rfl⟩ := Prod.mk.inj (Option.some.inj (hpending.symm.trans hpending'))
    obtain rfl : status = status' := Outcome.ok.inj (hstatus.symm.trans hstatus')
    intro hshown
    have hnot : ¬PaymentTasks.Sending
        ⟨attempt.insert status s.payments, none, true, s.log⟩ attempt.paymentHash := by
      rintro ⟨_, _, h, -⟩
      cases h
    obtain ⟨info, hinfo, hevent⟩ := hshown attempt.paymentHash e hstanding hnot
    dsimp only at hinfo
    rw [Attempt.insert_self] at hinfo
    cases hinfo
    apply hlate
    obtain ⟨-, rfl⟩ | ⟨hrejected, rfl⟩ := status_failed hstatus
    · cases e with
      | paymentSent hash preimage => cases hevent.1
      | paymentFailed hash => cases hevent
    · cases e with
      | paymentSent hash preimage => cases hevent.1
      | paymentFailed hash =>
        have hhash : hash = attempt.paymentHash := standing_paymentHash hstanding
        exact ⟨hrejected, by rw [hhash]⟩
  | kept alive hreturned => exact absurd hstatus (hreturned rfl attempt answer hpending status)

/-- In every state of a run all outcomes are shown iff every insertion is in time. -/
theorem outcomes_shown_iff (choices : List PaymentChoice) :
    (∀ older newer, choices = older ++ newer → (taskRun sha256 older).OutcomesShown) ↔
      EachAfter (fun older choice => InsertsInTime (taskRun sha256 older) choice) choices := by
  have hinit : TaskInv .init := by
    refine ⟨fun _ _ h => absurd h List.not_mem_nil, ?_⟩
    intro hash e hstanding
    exact absurd hstanding (not_standing_nil _ hash e)
  exact run_exact hinit (fun _ _ => taskStep_inv) (fun _ hs => hs.shown)
    (fun _ _ _ => taskStep_hides) choices

/-- A keysend succeeds before the command line has inserted it. -/
def fastPayment : List PaymentChoice :=
  [.handOver (.keysend [2] 3000000 (Bytes32.fill 6) none) (.ok ()),
    .handle (.paymentSent (Bytes32.fill 7) (Bytes32.fill 6)), .insert]

theorem fastPayment_lost : ¬(taskRun (fun _ => Bytes32.fill 7) fastPayment).OutcomesShown := by
  intro hshown
  have hstanding : Standing PaymentEntry.effect (Bytes32.fill 7)
      (.paymentSent (Bytes32.fill 7) (Bytes32.fill 6))
      (taskRun (fun _ => Bytes32.fill 7) fastPayment).log :=
    ⟨[.handed (Bytes32.fill 7) true], _, [], rfl, rfl, fun _ h => absurd h List.not_mem_nil⟩
  obtain ⟨info, hinfo, hstatus, -⟩ := hshown _ _ hstanding (by rintro ⟨_, _, h, -⟩; cases h)
  cases hinfo
  cases hstatus

end RgbLightning.Payment
