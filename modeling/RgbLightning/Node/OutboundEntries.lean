import RgbLightning.Base.KeyedRuns
import RgbLightning.Node.MapSchedules

/-! # The outbound entries under interleaving

A payment is handed to the channel manager before its sender locks the outbound payments,
so the event that reports it may be handled first. What an entry shows is decided by the
order in which senders and events had the mutex.
-/
namespace RgbLightning.Node
open Payment Runs KeyedRuns

/-- What a sender or an event does to the entry of its hash. -/
inductive OutboundChange where
  | inserted (attempt : Attempt) (status : HTLCStatus)
  | reported (event : PaymentEvent)

namespace OutboundChange

def hash : OutboundChange → PaymentHash
  | inserted attempt _ => attempt.paymentHash
  | reported event => event.paymentHash

def cell : OutboundChange → Option PaymentInfo → Option PaymentInfo
  | inserted attempt status, _ => some (attempt.info status)
  | reported event, old => old.map event.resolve

end OutboundChange

/-- A sender that aborts on its amount inserts nothing. -/
def MapOp.outboundChange : MapOp → Option OutboundChange
  | send attempt answer =>
    match attempt.status answer with
    | .ok status => some (.inserted attempt status)
    | _ => none
  | payment event => some (.reported event)
  | _ => none

/-- What has happened to a hash, in the order of the mutex. -/
def outboundChangesOf (hash : PaymentHash) (commits : List (MapOp × List MapNote)) : List OutboundChange :=
  touching (fun c => some c.hash) hash (commits.filterMap fun c => c.1.outboundChange)

/-- The entry that an attempt leaves, after the events reported since. -/
def shownSince (attempt : Attempt) (status : HTLCStatus) (since : List PaymentEvent) : PaymentInfo :=
  since.foldl (fun info event => event.resolve info) (attempt.info status)

section Entry
variable {changes : List OutboundChange} {attempt : Attempt} {status : HTLCStatus}

theorem shownSince_concat (since : List PaymentEvent) (event : PaymentEvent) :
    shownSince attempt status (since ++ [event]) = event.resolve (shownSince attempt status since) := by
  simp [shownSince]

/-- Events leave the secret and the amount of the attempt. -/
theorem shownSince_kept (since : List PaymentEvent) :
    (shownSince attempt status since).secret = attempt.secret ∧
      (shownSince attempt status since).amtMsat = attempt.amtMsat := by
  induction since using List.reverseRecOn with
  | nil => exact ⟨rfl, rfl⟩
  | append_singleton since event ih =>
    rw [shownSince_concat]
    cases event with
    | paymentSent hash preimage => exact ih
    | paymentFailed hash => exact ih

theorem resolve_status_ne_pending (event : PaymentEvent) (info : PaymentInfo) :
    (event.resolve info).status ≠ .pending := by
  intro h
  cases event with
  | paymentSent hash preimage => cases h
  | paymentFailed hash => cases h

/-- The last attempt is the one that no other attempt follows. -/
def LastAttempt (changes : List OutboundChange) (attempt : Attempt) (status : HTLCStatus)
    (since : List PaymentEvent) : Prop :=
  ∃ older, changes = older ++ .inserted attempt status :: since.map .reported

theorem lastAttempt_concat_inserted {attempt' : Attempt} {status' : HTLCStatus} {since : List PaymentEvent} :
    LastAttempt (changes ++ [.inserted attempt' status']) attempt status since ↔
      attempt = attempt' ∧ status = status' ∧ since = [] := by
  constructor
  · rintro ⟨older, hsplit⟩
    cases since using List.reverseRecOn with
    | nil =>
      obtain ⟨-, hlast⟩ := List.append_inj' hsplit rfl
      cases hlast
      exact ⟨rfl, rfl, rfl⟩
    | append_singleton since event =>
      rw [List.map_append, ← List.cons_append, ← List.append_assoc] at hsplit
      obtain ⟨-, hlast⟩ := List.append_inj' hsplit rfl
      cases hlast
  · rintro ⟨rfl, rfl, rfl⟩
    exact ⟨changes, rfl⟩

theorem lastAttempt_concat_reported {event : PaymentEvent} {since : List PaymentEvent} :
    LastAttempt (changes ++ [.reported event]) attempt status since ↔
      ∃ before, since = before ++ [event] ∧ LastAttempt changes attempt status before := by
  constructor
  · rintro ⟨older, hsplit⟩
    cases since using List.reverseRecOn with
    | nil =>
      obtain ⟨-, hlast⟩ := List.append_inj' hsplit rfl
      cases hlast
    | append_singleton since event' =>
      rw [List.map_append, ← List.cons_append, ← List.append_assoc] at hsplit
      obtain ⟨hbefore, hlast⟩ := List.append_inj' hsplit rfl
      cases hlast
      exact ⟨since, rfl, older, hbefore⟩
  · rintro ⟨before, rfl, older, rfl⟩
    exact ⟨older, by simp⟩

/-- An entry is that of the last attempt, with what was reported since. -/
theorem run_cell_eq_some {info : PaymentInfo} :
    run (fun v (c : OutboundChange) => c.cell v) none changes = some info ↔
      ∃ attempt status since, LastAttempt changes attempt status since ∧
        info = shownSince attempt status since := by
  induction changes using List.reverseRecOn generalizing info with
  | nil => simp [LastAttempt]
  | append_singleton changes last ih =>
    rw [run_concat]
    cases last with
    | inserted attempt status =>
      simp only [OutboundChange.cell, lastAttempt_concat_inserted]
      constructor
      · intro h
        cases h
        exact ⟨attempt, status, [], ⟨rfl, rfl, rfl⟩, rfl⟩
      · rintro ⟨attempt', status', since, ⟨rfl, rfl, rfl⟩, rfl⟩
        rfl
    | reported event =>
      simp only [OutboundChange.cell, lastAttempt_concat_reported, Option.map_eq_some_iff]
      constructor
      · rintro ⟨before, hbefore, rfl⟩
        obtain ⟨attempt, status, since, hlast, rfl⟩ := ih.mp hbefore
        exact ⟨attempt, status, since ++ [event], ⟨since, rfl, hlast⟩, (shownSince_concat ..).symm⟩
      · rintro ⟨attempt, status, since, ⟨before, rfl, hlast⟩, rfl⟩
        exact ⟨_, ih.mpr ⟨attempt, status, before, hlast, rfl⟩, (shownSince_concat ..).symm⟩

/-- A payment is pending as long as nothing has happened to its hash after the insertion. -/
theorem run_cell_pending :
    (run (fun v (c : OutboundChange) => c.cell v) none changes).map PaymentInfo.status = some .pending ↔
      ∃ attempt, changes.getLast? = some (.inserted attempt .pending) := by
  cases changes using List.reverseRecOn with
  | nil => simp
  | append_singleton changes last =>
    rw [run_concat, List.getLast?_concat]
    cases last with
    | inserted attempt status => simp [OutboundChange.cell, Attempt.info]
    | reported event =>
      simp only [OutboundChange.cell, Option.map_map, Option.map_eq_some_iff]
      constructor
      · rintro ⟨info, -, hpending⟩
        exact absurd hpending (resolve_status_ne_pending event info)
      · rintro ⟨attempt, hlast⟩
        cases hlast

end Entry

section Interleaved
variable {T : Type} [DecidableEq T] {mayStart : T → MapOp → List MapNote → Bool}

theorem effect_outbound (op : MapOp) (maps : Maps) :
    op.effect maps .outbound = run (keyedStep (fun c => some c.hash) OutboundChange.cell) (maps .outbound)
      op.outboundChange.toList := by
  cases op with
  | send attempt answer =>
    simp only [MapOp.effect, MapOp.outboundChange]
    cases attempt.status answer <;> rfl
  | makerInit created terms => cases created <;> rfl
  | _ => rfl

theorem mapsAfter_outbound (commits : List (MapOp × List MapNote)) :
    mapsAfter commits .outbound = run (keyedStep (fun c => some c.hash) OutboundChange.cell)
      (fun _ => none) (commits.filterMap fun c => c.1.outboundChange) := by
  induction commits using List.reverseRecOn with
  | nil => rfl
  | append_singleton commits c ih =>
    have hlast : [c].filterMap (fun c => c.1.outboundChange) = c.1.outboundChange.toList := by
      cases hc : c.1.outboundChange <;> simp [hc]
    rw [mapsAfter, run_concat, ← mapsAfter, effect_outbound, ih, List.filterMap_append, hlast]
    simp only [run, List.foldl_append]

/-- Whatever the interleaving, an entry is that of the last attempt that has inserted one,
with the events handled since, and it is pending iff none was. An event that was handled
before the insertion has left no trace. -/
theorem outbound_entry_iff {choices : List (Guarded.Choice T MapOp)} {s : MapSystem T}
    (hs : Guarded.System.after (mapSchedule mayStart) Maps.empty choices = some s)
    (hfree : s.owner .outbound = none) (hash : PaymentHash) :
    (∀ info, s.store .outbound hash = some info ↔
      ∃ attempt status since, LastAttempt (outboundChangesOf hash s.commits) attempt status since ∧
        info = shownSince attempt status since) ∧
    ((s.store .outbound hash).map PaymentInfo.status = some .pending ↔
      ∃ attempt, (outboundChangesOf hash s.commits).getLast? = some (.inserted attempt .pending)) := by
  have hserial := Guarded.System.serializes_of_after mapSchedule_disciplined hs
  have hentry : s.store .outbound hash =
      run (fun v (c : OutboundChange) => c.cell v) none (outboundChangesOf hash s.commits) := by
    rw [hserial.settled_of_free hfree, serial_mapSchedule, mapsAfter_outbound, run_keyedStep,
      outboundChangesOf]
  rw [hentry]
  exact ⟨fun info => run_cell_eq_some, run_cell_pending⟩

/-- The event of a keysend is handled between its hand-over and the insertion. -/
def sentBeforeInserted : List (Guarded.Choice Bool MapOp) :=
  [.start true (.send ⟨.fill 1, none, some 3000, none, .keysend (.fill 2) [] 3000⟩ (.ok ())), .act true,
    .start false (.payment (.paymentSent (.fill 1) (.fill 2))), .act false, .act false, .act false,
    .act true, .act true, .act true]

theorem outbound_entry_iff_sentBeforeInserted :
    ∃ s : MapSystem Bool, Guarded.System.after (mapSchedule fun _ _ _ => true) Maps.empty
        sentBeforeInserted = some s ∧
      (s.store .outbound (.fill 1)).map PaymentInfo.status = some .pending := by
  have hs : Guarded.System.after (mapSchedule fun _ _ _ => true) Maps.empty sentBeforeInserted =
      some _ := rfl
  exact ⟨_, hs, (outbound_entry_iff hs rfl (.fill 1)).2.mpr ⟨_, rfl⟩⟩

end Interleaved

end RgbLightning.Node
