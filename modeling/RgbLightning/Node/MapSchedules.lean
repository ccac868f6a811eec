import RgbLightning.Base.PrintedUnder
import RgbLightning.Node.StateMaps

/-! # Interleavings of the tasks that use the maps

The command line and the event handlers run their operations in any interleaving. No task
waits for ever, and what is read and printed is what the operations give when they run
one after the other.
-/
namespace RgbLightning.Node
open Payment Swap Runs Guarded
variable {T : Type} [DecidableEq T]

/-- Any task may start an operation whenever `mayStart` says so. -/
def mapSchedule (mayStart : T → MapOp → List MapNote → Bool) :
    Guarded.Schedule T MapLock MapLock.Content MapNote MapOp := ⟨MapOp.body, mayStart⟩

abbrev MapSystem (T : Type) := Guarded.System T MapLock MapLock.Content MapNote MapOp

/-- The maps after the operations, run one after the other. -/
def mapsAfter (commits : List (MapOp × List MapNote)) : Maps :=
  run (fun maps c => c.1.effect maps) Maps.empty commits

variable {mayStart : T → MapOp → List MapNote → Bool}

omit [DecidableEq T] in
theorem mapSchedule_disciplined : (mapSchedule mayStart).Disciplined MapLock.rank :=
  MapOp.body_disciplined

omit [DecidableEq T] in
theorem serial_mapSchedule (commits : List (MapOp × List MapNote)) :
    Guarded.System.serial (mapSchedule mayStart) Maps.empty commits = mapsAfter commits := by
  unfold Guarded.System.serial mapsAfter mapSchedule
  simp only [MapOp.exec_body]

/-- The status of a payment is asked for while its claim is being handled. -/
def askedDuringClaim : List (Guarded.Choice Bool MapOp) :=
  [.start true (.paymentClaimed ⟨.fill 1, .spontaneousPayment (.fill 2), 3000⟩), .act true,
    .start false (.invoiceStatus (.fill 1) false), .act true, .act true, .act true, .act true,
    .act true, .act true, .act false, .act false, .act true, .act false, .act false]

/-- As long as no task has aborted, a task that runs an operation never leaves all of
them waiting. -/
theorem mapTasks_progress {choices : List (Guarded.Choice T MapOp)} {s : MapSystem T} {t : T}
    (hs : Guarded.System.after (mapSchedule mayStart) Maps.empty choices = some s) (hlive : s.halted = false)
    (hrunning : s.thread t ≠ none) :
    ∃ t' s', s.step (mapSchedule mayStart) (.act t') = some s' := by
  obtain ⟨r, hr⟩ := Option.ne_none_iff_exists'.mp hrunning
  have hordered := Guarded.System.ordered_of_after mapSchedule_disciplined hs
  obtain ⟨t', hact⟩ := hordered.exists_act MapLock.rank_lt hr
  obtain ⟨s', hs'⟩ := Option.isSome_iff_exists.mp hact
  exact ⟨t', s', by simpa [Guarded.System.step, hlive] using hs'⟩

theorem mapTasks_progress_askedDuringClaim :
    ∃ s : MapSystem Bool, Guarded.System.after (mapSchedule fun _ _ _ => true) Maps.empty
        (askedDuringClaim.take 3) = some s ∧
      ∃ t' s', s.step (mapSchedule fun _ _ _ => true) (.act t') = some s' := by
  have hs : Guarded.System.after (mapSchedule fun _ _ _ => true) Maps.empty
      (askedDuringClaim.take 3) = some _ := rfl
  exact ⟨_, hs, mapTasks_progress (t := false) hs rfl (Option.some_ne_none _)⟩

/-- Whatever the interleaving, the free maps are those of the committed operations run one
after the other, and each of these has printed what it prints then. -/
theorem maps_serializable {choices : List (Guarded.Choice T MapOp)} {s : MapSystem T}
    (hs : Guarded.System.after (mapSchedule mayStart) Maps.empty choices = some s) :
    (∀ l, s.owner l = none → s.store l = mapsAfter s.commits l) ∧
      EachAfter (fun older c => c.2 = c.1.notes (mapsAfter older)) s.commits := by
  have hserial := Guarded.System.serializes_of_after mapSchedule_disciplined hs
  refine ⟨fun l hfree => ?_, ?_⟩
  · rw [hserial.settled_of_free hfree, serial_mapSchedule]
  · intro older c newer hsplit
    have hemitted : (c.1.body.exec (Guarded.System.serial (mapSchedule mayStart) Maps.empty older)).2 = c.2 :=
      hserial.emitted older c newer hsplit
    rw [← hemitted, serial_mapSchedule, MapOp.exec_body]

theorem maps_serializable_askedDuringClaim :
    ∃ s : MapSystem Bool, Guarded.System.after (mapSchedule fun _ _ _ => true) Maps.empty
        askedDuringClaim = some s ∧
      (∀ l, s.owner l = none → s.store l = mapsAfter s.commits l) ∧
        EachAfter (fun older c => c.2 = c.1.notes (mapsAfter older)) s.commits :=
  have hs : Guarded.System.after (mapSchedule fun _ _ _ => true) Maps.empty askedDuringClaim = some _ := rfl
  ⟨_, hs, maps_serializable hs⟩

section Told

/-- What is printed while the inbound payments are locked. -/
def MapNote.ofInbound : MapNote → Bool
  | invoiced _ | claimed _ | status .. | payments .. => true
  | offered _ | handed .. | answered _ | trades _ => false

def MapNote.tells (hash : PaymentHash) : MapNote → Option HTLCStatus
  | invoiced h => if h = hash then some .pending else none
  | claimed h => if h = hash then some .succeeded else none
  | _ => none

/-- What was told last about a hash. -/
def toldStatus (older : List MapNote) (hash : PaymentHash) : Option HTLCStatus :=
  (older.filterMap (MapNote.tells hash)).getLast?

/-- A status printed, and every list of payments, agrees with what was told before. -/
def MapNote.Told (older : List MapNote) : MapNote → Prop
  | status hash reply => ∃ inbound isExpired, (inbound hash).map PaymentInfo.status = toldStatus older hash ∧
      reply = invoiceStatus inbound hash isExpired
  | payments inbound _ => ∀ hash, (inbound hash).map PaymentInfo.status = toldStatus older hash
  | _ => True

theorem swapChecksBody_emitsUnder (ev : HTLCIntercepted) (view : ChannelView) :
    (swapChecksBody ev view).EmitsUnder .inbound MapNote.ofInbound ∅ := by
  unfold swapChecksBody
  split
  · intro trades
    dsimp only
    cases (verdict ev view trades).call ev with
    | none => trivial
    | some call => cases ev.isSwap <;> simp [Proc.EmitsUnder, MapNote.ofInbound]
  · trivial

theorem MapOp.body_emitsUnder (op : MapOp) : op.body.EmitsUnder .inbound MapNote.ofInbound ∅ := by
  cases op with
  | getInvoice amtMsat created =>
    cases created <;> simp [body, getInvoiceBody, Proc.EmitsUnder]
  | send attempt answer =>
    refine ⟨by simp [MapNote.ofInbound], ?_⟩
    cases attempt.status answer <;> simp [locked, Proc.EmitsUnder]
  | makerInit created terms =>
    cases created <;> simp [body, locked, Proc.EmitsUnder, MapNote.ofInbound]
  | htlcIntercepted ev view =>
    simp only [body, htlcInterceptedBody]
    split
    · exact swapChecksBody_emitsUnder ev view
    · exact ⟨by simp [MapNote.ofInbound], swapChecksBody_emitsUnder ev view⟩
  | _ => simp [body, printing, locked, listPaymentsBody, paymentClaimedBody, Proc.EmitsUnder,
      MapNote.ofInbound]

theorem tells_eq_none {note : MapNote} (h : note.ofInbound = false) (hash : PaymentHash) :
    note.tells hash = none := by
  cases note <;> simp_all [MapNote.ofInbound, MapNote.tells]

theorem toldStatus_filter (log : List MapNote) (hash : PaymentHash) :
    toldStatus (log.filter MapNote.ofInbound) hash = toldStatus log hash := by
  unfold toldStatus
  induction log using List.reverseRecOn with
  | nil => rfl
  | append_singleton log note ih =>
    cases hnote : note.ofInbound with
    | true => simp [hnote, List.filterMap_append, List.filter_append, ih]
    | false => simp [hnote, tells_eq_none hnote, List.filter_append, ih]

theorem told_filter (older : List MapNote) (note : MapNote) (_ : note.ofInbound = true) :
    note.Told (older.filter MapNote.ofInbound) ↔ note.Told older := by
  cases note <;> simp [MapNote.Told, toldStatus_filter]

theorem toldStatus_concat (log : List MapNote) (note : MapNote) (hash : PaymentHash) :
    toldStatus (log ++ [note]) hash = (note.tells hash).or (toldStatus log hash) := by
  unfold toldStatus
  rw [List.filterMap_append, List.getLast?_append]
  cases h : note.tells hash <;> simp [h]

/-- The entries have the status told, and so has all that was read of them. -/
structure Tells (inbound : Payments) (log : List MapNote) : Prop where
  entries : ∀ hash, (inbound hash).map PaymentInfo.status = toldStatus log hash
  read : EachAfter MapNote.Told log

theorem Tells.concat {inbound inbound' : Payments} {log : List MapNote} {note : MapNote}
    (h : Tells inbound log) (hnote : note.Told log)
    (hentries : ∀ hash, (inbound' hash).map PaymentInfo.status =
      (note.tells hash).or ((inbound hash).map PaymentInfo.status)) : Tells inbound' (log ++ [note]) where
  entries hash := by rw [hentries, toldStatus_concat, h.entries]
  read := eachAfter_concat.mpr ⟨h.read, hnote⟩

theorem Tells.append_other {inbound : Payments} {log notes : List MapNote} (h : Tells inbound log)
    (hnotes : ∀ note ∈ notes, note.ofInbound = false) : Tells inbound (log ++ notes) := by
  induction notes using List.reverseRecOn with
  | nil => simpa using h
  | append_singleton notes note ih =>
    have hnote : note.ofInbound = false := hnotes note (by simp)
    have hbefore := ih fun note' h' => hnotes note' (by simp [h'])
    rw [← List.append_assoc]
    refine hbefore.concat ?_ fun hash => by rw [tells_eq_none hnote, Option.none_or]
    cases note <;> trivial

theorem Tells.enter {inbound : Payments} {log : List MapNote} (h : Tells inbound log)
    (invoice : Invoice) (amtMsat : ℕ) :
    Tells (invoice.enter amtMsat inbound) (log ++ [.invoiced invoice.paymentHash]) := by
  refine h.concat trivial fun hash => ?_
  by_cases heq : hash = invoice.paymentHash
  · simp [Invoice.enter, MapNote.tells, heq, Invoice.pendingInfo]
  · simp [Invoice.enter, MapNote.tells, heq, Ne.symm heq]

theorem Tells.settle {inbound : Payments} {log : List MapNote} (h : Tells inbound log)
    (ev : PaymentClaimed) : Tells (ev.settle inbound) (log ++ [.claimed ev.paymentHash]) := by
  refine h.concat trivial fun hash => ?_
  by_cases heq : hash = ev.paymentHash
  · simp [PaymentClaimed.settle, MapNote.tells, heq, PaymentClaimed.info]
  · simp [PaymentClaimed.settle, MapNote.tells, heq, Ne.symm heq]

/-- One operation: those on the inbound payments first. -/
theorem Tells.step {maps : Maps} {log : List MapNote} (h : Tells (maps .inbound) log) (op : MapOp) :
    Tells (op.effect maps .inbound) (log ++ op.notes maps) := by
  cases op with
  | getInvoice amtMsat created =>
    cases created with
    | error e => simpa [MapOp.effect, MapOp.notes, getInvoice] using h
    | ok invoice => exact h.enter invoice amtMsat
  | paymentClaimed ev => exact h.settle ev
  | invoiceStatus hash isExpired =>
    exact h.concat ⟨maps .inbound, isExpired, h.entries hash, rfl⟩ fun _ => rfl
  | listPayments => exact h.concat h.entries fun _ => rfl
  | send attempt answer =>
    have hsame : (MapOp.send attempt answer).effect maps .inbound = maps .inbound := by
      simp only [MapOp.effect]
      cases attempt.status answer <;> simp
    rw [hsame]
    exact h.append_other (by simp [MapOp.notes, MapNote.ofInbound])
  | makerInit created terms =>
    cases created with
    | none => simpa [MapOp.effect, MapOp.notes] using h
    | some hash => exact h.append_other (by simp [MapOp.notes, MapNote.ofInbound])
  | htlcIntercepted ev view =>
    refine h.append_other fun note hnote => ?_
    rcases List.mem_append.mp hnote with hrefused | hcall
    · split at hrefused
      · cases hrefused
      · rw [List.mem_singleton.mp hrefused]
        rfl
    · simp only [Option.mem_toList, Option.map_eq_some_iff] at hcall
      obtain ⟨call, -, rfl⟩ := hcall
      rfl
  | taker swap => exact h.append_other (by simp [MapOp.notes])
  | payment e => exact h.append_other (by simp [MapOp.notes])
  | listTaker => exact h.append_other (by simp [MapOp.notes, MapNote.ofInbound])
  | listMaker => exact h.append_other (by simp [MapOp.notes, MapNote.ofInbound])

omit [DecidableEq T] in
theorem tells_serialLog (ops : List MapOp) :
    Tells ((serialLog (mapSchedule mayStart) Maps.empty ops).1 .inbound)
      (serialLog (mapSchedule mayStart) Maps.empty ops).2 := by
  refine run_invariant (fun x : Maps × List MapNote => Tells (x.1 .inbound) x.2) (fun _ => True)
    ⟨fun _ => rfl, eachAfter_nil _⟩ (fun x op _ h => ?_) ops (by simp)
  have hstep := h.step op
  rw [show (mapSchedule mayStart).body op = op.body from rfl, MapOp.exec_body]
  exact hstep

/-- Whatever the interleaving, a status printed for an invoice and every list of payments
agree with what was told last about the hash: pending from the invoice on, succeeded from
the claim on, and unknown before both. -/
theorem inbound_told {choices : List (Guarded.Choice T MapOp)} {s : MapSystem T}
    (hs : Guarded.System.after (mapSchedule mayStart) Maps.empty choices = some s) :
    EachAfter MapNote.Told s.log := by
  obtain ⟨ops, hinitial⟩ :=
    Guarded.System.log_initial_serialLog mapSchedule_disciplined MapOp.body_emitsUnder hs
  have htold : ∀ log, EachAfter MapNote.Told (log.filter MapNote.ofInbound) ↔ EachAfter MapNote.Told log :=
    eachAfter_filter told_filter fun older note h => by cases note <;> trivial
  rw [← htold]
  exact EachAfter.initial ((htold _).mpr (tells_serialLog ops).read) hinitial

theorem inbound_told_askedDuringClaim :
    ∃ s : MapSystem Bool, Guarded.System.after (mapSchedule fun _ _ _ => true) Maps.empty
        askedDuringClaim = some s ∧ EachAfter MapNote.Told s.log :=
  have hs : Guarded.System.after (mapSchedule fun _ _ _ => true) Maps.empty askedDuringClaim = some _ := rfl
  ⟨_, hs, inbound_told hs⟩

end Told

end RgbLightning.Node
