import RgbLightning.Node.Schedule

/-! # Failed operations and the list of UTXOs

Sends, issues and coloured fundings write the list before steps that can still fail,
in the command itself or in the task that it spawns. Nothing takes the write back.
-/
namespace RgbLightning.Node
open MachineInt Decimal Rgb

/-- Every write leaves the file as it is. -/
def keepMonitor : Monitor Lock RgbUtxos Note RgbUtxos where
  sees file v := v = file
  ok file
    | .write v => v = file
    | _ => True
  next file _ := file

section Keep
variable {file : RgbUtxos} {α : Type} {m : Machine Lock RgbUtxos Note}

@[simp] theorem keep_sees {v : RgbUtxos} : keepMonitor.sees file v ↔ v = file := Iff.rfl
@[simp] theorem keep_acquire (l : Lock) : keepMonitor.ok file (.acquire l) ↔ True := Iff.rfl
@[simp] theorem keep_release (l : Lock) : keepMonitor.ok file (.release l) ↔ True := Iff.rfl
@[simp] theorem keep_write (v : RgbUtxos) : keepMonitor.ok file (.write v) ↔ v = file := Iff.rfl
@[simp] theorem keep_emit (e : Note) : keepMonitor.ok file (.emit e) ↔ True := Iff.rfl
@[simp] theorem keep_next (a : Act Lock RgbUtxos Note) : keepMonitor.next file a = file := rfl

def KeepsFile (program : Program α) (file : RgbUtxos) : Prop :=
  program.wp keepMonitor (fun _ _ => True) file

theorem keep_describes (file₀ : RgbUtxos) :
    keepMonitor.Describes fun file m => m.cell = file ∧ file = file₀ where
  sees h := h.1
  acquire h _ _ := h
  release h _ := h
  read h := h
  write h hok := ⟨hok, h.2⟩
  emit h _ := h

theorem KeepsFile.cell {program : Program α} (h : KeepsFile program m.cell) :
    (program.exec m).2.cell = m.cell := by
  obtain ⟨file, ⟨hcell, hfile⟩, -⟩ := Task.wp_exec (keep_describes m.cell) ⟨rfl, rfl⟩ h
  exact hcell.trans hfile

theorem KeepsFile.bind {β : Type} {x : Program β} {f : β → Program α} (hx : KeepsFile x file)
    (hf : ∀ b, KeepsFile (f b) file) : KeepsFile (x.bind f) file := by
  induction x with
  | ret b => exact hf b
  | abort => trivial
  | acquire l k ih => exact ⟨trivial, ih hx.2⟩
  | release l k ih => exact ⟨trivial, ih hx.2⟩
  | read k ih => exact fun v hv => ih v (hx v hv)
  | write v k ih => exact ⟨hx.1, ih hx.2⟩
  | emit e k ih => exact ⟨trivial, ih hx.2⟩

end Keep

section Mark
variable {utxos : RgbUtxos} {o : OutPoint}

/-- The first uncoloured entry is the first one of its outpoint. -/
def TakesUncolored (utxos : RgbUtxos) : Prop :=
  ∃ u, firstUncolored utxos = some u ∧ utxos.find? (fun v => v.outpoint = u.outpoint) = some u

theorem markColored_self_iff :
    markColored o utxos = some utxos ↔
      ∃ v, utxos.find? (fun v => v.outpoint = o) = some v ∧ v.colored = true := by
  induction utxos with
  | nil => simp [markColored]
  | cons u rest ih =>
    unfold markColored
    by_cases hu : u.outpoint = o
    · obtain ⟨outpoint, colored⟩ := u
      cases colored <;> simp_all
    · simp [hu, ih]

theorem markColored_of_mem {u : RgbUtxo} (hu : u ∈ utxos) :
    ∃ utxos', markColored u.outpoint utxos = some utxos' := by
  induction utxos with
  | nil => cases hu
  | cons v rest ih =>
    unfold markColored
    by_cases hv : v.outpoint = u.outpoint
    · exact ⟨_, if_pos hv⟩
    · rw [if_neg hv]
      rcases List.mem_cons.mp hu with rfl | hu
      · exact absurd rfl hv
      · obtain ⟨rest', hrest⟩ := ih hu
        exact ⟨_, by rw [hrest, Option.map_some]⟩

theorem markColored_eq_iff {utxos' : RgbUtxos} {u : RgbUtxo} (hu : firstUncolored utxos = some u)
    (hmark : markColored u.outpoint utxos = some utxos') : utxos' = utxos ↔ ¬TakesUncolored utxos := by
  obtain ⟨hmem, huncolored⟩ := mem_of_firstUncolored hu
  have htakes : TakesUncolored utxos ↔ utxos.find? (fun v => v.outpoint = u.outpoint) = some u := by
    simp [TakesUncolored, hu]
  rw [htakes, ← Option.some_inj, ← hmark, markColored_self_iff]
  constructor
  · intro hcolored hfirst
    obtain ⟨v, hv, hcolored⟩ := hcolored
    cases hfirst.symm.trans hv
    rw [huncolored] at hcolored
    cases hcolored
  · intro hother
    have hsome : (utxos.find? fun v => v.outpoint = u.outpoint).isSome = true :=
      List.find?_isSome.mpr ⟨u, hmem, by simp⟩
    obtain ⟨v, hv⟩ := Option.isSome_iff_exists.mp hsome
    refine ⟨v, hv, ?_⟩
    by_contra hcolored
    have hsame : v.outpoint = u.outpoint := by simpa using List.find?_some hv
    have heq : v = u := by
      obtain ⟨outpoint, colored⟩ := v
      obtain ⟨outpoint', colored'⟩ := u
      simp_all
    rw [heq] at hv
    exact hother hv

end Mark

section Programs
variable {ids : ContractIdText} {p : Profile} {m : Machine Lock RgbUtxos Note} {file : RgbUtxos}

theorem takeUncolored_keeps (h : ¬TakesUncolored file) : KeepsFile takeUncolored file := by
  simp only [KeepsFile, takeUncolored, colorUtxo, Task.bind_def, Task.wp_bind, wp_checkUncoloredUtxos,
    keep_sees, wp_orPrint, wp_getUtxo, Task.wp_get, Task.wp_expect, Task.wp_put, Task.wp_note]
  intro v hv
  subst hv
  refine ⟨fun _ => ⟨fun _ _ => ?_, by simp⟩, by simp⟩
  intro v' hv' u hu
  subst hv'
  refine ⟨trivial, fun v'' hv'' marked hmarked => ?_⟩
  subst hv''
  exact ⟨(markColored_eq_iff hu hmarked).mpr h, by simp⟩

theorem takeUncolored_exec {u : RgbUtxo} (hu : firstUncolored m.cell = some u) :
    ∃ m', takeUncolored.exec m = (.returned (.ok u.outpoint), m') ∧
      (m'.cell = m.cell ↔ ¬TakesUncolored m.cell) := by
  obtain ⟨marked, hmark⟩ := markColored_of_mem (mem_of_firstUncolored hu).1
  have hexec : takeUncolored.exec m = (.returned (.ok u.outpoint), ⟨m.held, marked,
      m.trace ++ [.read m.cell, .read m.cell, .emit (.handed u.outpoint), .read m.cell, .write marked,
        .emit (.marked u.outpoint)]⟩) := by
    simp [takeUncolored, checkUncoloredUtxos, getUtxo, colorUtxo, Task.get, Task.put, Task.note, Task.bind,
      Task.exec, Machine.perform, Task.expect, orPrint, printed, Except.mapError, hu, hmark]
  exact ⟨_, hexec, markColored_eq_iff hu hmark⟩

/-- A UTXO that has been taken stays taken when nothing more is written. -/
theorem takeUncolored_bind_cell {α : Type} {f : Except String OutPoint → Program α}
    (hrest : ∀ o file, KeepsFile (f (.ok o)) file) (htakes : TakesUncolored m.cell) :
    ((takeUncolored.bind f).exec m).2.cell ≠ m.cell := by
  obtain ⟨u, hu, hfirst⟩ := htakes
  obtain ⟨m', htaken, hcell⟩ := takeUncolored_exec hu
  rw [Task.exec_bind_returned htaken, (hrest _ _).cell]
  intro hsame
  exact hcell.mp hsame ⟨u, hu, hfirst⟩

end Programs

/-- An error was printed, or a panic has ended the process. -/
def Failed (e : Exit Lock Reply) : Prop := e = .aborted ∨ ∃ message, e = .returned (.error message)

/-- A failure behind a lock has got the lock. -/
theorem free_of_lock {α : Type} {fails : Exit Lock α → Prop} (hblocked : ∀ l, ¬fails (.blocked l))
    {l : Lock} {f : Unit → Program α} {m : Machine Lock RgbUtxos Note}
    (h : fails (((Task.lock l).bind f).exec m).1) : m.held l = false := by
  by_contra hheld
  rw [Bool.not_eq_false] at hheld
  rw [Task.exec_lock_held hheld] at h
  exact hblocked l h

theorem Failed.not_blocked (l : Lock) : ¬Failed (.blocked l) := by simp [Failed]

section Issue
variable {m : Machine Lock RgbUtxos Note} {words : List Text}
  {issueContract : IssueArgs → OutPoint → Option ContractId}

/-- The command gets as far as marking a UTXO. -/
def IssueMarks (words : List Text) (file : RgbUtxos) : Prop :=
  (∃ args, issueArgs words = .ok args) ∧ TakesUncolored file

theorem issueasset_rest_keeps (args : IssueArgs) (taken : Except String OutPoint) (file : RgbUtxos) :
    KeepsFile (orPrint taken fun outpoint => do
      Task.lock .runtime
      let _ ← Task.expect (issueContract args outpoint)
      Task.note (.placed outpoint)
      Task.unlock .runtime
      pure (.ok ())) file := by
  simp [KeepsFile]

theorem issueasset_keeps {file : RgbUtxos} (h : ¬IssueMarks words file) :
    KeepsFile (issueasset words issueContract) file := by
  simp only [KeepsFile, issueasset, wp_orPrint]
  refine ⟨fun args hargs => ?_, by simp⟩
  have htakes : ¬TakesUncolored file := fun htakes => h ⟨⟨args, hargs⟩, htakes⟩
  exact (takeUncolored_keeps htakes).bind fun taken => issueasset_rest_keeps args taken file

theorem issueasset_marks (h : IssueMarks words m.cell) :
    ((issueasset words issueContract).exec m).2.cell ≠ m.cell := by
  obtain ⟨⟨args, hargs⟩, htakes⟩ := h
  rw [issueasset, hargs]
  exact takeUncolored_bind_cell (fun _ => issueasset_rest_keeps args _) htakes

end Issue

section Send
variable {ids : ContractIdText} {p : Profile} {m : Machine Lock RgbUtxos Note} {words : List Text}
  {calls : SendCalls}

/-- The command has passed its checks, and marks a UTXO for the change. -/
def SendMarks (ids : ContractIdText) (p : Profile) (words : List Text) (calls : SendCalls)
    (file : RgbUtxos) : Prop :=
  ∃ args t owned selected, sendassetArgs ids words = .ok args ∧
    getRgbTotalAmount p calls.assets.history calls.assets.unspents args.contractId = some (.ok t) ∧
    args.amtRgb ≤ t ∧ calls.sealValid args.blindedUtxo = true ∧
    getAssetOwnedValues calls.assets.history calls.assets.unspents args.contractId = .ok owned ∧
    selectInputs p args.amtRgb owned.toList = some selected ∧ 0 < selected.rgbChangeAmount ∧
    TakesUncolored file

theorem sendassetTransfer_keeps (selected : Selection) (calls : SendCalls) (file : RgbUtxos) :
    KeepsFile (sendassetTransfer selected calls) file := by
  simp [KeepsFile, sendassetTransfer]

theorem sendassetChange_keeps {selected : Selection} {file : RgbUtxos}
    (h : ¬(0 < selected.rgbChangeAmount ∧ TakesUncolored file)) :
    KeepsFile (sendassetChange selected) file := by
  unfold sendassetChange
  split
  · have htakes : ¬TakesUncolored file := fun htakes => h ⟨‹_›, htakes⟩
    exact (takeUncolored_keeps htakes).bind fun taken => by simp [KeepsFile]
  · simp [KeepsFile]

theorem sendassetRest_keeps {selected : Selection} {file : RgbUtxos}
    (h : ¬(0 < selected.rgbChangeAmount ∧ TakesUncolored file)) :
    KeepsFile ((sendassetChange selected).bind fun change =>
      orPrint change fun _ => sendassetTransfer selected calls) file := by
  apply (sendassetChange_keeps h).bind
  intro change
  cases change with
  | error e => simp [orPrint, KeepsFile]
  | ok u => exact sendassetTransfer_keeps selected calls file

theorem sendasset_keeps {file : RgbUtxos} (h : ¬SendMarks ids p words calls file) :
    KeepsFile (sendasset ids p words calls) file := by
  have hrest : ∀ args t owned selected, sendassetArgs ids words = .ok args →
      getRgbTotalAmount p calls.assets.history calls.assets.unspents args.contractId = some (.ok t) →
      args.amtRgb ≤ t → calls.sealValid args.blindedUtxo = true →
      (getAssetOwnedValues calls.assets.history calls.assets.unspents args.contractId).toOption = some owned →
      selectInputs p args.amtRgb owned.toList = some selected →
      KeepsFile ((sendassetChange selected).bind fun change =>
        orPrint change fun _ => sendassetTransfer selected calls) file := by
    intro args t owned selected hargs htotal henough hseal howned hselected
    apply sendassetRest_keeps
    rintro ⟨hchange, htakes⟩
    exact h ⟨args, t, owned, selected, hargs, htotal, henough, hseal,
      Outcome.except_toOption_eq_some.mp howned, hselected, hchange, htakes⟩
  simp only [KeepsFile, Task.wp_bind] at hrest
  simp only [KeepsFile, sendasset, sendassetChecks, sendassetInputs, wp_orPrint, Task.bind_def,
    Task.wp_bind, Task.wp_lock, wp_rgbTotalAmount, wp_assetOwnedValues, Task.wp_expect, Task.wp_ite,
    Task.pure_def, Task.wp_ret, keep_next, keep_acquire, keep_release, true_and]
  refine ⟨?_, by simp⟩
  intro args hargs total htotal
  refine ⟨?_, by simp⟩
  intro u hcheck
  obtain ⟨t, rfl, henough⟩ := checkEnough_eq_ok.mp hcheck
  refine ⟨?_, by simp⟩
  intro hseal
  refine ⟨fun _ _ owned howned selected hselected => ?_, by simp⟩
  simpa using hrest args t owned selected hargs htotal henough hseal howned hselected

/-- From the mark on nothing more is written. -/
theorem sendassetRest_marks {selected : Selection} (hchange : 0 < selected.rgbChangeAmount)
    (htakes : TakesUncolored m.cell) :
    (((sendassetChange selected).bind fun change =>
      orPrint change fun _ => sendassetTransfer selected calls).exec m).2.cell ≠ m.cell := by
  rw [sendassetChange, if_pos hchange, Task.bind_def, Task.bind_assoc]
  refine takeUncolored_bind_cell (fun o file => ?_) htakes
  exact ⟨trivial, sendassetTransfer_keeps selected calls file⟩

theorem sendasset_marks (hfailed : Failed ((sendasset ids p words calls).exec m).1)
    (h : SendMarks ids p words calls m.cell) :
    ((sendasset ids p words calls).exec m).2.cell ≠ m.cell := by
  obtain ⟨args, t, owned, selected, hargs, htotal, henough, hseal, howned, hselected, hchange, htakes⟩ := h
  rw [sendasset, hargs, orPrint, Task.bind_def] at hfailed ⊢
  have hruntime := free_of_lock Failed.not_blocked hfailed
  rw [Task.exec_lock_bind hruntime, sendassetChecks, Task.bind_def, Task.bind_def, Task.bind_assoc,
    rgbTotalAmount_lock_bind] at hfailed
  have hwallet : (m.perform (.acquire .runtime)).held .wallet = false :=
    free_of_lock Failed.not_blocked hfailed
  obtain ⟨m₁, hchecked, hwallet₁, hcell₁⟩ := sendassetChecks_exec hwallet htotal henough hseal
  obtain ⟨m₂, hinputs, hcell₂⟩ := sendassetInputs_exec hwallet₁ howned hselected
  have hcell : m₂.cell = m.cell := hcell₂.trans hcell₁
  rw [Task.exec_lock_bind hruntime, Task.bind_def, Task.exec_bind_returned hchecked, orPrint,
    Task.bind_def, Task.exec_bind_returned hinputs, ← hcell]
  exact sendassetRest_marks hchange (hcell ▸ htakes)

end Send

section Funding
variable {p : Profile} {m : Machine Lock RgbUtxos Note} {calls : FundingCalls} {selected : Selection}

def FundingCalls.task (calls : FundingCalls) : FundingTask :=
  ⟨calls.rgbInfo.isSome, calls.posted, calls.validity⟩

/-- The task returns before it hands the transaction over. -/
def FundingTask.GivesUp (task : FundingTask) : Prop :=
  task.coloured = true ∧
    (task.posted = false ∨ task.validity ≠ .valid ∧ task.validity ≠ .unminedTerminals)

/-- The handler, and the task that it spawns when it returns. -/
def fundChannel (p : Profile) (calls : FundingCalls) : Program Unit :=
  (fundingGenerationReady p calls).bind fun _ => calls.task.program

/-- `funding_transaction_generated` is not called. -/
def FundingFails (calls : FundingCalls) (e : Exit Lock Unit) : Prop :=
  e = .aborted ∨ e = .returned () ∧ calls.task.GivesUp

/-- The handler gets as far as pushing the change. -/
def FundingPushes (p : Profile) (calls : FundingCalls) (file : RgbUtxos) : Prop :=
  ∃ info owned selected tx, calls.rgbInfo = some info ∧
    getAssetOwnedValues calls.assets.history calls.assets.unspents info.contractId = .ok owned ∧
    selectInputs p info.localRgbAmount owned.toList = some selected ∧
    calls.finish (fundingParams (some selected) file) = some tx ∧ calls.sendRgb = true ∧
    0 < selected.rgbChangeAmount

theorem FundingFails.not_blocked (l : Lock) : ¬FundingFails calls (.blocked l) := by simp [FundingFails]

theorem fundingTask_keeps (task : FundingTask) (file : RgbUtxos) : KeepsFile task.program file := by
  simp [KeepsFile, FundingTask.program]

theorem fundingTx_keeps {rgbState : Option Selection} {file : RgbUtxos}
    (h : ∀ selected tx, rgbState = some selected →
      calls.finish (fundingParams (some selected) file) = some tx → calls.sendRgb = true →
        ¬0 < selected.rgbChangeAmount) :
    KeepsFile (fundingTx rgbState calls) file := by
  cases rgbState with
  | none => simp [KeepsFile, fundingTx, fundingTransfer]
  | some selected =>
    simp only [KeepsFile, fundingTx, fundingTransfer, placeChange, fundingChange, Task.bind_def,
      Task.wp_bind, Task.wp_get, Task.wp_lock, Task.wp_expect, Task.wp_note, Task.wp_unlock, wp_require,
      keep_sees, keep_next, keep_acquire, keep_release, keep_emit, true_and]
    rintro v rfl tx hfinish hsend
    simp [if_neg (h selected tx rfl hfinish hsend)]

theorem fundChannel_keeps {file : RgbUtxos} (h : ¬FundingPushes p calls file) :
    KeepsFile (fundChannel p calls) file := by
  refine KeepsFile.bind ?_ fun _ => fundingTask_keeps calls.task file
  unfold fundingGenerationReady
  cases hinfo : calls.rgbInfo with
  | none => exact fundingTx_keeps fun _ _ hsome => by cases hsome
  | some info =>
    simp only [KeepsFile, fundingInputs, Task.bind_def, Task.wp_bind, Task.wp_lock, wp_assetOwnedValues,
      Task.wp_expect, Task.wp_unlock, Task.pure_def, Task.wp_ret, keep_next, keep_acquire, keep_release,
      true_and]
    intro owned howned selected hselected
    apply fundingTx_keeps
    rintro selected' tx hsame hfinish hsend hchange
    cases hsame
    exact h ⟨info, owned, selected, tx, hinfo, Outcome.except_toOption_eq_some.mp howned, hselected,
      hfinish, hsend, hchange⟩

/-- From the push on nothing more is written. -/
theorem fundingTx_pushes {tx : Tx} (hruntime : m.held .runtime = false) (hwallet : m.held .wallet = false)
    (hfinish : calls.finish (fundingParams (some selected) m.cell) = some tx)
    (hsend : calls.sendRgb = true) (hchange : 0 < selected.rgbChangeAmount) :
    ((fundingTx (some selected) calls).exec m).2.cell = m.cell ++ [⟨⟨tx.txid, 2⟩, true⟩] := by
  have hlocked : ((m.perform (.read m.cell)).perform (.acquire .wallet)).held .runtime = false := by
    simp [Machine.perform, hruntime]
  simp only [fundingTx, fundingTransfer, placeChange, fundingChange, Task.bind_def, Task.bind_assoc,
    if_pos hchange, hsend]
  rw [Task.exec_get_bind, Task.exec_lock_bind (by exact hwallet), hfinish, Task.exec_expect_bind,
    Task.exec_note_bind, Task.exec_lock_bind (by exact hlocked)]
  rw [require, if_pos rfl, Task.pure_def, Task.bind, Task.exec_note_bind, Task.exec_unlock_bind,
    Task.exec_put_bind]
  apply KeepsFile.cell
  simp [KeepsFile]

theorem fundingGenerationReady_pushes {info : RgbInfo} {owned : OwnedValues ℕ} {tx : Tx}
    (hruntime : m.held .runtime = false) (hwallet : m.held .wallet = false) (hinfo : calls.rgbInfo = some info)
    (howned : getAssetOwnedValues calls.assets.history calls.assets.unspents info.contractId = .ok owned)
    (hselected : selectInputs p info.localRgbAmount owned.toList = some selected)
    (hfinish : calls.finish (fundingParams (some selected) m.cell) = some tx)
    (hsend : calls.sendRgb = true) (hchange : 0 < selected.rgbChangeAmount) :
    ((fundingGenerationReady p calls).exec m).2.cell = m.cell ++ [⟨⟨tx.txid, 2⟩, true⟩] := by
  obtain ⟨m', hinputs, hruntime', hwallet', hcell⟩ := fundingInputs_exec hruntime hwallet howned hselected
  simp only [fundingGenerationReady, hinfo, Task.bind_def]
  rw [Task.exec_bind_returned hinputs, ← hcell]
  exact fundingTx_pushes hruntime' hwallet' (hcell ▸ hfinish) hsend hchange

theorem fundChannel_cell :
    ((fundChannel p calls).exec m).2.cell = ((fundingGenerationReady p calls).exec m).2.cell :=
  Task.exec_bind_cell fun _ _ => (fundingTask_keeps _ _).cell

theorem fundChannel_pushes (hfailed : FundingFails calls ((fundChannel p calls).exec m).1)
    (h : FundingPushes p calls m.cell) :
    ∃ txid, ((fundChannel p calls).exec m).2.cell = m.cell ++ [⟨⟨txid, 2⟩, true⟩] := by
  obtain ⟨info, owned, selected, tx, hinfo, howned, hselected, hfinish, hsend, hchange⟩ := h
  simp only [fundChannel, fundingGenerationReady, hinfo, fundingInputs, Task.bind_def, Task.bind_assoc]
    at hfailed
  have hruntime : m.held .runtime = false := free_of_lock FundingFails.not_blocked hfailed
  rw [Task.exec_lock_bind hruntime, assetOwnedValues_lock_bind] at hfailed
  have hwallet : (m.perform (.acquire .runtime)).held .wallet = false :=
    free_of_lock FundingFails.not_blocked hfailed
  exact ⟨tx.txid, fundChannel_cell.trans
    (fundingGenerationReady_pushes hruntime hwallet hinfo howned hselected hfinish hsend hchange)⟩

end Funding

/-- An operation that fails leaves the list as it was iff it fails before it has written. -/
theorem failed_operations_iff (ids : ContractIdText) (p : Profile) :
    (∀ words issueContract m, Failed ((issueasset words issueContract).exec m).1 →
      (((issueasset words issueContract).exec m).2.cell = m.cell ↔ ¬IssueMarks words m.cell)) ∧
    (∀ words calls m, Failed ((sendasset ids p words calls).exec m).1 →
      (((sendasset ids p words calls).exec m).2.cell = m.cell ↔ ¬SendMarks ids p words calls m.cell)) ∧
    ∀ calls m, FundingFails calls ((fundChannel p calls).exec m).1 →
      (((fundChannel p calls).exec m).2.cell = m.cell ↔ ¬FundingPushes p calls m.cell) := by
  refine ⟨fun words issueContract m _ => ?_, fun words calls m hfailed => ?_, fun calls m hfailed => ?_⟩
  · constructor
    · intro hcell hmarks
      exact issueasset_marks hmarks hcell
    · intro h
      exact (issueasset_keeps h).cell
  · constructor
    · intro hcell hmarks
      exact sendasset_marks hfailed hmarks hcell
    · intro h
      exact (sendasset_keeps h).cell
  · constructor
    · intro hcell hpushes
      obtain ⟨txid, hpushed⟩ := fundChannel_pushes hfailed hpushes
      rw [hcell] at hpushed
      simp at hpushed
    · intro h
      exact (fundChannel_keeps h).cell

/-- RGB accepts precisions up to 18. -/
def issueUpTo18 (args : IssueArgs) (_ : OutPoint) : Option ContractId :=
  if args.precision ≤ 18 then some (Bytes32.fill 7) else none

def freeUtxo : Machine Lock RgbUtxos Note := ⟨fun _ => false, [⟨⟨Bytes32.fill 2, 0⟩, false⟩], []⟩

/-- The proxy refuses the consignment. -/
def refusedSend : SendCalls where
  assets := ownedUnits
  sealValid _ := true
  finish params := some ⟨Bytes32.fill 5, params.addUtxos⟩
  sendRgb := true
  postConsignment := false
  acceptTransfer := true

def anyId : ContractIdText := ⟨fun _ => some (Bytes32.fill 7), fun _ => []⟩

/-- All 100 units are sent, and there is no change to place. -/
theorem refused_send_keeps :
    ((sendasset anyId .release ["rgb".toList, "100".toList, "utxob".toList] refusedSend).exec
      freeUtxo).2.cell = freeUtxo.cell := by
  apply ((failed_operations_iff anyId .release).2.1 _ _ _ (.inr ⟨_, rfl⟩)).mpr
  rintro ⟨args, t, owned, selected, hargs, -, -, -, howned, hselected, hchange, -⟩
  cases hargs
  cases howned
  cases hselected
  exact absurd hchange (by decide)

theorem failed_operations_write :
    (((issueasset ["9".toList, "USDT".toList, "Tether".toList, "30".toList] issueUpTo18).exec freeUtxo).1 =
        .aborted ∧
      ((issueasset ["9".toList, "USDT".toList, "Tether".toList, "30".toList] issueUpTo18).exec
        freeUtxo).2.cell = [⟨⟨Bytes32.fill 2, 0⟩, true⟩]) ∧
    (Failed ((sendasset anyId .release ["rgb".toList, "60".toList, "utxob".toList] refusedSend).exec
        freeUtxo).1 ∧
      ((sendasset anyId .release ["rgb".toList, "60".toList, "utxob".toList] refusedSend).exec
        freeUtxo).2.cell = [⟨⟨Bytes32.fill 2, 0⟩, true⟩]) ∧
    FundingFails { colouredFunding with posted := false }
        ((fundChannel .release { colouredFunding with posted := false }).exec freeUtxo).1 ∧
      ((fundChannel .release { colouredFunding with posted := false }).exec freeUtxo).2.cell =
        freeUtxo.cell ++ [⟨⟨Bytes32.fill 5, 2⟩, true⟩] := by
  have hsend : ((sendasset anyId .release ["rgb".toList, "60".toList, "utxob".toList] refusedSend).exec
      freeUtxo).1 = .returned (.error "ERROR: unable to post consignment") := by rfl
  have hfund : ((fundChannel .release { colouredFunding with posted := false }).exec freeUtxo).1 =
      .returned () := by rfl
  refine ⟨⟨by rfl, by rfl⟩, ⟨.inr ⟨_, hsend⟩, by rfl⟩, .inr ⟨hfund, ?_⟩, by rfl⟩
  exact ⟨rfl, .inl rfl⟩

end RgbLightning.Node
