import RgbLightning.Node.Runs
import RgbLightning.Node.LockSections

/-! # Allocations stay listed as coloured

An outpoint on which the node places an allocation is listed as coloured when the
operation has completed, and no later write unlists it. Every transaction builder is
told not to spend what is listed, save the inputs selected.
-/
namespace RgbLightning.Node
open MachineInt Decimal Rgb Runs

/-- The transaction library spends the added coins, and otherwise only coins that
are not marked unspendable, and none when only the added ones are selected. -/
def Tx.Respects (tx : Tx) (params : TxParams) : Prop :=
  ∀ o ∈ tx.inputs, o ∈ params.addUtxos ∨
    (params.manuallySelectedOnly = false ∧ o ∉ params.unspendable)

/-- All transactions an operation is given respect their parameters. -/
def Operation.TxsRespect : Operation → Prop
  | command (.createutxos calls) => ∀ params tx, calls.finish params = some tx → tx.Respects params
  | command (.sendasset _ calls) => ∀ params tx, calls.finish params = some tx → tx.Respects params
  | event (.fundingGenerationReady calls) =>
    ∀ params tx, calls.finish params = some tx → tx.Respects params
  | _ => True

/-- The file, and the outpoints on which the operation has placed an allocation. -/
structure ColourView where
  file : RgbUtxos
  placed : List OutPoint

/-- Everything placed is listed as coloured. -/
def ColourView.Settled (s : ColourView) : Prop := ∀ o ∈ s.placed, ListedColored o s.file

/-- Writes keep what is coloured. A transaction is built when everything placed is
listed, and spends nothing coloured that was not selected. -/
def colourMonitor : Monitor Lock RgbUtxos Note ColourView where
  sees s v := v = s.file
  ok s
    | .write v => ∀ o, ListedColored o s.file → ListedColored o v
    | .emit (.built params tx) =>
      s.Settled ∧ ∀ o ∈ tx.inputs, ListedColored o s.file → o ∈ params.addUtxos
    | _ => True
  next s
    | .write v => { s with file := v }
    | .emit (.placed o) => { s with placed := s.placed ++ [o] }
    | _ => s

section Programs
variable {file : RgbUtxos} {s : ColourView}

theorem settled_start (file : RgbUtxos) : (ColourView.mk file []).Settled := by
  intro o ho
  cases ho

theorem ColourView.Settled.place {o : OutPoint} (h : s.Settled) (ho : ListedColored o s.file) :
    ColourView.Settled { s with placed := s.placed ++ [o] } := by
  intro x hx
  rcases List.mem_append.mp hx with hx | hx
  · exact h x hx
  · rwa [List.mem_singleton.mp hx]

/-- An outpoint placed before the write is settled by a write that lists it. -/
theorem ColourView.Settled.list (h : s.Settled) (o : OutPoint) :
    (ColourView.mk (s.file ++ [⟨o, true⟩]) (s.placed ++ [o])).Settled := by
  intro x hx
  rcases List.mem_append.mp hx with hx | hx
  · exact (h x hx).append _
  · rw [List.mem_singleton.mp hx]
    exact listedColored_concat o s.file

@[simp] theorem colour_sees {v : RgbUtxos} : colourMonitor.sees s v ↔ v = s.file := Iff.rfl
@[simp] theorem colour_acquire (l : Lock) : colourMonitor.ok s (.acquire l) ↔ True := Iff.rfl
@[simp] theorem colour_release (l : Lock) : colourMonitor.ok s (.release l) ↔ True := Iff.rfl
@[simp] theorem colour_write (v : RgbUtxos) :
    colourMonitor.ok s (.write v) ↔ ∀ o, ListedColored o s.file → ListedColored o v := Iff.rfl
@[simp] theorem colour_pushed (u : RgbUtxo) :
    colourMonitor.ok s (.emit (.pushed u)) ↔ True := Iff.rfl
@[simp] theorem colour_marked (o : OutPoint) :
    colourMonitor.ok s (.emit (.marked o)) ↔ True := Iff.rfl
@[simp] theorem colour_handed (o : OutPoint) :
    colourMonitor.ok s (.emit (.handed o)) ↔ True := Iff.rfl
@[simp] theorem colour_placed (o : OutPoint) :
    colourMonitor.ok s (.emit (.placed o)) ↔ True := Iff.rfl
@[simp] theorem colour_built (params : TxParams) (tx : Tx) :
    colourMonitor.ok s (.emit (.built params tx)) ↔
      s.Settled ∧ ∀ o ∈ tx.inputs, ListedColored o s.file → o ∈ params.addUtxos := Iff.rfl
@[simp] theorem colour_spawned (task : FundingTask) :
    colourMonitor.ok s (.emit (.spawned task)) ↔ True := Iff.rfl
@[simp] theorem colour_next_acquire (l : Lock) : colourMonitor.next s (.acquire l) = s := rfl
@[simp] theorem colour_next_release (l : Lock) : colourMonitor.next s (.release l) = s := rfl
@[simp] theorem colour_next_read (v : RgbUtxos) : colourMonitor.next s (.read v) = s := rfl
@[simp] theorem colour_next_write (v : RgbUtxos) :
    colourMonitor.next s (.write v) = ⟨v, s.placed⟩ := rfl
@[simp] theorem colour_next_pushed (u : RgbUtxo) : colourMonitor.next s (.emit (.pushed u)) = s := rfl
@[simp] theorem colour_next_marked (o : OutPoint) : colourMonitor.next s (.emit (.marked o)) = s := rfl
@[simp] theorem colour_next_handed (o : OutPoint) : colourMonitor.next s (.emit (.handed o)) = s := rfl
@[simp] theorem colour_next_placed (o : OutPoint) :
    colourMonitor.next s (.emit (.placed o)) = ⟨s.file, s.placed ++ [o]⟩ := rfl
@[simp] theorem colour_next_built (params : TxParams) (tx : Tx) :
    colourMonitor.next s (.emit (.built params tx)) = s := rfl
@[simp] theorem colour_next_spawned (task : FundingTask) :
    colourMonitor.next s (.emit (.spawned task)) = s := rfl

/-- From a file in which everything placed is listed to another one. -/
def KeepsColour {α : Type} (program : Program α) : Prop :=
  ∀ s : ColourView, s.Settled → program.wp colourMonitor (fun _ s => s.Settled) s

theorem takeUncolored_colour (hs : s.Settled) :
    takeUncolored.wp colourMonitor
      (fun taken s => s.Settled ∧ ∀ o, taken = .ok o → ListedColored o s.file) s := by
  simp only [takeUncolored, colorUtxo, Task.bind_def, Task.wp_bind, wp_checkUncoloredUtxos,
    colour_sees, wp_orPrint, wp_getUtxo, Task.wp_get, Task.wp_expect, Task.wp_put, Task.wp_note]
  intro v hv
  subst hv
  refine ⟨fun _ => ⟨fun _ _ => ?_, by simp⟩, by simpa using fun _ => hs⟩
  rintro _ rfl u _
  refine ⟨trivial, ?_⟩
  rintro _ rfl marked hmarked
  obtain ⟨hself, hkeep, -⟩ := markColored_spec hmarked
  refine ⟨hkeep, trivial, fun o ho => hkeep o (hs o ho), ?_⟩
  intro o ho
  cases ho
  exact hself

theorem issueasset_colour (words : List Text)
    (issueContract : IssueArgs → OutPoint → Option ContractId) :
    KeepsColour (issueasset words issueContract) := by
  intro s hs
  simp only [issueasset, wp_orPrint, Task.bind_def, Task.wp_bind]
  refine ⟨?_, fun _ _ => hs⟩
  intro args _
  apply Task.wp_mono _ (takeUncolored_colour hs)
  rintro taken s' ⟨hsettled, htaken⟩
  simpa using ⟨fun o ho _ _ _ => hsettled.place (htaken o ho), fun _ _ => hsettled⟩

theorem receiveasset_colour (storeSealSecret : OutPoint → Bool) :
    KeepsColour (receiveasset storeSealSecret) := by
  intro s hs
  simp only [receiveasset, Task.bind_def, Task.wp_bind]
  apply Task.wp_mono _ (takeUncolored_colour hs)
  rintro taken s' ⟨hsettled, htaken⟩
  simpa using ⟨fun o ho _ => hsettled.place (htaken o ho), fun _ _ => hsettled⟩

theorem createutxos_colour (p : Profile) (calls : CreateUtxosCalls)
    (htxs : ∀ params tx, calls.finish params = some tx → tx.Respects params) :
    KeepsColour (createutxos p calls) := by
  intro s hs
  simp only [createutxos, Task.bind_def, Task.wp_bind, Task.wp_lock, Task.wp_get, colour_sees,
    Task.wp_expect, Task.wp_ite, Task.wp_note, Task.wp_put, colour_built, colour_write]
  refine ⟨trivial, ?_⟩
  rintro v rfl available _
  refine ⟨by simpa using fun _ => hs, fun _ tx htx => ?_⟩
  -- everything listed is unspendable and nothing is added
  have hbuilt : ∀ o ∈ tx.inputs, ListedColored o s.file → o ∈ ([] : List OutPoint) := by
    rintro o ho ⟨u, hu, rfl, -⟩
    have hlisted : u.outpoint ∈ s.file.map RgbUtxo.outpoint := List.mem_map_of_mem hu
    rcases htxs _ tx htx _ ho with h | ⟨-, h⟩
    · exact h
    · exact absurd hlisted h
  have hkeep : ∀ o, ListedColored o s.file → ListedColored o (s.file ++ newUtxos tx.txid) :=
    fun o ho => ho.append _
  have hsettled : (ColourView.mk (s.file ++ newUtxos tx.txid) s.placed).Settled :=
    fun o ho => hkeep o (hs o ho)
  refine ⟨⟨hs, hbuilt⟩, hkeep, ?_⟩
  apply Task.wp_mono _ (Task.wp_forEach (I := fun s : ColourView => s.Settled) _ hsettled)
  · intro _ s hs
    simpa using hs
  · intro u _ s hs
    simpa using hs

theorem sendassetChange_colour (selected : Selection) (hs : s.Settled) :
    (sendassetChange selected).wp colourMonitor (fun _ s => s.Settled) s := by
  simp only [sendassetChange, Task.wp_ite, Task.bind_def, Task.wp_bind]
  refine ⟨fun _ => ?_, fun _ => hs⟩
  apply Task.wp_mono _ (takeUncolored_colour hs)
  rintro taken s' ⟨hsettled, htaken⟩
  simpa using ⟨fun o ho => hsettled.place (htaken o ho), fun _ _ => hsettled⟩

theorem sendassetTransfer_colour (selected : Selection) (calls : SendCalls)
    (htxs : ∀ params tx, calls.finish params = some tx → tx.Respects params) :
    KeepsColour (sendassetTransfer selected calls) := by
  intro s hs
  simp only [sendassetTransfer, Task.bind_def, Task.wp_bind, Task.wp_lock, Task.wp_expect,
    Task.wp_note, colour_built]
  refine ⟨trivial, fun tx htx => ?_⟩
  have hbuilt : ∀ o ∈ tx.inputs, o ∈ selected.rgbInputs := by
    intro o ho
    rcases htxs _ tx htx o ho with h | ⟨h, -⟩
    · exact h
    · cases h
  exact ⟨⟨hs, fun o ho _ => hbuilt o ho⟩, by simpa using fun _ => ⟨fun _ _ => hs, fun _ => hs⟩⟩

theorem sendasset_colour (ids : ContractIdText) (p : Profile) (words : List Text) (calls : SendCalls)
    (htxs : ∀ params tx, calls.finish params = some tx → tx.Respects params) :
    KeepsColour (sendasset ids p words calls) := by
  intro s hs
  have hsend : ∀ selected, (sendassetChange selected).wp colourMonitor
      (fun change s => (∀ u, change = .ok u →
        (sendassetTransfer selected calls).wp colourMonitor (fun _ s => s.Settled) s) ∧
        ∀ e, change = .error e → s.Settled) s := by
    intro selected
    apply Task.wp_mono _ (sendassetChange_colour selected hs)
    intro change s' hsettled
    exact ⟨fun u _ => sendassetTransfer_colour selected calls htxs s' hsettled, fun _ _ => hsettled⟩
  simp [sendasset, sendassetChecks, sendassetInputs, hsend, hs]

/-- A coloured entry is spendable only as a selected input. -/
theorem mem_fundingUnspendable {rgbState : Option Selection} {utxos : RgbUtxos} {o : OutPoint}
    (ho : ListedColored o utxos) (hin : o ∉ (fundingParams rgbState utxos).addUtxos) :
    o ∈ fundingUnspendable rgbState utxos := by
  obtain ⟨u, hu, rfl, hcolored⟩ := ho
  apply List.mem_map_of_mem
  rw [List.mem_filter]
  refine ⟨hu, ?_⟩
  cases rgbState with
  | none => rfl
  | some state =>
    have hin : u.outpoint ∉ state.rgbInputs := hin
    simpa [hcolored] using hin

/-- The change is placed by `send_rgb` and listed by the write that follows. -/
theorem fundingTransfer_colour (rgbState : Option Selection) (calls : FundingCalls) (txid : Txid)
    (hs : s.Settled) :
    (fundingTransfer calls s.file txid rgbState).wp colourMonitor (fun _ s => s.Settled) s := by
  cases rgbState with
  | none => exact hs
  | some selected =>
    by_cases hchange : 0 < selected.rgbChangeAmount
    · simpa [fundingTransfer, placeChange, fundingChange, hchange] using
        fun _ => ⟨fun o ho => ho.append _, fun _ => hs.list _⟩
    · simpa [fundingTransfer, placeChange, fundingChange, hchange] using fun _ _ => hs

theorem fundingTx_colour (rgbState : Option Selection) (calls : FundingCalls)
    (htxs : ∀ params tx, calls.finish params = some tx → tx.Respects params) :
    KeepsColour (fundingTx rgbState calls) := by
  intro s hs
  simp only [fundingTx, Task.bind_def, Task.wp_bind, Task.wp_get, colour_sees, Task.wp_lock,
    Task.wp_expect, Task.wp_note, colour_built]
  rintro v rfl
  refine ⟨trivial, fun tx htx => ⟨⟨hs, ?_⟩, ?_⟩⟩
  · intro o ho hlisted
    rcases htxs _ tx htx o ho with h | ⟨-, h⟩
    · exact h
    · by_contra hin
      exact h (mem_fundingUnspendable hlisted hin)
  · apply Task.wp_mono _ (fundingTransfer_colour rgbState calls tx.txid hs)
    intro _ s' hs'
    simpa using hs'

theorem fundingGenerationReady_colour (p : Profile) (calls : FundingCalls)
    (htxs : ∀ params tx, calls.finish params = some tx → tx.Respects params) :
    KeepsColour (fundingGenerationReady p calls) := by
  intro s hs
  unfold fundingGenerationReady
  cases calls.rgbInfo with
  | none => exact fundingTx_colour none calls htxs s hs
  | some info =>
    simpa [fundingInputs] using fun _ _ selected _ => fundingTx_colour (some selected) calls htxs s hs

/-- The swept output is placed by `send_rgb` and listed once it has been broadcast. -/
theorem sweepOutput_colour (output : SpendableOutput) : KeepsColour (sweepOutput output) := by
  intro s hs
  simp only [sweepOutput, Task.wp_ite, Task.bind_def, Task.wp_bind, Task.wp_lock, Task.wp_expect,
    Task.wp_note, colour_built]
  refine ⟨fun _ => hs, fun _ => ⟨trivial, fun txid _ => ⟨⟨hs, fun o ho _ => ho⟩, fun _ => ?_, ?_⟩⟩⟩
  · simpa [pushSwept] using ⟨fun o ho => ho.append _, fun _ => hs.list _⟩
  · simpa using fun _ => hs

theorem spendableOutputs_colour (outputs : List SpendableOutput) :
    KeepsColour (spendableOutputs outputs) := by
  intro s hs
  have hsweep : (Task.forEach sweepOutput outputs).wp colourMonitor (fun _ s => s.Settled) s := by
    apply Task.wp_forEach (I := fun s : ColourView => s.Settled) _ hs
    intro output _ s hs
    exact sweepOutput_colour output s hs
  simp only [spendableOutputs, Task.bind_def, Task.wp_bind, Task.wp_lock]
  exact ⟨trivial, Task.wp_mono (fun _ s hs => by simpa using hs) hsweep⟩

theorem colour_simulates : colourMonitor.Simulates sectionMonitor fun s _ => s.Settled where
  sees := fun _ _ => trivial
  read := fun h _ => h
  ok := by
    intro s t a _ h
    cases a with
    | acquire l => trivial
    | release l => trivial
    | read v => trivial
    | write v => exact h.elim
    | emit e => exact h.elim
  next := by
    intro s t a hs h
    cases a with
    | acquire l => exact hs
    | release l => exact hs
    | read v => exact hs
    | write v => exact h.elim
    | emit e => exact h.elim

theorem OnlyLocks.colour {program : Program Unit} (h : OnlyLocks program) : KeepsColour program :=
  fun _ hs => Task.wp_of_simulates colour_simulates (fun _ _ _ hs _ => hs) hs h

theorem KeepsColour.command {ids : ContractIdText} {p : Profile} {c : Command}
    (h : KeepsColour (c.program ids p)) : KeepsColour ((Operation.command c).program p ids) :=
  fun s hs => wp_command.mpr (h s hs)

theorem operation_colour (ids : ContractIdText) (p : Profile) (op : Operation)
    (htxs : op.TxsRespect) : KeepsColour (op.program p ids) := by
  cases op using Operation.casesFile ids p with
  | onlyLocks op h => exact h.colour
  | createutxos calls => exact .command (createutxos_colour p calls htxs)
  | issueasset words issueContract => exact .command (issueasset_colour words issueContract)
  | receiveasset storeSealSecret => exact .command (receiveasset_colour storeSealSecret)
  | sendasset words calls => exact .command (sendasset_colour ids p words calls htxs)
  | fundingGenerationReady calls => exact fundingGenerationReady_colour p calls htxs
  | spendableOutputs outputs => exact spendableOutputs_colour outputs

end Programs

section Run

/-- A transaction spends an outpoint with an allocation only as a selected input. -/
def SpendsSelectedOnly (older : List (Act Lock RgbUtxos Note)) (act : Act Lock RgbUtxos Note) : Prop :=
  ∀ params tx, act = .emit (.built params tx) →
    ∀ o ∈ tx.inputs, .emit (.placed o) ∈ older → o ∈ params.addUtxos

/-- The view follows the machine. What was coloured at the start still is, and an outpoint
with an allocation is listed as coloured or has just been placed. -/
structure ColourView.Of (m₀ : Machine Lock RgbUtxos Note) (s : ColourView)
    (m : Machine Lock RgbUtxos Note) : Prop where
  file : s.file = m.cell
  kept : ∀ o, ListedColored o m₀.cell → ListedColored o m.cell
  placed : ∀ o, .emit (.placed o) ∈ m.trace → ListedColored o m.cell ∨ o ∈ s.placed
  unburned : EachAfter SpendsSelectedOnly m.trace

section Step
variable {m₀ m : Machine Lock RgbUtxos Note} {s : ColourView}

/-- An action that neither writes nor builds; what it places is in the view. -/
theorem ColourView.Of.perform (h : s.Of m₀ m) {a : Act Lock RgbUtxos Note} {placed : List OutPoint}
    (hcell : (m.perform a).cell = m.cell) (hold : ∀ o ∈ s.placed, o ∈ placed)
    (hplaced : ∀ o, a = .emit (.placed o) → o ∈ placed) (hbuilt : SpendsSelectedOnly m.trace a) :
    (ColourView.mk s.file placed).Of m₀ (m.perform a) := by
  refine ⟨h.file.trans hcell.symm, hcell ▸ h.kept, ?_, eachAfter_concat.mpr ⟨h.unburned, hbuilt⟩⟩
  intro o ho
  rw [hcell]
  rcases List.mem_append.mp ho with ho | ho
  · exact (h.placed o ho).imp id (hold o)
  · exact .inr (hplaced o (List.mem_singleton.mp ho).symm)

theorem ColourView.Of.write (h : s.Of m₀ m) {v : RgbUtxos}
    (hkeep : ∀ o, ListedColored o s.file → ListedColored o v) :
    (ColourView.mk v s.placed).Of m₀ (m.perform (.write v)) := by
  have hbuilt : SpendsSelectedOnly m.trace (.write v) := by
    intro params tx hb
    cases hb
  rw [h.file] at hkeep
  refine ⟨rfl, fun o ho => hkeep o (h.kept o ho), ?_, eachAfter_concat.mpr ⟨h.unburned, hbuilt⟩⟩
  intro o ho
  rcases List.mem_append.mp ho with ho | ho
  · exact (h.placed o ho).imp (hkeep o) id
  · cases List.mem_singleton.mp ho

/-- Nothing placed is unlisted when a transaction is built. -/
theorem ColourView.Of.built (h : s.Of m₀ m) {params : TxParams} {tx : Tx} (hs : s.Settled)
    (hinputs : ∀ o ∈ tx.inputs, ListedColored o s.file → o ∈ params.addUtxos) :
    s.Of m₀ (m.perform (.emit (.built params tx))) := by
  apply h.perform rfl (fun _ => id) (fun _ ho => by cases ho)
  intro params' tx' hb o ho hplaced
  cases hb
  apply hinputs o ho
  rcases h.placed o hplaced with hlisted | hpending
  · rwa [h.file]
  · exact hs o hpending

end Step

theorem colour_describes (m₀ : Machine Lock RgbUtxos Note) : colourMonitor.Describes (ColourView.Of m₀) where
  sees := fun h => h.file.symm
  acquire := fun h _ _ =>
    h.perform rfl (fun _ => id) (fun _ ho => by cases ho) (fun _ _ hb => by cases hb)
  release := fun h _ =>
    h.perform rfl (fun _ => id) (fun _ ho => by cases ho) (fun _ _ hb => by cases hb)
  read := fun h =>
    h.perform rfl (fun _ => id) (fun _ ho => by cases ho) (fun _ _ hb => by cases hb)
  write := fun h hkeep => h.write hkeep
  emit := by
    intro s m e h hok
    cases e with
    | placed o =>
      apply h.perform rfl (fun _ => List.mem_append_left _) _ (fun _ _ hb => by cases hb)
      rintro _ ⟨⟩
      simp
    | built params tx => exact h.built hok.1 hok.2
    | _ => exact h.perform rfl (fun _ => id) (fun _ ho => by cases ho) (fun _ _ hb => by cases hb)

/-- What completed operations have placed is listed as coloured, and nothing was burned. -/
structure ColourInv (s : NodeState) : Prop where
  listed : s.status = .running → ∀ o, .emit (.placed o) ∈ s.machine.trace → ListedColored o s.machine.cell
  unburned : EachAfter SpendsSelectedOnly s.machine.trace

variable {ids : ContractIdText} {p : Profile}

theorem nodeStep_colour {s : NodeState} {op : Operation} (htxs : op.TxsRespect) (hs : ColourInv s) :
    ColourInv (nodeStep ids p s op) ∧
      ∀ o, ListedColored o s.machine.cell → ListedColored o (nodeStep ids p s op).machine.cell := by
  unfold nodeStep
  split
  · rename_i hrunning
    have hstart : (ColourView.mk s.machine.cell []).Of s.machine s.machine :=
      ⟨rfl, fun _ => id, fun o ho => .inl (hs.listed hrunning o ho), hs.unburned⟩
    obtain ⟨view, hview, hreturned, -⟩ := Task.wp_exec (colour_describes s.machine) hstart
      (operation_colour ids p op htxs _ (settled_start _))
    refine ⟨⟨?_, hview.unburned⟩, hview.kept⟩
    intro hstatus o ho
    cases hexit : ((op.program p ids).exec s.machine).1 with
    | returned u =>
      rcases hview.placed o ho with hlisted | hpending
      · exact hlisted
      · exact hview.file ▸ hreturned u hexit o hpending
    | aborted => simp [hexit, Exit.status] at hstatus
    | blocked l => simp [hexit, Exit.status] at hstatus
  · exact ⟨hs, fun _ => id⟩

theorem nodeRun_colour {ops : List Operation} (htxs : ∀ op ∈ ops, op.TxsRespect) :
    ColourInv (nodeRun ids p ops) := by
  have hinit : ColourInv .init := ⟨by simp [NodeState.init], eachAfter_nil _⟩
  exact run_invariant ColourInv Operation.TxsRespect hinit (fun _ _ h hs => (nodeStep_colour h hs).1) ops htxs

/-- What is coloured stays so, also in an operation that does not complete. -/
theorem nodeRun_keeps_coloured {older newer : List Operation}
    (htxs : ∀ op ∈ older ++ newer, op.TxsRespect) {o : OutPoint}
    (ho : ListedColored o (nodeRun ids p older).machine.cell) :
    ListedColored o (nodeRun ids p (older ++ newer)).machine.cell := by
  induction newer using List.reverseRecOn with
  | nil => simpa using ho
  | append_singleton newer op ih =>
    rw [← List.append_assoc] at htxs ⊢
    have hbefore : ∀ op ∈ older ++ newer, op.TxsRespect := fun x hx => htxs x (List.mem_append_left _ hx)
    rw [nodeRun, run_concat]
    exact (nodeStep_colour (htxs op (by simp)) (nodeRun_colour hbefore)).2 o (ih hbefore)

/-- In every run of operations each run to its end, whatever the completed ones have placed
is listed as coloured from then on, and no transaction spends an allocation that was not
selected for it. -/
theorem coloured_never_burned (ops : List Operation) (htxs : ∀ op ∈ ops, op.TxsRespect) :
    (∀ older newer, ops = older ++ newer → (nodeRun ids p older).status = .running →
      ∀ o, .emit (.placed o) ∈ (nodeRun ids p older).machine.trace →
        ListedColored o (nodeRun ids p ops).machine.cell) ∧
    EachAfter SpendsSelectedOnly (nodeRun ids p ops).machine.trace := by
  refine ⟨?_, (nodeRun_colour htxs).unburned⟩
  rintro older newer rfl hrunning o ho
  have hbefore : ∀ op ∈ older, op.TxsRespect := fun op hop => htxs op (List.mem_append_left _ hop)
  exact nodeRun_keeps_coloured htxs ((nodeRun_colour hbefore).listed hrunning o ho)

/-- A transaction library whose wallet holds one coin. -/
def oneCoin (coin : OutPoint) (txid : Txid) (params : TxParams) : Option Tx :=
  if coin ∈ params.addUtxos ∨ (params.manuallySelectedOnly = false ∧ coin ∉ params.unspendable) then
    some ⟨txid, [coin]⟩
  else none

theorem oneCoin_respects {coin : OutPoint} {txid : Txid} {params : TxParams} {tx : Tx}
    (h : oneCoin coin txid params = some tx) : tx.Respects params := by
  unfold oneCoin at h
  split at h
  · cases h
    simpa [Tx.Respects]
  · cases h

/-- 100 units on one coin. -/
def unitsOf (coin : OutPoint) (units : ℕ) : Assets where
  history _ := some ⟨[⟨0, coin, units⟩], by simp⟩
  unspents := [coin]

def noContract : ContractIdText := ⟨fun _ => none, fun _ => []⟩

/-- UTXOs are created and an asset is issued on one; a coloured channel is funded with a
part of it, an output of a closed channel is swept, and a vanilla channel is funded. -/
def issueFundSweep : List Operation :=
  [.command (.createutxos ⟨200000, [(⟨Bytes32.fill 1, 0⟩, 200000)],
      oneCoin ⟨Bytes32.fill 1, 0⟩ (Bytes32.fill 2)⟩),
    .command (.issueasset ["100".toList, "USDT".toList, "Tether".toList, "0".toList]
      fun _ _ => some (Bytes32.fill 7)),
    .event (.fundingGenerationReady ⟨some ⟨Bytes32.fill 7, 60, 0⟩, unitsOf ⟨Bytes32.fill 2, 0⟩ 100,
      oneCoin ⟨Bytes32.fill 2, 0⟩ (Bytes32.fill 3), true, true, true, .valid⟩),
    .event (.spendableOutputs
      [⟨⟨Bytes32.fill 9, 1⟩, some .valid, some (Bytes32.fill 4), some 0, true⟩]),
    .event (.fundingGenerationReady ⟨none, ⟨fun _ => none, []⟩,
      oneCoin ⟨Bytes32.fill 2, 4⟩ (Bytes32.fill 5), true, true, true, .valid⟩)]

/-- The issue, the change of the funding and the swept output stay listed. -/
theorem coloured_never_burned_issueFundSweep :
    ListedColored ⟨Bytes32.fill 2, 0⟩ (nodeRun noContract .release issueFundSweep).machine.cell ∧
    ListedColored ⟨Bytes32.fill 3, 2⟩ (nodeRun noContract .release issueFundSweep).machine.cell ∧
    ListedColored ⟨Bytes32.fill 4, 1⟩ (nodeRun noContract .release issueFundSweep).machine.cell ∧
    EachAfter SpendsSelectedOnly (nodeRun noContract .release issueFundSweep).machine.trace := by
  have htxs : ∀ op ∈ issueFundSweep, op.TxsRespect := by
    intro op hop
    simp only [issueFundSweep, List.mem_cons, List.not_mem_nil, or_false] at hop
    rcases hop with rfl | rfl | rfl | rfl | rfl
    · exact fun _ _ => oneCoin_respects
    · trivial
    · exact fun _ _ => oneCoin_respects
    · trivial
    · exact fun _ _ => oneCoin_respects
  have hrunning : (nodeRun noContract .release issueFundSweep).status = .running := by decide
  obtain ⟨hlisted, hunburned⟩ := coloured_never_burned issueFundSweep htxs
  have hplaced := hlisted issueFundSweep [] (List.append_nil _).symm hrunning
  exact ⟨hplaced _ (by decide), hplaced _ (by decide), hplaced _ (by decide), hunburned⟩

end Run

end RgbLightning.Node
