import RgbLightning.Base.CellUpdate
import RgbLightning.Node.LockSections
import RgbLightning.Node.Schedule

/-! # Updates of the `rgb_utxos` file

Every writer reads the whole file and writes it back with its change. Some hold a
lock from the read to the write, others none.
-/
namespace RgbLightning.Node
open MachineInt Decimal Rgb Runs TaskSystem

/-- What a note says of the file: pushed entries are listed, as coloured if pushed so, and
marked ones are coloured. The other notes say nothing of it. -/
def Note.Claims : Note → RgbUtxos → Prop
  | pushed u, utxos => Listed u.outpoint utxos ∧ (u.colored = true → ListedColored u.outpoint utxos)
  | marked outpoint, utxos => ListedColored outpoint utxos
  | handed _, _ | placed _, _ | built _ _, _ | spawned _, _ => True

/-- The locks an operation holds from each read of the file to the write that follows. -/
def Operation.Guards : Operation → Lock → Prop
  | command (.createutxos _), l => l = .wallet
  | command (.sendasset _ _), l => l = .runtime
  | event (.spendableOutputs _), _ => True
  | _, _ => False

theorem keeps_iff {utxos utxos' : RgbUtxos} : Keeps Note.Claims utxos utxos' ↔
    (∀ o, Listed o utxos → Listed o utxos') ∧ ∀ o, ListedColored o utxos → ListedColored o utxos' := by
  constructor
  · intro h
    refine ⟨fun o ho => ?_, fun o => h (.marked o)⟩
    have hpushed : Note.Claims (.pushed ⟨o, false⟩) utxos := ⟨ho, fun hcolored => by cases hcolored⟩
    exact (h _ hpushed).1
  · intro hnoted e he
    obtain ⟨hlisted, hcolored⟩ := hnoted
    cases e with
    | pushed u => exact ⟨hlisted _ he.1, fun hu => hcolored _ (he.2 hu)⟩
    | marked o => exact hcolored o he
    | _ => trivial

theorem keeps_append (utxos more : RgbUtxos) : Keeps Note.Claims utxos (utxos ++ more) :=
  keeps_iff.mpr ⟨fun _ h => h.append more, fun _ h => h.append more⟩

theorem keeps_markColored {o : OutPoint} {utxos utxos' : RgbUtxos}
    (h : markColored o utxos = some utxos') : Keeps Note.Claims utxos utxos' := by
  obtain ⟨-, hcolored, hlisted⟩ := markColored_spec h
  exact keeps_iff.mpr ⟨hlisted, hcolored⟩

section Programs
variable {guard : Lock → Prop} {g : UpdateState Lock RgbUtxos}

abbrev fileMonitor (guard : Lock → Prop) : Monitor Lock RgbUtxos Note (UpdateState Lock RgbUtxos) :=
  updateMonitor Note.Claims guard

@[simp] theorem file_sees {v : RgbUtxos} : (fileMonitor guard).sees g v ↔ True := Iff.rfl
@[simp] theorem file_acquire {l : Lock} : (fileMonitor guard).ok g (.acquire l) ↔ True := Iff.rfl
@[simp] theorem file_release {l : Lock} :
    (fileMonitor guard).ok g (.release l) ↔ g.held l = true := Iff.rfl
@[simp] theorem file_write {v : RgbUtxos} : (fileMonitor guard).ok g (.write v) ↔
    (∃ u, g.lastRead = some u ∧ Keeps Note.Claims u v) ∧ ∀ l, guard l → g.heldSince l = true := Iff.rfl
@[simp] theorem file_handed {o : OutPoint} : (fileMonitor guard).ok g (.emit (.handed o)) ↔ True :=
  iff_true_intro (.inr fun _ => trivial)
@[simp] theorem file_placed {o : OutPoint} : (fileMonitor guard).ok g (.emit (.placed o)) ↔ True :=
  iff_true_intro (.inr fun _ => trivial)
@[simp] theorem file_built {params : TxParams} {tx : Tx} :
    (fileMonitor guard).ok g (.emit (.built params tx)) ↔ True :=
  iff_true_intro (.inr fun _ => trivial)
@[simp] theorem file_spawned {task : FundingTask} :
    (fileMonitor guard).ok g (.emit (.spawned task)) ↔ True :=
  iff_true_intro (.inr fun _ => trivial)
@[simp] theorem file_next_acquire {l : Lock} : (fileMonitor guard).next g (.acquire l) =
    { g with held := Function.update g.held l true } := rfl
@[simp] theorem file_next_release {l : Lock} : (fileMonitor guard).next g (.release l) =
    { g with held := Function.update g.held l false,
             heldSince := Function.update g.heldSince l false } := rfl
@[simp] theorem file_next_read {v : RgbUtxos} : (fileMonitor guard).next g (.read v) =
    { g with heldSince := g.held, lastRead := some v } := rfl
@[simp] theorem file_next_write {v : RgbUtxos} : (fileMonitor guard).next g (.write v) =
    { g with lastRead := none, written := some v } := rfl
@[simp] theorem file_next_emit {e : Note} : (fileMonitor guard).next g (.emit e) = g := rfl

theorem file_emit {e : Note} (he : ¬e.Claims []) :
    (fileMonitor guard).ok g (.emit e) ↔ ∃ w, g.written = some w ∧ e.Claims w :=
  or_iff_left fun hall => he (hall [])

@[simp] theorem file_pushed {u : RgbUtxo} : (fileMonitor guard).ok g (.emit (.pushed u)) ↔
    ∃ w, g.written = some w ∧ Listed u.outpoint w ∧ (u.colored = true → ListedColored u.outpoint w) :=
  file_emit (by simp [Note.Claims, Listed])
@[simp] theorem file_marked {o : OutPoint} :
    (fileMonitor guard).ok g (.emit (.marked o)) ↔ ∃ w, g.written = some w ∧ ListedColored o w :=
  file_emit (by simp [Note.Claims, ListedColored])

def UpdatesFile {α : Type} (guard : Lock → Prop) (program : Program α) : Prop :=
  program.wp (fileMonitor guard) (fun _ _ => True) .init

theorem takeUncolored_file (hheld : ∀ l, guard l → g.held l = true) :
    takeUncolored.wp (fileMonitor guard) (fun _ g' => g'.held = g.held) g := by
  simp only [takeUncolored, colorUtxo, Task.bind_def, Task.wp_bind, wp_checkUncoloredUtxos,
    file_sees, wp_orPrint, wp_getUtxo, Task.wp_get, Task.wp_expect, Task.wp_put, Task.wp_note]
  rintro v -
  refine ⟨fun _ => ⟨fun _ _ => ?_, by simp⟩, fun _ => ⟨by simp, fun e _ => rfl⟩⟩
  rintro v' - u _
  refine ⟨file_handed.mpr trivial, ?_⟩
  rintro v'' - marked hmarked
  refine ⟨⟨⟨v'', rfl, keeps_markColored hmarked⟩, hheld⟩, ?_⟩
  have hcolored : ListedColored u.outpoint marked := (markColored_spec hmarked).1
  simpa using hcolored

theorem createutxos_file (p : Profile) (calls : CreateUtxosCalls) :
    UpdatesFile (fun l => l = .wallet) (createutxos p calls) := by
  simp only [UpdatesFile, createutxos, Task.bind_def, Task.wp_bind, Task.wp_lock, Task.wp_get,
    Task.wp_expect, Task.wp_ite, Task.wp_note, Task.wp_put, Task.wp_unlock]
  refine ⟨trivial, fun utxos _ available _ => ⟨fun _ => by simp, fun _ tx _ => ⟨by simp, ?_, ?_⟩⟩⟩
  · exact ⟨⟨utxos, rfl, keeps_append _ _⟩, by simp⟩
  · apply Task.wp_mono _ (Task.wp_forEach (I := fun g : UpdateState Lock RgbUtxos =>
      g.held .wallet = true ∧ g.written = some (utxos ++ newUtxos tx.txid)) _ (by simp))
    · intro _ g hg
      obtain ⟨hheld, -⟩ := hg
      simpa using hheld
    · intro u hu g hg
      obtain ⟨hheld, hwritten⟩ := hg
      have hlisted : Listed u.outpoint (utxos ++ newUtxos tx.txid) :=
        ⟨u, List.mem_append_right _ hu, rfl⟩
      have hcolored : u.colored = true → ListedColored u.outpoint (utxos ++ newUtxos tx.txid) :=
        fun hu' => ⟨u, List.mem_append_right _ hu, rfl, hu'⟩
      simpa [hwritten, hlisted, hheld] using hcolored

theorem issueasset_file (words : List Text)
    (issueContract : IssueArgs → OutPoint → Option ContractId) :
    UpdatesFile (fun _ => False) (issueasset words issueContract) := by
  simp only [UpdatesFile, issueasset, wp_orPrint, Task.bind_def, Task.wp_bind]
  refine ⟨?_, by simp⟩
  intro args _
  apply Task.wp_mono _ (takeUncolored_file fun _ h => h.elim)
  intro taken g _
  simp

theorem receiveasset_file (storeSealSecret : OutPoint → Bool) :
    UpdatesFile (fun _ => False) (receiveasset storeSealSecret) := by
  simp only [UpdatesFile, receiveasset, Task.bind_def, Task.wp_bind]
  apply Task.wp_mono _ (takeUncolored_file fun _ h => h.elim)
  intro taken g _
  simp

theorem sendassetChange_file (selected : Selection) {guard : Lock → Prop}
    {g : UpdateState Lock RgbUtxos} (hheld : ∀ l, guard l → g.held l = true) :
    (sendassetChange selected).wp (fileMonitor guard) (fun _ g' => g'.held = g.held) g := by
  simp only [sendassetChange, Task.wp_ite, Task.bind_def, Task.wp_bind]
  refine ⟨fun _ => ?_, by simp⟩
  apply Task.wp_mono _ (takeUncolored_file hheld)
  intro taken g' hheld'
  simp [hheld']

theorem sendassetTransfer_file (selected : Selection) (calls : SendCalls) {guard : Lock → Prop}
    {g : UpdateState Lock RgbUtxos} (hheld : g.held .runtime = true) :
    (sendassetTransfer selected calls).wp (fileMonitor guard) (fun _ _ => True) g := by
  simp [sendassetTransfer, hheld]

theorem sendasset_file (ids : ContractIdText) (p : Profile) (words : List Text) (calls : SendCalls) :
    UpdatesFile (fun l => l = .runtime) (sendasset ids p words calls) := by
  have hsend : ∀ selected g, g.held .runtime = true →
      (sendassetChange selected).wp (fileMonitor fun l => l = .runtime)
        (fun change g => ∀ u, change = .ok u → (sendassetTransfer selected calls).wp
          (fileMonitor fun l => l = .runtime) (fun _ _ => True) g) g := by
    intro selected g hheld
    have hguard : ∀ l, l = .runtime → g.held l = true := by
      intro l hl
      rwa [hl]
    apply Task.wp_mono _ (sendassetChange_file selected hguard)
    intro _ g' hg' _ _
    apply sendassetTransfer_file selected calls
    rw [hg', hheld]
  simp only [UpdatesFile, sendasset, sendassetChecks, sendassetInputs, wp_orPrint, Task.bind_def,
    Task.wp_bind, Task.wp_lock, wp_rgbTotalAmount, Task.wp_ite, wp_assetOwnedValues, Task.wp_expect]
  simpa using fun _ _ _ _ _ _ _ _ _ selected _ => hsend selected _ (by simp)

theorem fundingTx_file (rgbState : Option Selection) (calls : FundingCalls)
    (g : UpdateState Lock RgbUtxos) :
    (fundingTx rgbState calls).wp (fileMonitor fun _ => False) (fun _ _ => True) g := by
  cases rgbState with
  | none => simp [fundingTx, fundingTransfer]
  | some selected =>
    simp only [fundingTx, fundingTransfer, placeChange, fundingChange, Task.bind_def, Task.wp_bind,
      Task.wp_get]
    rintro utxos -
    simp [keeps_append, listedColored_concat, (listedColored_concat _ _).listed]

theorem fundingGenerationReady_file (p : Profile) (calls : FundingCalls) :
    UpdatesFile (fun _ => False) (fundingGenerationReady p calls) := by
  unfold fundingGenerationReady
  cases calls.rgbInfo with
  | none => exact fundingTx_file none calls .init
  | some info =>
    simpa [UpdatesFile, fundingInputs] using fun _ _ selected _ => fundingTx_file (some selected) calls _

theorem sweepOutput_file (output : SpendableOutput) {g : UpdateState Lock RgbUtxos}
    (hheld : g.held .runtime = true) :
    (sweepOutput output).wp (fileMonitor fun _ => True) (fun _ g => g.held .runtime = true) g := by
  have hboth : ∀ l, Function.update g.held .wallet true l = true := by
    intro l
    cases l <;> simp [hheld]
  simp [sweepOutput, pushSwept, hheld, hboth, keeps_append, listedColored_concat,
    (listedColored_concat _ _).listed]

theorem spendableOutputs_file (outputs : List SpendableOutput) :
    UpdatesFile (fun _ => True) (spendableOutputs outputs) := by
  simp only [UpdatesFile, spendableOutputs, Task.bind_def, Task.wp_bind, Task.wp_lock]
  refine ⟨trivial, ?_⟩
  apply Task.wp_mono _ (Task.wp_forEach
    (I := fun g : UpdateState Lock RgbUtxos => g.held .runtime = true) _ (by simp))
  · intro _ g hg
    simpa using hg
  · intro output _ g hg
    exact sweepOutput_file output hg

theorem file_simulates : (fileMonitor guard).Simulates sectionMonitor fun g s =>
    (s.wallet = true → g.held .wallet = true) ∧ (s.runtime = true → g.held .runtime = true) where
  sees := fun _ _ => trivial
  read := fun h _ => h
  ok := by
    intro g s a hfree h
    obtain ⟨hwallet, hruntime⟩ := hfree
    cases a with
    | acquire l => trivial
    | release l =>
      cases l with
      | wallet => exact hwallet h
      | runtime => exact hruntime h
    | read v => trivial
    | write v => exact h.elim
    | emit e => exact h.elim
  next := by
    intro g s a hfree h
    obtain ⟨hwallet, hruntime⟩ := hfree
    rcases a with (_ | _) | (_ | _) | v | v | e <;>
      simp_all [sectionMonitor]

theorem OnlyLocks.updates {program : Program Unit} (h : OnlyLocks program) :
    UpdatesFile guard program :=
  Task.wp_of_simulates file_simulates (fun _ _ _ _ _ => trivial) (by simp) h

theorem UpdatesFile.command {ids : ContractIdText} {p : Profile} {c : Command}
    (h : UpdatesFile guard (c.program ids p)) :
    UpdatesFile guard ((Operation.command c).program p ids) :=
  wp_command.mpr h

theorem operation_updates (ids : ContractIdText) (p : Profile) :
    Updates (nodeSchedule ids p) Note.Claims Operation.Guards := by
  intro op
  change UpdatesFile _ (op.program p ids)
  cases op using Operation.casesFile ids p with
  | onlyLocks op h => exact h.updates
  | createutxos calls => exact .command (createutxos_file p calls)
  | issueasset words issueContract => exact .command (issueasset_file words issueContract)
  | receiveasset storeSealSecret => exact .command (receiveasset_file storeSealSecret)
  | sendasset words calls => exact .command (sendasset_file ids p words calls)
  | fundingGenerationReady calls => exact fundingGenerationReady_file p calls
  | spendableOutputs outputs => exact spendableOutputs_file outputs

end Programs

section Runs
variable {ids : ContractIdText} {p : Profile}

/-- In every run in which no operation writes the file while another one is to write
back what it read before without a lock common to the two, no update is lost. -/
theorem no_update_lost {choices : List (Choice TaskId Operation)}
    (hok : EachAfter (fun older choice => ∀ s, interleave ids p older = some s →
      ¬Clobbers Operation.Guards s choice) choices) {s : NodeSystem}
    (hs : interleave ids p choices = some s) (t : TaskId) (o : OutPoint) :
    (∀ colored, (t, .pushed ⟨o, colored⟩) ∈ s.log → Listed o s.cell) ∧
      ((t, .marked o) ∈ s.log ∨ (t, .pushed ⟨o, true⟩) ∈ s.log → ListedColored o s.cell) := by
  have hnoted : ∀ e, (t, e) ∈ s.log → e.Claims s.cell := by
    intro e he
    exact noted_of_after (operation_updates ids p) hok hs he
  refine ⟨fun colored hpushed => (hnoted _ hpushed).1, ?_⟩
  intro hnote
  rcases hnote with hmarked | hpushed
  · exact hnoted _ hmarked
  · exact (hnoted _ hpushed).2 rfl

/-- Four UTXOs are created; an asset is issued on the first uncoloured one. -/
def createUtxosOp : Operation :=
  .command (.createutxos ⟨200000, [(⟨Bytes32.fill 1, 1⟩, 200000)],
    fun _ => some ⟨Bytes32.fill 2, [⟨Bytes32.fill 1, 1⟩]⟩⟩)

def issueAssetOp : Operation :=
  .command (.issueasset ["100".toList, "USDT".toList, "Tether".toList, "0".toList]
    fun _ _ => some (Bytes32.fill 7))

/-- A channel output carrying an allocation is swept. -/
def sweepOp : Operation :=
  .event (.spendableOutputs [⟨⟨Bytes32.fill 8, 1⟩, some .valid, some (Bytes32.fill 9), some 0, true⟩])

/-- The sweep starts while UTXOs are being created and waits for the wallet. -/
def sweepDuringCreate : List (Choice TaskId Operation) :=
  starting .cli createUtxosOp 2 ++ starting .event sweepOp 1 ++ acting .cli 7 ++ acting .event 8

theorem spawned_idle {choices : List (Choice TaskId Operation)}
    (hchosen : ∀ c ∈ choices, c.task = .cli ∨ c.task = .event) {s : NodeSystem}
    (hs : interleave ids p choices = some s) (position : ℕ) : s.prog (.spawned position) = .ret () := by
  have hother : ∀ c ∈ choices, c.task ≠ .spawned position := by
    intro c hc heq
    have hc := hchosen c hc
    simp [heq] at hc
  exact (idle_of_not_chosen hother hs).1

/-- The new UTXOs and the swept output are all listed. -/
theorem no_update_lost_sweepDuringCreate :
    ∃ s ∈ interleave ⟨fun _ => none, fun _ => []⟩ .release sweepDuringCreate,
      Listed ⟨Bytes32.fill 2, 3⟩ s.cell ∧ ListedColored ⟨Bytes32.fill 9, 1⟩ s.cell := by
  have hchosen : ∀ c ∈ sweepDuringCreate, c.task = .cli ∨ c.task = .event := by decide
  have hapart : EachAfter (fun older _ => ∀ s ∈ interleave ⟨fun _ => none, fun _ => []⟩ .release older,
      (s.prog .cli).WritesBack → ¬(s.prog .event).WritesBack) sweepDuringCreate := by decide
  have hok : EachAfter (fun older choice => ∀ s, interleave ⟨fun _ => none, fun _ => []⟩ .release older =
      some s → ¬Clobbers Operation.Guards s choice) sweepDuringCreate := by
    intro older choice newer hsplit s hs hclobbers
    have hidle := spawned_idle (fun c hc => hchosen c (by simp [hsplit, hc])) hs
    have hone := hapart older choice newer hsplit s (Option.mem_def.mpr hs)
    obtain ⟨t, t', hne, rfl, ⟨v, k, hwrite⟩, hwrites', -⟩ := hclobbers
    have hwrites : (s.prog t).WritesBack := by
      rw [hwrite]
      trivial
    cases t with
    | cli =>
      cases t' with
      | cli => exact hne rfl
      | event => exact hone hwrites hwrites'
      | spawned position => rwa [hidle position] at hwrites'
    | event =>
      cases t' with
      | cli => exact hone hwrites' hwrites
      | event => exact hne rfl
      | spawned position => rwa [hidle position] at hwrites'
    | spawned position => rwa [hidle position] at hwrites
  have hrun : ∃ s ∈ interleave ⟨fun _ => none, fun _ => []⟩ .release sweepDuringCreate,
      (.cli, .pushed ⟨⟨Bytes32.fill 2, 3⟩, false⟩) ∈ s.log ∧
        (.event, .pushed ⟨⟨Bytes32.fill 9, 1⟩, true⟩) ∈ s.log := by
    decide
  obtain ⟨s, hs, hpushed, hswept⟩ := hrun
  have hkept := no_update_lost hok (Option.mem_def.mp hs)
  exact ⟨s, hs, (hkept .cli _).1 _ hpushed, (hkept .event _).2 (.inr hswept)⟩

/-- The asset is issued from the file as it was before the funding. -/
def issueDuringFunding : List (Choice TaskId Operation) :=
  starting .cli createUtxosOp 9 ++ starting .cli issueAssetOp 4 ++
    starting .event (.event (.fundingGenerationReady colouredFunding)) 14 ++ acting .cli 5

/-- All operations complete, and the change pushed by the funding is not listed. -/
theorem issueDuringFunding_loses :
    ¬∀ (ids : ContractIdText) (p : Profile) (choices : List (Choice TaskId Operation))
      (s : NodeSystem), interleave ids p choices = some s → (∀ t, s.prog t = .ret ()) →
        ∀ t u, (t, .pushed u) ∈ s.log → Listed u.outpoint s.cell := by
  have hrun : ∃ s ∈ interleave ⟨fun _ => none, fun _ => []⟩ .release issueDuringFunding,
      s.prog .cli = .ret () ∧ s.prog .event = .ret () ∧
        (.event, .pushed ⟨⟨Bytes32.fill 5, 2⟩, true⟩) ∈ s.log ∧ ¬Listed ⟨Bytes32.fill 5, 2⟩ s.cell := by
    decide
  obtain ⟨s, hs, hcli, hevent, hpushed, hlost⟩ := hrun
  have hdone : ∀ t, s.prog t = .ret () := by
    intro t
    cases t with
    | cli => exact hcli
    | event => exact hevent
    | spawned position => exact spawned_idle (by decide) (Option.mem_def.mp hs) position
  intro h
  exact hlost (h _ _ _ s (Option.mem_def.mp hs) hdone _ _ hpushed)

end Runs

end RgbLightning.Node
