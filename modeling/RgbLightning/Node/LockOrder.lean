import RgbLightning.Node.LockSections
import RgbLightning.Node.Schedule

/-! # Order of the wallet mutex and the runtime lock

Everything takes the runtime lock before the wallet mutex, except the transaction
of a coloured channel funding, which takes the runtime lock inside.
-/
namespace RgbLightning.Node
open MachineInt Decimal Rgb Runs TaskSystem

/-- The one operation that takes the locks in the opposite order. -/
def Operation.FundsColoured : Operation → Prop
  | event (.fundingGenerationReady calls) => calls.rgbInfo.isSome = true
  | _ => False

section Programs
variable {q : Prop} {held : Bool}

abbrev walletFirst (q : Prop) : Monitor Lock RgbUtxos Note Bool :=
  orderMonitor RgbUtxos Note .wallet .runtime q

@[simp] theorem order_sees {v : RgbUtxos} : (walletFirst q).sees held v ↔ True := Iff.rfl
@[simp] theorem order_acquire_wallet : (walletFirst q).ok held (.acquire .wallet) ↔ True := by
  simp [orderMonitor]
@[simp] theorem order_acquire_runtime :
    (walletFirst q).ok held (.acquire .runtime) ↔ (q → held = false) := by simp [orderMonitor]
@[simp] theorem order_release {l : Lock} : (walletFirst q).ok held (.release l) ↔ True := Iff.rfl
@[simp] theorem order_write {v : RgbUtxos} : (walletFirst q).ok held (.write v) ↔ True := Iff.rfl
@[simp] theorem order_emit {e : Note} : (walletFirst q).ok held (.emit e) ↔ True := Iff.rfl
@[simp] theorem order_next_acquire_wallet :
    (walletFirst q).next held (.acquire .wallet) = true := rfl
@[simp] theorem order_next_acquire_runtime :
    (walletFirst q).next held (.acquire .runtime) = held := rfl
@[simp] theorem order_next_release_wallet :
    (walletFirst q).next held (.release .wallet) = false := rfl
@[simp] theorem order_next_release_runtime :
    (walletFirst q).next held (.release .runtime) = held := rfl
@[simp] theorem order_next_read {v : RgbUtxos} : (walletFirst q).next held (.read v) = held := rfl
@[simp] theorem order_next_write {v : RgbUtxos} : (walletFirst q).next held (.write v) = held := rfl
@[simp] theorem order_next_emit {e : Note} : (walletFirst q).next held (.emit e) = held := rfl

def KeepsOrder {α : Type} (q : Prop) (program : Program α) : Prop :=
  program.wp (walletFirst q) (fun _ held => held = false) false

theorem takeUncolored_order (held : Bool) :
    takeUncolored.wp (walletFirst q) (fun _ held' => held' = held) held := by
  simp [takeUncolored, colorUtxo]

theorem issueasset_order (words : List Text)
    (issueContract : IssueArgs → OutPoint → Option ContractId) :
    KeepsOrder q (issueasset words issueContract) := by
  simp only [KeepsOrder, issueasset, wp_orPrint, Task.bind_def, Task.wp_bind]
  refine ⟨?_, by simp⟩
  intro args _
  apply Task.wp_mono _ (takeUncolored_order false)
  intro taken _ hends
  subst hends
  simp

theorem receiveasset_order (storeSealSecret : OutPoint → Bool) :
    KeepsOrder q (receiveasset storeSealSecret) := by
  simp only [KeepsOrder, receiveasset, Task.bind_def, Task.wp_bind]
  apply Task.wp_mono _ (takeUncolored_order false)
  intro taken _ hends
  subst hends
  simp

theorem createutxos_order (p : Profile) (calls : CreateUtxosCalls) :
    KeepsOrder q (createutxos p calls) := by
  simp only [KeepsOrder, createutxos, Task.bind_def, Task.wp_bind, Task.wp_lock, Task.wp_get,
    Task.wp_expect, Task.wp_ite, Task.wp_note, Task.wp_put]
  refine ⟨by simp, fun utxos _ available _ => ⟨by simp, fun _ tx _ => ⟨by simp, by simp, ?_⟩⟩⟩
  exact Task.wp_mono (fun _ _ _ => by simp) (Task.wp_forEach (I := fun _ => True) (by simp) trivial)

theorem sendassetChange_order (selected : Selection) (held : Bool) :
    (sendassetChange selected).wp (walletFirst q) (fun _ held' => held' = held) held := by
  simp only [sendassetChange, Task.wp_ite, Task.bind_def, Task.wp_bind]
  refine ⟨fun _ => ?_, by simp⟩
  apply Task.wp_mono _ (takeUncolored_order held)
  intro taken _ hends
  subst hends
  simp

theorem sendasset_order (ids : ContractIdText) (p : Profile) (words : List Text) (calls : SendCalls) :
    KeepsOrder q (sendasset ids p words calls) := by
  have hsend : ∀ selected, (sendassetChange selected).wp (walletFirst q)
      (fun change held => (∀ u, change = .ok u → (sendassetTransfer selected calls).wp (walletFirst q)
        (fun _ held => held = false) held) ∧ ∀ e, change = .error e → held = false) false := by
    intro selected
    apply Task.wp_mono _ (sendassetChange_order selected false)
    intro change _ hends
    subst hends
    simp [sendassetTransfer]
  simp only [KeepsOrder, sendasset, sendassetChecks, sendassetInputs, wp_orPrint, Task.bind_def,
    Task.wp_bind, Task.wp_lock, wp_rgbTotalAmount, Task.wp_ite, wp_assetOwnedValues, Task.wp_expect]
  simpa using fun _ _ _ _ _ _ _ _ _ selected _ => hsend selected

/-- The funding transaction takes the runtime lock inside the wallet mutex only when
the channel is coloured. -/
theorem fundingTx_order (rgbState : Option Selection) (calls : FundingCalls)
    (h : rgbState.isSome = true → ¬q) : KeepsOrder q (fundingTx rgbState calls) := by
  cases rgbState with
  | none => simp [KeepsOrder, fundingTx, fundingTransfer]
  | some state =>
    have hq : ¬q := h rfl
    simp [KeepsOrder, fundingTx, fundingTransfer, placeChange, fundingChange, hq]

theorem fundingGenerationReady_order (p : Profile) (calls : FundingCalls)
    (h : calls.rgbInfo.isSome = true → ¬q) : KeepsOrder q (fundingGenerationReady p calls) := by
  unfold fundingGenerationReady
  cases hinfo : calls.rgbInfo with
  | none => exact fundingTx_order none calls (by simp)
  | some info =>
    have hq : ¬q := h (by simp [hinfo])
    simpa [KeepsOrder, fundingInputs] using
      fun _ _ selected _ => fundingTx_order (some selected) calls fun _ => hq

theorem spendableOutputs_order (outputs : List SpendableOutput) :
    KeepsOrder q (spendableOutputs outputs) := by
  have hsweep : (Task.forEach sweepOutput outputs).wp (walletFirst q) (fun _ held => held = false)
      false := by
    apply Task.wp_forEach (I := fun held => held = false) _ rfl
    intro output _ held hheld
    subst hheld
    simp [sweepOutput, pushSwept]
  simp only [KeepsOrder, spendableOutputs, Task.bind_def, Task.wp_bind, Task.wp_lock]
  refine ⟨by simp, ?_⟩
  apply Task.wp_mono _ hsweep
  intro _ held hheld
  simpa using hheld

theorem order_simulates :
    (walletFirst q).Simulates sectionMonitor fun held s => held = s.wallet where
  sees := fun _ _ => trivial
  read := fun h _ => h
  ok := by
    rintro held s a rfl h
    rcases a with (_ | _) | l | v | v | e
    · simp
    · exact order_acquire_runtime.mpr fun _ => h.1
    · trivial
    · trivial
    · exact h.elim
    · exact h.elim
  next := by
    rintro held s a rfl h
    rcases a with (_ | _) | (_ | _) | v | v | e <;> rfl

theorem OnlyLocks.order {program : Program Unit} (h : OnlyLocks program) : KeepsOrder q program :=
  Task.wp_of_simulates order_simulates (fun _ _ _ hheld hs => hheld.trans hs) rfl h

theorem KeepsOrder.command {ids : ContractIdText} {p : Profile} {c : Command}
    (h : KeepsOrder q (c.program ids p)) : KeepsOrder q ((Operation.command c).program p ids) :=
  wp_command.mpr h

/-- Every operation but a coloured funding keeps the order. -/
theorem operation_order (ids : ContractIdText) (p : Profile) :
    Disciplined (nodeSchedule ids p) .wallet .runtime fun op => ¬op.FundsColoured := by
  intro op
  change KeepsOrder _ (op.program p ids)
  cases op using Operation.casesFile ids p with
  | onlyLocks op h => exact h.order
  | createutxos calls => exact .command (createutxos_order p calls)
  | issueasset words issueContract => exact .command (issueasset_order words issueContract)
  | receiveasset storeSealSecret => exact .command (receiveasset_order storeSealSecret)
  | sendasset words calls => exact .command (sendasset_order ids p words calls)
  | fundingGenerationReady calls => exact fundingGenerationReady_order p calls not_not.mpr
  | spendableOutputs outputs => exact spendableOutputs_order outputs

end Programs

section Runs
variable (ids : ContractIdText) (p : Profile)

def FundingColoured (s : NodeSystem) : Prop := ∃ op, s.op .event = some op ∧ op.FundsColoured

/-- While the event task runs a coloured funding, the choice lets its wallet section
overlap with a runtime section of another task that will take the wallet: either
takes its outer lock while the other holds its own. -/
def Overlaps (s : NodeSystem) (choice : Choice TaskId Operation) : Prop :=
  FundingColoured s ∧ ∃ t, t ≠ .event ∧
    ((s.Enters (nodeSchedule ids p) choice .event .wallet .runtime ∧ s.Nests t .runtime .wallet) ∨
      (s.Enters (nodeSchedule ids p) choice t .runtime .wallet ∧ s.Nests .event .wallet .runtime))

structure OrderInv (s : NodeSystem) : Prop where
  followed : ∀ t, Followed .wallet .runtime (fun op => ¬op.FundsColoured) s t
  events : ∀ t e, s.op t = some (.event e) → t = .event

variable {ids p}

theorem orderInv_step {s s' : NodeSystem} {choice : Choice TaskId Operation} (hs : OrderInv s)
    (h : StepSpec (nodeSchedule ids p) s choice s') : OrderInv s' := by
  refine ⟨fun t => h.followed (operation_order ids p) (hs.followed t), ?_⟩
  intro t e he
  by_cases ht : t = choice.task
  · cases choice with
    | act u =>
      rw [h.op_of_act] at he
      exact hs.events t e he
    | start u op =>
      obtain rfl : t = u := ht
      cases h with
      | start hidle hmay =>
        simp only [Function.update_self, Option.some.injEq] at he
        subst he
        exact mayStart_event hmay
  · obtain ⟨-, hop, -⟩ := h.frame ht
    rw [hop] at he
    exact hs.events t e he

theorem orderInv_init : OrderInv (TaskSystem.init [] : NodeSystem) :=
  ⟨followed_init [] _ _ _, fun t e he => by cases he⟩

theorem OrderInv.of_deadlocked {s : NodeSystem} (hs : OrderInv s)
    (hd : s.Deadlocked .wallet .runtime) :
    FundingColoured s ∧ s.Nests .event .wallet .runtime ∧
      ∃ t, t ≠ .event ∧ s.Nests t .runtime .wallet := by
  obtain ⟨t, t', hne, howner, hwait, howner', hwait'⟩ := hd
  obtain ⟨op, hop, hcoloured⟩ := (hs.followed t).not_ordered howner hwait
  have hevent : t = .event := by
    cases op with
    | event e => exact hs.events t e hop
    | command c => exact absurd (fun h => h) hcoloured
    | spawned task => exact absurd (fun h => h) hcoloured
  subst hevent
  exact ⟨⟨op, hop, not_not.mp hcoloured⟩, hwait.nests howner, t', hne.symm, hwait'.nests howner'⟩

/-- The coloured funding and another task nest the locks in opposite orders. -/
def OppositeNests (s : NodeSystem) : Prop :=
  FundingColoured s ∧ ∃ t, t ≠ .event ∧ s.Nests .event .wallet .runtime ∧ s.Nests t .runtime .wallet

/-- No step but an overlapping one leads to opposite nestings. -/
theorem opposite_nests_step {s s' : NodeSystem} {choice : Choice TaskId Operation}
    (hinv : OrderInv s) (h : StepSpec (nodeSchedule ids p) s choice s') (hs : ¬OppositeNests s)
    (hok : ¬Overlaps ids p s choice) : ¬OppositeNests s' := by
  intro hoverlaps
  obtain ⟨⟨op, hop, hcoloured⟩, t, ht, hevent, hother⟩ := hoverlaps
  have hstart : ∀ op, choice ≠ .start .event op := by
    rintro op rfl
    cases h with
    | start hidle hmay => exact (hinv.followed .event).not_idle hevent.1 hidle
  have hsame : s'.op .event = s.op .event := by
    by_cases htask : .event = choice.task
    · cases choice with
      | act u => rw [h.op_of_act]
      | start u op' =>
        obtain rfl : .event = u := htask
        exact absurd rfl (hstart op')
    · exact (h.frame htask).2.1
  have hfund : FundingColoured s := ⟨op, hsame ▸ hop, hcoloured⟩
  rcases h.nests hevent with hevent | hevent <;> rcases h.nests hother with hother | hother
  · exact hs ⟨hfund, t, ht, hevent, hother⟩
  · exact hok ⟨hfund, t, ht, .inr ⟨hother, hevent⟩⟩
  · exact hok ⟨hfund, t, ht, .inl ⟨hevent, hother⟩⟩
  · -- one choice cannot be made by two tasks
    have hact : choice = .act .event := by
      rcases hevent with ⟨hc, -⟩ | ⟨op, hc, -⟩
      · exact hc
      · exact absurd hc (hstart op)
    subst hact
    rcases hother with ⟨hc, -⟩ | ⟨op, hc, -⟩
    · cases hc
      exact ht rfl
    · cases hc

theorem orderInv_of_interleave {choices : List (Choice TaskId Operation)} {s : NodeSystem}
    (hs : interleave ids p choices = some s) : OrderInv s := by
  have hstep : ∀ s choice s', OrderInv s → True → StepSpec (nodeSchedule ids p) s choice s' →
      OrderInv s' := fun _ _ _ hs _ h => orderInv_step hs h
  exact after_invariant OrderInv (fun _ _ => True) orderInv_init hstep (fun _ _ _ _ _ _ => trivial) hs

theorem not_oppositeNests_of_interleave {choices : List (Choice TaskId Operation)}
    (hok : EachAfter (fun older choice => ∀ s, interleave ids p older = some s →
      ¬Overlaps ids p s choice) choices) {s : NodeSystem} (hs : interleave ids p choices = some s) :
    ¬OppositeNests s := by
  have hinit : OrderInv (TaskSystem.init [] : NodeSystem) ∧
      ¬OppositeNests (TaskSystem.init [] : NodeSystem) := by
    refine ⟨orderInv_init, ?_⟩
    intro hoverlaps
    obtain ⟨⟨op, hop, -⟩, -⟩ := hoverlaps
    cases hop
  have hstep : ∀ (s : NodeSystem) choice s', OrderInv s ∧ ¬OppositeNests s → ¬Overlaps ids p s choice →
      StepSpec (nodeSchedule ids p) s choice s' → OrderInv s' ∧ ¬OppositeNests s' := by
    intro s choice s' hs hok h
    obtain ⟨hinv, hnests⟩ := hs
    exact ⟨orderInv_step hinv h, opposite_nests_step hinv h hnests hok⟩
  have hrun := after_invariant (fun s : NodeSystem => OrderInv s ∧ ¬OppositeNests s)
    (fun s choice => ¬Overlaps ids p s choice) hinit hstep hok hs
  exact hrun.2

/-- A deadlock needs the event task in a coloured funding; in every run that never
lets a coloured funding overlap with another task there is none. -/
theorem deadlock_needs_overlap :
    (∀ choices s, interleave ids p choices = some s → s.Deadlocked .wallet .runtime →
      FundingColoured s ∧ s.owner .wallet = some .event) ∧
    ∀ choices, EachAfter (fun older choice => ∀ s, interleave ids p older = some s →
        ¬Overlaps ids p s choice) choices →
      ∀ s, interleave ids p choices = some s → ¬s.Deadlocked .wallet .runtime := by
  constructor
  · intro choices s hs hd
    obtain ⟨hfund, hevent, -⟩ := (orderInv_of_interleave hs).of_deadlocked hd
    exact ⟨hfund, hevent.1⟩
  · intro choices hok s hs hd
    obtain ⟨hfund, hevent, t, ht, hother⟩ := (orderInv_of_interleave hs).of_deadlocked hd
    exact not_oppositeNests_of_interleave hok hs ⟨hfund, t, ht, hevent, hother⟩

/-- The funding stops with the wallet locked, the command with the runtime locked. -/
def balanceDuringFunding : List (Choice TaskId Operation) :=
  starting .event (.event (.fundingGenerationReady colouredFunding)) 7 ++
    starting .cli (.command (.assetbalance ["rgb".toList] ownedUnits)) 1

theorem balanceDuringFunding_deadlocks :
    ¬∀ (ids : ContractIdText) (p : Profile) (choices : List (Choice TaskId Operation))
      (s : NodeSystem), interleave ids p choices = some s → ¬s.Deadlocked .wallet .runtime := by
  have hrun : ∃ s ∈ interleave ⟨fun _ => some (Bytes32.fill 7), fun _ => []⟩ .release
      balanceDuringFunding, s.owner .wallet = some .event ∧ s.WaitsFor .event .runtime ∧
        s.owner .runtime = some .cli ∧ s.WaitsFor .cli .wallet := by decide
  obtain ⟨s, hs, hdeadlock⟩ := hrun
  intro h
  exact h _ _ _ s (Option.mem_def.mp hs) ⟨.event, .cli, by decide, hdeadlock⟩

end Runs

end RgbLightning.Node
