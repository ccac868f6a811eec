import RgbLightning.Node.Runs

/-! # Release of the runtime lock

The runtime lock is released by an explicit call only. An operation that ends
normally has released it, unless it takes one of the early exits that miss the
call; these are listed, with what leads to them, by `Leaks`.
-/
namespace RgbLightning.Node
open MachineInt Decimal Rgb Runs

structure LockView where
  wallet : Bool
  runtime : Bool
  file : RgbUtxos

def LockView.held (s : LockView) : Lock → Bool
  | .wallet => s.wallet
  | .runtime => s.runtime

def LockView.set (s : LockView) (held : Bool) : Lock → LockView
  | .wallet => { s with wallet := held }
  | .runtime => { s with runtime := held }

/-- Only free locks are taken and only held ones are released. -/
def lockMonitor : Monitor Lock RgbUtxos Note LockView where
  sees s v := v = s.file
  ok s
    | .acquire l => s.held l = false
    | .release l => s.held l = true
    | _ => True
  next s
    | .acquire l => s.set true l
    | .release l => s.set false l
    | .write v => { s with file := v }
    | _ => s

section Leaks
variable (ids : ContractIdText) (p : Profile)

/-- What the balance check needs and does not find. -/
def Assets.Unknown (assets : Assets) (id : ContractId) : Prop := assets.history id = none

/-- The early exits of `sendasset` after the runtime lock is taken. -/
def SendLeaks (args : SendArgs) (calls : SendCalls) (file : RgbUtxos) : Prop :=
  (∃ total message, getRgbTotalAmount p calls.assets.history calls.assets.unspents args.contractId =
      some total ∧ checkEnough args.amtRgb total = .error message) ∨
  calls.sealValid args.blindedUtxo = false ∨
  (∃ owned selected, (getAssetOwnedValues calls.assets.history calls.assets.unspents
      args.contractId).toOption = some owned ∧ selectInputs p args.amtRgb owned.toList = some selected ∧
    0 < selected.rgbChangeAmount ∧ firstUncolored file = none) ∨
  calls.postConsignment = false

/-- The operations that end with the runtime locked, when they end normally. -/
def Operation.Leaks : Operation → RgbUtxos → Prop
  | command (.assetbalance words assets), _ =>
    ∃ id, assetbalanceArgs ids words = .ok id ∧ assets.Unknown id
  | command (.sendasset words calls), file =>
    ∃ args, sendassetArgs ids words = .ok args ∧ SendLeaks p args calls file
  | command (.opencoloredchannel words calls), _ =>
    ∃ args id amt, opencoloredchannelArgs ids calls.parsePeerInfo words = .ok args ∧
      args.rgb = some (id, amt) ∧ calls.assets.Unknown id
  | command (.makerinit fetchPrice words assets), _ =>
    ∃ args swaptype, Swap.makerArgs ids fetchPrice words = .ok args ∧
      Swap.makerSwapType p args = .ok swaptype ∧ swaptype.isBuy = true ∧ assets.Unknown args.assetId
  | command (.taker now words assets), _ =>
    ∃ swap, Swap.takerSwapString ids p now words = .ok swap ∧ swap.swapType.isBuy = false ∧
      assets.Unknown swap.assetId
  | spawned task, _ => task.coloured = true ∧ task.posted = true ∧ task.validity = .other
  | _, _ => False

end Leaks

section Programs
variable {w r : Bool} {file : RgbUtxos}

@[simp] theorem lock_sees {s : LockView} {v : RgbUtxos} : lockMonitor.sees s v ↔ v = s.file := Iff.rfl
@[simp] theorem lock_acquire {s : LockView} {l : Lock} :
    lockMonitor.ok s (.acquire l) ↔ s.held l = false := Iff.rfl
@[simp] theorem lock_release {s : LockView} {l : Lock} :
    lockMonitor.ok s (.release l) ↔ s.held l = true := Iff.rfl
@[simp] theorem lock_write {s : LockView} {v : RgbUtxos} :
    lockMonitor.ok s (.write v) ↔ True := Iff.rfl
@[simp] theorem lock_emit {s : LockView} {e : Note} : lockMonitor.ok s (.emit e) ↔ True := Iff.rfl
@[simp] theorem lock_next_acquire {s : LockView} {l : Lock} :
    lockMonitor.next s (.acquire l) = s.set true l := rfl
@[simp] theorem lock_next_release {s : LockView} {l : Lock} :
    lockMonitor.next s (.release l) = s.set false l := rfl
@[simp] theorem lock_next_read {s : LockView} {v : RgbUtxos} :
    lockMonitor.next s (.read v) = s := rfl
@[simp] theorem lock_next_write {s : LockView} {v : RgbUtxos} :
    lockMonitor.next s (.write v) = { s with file := v } := rfl
@[simp] theorem lock_next_emit {s : LockView} {e : Note} :
    lockMonitor.next s (.emit e) = s := rfl

@[simp] theorem held_wallet : LockView.held ⟨w, r, file⟩ .wallet = w := rfl
@[simp] theorem held_runtime : LockView.held ⟨w, r, file⟩ .runtime = r := rfl
@[simp] theorem set_wallet {b : Bool} : LockView.set ⟨w, r, file⟩ b .wallet = ⟨b, r, file⟩ := rfl
@[simp] theorem set_runtime {b : Bool} : LockView.set ⟨w, r, file⟩ b .runtime = ⟨w, b, file⟩ := rfl

/-- From free locks the program ends with the wallet free, and with the runtime
held exactly when `leaks` says so. -/
def EndsHolding {α : Type} (program : Program α) (leaks : RgbUtxos → Prop) : Prop :=
  ∀ file, program.wp lockMonitor
    (fun _ s => s.wallet = false ∧ (s.runtime = true ↔ leaks file)) ⟨false, false, file⟩

theorem getRgbTotalAmount_error {p : Profile} {assets : Assets} {id : ContractId} {e : Error} :
    getRgbTotalAmount p assets.history assets.unspents id = some (.error e) ↔
      assets.Unknown id ∧ e = .unknownContractId := by
  unfold getRgbTotalAmount getAssetOwnedValues Assets.Unknown
  cases assets.history id with
  | none => simp [eq_comm]
  | some h => simp

theorem known_of_getRgbTotalAmount {p : Profile} {assets : Assets} {id : ContractId} {t : ℕ}
    (h : getRgbTotalAmount p assets.history assets.unspents id = some (.ok t)) :
    ¬assets.Unknown id := by
  intro hunknown
  have herror := (getRgbTotalAmount_error (p := p)).mpr ⟨hunknown, rfl⟩
  rw [h] at herror
  cases herror

/-- The balance check keeps the runtime exactly for an unknown contract, and then
the command ends. -/
theorem ensureAssets_lock (p : Profile) (assets : Assets) (id : ContractId) (amount : ℕ)
    (file : RgbUtxos) :
    (ensureAssets p assets id amount).wp lockMonitor
      (fun reply s => s.wallet = false ∧ (s.runtime = true ↔ assets.Unknown id) ∧
        (assets.Unknown id → ∃ message, reply = .error message)) ⟨false, false, file⟩ := by
  simp only [ensureAssets, Task.bind_def, Task.wp_bind, Task.wp_lock, wp_rgbTotalAmount, wp_orPrint,
    printed_eq_ok, printed_eq_error]
  refine ⟨rfl, rfl, rfl, fun total htotal => ⟨?_, ?_⟩⟩
  · intro t ht
    subst ht
    simp [known_of_getRgbTotalAmount htotal]
  · intro message herror
    obtain ⟨e, rfl, rfl⟩ := herror
    simp [(getRgbTotalAmount_error.mp htotal).1]

theorem assetbalance_lock (ids : ContractIdText) (p : Profile) (words : List Text)
    (assets : Assets) :
    EndsHolding (assetbalance ids p words assets)
      fun _ => ∃ id, assetbalanceArgs ids words = .ok id ∧ assets.Unknown id := by
  intro file
  simp only [assetbalance, wp_orPrint, Task.bind_def, Task.wp_bind, Task.wp_lock,
    wp_rgbTotalAmount, printed_eq_ok, printed_eq_error]
  refine ⟨fun id hid => ⟨rfl, rfl, rfl, fun total htotal => ⟨?_, ?_⟩⟩, fun e he => ?_⟩
  · intro t ht
    subst ht
    simpa [hid] using known_of_getRgbTotalAmount htotal
  · intro message herror
    obtain ⟨e, rfl, rfl⟩ := herror
    simpa [hid] using (getRgbTotalAmount_error.mp htotal).1
  · simp [he]

theorem openChannel_lock (calls : OpenCalls) (s : LockView) (hs : s.wallet = false) :
    (openChannel calls).wp lockMonitor
      (fun _ s' => s'.wallet = false ∧ s'.runtime = s.runtime) s := by
  obtain ⟨w, r, file⟩ := s
  cases hs
  simp [openChannel]

theorem opencoloredchannel_lock (ids : ContractIdText) (p : Profile) (words : List Text)
    (calls : OpenCalls) :
    EndsHolding (opencoloredchannel ids p words calls) fun _ =>
      ∃ args id amt, opencoloredchannelArgs ids calls.parsePeerInfo words = .ok args ∧
        args.rgb = some (id, amt) ∧ calls.assets.Unknown id := by
  intro file
  simp only [opencoloredchannel, wp_orPrint]
  refine ⟨fun args hargs => ?_, fun e he => by simp [he]⟩
  cases hrgb : args.rgb with
  | none =>
    exact Task.wp_mono (fun _ s hs => by simp [hs, hargs, hrgb]) (openChannel_lock calls _ rfl)
  | some rgb =>
    obtain ⟨id, amt⟩ := rgb
    have hleak : (∃ args id amt, opencoloredchannelArgs ids calls.parsePeerInfo words = .ok args ∧
        args.rgb = some (id, amt) ∧ calls.assets.Unknown id) ↔ calls.assets.Unknown id := by
      constructor
      · intro hleak
        obtain ⟨args', id', amt', ha, hr, hu⟩ := hleak
        rw [hargs] at ha
        cases ha
        rw [hrgb] at hr
        cases hr
        exact hu
      · exact fun hu => ⟨args, id, amt, hargs, hrgb, hu⟩
    simp only [hleak, Task.bind_def, Task.wp_bind, wp_orPrint]
    apply Task.wp_mono _ (ensureAssets_lock p calls.assets id amt file)
    intro reply s hends
    obtain ⟨hw, hr, -⟩ := hends
    refine ⟨fun _ _ => ?_, fun _ _ => ⟨hw, hr⟩⟩
    apply Task.wp_mono _ (openChannel_lock calls s hw)
    intro _ s' hends
    obtain ⟨hw', hr'⟩ := hends
    rw [← hr'] at hr
    exact ⟨hw', hr⟩

theorem makerinit_lock (ids : ContractIdText) (p : Profile)
    (fetchPrice : ContractId → Except String ℕ) (words : List Text) (assets : Assets) :
    EndsHolding (makerinit ids p fetchPrice words assets) fun _ =>
      ∃ args swaptype, Swap.makerArgs ids fetchPrice words = .ok args ∧
        Swap.makerSwapType p args = .ok swaptype ∧ swaptype.isBuy = true ∧
        assets.Unknown args.assetId := by
  intro file
  simp only [makerinit, wp_orPrint, wp_orAbort, Task.wp_ite]
  refine ⟨fun args hargs => ⟨fun swaptype ht => ⟨fun hbuy => ?_, fun hbuy => ?_⟩, fun e he => ?_⟩,
    fun e he => ?_⟩
  · apply Task.wp_mono _ (ensureAssets_lock p assets args.assetId swaptype.amountRgb file)
    intro reply s hends
    obtain ⟨hw, hr, -⟩ := hends
    refine ⟨hw, hr.trans ?_⟩
    constructor
    · intro hu
      exact ⟨args, swaptype, hargs, ht, hbuy, hu⟩
    · intro hleak
      obtain ⟨args', swaptype', ha, -, -, hu⟩ := hleak
      rw [hargs] at ha
      cases ha
      exact hu
  · simp [hargs, ht, hbuy]
  · simp [hargs, he]
  · simp [he]

theorem taker_lock (ids : ContractIdText) (p : Profile) (now : ℕ) (words : List Text)
    (assets : Assets) :
    EndsHolding (taker ids p now words assets) fun _ =>
      ∃ swap, Swap.takerSwapString ids p now words = .ok swap ∧ swap.swapType.isBuy = false ∧
        assets.Unknown swap.assetId := by
  intro file
  simp only [taker, wp_orAbort, Task.wp_ite]
  refine ⟨fun swap hswap => ⟨fun hbuy => ?_, fun hbuy => ?_⟩, fun e he => ?_⟩
  · simp [hswap, hbuy]
  · apply Task.wp_mono _ (ensureAssets_lock p assets swap.assetId swap.swapType.amountRgb file)
    intro reply s hends
    obtain ⟨hw, hr, -⟩ := hends
    refine ⟨hw, hr.trans ?_⟩
    constructor
    · intro hu
      exact ⟨swap, hswap, Bool.eq_false_iff.mpr hbuy, hu⟩
    · intro hleak
      obtain ⟨swap', hs, -, hu⟩ := hleak
      rw [hswap] at hs
      cases hs
      exact hu
  · simp [he]

theorem takeUncolored_lock (s : LockView) :
    takeUncolored.wp lockMonitor
      (fun taken s' => s'.wallet = s.wallet ∧ s'.runtime = s.runtime ∧
        ((∃ message, taken = .error message) ↔ firstUncolored s.file = none)) s := by
  simp only [takeUncolored, colorUtxo, Task.bind_def, Task.wp_bind, wp_checkUncoloredUtxos,
    lock_sees, wp_orPrint, wp_getUtxo, Task.wp_get, Task.wp_expect, Task.wp_put, Task.wp_note]
  rintro v rfl
  constructor
  · intro hsome
    refine ⟨fun _ _ => ?_, by simp⟩
    rintro v rfl u hu
    refine ⟨trivial, ?_⟩
    rintro v rfl marked -
    simp [Option.isSome_iff_ne_none.mp hsome]
  · intro hnone
    simp [hnone]

theorem issueasset_lock (words : List Text) (issueContract : IssueArgs → OutPoint → Option ContractId) :
    EndsHolding (issueasset words issueContract) fun _ => False := by
  intro file
  simp only [issueasset, wp_orPrint, Task.bind_def, Task.wp_bind]
  refine ⟨?_, by simp⟩
  intro args _
  apply Task.wp_mono _ (takeUncolored_lock _)
  intro taken s hends
  obtain ⟨w, r, file'⟩ := s
  obtain ⟨rfl, rfl, -⟩ := hends
  simp

theorem receiveasset_lock (storeSealSecret : OutPoint → Bool) :
    EndsHolding (receiveasset storeSealSecret) fun _ => False := by
  intro file
  simp only [receiveasset, Task.bind_def, Task.wp_bind]
  apply Task.wp_mono _ (takeUncolored_lock _)
  intro taken s hends
  obtain ⟨w, r, file'⟩ := s
  obtain ⟨rfl, rfl, -⟩ := hends
  simp

theorem createutxos_lock (p : Profile) (calls : CreateUtxosCalls) :
    EndsHolding (createutxos p calls) fun _ => False := by
  intro file
  simp only [createutxos, Task.bind_def, Task.wp_bind, Task.wp_lock, Task.wp_get, lock_sees,
    Task.wp_expect, Task.wp_ite, Task.wp_note, Task.wp_put]
  refine ⟨rfl, ?_⟩
  rintro v rfl available _
  refine ⟨fun _ => by simp, fun _ tx _ => ⟨trivial, trivial, ?_⟩⟩
  apply Task.wp_mono _ (Task.wp_forEach
    (I := fun s : LockView => s.wallet = true ∧ s.runtime = false) (by simp) (by simp))
  intro _ s hs
  obtain ⟨w, r, file⟩ := s
  obtain ⟨rfl, rfl⟩ := hs
  simp

theorem refreshFile_lock (file : BlindedFile) (s : LockView)
    (hs : s.wallet = false ∧ s.runtime = false) :
    (refreshFile file).wp lockMonitor (fun _ s => s.wallet = false ∧ s.runtime = false) s := by
  obtain ⟨w, r, utxos⟩ := s
  obtain ⟨rfl, rfl⟩ := hs
  simp [refreshFile]

theorem refresh_lock (files : List BlindedFile) : EndsHolding (refresh files) fun _ => False := by
  intro file
  have hfiles : (Task.forEach refreshFile files).wp lockMonitor
      (fun _ s => s.wallet = false ∧ s.runtime = false) ⟨false, false, file⟩ := by
    apply Task.wp_forEach (I := fun s : LockView => s.wallet = false ∧ s.runtime = false) _ ⟨rfl, rfl⟩
    intro f _ s hs
    exact refreshFile_lock f s hs
  simp only [refresh, Task.bind_def, Task.wp_bind]
  apply Task.wp_mono _ hfiles
  intro _ s hs
  obtain ⟨hw, hr⟩ := hs
  simp [hw, hr]

theorem sendassetChecks_lock (p : Profile) (args : SendArgs) (calls : SendCalls) (file : RgbUtxos) :
    (sendassetChecks p args calls).wp lockMonitor
      (fun reply s => s = ⟨false, true, file⟩ ∧
        ((∃ message, reply = .error message) ↔
          (∃ total message, getRgbTotalAmount p calls.assets.history calls.assets.unspents
            args.contractId = some total ∧ checkEnough args.amtRgb total = .error message) ∨
          calls.sealValid args.blindedUtxo = false)) ⟨false, true, file⟩ := by
  simp only [sendassetChecks, Task.bind_def, Task.wp_bind, wp_rgbTotalAmount, wp_orPrint,
    Task.wp_ite, Task.pure_def, Task.wp_ret]
  refine ⟨rfl, rfl, fun total htotal => ⟨fun u hu => ⟨fun hseal => ?_, fun hseal => ?_⟩,
    fun e he => ?_⟩⟩
  · simp [htotal, hu, hseal]
  · simp [hseal]
  · simp [htotal, he]

theorem sendassetChange_lock (selected : Selection) (file : RgbUtxos) :
    (sendassetChange selected).wp lockMonitor
      (fun reply s => s.wallet = false ∧ s.runtime = true ∧
        ((∃ message, reply = .error message) ↔
          0 < selected.rgbChangeAmount ∧ firstUncolored file = none)) ⟨false, true, file⟩ := by
  simp only [sendassetChange, Task.wp_ite, Task.bind_def, Task.wp_bind]
  refine ⟨fun hpos => ?_, fun hzero => by simp [hzero]⟩
  apply Task.wp_mono _ (takeUncolored_lock _)
  intro taken s hends
  obtain ⟨w, r, file'⟩ := s
  obtain ⟨rfl, rfl, htaken⟩ := hends
  cases taken with
  | error e =>
    have hnone := htaken.mp ⟨e, rfl⟩
    simpa [hpos] using hnone
  | ok o =>
    have hsome : firstUncolored file ≠ none := by
      intro hnone
      simpa using htaken.mpr hnone
    simpa using fun _ => hsome

theorem sendassetTransfer_lock (selected : Selection) (calls : SendCalls) (s : LockView)
    (hs : s.wallet = false ∧ s.runtime = true) :
    (sendassetTransfer selected calls).wp lockMonitor
      (fun _ s => s.wallet = false ∧ (s.runtime = true ↔ calls.postConsignment = false)) s := by
  obtain ⟨w, r, file⟩ := s
  obtain ⟨rfl, rfl⟩ := hs
  simp only [sendassetTransfer, Task.bind_def, Task.wp_bind, Task.wp_lock, Task.wp_expect,
    Task.wp_note, wp_require, Task.wp_ite]
  refine ⟨rfl, fun tx _ => ⟨trivial, fun _ => ⟨fun hpost => ?_, fun hpost => ?_⟩⟩⟩
  · simp [hpost]
  · simp [hpost]

theorem sendasset_lock (ids : ContractIdText) (p : Profile) (words : List Text) (calls : SendCalls) :
    EndsHolding (sendasset ids p words calls) fun file =>
      ∃ args, sendassetArgs ids words = .ok args ∧ SendLeaks p args calls file := by
  intro file
  simp only [sendasset, wp_orPrint, Task.bind_def, Task.wp_bind, Task.wp_lock, sendassetInputs,
    wp_assetOwnedValues, Task.wp_expect]
  refine ⟨fun args hargs => ⟨rfl, ?_⟩, fun e he => by simp [he]⟩
  have hleak : (∃ args, sendassetArgs ids words = .ok args ∧ SendLeaks p args calls file) ↔
      SendLeaks p args calls file := by simp [hargs]
  simp only [hleak]
  apply Task.wp_mono _ (sendassetChecks_lock p args calls file)
  intro checked s hends
  obtain ⟨rfl, hchecked⟩ := hends
  refine ⟨fun u hu => ⟨rfl, rfl, fun owned howned selected hsel => ?_⟩, fun e he => ⟨rfl, ?_⟩⟩
  · have hpassed := hchecked.not.mp (by simp [hu])
    apply Task.wp_mono _ (sendassetChange_lock selected file)
    intro change s hends
    obtain ⟨hw, hr, hchange⟩ := hends
    refine ⟨fun u hu => ?_, fun e he => ⟨hw, ?_⟩⟩
    · -- only a refused post of the consignment is left
      have hnochange := hchange.not.mp (by simp [hu])
      have hpost : calls.postConsignment = false ↔ SendLeaks p args calls file := by
        unfold SendLeaks
        rw [howned, ← or_assoc, or_iff_right hpassed]
        simpa [hsel] using fun hpos hnone => absurd ⟨hpos, hnone⟩ hnochange
      apply Task.wp_mono _ (sendassetTransfer_lock selected calls s ⟨hw, hr⟩)
      intro _ s' hends
      obtain ⟨hw', hr'⟩ := hends
      exact ⟨hw', hr'.trans hpost⟩
    · obtain ⟨hpos, hnone⟩ := hchange.mp ⟨e, he⟩
      have hleaks : SendLeaks p args calls file :=
        .inr (.inr (.inl ⟨owned, selected, howned, hsel, hpos, hnone⟩))
      exact iff_of_true hr hleaks
  · have hleaks : SendLeaks p args calls file := by
      unfold SendLeaks
      rw [← or_assoc]
      exact .inl (hchecked.mp ⟨e, he⟩)
    exact iff_of_true rfl hleaks

theorem fundingTx_lock (rgbState : Option Selection) (calls : FundingCalls) :
    EndsHolding (fundingTx rgbState calls) fun _ => False := by
  intro file
  simp only [fundingTx, Task.bind_def, Task.wp_bind, Task.wp_get, lock_sees, Task.wp_lock,
    Task.wp_expect, Task.wp_note]
  rintro v rfl
  refine ⟨rfl, fun tx _ => ⟨trivial, ?_⟩⟩
  cases rgbState with
  | none => simp [fundingTransfer]
  | some state => simp [fundingTransfer, placeChange, fundingChange]

theorem fundingGenerationReady_lock (p : Profile) (calls : FundingCalls) :
    EndsHolding (fundingGenerationReady p calls) fun _ => False := by
  intro file
  unfold fundingGenerationReady
  cases calls.rgbInfo with
  | none => exact fundingTx_lock none calls file
  | some info =>
    simpa [fundingInputs] using fun _ _ selected _ => fundingTx_lock (some selected) calls file

theorem fundingTask_lock (task : FundingTask) :
    EndsHolding task.program fun _ =>
      task.coloured = true ∧ task.posted = true ∧ task.validity = .other := by
  intro file
  rcases task with ⟨coloured, posted, validity⟩
  cases coloured <;> cases posted <;> cases validity <;> simp [FundingTask.program]

theorem sweepOutput_lock (output : SpendableOutput) (s : LockView)
    (hs : s.wallet = false ∧ s.runtime = true) :
    (sweepOutput output).wp lockMonitor (fun _ s => s.wallet = false ∧ s.runtime = true) s := by
  obtain ⟨w, r, file⟩ := s
  obtain ⟨rfl, rfl⟩ := hs
  simp [sweepOutput, pushSwept]

theorem spendableOutputs_lock (outputs : List SpendableOutput) :
    EndsHolding (spendableOutputs outputs) fun _ => False := by
  intro file
  have hsweep : (Task.forEach sweepOutput outputs).wp lockMonitor
      (fun _ s => s.wallet = false ∧ s.runtime = true) ⟨false, true, file⟩ := by
    apply Task.wp_forEach (I := fun s : LockView => s.wallet = false ∧ s.runtime = true) _ ⟨rfl, rfl⟩
    intro output _ s hs
    exact sweepOutput_lock output s hs
  simp only [spendableOutputs, Task.bind_def, Task.wp_bind, Task.wp_lock]
  refine ⟨rfl, ?_⟩
  apply Task.wp_mono _ hsweep
  intro _ s hs
  obtain ⟨w, r, file⟩ := s
  obtain ⟨rfl, rfl⟩ := hs
  simp

theorem operation_lock (ids : ContractIdText) (p : Profile) (op : Operation) :
    EndsHolding (op.program p ids) (op.Leaks ids p) := by
  intro file
  cases op with
  | command c =>
    simp only [Operation.program, Task.wp_bind, Task.pure_def, Task.wp_ret]
    cases c with
    | listunspent => simp [Command.program, listunspent, Operation.Leaks]
    | getaddress => simp [Command.program, getaddress, Operation.Leaks]
    | createutxos calls => exact createutxos_lock p calls file
    | issueasset words issueContract => exact issueasset_lock words issueContract file
    | receiveasset storeSealSecret => exact receiveasset_lock storeSealSecret file
    | assetbalance words assets => exact assetbalance_lock ids p words assets file
    | sendasset words calls => exact sendasset_lock ids p words calls file
    | refresh files => exact refresh_lock files file
    | openchannel words calls => simp [Command.program, openchannel, openChannel, Operation.Leaks]
    | opencoloredchannel words calls => exact opencoloredchannel_lock ids p words calls file
    | makerinit fetchPrice words assets => exact makerinit_lock ids p fetchPrice words assets file
    | taker now words assets => exact taker_lock ids p now words assets file
    | other reply => simp [Command.program, Operation.Leaks]
  | event e =>
    cases e with
    | fundingGenerationReady calls => exact fundingGenerationReady_lock p calls file
    | spendableOutputs outputs => exact spendableOutputs_lock outputs file
    | channelReady coloured acceptTransfer =>
      simp [Operation.program, Event.program, channelReady, Operation.Leaks]
    | other => simp [Operation.program, Event.program, Operation.Leaks]
  | spawned task => exact fundingTask_lock task file

end Programs

section Run
variable {ids : ContractIdText} {p : Profile}

/-- The runtime lock was released as often as it was taken. -/
def Balanced (trace : List (Act Lock RgbUtxos Note)) : Prop :=
  trace.count (.acquire .runtime) = trace.count (.release .runtime)

/-- The view has the locks, the file and the surplus of taken over released. -/
structure LockView.Of (s : LockView) (m : Machine Lock RgbUtxos Note) : Prop where
  held : ∀ l, m.held l = s.held l
  file : s.file = m.cell
  surplus : m.trace.count (.acquire .runtime) =
    m.trace.count (.release .runtime) + if s.runtime then 1 else 0

theorem LockView.Of.perform {s s' : LockView} {m : Machine Lock RgbUtxos Note} (h : s.Of m)
    {a : Act Lock RgbUtxos Note} (hheld : ∀ l, (m.perform a).held l = s'.held l)
    (hfile : s'.file = (m.perform a).cell) (hruntime : s'.runtime = s.runtime)
    (hacquire : a ≠ .acquire .runtime) (hrelease : a ≠ .release .runtime) :
    s'.Of (m.perform a) := by
  refine ⟨hheld, hfile, ?_⟩
  have hsurplus := h.surplus
  simp only [Machine.perform, List.count_append, hruntime]
  rw [List.count_singleton, List.count_singleton, beq_false_of_ne hacquire, beq_false_of_ne hrelease]
  simpa using hsurplus

@[simp] theorem held_set (s : LockView) (b : Bool) (l : Lock) :
    (s.set b l).held = Function.update s.held l b := by
  funext l'
  cases l <;> cases l' <;> rfl

theorem lock_describes : lockMonitor.Describes LockView.Of where
  sees := fun h => h.file.symm
  acquire := by
    intro s m l h hok _
    have hheld : ∀ l', (m.perform (.acquire l)).held l' = (s.set true l).held l' := by
      intro l'
      rw [held_set, ← funext h.held]
      rfl
    cases l with
    | wallet => exact h.perform hheld h.file rfl (by simp) (by simp)
    | runtime =>
      have hfree : s.runtime = false := hok
      have hsurplus := h.surplus
      refine ⟨hheld, h.file, ?_⟩
      simpa [Machine.perform, List.count_append, LockView.set, hfree] using hsurplus
  release := by
    intro s m l h hok
    have hheld : ∀ l', (m.perform (.release l)).held l' = (s.set false l).held l' := by
      intro l'
      rw [held_set, ← funext h.held]
      rfl
    cases l with
    | wallet => exact h.perform hheld h.file rfl (by simp) (by simp)
    | runtime =>
      have htaken : s.runtime = true := hok
      have hsurplus := h.surplus
      refine ⟨hheld, h.file, ?_⟩
      simpa [Machine.perform, List.count_append, LockView.set, htaken] using hsurplus
  read := fun h => h.perform h.held h.file rfl (by simp) (by simp)
  write := fun h _ => h.perform h.held rfl rfl (by simp) (by simp)
  emit := fun h _ => h.perform h.held h.file rfl (by simp) (by simp)

/-- Both locks are free and the runtime lock was always released. -/
structure LocksFree (m : Machine Lock RgbUtxos Note) : Prop where
  free : ∀ l, m.held l = false
  balanced : Balanced m.trace

theorem locksFree_start (file : RgbUtxos) : LocksFree ⟨fun _ => false, file, []⟩ :=
  ⟨fun _ => rfl, rfl⟩

theorem LocksFree.of {m : Machine Lock RgbUtxos Note} (h : LocksFree m) :
    LockView.Of ⟨false, false, m.cell⟩ m :=
  ⟨fun l => by cases l <;> exact h.free _, rfl, by simpa [Balanced] using h.balanced⟩

/-- From free locks an operation never waits; when it ends normally it has released
the runtime lock as often as taken iff it does not leak, and then both are free. -/
theorem exec_lock (op : Operation) {m : Machine Lock RgbUtxos Note} (hm : LocksFree m) :
    (∀ l, ((op.program p ids).exec m).1 ≠ .blocked l) ∧
    (((op.program p ids).exec m).1 = .returned () →
      (Balanced ((op.program p ids).exec m).2.trace ↔ ¬op.Leaks ids p m.cell) ∧
      (¬op.Leaks ids p m.cell → LocksFree ((op.program p ids).exec m).2)) := by
  obtain ⟨s, hs, hreturned, hblocked⟩ :=
    Task.wp_exec lock_describes hm.of (operation_lock ids p op m.cell)
  constructor
  · intro l hl
    obtain ⟨hok, hheld⟩ := hblocked l hl
    rw [hs.held l] at hheld
    rw [lock_acquire.mp hok] at hheld
    cases hheld
  · intro hret
    obtain ⟨hwallet, hruntime⟩ := hreturned () hret
    have hsurplus := hs.surplus
    by_cases hleak : op.Leaks ids p m.cell
    · have hunbalanced : ¬Balanced ((op.program p ids).exec m).2.trace := by
        intro hbalanced
        unfold Balanced at hbalanced
        rw [hruntime.mpr hleak, if_pos rfl] at hsurplus
        omega
      exact ⟨iff_of_false hunbalanced (not_not.mpr hleak), fun h => absurd hleak h⟩
    · have hfree : s.runtime = false := Bool.eq_false_iff.mpr fun h => hleak (hruntime.mp h)
      have hbalanced : Balanced ((op.program p ids).exec m).2.trace := by
        simpa [Balanced, hfree] using hsurplus
      have hlocks : ∀ l, ((op.program p ids).exec m).2.held l = false := by
        intro l
        rw [hs.held l]
        cases l with
        | wallet => exact hwallet
        | runtime => exact hfree
      exact ⟨iff_of_true hbalanced hleak, fun _ => ⟨hlocks, hbalanced⟩⟩

/-- The operation does not leak in the state it is started in. -/
def NoLeak (ids : ContractIdText) (p : Profile) (older : List Operation) (op : Operation) : Prop :=
  (nodeRun ids p older).status = .running → ¬op.Leaks ids p (nodeRun ids p older).machine.cell

theorem nodeRun_free {ops : List Operation} (h : EachAfter (NoLeak ids p) ops) :
    (nodeRun ids p ops).status ≠ .blocked ∧
      ((nodeRun ids p ops).status = .running → LocksFree (nodeRun ids p ops).machine) := by
  induction ops using List.reverseRecOn with
  | nil => exact ⟨by simp [nodeRun, NodeState.init], fun _ => locksFree_start []⟩
  | append_singleton ops op ih =>
    obtain ⟨hops, hop⟩ := eachAfter_concat.mp h
    obtain ⟨hblocked, hfree⟩ := ih hops
    rw [nodeRun, run_concat, ← nodeRun, nodeStep]
    by_cases hrun : (nodeRun ids p ops).status = .running
    · rw [if_pos hrun]
      obtain ⟨hne, hret⟩ := @exec_lock ids p op _ (hfree hrun)
      cases hexit : ((op.program p ids).exec (nodeRun ids p ops).machine).1 with
      | returned u => exact ⟨by simp [Exit.status], fun _ => (hret hexit).2 (hop hrun)⟩
      | aborted => exact ⟨by simp [Exit.status], by simp [Exit.status]⟩
      | blocked l => exact absurd hexit (hne l)
    · rw [if_neg hrun]
      exact ⟨hblocked, hfree⟩

/-- A normal end has released the runtime lock once for each time it was taken iff
the operation does not leak; a run without leaks leaves it free and never waits. -/
theorem runtime_released_iff :
    (∀ (op : Operation) (file : RgbUtxos),
      ((op.program p ids).exec ⟨fun _ => false, file, []⟩).1 = .returned () →
        (Balanced ((op.program p ids).exec ⟨fun _ => false, file, []⟩).2.trace ↔
          ¬op.Leaks ids p file)) ∧
    ∀ ops, EachAfter (NoLeak ids p) ops →
      (nodeRun ids p ops).status ≠ .blocked ∧
        ((nodeRun ids p ops).status = .running → LocksFree (nodeRun ids p ops).machine) :=
  ⟨fun op file hret => ((exec_lock op (locksFree_start file)).2 hret).1, fun _ h => nodeRun_free h⟩

/-- The balance of a contract that the node does not know. -/
def unknownBalance : Operation := .command (.assetbalance ["rgb".toList] ⟨fun _ => none, []⟩)

theorem unknownBalance_keeps_runtime :
    (nodeRun ⟨fun _ => some (Bytes32.fill 7), fun _ => []⟩ .release
      [unknownBalance, unknownBalance]).status = .blocked ∧
    ¬∀ (ids : ContractIdText) (p : Profile) (op : Operation) (file : RgbUtxos),
      ((op.program p ids).exec ⟨fun _ => false, file, []⟩).1 = .returned () →
        Balanced ((op.program p ids).exec ⟨fun _ => false, file, []⟩).2.trace := by
  refine ⟨by decide, fun h => ?_⟩
  have hb := h ⟨fun _ => some (Bytes32.fill 7), fun _ => []⟩ .release unknownBalance [] (by decide)
  revert hb
  unfold Balanced
  decide

end Run

end RgbLightning.Node
