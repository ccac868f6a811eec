import RgbLightning.Node.Events

/-! # Operations that only take locks

Most operations neither touch the file nor note anything: they take the runtime
lock, the wallet mutex inside it or on its own, and compute. What holds of these
follows from their lock sections alone.
-/
namespace RgbLightning.Node
open MachineInt Decimal Rgb

/-- The wallet mutex and the runtime lock, as held by the operation. -/
structure Sections where
  wallet : Bool
  runtime : Bool

/-- The runtime lock is taken while the wallet is free; nothing but locks is used. -/
def sectionMonitor : Monitor Lock RgbUtxos Note Sections where
  sees _ _ := True
  ok s
    | .acquire .wallet => s.wallet = false
    | .acquire .runtime => s.wallet = false ∧ s.runtime = false
    | .release .wallet => s.wallet = true
    | .release .runtime => s.runtime = true
    | _ => False
  next s
    | .acquire .wallet => { s with wallet := true }
    | .acquire .runtime => { s with runtime := true }
    | .release .wallet => { s with wallet := false }
    | .release .runtime => { s with runtime := false }
    | _ => s

/-- The program only takes locks and ends with the wallet free. -/
def OnlyLocks {α : Type} (program : Program α) : Prop :=
  program.wp sectionMonitor (fun _ s => s.wallet = false) ⟨false, false⟩

theorem ensureAssets_sections (p : Profile) (assets : Assets) (id : ContractId) (amount : ℕ) :
    (ensureAssets p assets id amount).wp sectionMonitor (fun _ s => s.wallet = false)
      ⟨false, false⟩ := by
  simp [ensureAssets, sectionMonitor]

theorem openChannel_sections (calls : OpenCalls) {s : Sections} (hs : s.wallet = false) :
    (openChannel calls).wp sectionMonitor (fun _ s => s.wallet = false) s := by
  simp [openChannel, sectionMonitor, hs]

theorem opencoloredchannel_onlyLocks (ids : ContractIdText) (p : Profile) (words : List Text)
    (calls : OpenCalls) : OnlyLocks (opencoloredchannel ids p words calls) := by
  simp only [OnlyLocks, opencoloredchannel, wp_orPrint]
  refine ⟨fun args _ => ?_, by simp⟩
  cases args.rgb with
  | none => exact openChannel_sections calls rfl
  | some rgb =>
    simp only [Task.bind_def, Task.wp_bind, wp_orPrint]
    refine Task.wp_mono (fun reply s hs => ?_) (ensureAssets_sections p calls.assets rgb.1 rgb.2)
    exact ⟨fun _ _ => openChannel_sections calls hs, fun _ _ => hs⟩

theorem refresh_onlyLocks (files : List BlindedFile) : OnlyLocks (refresh files) := by
  simp only [OnlyLocks, refresh, Task.bind_def, Task.wp_bind]
  refine Task.wp_mono (fun _ s hs => by simp [hs]) (Task.wp_forEach
    (I := fun s : Sections => s.wallet = false ∧ s.runtime = false) (fun file _ s hs => ?_) ⟨rfl, rfl⟩)
  simp [refreshFile, sectionMonitor, hs.1, hs.2]

/-- An operation only takes locks unless it is one of six that use the file. -/
theorem Operation.casesFile (ids : ContractIdText) (p : Profile) {motive : Operation → Prop}
    (onlyLocks : ∀ op : Operation, OnlyLocks (op.program p ids) → motive op)
    (createutxos : ∀ calls, motive (.command (.createutxos calls)))
    (issueasset : ∀ words issueContract, motive (.command (.issueasset words issueContract)))
    (receiveasset : ∀ storeSealSecret, motive (.command (.receiveasset storeSealSecret)))
    (sendasset : ∀ words calls, motive (.command (.sendasset words calls)))
    (fundingGenerationReady : ∀ calls, motive (.event (.fundingGenerationReady calls)))
    (spendableOutputs : ∀ outputs, motive (.event (.spendableOutputs outputs))) (op : Operation) : motive op := by
  have hcommand : ∀ c : Command, OnlyLocks (c.program ids p) → motive (.command c) := fun c hc =>
    onlyLocks (.command c) (wp_command.mpr hc)
  cases op with
  | command c =>
    cases c with
    | createutxos calls => exact createutxos calls
    | issueasset words issueContract => exact issueasset words issueContract
    | receiveasset storeSealSecret => exact receiveasset storeSealSecret
    | sendasset words calls => exact sendasset words calls
    | opencoloredchannel words calls => exact hcommand _ (opencoloredchannel_onlyLocks ids p words calls)
    | refresh files => exact hcommand _ (refresh_onlyLocks files)
    | listunspent => exact hcommand _ (by simp [OnlyLocks, Command.program, listunspent, sectionMonitor])
    | getaddress => exact hcommand _ (by simp [OnlyLocks, Command.program, getaddress, sectionMonitor])
    | assetbalance words assets =>
      exact hcommand _ (by simp [OnlyLocks, Command.program, assetbalance, sectionMonitor])
    | openchannel words calls =>
      exact hcommand _ (by simp [OnlyLocks, Command.program, openchannel, openChannel_sections calls])
    | makerinit fetchPrice words assets =>
      exact hcommand _ (by simp [OnlyLocks, Command.program, makerinit, ensureAssets_sections])
    | taker now words assets =>
      exact hcommand _ (by simp [OnlyLocks, Command.program, taker, ensureAssets_sections])
    | other reply => exact hcommand _ (by simp [OnlyLocks, Command.program])
  | event e =>
    cases e with
    | fundingGenerationReady calls => exact fundingGenerationReady calls
    | spendableOutputs outputs => exact spendableOutputs outputs
    | channelReady coloured acceptTransfer =>
      exact onlyLocks _ (by
        simp [OnlyLocks, Operation.program, Event.program, channelReady, sectionMonitor])
    | other => exact onlyLocks _ (by simp [OnlyLocks, Operation.program, Event.program])
  | spawned task =>
    exact onlyLocks _ (by simp [OnlyLocks, Operation.program, FundingTask.program, sectionMonitor])

end RgbLightning.Node
