import RgbLightning.Node.Commands

/-! # Event handlers

Events are handled one at a time. The funding handler spawns a task of its own,
which posts and validates the consignment.
-/
namespace RgbLightning.Node
open MachineInt Decimal Rgb

variable (p : Profile)

section Funding

structure FundingCalls where
  /-- The info file of the temporary channel, present for a coloured channel. -/
  rgbInfo : Option RgbInfo
  assets : Assets
  finish : TxParams → Option Tx
  sendRgb : Bool
  /-- The consignment is saved once more, after the list. -/
  saveConsignment : Bool
  posted : Bool
  validity : Validity

/-- The RGB inputs of a coloured funding, selected under the runtime lock. -/
def fundingInputs (info : RgbInfo) (assets : Assets) : Program Selection := do
  Task.lock .runtime
  let owned ← assetOwnedValues assets info.contractId
  let owned ← Task.expect owned.toOption
  let selected ← Task.expect (selectInputs p info.localRgbAmount owned.toList)
  Task.unlock .runtime
  pure selected

/-- Listed UTXOs are not spendable, except the coloured ones selected as inputs. -/
def fundingUnspendable (rgbState : Option Selection) (rgbUtxos : RgbUtxos) : List OutPoint :=
  (rgbUtxos.filter fun u =>
    match rgbState with
    | some state => !decide (u.outpoint ∈ state.rgbInputs) || !u.colored
    | none => true).map RgbUtxo.outpoint

def fundingParams (rgbState : Option Selection) (rgbUtxos : RgbUtxos) : TxParams where
  addUtxos := match rgbState with
    | some state => state.rgbInputs
    | none => []
  unspendable := fundingUnspendable rgbState rgbUtxos
  manuallySelectedOnly := false

/-- The RGB change of a coloured funding is assigned to output 2 by `send_rgb`. -/
def placeChange (selected : Selection) (txid : Txid) : Program Unit :=
  if selected.rgbChangeAmount > 0 then Task.note (.placed ⟨txid, 2⟩) else pure ()

/-- The change is pushed to the list read before the wallet was locked. -/
def fundingChange (selected : Selection) (rgbUtxos : RgbUtxos) (txid : Txid) : Program Unit :=
  if selected.rgbChangeAmount > 0 then do
    Task.put (rgbUtxos ++ [⟨⟨txid, 2⟩, true⟩])
    Task.note (.pushed ⟨⟨txid, 2⟩, true⟩)
  else pure ()

/-- The RGB part of the funding transaction. Here the runtime lock is taken while
the wallet is locked. -/
def fundingTransfer (calls : FundingCalls) (rgbUtxos : RgbUtxos) (txid : Txid) :
    Option Selection → Program Unit
  | none => pure ()
  | some selected => do
    Task.lock .runtime
    require calls.sendRgb
    placeChange selected txid
    Task.unlock .runtime
    fundingChange selected rgbUtxos txid
    require calls.saveConsignment

def fundingTx (rgbState : Option Selection) (calls : FundingCalls) : Program Unit := do
  let rgbUtxos ← Task.get
  Task.lock .wallet
  let tx ← Task.expect (calls.finish (fundingParams rgbState rgbUtxos))
  Task.note (.built (fundingParams rgbState rgbUtxos) tx)
  fundingTransfer calls rgbUtxos tx.txid rgbState
  Task.note (.spawned ⟨rgbState.isSome, calls.posted, calls.validity⟩)
  Task.unlock .wallet

def fundingGenerationReady (calls : FundingCalls) : Program Unit :=
  match calls.rgbInfo with
  | none => fundingTx none calls
  | some info => do
    let selected ← fundingInputs p info calls.assets
    fundingTx (some selected) calls

/-- The spawned task. An invalid consignment returns with the runtime locked. -/
def FundingTask.program (task : FundingTask) : Program Unit :=
  if !task.coloured then pure ()
  else if !task.posted then pure ()
  else do
    Task.lock .runtime
    if task.validity = .valid ∨ task.validity = .unminedTerminals then Task.unlock .runtime
    else pure ()

end Funding

section Sweep

/-- One spendable output. `transfer` is the validity of its RGB transfer when the
closing transaction is coloured; `txid` is that of the sweeping transaction. -/
structure SpendableOutput where
  outpoint : OutPoint
  transfer : Option Validity
  txid : Option Txid
  opReturnIndex : Option ℕ
  acceptTransfer : Bool

/-- The output that does not hold the commitment: the other one of the first two. -/
def sealVout : Option ℕ → ℕ
  | some index => index ^^^ 1
  | none => 0

def pushSwept (outpoint : OutPoint) (acceptTransfer : Bool) : Program Unit := do
  let rgbUtxos ← Task.get
  Task.put (rgbUtxos ++ [⟨outpoint, true⟩])
  Task.note (.pushed ⟨outpoint, true⟩)
  require acceptTransfer

/-- Sweep one output; one whose transfer is not valid is skipped. -/
def sweepOutput (output : SpendableOutput) : Program Unit :=
  if output.transfer.isSome ∧ output.transfer ≠ some .valid then pure ()
  else do
    Task.lock .wallet
    let txid ← Task.expect output.txid
    Task.note (.built ⟨[output.outpoint], [], true⟩ ⟨txid, [output.outpoint]⟩)
    if output.transfer.isSome then do
      Task.note (.placed ⟨txid, sealVout output.opReturnIndex⟩)
      pushSwept ⟨txid, sealVout output.opReturnIndex⟩ output.acceptTransfer
    else pure ()
    Task.unlock .wallet

def spendableOutputs (outputs : List SpendableOutput) : Program Unit := do
  Task.lock .runtime
  Task.forEach sweepOutput outputs
  Task.unlock .runtime

end Sweep

def channelReady (coloured acceptTransfer : Bool) : Program Unit :=
  if coloured then do
    Task.lock .runtime
    require acceptTransfer
    Task.unlock .runtime
  else pure ()

/-- The handled events, with the results of their calls. -/
inductive Event where
  | fundingGenerationReady (calls : FundingCalls)
  | spendableOutputs (outputs : List SpendableOutput)
  | channelReady (coloured acceptTransfer : Bool)
  /-- Any event without locks and without the file. -/
  | other

def Event.program : Event → Program Unit
  | fundingGenerationReady calls => Node.fundingGenerationReady p calls
  | spendableOutputs outputs => Node.spendableOutputs outputs
  | channelReady coloured acceptTransfer => Node.channelReady coloured acceptTransfer
  | other => pure ()

inductive Operation where
  | command (c : Command)
  | event (e : Event)
  | spawned (task : FundingTask)

def Operation.program (ids : ContractIdText) : Operation → Program Unit
  | command c => (c.program ids p).bind fun _ => pure ()
  | event e => e.program p
  | spawned task => task.program

theorem wp_command {σ : Type} {M : Monitor Lock RgbUtxos Note σ} {s : σ} {post : Unit → σ → Prop}
    {ids : ContractIdText} {p : Profile} {c : Command} :
    ((Operation.command c).program p ids).wp M post s ↔
      (c.program ids p).wp M (fun _ => post ()) s := by
  simp [Operation.program]

section Exec
variable {p} {m : Machine Lock RgbUtxos Note} {selected : Selection}

theorem fundingInputs_exec {info : RgbInfo} {assets : Assets} {owned : OwnedValues ℕ}
    (hruntime : m.held .runtime = false) (hwallet : m.held .wallet = false)
    (howned : getAssetOwnedValues assets.history assets.unspents info.contractId = .ok owned)
    (hselected : selectInputs p info.localRgbAmount owned.toList = some selected) :
    ∃ m', (fundingInputs p info assets).exec m = (.returned selected, m') ∧
      m'.held .runtime = false ∧ m'.held .wallet = false ∧ m'.cell = m.cell := by
  have hfree : (m.perform (.acquire .runtime)).held .wallet = false := by
    simp [Machine.perform, hwallet]
  refine ⟨(((m.perform (.acquire .runtime)).perform (.acquire .wallet)).perform
    (.release .wallet)).perform (.release .runtime), ?_, by simp [Machine.perform],
    by simp [Machine.perform], rfl⟩
  rw [fundingInputs, Task.bind_def, Task.exec_lock_bind hruntime, Task.bind_def,
    assetOwnedValues_exec_bind hfree, howned, Task.bind_def, Except.toOption, Task.exec_expect_bind,
    hselected]
  rfl

end Exec

end RgbLightning.Node
