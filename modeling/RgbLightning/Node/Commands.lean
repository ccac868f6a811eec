import RgbLightning.Node.Program
import RgbLightning.Rgb.Transition
import RgbLightning.Swap.Commands

/-! # Commands of the command line

The words of a command are those after its name. Every path that stops early says
what it prints; the wallet guard is dropped on all of them, the RGB runtime lock
only where it is dropped explicitly.
-/
namespace RgbLightning.Node
open MachineInt Decimal Rgb

def MIN_CREATE_UTXOS_SATS : ℕ := 10000
def UTXO_NUM : ℕ := 4
def OPENCHANNEL_MIN_SAT : ℕ := 5506
def OPENCHANNEL_MAX_SAT : ℕ := 16777215
def DUST_LIMIT_MSAT : ℕ := 546000

variable (ids : ContractIdText) (p : Profile)

section Wallet

def listunspent : Program Reply := do
  Task.lock .wallet
  Task.unlock .wallet
  pure (.ok ())

def getaddress : Program Reply := do
  Task.lock .wallet
  Task.unlock .wallet
  pure (.ok ())

structure CreateUtxosCalls where
  balance : ℕ
  listUnspent : List (OutPoint × ℕ)
  finish : TxParams → Option Tx

def availableSats (calls : CreateUtxosCalls) (unspendable : List OutPoint) : Option ℕ :=
  ((calls.listUnspent.filter fun u => u.1 ∈ unspendable).foldlM
    (fun acc u => addWord u64 p acc u.2) 0).bind fun amt => subWord u64 p calls.balance amt

def newUtxos (txid : Txid) : RgbUtxos := (List.range UTXO_NUM).map fun i => ⟨⟨txid, i⟩, false⟩

def createutxos (calls : CreateUtxosCalls) : Program Reply := do
  Task.lock .wallet
  let rgbUtxos ← Task.get
  let available ← Task.expect (availableSats p calls (rgbUtxos.map RgbUtxo.outpoint))
  if available < MIN_CREATE_UTXOS_SATS then do
    Task.unlock .wallet
    pure (.error ("ERROR: not enough funds, call getaddress and send " ++
      toString (MIN_CREATE_UTXOS_SATS - available) ++ " satoshis"))
  else do
    let params : TxParams := ⟨[], rgbUtxos.map RgbUtxo.outpoint, false⟩
    let tx ← Task.expect (calls.finish params)
    Task.note (.built params tx)
    Task.put (rgbUtxos ++ newUtxos tx.txid)
    Task.forEach (fun u => Task.note (.pushed u)) (newUtxos tx.txid)
    Task.unlock .wallet
    pure (.ok ())

end Wallet

section Issue

structure IssueArgs where
  amount : ℕ
  ticker : Text
  name : Text
  precision : ℕ
  deriving DecidableEq

def isAscii (text : Text) : Bool := text.all fun c => c.toNat < 128

def issueArgs : List Text → Except String IssueArgs
  | amount :: ticker :: name :: precision :: _ =>
    match parseU64 amount with
    | .error _ => .error "ERROR: amount must be a number"
    | .ok amount =>
      if !isAscii ticker then .error "ERROR: ticker must be an ASCII string"
      else if !isAscii name then .error "ERROR: name must be an ASCII string"
      else match parseUnsigned 8 precision with
        | .error _ => .error "ERROR: precision must be a number"
        | .ok precision => .ok ⟨amount, ticker, name, precision⟩
  | _ => .error "ERROR: issueasset has 4 required arguments: `issueasset <amount> <ticker> <name> <precision>`"

/-- Mark an uncoloured UTXO, or say that there is none. -/
def takeUncolored : Program (Except String OutPoint) := do
  let available ← checkUncoloredUtxos
  orPrint (printed available) fun _ => do
    let utxo ← getUtxo
    colorUtxo utxo.outpoint
    pure (.ok utxo.outpoint)

def issueasset (words : List Text) (issueContract : IssueArgs → OutPoint → Option ContractId) :
    Program Reply :=
  orPrint (issueArgs words) fun args => do
    let taken ← takeUncolored
    orPrint taken fun outpoint => do
      Task.lock .runtime
      let _ ← Task.expect (issueContract args outpoint)
      Task.note (.placed outpoint)
      Task.unlock .runtime
      pure (.ok ())

def receiveasset (storeSealSecret : OutPoint → Bool) : Program Reply := do
  let taken ← takeUncolored
  orPrint taken fun outpoint => do
    Task.lock .runtime
    require (storeSealSecret outpoint)
    Task.unlock .runtime
    Task.note (.placed outpoint)
    pure (.ok ())

end Issue

section Balance

def contractIdArg (contractId : Text) : Except String ContractId :=
  match ids.fromStr contractId with
  | some id => .ok id
  | none => .error "ERROR: contract_id must be a valid RGB asset ID"

def assetbalanceArgs : List Text → Except String ContractId
  | contractId :: _ => contractIdArg ids contractId
  | [] => .error "ERROR: assetbalance has 1 required argument: ``assetbalance <contract_id>``"

def assetbalance (words : List Text) (assets : Assets) : Program Reply :=
  orPrint (assetbalanceArgs ids words) fun contractId => do
    Task.lock .runtime
    let total ← rgbTotalAmount p assets contractId
    -- the runtime lock is not dropped when the contract is unknown
    orPrint (printed total) fun _ => do
      Task.unlock .runtime
      pure (.ok ())

/-- The balance check of `opencoloredchannel`, `makerinit` and `taker`. -/
def ensureAssets (assets : Assets) (contractId : ContractId) (amount : ℕ) : Program Reply := do
  Task.lock .runtime
  let total ← rgbTotalAmount p assets contractId
  -- the runtime lock is not dropped when the contract is unknown
  orPrint (printed total) fun total => do
    Task.unlock .runtime
    pure (checkEnough amount (.ok total))

end Balance

section Send

structure SendArgs where
  contractId : ContractId
  amtRgb : ℕ
  blindedUtxo : Text
  deriving DecidableEq

def sendassetArgs : List Text → Except String SendArgs
  | contractId :: amtRgb :: blindedUtxo :: _ =>
    match contractIdArg ids contractId with
    | .error e => .error e
    | .ok contractId =>
      match parseU64 amtRgb with
      | .error e => .error ("ERROR: couldn't parse amt_rgb: " ++ e.message)
      | .ok amtRgb => .ok ⟨contractId, amtRgb, blindedUtxo⟩
  | _ => .error "ERROR: sendasset has 3 required arguments: ``sendasset <contract_id> <amt_rgb> <blinded_utxo>``"

structure SendCalls where
  assets : Assets
  sealValid : Text → Bool
  finish : TxParams → Option Tx
  sendRgb : Bool
  postConsignment : Bool
  acceptTransfer : Bool

/-- The checks made under the runtime lock, none of which drops it. -/
def sendassetChecks (args : SendArgs) (calls : SendCalls) : Program Reply := do
  let total ← rgbTotalAmount p calls.assets args.contractId
  orPrint (checkEnough args.amtRgb total) fun _ =>
    if calls.sealValid args.blindedUtxo then pure (.ok ())
    else pure (.error "ERROR: blinded_utxo must be a valid RGB blinded UTXO")

def sendassetInputs (args : SendArgs) (calls : SendCalls) : Program Selection := do
  let owned ← assetOwnedValues calls.assets args.contractId
  let owned ← Task.expect owned.toOption
  Task.expect (selectInputs p args.amtRgb owned.toList)

/-- The change, if any, goes to an uncoloured UTXO, which is marked. -/
def sendassetChange (selected : Selection) : Program Reply :=
  if selected.rgbChangeAmount > 0 then do
    let taken ← takeUncolored
    orPrint taken fun outpoint => do
      Task.note (.placed outpoint)
      pure (.ok ())
  else pure (.ok ())

def sendassetTransfer (selected : Selection) (calls : SendCalls) : Program Reply := do
  Task.lock .wallet
  let params : TxParams := ⟨selected.rgbInputs, [], true⟩
  let tx ← Task.expect (calls.finish params)
  Task.note (.built params tx)
  require calls.sendRgb
  if calls.postConsignment then do
    require calls.acceptTransfer
    Task.unlock .runtime
    Task.unlock .wallet
    pure (.ok ())
  else do
    -- the wallet guard is dropped, the runtime lock is not
    Task.unlock .wallet
    pure (.error "ERROR: unable to post consignment")

def sendasset (words : List Text) (calls : SendCalls) : Program Reply :=
  orPrint (sendassetArgs ids words) fun args => do
    Task.lock .runtime
    let checked ← sendassetChecks p args calls
    orPrint checked fun _ => do
      let selected ← sendassetInputs p args calls
      let change ← sendassetChange selected
      orPrint change fun _ => sendassetTransfer selected calls

end Send

section Refresh

/-- One blinded UTXO file: whether it is consumed, whether the proxy returns its
consignment, and how accepting the transfer ends, `none` for a panic. -/
structure BlindedFile where
  consumed : Bool
  consignment : Bool
  acceptTransfer : Option Validity

def refreshFile (file : BlindedFile) : Program Unit :=
  if file.consumed then pure ()
  else if !file.consignment then pure ()
  else do
    Task.lock .runtime
    let validity ← Task.expect file.acceptTransfer
    Task.unlock .runtime
    if validity = .valid then do
      Task.lock .wallet
      Task.unlock .wallet
    else pure ()

def refresh (files : List BlindedFile) : Program Reply := do
  Task.forEach refreshFile files
  pure (.ok ())

end Refresh

section Channel

structure OpenArgs where
  chanAmtSat : ℕ
  pushAmtMsat : ℕ
  announceChannel : Bool
  rgb : Option (ContractId × ℕ)
  deriving DecidableEq

def announceArg : Option Text → Except String Bool
  | none => .ok false
  | some word =>
    if word = "--public".toList ∨ word = "--public=true".toList then .ok true
    else if word = "--public=false".toList then .ok false
    else .error "ERROR: invalid `--public` command format. Valid formats: `--public`, `--public=true` `--public=false`"

def channelAmountArg (channelValueSat : Text) : Except String ℕ :=
  match parseU64 channelValueSat with
  | .error _ => .error "ERROR: channel amount must be a number"
  | .ok chanAmtSat =>
    if chanAmtSat < OPENCHANNEL_MIN_SAT then
      .error ("ERROR: channel amount must be equal or higher than " ++ toString OPENCHANNEL_MIN_SAT)
    else if chanAmtSat > OPENCHANNEL_MAX_SAT then
      .error ("ERROR: channel amount must be equal or less than " ++ toString OPENCHANNEL_MAX_SAT)
    else .ok chanAmtSat

def pushAmountArg (isColored : Bool) (pushValueMsat : Text) : Except String ℕ :=
  match parseU64 pushValueMsat with
  | .error _ => .error "ERROR: push amount must be a number"
  | .ok pushAmtMsat =>
    if isColored ∧ pushAmtMsat < DUST_LIMIT_MSAT then
      .error ("ERROR: push amount must be equal or higher than the dust limit (" ++
        toString DUST_LIMIT_MSAT ++ ")")
    else .ok pushAmtMsat

def channelRgbArg (contractId chanAmtRgb : Text) : Except String (ContractId × ℕ) :=
  match contractIdArg ids contractId with
  | .error e => .error e
  | .ok contractId =>
    match parseU64 chanAmtRgb with
    | .error _ => .error "ERROR: channel RGB amount must be a number"
    | .ok chanAmtRgb => .ok (contractId, chanAmtRgb)

def openArgs (parsePeerInfo : Text → Except String Unit) (isColored : Bool)
    (peer channelValueSat pushValueMsat : Text) (announceChannel : Bool) :
    Except String OpenArgs := do
  parsePeerInfo peer
  let chanAmtSat ← channelAmountArg channelValueSat
  let pushAmtMsat ← pushAmountArg isColored pushValueMsat
  return ⟨chanAmtSat, pushAmtMsat, announceChannel, none⟩

def openchannelArgs (parsePeerInfo : Text → Except String Unit) (words : List Text) :
    Except String OpenArgs := do
  let announceChannel ← announceArg words[3]?
  match words with
  | peer :: channelValueSat :: pushValueMsat :: _ =>
    openArgs parsePeerInfo false peer channelValueSat pushValueMsat announceChannel
  | _ => .error "ERROR: openchannel has 3 required arguments: `openchannel pubkey@host:port chan_amt_satoshis push_amt_msatoshis` [--public]"

def opencoloredchannelArgs (parsePeerInfo : Text → Except String Unit) (words : List Text) :
    Except String OpenArgs := do
  let announceChannel ← announceArg words[5]?
  match words with
  | peer :: channelValueSat :: pushValueMsat :: contractId :: channelValueRgb :: _ =>
    let args ← openArgs parsePeerInfo true peer channelValueSat pushValueMsat announceChannel
    let rgb ← channelRgbArg ids contractId channelValueRgb
    return { args with rgb := some rgb }
  | _ => .error "ERROR: opencoloredchannel has 5 required arguments: `openchannel pubkey@host:port chan_amt_satoshis push_amt_msatoshis rgb_contract_id chan_amt_rgb` [--public]"

structure OpenCalls where
  parsePeerInfo : Text → Except String Unit
  assets : Assets
  connectPeer : Bool
  createChannel : Except String ChannelId

def openChannel (calls : OpenCalls) : Program Reply :=
  if calls.connectPeer then do
    Task.lock .wallet
    Task.unlock .wallet
    orPrint calls.createChannel fun _ => pure (.ok ())
  else pure (.error "ERROR: failed to connect to peer")

def openchannel (words : List Text) (calls : OpenCalls) : Program Reply :=
  orPrint (openchannelArgs calls.parsePeerInfo words) fun _ => openChannel calls

def opencoloredchannel (words : List Text) (calls : OpenCalls) : Program Reply :=
  orPrint (opencoloredchannelArgs ids calls.parsePeerInfo words) fun args =>
    match args.rgb with
    | none => openChannel calls
    | some (contractId, chanAmtRgb) => do
      let enough ← ensureAssets p calls.assets contractId chanAmtRgb
      orPrint enough fun _ => openChannel calls

end Channel

section Swaps

/-- `makerinit` up to its balance check; what follows takes no lock. -/
def makerinit (fetchPrice : ContractId → Except String ℕ) (words : List Text) (assets : Assets) :
    Program Reply :=
  orPrint (Swap.makerArgs ids fetchPrice words) fun args =>
    orAbort (Swap.makerSwapType p args) fun swaptype =>
      if swaptype.isBuy then ensureAssets p assets args.assetId swaptype.amountRgb
      else pure (.ok ())

/-- `taker` up to its balance check; what follows takes no lock. -/
def taker (now : ℕ) (words : List Text) (assets : Assets) : Program Reply :=
  orAbort (Swap.takerSwapString ids p now words) fun swap =>
    if swap.swapType.isBuy then pure (.ok ())
    else ensureAssets p assets swap.assetId swap.swapType.amountRgb

end Swaps

/-- The commands that take a lock or use the file, with the results of their calls. -/
inductive Command where
  | listunspent
  | getaddress
  | createutxos (calls : CreateUtxosCalls)
  | issueasset (words : List Text) (issueContract : IssueArgs → OutPoint → Option ContractId)
  | receiveasset (storeSealSecret : OutPoint → Bool)
  | assetbalance (words : List Text) (assets : Assets)
  | sendasset (words : List Text) (calls : SendCalls)
  | refresh (files : List BlindedFile)
  | openchannel (words : List Text) (calls : OpenCalls)
  | opencoloredchannel (words : List Text) (calls : OpenCalls)
  | makerinit (fetchPrice : ContractId → Except String ℕ) (words : List Text) (assets : Assets)
  | taker (now : ℕ) (words : List Text) (assets : Assets)
  /-- Any command without locks and without the file. -/
  | other (reply : Reply)

def Command.program : Command → Program Reply
  | listunspent => Node.listunspent
  | getaddress => Node.getaddress
  | createutxos calls => Node.createutxos p calls
  | issueasset words issueContract => Node.issueasset words issueContract
  | receiveasset storeSealSecret => Node.receiveasset storeSealSecret
  | assetbalance words assets => Node.assetbalance ids p words assets
  | sendasset words calls => Node.sendasset ids p words calls
  | refresh files => Node.refresh files
  | openchannel words calls => Node.openchannel words calls
  | opencoloredchannel words calls => Node.opencoloredchannel ids p words calls
  | makerinit fetchPrice words assets => Node.makerinit ids p fetchPrice words assets
  | taker now words assets => Node.taker ids p now words assets
  | other reply => pure reply

section Exec
variable {p} {m : Machine Lock RgbUtxos Note} {calls : SendCalls}

theorem sendassetChecks_exec {args : SendArgs} {t : ℕ} (hwallet : m.held .wallet = false)
    (htotal : getRgbTotalAmount p calls.assets.history calls.assets.unspents args.contractId = some (.ok t))
    (henough : args.amtRgb ≤ t) (hseal : calls.sealValid args.blindedUtxo = true) :
    ∃ m', (sendassetChecks p args calls).exec m = (.returned (.ok ()), m') ∧
      m'.held .wallet = false ∧ m'.cell = m.cell := by
  have hcheck : checkEnough args.amtRgb (.ok t) = .ok () := checkEnough_eq_ok.mpr ⟨t, rfl, henough⟩
  refine ⟨(m.perform (.acquire .wallet)).perform (.release .wallet), ?_, by simp [Machine.perform], rfl⟩
  rw [sendassetChecks, Task.bind_def, rgbTotalAmount_exec_bind hwallet, htotal, Task.exec_expect_bind,
    hcheck, orPrint, if_pos hseal]
  rfl

theorem sendassetInputs_exec {args : SendArgs} {owned : OwnedValues ℕ} {selected : Selection}
    (hwallet : m.held .wallet = false)
    (howned : getAssetOwnedValues calls.assets.history calls.assets.unspents args.contractId = .ok owned)
    (hselected : selectInputs p args.amtRgb owned.toList = some selected) :
    ∃ m', (sendassetInputs p args calls).exec m = (.returned selected, m') ∧ m'.cell = m.cell := by
  refine ⟨(m.perform (.acquire .wallet)).perform (.release .wallet), ?_, rfl⟩
  rw [sendassetInputs, Task.bind_def, assetOwnedValues_exec_bind hwallet, howned, Task.bind_def,
    Except.toOption, Task.exec_expect_bind, hselected]
  rfl

end Exec

end RgbLightning.Node
