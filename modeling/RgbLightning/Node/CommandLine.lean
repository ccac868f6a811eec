import RgbLightning.Node.ChannelPeers
import RgbLightning.Node.Commands
import RgbLightning.Node.HexIdentifiers
import RgbLightning.Node.SignMessage
import RgbLightning.Payment.Inbound

/-! # The command line

The input loop reads a line, looks for the command its first word names and hands over
what the other words are read as. Words beyond the arguments are ignored.
-/
namespace RgbLightning.Node
open MachineInt Decimal Split Words HexUtils Payment Swap

/-- What the arguments are read with at the time of a line. -/
structure Readers where
  ids : ContractIdText
  keys : PublicKeyText
  parseSocketAddr : Text → Option SocketAddr
  lookup : HostLookup
  parseInvoice : Text → Except String Invoice
  fetchPrice : ContractId → Except String ℕ
  network : Network
  profile : Profile
  now : ℕ

inductive CommandName where
  | help | mine | listunspent | getaddress | createutxos | issueasset | assetbalance | sendasset
  | receiveasset | refresh | openchannel | opencoloredchannel | sendpayment | keysend
  | coloredkeysend | getinvoice | getcoloredinvoice | connectpeer | disconnectpeer | listchannels
  | makerinit | taker | tradeslist | makerexecute | listpayments | invoicestatus | closechannel
  | forceclosechannel | nodeinfo | listpeers | signmessage | sendonionmessage | quit | exit
  deriving DecidableEq

namespace CommandName

/-- The arms of the match, in order. -/
def all : List CommandName :=
  [help, mine, listunspent, getaddress, createutxos, issueasset, assetbalance, sendasset, receiveasset,
    refresh, openchannel, opencoloredchannel, sendpayment, keysend, coloredkeysend, getinvoice,
    getcoloredinvoice, connectpeer, disconnectpeer, listchannels, makerinit, taker, tradeslist,
    makerexecute, listpayments, invoicestatus, closechannel, forceclosechannel, nodeinfo, listpeers,
    signmessage, sendonionmessage, quit, exit]

def word : CommandName → Text
  | help => "help".toList
  | mine => "mine".toList
  | listunspent => "listunspent".toList
  | getaddress => "getaddress".toList
  | createutxos => "createutxos".toList
  | issueasset => "issueasset".toList
  | assetbalance => "assetbalance".toList
  | sendasset => "sendasset".toList
  | receiveasset => "receiveasset".toList
  | refresh => "refresh".toList
  | openchannel => "openchannel".toList
  | opencoloredchannel => "opencoloredchannel".toList
  | sendpayment => "sendpayment".toList
  | keysend => "keysend".toList
  | coloredkeysend => "coloredkeysend".toList
  | getinvoice => "getinvoice".toList
  | getcoloredinvoice => "getcoloredinvoice".toList
  | connectpeer => "connectpeer".toList
  | disconnectpeer => "disconnectpeer".toList
  | listchannels => "listchannels".toList
  | makerinit => "makerinit".toList
  | taker => "taker".toList
  | tradeslist => "tradeslist".toList
  | makerexecute => "makerexecute".toList
  | listpayments => "listpayments".toList
  | invoicestatus => "invoicestatus".toList
  | closechannel => "closechannel".toList
  | forceclosechannel => "forceclosechannel".toList
  | nodeinfo => "nodeinfo".toList
  | listpeers => "listpeers".toList
  | signmessage => signmessageWord
  | sendonionmessage => "sendonionmessage".toList
  | quit => "quit".toList
  | exit => "exit".toList

def ofWord (word : Text) : Option CommandName := all.find? fun c => c.word = word

end CommandName

section Arguments

def mineArgs (network : Network) (words : List Text) : Except String ℕ :=
  if network ≠ .regtest then .error "ERROR: mine command is available only on regtest"
  else match words with
    | [] => .error "ERROR: mine has 1 required argument: `mine num_blocks`"
    | numBlocks :: _ =>
      match parseU16 numBlocks with
      | .error _ => .error "ERROR: num_blocks must be a number"
      | .ok numBlocks => .ok numBlocks

variable (R : Readers)

/-- The error of `parse_peer_info` is shown as it is debugged, in quotation marks. -/
def peerInfoArg (peerPubkeyAndIpAddr : Text) : Except String (PublicKey × SocketAddr) :=
  match parsePeerInfo R.keys R.parseSocketAddr R.lookup peerPubkeyAndIpAddr with
  | .ok info => .ok info
  | .error e => .error ("\"" ++ e ++ "\"")

def peerCheck (peer : Text) : Except String Unit := (peerInfoArg R peer).map fun _ => ()

/-- The peer is kept as it was typed, since it is stored that way. -/
def openArgsWithPeer (isColored : Bool) (words : List Text) : Except String (Text × OpenArgs) :=
  (if isColored then opencoloredchannelArgs R.ids (peerCheck R) words
    else openchannelArgs (peerCheck R) words).map fun args => (words.head?.getD [], args)

def invoiceArg (invoiceStr : Text) : Except String (Text × Invoice) :=
  match R.parseInvoice invoiceStr with
  | .error e => .error ("ERROR: invalid invoice: " ++ e)
  | .ok invoice => .ok (invoiceStr, invoice)

def sendpaymentArgs : List Text → Except String (Text × Invoice)
  | [] => .error "ERROR: sendpayment requires an invoice: `sendpayment <invoice>`"
  | invoiceStr :: _ =>
    match invoiceArg R invoiceStr with
    | .error e => .error e
    | .ok (invoiceStr, invoice) =>
      match invoice.amountMilliSatoshis with
      | none => .error "ERROR: msat amount missing in invoice"
      | some amtMsat =>
        if amtMsat < INVOICE_MIN_MSAT then
          .error ("ERROR: msat amount in invoice cannot be less than " ++ toString INVOICE_MIN_MSAT)
        else .ok (invoiceStr, invoice)

def invoicestatusArgs : List Text → Except String (Text × Invoice)
  | [] => .error "ERROR: invoicestatus requires an invoice: `invoicestatus <invoice>`"
  | invoiceStr :: _ => invoiceArg R invoiceStr

def connectpeerArgs : List Text → Except String (Text × PublicKey × SocketAddr)
  | [] => .error "ERROR: connectpeer requires peer connection info: `connectpeer pubkey@host:port`"
  | peer :: _ => (peerInfoArg R peer).map fun info => (peer, info)

def disconnectpeerArgs : List Text → Except String PublicKey
  | [] => .error "ERROR: disconnectpeer requires peer public key: `disconnectpeer <peer_pubkey>`"
  | peerPubkey :: _ =>
    match R.keys.fromStr peerPubkey with
    | .error e => .error ("ERROR: " ++ e)
    | .ok peerPubkey => .ok peerPubkey

def makerinitArgs (words : List Text) : Outcome (MakerArgs × SwapType) :=
  (Outcome.ofExcept (makerArgs R.ids R.fetchPrice words)).bind fun args =>
    (makerSwapType R.profile args).bind fun swaptype => .ok (args, swaptype)

def takerArgs (words : List Text) : Outcome (Text × SwapString) :=
  (takerSwapString R.ids R.profile R.now words).bind fun swap => .ok (words.head?.getD [], swap)

def executeArgs (words : List Text) : Outcome (Text × ExecuteArgs) :=
  (makerexecuteArgs R.ids R.keys R.profile R.now words).bind fun args => .ok (words.head?.getD [], args)

structure OnionArgs where
  nodePks : List PublicKey
  destinationPk : PublicKey
  tlvType : ℕ
  data : List UInt8
  deriving DecidableEq

def onionPath (pathPksStr : Text) : Except String (List PublicKey) :=
  (pathPksStr.splitOn ',').mapM fun pkStr =>
    match (toVec pkStr).bind R.keys.fromSlice with
    | none => .error "ERROR: couldn't parse peer_pubkey"
    | some nodePubkey => .ok nodePubkey

/-- The types up to 64 belong to the protocol, 64 itself is let through. -/
def tlvTypeArg (word : Option Text) : Except String ℕ :=
  match word.map parseU64 with
  | some (.ok ty) => if ty ≥ 64 then .ok ty else .error "Need an integral message type above 64"
  | _ => .error "Need an integral message type above 64"

def dataArg (word : Option Text) : Except String (List UInt8) :=
  match word.map toVec with
  | some (some data) => .ok data
  | _ => .error "Need a hex data string"

def onionArgs : List Text → Outcome OnionArgs
  | [] => .err "ERROR: sendonionmessage requires at least one node id for the path"
  | pathPksStr :: words =>
    (Outcome.ofExcept (onionPath R pathPksStr)).bind fun nodePks =>
      (Outcome.ofExcept (tlvTypeArg words[0]?)).bind fun tlvType =>
        (Outcome.ofExcept (dataArg words[1]?)).bind fun data =>
          (Outcome.ofOption nodePks.getLast?).bind fun destinationPk =>
            .ok ⟨nodePks.dropLast, destinationPk, tlvType, data⟩

end Arguments

/-- What a line asks the node to do. -/
inductive Request where
  | help
  | mine (numBlocks : ℕ)
  | listunspent
  | getaddress
  | createutxos
  | issueasset (args : IssueArgs)
  | assetbalance (contractId : ContractId)
  | sendasset (args : SendArgs)
  | receiveasset
  | refresh
  | openchannel (peer : Text) (args : OpenArgs)
  | sendpayment (invoiceStr : Text) (invoice : Invoice)
  | keysend (args : KeysendArgs)
  | getinvoice (args : GetInvoiceArgs)
  | connectpeer (peer : Text) (info : PublicKey × SocketAddr)
  | disconnectpeer (peerPubkey : PublicKey)
  | listchannels
  | makerinit (args : MakerArgs) (swaptype : SwapType)
  | taker (swapstring : Text) (swap : SwapString)
  | tradeslist (filter : Option Text)
  | makerexecute (swapstring : Text) (args : ExecuteArgs)
  | listpayments
  | invoicestatus (invoiceStr : Text) (invoice : Invoice)
  | closechannel (channelId : ChannelId) (peerPubkey : PublicKey)
  | forceclosechannel (channelId : ChannelId) (peerPubkey : PublicKey)
  | nodeinfo
  | listpeers
  /-- The message is cut from the whole line. -/
  | signmessage (line : Text)
  | sendonionmessage (args : OnionArgs)
  | quit
  deriving DecidableEq

section Loop
variable (R : Readers) (line : Text) (words : List Text)

/-- The arm of a command; the words are those after its name. -/
def CommandName.request : CommandName → Outcome Request
  | help => .ok .help
  | mine => (Outcome.ofExcept (mineArgs R.network words)).bind fun n => .ok (.mine n)
  | listunspent => .ok .listunspent
  | getaddress => .ok .getaddress
  | createutxos => .ok .createutxos
  | issueasset => (Outcome.ofExcept (issueArgs words)).bind fun args => .ok (.issueasset args)
  | assetbalance => (Outcome.ofExcept (assetbalanceArgs R.ids words)).bind fun id => .ok (.assetbalance id)
  | sendasset => (Outcome.ofExcept (sendassetArgs R.ids words)).bind fun args => .ok (.sendasset args)
  | receiveasset => .ok .receiveasset
  | refresh => .ok .refresh
  | openchannel => (Outcome.ofExcept (openArgsWithPeer R false words)).bind fun (peer, args) =>
      .ok (.openchannel peer args)
  | opencoloredchannel => (Outcome.ofExcept (openArgsWithPeer R true words)).bind fun (peer, args) =>
      .ok (.openchannel peer args)
  | sendpayment => (Outcome.ofExcept (sendpaymentArgs R words)).bind fun (invoiceStr, invoice) =>
      .ok (.sendpayment invoiceStr invoice)
  | keysend => (Outcome.ofExcept (keysendArgs R.keys R.ids false words)).bind fun args => .ok (.keysend args)
  | coloredkeysend => (Outcome.ofExcept (keysendArgs R.keys R.ids true words)).bind fun args =>
      .ok (.keysend args)
  | getinvoice => (Outcome.ofExcept (getinvoiceArgs words)).bind fun args => .ok (.getinvoice args)
  | getcoloredinvoice => (Outcome.ofExcept (getcoloredinvoiceArgs R.ids words)).bind fun args =>
      .ok (.getinvoice args)
  | connectpeer => (Outcome.ofExcept (connectpeerArgs R words)).bind fun (peer, info) =>
      .ok (.connectpeer peer info)
  | disconnectpeer => (Outcome.ofExcept (disconnectpeerArgs R words)).bind fun pk => .ok (.disconnectpeer pk)
  | listchannels => .ok .listchannels
  | makerinit => (makerinitArgs R words).bind fun (args, swaptype) => .ok (.makerinit args swaptype)
  | taker => (takerArgs R words).bind fun (swapstring, swap) => .ok (.taker swapstring swap)
  | tradeslist => .ok (.tradeslist words.head?)
  | makerexecute => (executeArgs R words).bind fun (swapstring, args) => .ok (.makerexecute swapstring args)
  | listpayments => .ok .listpayments
  | invoicestatus => (Outcome.ofExcept (invoicestatusArgs R words)).bind fun (invoiceStr, invoice) =>
      .ok (.invoicestatus invoiceStr invoice)
  | closechannel => (Outcome.ofExcept (closechannelArgs R.keys words)).bind fun (id, pk) =>
      .ok (.closechannel id pk)
  | forceclosechannel => (Outcome.ofExcept (forceclosechannelArgs R.keys words)).bind fun (id, pk) =>
      .ok (.forceclosechannel id pk)
  | nodeinfo => .ok .nodeinfo
  | listpeers => .ok .listpeers
  | signmessage => (Outcome.ofExcept (Node.signmessage line)).bind fun _ => .ok (.signmessage line)
  | sendonionmessage => (onionArgs R words).bind fun args => .ok (.sendonionmessage args)
  | quit => .ok .quit
  | exit => .ok .quit

/-- One turn of the input loop. -/
inductive LineTurn where
  | ended
  | blank
  | unknown
  | printed (message : String)
  | aborted
  | request (r : Request)
  deriving DecidableEq

def lineTurn : LineTurn :=
  if line.length = 0 then .ended
  else match splitWhitespace line with
    | [] => .blank
    | word :: words =>
      match CommandName.ofWord word with
      | none => .unknown
      | some command =>
        match command.request R line words with
        | .ok r => .request r
        | .err e => .printed e
        | .abort => .aborted

end Loop

/-- The lines of the input with their terminators, where the first has begun with `line`. -/
def inputLinesFrom : Text → Text → List Text
  | line, [] => if line = [] then [] else [line]
  | line, c :: s =>
    if c = '\n' then (line ++ [c]) :: inputLinesFrom [] s else inputLinesFrom (line ++ [c]) s

def inputLines (stdin : Text) : List Text := inputLinesFrom [] stdin

/-- The loop over the lines, until it is left or the process aborts. -/
def inputLoop (R : ℕ → Readers) : ℕ → List Text → List LineTurn
  | _, [] => [.ended]
  | k, line :: lines =>
    match lineTurn (R k) line with
    | .request .quit => [.request .quit]
    | .aborted => [.aborted]
    | turn => turn :: inputLoop R (k + 1) lines

end RgbLightning.Node
