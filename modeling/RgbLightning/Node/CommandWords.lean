import RgbLightning.Base.Format
import RgbLightning.Node.CommandLine
import RgbLightning.Swap.Agreement

/-! # The words of a request

Every request has words of its own, as they would be typed, with the numbers in plain
decimal. The requests that can be made are the accepted ones.
-/
namespace RgbLightning.Node
open MachineInt Decimal Split Words HexUtils Payment Swap

def AllWords (words : List Text) : Prop := ∀ w ∈ words, IsWord w

/-- A compressed key that the signature library knows. -/
def Readers.Key (R : Readers) (key : PublicKey) : Prop :=
  R.keys.fromSlice key = some key ∧ key.length = 33

/-- What the libraries guarantee of the texts they read and show. -/
structure Readers.Lawful (R : Readers) : Prop where
  ids : R.ids.RoundTrips
  display_ne : ∀ id, R.ids.display id ≠ []
  key_of_fromSlice : ∀ bytes key, R.keys.fromSlice bytes = some key → R.Key key
  key_of_fromStr : ∀ word key, R.keys.fromStr word = .ok key → R.Key key
  fromStr_hexStr : ∀ key, R.Key key → R.keys.fromStr (hexStr key) = .ok key
  fetchPrice_lt : ∀ id n, R.fetchPrice id = .ok n → n < 2 ^ u64

section Written
variable (R : Readers)

def IssueArgs.words (a : IssueArgs) : List Text :=
  [Nat.toDigits 10 a.amount, a.ticker, a.name, Nat.toDigits 10 a.precision]

def SendArgs.words (a : SendArgs) : List Text :=
  [R.ids.display a.contractId, Nat.toDigits 10 a.amtRgb, a.blindedUtxo]

/-- The contract and the amount at the end of a coloured command. -/
def rgbWords (rgb : Option (ContractId × ℕ)) : List Text :=
  match rgb with
  | none => []
  | some (contractId, amount) => [R.ids.display contractId, Nat.toDigits 10 amount]

def openWords (peer : Text) (a : OpenArgs) : List Text :=
  [peer, Nat.toDigits 10 a.chanAmtSat, Nat.toDigits 10 a.pushAmtMsat] ++ rgbWords R a.rgb ++
    if a.announceChannel then ["--public".toList] else []

def keysendWords (a : KeysendArgs) : List Text :=
  [hexStr a.destPubkey, Nat.toDigits 10 a.amtMsat] ++ rgbWords R a.rgbPayment

def invoiceWords (a : GetInvoiceArgs) : List Text :=
  [Nat.toDigits 10 a.amtMsat, Nat.toDigits 10 a.expirySecs] ++ rgbWords R a.rgb

def makerWords (a : MakerArgs) : List Text :=
  [Nat.toDigits 10 a.amtAsset, R.ids.display a.assetId, a.swaptype, Nat.toDigits 10 a.timeout,
    Nat.toDigits 10 a.price]

/-- An odd digit is read as no byte at all. -/
def dataWord (data : List UInt8) : Text := if data = [] then ['0'] else hexStr data

def OnionArgs.words (a : OnionArgs) : List Text :=
  [[','].intercalate ((a.nodePks ++ [a.destinationPk]).map hexStr), Nat.toDigits 10 a.tlvType,
    dataWord a.data]

namespace Request

def command : Request → CommandName
  | help => .help
  | mine _ => .mine
  | listunspent => .listunspent
  | getaddress => .getaddress
  | createutxos => .createutxos
  | issueasset _ => .issueasset
  | assetbalance _ => .assetbalance
  | sendasset _ => .sendasset
  | receiveasset => .receiveasset
  | refresh => .refresh
  | openchannel _ args => if args.rgb.isSome then .opencoloredchannel else .openchannel
  | sendpayment .. => .sendpayment
  | keysend args => if args.rgbPayment.isSome then .coloredkeysend else .keysend
  | getinvoice args => if args.rgb.isSome then .getcoloredinvoice else .getinvoice
  | connectpeer .. => .connectpeer
  | disconnectpeer _ => .disconnectpeer
  | listchannels => .listchannels
  | makerinit .. => .makerinit
  | taker .. => .taker
  | tradeslist _ => .tradeslist
  | makerexecute .. => .makerexecute
  | listpayments => .listpayments
  | invoicestatus .. => .invoicestatus
  | closechannel .. => .closechannel
  | forceclosechannel .. => .forceclosechannel
  | nodeinfo => .nodeinfo
  | listpeers => .listpeers
  | signmessage _ => .signmessage
  | sendonionmessage _ => .sendonionmessage
  | quit => .quit

/-- The words after the command. -/
def args : Request → List Text
  | mine numBlocks => [Nat.toDigits 10 numBlocks]
  | issueasset args => args.words
  | assetbalance contractId => [R.ids.display contractId]
  | sendasset args => args.words R
  | openchannel peer args => openWords R peer args
  | sendpayment invoiceStr _ => [invoiceStr]
  | keysend args => keysendWords R args
  | getinvoice args => invoiceWords R args
  | connectpeer peer _ => [peer]
  | disconnectpeer peerPubkey => [hexStr peerPubkey]
  | makerinit args _ => makerWords R args
  | taker swapstring _ => [swapstring]
  | tradeslist filter => filter.toList
  | makerexecute swapstring args => [swapstring, hexStr args.paymentSecret.val, hexStr args.peerPubkey]
  | invoicestatus invoiceStr _ => [invoiceStr]
  | closechannel channelId peerPubkey => [hexStr channelId.val, hexStr peerPubkey]
  | forceclosechannel channelId peerPubkey => [hexStr channelId.val, hexStr peerPubkey]
  | sendonionmessage args => args.words
  | _ => []

/-- The line of a request, as it would be typed. -/
def line : Request → Text
  | signmessage line => line
  | r => [' '].intercalate (r.command.word :: r.args R) ++ ['\n']

end Request

end Written

section Accepted
variable (R : Readers)

def IssueArgs.Accepted (a : IssueArgs) : Prop :=
  a.amount < 2 ^ u64 ∧ (IsWord a.ticker ∧ isAscii a.ticker) ∧ (IsWord a.name ∧ isAscii a.name) ∧
    a.precision < 2 ^ 8

def OpenArgs.Accepted (a : OpenArgs) : Prop :=
  (OPENCHANNEL_MIN_SAT ≤ a.chanAmtSat ∧ a.chanAmtSat ≤ OPENCHANNEL_MAX_SAT) ∧ a.pushAmtMsat < 2 ^ u64 ∧
    ∀ rgb, a.rgb = some rgb → DUST_LIMIT_MSAT ≤ a.pushAmtMsat ∧ rgb.2 < 2 ^ u64

def keysendAccepted (a : KeysendArgs) : Prop :=
  R.Key a.destPubkey ∧ a.amtMsat < 2 ^ u64 ∧
    ∀ rgb, a.rgbPayment = some rgb → HTLC_MIN_MSAT ≤ a.amtMsat ∧ rgb.2 < 2 ^ u64

def invoiceAccepted (a : GetInvoiceArgs) : Prop :=
  (INVOICE_MIN_MSAT ≤ a.amtMsat ∧ a.amtMsat < 2 ^ u64) ∧ a.expirySecs < 2 ^ u32 ∧
    ∀ rgb, a.rgb = some rgb → rgb.2 < 2 ^ u64

def makerAccepted (a : MakerArgs) : Prop :=
  (a.amtAsset ≠ 0 ∧ a.amtAsset < 2 ^ u64) ∧ IsWord a.swaptype ∧
    (a.timeout ≠ 0 ∧ a.timeout < 2 ^ u32) ∧ (a.price ≠ 0 ∧ a.price < 2 ^ u64)

def OnionArgs.Accepted (a : OnionArgs) : Prop :=
  (∀ key ∈ a.nodePks ++ [a.destinationPk], R.Key key) ∧ 64 ≤ a.tlvType ∧ a.tlvType < 2 ^ u64

/-- A line with its terminator. -/
def Terminated (line : Text) : Prop := ∃ l, '\n' ∉ l ∧ line = l ++ ['\n']

/-- The requests that a line can make. -/
def Request.Accepted : Request → Prop
  | mine numBlocks => R.network = .regtest ∧ numBlocks < 2 ^ u16
  | issueasset args => args.Accepted
  | sendasset args => args.amtRgb < 2 ^ u64 ∧ IsWord args.blindedUtxo
  | openchannel peer args => IsWord peer ∧
      (∃ info, parsePeerInfo R.keys R.parseSocketAddr R.lookup peer = .ok info) ∧ args.Accepted
  | sendpayment invoiceStr invoice => IsWord invoiceStr ∧ R.parseInvoice invoiceStr = .ok invoice ∧
      ∃ amtMsat, invoice.amountMilliSatoshis = some amtMsat ∧ INVOICE_MIN_MSAT ≤ amtMsat
  | keysend args => keysendAccepted R args
  | getinvoice args => invoiceAccepted args
  | connectpeer peer info => IsWord peer ∧
      parsePeerInfo R.keys R.parseSocketAddr R.lookup peer = .ok info
  | disconnectpeer peerPubkey => R.Key peerPubkey
  | makerinit args swaptype => makerAccepted args ∧ makerSwapType R.profile args = .ok swaptype
  | taker swapstring swap => IsWord swapstring ∧ Swap.fromStr R.ids R.profile swapstring = .ok swap ∧
      R.now ≤ swap.expiry
  | tradeslist filter => ∀ word, filter = some word → IsWord word
  | makerexecute swapstring args => IsWord swapstring ∧
      Swap.fromStr R.ids R.profile swapstring = .ok args.swapString ∧
      R.now ≤ args.swapString.expiry ∧ R.Key args.peerPubkey
  | invoicestatus invoiceStr invoice => IsWord invoiceStr ∧ R.parseInvoice invoiceStr = .ok invoice
  | closechannel _ peerPubkey => R.Key peerPubkey
  | forceclosechannel _ peerPubkey => R.Key peerPubkey
  | signmessage line => Terminated line ∧ MSG_STARTPOS < (utf8 line).length ∧
      (splitWhitespace line).head? = some signmessageWord
  | sendonionmessage args => args.Accepted R
  | _ => True

end Accepted

section Words
variable {R : Readers}

@[simp] theorem allWords_nil : AllWords [] := by simp [AllWords]

@[simp] theorem allWords_cons {w : Text} {words : List Text} :
    AllWords (w :: words) ↔ IsWord w ∧ AllWords words := by
  simp [AllWords]

@[simp] theorem allWords_append {ws words : List Text} :
    AllWords (ws ++ words) ↔ AllWords ws ∧ AllWords words := by
  simp [AllWords, or_imp, forall_and]

theorem isWord_hexStr {bytes : List UInt8} (h : bytes ≠ []) : IsWord (hexStr bytes) := by
  refine ⟨?_, fun c hc => (hexStr_clean hc).1⟩
  cases bytes with
  | nil => exact absurd rfl h
  | cons b bytes => exact List.cons_ne_nil _ _

theorem isWord_hexStr_bytes32 (v : Bytes32) : IsWord (hexStr v.val) := by
  apply isWord_hexStr
  rintro h
  simpa [h] using v.property

theorem Readers.Key.isWord {key : PublicKey} (h : R.Key key) : IsWord (hexStr key) := by
  apply isWord_hexStr
  rintro rfl
  exact absurd h.2 (by decide)

theorem Readers.Key.toCompressedPubkey {key : PublicKey} (h : R.Key key) :
    toCompressedPubkey R.keys (hexStr key) = some key := by
  have hlength : (hexStr key).length = 33 * 2 := by rw [hexStr_length, h.2]
  rw [Payment.toCompressedPubkey, if_pos hlength, toVec_hexStr]
  exact h.1

theorem Readers.Lawful.isWord_display (hR : R.Lawful) (id : ContractId) : IsWord (R.ids.display id) :=
  ⟨hR.display_ne id, fun c hc => (hR.ids.display_clean id c hc).1⟩

theorem Readers.Lawful.allWords_rgbWords (hR : R.Lawful) (rgb : Option (ContractId × ℕ)) :
    AllWords (rgbWords R rgb) := by
  cases rgb with
  | none => exact allWords_nil
  | some rgb => simp [rgbWords, hR.isWord_display, isWord_toDigits]

theorem parseU64_toDigits {n : ℕ} (h : n < 2 ^ u64) : parseU64 (Nat.toDigits 10 n) = .ok n :=
  parseUnsigned_toDigits h

end Words

end RgbLightning.Node
