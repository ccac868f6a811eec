import RgbLightning.Base.Outcome

/-! # Identifiers and records shared by the command line and the event handler -/
namespace RgbLightning
open MachineInt Decimal

/-- Hashes and identifiers are exactly 32 bytes. -/
abbrev Bytes32 := {v : List UInt8 // v.length = 32}

abbrev Txid := Bytes32
abbrev ContractId := Bytes32
abbrev PaymentHash := Bytes32
abbrev PaymentSecret := Bytes32
abbrev ChannelId := Bytes32

/-- The identifier whose bytes all equal `b`. -/
def Bytes32.fill (b : UInt8) : Bytes32 := ⟨List.replicate 32 b, List.length_replicate⟩

structure OutPoint where
  txid : Txid
  vout : ℕ
  deriving DecidableEq

structure RgbUtxo where
  outpoint : OutPoint
  colored : Bool
  deriving DecidableEq

/-- The RGB side of a channel, as its info file stores it. -/
structure RgbInfo where
  contractId : ContractId
  localRgbAmount : ℕ
  remoteRgbAmount : ℕ
  deriving DecidableEq

inductive Error where
  | noAvailableUtxos
  | unknownContractId
  deriving DecidableEq, Repr

def Error.message : Error → String
  | .noAvailableUtxos => "ERROR: no uncolored UTXOs are available (hint: call createutxos)"
  | .unknownContractId => "ERROR: unknown RGB contract ID"

/-- Amounts, prices and timestamps are `u64`. -/
abbrev u64 : ℕ := 64
abbrev u32 : ℕ := 32

/-- Ports are `u16`. -/
abbrev u16 : ℕ := 16

def HTLC_MIN_MSAT : ℕ := 3000000

def parseU64 (s : Text) : Except ParseIntError ℕ := parseUnsigned u64 s
def parseU32 (s : Text) : Except ParseIntError ℕ := parseUnsigned u32 s
def parseU16 (s : Text) : Except ParseIntError ℕ := parseUnsigned u16 s

/-- Contract identifiers are read and shown by the asset library. -/
structure ContractIdText where
  fromStr : Text → Option ContractId
  display : ContractId → Text

inductive IpAddr where
  | v4 (octets : {v : List UInt8 // v.length = 4})
  | v6 (octets : {v : List UInt8 // v.length = 16})
  deriving DecidableEq

structure SocketAddr where
  ip : IpAddr
  port : ℕ
  deriving DecidableEq

namespace Node

inductive Network where
  | bitcoin
  | testnet
  | regtest
  | signet
  deriving DecidableEq

namespace Network

/-- The name bitcoind has for a network. -/
def chain : Network → String
  | bitcoin => "main"
  | testnet => "test"
  | regtest => "regtest"
  | signet => "signet"

def display : Network → String
  | bitcoin => "bitcoin"
  | testnet => "testnet"
  | regtest => "regtest"
  | signet => "signet"

def supported : Network → Bool
  | testnet | regtest => true
  | bitcoin | signet => false

end Network

end Node

end RgbLightning
