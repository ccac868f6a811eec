import RgbLightning.Startup.RpcAuth

/-! # The command line of the node

Arguments are read by position. The port for peers is recognised by being a number,
and everything after it moves by one place when it is missing.
-/
namespace RgbLightning.Startup
open Decimal Split Node

/-- Addresses are read and shown by the standard library. -/
structure IpAddrText where
  fromStr : Text → Option IpAddr
  display : IpAddr → Text

inductive NetAddress where
  | ipv4 (addr : {v : List UInt8 // v.length = 4}) (port : ℕ)
  | ipv6 (addr : {v : List UInt8 // v.length = 16}) (port : ℕ)
  deriving DecidableEq

/-- An announced address, with the port peers connect to. -/
def netAddress (port : ℕ) : IpAddr → NetAddress
  | .v4 octets => .ipv4 octets port
  | .v6 octets => .ipv6 octets port

structure LdkUserInfo where
  bitcoindRpcUsername : Text
  bitcoindRpcPassword : Text
  bitcoindRpcPort : ℕ
  bitcoindRpcHost : Text
  ldkStorageDirPath : Text
  ldkPeerListeningPort : ℕ
  ldkAnnouncedListenAddr : List NetAddress
  ldkAnnouncedNodeName : Bytes32
  network : Network
  deriving DecidableEq

/-- A text of at most 32 bytes, filled up with zeros. -/
def zeroPadded (s : Text) (h : (utf8 s).length ≤ 32) : Bytes32 :=
  ⟨utf8 s ++ List.replicate (32 - (utf8 s).length) 0, by
    rw [List.length_append, List.length_replicate]
    omega⟩

section Parts

/-- The host and the port; a port that is no number is a panic. -/
def bitcoindRpcPath (path : Text) : Outcome (Text × ℕ) :=
  match path.splitOn ':' with
  | [host, port] =>
    match parseU16 port with
    | .ok port => .ok (host, port)
    | .error _ => .abort
  | _ => .err "ERROR: bad bitcoind RPC path provided"

/-- Whether the port for peers is given, and the port. -/
def peerListeningPort : Option Text → Bool × ℕ
  | some p =>
    match parseU16 p with
    | .ok p => (true, p)
    | .error _ => (false, 9735)
  | none => (false, 9735)

def networkArg : Option Text → Outcome Network
  | some net =>
    if net = "testnet".toList then .ok .testnet
    else if net = "regtest".toList then .ok .regtest
    else if net = "signet".toList then .ok .signet
    else .abort
  | none => .ok .testnet

/-- The announced name, and the index moved past it if there is one. -/
def announcedNodeName (argIdx : ℕ) : Option Text → Outcome (Bytes32 × ℕ)
  | some s => if h : (utf8 s).length ≤ 32 then .ok (zeroPadded s h, argIdx + 1) else .abort
  | none => .ok (Bytes32.fill 0, argIdx)

variable (ips : IpAddrText)

/-- The loop over the announced addresses, with those read so far. -/
def announcedListenAddrs (port : ℕ) (args : List Text) (addrs : List NetAddress) (argIdx : ℕ) :
    Outcome (List NetAddress) :=
  match _ : args[argIdx + 1]? with
  | none => .ok addrs
  | some s =>
    match ips.fromStr s with
    | some ip => announcedListenAddrs port args (addrs ++ [netAddress port ip]) (argIdx + 1)
    | none => .abort
termination_by args.length - argIdx
decreasing_by
  obtain ⟨hlength, -⟩ := List.getElem?_eq_some_iff.mp ‹args[argIdx + 1]? = some _›
  omega

end Parts

def usage : String :=
  "rgb-lightning-sample requires at least 3 arguments: `cargo run [<bitcoind-rpc-username>:<bitcoind-rpc-password>@]<bitcoind-rpc-host>:<bitcoind-rpc-port> ldk_storage_directory_path [<ldk-incoming-peer-listening-port>] [bitcoin-network] [announced-node-name announced-listen-addr*]`"

variable (env : Environment) (ips : IpAddrText)

/-- The arguments include the name of the program. -/
def parseStartupArgs (args : List Text) : Outcome LdkUserInfo :=
  if args.length < 4 then .err usage
  else
    (Outcome.ofOption args[1]?).bind fun bitcoindRpcInfo =>
    let parts := bitcoindRpcInfoParts bitcoindRpcInfo
    (Outcome.ofOption parts[0]?).bind fun path =>
    (bitcoindRpcPath path).bind fun rpcPath =>
    (Outcome.ofOption args[2]?).bind fun ldkStorageDirPath =>
    let (peerPortSet, peerPort) := peerListeningPort args[3]?
    let argIdx := if peerPortSet then 4 else 3
    (networkArg args[argIdx]?).bind fun network =>
    (Outcome.ofExcept (bitcoindRpcAuth env network parts)).bind fun auth =>
    (announcedNodeName argIdx args[argIdx + 1]?).bind fun name =>
    (announcedListenAddrs ips peerPort args [] name.2).bind fun addrs =>
    .ok {
      bitcoindRpcUsername := auth.1
      bitcoindRpcPassword := auth.2
      bitcoindRpcPort := rpcPath.2
      bitcoindRpcHost := rpcPath.1
      ldkStorageDirPath := ldkStorageDirPath
      ldkPeerListeningPort := peerPort
      ldkAnnouncedListenAddr := addrs
      ldkAnnouncedNodeName := name.1
      network := network }

section Reading
variable {env ips} {args : List Text}

theorem announcedListenAddrs_none {port argIdx : ℕ} {addrs : List NetAddress}
    (harg : args[argIdx + 1]? = none) : announcedListenAddrs ips port args addrs argIdx = .ok addrs := by
  unfold announcedListenAddrs
  split
  · rfl
  · rename_i s hs
    rw [hs] at harg
    cases harg

theorem announcedListenAddrs_some {port argIdx : ℕ} {addrs : List NetAddress} {s : Text} {ip : IpAddr}
    (harg : args[argIdx + 1]? = some s) (hip : ips.fromStr s = some ip) :
    announcedListenAddrs ips port args addrs argIdx =
      announcedListenAddrs ips port args (addrs ++ [netAddress port ip]) (argIdx + 1) := by
  rw [announcedListenAddrs]
  split
  · rename_i hs
    rw [hs] at harg
    cases harg
  · rename_i s' hs
    rw [hs] at harg
    cases harg
    rw [hip]

/-- The loop reads the addresses that follow the index, and ends where they end. -/
theorem announcedListenAddrs_display (port : ℕ) {listen : List IpAddr}
    (hips : ∀ ip ∈ listen, ips.fromStr (ips.display ip) = some ip) {argIdx : ℕ}
    (hargs : args.drop (argIdx + 1) = listen.map ips.display) (addrs : List NetAddress) :
    announcedListenAddrs ips port args addrs argIdx =
      .ok (addrs ++ listen.map (netAddress port)) := by
  induction listen generalizing argIdx addrs with
  | nil =>
    have hnone : args[argIdx + 1]? = none := by
      rw [List.getElem?_eq_none_iff]
      exact List.drop_eq_nil_iff.mp hargs
    rw [announcedListenAddrs_none hnone]
    simp
  | cons ip listen ih =>
    have hhead : args[argIdx + 1]? = some (ips.display ip) := by
      rw [← List.head?_drop, hargs]
      rfl
    have htail : args.drop (argIdx + 1 + 1) = listen.map ips.display := by
      rw [← List.tail_drop, hargs]
      rfl
    have hrest := ih (fun ip hip => hips ip (List.mem_cons_of_mem _ hip)) htail
    rw [announcedListenAddrs_some hhead (hips ip (List.mem_cons_self ..)), hrest]
    simp

/-- The credentials of a node that starts are those of its first argument. -/
theorem rpcAuth_of_parseStartupArgs {info : LdkUserInfo}
    (h : parseStartupArgs env ips args = .ok info) :
    ∃ arg, args[1]? = some arg ∧ bitcoindRpcAuth env info.network (bitcoindRpcInfoParts arg) =
      .ok (info.bitcoindRpcUsername, info.bitcoindRpcPassword) := by
  unfold parseStartupArgs at h
  split at h
  · cases h
  · obtain ⟨arg, harg, h⟩ := Outcome.bind_eq_ok.mp h
    obtain ⟨path, -, h⟩ := Outcome.bind_eq_ok.mp h
    obtain ⟨rpcPath, -, h⟩ := Outcome.bind_eq_ok.mp h
    obtain ⟨dir, -, h⟩ := Outcome.bind_eq_ok.mp h
    obtain ⟨network, -, h⟩ := Outcome.bind_eq_ok.mp h
    obtain ⟨auth, hauth, h⟩ := Outcome.bind_eq_ok.mp h
    obtain ⟨name, -, h⟩ := Outcome.bind_eq_ok.mp h
    obtain ⟨addrs, -, h⟩ := Outcome.bind_eq_ok.mp h
    cases h
    exact ⟨arg, Outcome.ofOption_eq_ok.mp harg, Outcome.ofExcept_eq_ok.mp hauth⟩

end Reading

end RgbLightning.Startup
