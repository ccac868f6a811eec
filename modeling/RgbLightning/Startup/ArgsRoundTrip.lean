import RgbLightning.Startup.Args
import RgbLightning.Startup.CredentialSources

/-! # Configurations on the command line -/
namespace RgbLightning.Startup
open Decimal Split Node

/-- A name and the addresses announced under it. -/
structure Announcement where
  name : Text
  name_fits : (utf8 name).length ≤ 32
  listen : List IpAddr

/-- What the documented command line can express. -/
structure StartupConfig where
  rpcUser : Text
  rpcPassword : Text
  auth_clean : ':' ∉ rpcUser ∧ ':' ∉ rpcPassword
  rpcHost : Text
  host_clean : ':' ∉ rpcHost ∧ '@' ∉ rpcHost
  rpcPort : ℕ
  rpcPort_lt : rpcPort < 2 ^ u16
  storageDir : Text
  peerPort : Option ℕ
  peerPort_lt : ∀ port ∈ peerPort, port < 2 ^ u16
  network : Network
  network_listed : network ≠ .bitcoin
  announced : Option Announcement

namespace StartupConfig
variable (ips : IpAddrText) (config : StartupConfig)

def announcedArgs : Option Announcement → List Text
  | some a => a.name :: a.listen.map ips.display
  | none => []

/-- The arguments in their documented order, behind the name of the program. -/
def commandLine (program : Text) : List Text :=
  program :: rpcArgument config.rpcUser config.rpcPassword config.rpcHost (Nat.toDigits 10 config.rpcPort) ::
    config.storageDir :: (config.peerPort.map (Nat.toDigits 10)).toList ++
      config.network.display.toList :: announcedArgs ips config.announced

def listeningPort : ℕ := config.peerPort.getD 9735

def nodeName : Bytes32 :=
  match config.announced with
  | some a => zeroPadded a.name a.name_fits
  | none => Bytes32.fill 0

def listenIps : List IpAddr :=
  match config.announced with
  | some a => a.listen
  | none => []

/-- The configuration as the program holds it. -/
def userInfo : LdkUserInfo where
  bitcoindRpcUsername := config.rpcUser
  bitcoindRpcPassword := config.rpcPassword
  bitcoindRpcPort := config.rpcPort
  bitcoindRpcHost := config.rpcHost
  ldkStorageDirPath := config.storageDir
  ldkPeerListeningPort := config.listeningPort
  ldkAnnouncedListenAddr := config.listenIps.map (netAddress config.listeningPort)
  ldkAnnouncedNodeName := config.nodeName
  network := config.network

end StartupConfig

section Parts
variable {host port : Text}

theorem not_mem_toDigits {c : Char} (hc : c.isDigit = false) (n : ℕ) : c ∉ Nat.toDigits 10 n := by
  intro hmem
  rw [isDigit_of_mem_toDigits hmem] at hc
  cases hc

theorem bitcoindRpcPath_pair (hhost : ':' ∉ host) {n : ℕ} (hn : n < 2 ^ u16) :
    bitcoindRpcPath (host ++ ':' :: Nat.toDigits 10 n) = .ok (host, n) := by
  have hsplit := (splitOn_pair_iff hhost).mpr (not_mem_toDigits (by decide) n)
  rw [bitcoindRpcPath, hsplit]
  simp only [parseU16, parseUnsigned_toDigits hn]

theorem networkArg_display {network : Network} (hlisted : network ≠ .bitcoin) :
    networkArg (some network.display.toList) = .ok network := by
  cases network with
  | bitcoin => exact absurd rfl hlisted
  | testnet => rfl
  | regtest => rfl
  | signet => rfl

/-- No network is a number, so none is taken for a port. -/
theorem peerListeningPort_display (network : Network) :
    peerListeningPort (some network.display.toList) = (false, 9735) := by
  cases network <;> rfl

theorem peerListeningPort_toDigits {n : ℕ} (hn : n < 2 ^ u16) :
    peerListeningPort (some (Nat.toDigits 10 n)) = (true, n) := by
  simp only [peerListeningPort, parseU16, parseUnsigned_toDigits hn]

end Parts

section RoundTrip
variable {env : Environment} {ips : IpAddrText} {config : StartupConfig} {args : List Text} {argIdx : ℕ}

/-- The name and the addresses are read from the arguments behind the network. -/
theorem announced_read (hips : ∀ ip ∈ config.listenIps, ips.fromStr (ips.display ip) = some ip)
    (hargs : args.drop (argIdx + 1) = StartupConfig.announcedArgs ips config.announced) (port : ℕ) :
    ∃ idx, announcedNodeName argIdx args[argIdx + 1]? = .ok (config.nodeName, idx) ∧
      announcedListenAddrs ips port args [] idx = .ok (config.listenIps.map (netAddress port)) := by
  unfold StartupConfig.listenIps at hips ⊢
  unfold StartupConfig.nodeName
  cases hannounced : config.announced with
  | none =>
    simp only [hannounced] at hargs ⊢
    have hnone : args[argIdx + 1]? = none := by
      rw [List.getElem?_eq_none_iff]
      exact List.drop_eq_nil_iff.mp hargs
    refine ⟨argIdx, ?_, ?_⟩
    · rw [hnone]
      rfl
    · exact announcedListenAddrs_none hnone
  | some a =>
    simp only [hannounced] at hargs hips ⊢
    have hname : args[argIdx + 1]? = some a.name := by
      rw [← List.head?_drop, hargs]
      rfl
    have hlisten : args.drop (argIdx + 1 + 1) = a.listen.map ips.display := by
      rw [← List.tail_drop, hargs]
      rfl
    refine ⟨argIdx + 1, ?_, ?_⟩
    · rw [hname, announcedNodeName, dif_pos a.name_fits]
    · rw [announcedListenAddrs_display port hips hlisten, List.nil_append]

/-- Arguments at the places where the parser looks for them. -/
theorem parseStartupArgs_of (hips : ∀ ip ∈ config.listenIps, ips.fromStr (ips.display ip) = some ip)
    (hlength : 4 ≤ args.length)
    (hrpc : args[1]? = some (rpcArgument config.rpcUser config.rpcPassword config.rpcHost
      (Nat.toDigits 10 config.rpcPort)))
    (hdir : args[2]? = some config.storageDir) {peerPortSet : Bool}
    (hport : peerListeningPort args[3]? = (peerPortSet, config.listeningPort))
    (hargIdx : argIdx = if peerPortSet then 4 else 3)
    (hnetwork : args[argIdx]? = some config.network.display.toList)
    (hrest : args.drop (argIdx + 1) = StartupConfig.announcedArgs ips config.announced) :
    parseStartupArgs env ips args = .ok config.userInfo := by
  have hparts : bitcoindRpcInfoParts (rpcArgument config.rpcUser config.rpcPassword config.rpcHost
      (Nat.toDigits 10 config.rpcPort)) = [config.rpcHost ++ ':' :: Nat.toDigits 10 config.rpcPort,
        config.rpcUser ++ ':' :: config.rpcPassword] :=
    bitcoindRpcInfoParts_rpcArgument config.host_clean.2 (not_mem_toDigits (by decide) _)
  have hpath := bitcoindRpcPath_pair config.host_clean.1 config.rpcPort_lt
  have hauth := (parseRpcAuth_pair_iff config.auth_clean.1).mpr config.auth_clean.2
  have hlisted := networkArg_display config.network_listed
  obtain ⟨idx, hname, haddrs⟩ := announced_read hips hrest config.listeningPort
  rw [parseStartupArgs, if_neg (by omega), hrpc, hdir, hport]
  simp only [Outcome.ofOption_some, Outcome.bind_ok, hparts, List.getElem?_cons_zero, hpath]
  rw [← hargIdx, hnetwork, hlisted, Outcome.bind_ok, bitcoindRpcAuth, hauth, Outcome.ofExcept_ok,
    Outcome.bind_ok, hname, Outcome.bind_ok, haddrs]
  rfl

/-- Every configuration is read back from its command line, without a panic. -/
theorem startup_args_roundTrip (env : Environment) (ips : IpAddrText) (program : Text)
    (config : StartupConfig) (hips : ∀ ip ∈ config.listenIps, ips.fromStr (ips.display ip) = some ip) :
    parseStartupArgs env ips (config.commandLine ips program) = .ok config.userInfo := by
  have hports := config.peerPort_lt
  unfold StartupConfig.commandLine
  cases hpeer : config.peerPort with
  | none =>
    -- the network stands where the port is looked for
    have hlistening : config.listeningPort = 9735 := by simp [StartupConfig.listeningPort, hpeer]
    have hport : peerListeningPort (some config.network.display.toList) =
        (false, config.listeningPort) := by
      rw [hlistening]
      exact peerListeningPort_display config.network
    exact parseStartupArgs_of hips (by simp) rfl rfl hport rfl rfl rfl
  | some port =>
    have hlistening : config.listeningPort = port := by simp [StartupConfig.listeningPort, hpeer]
    have hport : peerListeningPort (some (Nat.toDigits 10 port)) = (true, config.listeningPort) := by
      rw [hlistening]
      exact peerListeningPort_toDigits (hports port hpeer)
    exact parseStartupArgs_of hips (by simp) rfl rfl hport rfl rfl rfl

/-- Two addresses as the standard library shows and reads them. -/
def documentationIps : IpAddrText where
  fromStr s :=
    if s = "203.0.113.7".toList then some (.v4 ⟨[203, 0, 113, 7], rfl⟩)
    else if s = "2001:db8::7".toList then
      some (.v6 ⟨[0x20, 0x01, 0x0d, 0xb8, 0, 0, 0, 0, 0, 0, 0, 0, 0, 0, 0, 7], rfl⟩)
    else none
  display ip :=
    match ip with
    | .v4 _ => "203.0.113.7".toList
    | .v6 _ => "2001:db8::7".toList

/-- A public node without a port of its own. -/
def publicNode : StartupConfig where
  rpcUser := "user".toList
  rpcPassword := "p@ss".toList
  auth_clean := by decide
  rpcHost := "localhost".toList
  host_clean := by decide
  rpcPort := 18443
  rpcPort_lt := by decide
  storageDir := "dataldk0/".toList
  peerPort := none
  peerPort_lt := by simp
  network := .regtest
  network_listed := by decide
  announced := some ⟨"alice".toList, by decide, [.v4 ⟨[203, 0, 113, 7], rfl⟩,
    .v6 ⟨[0x20, 0x01, 0x0d, 0xb8, 0, 0, 0, 0, 0, 0, 0, 0, 0, 0, 0, 7], rfl⟩]⟩

theorem startup_args_publicNode :
    publicNode.commandLine documentationIps "ldk".toList = ["ldk".toList,
        "user:p@ss@localhost:18443".toList, "dataldk0/".toList, "regtest".toList, "alice".toList,
        "203.0.113.7".toList, "2001:db8::7".toList] ∧
      parseStartupArgs colonEnvironment documentationIps
        (publicNode.commandLine documentationIps "ldk".toList) = .ok publicNode.userInfo :=
  ⟨by decide, startup_args_roundTrip colonEnvironment documentationIps "ldk".toList publicNode
    (by decide)⟩

end RoundTrip

end RgbLightning.Startup
