import RgbLightning.Startup.RpcAuth

/-! # One pair of credentials in three sources

The argument and the cookie are cut at every colon and must give two parts. A line of
the `.env` file is cut at its first equals sign only.
-/
namespace RgbLightning.Startup
open Decimal Split Node

section Readers
variable {user password host port : Text}

/-- The reader of the argument and the cookie takes one colon, no more. -/
theorem parseRpcAuth_pair_iff (huser : ':' ∉ user) :
    parseRpcAuth (user ++ ':' :: password) = .ok (user, password) ↔ ':' ∉ password := by
  rw [← splitOn_pair_iff huser]
  unfold parseRpcAuth
  constructor
  · intro h
    split at h
    · rename_i username rest hsplit
      cases h
      exact hsplit
    · cases h
  · intro h
    rw [h]

/-- The first argument that gives credentials, a host and a port. -/
def rpcArgument (user password host port : Text) : Text :=
  (user ++ ':' :: password) ++ '@' :: (host ++ ':' :: port)

/-- Whatever the password has, the last `@` is the one before the host. -/
theorem bitcoindRpcInfoParts_rpcArgument (hhost : '@' ∉ host) (hport : '@' ∉ port) :
    bitcoindRpcInfoParts (rpcArgument user password host port) =
      [host ++ ':' :: port, user ++ ':' :: password] := by
  apply rsplitn_two_append
  simp [hhost, hport]

theorem parseEnvLine_pair {key : Text} (hkey : '=' ∉ key) (value : Text) :
    parseEnvLine (key ++ '=' :: value) = .ok (key, value) := by
  rw [parseEnvLine, splitn_two_append hkey]

theorem parseEnvLine_parses {line : Text} (h : '=' ∈ line) : RecordFile.Parses parseEnvLine line := by
  obtain ⟨key, value, rfl, hkey⟩ := List.eq_append_cons_of_mem h
  exact ⟨(key, value), parseEnvLine_pair hkey value⟩

theorem prefix_of_parseEnvLine {line key value : Text} (h : parseEnvLine line = .ok (key, value)) :
    key ++ ['='] <+: line := by
  by_cases hline : '=' ∈ line
  · obtain ⟨key', value', rfl, hkey⟩ := List.eq_append_cons_of_mem hline
    rw [parseEnvLine_pair hkey] at h
    cases h
    exact ⟨value, by simp⟩
  · rw [parseEnvLine, splitn_two_of_not_mem hline] at h
    cases h

end Readers

section EnvFile

/-- The last of the lines that set `key` sets it to `value`. -/
def SetTo (key value : Text) (file : List Text) : Prop :=
  ∃ older newer, file = older ++ (key ++ '=' :: value) :: newer ∧
    ∀ line ∈ newer, ¬key ++ ['='] <+: line

variable {env : Environment} {envFileName : Option Text} {contents : Text}

theorem parseEnvFile_lookup {m : Text → Option Text} {key value : Text} (hkey : '=' ∉ key)
    (hset : SetTo key value (lines contents))
    (hread : RecordFile.read parseEnvLine (lines contents) = .ok m) : m key = some value := by
  obtain ⟨older, newer, hsplit, hlast⟩ := hset
  apply RecordFile.lookup_of_last hread hsplit (parseEnvLine_pair hkey value)
  intro line hline w hparsed
  exact hlast line hline (prefix_of_parseEnvLine hparsed)

/-- Among well-formed lines the two that are set last are found, whatever their values. -/
theorem getRpcAuthFromEnvFile_pair {user password : Text}
    (hfile : env.readToString (envFileName.getD ".env".toList) = some contents)
    (hwell : ∀ line ∈ lines contents, '=' ∈ line)
    (huser : SetTo BITCOIND_RPC_USER_KEY user (lines contents))
    (hpassword : SetTo BITCOIND_RPC_PASSWORD_KEY password (lines contents)) :
    getRpcAuthFromEnvFile env envFileName = .ok (user, password) := by
  have hparses : ∀ line ∈ lines contents, RecordFile.Parses parseEnvLine line := by
    intro line hline
    exact parseEnvLine_parses (hwell line hline)
  have hread : RecordFile.read parseEnvLine (lines contents) =
      .ok (KeyedLog.contents (RecordFile.effect parseEnvLine) (lines contents)) :=
    RecordFile.read_eq_ok.mpr ⟨hparses, rfl⟩
  have huser := parseEnvFile_lookup (by decide) huser hread
  have hpassword := parseEnvFile_lookup (by decide) hpassword hread
  have hmap : parseEnvFile env envFileName =
      .ok (KeyedLog.contents (RecordFile.effect parseEnvLine) (lines contents)) := by
    simp only [parseEnvFile, hfile, hread]
  simp only [getRpcAuthFromEnvFile, hmap, bind, Except.bind, huser, hpassword]

end EnvFile

section Sources

/-- A user name and a password. The colon after the user name ends it. -/
structure Credentials where
  user : Text
  password : Text
  user_clean : ':' ∉ user

def Credentials.pair (cred : Credentials) : RpcAuth := (cred.user, cred.password)

/-- The same credentials in the first argument, in a cookie file and in a `.env` file,
which may have other lines. -/
structure Sources (cred : Credentials) where
  env : Environment
  network : Network
  host : Text
  port : Text
  host_clean : '@' ∉ host ∧ ':' ∉ host
  port_clean : '@' ∉ port ∧ ':' ∉ port
  dataDir : Option (Text × Bool)
  cookieNetwork : Option Network
  cookieFileName : Option Text
  cookie : (getCookiePath env dataDir cookieNetwork cookieFileName).bind env.readToString =
    some (cred.user ++ ':' :: cred.password)
  envFileName : Option Text
  envFileContents : Text
  envFile : env.readToString (envFileName.getD ".env".toList) = some envFileContents
  wellFormed : ∀ line ∈ lines envFileContents, '=' ∈ line
  userLine : SetTo BITCOIND_RPC_USER_KEY cred.user (lines envFileContents)
  passwordLine : SetTo BITCOIND_RPC_PASSWORD_KEY cred.password (lines envFileContents)

namespace Sources
variable {cred : Credentials} (s : Sources cred)

def argument : Text := rpcArgument cred.user cred.password s.host s.port

def fromArgument : Except String RpcAuth :=
  bitcoindRpcAuth s.env s.network (bitcoindRpcInfoParts s.argument)

def fromCookie : Except String RpcAuth :=
  getRpcAuthFromCookie s.env s.dataDir s.cookieNetwork s.cookieFileName

def fromEnvFile : Except String RpcAuth := getRpcAuthFromEnvFile s.env s.envFileName

/-- All three give the credentials. -/
def Agree : Prop :=
  s.fromArgument = .ok cred.pair ∧ s.fromCookie = .ok cred.pair ∧ s.fromEnvFile = .ok cred.pair

instance : Decidable s.Agree := inferInstanceAs (Decidable (_ ∧ _ ∧ _))

variable {s}

theorem fromArgument_eq : s.fromArgument = parseRpcAuth (cred.user ++ ':' :: cred.password) := by
  rw [fromArgument, argument, bitcoindRpcInfoParts_rpcArgument s.host_clean.1 s.port_clean.1]
  rfl

theorem fromCookie_eq : s.fromCookie = parseRpcAuth (cred.user ++ ':' :: cred.password) := by
  rw [fromCookie, getRpcAuthFromCookie, s.cookie]

theorem fromEnvFile_eq : s.fromEnvFile = .ok cred.pair :=
  getRpcAuthFromEnvFile_pair s.envFile s.wellFormed s.userLine s.passwordLine

end Sources

/-- The sources agree on every password without a colon, and on no other. -/
theorem credentials_agree_iff {cred : Credentials} (s : Sources cred) : s.Agree ↔ ':' ∉ cred.password := by
  have hcut : parseRpcAuth (cred.user ++ ':' :: cred.password) = .ok cred.pair ↔ ':' ∉ cred.password :=
    parseRpcAuth_pair_iff cred.user_clean
  rw [Sources.Agree, Sources.fromArgument_eq, Sources.fromCookie_eq, Sources.fromEnvFile_eq, hcut]
  simp

/-- The user is set twice, and another key in between. -/
def envFileOf (password : Text) : Text :=
  "RPC_USER=old\nRPC_PASSWORD=".toList ++ password ++ "\nHOST=local\nRPC_USER=rpc\n".toList

/-- A cookie and a `.env` file with the password. -/
def environmentOf (password : Text) : Environment where
  homeDir := some "/home/user".toList
  var _ := none
  readToString path :=
    if path = "/home/user/.bitcoin/regtest/.cookie".toList then some ("rpc:".toList ++ password)
    else if path = ".env".toList then some (envFileOf password)
    else none

/-- A password with the separators of the argument and of the `.env` file. -/
def atPassword : Credentials := ⟨"rpc".toList, "a@b=c".toList, by decide⟩

def atSources : Sources atPassword where
  env := environmentOf atPassword.password
  network := .regtest
  host := "localhost".toList
  port := "18443".toList
  host_clean := by decide
  port_clean := by decide
  dataDir := none
  cookieNetwork := some .regtest
  cookieFileName := none
  cookie := by decide
  envFileName := none
  envFileContents := envFileOf atPassword.password
  envFile := by decide
  wellFormed := by decide
  userLine := ⟨["RPC_USER=old".toList, "RPC_PASSWORD=a@b=c".toList, "HOST=local".toList], [],
    by decide, by decide⟩
  passwordLine := ⟨["RPC_USER=old".toList], ["HOST=local".toList, "RPC_USER=rpc".toList],
    by decide, by decide⟩

theorem credentials_agree_atPassword : atSources.Agree :=
  (credentials_agree_iff atSources).mpr (by decide)

/-- A password with all three separators of the sources. -/
def colonPassword : Credentials := ⟨"rpc".toList, "a:b@c=d".toList, by decide⟩

def colonEnvironment : Environment := environmentOf colonPassword.password

def colonSources : Sources colonPassword where
  env := colonEnvironment
  network := .regtest
  host := "localhost".toList
  port := "18443".toList
  host_clean := by decide
  port_clean := by decide
  dataDir := none
  cookieNetwork := some .regtest
  cookieFileName := none
  cookie := by decide
  envFileName := none
  envFileContents := envFileOf colonPassword.password
  envFile := by decide
  wellFormed := by decide
  userLine := ⟨["RPC_USER=old".toList, "RPC_PASSWORD=a:b@c=d".toList, "HOST=local".toList], [],
    by decide, by decide⟩
  passwordLine := ⟨["RPC_USER=old".toList], ["HOST=local".toList, "RPC_USER=rpc".toList],
    by decide, by decide⟩

theorem colonPassword_disagrees : ¬colonSources.Agree := by decide

end Sources

end RgbLightning.Startup
