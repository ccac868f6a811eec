import RgbLightning.Base.RecordFile
import RgbLightning.Base.Split
import RgbLightning.Node.Types

/-! # Credentials for bitcoind

A user name and a password come from the first argument, from two environment
variables, from a `.env` file or from bitcoind's cookie file. An error says what is
printed, which is nothing where a file cannot be read.
-/
namespace RgbLightning.Startup
open Decimal Split Node

/-- The process environment: what `home_dir`, `env::var` and `fs::read_to_string` return. -/
structure Environment where
  homeDir : Option Text
  var : Text → Option Text
  readToString : Text → Option Text

abbrev RpcAuth := Text × Text

def DEFAULT_BITCOIN_DATADIR : Text := ".bitcoin".toList
def BITCOIND_RPC_USER_KEY : Text := "RPC_USER".toList
def BITCOIND_RPC_PASSWORD_KEY : Text := "RPC_PASSWORD".toList

def parseRpcAuth (rpcAuth : Text) : Except String RpcAuth :=
  match rpcAuth.splitOn ':' with
  | [username, password] => .ok (username, password)
  | _ => .error "ERROR: bad bitcoind RPC username/password combo provided"

section Cookie

/-- An absolute path takes the place of the directory it is joined to. -/
def joinPath (dir path : Text) : Text :=
  if path.head? = some '/' then path
  else if dir = [] ∨ dir.getLast? = some '/' then dir ++ path
  else dir ++ '/' :: path

variable (env : Environment)

/-- The data directory is relative to the home directory if its flag is set. -/
def getCookiePath (dataDir : Option (Text × Bool)) (network : Option Network)
    (cookieFileName : Option Text) : Option Text :=
  let dataDirPath := match dataDir with
    | some (dir, true) => env.homeDir.map fun home => joinPath home dir
    | some (dir, false) => some dir
    | none => env.homeDir.map fun home => joinPath home DEFAULT_BITCOIN_DATADIR
  dataDirPath.map fun dataDirPath =>
    let dataDirPathWithNet := match network with
      | some .testnet => joinPath dataDirPath "testnet3".toList
      | some .regtest => joinPath dataDirPath "regtest".toList
      | some .signet => joinPath dataDirPath "signet".toList
      | _ => dataDirPath
    joinPath dataDirPathWithNet (cookieFileName.getD ".cookie".toList)

def getRpcAuthFromCookie (dataDir : Option (Text × Bool)) (network : Option Network)
    (cookieFileName : Option Text) : Except String RpcAuth :=
  match (getCookiePath env dataDir network cookieFileName).bind env.readToString with
  | none => .error ""
  | some cookieContents => parseRpcAuth cookieContents

end Cookie

section EnvFile

def parseEnvLine (line : Text) : Except String (Text × Text) :=
  match splitn '=' 2 line with
  | [key, value] => .ok (key, value)
  | _ => .error "ERROR: bad .env file format"

variable (env : Environment)

def parseEnvFile (envFileName : Option Text) : Except String (Text → Option Text) :=
  match env.readToString (envFileName.getD ".env".toList) with
  | none => .error ""
  | some envFileContents => RecordFile.read parseEnvLine (lines envFileContents)

def getRpcAuthFromEnvFile (envFileName : Option Text) : Except String RpcAuth := do
  let envFileMap ← parseEnvFile env envFileName
  match envFileMap BITCOIND_RPC_USER_KEY, envFileMap BITCOIND_RPC_PASSWORD_KEY with
  | some username, some password => .ok (username, password)
  | _, _ => .error ""

def getRpcAuthFromEnvVars : Except String RpcAuth :=
  match env.var BITCOIND_RPC_USER_KEY, env.var BITCOIND_RPC_PASSWORD_KEY with
  | some username, some password => .ok (username, password)
  | _, _ => .error ""

end EnvFile

section Argument
variable (env : Environment) (network : Network)

/-- The pieces of the first argument: the host and port, and what is before the last `@`. -/
def bitcoindRpcInfoParts (bitcoindRpcInfo : Text) : List Text := rsplitn '@' 2 bitcoindRpcInfo

/-- Where the credentials are taken from. Without any in the argument the environment
goes first, then the `.env` file, then the cookie. -/
def bitcoindRpcAuth : List Text → Except String RpcAuth
  | [_] =>
    match getRpcAuthFromEnvVars env with
    | .ok auth => .ok auth
    | .error _ =>
      match getRpcAuthFromEnvFile env none with
      | .ok auth => .ok auth
      | .error _ =>
        match getRpcAuthFromCookie env none (some network) none with
        | .ok auth => .ok auth
        | .error _ => .error "ERROR: unable to get bitcoind RPC username and password"
  | [_, rpcAuth] => parseRpcAuth rpcAuth
  | _ => .error "ERROR: bad bitcoind RPC URL provided"

end Argument

end RgbLightning.Startup
