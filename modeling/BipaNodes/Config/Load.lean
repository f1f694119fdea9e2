import BipaNodes.Lib.Time
import Mathlib.Algebra.Group.Nat.Defs

/-!
# Loading the configuration

The environment variables of the service, their defaults and their validation.
Socket addresses and URLs are parsed by the standard library and the `url` crate.
-/

set_option autoImplicit false

namespace BipaNodes

/-- Validated runtime configuration. -/
structure Config (SocketAddr Url : Type) where
  databaseUrl : String
  bindAddr : SocketAddr
  mempoolUrl : Url
  importInterval : Nanos
  httpClientTimeout : Nanos
  deriving DecidableEq, Repr

end BipaNodes

namespace BipaNodes.Config

/-- The variables of a process: a name may hold any bytes. -/
abbrev Env := String → Option ByteArray

inductive VarError where
  | notPresent
  | notUnicode (bytes : ByteArray)

/-- `std::env::var` -/
def var (env : Env) (key : String) : Except VarError String :=
  match env key with
  | none => .error .notPresent
  | some bytes =>
      match String.fromUTF8? bytes with
      | none => .error (.notUnicode bytes)
      | some value => .ok value

inductive ConfigError where
  | missing (key : String)
  | invalid (key value reason : String)
  deriving DecidableEq, Repr

/-- The variable that an error names. -/
def ConfigError.key : ConfigError → String
  | .missing key => key
  | .invalid key _ _ => key

/-- `SocketAddr::from_str`, `Url::parse` and `Url::scheme`, with the texts of
their errors. -/
structure Parsers (SocketAddr Url : Type) where
  parseSocketAddr : String → Except String SocketAddr
  parseUrl : String → Except String Url
  scheme : Url → String

def defaultBindAddr : String := "0.0.0.0:3000"

def defaultMempoolUrl : String :=
  "https://mempool.space/api/v1/lightning/nodes/rankings/connectivity"

def defaultImportIntervalSecs : Nat := 60

def defaultHttpClientTimeoutSecs : Nat := 10

/-!
## Unsigned integers
-/

inductive ParseIntError where
  | empty
  | invalidDigit
  | posOverflow
  deriving DecidableEq, Repr

def ParseIntError.text : ParseIntError → String
  | .empty => "cannot parse integer from empty string"
  | .invalidDigit => "invalid digit found in string"
  | .posOverflow => "number too large to fit in target type"

def toDigit (char : Char) : Option Nat :=
  if char.isDigit then some (char.toNat - '0'.toNat) else none

/-- The loop of `u64::from_str_radix`: a digit is read before the result so far
is multiplied, and both steps are checked. -/
def parseDigits (result : Nat) (digits : List Char) : Except ParseIntError Nat :=
  match digits with
  | [] => .ok result
  | char :: rest =>
      match toDigit char with
      | none => .error .invalidDigit
      | some digit =>
          if 2 ^ 64 ≤ result * 10 then .error .posOverflow
          else if 2 ^ 64 ≤ result * 10 + digit then .error .posOverflow
          else parseDigits (result * 10 + digit) rest

/-- `u64::from_str` -/
def parseU64 (text : String) : Except ParseIntError Nat :=
  match text.toList with
  | [] => .error .empty
  | ['+'] => .error .invalidDigit
  | ['-'] => .error .invalidDigit
  | '+' :: digits => parseDigits 0 digits
  | digits => parseDigits 0 digits

/-!
## Variables
-/

def parseOrDefault {Value : Type} (key : String) (value : Option String) (default : String)
    (parse : String → Except String Value) : Except ConfigError Value :=
  let raw := value.getD default
  (parse raw).mapError fun reason => .invalid key raw reason

def parsePositiveSecs (key : String) (value : Option String) (default : Nat) :
    Except ConfigError Nanos :=
  match value with
  | none => .ok (Nanos.seconds default)
  | some raw =>
      match parseU64 raw with
      | .ok 0 => .error (.invalid key raw "must be greater than zero")
      | .ok secs => .ok (Nanos.seconds secs)
      | .error error => .error (.invalid key raw error.text)

variable {SocketAddr Url : Type}

def parseHttpUrl (parsers : Parsers SocketAddr Url) (raw : String) : Except String Url := do
  let url ← parsers.parseUrl raw
  if parsers.scheme url = "http" ∨ parsers.scheme url = "https" then
    return url
  else
    throw ("unsupported scheme \"" ++ parsers.scheme url ++ "\", expected http or https")

/-- Empty values are treated as unset. -/
def get (lookup : String → Option String) (key : String) : Option String :=
  (lookup key).filter (· ≠ "")

/-- `Option::ok_or` -/
def okOr {Value Error : Type} (value : Option Value) (error : Error) : Except Error Value :=
  match value with
  | some value => .ok value
  | none => .error error

def fromLookup (parsers : Parsers SocketAddr Url) (lookup : String → Option String) :
    Except ConfigError (Config SocketAddr Url) := do
  let databaseUrl ← okOr (get lookup "DATABASE_URL") (ConfigError.missing "DATABASE_URL")
  let bindAddr ←
    parseOrDefault "BIND_ADDR" (get lookup "BIND_ADDR") defaultBindAddr parsers.parseSocketAddr
  let mempoolUrl ←
    parseOrDefault "MEMPOOL_URL" (get lookup "MEMPOOL_URL") defaultMempoolUrl
      (parseHttpUrl parsers)
  let importInterval ←
    parsePositiveSecs "IMPORT_INTERVAL_SECS" (get lookup "IMPORT_INTERVAL_SECS")
      defaultImportIntervalSecs
  let httpClientTimeout ←
    parsePositiveSecs "HTTP_CLIENT_TIMEOUT_SECS" (get lookup "HTTP_CLIENT_TIMEOUT_SECS")
      defaultHttpClientTimeoutSecs
  return { databaseUrl, bindAddr, mempoolUrl, importInterval, httpClientTimeout }

/-- The lookup turns both errors of `var` into an unset variable. -/
def fromEnv (parsers : Parsers SocketAddr Url) (env : Env) :
    Except ConfigError (Config SocketAddr Url) :=
  fromLookup parsers fun key => (var env key).toOption

end BipaNodes.Config
