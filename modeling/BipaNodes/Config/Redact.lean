import BipaNodes.Config.Load
import BipaNodes.Lib.Url

/-!
# Debug output

What a configuration shows of itself. URLs are parsed by the `url` crate.
-/

set_option autoImplicit false

namespace BipaNodes.Config

/-- Replaces the password in a database URL with `***`. An unparsable URL is
fully hidden: it might still contain a secret. -/
def redactDatabaseUrl (parse : String → Option Url) (raw : String) : String :=
  match parse raw with
  | none => "<unparsable>"
  | some url =>
      if url.password?.isSome then
        match url.setPassword "***" with
        | none => "<redacted>"
        | some hidden => hidden.serialize
      else
        url.serialize

/-- The fields of the debug output, in order. -/
structure DebugOutput (SocketAddr : Type) where
  databaseUrl : String
  bindAddr : SocketAddr
  mempoolUrl : String
  importInterval : Nanos
  httpClientTimeout : Nanos
  deriving DecidableEq, Repr

def debug {SocketAddr : Type} (parse : String → Option Url) (config : Config SocketAddr Url) :
    DebugOutput SocketAddr where
  databaseUrl := redactDatabaseUrl parse config.databaseUrl
  bindAddr := config.bindAddr
  mempoolUrl := config.mempoolUrl.serialize
  importInterval := config.importInterval
  httpClientTimeout := config.httpClientTimeout

end BipaNodes.Config
