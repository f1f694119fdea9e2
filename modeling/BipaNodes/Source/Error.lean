import Mathlib.Data.List.Basic

set_option autoImplicit false

namespace BipaNodes.Source

/-- Failures of a fetch as a whole. The texts of the HTTP client's and the
decoder's own errors are opaque to this service. -/
inductive SourceError where
  | request (cause : String)
  | status (code : UInt16)
  | decode (cause : String)
  deriving DecidableEq, Repr

end BipaNodes.Source
