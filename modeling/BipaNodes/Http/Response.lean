import BipaNodes.Domain.Format
import BipaNodes.Storage.Error

/-!
# Public JSON shapes

What `GET /nodes` answers for a result of the repository.
-/

set_option autoImplicit false

namespace BipaNodes.Http

open Domain (Node)
open Storage (StorageError)

structure NodeResponse where
  publicKey : String
  «alias» : String
  capacity : String
  firstSeen : String
  deriving DecidableEq, Repr

/-- `From<&Node> for NodeResponse`: the single place where formatting happens. -/
def NodeResponse.ofNode (node : Node) : NodeResponse where
  publicKey := node.publicKey
  «alias» := node.alias
  capacity := Domain.formatBtc node.capacitySats
  firstSeen := Domain.formatTimestamp node.firstSeen

structure ErrorBody where
  error : String
  deriving DecidableEq, Repr

inductive Body where
  | nodes (elements : List NodeResponse)
  | error (body : ErrorBody)
  deriving DecidableEq, Repr

structure Response where
  status : Nat
  body : Body
  deriving DecidableEq, Repr

def internalError : String := "internal server error"

def internalErrorResponse : Response where
  status := 500
  body := .error { error := internalError }

/-- `GET /nodes`: the stored ranking, formatted for clients. Storage failures
become a generic 500. -/
def listNodes (listed : Except StorageError (List Node)) : Response :=
  match listed with
  | .ok nodes => { status := 200, body := .nodes (nodes.map NodeResponse.ofNode) }
  | .error _ => internalErrorResponse

end BipaNodes.Http
