import BipaNodes.Source.Dto
import BipaNodes.Source.Error

/-!
# mempool.space client

One fetch of the ranking, given what the HTTP client and the JSON decoder
answer.
-/

set_option autoImplicit false

namespace BipaNodes.Source

/-- A response whose body may still fail to arrive. -/
structure HttpResponse where
  status : UInt16
  body : Except String (List UInt8)

def HttpResponse.isSuccess (response : HttpResponse) : Bool :=
  200 ≤ response.status && response.status < 300

/-- `MempoolClient::fetch_nodes`. The status is checked before the body is
decoded, and the records are validated one by one. -/
def fetchNodes (decode : List UInt8 → Except String (List Value))
    (sent : Except String HttpResponse) : Except SourceError (List Domain.Node) := do
  let response ← sent.mapError .request
  if response.isSuccess then
    let body ← response.body.mapError .request
    let records ← (decode body).mapError .decode
    return parseRecords records
  else
    .error (.status response.status)

end BipaNodes.Source
