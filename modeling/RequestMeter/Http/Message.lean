import RequestMeter.Http.Target
import RequestMeter.Http.MediaType

/-! # HTTP requests and responses

A request is valid when its method is a token, its target a URI and its content type the value of a
header.
-/
namespace RequestMeter.Http

structure Request where
  method : String := "GET"
  target : String
  contentType : Option String := none
  body : String := ""
  deriving DecidableEq, Repr

inductive Body where
  | none
  | json (text : String)
  /-- A stream of events, which the server sends tick by tick. -/
  | stream
  deriving DecidableEq, Repr

structure Response where
  status : Nat
  body : Body := .none
  deriving DecidableEq, Repr

def isHeaderValue (s : String) : Bool :=
  s.toList.all fun c => c = '\t' || (0x20 ≤ c.toNat && c.toNat ≠ 0x7F)

namespace Request

def isValid (r : Request) : Bool :=
  isToken r.method.toList && (path? r.target).isSome &&
    (r.contentType.map isHeaderValue).getD true

/-- Whether the body of a request is said to be JSON. -/
def hasJsonBody (r : Request) : Bool :=
  ((r.contentType.bind MediaType.read?).map MediaType.isJson).getD false

end Request

end RequestMeter.Http
