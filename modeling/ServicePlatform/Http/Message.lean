import Mathlib.Data.List.Basic

/-! HTTP requests and responses as an ASGI application sees them. Header names
and values are the decoded bytes, in the order in which they arrived. -/
namespace ServicePlatform

abbrev Headers := List (String × String)

abbrev Bytes := List UInt8

/-- A request, with the identifiers the server draws at random for it. The path
of its URL is what `request.url.path` gives: the path up to a `?` or `#` in it,
and nothing where the `Host` header makes no URL and reading it raises. -/
structure HttpRequest where
  method : String
  path : String
  headers : Headers
  body : Bytes
  uuid : String
  traceId : String
  urlPath : Option String := some path

structure HttpResponse where
  status : Nat
  headers : Headers
  body : Bytes
  deriving DecidableEq

/-- `str.lower` on a header name, as far as it can produce an ASCII name. -/
def lowerName (name : String) : String := String.ofList (name.toList.map Char.toLower)

namespace Headers

/-- The value in the dictionary of lower-case names, where the last of several
equal names wins. -/
def last (headers : Headers) (name : String) : Option String :=
  (headers.reverse.find? fun header => lowerName header.1 = name).map Prod.snd

/-- The value of the first header with the name. -/
def first (headers : Headers) (name : String) : Option String :=
  (headers.find? fun header => lowerName header.1 = name).map Prod.snd

end Headers

namespace HttpRequest

def header (request : HttpRequest) (name : String) : Option String := Headers.last request.headers name

end HttpRequest

namespace HttpResponse

/-- A response in the 2xx class. -/
def Success (response : HttpResponse) : Prop := 200 ≤ response.status ∧ response.status < 300

instance (response : HttpResponse) : Decidable response.Success :=
  inferInstanceAs (Decidable (_ ∧ _))

end HttpResponse

end ServicePlatform
