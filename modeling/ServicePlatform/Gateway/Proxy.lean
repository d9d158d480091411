import ServicePlatform.Gateway.Balancer
import ServicePlatform.Kernel.Auth
import Mathlib.Data.List.DropRight

/-! What the gateway sends on behalf of a client: the headers it builds itself,
the URL of the instance, and what `httpx` adds on the wire. No header of the
client is forwarded but the content type. -/
namespace ServicePlatform.Gateway

/-- A call of `proxy_request`, with the trace headers the propagator injects. -/
structure ProxyCall where
  method : String
  path : String
  request : HttpRequest
  identity : Identity
  traceparent : Option String
  tracestate : Option String

/-- A call of `client.request`. -/
structure OutboundRequest where
  method : String
  url : String
  headers : Headers
  content : Option Bytes

/-- `url.rstrip('/')` joined with `path.lstrip('/')`. -/
def upstreamUrl (url path : String) : String :=
  String.ofList (url.toList.rdropWhile fun c => c = '/') ++ "/" ++
    String.ofList (path.toList.dropWhile fun c => c = '/')

namespace ProxyCall

/-- `out_headers`, after the propagator has injected into them. -/
def outHeaders (call : ProxyCall) : Headers :=
  [("X-User-Id", call.identity.userId), ("X-User-Roles", ",".intercalate call.identity.roles),
    ("X-Tenant-Id", call.identity.tenantId.getD "")] ++
  (if call.request.body = [] then []
    else [("Content-Type", orDefault (Headers.first call.request.headers "content-type") "application/json")]) ++
  (call.traceparent.map fun value => ("traceparent", value)).toList ++
  (call.tracestate.map fun value => ("tracestate", value)).toList

/-- The attempt at one instance. -/
def outbound (call : ProxyCall) (url : String) : OutboundRequest where
  method := call.method
  url := upstreamUrl url call.path
  headers := call.outHeaders
  content := if call.request.body = [] then none else some call.request.body

end ProxyCall

/-- The headers `httpx` and its client add by themselves. -/
def clientHeaderNames : List String :=
  ["host", "accept", "accept-encoding", "connection", "user-agent", "content-length", "cookie"]

/-- The HTTP client and the server that parses its request: the path of a URL,
what `request.url.path` gives of it there, and the headers the client adds,
which are among the documented ones. -/
structure HttpClient where
  path : String → String
  urlPath : String → Option String
  added : OutboundRequest → Headers
  documented : ∀ request, ∀ header ∈ added request, lowerName header.1 ∈ clientHeaderNames

/-- The request as the instance receives it, with the identifiers it draws. -/
def HttpClient.deliver (client : HttpClient) (request : OutboundRequest) (uuid traceId : String) :
    HttpRequest where
  method := request.method
  path := client.path request.url
  headers := client.added request ++ request.headers
  body := request.content.getD []
  uuid := uuid
  traceId := traceId
  urlPath := client.urlPath request.url

/-- The names of the headers the gateway sends. -/
def outHeaderNames : List String :=
  ["x-user-id", "x-user-roles", "x-tenant-id", "content-type", "traceparent", "tracestate"]

theorem outHeaders_names (call : ProxyCall) :
    ∀ header ∈ call.outHeaders, lowerName header.1 ∈ outHeaderNames := by
  intro header hMem
  have hTrace : ∀ (name : String) (value : Option String), lowerName name ∈ outHeaderNames →
      header ∈ (value.map fun text => (name, text)).toList → lowerName header.1 ∈ outHeaderNames := by
    intro name value hName hHeader
    obtain ⟨text, -, rfl⟩ := Option.map_eq_some_iff.mp (Option.mem_toList.mp hHeader)
    exact hName
  rcases List.mem_append.mp hMem with hMem | hState
  · rcases List.mem_append.mp hMem with hMem | hParent
    · rcases List.mem_append.mp hMem with hIdentity | hContent
      · simp only [List.mem_cons, List.not_mem_nil, or_false] at hIdentity
        rcases hIdentity with rfl | rfl | rfl
        · show lowerName "X-User-Id" ∈ outHeaderNames
          decide
        · show lowerName "X-User-Roles" ∈ outHeaderNames
          decide
        · show lowerName "X-Tenant-Id" ∈ outHeaderNames
          decide
      · split at hContent
        · cases hContent
        · rw [List.mem_singleton.mp hContent]
          show lowerName "Content-Type" ∈ outHeaderNames
          decide
    · exact hTrace "traceparent" call.traceparent (by decide) hParent
  · exact hTrace "tracestate" call.tracestate (by decide) hState

/-- An instance never sees the idempotency key of the client. -/
theorem deliver_key (client : HttpClient) (call : ProxyCall) (url uuid traceId : String) :
    (client.deliver (call.outbound url) uuid traceId).header "idempotency-key" = none := by
  simp only [HttpRequest.header, Headers.last, Option.map_eq_none_iff, List.find?_eq_none,
    List.mem_reverse, decide_eq_true_eq]
  intro header hMem hName
  rcases List.mem_append.mp hMem with hAdded | hOut
  · have hListed := client.documented _ header hAdded
    rw [hName] at hListed
    revert hListed
    decide
  · have hListed := outHeaders_names call header hOut
    rw [hName] at hListed
    revert hListed
    decide

/-- The idempotency middleware of an instance passes every attempt through. -/
theorem deliver_storeKey (client : HttpClient) (call : ProxyCall) (url uuid traceId service : String) :
    (client.deliver (call.outbound url) uuid traceId).storeKey service = none := by
  simp [HttpRequest.storeKey, deliver_key]

/-- What `httpx` sends of its own to an instance at a plain `http` URL. -/
def plainClient : HttpClient where
  path := fun url => String.ofList ((url.toList.drop 7).dropWhile fun c => c ≠ '/')
  urlPath := fun url => some (String.ofList (((url.toList.drop 7).dropWhile fun c => c ≠ '/').takeWhile fun c =>
    c ≠ '?' && c ≠ '#'))
  added := fun request =>
    [("Host", String.ofList ((request.url.toList.drop 7).takeWhile fun c => c ≠ '/')), ("Accept", "*/*"),
      ("Accept-Encoding", "gzip, deflate"), ("Connection", "keep-alive"), ("User-Agent", "python-httpx"),
      ("Content-Length", toString (request.content.getD []).length)]
  documented := by
    intro request header hMem
    simp only [List.mem_cons, List.not_mem_nil, or_false] at hMem
    rcases hMem with rfl | rfl | rfl | rfl | rfl | rfl <;> simp only <;> decide

end ServicePlatform.Gateway
