import ServicePlatform.Kernel.ServiceApp
import ServicePlatform.Text.Fields

/-! The function whitelist of the gateway. It is the outermost middleware: a
request below `/v1/` needs a valid token and a rule for its method and path,
and is answered with a problem document of its own otherwise. -/
namespace ServicePlatform.Gateway

/-- `RouteRule`. -/
structure RouteRule where
  method : String
  path : String
  roles : List String

/-- `ROUTE_WHITELIST`. -/
def routeWhitelist : List RouteRule :=
  [⟨"POST", "/v1/users", ["user", "admin"]⟩, ⟨"GET", "/v1/users/\x7buser_id\x7d", ["user", "admin"]⟩]

/-- A character of a pattern, or a placeholder for one segment. -/
inductive PatternPart where
  | char (c : Char)
  | segment
  deriving DecidableEq

/-- The parts of a pattern, of which the first characters belong to a
placeholder that is replaced. -/
def patternPartsFrom : Nat → List Char → List PatternPart
  | _, [] => []
  | skipped + 1, _ :: rest => patternPartsFrom skipped rest
  | 0, c :: rest =>
      let name := rest.takeWhile fun d => d ≠ '\x7d'
      if c = '\x7b' ∧ name ≠ [] ∧ name.length < rest.length then
        .segment :: patternPartsFrom (name.length + 1) rest
      else .char c :: patternPartsFrom 0 rest

/-- The regular expression of a pattern that has no operators of its own. -/
def patternParts (pattern : String) : List PatternPart := patternPartsFrom 0 pattern.toList

/-- `re.match` up to the end of the text, or up to a line feed that ends it. -/
def matchParts : List Char → List PatternPart → Bool
  | [], parts => parts.isEmpty
  | c :: rest, [] => c == '\n' && rest.isEmpty
  | c :: rest, .char d :: parts => c == d && matchParts rest parts
  | c :: rest, .segment :: parts => c != '/' && (matchParts rest parts || matchParts rest (.segment :: parts))

/-- `_match`. -/
def matchPath (pattern path : String) : Bool := matchParts path.toList (patternParts pattern)

/-- `check_function_access`. -/
def checkFunctionAccess (registry : ErrorRegistry) (method path : String) (identity : Identity) :
    Except AppError Unit :=
  match routeWhitelist.find? fun rule => rule.method == method && matchPath rule.path path with
  | none => .error (AppError.make registry "FORBIDDEN" (some "功能不在白名单中") none none)
  | some rule =>
      if rule.roles = [] ∨ ∃ role ∈ identity.roles, role ∈ rule.roles then .ok ()
      else .error (AppError.make registry "FORBIDDEN" (some "角色无权访问该功能") none none)

def bearerPrefix : List Char := "Bearer ".toList

/-- `verify_token`. -/
def verifyToken (registry : ErrorRegistry) (devToken : String) (authorization : Option String) :
    Except AppError Identity :=
  match authorization with
  | none => .error (AppError.make registry "UNAUTHORIZED" (some "缺少访问令牌") none none)
  | some text =>
      if bearerPrefix.isPrefixOf text.toList then
        if Text.strip (text.toList.drop bearerPrefix.length) = devToken.toList then
          .ok ⟨"dev-user", ["user", "admin"], some "dev-tenant"⟩
        else .error (AppError.make registry "UNAUTHORIZED" (some "令牌无效") none none)
      else .error (AppError.make registry "UNAUTHORIZED" (some "缺少访问令牌") none none)

/-- The error for which `FunctionWhitelistMiddleware` rejects a request. -/
def rejection (registry : ErrorRegistry) (devToken : String) (request : HttpRequest) : Option AppError :=
  if "/v1/".toList.isPrefixOf request.path.toList then
    match verifyToken registry devToken (request.header "authorization") with
    | .error error => some error
    | .ok identity =>
        match checkFunctionAccess registry request.method request.path identity with
        | .error error => some error
        | .ok () => none
  else none

/-- The response to a rejected request, which has no context yet. -/
def rejectionResponse (codec : JsonCodec) (request : HttpRequest) (error : AppError) : Option HttpResponse :=
  jsonResponse codec error.httpStatus
    (problemDocument { code := error.errorCode, httpStatus := error.httpStatus, title := error.title, defaultMessage := "" }
      error.message "" request.path none none)
    [] "application/problem+json"

section Refused

variable {registry : ErrorRegistry} {devToken : String} {identity : Identity} {request : HttpRequest} {error : AppError}

theorem unauthorized_of_verifyToken {authorization : Option String}
    (h : verifyToken registry devToken authorization = .error error) :
    ∃ message, error = AppError.make registry ErrorCode.unauthorized.code message none none := by
  unfold verifyToken at h
  split at h
  · cases h
    exact ⟨_, rfl⟩
  · split at h
    · split at h
      · cases h
      · cases h
        exact ⟨_, rfl⟩
    · cases h
      exact ⟨_, rfl⟩

theorem forbidden_of_checkFunctionAccess {method path : String}
    (h : checkFunctionAccess registry method path identity = .error error) :
    ∃ message, error = AppError.make registry ErrorCode.forbidden.code message none none := by
  unfold checkFunctionAccess at h
  split at h
  · cases h
    exact ⟨_, rfl⟩
  · split at h
    · cases h
    · cases h
      exact ⟨_, rfl⟩

theorem refusal_of_rejection (h : rejection registry devToken request = some error) : Refusal registry error := by
  unfold rejection at h
  split at h
  · split at h
    · next hToken =>
        cases h
        exact ⟨_, by simp, unauthorized_of_verifyToken hToken⟩
    · split at h
      · next hAccess =>
          cases h
          exact ⟨_, by simp, forbidden_of_checkFunctionAccess hAccess⟩
      · cases h
  · cases h

/-- A refusal is always rendered: its document has texts and a status, and no
header is made of it. -/
theorem rejectionResponse_of_refusal (codec : JsonCodec) (request : HttpRequest) (h : Refusal registry error) :
    ∃ items body, rejectionResponse codec request error =
        some (bodyResponse error.httpStatus [] "application/problem+json" body) ∧
      codec.dumps (.dict items) = some body ∧ items.lookup (.str "status") = some (.int error.httpStatus) := by
  obtain ⟨ec, -, hBuiltin, message, rfl⟩ := h.entry
  have hStatus := (ErrorCode.builtin_plain hBuiltin).2
  obtain ⟨items, hItems, hFlat⟩ := problemDocument_flat
    (show ({ code := ec.code, httpStatus := ec.httpStatus, title := ec.title, defaultMessage := "" } :
      ErrorCode).httpStatus < 2 ^ 63 from hStatus) message "" request.path
  obtain ⟨body, -, hBody, -, -⟩ := codec.dumps_flat items hFlat
  have hPlain : ∀ header ∈ ([] : Headers), Latin1 header.2 := fun _ hMem => nomatch hMem
  refine ⟨items, body, jsonResponse_eq_some.mpr ⟨hPlain, body, hItems ▸ hBody, rfl⟩, hBody, ?_⟩
  cases hItems
  rfl

end Refused

/-- A kernel application, and the token of the gateway when it stands behind
the whitelist. -/
structure EdgeApp where
  app : ServiceApp
  devToken : Option String

namespace EdgeApp

/-- The error for which a request does not reach the application. -/
def rejected (edge : EdgeApp) (request : HttpRequest) : Option AppError :=
  edge.devToken.bind fun devToken => rejection edge.app.registry devToken request

/-- What `FunctionWhitelistMiddleware` sends to a rejected request. -/
def reject (edge : EdgeApp) (request : HttpRequest) (error : AppError) : Exchange :=
  match rejectionResponse edge.app.codec request error with
  | some response => response.exchange
  | none => edge.app.serverError request "" ⟨[], true⟩

def serve (edge : EdgeApp) (store : HttpStore) (request : HttpRequest) (run : RouteRun) : Served :=
  match edge.rejected request with
  | some error => ⟨store, edge.reject request error, false⟩
  | none => edge.app.serve store request run

/-- The same with a store whose calls may raise: what is sent. -/
def serveWith (edge : EdgeApp) (faults : StoreFaults) (store : HttpStore) (request : HttpRequest) (run : RouteRun) :
    Exchange :=
  match edge.rejected request with
  | some error => edge.reject request error
  | none => edge.app.serveWith faults store request run

variable {edge : EdgeApp} {store : HttpStore} {request : HttpRequest} {run : RouteRun} {faults : StoreFaults}
  {error : AppError}

theorem refusal_of_rejected (h : edge.rejected request = some error) : Refusal edge.app.registry error := by
  obtain ⟨devToken, -, hRejection⟩ := Option.bind_eq_some_iff.mp h
  exact refusal_of_rejection hRejection

theorem response_reject (h : edge.rejected request = some error) :
    (edge.reject request error).response = rejectionResponse edge.app.codec request error := by
  obtain ⟨items, body, hResponse, -, -⟩ :=
    rejectionResponse_of_refusal edge.app.codec request (refusal_of_rejected h)
  rw [reject, hResponse]
  exact Exchange.response_exchange _

theorem serve_rejected (h : edge.rejected request = some error) :
    (edge.serve store request run).exchange.response = rejectionResponse edge.app.codec request error := by
  simp only [serve, h]
  exact response_reject h

theorem serve_accepted (h : edge.rejected request = none) :
    edge.serve store request run = edge.app.serve store request run := by
  simp only [serve, h]

/-- Where the store does not fail, this is what is served. -/
theorem serveWith_sound (edge : EdgeApp) (store : HttpStore) (request : HttpRequest) (run : RouteRun) :
    edge.serveWith ⟨false, false⟩ store request run = (edge.serve store request run).exchange := by
  unfold serveWith serve
  cases edge.rejected request with
  | some error => rfl
  | none => exact ServiceApp.serveWith_sound ..

end EdgeApp

/-- The values of all headers with a name, as `httpx` joins them. -/
def joinedHeader (headers : Headers) (name : String) : Option String :=
  match headers.filter fun header => lowerName header.1 = name with
  | [] => none
  | found => some (", ".intercalate (found.map Prod.snd))

/-- The response of `proxy_request` to a response of an instance. -/
def proxyResponse (upstream : HttpResponse) : HttpResponse where
  status := upstream.status
  headers := [("content-type", (joinedHeader upstream.headers "content-type").getD "application/json")] ++
    ((joinedHeader upstream.headers "x-upstream").map fun url => ("x-upstream", url)).toList ++
    (if upstream.status < 200 ∨ upstream.status = 204 ∨ upstream.status = 304 then []
      else [("content-length", toString upstream.body.length)])
  body := upstream.body

theorem mem_proxyResponse_headers {upstream : HttpResponse} {header : String × String}
    (h : header ∈ (proxyResponse upstream).headers) :
    header.1 = "content-type" ∨ header.1 = "x-upstream" ∨ header.1 = "content-length" := by
  rcases List.mem_append.mp h with h | hLength
  · rcases List.mem_append.mp h with hType | hUpstream
    · rw [List.mem_singleton.mp hType]
      exact Or.inl rfl
    · obtain ⟨url, -, rfl⟩ := Option.map_eq_some_iff.mp (Option.mem_toList.mp hUpstream)
      exact Or.inr (Or.inl rfl)
  · split at hLength
    · cases hLength
    · rw [List.mem_singleton.mp hLength]
      exact Or.inr (Or.inr rfl)

/-- A route that answers with the response of an instance. -/
def relayRun (upstream : HttpResponse) : RouteRun := ⟨some (proxyResponse upstream).sent, .returned⟩

example : matchPath "/v1/users/\x7buser_id\x7d" "/v1/users/42" = true ∧
    matchPath "/v1/users/\x7buser_id\x7d" "/v1/users/42/x" = false := by decide

end ServicePlatform.Gateway
