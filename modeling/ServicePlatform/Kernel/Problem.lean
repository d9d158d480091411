import ServicePlatform.Kernel.Idempotency

/-! Error codes and the problem documents rendered from them. The registry is
the built-in codes followed by those a service registers: a code that is
already registered keeps its first entry. -/
namespace ServicePlatform

structure ErrorCode where
  code : String
  httpStatus : Nat
  title : String
  defaultMessage : String
  logLevel : String := "warning"
  retryable : Bool := false
  deriving DecidableEq

namespace ErrorCode

def internalError : ErrorCode :=
  { code := "INTERNAL_ERROR", httpStatus := 500, title := "Internal Server Error"
    defaultMessage := "服务器内部错误", logLevel := "error" }

def badRequest : ErrorCode :=
  { code := "BAD_REQUEST", httpStatus := 400, title := "Bad Request", defaultMessage := "请求不合法" }

def unauthorized : ErrorCode :=
  { code := "UNAUTHORIZED", httpStatus := 401, title := "Unauthorized"
    defaultMessage := "未认证：缺少可信身份", logLevel := "info" }

def forbidden : ErrorCode :=
  { code := "FORBIDDEN", httpStatus := 403, title := "Forbidden"
    defaultMessage := "无权访问该资源", logLevel := "info" }

def notFound : ErrorCode :=
  { code := "NOT_FOUND", httpStatus := 404, title := "Not Found"
    defaultMessage := "资源不存在", logLevel := "info" }

def methodNotAllowed : ErrorCode :=
  { code := "METHOD_NOT_ALLOWED", httpStatus := 405, title := "Method Not Allowed"
    defaultMessage := "请求方法不被允许", logLevel := "info" }

def conflict : ErrorCode :=
  { code := "CONFLICT", httpStatus := 409, title := "Conflict", defaultMessage := "资源冲突" }

def validationError : ErrorCode :=
  { code := "VALIDATION_ERROR", httpStatus := 422, title := "Validation Error"
    defaultMessage := "请求参数校验失败" }

def rateLimited : ErrorCode :=
  { code := "RATE_LIMITED", httpStatus := 429, title := "Too Many Requests"
    defaultMessage := "请求过于频繁，请稍后再试", retryable := true }

def badGateway : ErrorCode :=
  { code := "BAD_GATEWAY", httpStatus := 502, title := "Bad Gateway"
    defaultMessage := "下游服务不可用", retryable := true }

def serviceUnavailable : ErrorCode :=
  { code := "SERVICE_UNAVAILABLE", httpStatus := 503, title := "Service Unavailable"
    defaultMessage := "服务暂不可用，请稍后再试", retryable := true }

def gatewayTimeout : ErrorCode :=
  { code := "GATEWAY_TIMEOUT", httpStatus := 504, title := "Gateway Timeout"
    defaultMessage := "下游服务响应超时", retryable := true }

def httpError : ErrorCode :=
  { code := "HTTP_ERROR", httpStatus := 500, title := "HTTP Error", defaultMessage := "HTTP 错误" }

def builtin : List ErrorCode :=
  [internalError, badRequest, unauthorized, forbidden, notFound, methodNotAllowed, conflict,
    validationError, rateLimited, badGateway, serviceUnavailable, gatewayTimeout, httpError]

end ErrorCode

/-- `lookup_http_error`. -/
def lookupHttpError : Nat → ErrorCode
  | 400 => .badRequest
  | 401 => .unauthorized
  | 403 => .forbidden
  | 404 => .notFound
  | 405 => .methodNotAllowed
  | 409 => .conflict
  | 422 => .validationError
  | 429 => .rateLimited
  | 500 => .internalError
  | 502 => .badGateway
  | 503 => .serviceUnavailable
  | 504 => .gatewayTimeout
  | _ => .httpError

/-- The codes a service registered after the built-in ones. -/
abbrev ErrorRegistry := List ErrorCode

def getErrorCode (registry : ErrorRegistry) (code : String) : Option ErrorCode :=
  (ErrorCode.builtin ++ registry).find? fun ec => ec.code = code

/-- What the service registers does not change a built-in code. -/
theorem getErrorCode_builtin (registry : ErrorRegistry) {ec : ErrorCode} (h : ec ∈ ErrorCode.builtin) :
    getErrorCode registry ec.code = some ec := by
  have hSelf : ∀ ec ∈ ErrorCode.builtin,
      ErrorCode.builtin.find? (fun other => other.code = ec.code) = some ec := by decide
  rw [getErrorCode, List.find?_append, hSelf ec h]
  rfl

theorem getErrorCode_code {registry : ErrorRegistry} {code : String} {ec : ErrorCode}
    (h : getErrorCode registry code = some ec) : ec.code = code := by
  have hCode := List.find?_some h
  simpa using hCode

structure AppError where
  errorCode : String
  httpStatus : Nat
  title : String
  message : String
  detail : Option PyValue
  retryAfter : Option Nat

/-- Python's `x or default` on an optional text. -/
def orDefault (value : Option String) (default : String) : String :=
  match value with
  | some text => if text = "" then default else text
  | none => default

/-- `AppError.__init__` without a status override, for a class whose
`error_code` is given. -/
def AppError.make (registry : ErrorRegistry) (code : String) (message : Option String)
    (detail : Option PyValue) (retryAfter : Option Nat) : AppError :=
  match getErrorCode registry code with
  | some ec => ⟨ec.code, ec.httpStatus, ec.title, orDefault message ec.defaultMessage, detail, retryAfter⟩
  | none => ⟨code, 500, "Error", orDefault message code, detail, retryAfter⟩

def problemDocument (ec : ErrorCode) (detail traceId path : String) (errors : Option PyValue)
    (retryAfter : Option Nat) : PyValue :=
  .dict ([(.str "type", .str ("/docs/errors#" ++ lowerName ec.code)),
    (.str "title", .str ec.title), (.str "status", .int ec.httpStatus), (.str "detail", .str detail),
    (.str "code", .str ec.code), (.str "instance", .str path), (.str "trace_id", .str traceId)] ++
    (errors.map fun value => (PyKey.str "errors", value)).toList ++
    (retryAfter.map fun seconds : Nat => (PyKey.str "retry_after", PyValue.int seconds)).toList)

/-- `_problem_response`, for a request whose context has the trace id. -/
def problemResponse (codec : JsonCodec) (request : HttpRequest) (traceId : String) (ec : ErrorCode)
    (detail : Option String) (errors : Option PyValue) (retryAfter : Option Nat) : Option HttpResponse :=
  request.urlPath.bind fun path =>
    jsonResponse codec ec.httpStatus
      (problemDocument ec (orDefault detail ec.defaultMessage) traceId path errors retryAfter)
      [("x-error-code", ec.code)] "application/problem+json"

/-- The entry of an error's code, or one made of the error itself. -/
def AppError.entry (registry : ErrorRegistry) (error : AppError) : ErrorCode :=
  (getErrorCode registry error.errorCode).getD
    { code := error.errorCode, httpStatus := error.httpStatus, title := error.title
      defaultMessage := error.message }

theorem AppError.entry_code (registry : ErrorRegistry) (error : AppError) :
    (error.entry registry).code = error.errorCode := by
  unfold entry
  cases hCode : getErrorCode registry error.errorCode with
  | none => rfl
  | some ec => exact getErrorCode_code hCode

/-- `handle_app_error`. The log level of the code is taken to be the name of a level,
or one that counts as a warning, so that the log call before it does not raise. -/
def handleAppError (codec : JsonCodec) (registry : ErrorRegistry) (request : HttpRequest)
    (traceId : String) (error : AppError) : Option HttpResponse :=
  problemResponse codec request traceId (error.entry registry) (some error.message) error.detail error.retryAfter

/-- `handle_http_error`. -/
def handleHttpError (codec : JsonCodec) (request : HttpRequest) (traceId : String) (status : Nat)
    (detail : String) : Option HttpResponse :=
  problemResponse codec request traceId (lookupHttpError status) (some detail) none none

/-- `handle_validation_error`. -/
def handleValidationError (codec : JsonCodec) (request : HttpRequest) (traceId : String)
    (errors : PyValue) : Option HttpResponse :=
  problemResponse codec request traceId .validationError none (some errors) none

/-- `handle_unexpected`. -/
def handleUnexpected (codec : JsonCodec) (request : HttpRequest) (traceId : String) : Option HttpResponse :=
  problemResponse codec request traceId .internalError none none none

section Rendering

variable {codec : JsonCodec} {registry : ErrorRegistry} {request : HttpRequest} {traceId : String}
  {ec : ErrorCode} {detail : Option String} {errors : Option PyValue} {retryAfter : Option Nat}
  {response : HttpResponse}

theorem problemResponse_eq_some :
    problemResponse codec request traceId ec detail errors retryAfter = some response ↔
      Latin1 ec.code ∧ ∃ path body, request.urlPath = some path ∧
        codec.dumps (problemDocument ec (orDefault detail ec.defaultMessage) traceId path errors retryAfter) =
          some body ∧
        bodyResponse ec.httpStatus [("x-error-code", ec.code)] "application/problem+json" body = response := by
  simp only [problemResponse, Option.bind_eq_some_iff, jsonResponse_eq_some, List.mem_singleton, forall_eq]
  constructor
  · rintro ⟨path, hPath, hLatin, body, hBody, hResponse⟩
    exact ⟨hLatin, path, body, hPath, hBody, hResponse⟩
  · rintro ⟨hLatin, path, body, hPath, hBody, hResponse⟩
    exact ⟨path, hPath, hLatin, body, hBody, hResponse⟩

theorem problemResponse_isSome_iff :
    (problemResponse codec request traceId ec detail errors retryAfter).isSome = true ↔
      ∃ path, request.urlPath = some path ∧ Latin1 ec.code ∧
        codec.dumps (problemDocument ec (orDefault detail ec.defaultMessage) traceId path errors retryAfter) ≠
          none := by
  rw [Option.isSome_iff_exists]
  constructor
  · rintro ⟨response, hResponse⟩
    obtain ⟨hLatin, path, body, hPath, hBody, -⟩ := problemResponse_eq_some.mp hResponse
    refine ⟨path, hPath, hLatin, ?_⟩
    rw [hBody]
    exact Option.some_ne_none _
  · rintro ⟨path, hPath, hLatin, hBody⟩
    obtain ⟨body, hBody⟩ := Option.ne_none_iff_exists'.mp hBody
    exact ⟨_, problemResponse_eq_some.mpr ⟨hLatin, path, body, hPath, hBody, rfl⟩⟩

theorem problemResponse_status
    (h : problemResponse codec request traceId ec detail errors retryAfter = some response) :
    response.status = ec.httpStatus := by
  obtain ⟨-, path, body, -, -, rfl⟩ := problemResponse_eq_some.mp h
  rfl

/-- A document without details is made of texts and a status. -/
theorem problemDocument_flat (hStatus : ec.httpStatus < 2 ^ 63) (detail traceId path : String) :
    ∃ items, problemDocument ec detail traceId path none none = .dict items ∧ PyValue.Flat items := by
  refine ⟨_, rfl, ?_, ?_⟩
  · simp
  · intro item hMem
    simp only [Option.map_none, Option.toList_none, List.append_nil, List.mem_cons, List.not_mem_nil, or_false]
      at hMem
    rcases hMem with rfl | rfl | rfl | rfl | rfl | rfl | rfl
    case inr.inr.inl =>
      refine ⟨⟨_, rfl⟩, Or.inr ⟨_, rfl, ?_, ?_⟩⟩
      · omega
      · exact_mod_cast hStatus
    all_goals exact ⟨⟨_, rfl⟩, Or.inl ⟨_, rfl⟩⟩

/-- The text of a built-in code fits a header, and its status is a small number. -/
theorem ErrorCode.builtin_plain {ec : ErrorCode} (h : ec ∈ ErrorCode.builtin) :
    Latin1 ec.code ∧ ec.httpStatus < 2 ^ 63 := by
  have hAll : ∀ ec ∈ ErrorCode.builtin, Latin1 ec.code ∧ ec.httpStatus < 2 ^ 63 := by decide
  exact hAll ec h

theorem lookupHttpError_builtin (status : Nat) : lookupHttpError status ∈ ErrorCode.builtin := by
  unfold lookupHttpError
  split <;> decide

/-- An error of a built-in code without details is rendered wherever the path of
the request can be read. -/
theorem problemResponse_isSome (h : ec ∈ ErrorCode.builtin) :
    (problemResponse codec request traceId ec detail none none).isSome = true ↔ request.urlPath ≠ none := by
  rw [problemResponse_isSome_iff, Option.ne_none_iff_exists']
  refine exists_congr fun path => and_iff_left ?_
  obtain ⟨hLatin, hStatus⟩ := ErrorCode.builtin_plain h
  obtain ⟨items, hItems, hFlat⟩ := problemDocument_flat hStatus (orDefault detail ec.defaultMessage) traceId path
  obtain ⟨body, -, hBody, -, -⟩ := codec.dumps_flat items hFlat
  rw [hItems, hBody]
  exact ⟨hLatin, Option.some_ne_none _⟩

theorem handleUnexpected_isSome (codec : JsonCodec) (request : HttpRequest) (traceId : String) :
    (handleUnexpected codec request traceId).isSome = true ↔ request.urlPath ≠ none :=
  problemResponse_isSome (by decide)

theorem handleHttpError_isSome (status : Nat) (detail : String) :
    (handleHttpError codec request traceId status detail).isSome = true ↔ request.urlPath ≠ none :=
  problemResponse_isSome (lookupHttpError_builtin status)

/-- An error of a built-in class without details is handled as its code says. -/
theorem handleAppError_builtin (h : ec ∈ ErrorCode.builtin) (message : Option String) :
    handleAppError codec registry request traceId (AppError.make registry ec.code message none none) =
      problemResponse codec request traceId ec (some (orDefault message ec.defaultMessage)) none none := by
  have hCode := getErrorCode_builtin registry h
  simp only [AppError.make, hCode, handleAppError, AppError.entry, Option.getD_some]

end Rendering

end ServicePlatform
