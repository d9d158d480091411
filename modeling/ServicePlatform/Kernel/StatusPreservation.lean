import ServicePlatform.Kernel.ServiceApp

/-! Whether an exception keeps its own HTTP status when it is rendered. The
handler of business errors prefers the registry to the exception, and the one
of HTTP exceptions knows twelve statuses and answers every other with 500. What
neither of them renders is answered with 500 by the server's error handler. -/
namespace ServicePlatform

/-- The arguments of `AppError.__init__`, and the `error_code` of the class. -/
structure AppErrorArgs where
  classCode : String
  message : Option String := none
  code : Option String := none
  detail : Option PyValue := none
  httpStatus : Option Nat := none
  retryAfter : Option Nat := none

namespace AppErrorArgs

/-- The business code that is looked up. -/
def businessCode (args : AppErrorArgs) : String := orDefault args.code args.classCode

/-- `http_status or default`. -/
def statusOr (args : AppErrorArgs) (default : Nat) : Nat :=
  match args.httpStatus with
  | some status => if status = 0 then default else status
  | none => default

/-- `AppError.__init__`. -/
def init (registry : ErrorRegistry) (args : AppErrorArgs) : AppError :=
  match getErrorCode registry args.businessCode with
  | some ec =>
      ⟨ec.code, args.statusOr ec.httpStatus, ec.title, orDefault args.message ec.defaultMessage, args.detail,
        args.retryAfter⟩
  | none =>
      ⟨args.businessCode, args.statusOr 500, "Error", orDefault args.message args.businessCode, args.detail,
        args.retryAfter⟩

end AppErrorArgs

/-- An exception with an HTTP status, as a route raises it. -/
inductive StatusError where
  | app (args : AppErrorArgs)
  | http (status : Nat) (detail : String)

namespace StatusError

variable (app : ServiceApp)

def ending : StatusError → RouteEnd
  | .app args => .raisedApp (args.init app.registry)
  | .http status detail => .raisedHttp status detail

/-- The `http_status` or `status_code` of the exception itself. -/
def ownStatus : StatusError → Nat
  | .app args => (args.init app.registry).httpStatus
  | .http status _ => status

/-- The statuses in the table of `lookup_http_error`. -/
def standardStatuses : List Nat := [400, 401, 403, 404, 405, 409, 422, 429, 500, 502, 503, 504]

/-- The exception and the table agree: the code is not registered, or there is
no override, or one with the status of the code; the status is in the table. -/
def Agrees : StatusError → Prop
  | .app args => ∀ ec, getErrorCode app.registry args.businessCode = some ec →
      args.httpStatus = none ∨ args.httpStatus = some 0 ∨ args.httpStatus = some ec.httpStatus
  | .http status _ => status ∈ standardStatuses

end StatusError

/-- The response has the status, and so has its JSON object. -/
def HttpResponse.HasStatus (codec : JsonCodec) (response : HttpResponse) (status : Nat) : Prop :=
  response.status = status ∧ ∃ items, codec.dumps (.dict items) = some response.body ∧
    items.lookup (.str "status") = some (.int status)

section Status

variable {app : ServiceApp} {request : HttpRequest} {status : Nat}

/-- A problem response has the status of its error code, twice. -/
theorem hasStatus_problemResponse_iff {codec : JsonCodec} {traceId : String} {ec : ErrorCode}
    {detail : Option String} {errors : Option PyValue} {retryAfter : Option Nat} {response : HttpResponse}
    (h : problemResponse codec request traceId ec detail errors retryAfter = some response) :
    response.HasStatus codec status ↔ ec.httpStatus = status := by
  obtain ⟨-, path, body, -, hBody, rfl⟩ := problemResponse_eq_some.mp h
  constructor
  · exact fun hBoth => hBoth.1
  · rintro rfl
    exact ⟨rfl, _, hBody, rfl⟩

/-- The request context changes neither of the two. -/
theorem hasStatus_withRequestId {codec : JsonCodec} {requestId : String} {response : HttpResponse} :
    (response.withRequestId requestId).HasStatus codec status ↔ response.HasStatus codec status := Iff.rfl

/-- The table gives a code of the status itself, or the fallback. -/
theorem lookupHttpError_status (status : Nat) :
    (lookupHttpError status).httpStatus = status ↔ status ∈ StatusError.standardStatuses := by
  constructor
  · intro h
    rw [← h]
    unfold lookupHttpError
    split <;> decide
  · intro h
    have hTable : ∀ status ∈ StatusError.standardStatuses, (lookupHttpError status).httpStatus = status := by decide
    exact hTable status h

/-- The handler of business errors takes the status of a registered code. -/
theorem entry_status_iff (registry : ErrorRegistry) (args : AppErrorArgs) :
    ((args.init registry).entry registry).httpStatus = (args.init registry).httpStatus ↔
      ∀ ec, getErrorCode registry args.businessCode = some ec → args.statusOr ec.httpStatus = ec.httpStatus := by
  unfold AppError.entry AppErrorArgs.init
  cases hCode : getErrorCode registry args.businessCode with
  | none => simp [hCode]
  | some ec =>
      have hSame := getErrorCode_code hCode
      simp only [hSame, hCode, Option.getD_some, Option.some_inj, forall_eq']
      exact eq_comm

theorem statusOr_eq_iff (args : AppErrorArgs) (default : Nat) :
    args.statusOr default = default ↔
      args.httpStatus = none ∨ args.httpStatus = some 0 ∨ args.httpStatus = some default := by
  unfold AppErrorArgs.statusOr
  cases args.httpStatus with
  | none => simp
  | some status =>
      by_cases hZero : status = 0
      · simp [hZero]
      · simp [hZero]

end Status

namespace StatusError

/-- A response of the exception's own handler has its status exactly when the
exception and the table agree. -/
theorem hasStatus_handler_iff {app : ServiceApp} {request : HttpRequest} {error : StatusError} {response : HttpResponse}
    (h : app.handler request (error.ending app) = some response) :
    response.HasStatus app.codec (error.ownStatus app) ↔ error.Agrees app := by
  cases error with
  | app args =>
      have hProblem : problemResponse app.codec request request.traceId ((args.init app.registry).entry app.registry) _ _ _ =
          some response := h
      rw [hasStatus_problemResponse_iff hProblem]
      simp only [ownStatus, Agrees, entry_status_iff, statusOr_eq_iff]
  | http status detail =>
      have hProblem : problemResponse app.codec request request.traceId (lookupHttpError status) (some detail) none none =
          some response := h
      rw [hasStatus_problemResponse_iff hProblem]
      exact lookupHttpError_status status

/-- The response and its body have the status of the exception exactly when the
exception and the table agree, or when the exception is not rendered and its
status is the one with which the server's error handler answers in its place. -/
theorem status_kept_iff (app : ServiceApp) (request : HttpRequest) (error : StatusError) :
    (∃ response, app.freshResponse request ⟨none, error.ending app⟩ = some response ∧
      response.HasStatus app.codec (error.ownStatus app)) ↔
      app.Answerable request (error.ending app) ∧ error.Agrees app ∨
        ¬ app.Answerable request (error.ending app) ∧ request.urlPath ≠ none ∧ error.ownStatus app = 500 := by
  rw [← ServiceApp.handler_isSome_iff]
  unfold ServiceApp.freshResponse
  cases hHandler : app.handler request (error.ending app) with
  | some response =>
      simp [hasStatus_withRequestId, hasStatus_handler_iff hHandler]
  | none =>
      have hRaises : (error.ending app).raises = true := by cases error <;> rfl
      simp only [hRaises, if_true, Option.isSome_none, Bool.false_eq_true, false_and, not_false_eq_true,
        true_and, false_or]
      rw [← handleUnexpected_isSome app.codec request request.traceId, Option.isSome_iff_exists,
        exists_and_right.symm]
      refine exists_congr fun response => and_congr_right fun hUnexpected => ?_
      rw [hasStatus_problemResponse_iff hUnexpected]
      exact eq_comm

/-- A service without error codes of its own. -/
def plainService : ServiceApp := ⟨emptyObjectCodec, [], "svc"⟩

def plainRequest : HttpRequest where
  method := "GET"
  path := "/"
  headers := []
  body := []
  uuid := ""
  traceId := ""

/-- `HTTPException(418)` is answered with 500, and `NotFoundError(http_status=410)`
with 404. -/
theorem status_lost :
    (plainService.freshResponse plainRequest ⟨none, (http 418 "teapot").ending plainService⟩).map
        HttpResponse.status = some 500 ∧ (http 418 "teapot").ownStatus plainService = 418 ∧
    (plainService.freshResponse plainRequest
        ⟨none, (app { classCode := "NOT_FOUND", httpStatus := some 410 }).ending plainService⟩).map
        HttpResponse.status = some 404 ∧
      (app { classCode := "NOT_FOUND", httpStatus := some 410 }).ownStatus plainService = 410 := by
  decide +kernel

end StatusError

end ServicePlatform
