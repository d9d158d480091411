import ServicePlatform.Kernel.App
import ServicePlatform.Kernel.Exchange

/-! An application of `create_app` with any routes, message by message. From
the outside in: the server's error handler, metrics and access log (which pass
every message on), idempotency, request context, identity, the exception
handlers, and the routes. What a route does with a request is open. -/
namespace ServicePlatform

/-- How the code of a route ends: the last is an exception that no handler of
the application expects. -/
inductive RouteEnd where
  | returned
  | raisedApp (error : AppError)
  | raisedHttp (status : Nat) (detail : String)
  | raisedValidation (errors : PyValue)
  | raised

/-- An exception ends the code of the route. -/
def RouteEnd.raises : RouteEnd → Bool
  | .returned => false
  | _ => true

/-- A response that has started, with the body messages that were sent and
whether each announced another one. -/
structure SentResponse where
  status : Nat
  headers : Headers
  bodies : List (Bytes × Bool)

namespace SentResponse

def messages (sent : SentResponse) : List AppMessage :=
  .start sent.status sent.headers :: sent.bodies.map fun body => .body body.1 body.2

/-- What the client puts together. -/
def response (sent : SentResponse) : HttpResponse where
  status := sent.status
  headers := sent.headers
  body := (sent.bodies.map Prod.fst).flatten

end SentResponse

/-- What a route does: it may start a response before it ends. -/
structure RouteRun where
  sent : Option SentResponse
  ending : RouteEnd

namespace HttpResponse

def sent (response : HttpResponse) : SentResponse := ⟨response.status, response.headers, [(response.body, false)]⟩

def withRequestId (requestId : String) (response : HttpResponse) : HttpResponse :=
  { response with headers := response.headers ++ [("x-request-id", requestId)] }

theorem response_sent (response : HttpResponse) : response.sent.response = response := by
  cases response
  simp [sent, SentResponse.response]

end HttpResponse

namespace AppMessage

def withHeader (header : String × String) : AppMessage → AppMessage
  | .start status headers => .start status (headers ++ [header])
  | .body chunk moreBody => .body chunk moreBody

end AppMessage

namespace Exchange

/-- `RequestContextMiddleware`. -/
def withRequestId (requestId : String) (exchange : Exchange) : Exchange :=
  ⟨exchange.messages.map (AppMessage.withHeader ("x-request-id", requestId)), exchange.raised⟩

/-- The response as the client puts it together, when one has started. -/
def response (exchange : Exchange) : Option HttpResponse :=
  let collected := exchange.messages.foldl Collected.receive Collected.empty
  collected.started.map fun started => ⟨started.1, started.2, collected.body⟩

theorem any_withRequestId {requestId : String} {exchange : Exchange} {p : AppMessage → Bool}
    (h : ∀ message, p (message.withHeader ("x-request-id", requestId)) = p message) :
    (∃ message ∈ (exchange.withRequestId requestId).messages, p message = true) ↔
      ∃ message ∈ exchange.messages, p message = true := by
  simp [withRequestId, h]

theorem started_withRequestId (requestId : String) (exchange : Exchange) :
    (exchange.withRequestId requestId).Started ↔ exchange.Started := by
  apply any_withRequestId
  intro message
  cases message <;> rfl

theorem completed_withRequestId (requestId : String) (exchange : Exchange) :
    (exchange.withRequestId requestId).Completed ↔ exchange.Completed := by
  apply any_withRequestId
  intro message
  cases message <;> rfl

/-- The header is added to the response, however it is sent. -/
theorem response_withRequestId (requestId : String) (exchange : Exchange) :
    (exchange.withRequestId requestId).response = exchange.response.map (HttpResponse.withRequestId requestId) := by
  have general : ∀ (messages : List AppMessage) (collected : Collected),
      (messages.map (AppMessage.withHeader ("x-request-id", requestId))).foldl Collected.receive
          { collected with started := collected.started.map fun s => (s.1, s.2 ++ [("x-request-id", requestId)]) } =
        { messages.foldl Collected.receive collected with
          started := (messages.foldl Collected.receive collected).started.map fun s =>
            (s.1, s.2 ++ [("x-request-id", requestId)]) } := by
    intro messages
    induction messages with
    | nil => exact fun _ => rfl
    | cons message messages ih =>
        intro collected
        rw [List.map_cons, List.foldl_cons, List.foldl_cons, ← ih]
        cases message <;> rfl
  have hStart := general exchange.messages Collected.empty
  unfold response withRequestId
  simp only [Collected.empty, Option.map_none] at hStart
  simp only [Collected.empty, hStart, Option.map_map]
  rfl

theorem response_sent_messages (sent : SentResponse) (raised : Bool) :
    (⟨sent.messages, raised⟩ : Exchange).response = some sent.response := by
  have general : ∀ (bodies : List (Bytes × Bool)) (collected : Collected),
      (bodies.map fun body => AppMessage.body body.1 body.2).foldl Collected.receive collected =
        { collected with body := collected.body ++ (bodies.map Prod.fst).flatten } := by
    intro bodies
    induction bodies with
    | nil => simp
    | cons body bodies ih =>
        intro collected
        rw [List.map_cons, List.foldl_cons, ih]
        simp [Collected.receive]
  unfold response SentResponse.messages
  rw [List.foldl_cons, general]
  rfl

theorem cut_withRequestId (requestId : String) (exchange : Exchange) :
    (exchange.withRequestId requestId).cut = exchange.cut.withRequestId requestId := by
  unfold cut
  by_cases hCompleted : exchange.Completed
  · rw [if_pos hCompleted, if_pos ((completed_withRequestId _ _).mpr hCompleted)]
    have hSame : (fun message : AppMessage => !message.isFinal) ∘ AppMessage.withHeader ("x-request-id", requestId) =
        fun message => !message.isFinal := by
      funext message
      cases message <;> rfl
    simp only [withRequestId, List.takeWhile_map, hSame]
  · rw [if_neg hCompleted, if_neg (fun h => hCompleted ((completed_withRequestId _ _).mp h))]

/-- A response that is cut off has started all the same. -/
theorem cut_sent (sent : SentResponse) (raised : Bool) : ∃ bodies raised',
    (⟨sent.messages, raised⟩ : Exchange).cut = ⟨SentResponse.messages { sent with bodies := bodies }, raised'⟩ := by
  unfold cut
  split
  · have hBodies : (fun message : AppMessage => !message.isFinal) ∘ (fun body : Bytes × Bool => .body body.1 body.2) =
        Prod.snd := by
      funext body
      simp
    have hStart : (AppMessage.start sent.status sent.headers).isFinal = false := rfl
    refine ⟨sent.bodies.takeWhile Prod.snd, true, ?_⟩
    simp only [SentResponse.messages, List.takeWhile_cons, hStart, Bool.not_false, if_true, List.takeWhile_map, hBodies]
  · exact ⟨sent.bodies, raised, rfl⟩

theorem response_exchange (response : HttpResponse) : response.exchange.response = some response := by
  have hSent : response.exchange = ⟨response.sent.messages, false⟩ := rfl
  rw [hSent, response_sent_messages, HttpResponse.response_sent]

end Exchange

structure ServiceApp where
  codec : JsonCodec
  registry : ErrorRegistry
  service : String

namespace ServiceApp

variable (app : ServiceApp)

/-- The response of the exception handler that an exception has, unless the
handler raises while it renders it. -/
def handler (request : HttpRequest) : RouteEnd → Option HttpResponse
  | .raisedApp error => handleAppError app.codec app.registry request request.traceId error
  | .raisedHttp status detail => handleHttpError app.codec request request.traceId status detail
  | .raisedValidation errors => handleValidationError app.codec request request.traceId errors
  | .returned => none
  | .raised => none

/-- The exception has a handler that renders it: the path of the URL can be read,
the code of the error can be a header value, and the details of the error are
JSON. -/
def Answerable (request : HttpRequest) : RouteEnd → Prop
  | .raisedApp error => ∃ path, request.urlPath = some path ∧ Latin1 error.errorCode ∧
      app.codec.dumps (problemDocument (error.entry app.registry)
        (orDefault (some error.message) (error.entry app.registry).defaultMessage) request.traceId path error.detail
        error.retryAfter) ≠ none
  | .raisedHttp _ _ => request.urlPath ≠ none
  | .raisedValidation errors => ∃ path, request.urlPath = some path ∧
      app.codec.dumps (problemDocument .validationError ErrorCode.validationError.defaultMessage request.traceId path
        (some errors) none) ≠ none
  | .returned => False
  | .raised => False

/-- The exception handlers around a route. They have no effect once a response
has started: the exception then leaves the application, as it does where no
handler renders it. -/
def handled (request : HttpRequest) (run : RouteRun) : Exchange :=
  match run.sent with
  | some sent => ⟨sent.messages, run.ending.raises⟩
  | none =>
      match app.handler request run.ending with
      | some response => response.exchange
      | none => ⟨[], run.ending.raises⟩

/-- What the idempotency middleware wraps. -/
def inner (request : HttpRequest) (run : RouteRun) : Exchange :=
  (app.handled request run).withRequestId (KernelApp.requestId request)

def idempotency : IdempotencyMiddleware := ⟨app.codec, app.service⟩

def storeKey (request : HttpRequest) : Option String := request.storeKey app.service

/-- The server's error handler, which answers what has not been answered unless it
raises itself. The exception goes on. -/
def serverError (request : HttpRequest) (traceId : String) (exchange : Exchange) : Exchange :=
  if exchange.raised = true ∧ ¬ exchange.Started then
    match handleUnexpected app.codec request traceId with
    | some response => ⟨exchange.messages ++ response.exchange.messages, true⟩
    | none => exchange
  else exchange

/-- The application on one request. An exception carries the trace id of the
context in which it is handled, which is empty before the context is set. -/
def serve (store : HttpStore) (request : HttpRequest) (run : RouteRun) : Served :=
  let served := app.idempotency.call store request (app.inner request run)
  { served with
    exchange := app.serverError request (if served.called then request.traceId else "") served.exchange }

/-- The same with a store whose calls may raise: what is sent. -/
def serveWith (faults : StoreFaults) (store : HttpStore) (request : HttpRequest) (run : RouteRun) : Exchange :=
  let sent := app.idempotency.callWith faults store request (app.inner request run)
  app.serverError request (if sent.2 then request.traceId else "") sent.1

/-- The response to a request for which the routes are called. -/
def freshResponse (request : HttpRequest) (run : RouteRun) : Option HttpResponse :=
  match run.sent with
  | some sent => some (sent.response.withRequestId (KernelApp.requestId request))
  | none =>
      match app.handler request run.ending with
      | some response => some (response.withRequestId (KernelApp.requestId request))
      | none => if run.ending.raises then handleUnexpected app.codec request request.traceId else none

/-- The response to a request whose key is stored. -/
def replayedResponse (cached : CachedResponse) (request : HttpRequest) : Option HttpResponse :=
  (cached.replay app.codec).or (handleUnexpected app.codec request "")

variable {app} {store : HttpStore} {request : HttpRequest} {run : RouteRun} {key : String} {faults : StoreFaults}

theorem serverError_started {exchange : Exchange} (traceId : String) (h : exchange.Started) :
    app.serverError request traceId exchange = exchange :=
  if_neg fun hSilent => hSilent.2 h

theorem serverError_returned {exchange : Exchange} (traceId : String) (h : exchange.raised = false) :
    app.serverError request traceId exchange = exchange := by
  apply if_neg
  rw [h]
  rintro ⟨hRaised, -⟩
  cases hRaised

theorem serverError_silent (traceId : String) :
    (app.serverError request traceId ⟨[], true⟩).response = handleUnexpected app.codec request traceId := by
  have hSilent : ¬ (⟨[], true⟩ : Exchange).Started := by simp [Exchange.Started]
  rw [serverError, if_pos ⟨rfl, hSilent⟩]
  cases handleUnexpected app.codec request traceId with
  | none => rfl
  | some response => exact Exchange.response_exchange response

theorem started_sent (sent : SentResponse) (raised : Bool) : (⟨sent.messages, raised⟩ : Exchange).Started :=
  ⟨_, List.mem_cons_self .., rfl⟩

theorem handler_isSome_iff {ending : RouteEnd} :
    (app.handler request ending).isSome = true ↔ app.Answerable request ending := by
  cases ending with
  | returned => simp [handler, Answerable]
  | raised => simp [handler, Answerable]
  | raisedHttp status detail => exact handleHttpError_isSome status detail
  | raisedApp error =>
      refine problemResponse_isSome_iff.trans ?_
      rw [AppError.entry_code]
      rfl
  | raisedValidation errors =>
      have hLatin : Latin1 ErrorCode.validationError.code := by decide
      exact problemResponse_isSome_iff.trans (exists_congr fun path => and_congr_right fun _ => and_iff_right hLatin)

/-- The exception handlers, for a route that has started a response. -/
theorem handled_sent (app : ServiceApp) (request : HttpRequest) {sent : SentResponse} (h : run.sent = some sent) :
    app.handled request run = ⟨sent.messages, run.ending.raises⟩ := by
  simp only [handled, h]

theorem handled_handler {response : HttpResponse} (h : run.sent = none)
    (hHandler : app.handler request run.ending = some response) : app.handled request run = response.exchange := by
  simp only [handled, h, hHandler]

theorem handled_silent (h : run.sent = none) (hHandler : app.handler request run.ending = none) :
    app.handled request run = ⟨[], run.ending.raises⟩ := by
  simp only [handled, h, hHandler]

/-- What the client gets of the wrapped application, with the server's error
handler around it. -/
theorem response_inner : (app.serverError request request.traceId (app.inner request run)).response =
    app.freshResponse request run := by
  unfold inner freshResponse
  cases hSent : run.sent with
  | some sent =>
      rw [handled_sent app request hSent, serverError_started _ ((Exchange.started_withRequestId _ _).mpr
        (started_sent sent _)), Exchange.response_withRequestId, Exchange.response_sent_messages, Option.map_some]
  | none =>
      cases hHandler : app.handler request run.ending with
      | some response =>
          rw [handled_handler hSent hHandler, serverError_returned _ rfl, Exchange.response_withRequestId,
            Exchange.response_exchange, Option.map_some]
      | none =>
          rw [handled_silent hSent hHandler]
          cases hRaised : run.ending.raises with
          | true => exact serverError_silent _
          | false =>
              rw [serverError_returned _ rfl]
              rfl

/-- Where the store does not fail, this is what is served. -/
theorem serveWith_sound (app : ServiceApp) (store : HttpStore) (request : HttpRequest) (run : RouteRun) :
    app.serveWith ⟨false, false⟩ store request run = (app.serve store request run).exchange := by
  simp only [serveWith, serve, IdempotencyMiddleware.callWith_sound]

/-- A request for which the routes are called. -/
theorem serve_called (h : ∀ key, app.storeKey request = some key → store.get key = none) :
    (app.serve store request run).exchange.response = app.freshResponse request run := by
  have hCalled : (app.idempotency.call store request (app.inner request run)).called = true :=
    IdempotencyMiddleware.called_iff.mpr h
  have hServed : (app.serve store request run).exchange =
      app.serverError request request.traceId (app.inner request run) := by
    simp only [serve, hCalled, IdempotencyMiddleware.exchange_of_called hCalled, if_true]
  rw [hServed, response_inner]

theorem response_replayed (app : ServiceApp) (request : HttpRequest) (cached : CachedResponse) :
    (app.serverError request "" (cached.exchange app.codec)).response = app.replayedResponse cached request := by
  unfold replayedResponse CachedResponse.exchange
  cases cached.replay app.codec with
  | some response =>
      rw [serverError_returned _ rfl]
      exact Exchange.response_exchange response
  | none => exact serverError_silent _

/-- A request whose key is stored. -/
theorem serve_replayed {cached : CachedResponse} (h : app.storeKey request = some key)
    (hTaken : store.get key = some cached) :
    (app.serve store request run).exchange.response = app.replayedResponse cached request := by
  have hServed : (app.serve store request run).exchange =
      app.serverError request "" (cached.exchange app.codec) := by
    have hKnown : app.idempotency.call store request (app.inner request run) = _ :=
      IdempotencyMiddleware.call_known h hTaken
    simp only [serve, hKnown]
    rfl
  rw [hServed, response_replayed]

/-- What is cut off the response of the wrapped application is none of its head. -/
theorem head_cut_inner : ((app.serverError request request.traceId (app.inner request run).cut).response).map
    HttpResponse.head = (app.freshResponse request run).map HttpResponse.head := by
  have started : ∀ (sent : SentResponse) (raised : Bool), app.handled request run = ⟨sent.messages, raised⟩ →
      ((app.serverError request request.traceId (app.inner request run).cut).response).map HttpResponse.head =
        some (sent.response.withRequestId (KernelApp.requestId request)).head := by
    intro sent raised hHandled
    obtain ⟨bodies, raised', hCut⟩ := Exchange.cut_sent sent raised
    rw [inner, hHandled, Exchange.cut_withRequestId, hCut,
      serverError_started _ ((Exchange.started_withRequestId _ _).mpr (started_sent _ _)),
      Exchange.response_withRequestId, Exchange.response_sent_messages]
    rfl
  cases hSent : run.sent with
  | some sent =>
      rw [started sent _ (handled_sent app request hSent)]
      simp only [freshResponse, hSent, Option.map_some]
  | none =>
      cases hHandler : app.handler request run.ending with
      | some response =>
          rw [started response.sent false (handled_handler hSent hHandler), HttpResponse.response_sent]
          simp only [freshResponse, hSent, hHandler, Option.map_some]
      | none =>
          have hWhole : (app.inner request run).cut = app.inner request run := by
            rw [inner, handled_silent hSent hHandler]
            exact if_neg (by simp [Exchange.withRequestId, Exchange.Completed])
          rw [hWhole, response_inner]

/-- A request for which the routes are called, however storing its response ends. -/
theorem head_serveWith (h : ∀ key, app.storeKey request = some key → faults.get = false ∧ store.get key = none) :
    (app.serveWith faults store request run).response.map HttpResponse.head =
      (app.freshResponse request run).map HttpResponse.head := by
  cases hKey : app.storeKey request with
  | none =>
      have hCall : app.idempotency.callWith faults store request (app.inner request run) =
          (app.inner request run, true) := by
        have hOwn : request.storeKey app.idempotency.service = none := hKey
        simp only [IdempotencyMiddleware.callWith, hOwn]
      simp only [serveWith, hCall, if_true, response_inner]
  | some key =>
      obtain ⟨hGet, hFree⟩ := h key hKey
      have hCall : app.idempotency.callWith faults store request (app.inner request run) =
          (if faults.put then (app.inner request run).cut else app.inner request run, true) := by
        have hOwn : request.storeKey app.idempotency.service = some key := hKey
        simp only [IdempotencyMiddleware.callWith, hOwn, hGet, hFree, Bool.false_eq_true, if_false]
      simp only [serveWith, hCall, if_true]
      cases faults.put with
      | true => exact head_cut_inner
      | false => exact congrArg _ response_inner

/-- A request whose key cannot be looked up. -/
theorem serveWith_failed (hKey : app.storeKey request = some key) (hGet : faults.get = true) :
    (app.serveWith faults store request run).response = handleUnexpected app.codec request "" := by
  have hOwn : request.storeKey app.idempotency.service = some key := hKey
  simp only [serveWith, IdempotencyMiddleware.callWith, hOwn, hGet, if_true]
  exact serverError_silent _

/-- A request whose key is looked up and stored. -/
theorem serveWith_replayed {cached : CachedResponse} (hKey : app.storeKey request = some key)
    (hGet : faults.get = false) (hTaken : store.get key = some cached) :
    (app.serveWith faults store request run).response = app.replayedResponse cached request := by
  have hOwn : request.storeKey app.idempotency.service = some key := hKey
  simp only [serveWith, IdempotencyMiddleware.callWith, hOwn, hGet, hTaken, Bool.false_eq_true, if_false]
  exact response_replayed app request cached

/-- Every exception handler answers with a problem response. -/
theorem handler_problem {ending : RouteEnd} {response : HttpResponse} (h : app.handler request ending = some response) :
    ∃ ec detail errors retryAfter,
      problemResponse app.codec request request.traceId ec detail errors retryAfter = some response := by
  cases ending with
  | returned => cases h
  | raised => cases h
  | raisedApp error => exact ⟨_, _, _, _, h⟩
  | raisedHttp status detail => exact ⟨_, _, _, _, h⟩
  | raisedValidation errors => exact ⟨_, _, _, _, h⟩

/-- The wrapped application completes its response when a handler answers, or
when the route sends its last body message. -/
theorem completed_inner_iff : (app.inner request run).Completed ↔
    match run.sent with
    | some sent => ∃ body ∈ sent.bodies, body.2 = false
    | none => app.Answerable request run.ending := by
  unfold inner
  rw [Exchange.completed_withRequestId]
  cases hSent : run.sent with
  | some sent =>
      rw [handled_sent app request hSent]
      constructor
      · rintro ⟨message, hMem, hFinal⟩
        rcases List.mem_cons.mp hMem with rfl | hBody
        · cases hFinal
        · obtain ⟨body, hListed, rfl⟩ := List.mem_map.mp hBody
          exact ⟨body, hListed, by simpa using hFinal⟩
      · rintro ⟨body, hBody, hLast⟩
        refine ⟨_, List.mem_cons_of_mem _ (List.mem_map_of_mem hBody), ?_⟩
        simp [hLast]
  | none =>
      simp only [← handler_isSome_iff]
      cases hHandler : app.handler request run.ending with
      | some response =>
          rw [handled_handler hSent hHandler]
          simp [Exchange.Completed, HttpResponse.exchange, AppMessage.isFinal]
      | none =>
          rw [handled_silent hSent hHandler]
          simp [Exchange.Completed]

end ServiceApp

namespace KernelApp

variable (app : KernelApp)

def toService : ServiceApp := ⟨app.codec, app.registry, app.serviceName⟩

/-- What the protected route does. -/
def run (request : HttpRequest) : RouteRun :=
  match requireRoles app.registry app.roles (app.identity request) with
  | .error error => ⟨none, .raisedApp error⟩
  | .ok user =>
      match app.handler user request with
      | .responds response => ⟨some response.sent, .returned⟩
      | .raisesApp error => ⟨none, .raisedApp error⟩
      | .raises => ⟨none, .raised⟩

variable {app} {store : HttpStore} {request : HttpRequest} {key : String}

theorem freshResponse_run : app.toService.freshResponse request (app.run request) = app.freshAnswer request := by
  have rendered (error : AppError) : app.toService.freshResponse request ⟨none, .raisedApp error⟩ =
      ((handleAppError app.codec app.registry request request.traceId error).map
        (HttpResponse.withRequestId (requestId request))).or
          (handleUnexpected app.codec request request.traceId) := by
    have hHandler : app.toService.handler request (.raisedApp error) =
        handleAppError app.codec app.registry request request.traceId error := rfl
    simp only [ServiceApp.freshResponse, hHandler]
    cases handleAppError app.codec app.registry request request.traceId error <;> rfl
  unfold run freshAnswer contextual route
  cases requireRoles app.registry app.roles (app.identity request) with
  | error error => exact rendered error
  | ok user =>
      cases hHandler : app.handler user request with
      | responds response =>
          simp only [hHandler, ServiceApp.freshResponse, HttpResponse.response_sent]
          rfl
      | raisesApp error =>
          simp only [hHandler]
          exact rendered error
      | raises =>
          simp only [hHandler]
          rfl

theorem storeKey_toService : app.toService.storeKey request = app.storeKey request := rfl

theorem replayedResponse_toService (cached : CachedResponse) :
    app.toService.replayedResponse cached request = app.replayedAnswer cached request := rfl

/-- An application with one protected route is answered alike in both views. -/
theorem serve_run : (app.toService.serve store request (app.run request)).exchange.response =
    (app.serve store request).2 := by
  cases hKey : app.storeKey request with
  | none =>
      have hFree : ∀ key, app.toService.storeKey request = some key → store.get key = none := by
        intro key hOwn
        rw [storeKey_toService, hKey] at hOwn
        cases hOwn
      rw [serve_unguarded hKey, ServiceApp.serve_called hFree, freshResponse_run]
  | some key =>
      cases hStore : store.get key with
      | some cached =>
          rw [serve_replayed hKey hStore, ServiceApp.serve_replayed (storeKey_toService.trans hKey) hStore,
            replayedResponse_toService]
      | none =>
          have hFree : ∀ key, app.toService.storeKey request = some key → store.get key = none := by
            intro own hOwn
            rw [storeKey_toService, hKey] at hOwn
            cases hOwn
            exact hStore
          rw [serve_fresh hKey hStore, ServiceApp.serve_called hFree, freshResponse_run]

end KernelApp

end ServicePlatform
