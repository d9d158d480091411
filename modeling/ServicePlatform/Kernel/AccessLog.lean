import ServicePlatform.Kernel.Metrics
import ServicePlatform.Kernel.ServiceApp
import ServicePlatform.Text.Fields

/-! The access log and the request counter, next to each other around the rest
of an application. Both watch the messages of a request for its status. The
counter is written however the request ends, and the log only when the wrapped
application returns. -/
namespace ServicePlatform

open Text Transition

/-- The fields of a `kernel.access` record, apart from the duration. -/
structure AccessRecord where
  method : String
  path : String
  status : Option Nat
  clientIp : String
  deriving DecidableEq

/-- The client that the headers name. -/
def HttpRequest.clientIp (request : HttpRequest) : String :=
  let forwarded := (splitComma ((request.header "x-forwarded-for").getD "").toList).headD []
  orDefault (some (String.ofList (strip forwarded))) ((request.header "x-real-ip").getD "")

/-- A request that both middlewares have taken up, with the `status_holder` of
each. -/
structure WatchedCall where
  request : HttpRequest
  accessStatus : Option Nat
  metricsStatus : Option Nat

inductive WatchPhase where
  | waiting
  | running (call : WatchedCall)
  | over

/-- The calls, the records that were logged, the requests that were counted, and
the gauge of requests in flight. -/
structure WatchState where
  calls : RequestId → WatchPhase
  access : List AccessRecord
  counted : List CountedRequest
  inFlight : Int

namespace WatchState

def initial : WatchState := ⟨fun _ => .waiting, [], [], 0⟩

def setCall (s : WatchState) (r : RequestId) (phase : WatchPhase) : WatchState :=
  { s with calls := Function.update s.calls r phase }

@[simp] theorem setCall_self (s : WatchState) (r : RequestId) (phase : WatchPhase) :
    (s.setCall r phase).calls r = phase := Function.update_self _ _ _

theorem setCall_of_ne (s : WatchState) {r r' : RequestId} (phase : WatchPhase) (h : r' ≠ r) :
    (s.setCall r phase).calls r' = s.calls r' := Function.update_of_ne h _ _

@[simp] theorem setCall_access (s : WatchState) (r : RequestId) (phase : WatchPhase) :
    (s.setCall r phase).access = s.access := rfl

end WatchState

namespace WatchedCall

/-- `send_wrapper`, of both middlewares. -/
def receive (call : WatchedCall) : AppMessage → WatchedCall
  | .start status _ => { call with accessStatus := some status, metricsStatus := some status }
  | .body _ _ => call

/-- What `AccessLogMiddleware` logs. -/
def record (call : WatchedCall) : AccessRecord where
  method := call.request.method
  path := call.request.path
  status := call.accessStatus
  clientIp := call.request.clientIp

/-- What `MetricsMiddleware` counts. -/
def counts (call : WatchedCall) : CountedRequest where
  method := call.request.method
  path := call.request.path
  status := call.metricsStatus

end WatchedCall

/-- A request arrives, the wrapped application sends a message for it, and it
returns or raises. What it sends and how it ends is open. -/
inductive WatchAction where
  | arrive (r : RequestId) (request : HttpRequest)
  | message (r : RequestId) (message : AppMessage)
  | finish (r : RequestId) (raised : Bool)

/-- One step of the two middlewares, for a log level that lets `INFO` through
or not. -/
def watchStep (logsInfo : Bool) (s : WatchState) : WatchAction → Option WatchState
  | .arrive r request =>
      match s.calls r with
      | .waiting => some { s.setCall r (.running ⟨request, none, none⟩) with inFlight := s.inFlight + 1 }
      | _ => none
  | .message r message =>
      match s.calls r with
      | .running call => some (s.setCall r (.running (call.receive message)))
      | _ => none
  | .finish r raised =>
      match s.calls r with
      | .running call =>
          some { s.setCall r .over with
            access := if raised = false ∧ logsInfo = true then s.access ++ [call.record] else s.access
            counted := s.counted ++ [call.counts]
            inFlight := s.inFlight - 1 }
      | _ => none

/-- The method and the status of each record of the log. -/
def WatchState.logged (s : WatchState) : List (String × Option Nat) :=
  s.access.map fun record => (record.method, record.status)

/-- The method and the status of each increment of the counter. -/
def WatchState.increments (s : WatchState) : List (String × Option Nat) :=
  s.counted.map fun request => (request.method, some request.code)

/-- As many records as increments, with the same methods and statuses. -/
def WatchState.Agree (s : WatchState) : Prop :=
  s.access.length = s.counted.length ∧ s.logged.Perm s.increments

/-- A request that ends is logged: the level allows it, the wrapped application
returns, and has started a response before. -/
def Logs (logsInfo : Bool) (s : WatchState) : WatchAction → Prop
  | .finish r raised => ∀ call, s.calls r = .running call →
      logsInfo = true ∧ raised = false ∧ call.accessStatus.isSome = true
  | _ => True

/-- Both middlewares know the same status, and the log is never ahead. -/
structure WatchInv (s : WatchState) : Prop where
  sameStatus : ∀ r call, s.calls r = .running call → call.accessStatus = call.metricsStatus
  behind : s.access.length ≤ s.counted.length

section Watch

variable {logsInfo : Bool} {s s' : WatchState} {a : WatchAction}

/-- What a step of the middlewares does, case by case. -/
inductive WatchMove (logsInfo : Bool) (s : WatchState) : WatchAction → WatchState → Prop where
  | arrived {r : RequestId} {request : HttpRequest} (hCall : s.calls r = .waiting) :
      WatchMove logsInfo s (.arrive r request)
        { s.setCall r (.running ⟨request, none, none⟩) with inFlight := s.inFlight + 1 }
  | sent {r : RequestId} {message : AppMessage} {call : WatchedCall} (hCall : s.calls r = .running call) :
      WatchMove logsInfo s (.message r message) (s.setCall r (.running (call.receive message)))
  | logged {r : RequestId} {call : WatchedCall} (hCall : s.calls r = .running call) (hInfo : logsInfo = true) :
      WatchMove logsInfo s (.finish r false)
        { s.setCall r .over with
          access := s.access ++ [call.record]
          counted := s.counted ++ [call.counts]
          inFlight := s.inFlight - 1 }
  | unlogged {r : RequestId} {raised : Bool} {call : WatchedCall} (hCall : s.calls r = .running call)
      (hQuiet : ¬ (raised = false ∧ logsInfo = true)) :
      WatchMove logsInfo s (.finish r raised)
        { s.setCall r .over with
          counted := s.counted ++ [call.counts]
          inFlight := s.inFlight - 1 }

theorem watchMove_of_step (h : watchStep logsInfo s a = some s') : WatchMove logsInfo s a s' := by
  cases a with
  | arrive r request =>
      simp only [watchStep] at h
      split at h
      · next hCall =>
          cases h
          exact .arrived hCall
      · cases h
  | message r message =>
      simp only [watchStep] at h
      split at h
      · next call hCall =>
          cases h
          exact .sent hCall
      · cases h
  | finish r raised =>
      simp only [watchStep] at h
      split at h
      · next call hCall =>
          by_cases hLogged : raised = false ∧ logsInfo = true
          · rw [if_pos hLogged] at h
            obtain ⟨rfl, hInfo⟩ := hLogged
            cases h
            exact .logged hCall hInfo
          · rw [if_neg hLogged] at h
            cases h
            exact .unlogged hCall hLogged
      · cases h

theorem watchInv_initial : WatchInv WatchState.initial where
  sameStatus _ _ h := nomatch h
  behind := Nat.le_refl 0

theorem WatchInv.setCall (inv : WatchInv s) {r : RequestId} {phase : WatchPhase}
    (hPhase : ∀ call, phase = .running call → call.accessStatus = call.metricsStatus) :
    ∀ r' call, (s.setCall r phase).calls r' = .running call → call.accessStatus = call.metricsStatus := by
  intro r' call hCall
  by_cases hr : r' = r
  · rw [hr, WatchState.setCall_self] at hCall
    exact hPhase call hCall
  · rw [WatchState.setCall_of_ne s phase hr] at hCall
    exact inv.sameStatus r' call hCall

theorem WatchInv.step (inv : WatchInv s) (h : watchStep logsInfo s a = some s') : WatchInv s' := by
  cases watchMove_of_step h with
  | arrived => exact ⟨inv.setCall (by simp +contextual), inv.behind⟩
  | @sent r message call hCall =>
      refine ⟨inv.setCall ?_, inv.behind⟩
      intro call' hPhase
      cases hPhase
      cases message with
      | start status headers => rfl
      | body chunk moreBody => exact inv.sameStatus r call hCall
  | logged =>
      refine ⟨inv.setCall (by simp), ?_⟩
      have hBehind := inv.behind
      simp only [List.length_append, List.length_singleton]
      omega
  | unlogged =>
      refine ⟨inv.setCall (by simp), ?_⟩
      have hBehind := inv.behind
      simp only [WatchState.setCall_access, List.length_append, List.length_singleton]
      omega

/-- A record and an increment of one request agree when it had a status: the log
shows no status otherwise, and the counter 500. -/
theorem agree_append_iff {call : WatchedCall} {calls : RequestId → WatchPhase} {inFlight : Int}
    (hSame : call.accessStatus = call.metricsStatus) :
    WatchState.Agree ⟨calls, s.access ++ [call.record], s.counted ++ [call.counts], inFlight⟩ ↔
      s.Agree ∧ call.accessStatus.isSome = true := by
  have hLogged : WatchState.logged ⟨calls, s.access ++ [call.record], s.counted ++ [call.counts], inFlight⟩ =
      s.logged ++ [(call.request.method, call.accessStatus)] := List.map_append
  have hCounted : WatchState.increments ⟨calls, s.access ++ [call.record], s.counted ++ [call.counts], inFlight⟩ =
      s.increments ++ [(call.request.method, some (call.metricsStatus.getD 500))] := List.map_append
  unfold WatchState.Agree
  rw [hLogged, hCounted, List.length_append, List.length_append, List.length_singleton, List.length_singleton,
    Nat.add_right_cancel_iff]
  cases hStatus : call.accessStatus with
  | some status =>
      rw [← hSame, hStatus, Option.getD_some, List.perm_append_right_iff]
      exact (and_iff_left rfl).symm
  | none =>
      apply iff_of_false
      · intro hAgree
        have hMem : (call.request.method, none) ∈ s.increments ++ [(call.request.method, some _)] :=
          hAgree.2.mem_iff.mp (List.mem_append_right _ (List.mem_singleton.mpr rfl))
        simp [WatchState.increments] at hMem
      · intro hBoth
        cases hBoth.2

/-- Only a request that ends can part the log from the counter. -/
theorem agree_step_iff (inv : WatchInv s) (h : watchStep logsInfo s a = some s') :
    s'.Agree ↔ s.Agree ∧ Logs logsInfo s a := by
  cases watchMove_of_step h with
  | arrived => exact (and_iff_left trivial).symm
  | sent => exact (and_iff_left trivial).symm
  | @logged r call hCall hInfo =>
      have hLogs : Logs logsInfo s (.finish r false) ↔ call.accessStatus.isSome = true := by
        constructor
        · intro hAll
          exact (hAll call hCall).2.2
        · intro hStarted call' hOwn
          rw [hCall] at hOwn
          cases hOwn
          exact ⟨hInfo, rfl, hStarted⟩
      rw [hLogs]
      exact agree_append_iff (inv.sameStatus r call hCall)
  | @unlogged r raised call hCall hQuiet =>
      have hBehind := inv.behind
      apply iff_of_false
      · intro hAgree
        have hLength := hAgree.1
        simp only [WatchState.setCall_access, List.length_append, List.length_singleton] at hLength
        omega
      · intro hBoth
        obtain ⟨hInfo, hReturned, -⟩ := hBoth.2 call hCall
        exact hQuiet ⟨hReturned, hInfo⟩

end Watch

/-- The access log and the counter agree after any number of concurrent requests
exactly when each one that has ended was logged. -/
theorem access_log_agrees_iff (logsInfo : Bool) (as : List WatchAction) (s : WatchState)
    (run : exec (watchStep logsInfo) WatchState.initial as = some s) :
    s.Agree ↔ Along (watchStep logsInfo) (Logs logsInfo) WatchState.initial as := by
  rw [holds_iff_along (A := fun _ => True) (fun _ _ _ inv _ h => WatchInv.step inv h)
    (fun _ _ _ inv _ h => agree_step_iff inv h) watchInv_initial (fun _ _ => trivial) run]
  exact and_iff_right ⟨rfl, List.Perm.refl _⟩

/-- What the middlewares see of a request, when the wrapped application does
what is given. -/
def Exchange.watchActions (r : RequestId) (request : HttpRequest) (exchange : Exchange) : List WatchAction :=
  .arrive r request :: (exchange.messages.map (WatchAction.message r) ++ [.finish r exchange.raised])

/-- What the access log and the counter wrap. -/
def ServiceApp.wrapped (app : ServiceApp) (store : HttpStore) (request : HttpRequest) (run : RouteRun) : Exchange :=
  (app.idempotency.call store request (app.inner request run)).exchange

section Alone

variable {s t : WatchState} {r : RequestId} {call : WatchedCall} {request : HttpRequest} {messages : List AppMessage}

theorem exec_messages (hCall : s.calls r = .running call) :
    ∃ calls, exec (watchStep true) s (messages.map (WatchAction.message r)) =
      some { s with calls := calls } ∧ calls r = .running (messages.foldl WatchedCall.receive call) := by
  induction messages generalizing s call with
  | nil => exact ⟨s.calls, rfl, hCall⟩
  | cons message messages ih =>
      have hStep : watchStep true s (.message r message) = some (s.setCall r (.running (call.receive message))) := by
        simp only [watchStep, hCall]
      obtain ⟨calls, hRun, hEnd⟩ := ih (s.setCall_self r (.running (call.receive message)))
      exact ⟨calls, exec_cons.mpr ⟨_, hStep, hRun⟩, hEnd⟩

theorem isSome_receive (message : AppMessage) :
    (call.receive message).accessStatus.isSome = (call.accessStatus.isSome || message.isStart) := by
  cases message <;> simp [WatchedCall.receive, AppMessage.isStart]

/-- A request has a status once its response has started. -/
theorem isSome_foldl : (messages.foldl WatchedCall.receive call).accessStatus.isSome = true ↔
    call.accessStatus.isSome = true ∨ ∃ message ∈ messages, message.isStart = true := by
  induction messages generalizing call with
  | nil => simp
  | cons message messages ih =>
      rw [List.foldl_cons, ih, isSome_receive]
      simp [or_assoc]

/-- After a request on its own, log and counter agree when the wrapped
application has answered and returned. -/
theorem agree_alone_iff {exchange : Exchange}
    (run : exec (watchStep true) WatchState.initial (exchange.watchActions r request) = some t) :
    t.Agree ↔ exchange.raised = false ∧ exchange.Started := by
  obtain ⟨m, hArrive, hRest⟩ := exec_cons.mp run
  obtain ⟨n, hMessages, hFinish⟩ := exec_concat.mp hRest
  have inv : WatchInv n :=
    invariant (fun _ _ _ inv h => WatchInv.step inv h) (watchInv_initial.step hArrive) hMessages
  have hTaken : m.calls r = .running ⟨request, none, none⟩ ∧ m.access = [] ∧ m.counted = [] := by
    cases hArrive
    exact ⟨WatchState.setCall_self _ _ _, rfl, rfl⟩
  obtain ⟨hRunning, hAccess, hCounted⟩ := hTaken
  obtain ⟨calls, hSent, hCall⟩ := exec_messages hRunning
  obtain rfl := Option.some.inj (hSent.symm.trans hMessages)
  have hQuiet : WatchState.Agree { m with calls := calls } := by
    simp [WatchState.Agree, WatchState.logged, WatchState.increments, hAccess, hCounted]
  have hStarted : (exchange.messages.foldl WatchedCall.receive ⟨request, none, none⟩).accessStatus.isSome = true ↔
      _ := isSome_foldl
  rw [agree_step_iff inv hFinish, and_iff_right hQuiet]
  constructor
  · intro hLogs
    obtain ⟨-, hReturned, hStatus⟩ := hLogs _ hCall
    exact ⟨hReturned, (hStarted.mp hStatus).resolve_left (by simp)⟩
  · rintro ⟨hReturned, hSome⟩ call hOwn
    obtain rfl := WatchPhase.running.inj (hCall.symm.trans hOwn)
    exact ⟨rfl, hReturned, hStarted.mpr (Or.inr hSome)⟩

end Alone

namespace ServiceApp

variable {app : ServiceApp} {store : HttpStore} {request : HttpRequest} {run : RouteRun} {key : String}

/-- A request for which the routes are called is answered and returns when the
route starts a response and returns, or when a handler answers what it raises
before. -/
theorem wrapped_called_iff (hFree : ∀ key, app.storeKey request = some key → store.get key = none) :
    (app.wrapped store request run).raised = false ∧ (app.wrapped store request run).Started ↔
      match run.sent with
      | some _ => run.ending = .returned
      | none => app.Answerable request run.ending := by
  have hWrapped : app.wrapped store request run =
      (app.handled request run).withRequestId (KernelApp.requestId request) :=
    IdempotencyMiddleware.exchange_of_called (IdempotencyMiddleware.called_iff.mpr hFree)
  rw [hWrapped, Exchange.started_withRequestId]
  show (app.handled request run).raised = false ∧ _ ↔ _
  cases hSent : run.sent with
  | some sent =>
      rw [handled_sent app request hSent, and_iff_left (started_sent sent _)]
      cases run.ending <;> simp [RouteEnd.raises]
  | none =>
      simp only [← handler_isSome_iff]
      cases hHandler : app.handler request run.ending with
      | some response =>
          rw [handled_handler hSent hHandler]
          simp [HttpResponse.exchange, Exchange.Started, AppMessage.isStart]
      | none =>
          rw [handled_silent hSent hHandler]
          simp [Exchange.Started]

/-- A replayed request is answered when the stored body is JSON that is written
again. -/
theorem wrapped_replayed_iff {cached : CachedResponse} (hKey : app.storeKey request = some key)
    (hStored : store.get key = some cached) :
    (app.wrapped store request run).raised = false ∧ (app.wrapped store request run).Started ↔
      (cached.replay app.codec).isSome = true := by
  have hKnown : app.idempotency.call store request (app.inner request run) = _ :=
    IdempotencyMiddleware.call_known hKey hStored
  unfold wrapped
  rw [hKnown]
  show (cached.exchange app.codec).raised = false ∧ (cached.exchange app.codec).Started ↔ _
  unfold CachedResponse.exchange
  cases cached.replay app.codec with
  | some response => simp [HttpResponse.exchange, Exchange.Started, AppMessage.isStart]
  | none => simp

end ServiceApp

/-- A service without error codes of its own. -/
def watchedService : ServiceApp := ⟨emptyObjectCodec, [], "svc"⟩

def watchedRequest : HttpRequest := ⟨"GET", "/orders", [("X-Real-IP", "10.0.0.7")], [], "", "", some "/orders"⟩

/-- Two requests at once, one answered with 200 and one with 404. -/
def answeredPair : List WatchAction :=
  [.arrive 0 watchedRequest, .arrive 1 watchedRequest, .message 1 (.start 404 []), .message 0 (.start 200 []),
    .finish 1 false, .message 0 (.body [] false), .finish 0 false]

theorem logs_answeredPair : Along (watchStep true) (Logs true) WatchState.initial answeredPair := by
  refine along_cons trivial rfl (along_cons trivial rfl ?_)
  refine along_cons trivial rfl (along_cons trivial rfl ?_)
  refine along_cons ?_ rfl (along_cons trivial rfl (along_cons ?_ rfl trivial))
  · intro call hCall
    cases hCall
    exact ⟨rfl, rfl, rfl⟩
  · intro call hCall
    cases hCall
    exact ⟨rfl, rfl, rfl⟩

theorem access_log_agrees_iff_pair : ∃ s, exec (watchStep true) WatchState.initial answeredPair = some s ∧ s.Agree ∧
    s.logged = [("GET", some 404), ("GET", some 200)] :=
  ⟨_, rfl, (access_log_agrees_iff true answeredPair _ rfl).mpr logs_answeredPair, rfl⟩

/-- A route that raises what no handler expects: the request is counted with
status 500, and the log has no record of it. -/
theorem exception_not_logged : ∃ s,
    exec (watchStep true) WatchState.initial
      ((watchedService.wrapped IdempotencyStore.empty watchedRequest ⟨none, .raised⟩).watchActions 0 watchedRequest) =
        some s ∧
      s.logged = [] ∧ s.increments = [("GET", some 500)] ∧ ¬ s.Agree := by
  refine ⟨_, rfl, rfl, rfl, fun hAgree => ?_⟩
  cases hAgree.1

end ServicePlatform
