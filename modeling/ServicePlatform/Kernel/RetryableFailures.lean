import ServicePlatform.Kernel.ReplayScope
import ServicePlatform.Kernel.ServiceApp

/-! Whether a failure can be retried with its idempotency key. The exception
handlers turn an `AppError` into a response inside the idempotency middleware,
which stores every response that is completed and knows nothing of retryable
codes. -/
namespace ServicePlatform

namespace ServiceApp

/-- What happens to an application: a request, or the end of the lifetime of a
stored response. -/
inductive Event where
  | request (request : HttpRequest) (run : RouteRun)
  | expire (key : String)

variable (app : ServiceApp)

def storeStep (store : HttpStore) : Event → HttpStore
  | .request request run => (app.serve store request run).store
  | .expire key => store.expire key

def after (events : List Event) : HttpStore := events.foldl app.storeStep IdempotencyStore.empty

/-- What happens to the idempotency middleware of the application. -/
def storeEvent : Event → IdempotencyMiddleware.Event
  | .request request run => .request request (app.inner request run)
  | .expire key => .expire key

theorem after_eq (events : List Event) : app.after events = app.idempotency.after (events.map app.storeEvent) := by
  unfold after IdempotencyMiddleware.after
  rw [List.foldl_map]
  congr
  funext store event
  cases event <;> rfl

theorem expire_mem_storeEvents {app : ServiceApp} {events : List Event} {key : String} :
    .expire key ∈ events.map app.storeEvent ↔ .expire key ∈ events := by
  constructor
  · intro hMem
    obtain ⟨event, hEvent, hView⟩ := List.mem_map.mp hMem
    cases event with
    | request request run => cases hView
    | expire other =>
        cases hView
        exact hEvent
  · intro hMem
    exact List.mem_map.mpr ⟨_, hMem, rfl⟩

end ServiceApp

/-- The route has started a response and does not send it to the end. -/
def RouteRun.Unfinished (run : RouteRun) : Prop :=
  ∃ sent, run.sent = some sent ∧ ∀ body ∈ sent.bodies, body.2 = true

theorem not_shifted_self {path key path' : String} : ¬ Shifted path key path' key := by
  rintro ⟨piece, -, hKey⟩
  have hLength := congrArg (List.length ∘ String.toList) hKey
  simp at hLength
  omega

/-- Guarded requests with one key share a store key when they are one
operation. -/
theorem HttpRequest.Guarded.sameOperation {q r : HttpRequest} {key service : String} (hq : q.Guarded key)
    (hr : r.Guarded key) (h : q.storeKey service = r.storeKey service) : q.SameOperation r := by
  rw [hq.storeKey, hr.storeKey, Option.some.injEq, makeIdempotencyKey_eq_iff service hq.1 hr.1] at h
  obtain ⟨hMethod, ⟨hPath, -⟩ | hShifted | hShifted⟩ := h
  · exact ⟨hMethod, hPath, hq.2.1.trans hr.2.1.symm⟩
  · exact absurd hShifted not_shifted_self
  · exact absurd hShifted not_shifted_self

namespace ServiceApp

variable {app : ServiceApp} {before mid : List Event} {q r : HttpRequest} {run again : RouteRun}
  {error : AppError} {key : String}

/-- The route has not started a response, and the error it raises is not rendered. -/
def Unrendered (app : ServiceApp) (q : HttpRequest) (run : RouteRun) : Prop :=
  run.sent = none ∧ ¬ app.Answerable q run.ending

/-- An attempt completes a response unless the route leaves one of its own
unfinished, or raises what is not rendered. -/
theorem completed_inner_iff_not : (app.inner q run).Completed ↔ ¬ run.Unfinished ∧ ¬ app.Unrendered q run := by
  rw [completed_inner_iff]
  unfold RouteRun.Unfinished Unrendered
  cases hSent : run.sent with
  | none => simp
  | some sent => simp

/-- A request that cannot be stored runs the application. -/
theorem called_of_unguarded (store : HttpStore) (h : app.storeKey r = none) :
    (app.serve store r again).called = true := by
  have hUnguarded : app.idempotency.call store r (app.inner r again) = ⟨store, app.inner r again, true⟩ :=
    IdempotencyMiddleware.call_unguarded h
  simp only [serve, hUnguarded]

theorem called_iff_not_held (hGuarded : r.Guarded key) (events : List Event) :
    (app.serve (app.after events) r again).called = true ↔
      ¬ app.idempotency.Held (makeIdempotencyKey app.service r.method r.path key) (events.map app.storeEvent) := by
  have hStored : (app.idempotency.call (app.after events) r (app.inner r again)).called = false ↔
      app.idempotency.Held (makeIdempotencyKey app.service r.method r.path key) (events.map app.storeEvent) := by
    rw [after_eq]
    exact IdempotencyMiddleware.not_called_iff hGuarded _
  rw [← hStored, Bool.not_eq_false]
  rfl

/-- The code of the error is registered as retryable. -/
def Retryable (app : ServiceApp) (error : AppError) : Prop :=
  ∃ code, getErrorCode app.registry error.errorCode = some code ∧ code.retryable = true

/-- In a sequence of requests with one key, the next request for an operation
whose attempt failed with a retryable error runs the application again exactly
when the attempt was not stored, because it was not guarded, left its response
unfinished or raised an error that is not rendered, or when what was stored has
expired. -/
theorem retryable_retried_iff
    (hKeys : ∀ asked did, .request asked did ∈ before ++ .request q run :: mid →
      asked.header "idempotency-key" = some key)
    (hSame : r.SameOperation q) (hNext : ∀ asked did, .request asked did ∈ mid → ¬ asked.SameOperation q)
    (hCalled : (app.serve (app.after before) q run).called = true) (_ : run.ending = .raisedApp error)
    (_ : app.Retryable error) :
    (app.serve (app.after (before ++ .request q run :: mid)) r again).called = true ↔
      q.method ∉ idempotentMethods ∨ key = "" ∨ run.Unfinished ∨ app.Unrendered q run ∨
        .expire (makeIdempotencyKey app.service q.method q.path key) ∈ mid := by
  have hKey := hKeys q run (by simp)
  have hKey' : r.header "idempotency-key" = some key := hSame.2.2.trans hKey
  by_cases hGuarded : q.Guarded key
  · have hGuarded' : r.Guarded key := ⟨hSame.1 ▸ hGuarded.1, hKey', hGuarded.2.2⟩
    have hBefore := (called_iff_not_held hGuarded before).mp hCalled
    have hMid : ¬ app.idempotency.Held (makeIdempotencyKey app.service q.method q.path key)
        (mid.map app.storeEvent) := by
      rintro ⟨earlier, asked, inner, rest, hSplit, hStoreKey, -⟩
      have hMem : .request asked inner ∈ mid.map app.storeEvent := by simp [hSplit]
      obtain ⟨event, hEvent, hView⟩ := List.mem_map.mp hMem
      cases event with
      | expire key => cases hView
      | request asked' did =>
          cases hView
          have hAsked := hKeys asked did (by simp [hEvent])
          have hMethod : asked.method ∈ idempotentMethods := by
            by_contra hOther
            simp [HttpRequest.storeKey, hOther] at hStoreKey
          have hOwn : asked.Guarded key := ⟨hMethod, hAsked, hGuarded.2.2⟩
          exact hNext asked did hEvent (hOwn.sameOperation hGuarded (hStoreKey.trans (hGuarded.storeKey _).symm))
    have hOwn : app.idempotency.Completes (makeIdempotencyKey app.service q.method q.path key)
        (app.storeEvent (.request q run)) ↔ ¬ run.Unfinished ∧ ¬ app.Unrendered q run :=
      (and_iff_right (hGuarded.storeKey _)).trans completed_inner_iff_not
    rw [called_iff_not_held hGuarded', hSame.1, hSame.2.1, List.map_append, List.map_cons,
      IdempotencyMiddleware.held_append, IdempotencyMiddleware.held_cons, or_iff_left hMid, hOwn,
      expire_mem_storeEvents]
    have hMethod := hGuarded.1
    have hSome := hGuarded.2.2
    simp [hBefore, hMethod, hSome, or_iff_not_imp_left]
  · have hUnguarded : q.method ∉ idempotentMethods ∨ key = "" := by
      by_contra hNeither
      rw [not_or, not_not] at hNeither
      exact hGuarded ⟨hNeither.1, hKey, hNeither.2⟩
    have hFree : app.storeKey r = none := by
      unfold storeKey HttpRequest.storeKey
      rw [hSame.1, hKey']
      rcases hUnguarded with hMethod | rfl
      · exact if_neg hMethod
      · exact ite_self none
    refine iff_of_true (called_of_unguarded _ hFree) ?_
    rcases hUnguarded with hMethod | hEmpty
    · exact Or.inl hMethod
    · exact Or.inr (Or.inl hEmpty)

/-- A service whose route fails for want of a resource. -/
def jsonService : ServiceApp := ⟨emptyObjectCodec, [], "svc"⟩

def unavailable : AppError := AppError.make [] ErrorCode.serviceUnavailable.code none none none

def failing : RouteRun := ⟨none, .raisedApp unavailable⟩

theorem retryable_unavailable : jsonService.Retryable unavailable := by
  have hBuiltin : ErrorCode.serviceUnavailable ∈ ErrorCode.builtin := by decide
  have hCode := getErrorCode_builtin [] hBuiltin
  refine ⟨.serviceUnavailable, ?_, rfl⟩
  have hError : unavailable.errorCode = ErrorCode.serviceUnavailable.code := by
    simp only [unavailable, AppError.make, hCode]
  rw [hError]
  exact hCode

def keyedDelete : HttpRequest := { keyedPost with method := "DELETE" }

/-- A key on a `DELETE` is not looked at. -/
theorem retryable_retried_delete :
    (jsonService.serve (jsonService.after [.request keyedDelete failing]) keyedDelete failing).called = true := by
  have hKeys : ∀ asked did, .request asked did ∈ [] ++ .request keyedDelete failing :: ([] : List Event) →
      asked.header "idempotency-key" = some "k-1" := by
    intro asked did hMem
    simp only [List.nil_append, List.mem_singleton, Event.request.injEq] at hMem
    rw [hMem.1]
    rfl
  have hIff : (jsonService.serve (jsonService.after ([] ++ .request keyedDelete failing :: [])) keyedDelete
      failing).called = true ↔ _ :=
    retryable_retried_iff hKeys ⟨rfl, rfl, rfl⟩ (by simp) rfl rfl retryable_unavailable
  exact hIff.mpr (Or.inl (by decide))

/-- The failure is replayed to the next attempt. -/
theorem retryable_replayed :
    jsonService.Retryable unavailable ∧
      (jsonService.serve (jsonService.after []) keyedPost failing).called = true ∧
      (jsonService.serve (jsonService.after [.request keyedPost failing]) keyedPost failing).called = false :=
  ⟨retryable_unavailable, rfl, rfl⟩

end ServiceApp

end ServicePlatform
