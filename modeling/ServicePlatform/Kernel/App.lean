import ServicePlatform.Kernel.Auth
import Mathlib.Data.List.Induction

/-! An application assembled by `create_app`, serving one request after the
other. From the outside in: the server's error handler, metrics and access
log (which pass every response through), idempotency, request context,
identity, and the routes with their exception handlers. -/
namespace ServicePlatform

/-- What the handler of a route does: return a response, raise an `AppError`,
or raise something no handler of the application expects. -/
inductive HandlerResult where
  | responds (response : HttpResponse)
  | raisesApp (error : AppError)
  | raises

/-- The settings of the application, and one route protected by `require_roles`. -/
structure KernelApp where
  codec : JsonCodec
  registry : ErrorRegistry
  serviceName : String
  trustProxyHeaders : Bool
  roles : List String
  handler : Identity → HttpRequest → HandlerResult

abbrev HttpStore := IdempotencyStore CachedResponse

namespace KernelApp

variable (app : KernelApp)

def identity (request : HttpRequest) : Option Identity := identityOf app.trustProxyHeaders request

def storeKey (request : HttpRequest) : Option String := request.storeKey app.serviceName

/-- `RequestContextMiddleware`: the caller's request id, or a new one. -/
def requestId (request : HttpRequest) : String :=
  orDefault (request.header "x-request-id") request.uuid

/-- The protected route with the exception handlers around it. An exception
that no handler expects leaves the application, and so does what the handler of
an `AppError` raises while it renders it. -/
def route (request : HttpRequest) : Option HttpResponse :=
  match requireRoles app.registry app.roles (app.identity request) with
  | .error error => handleAppError app.codec app.registry request request.traceId error
  | .ok user =>
      match app.handler user request with
      | .responds response => some response
      | .raisesApp error => handleAppError app.codec app.registry request request.traceId error
      | .raises => none

/-- The response of everything inside the idempotency middleware. -/
def contextual (request : HttpRequest) : Option HttpResponse :=
  (app.route request).map fun response =>
    { response with headers := response.headers ++ [("x-request-id", requestId request)] }

/-- `IdempotencyMiddleware`. An exception carries the trace id of the context
in which it is handled, which is empty before the context is set. -/
def guarded (store : HttpStore) (request : HttpRequest) : HttpStore × Except String HttpResponse :=
  let fresh := match app.contextual request with
    | some response => Except.ok response
    | none => Except.error request.traceId
  match app.storeKey request with
  | none => (store, fresh)
  | some key =>
      match store.get key with
      | some cached => (store, match cached.replay app.codec with
          | some response => .ok response
          | none => .error "")
      | none => match app.contextual request with
          | some response => (store.put key (response.cached app.codec), fresh)
          | none => (store, fresh)

/-- The application on one request. It sends nothing where the server's error
handler raises as well. -/
def serve (store : HttpStore) (request : HttpRequest) : HttpStore × Option HttpResponse :=
  match app.guarded store request with
  | (store, .ok response) => (store, some response)
  | (store, .error traceId) => (store, handleUnexpected app.codec request traceId)

/-- The store after a sequence of requests. -/
def after (requests : List HttpRequest) : HttpStore :=
  requests.foldl (fun store request => (app.serve store request).1) IdempotencyStore.empty

/-- The answer to a request that comes after a sequence of others. -/
def answer (before : List HttpRequest) (request : HttpRequest) : Option HttpResponse :=
  (app.serve (app.after before) request).2

variable {app}

theorem after_concat (requests : List HttpRequest) (request : HttpRequest) :
    app.after (requests ++ [request]) = (app.serve (app.after requests) request).1 := by
  simp [after]

section Serve

variable {store : HttpStore} {request : HttpRequest} {key : String}

/-- The answer to a request whose key is not stored. -/
def freshAnswer (app : KernelApp) (request : HttpRequest) : Option HttpResponse :=
  (app.contextual request).or (handleUnexpected app.codec request request.traceId)

/-- The answer to a request whose key is stored. -/
def replayedAnswer (app : KernelApp) (cached : CachedResponse) (request : HttpRequest) : Option HttpResponse :=
  (cached.replay app.codec).or (handleUnexpected app.codec request "")

theorem serve_unguarded (h : app.storeKey request = none) :
    app.serve store request = (store, app.freshAnswer request) := by
  simp only [serve, guarded, h, freshAnswer]
  cases app.contextual request <;> rfl

theorem serve_fresh (h : app.storeKey request = some key) (hFree : store.get key = none) :
    app.serve store request = (match app.contextual request with
      | some response => store.put key (response.cached app.codec)
      | none => store, app.freshAnswer request) := by
  simp only [serve, guarded, h, hFree, freshAnswer]
  cases app.contextual request <;> rfl

theorem serve_replayed {cached : CachedResponse} (h : app.storeKey request = some key)
    (hTaken : store.get key = some cached) :
    app.serve store request = (store, app.replayedAnswer cached request) := by
  simp only [serve, guarded, h, hTaken, replayedAnswer]
  cases cached.replay app.codec <;> rfl

/-- A request writes at most the entry of its own key. -/
theorem serve_get_other {other : String} (h : app.storeKey request ≠ some other) :
    (app.serve store request).1.get other = store.get other := by
  cases hKey : app.storeKey request with
  | none => rw [serve_unguarded hKey]
  | some key =>
      have hne : other ≠ key := fun he => h (he ▸ hKey)
      cases hStore : store.get key with
      | some cached => rw [serve_replayed hKey hStore]
      | none =>
          rw [serve_fresh hKey hStore]
          cases app.contextual request with
          | none => rfl
          | some response => simp [IdempotencyStore.get_put, hne]

/-- What a request does with its own entry, and its answer, depend on the
store through that entry only. -/
theorem serve_congr {store' : HttpStore} (h : app.storeKey request = some key)
    (hSame : store.get key = store'.get key) :
    (app.serve store request).1.get key = (app.serve store' request).1.get key ∧
      (app.serve store request).2 = (app.serve store' request).2 := by
  cases hStore : store.get key with
  | some cached =>
      rw [serve_replayed h hStore, serve_replayed h (hSame ▸ hStore)]
      exact ⟨hSame, rfl⟩
  | none =>
      rw [serve_fresh h hStore, serve_fresh h (hSame ▸ hStore)]
      cases app.contextual request with
      | none => exact ⟨hSame, rfl⟩
      | some response => simp [IdempotencyStore.get_put]

/-- A request to which nothing inside the idempotency middleware responds leaves
the store as it is. -/
theorem serve_get_silent (h : app.contextual request = none) : (app.serve store request).1 = store := by
  cases hKey : app.storeKey request with
  | none => rw [serve_unguarded hKey]
  | some key =>
      cases hStore : store.get key with
      | some cached => rw [serve_replayed hKey hStore]
      | none => rw [serve_fresh hKey hStore, h]

end Serve

/-- The entry of a key comes from the requests with that key alone, and of these
from the ones that are responded to. -/
theorem after_filter_get {key : String} {keep : HttpRequest → Bool} {requests : List HttpRequest}
    (h : ∀ request ∈ requests, app.storeKey request = some key →
      keep request = true ∨ app.contextual request = none) :
    (app.after (requests.filter keep)).get key = (app.after requests).get key := by
  induction requests using List.reverseRecOn with
  | nil => rfl
  | append_singleton requests request ih =>
      have hSame := ih fun other hOther => h other (List.mem_append_left _ hOther)
      have hLast := h request (List.mem_append_right _ (List.mem_singleton_self request))
      rw [List.filter_append, after_concat]
      cases hKeep : keep request with
      | true =>
          rw [List.filter_singleton, hKeep, cond_true, after_concat]
          by_cases hKey : app.storeKey request = some key
          · exact (serve_congr hKey hSame).1
          · rw [serve_get_other hKey, serve_get_other hKey, hSame]
      | false =>
          rw [List.filter_singleton, hKeep, cond_false, List.append_nil]
          by_cases hKey : app.storeKey request = some key
          · rcases hLast hKey with hKept | hSilent
            · rw [hKeep] at hKept
              cases hKept
            · rw [serve_get_silent hSilent, hSame]
          · rw [serve_get_other hKey, hSame]

/-- The answer depends on the earlier requests with the same key alone, and of
these on the ones that were responded to. -/
theorem answer_filter {keep : HttpRequest → Bool} {before : List HttpRequest} {request : HttpRequest}
    (h : ∀ other ∈ before, ∀ key, app.storeKey other = some key → app.storeKey request = some key →
      keep other = true ∨ app.contextual other = none) :
    app.answer (before.filter keep) request = app.answer before request := by
  cases hKey : app.storeKey request with
  | none => simp only [answer, serve_unguarded hKey]
  | some key =>
      exact (serve_congr hKey (after_filter_get fun other hOther hOtherKey =>
        h other hOther key hOtherKey hKey)).2

end KernelApp

end ServicePlatform
