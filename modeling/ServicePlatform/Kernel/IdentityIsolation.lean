import ServicePlatform.Kernel.App
import Mathlib.Data.List.Pairwise

/-! Whether a caller can be answered with somebody else's response. The
idempotency middleware stands outside identity and authorisation, and its key
does not name the caller. -/
namespace ServicePlatform

namespace KernelApp

variable {app : KernelApp}

/-- The two requests use the same key of the store. -/
def SharesKey (app : KernelApp) (q r : HttpRequest) : Prop :=
  ∃ key, app.storeKey q = some key ∧ app.storeKey r = some key

instance (app : KernelApp) (q r : HttpRequest) : Decidable (app.SharesKey q r) :=
  match hq : app.storeKey q, hr : app.storeKey r with
  | some a, some b =>
      if h : a = b then isTrue ⟨a, hq, h ▸ hr⟩
      else isFalse (by
        rintro ⟨key, hKey, hKey'⟩
        rw [hq] at hKey
        rw [hr] at hKey'
        exact h (Option.some.inj (hKey.trans hKey'.symm)))
  | none, _ => isFalse (by
      rintro ⟨key, hKey, -⟩
      rw [hq] at hKey
      cases hKey)
  | some _, none => isFalse (by
      rintro ⟨key, -, hKey⟩
      rw [hr] at hKey
      cases hKey)

/-- Everything except what other identities asked with the key of `r`. -/
def sees (app : KernelApp) (r q : HttpRequest) : Bool :=
  app.identity q = app.identity r || !decide (app.SharesKey q r)

/-- Each request of the history is answered on its own identity: a success
needs the roles, and the answer is the one without the requests that other
identities made with the same key. -/
def Isolated (app : KernelApp) (history : List HttpRequest) : Prop :=
  ∀ before r after, history = before ++ r :: after →
    (∀ response, app.answer before r = some response → response.Success →
      Satisfies app.roles (app.identity r)) ∧
    app.answer before r = app.answer (before.filter (app.sees r)) r

/-- The request is refused with an error that cannot be rendered, because the
path of its URL cannot be read. -/
def Silent (app : KernelApp) (q : HttpRequest) : Prop :=
  q.urlPath = none ∧ ¬ Satisfies app.roles (app.identity q)

/-- Requests with the same key come from the same identity, but for those whose
refusal is lost. -/
def KeysPersonal (app : KernelApp) (history : List HttpRequest) : Prop :=
  history.Pairwise fun q r => app.SharesKey q r → app.identity q = app.identity r ∨ app.Silent q

theorem KeysPersonal.before {before after : List HttpRequest} {q r : HttpRequest}
    (h : app.KeysPersonal (before ++ r :: after)) (hq : q ∈ before) (hKey : app.SharesKey q r) :
    app.identity q = app.identity r ∨ app.Silent q :=
  (List.pairwise_append.mp h).2.2 q hq r (List.mem_cons_self ..) hKey

theorem KeysPersonal.same {history : List HttpRequest} {q r : HttpRequest}
    (h : app.KeysPersonal history) (hq : q ∈ history) (hr : r ∈ history) (hKey : app.SharesKey q r) :
    app.identity q = app.identity r ∨ app.Silent q ∨ app.Silent r := by
  have symmetric : Std.Symm fun q r : HttpRequest =>
      app.SharesKey q r → app.identity q = app.identity r ∨ app.Silent q ∨ app.Silent r := by
    refine ⟨fun q r hSame hShared => ?_⟩
    obtain ⟨key, hKey, hKey'⟩ := hShared
    rcases hSame ⟨key, hKey', hKey⟩ with hEqual | hLeft | hRight
    · exact Or.inl hEqual.symm
    · exact Or.inr (Or.inr hLeft)
    · exact Or.inr (Or.inl hRight)
  have weaker : history.Pairwise fun q r =>
      app.SharesKey q r → app.identity q = app.identity r ∨ app.Silent q ∨ app.Silent r :=
    h.imp fun hPair hShared => (hPair hShared).imp_right Or.inl
  exact List.Pairwise.forall_of_forall (fun _ _ _ => Or.inl rfl) weaker hq hr hKey

/-- A refusal that the protected route renders has one of two statuses. -/
theorem refused_status {request : HttpRequest} {error : AppError} {response : HttpResponse}
    (hError : requireRoles app.registry app.roles (app.identity request) = .error error)
    (h : handleAppError app.codec app.registry request request.traceId error = some response) :
    ¬ response.Success := by
  obtain ⟨ec, hEc, -, detail, hHandled⟩ := (refusal_of_requireRoles hError).handled app.codec request request.traceId
  rw [HttpResponse.Success, problemResponse_status (hHandled ▸ h)]
  rcases List.mem_pair.mp hEc with rfl | rfl <;> decide

/-- The protected route itself answers nobody else with a success. -/
theorem route_success {request : HttpRequest} {response : HttpResponse}
    (h : app.route request = some response) (hSuccess : response.Success) :
    Satisfies app.roles (app.identity request) := by
  rw [← requireRoles_ok_iff app.registry]
  simp only [route] at h
  split at h
  · next error hError => exact absurd hSuccess (refused_status hError h)
  · next user hUser => exact ⟨user, hUser⟩

theorem contextual_success {request : HttpRequest} {response : HttpResponse}
    (h : app.contextual request = some response) (hSuccess : response.Success) :
    Satisfies app.roles (app.identity request) := by
  obtain ⟨inner, hInner, rfl⟩ := Option.map_eq_some_iff.mp h
  exact route_success hInner hSuccess

/-- A lost refusal is not responded to, whatever the handler of the route is. -/
theorem Silent.contextual {request : HttpRequest} (h : app.Silent request) : app.contextual request = none := by
  have hRoute : app.route request = none := by
    simp only [route]
    split
    · exact (Option.bind_eq_none_iff).mpr fun path hPath => by rw [h.1] at hPath; cases hPath
    · next user hUser => exact absurd ((requireRoles_ok_iff _).mp ⟨user, hUser⟩) h.2
  rw [KernelApp.contextual, hRoute, Option.map_none]

theorem not_success_handleUnexpected {codec : JsonCodec} {request : HttpRequest} {traceId : String}
    {response : HttpResponse} (h : handleUnexpected codec request traceId = some response) : ¬ response.Success := by
  rw [HttpResponse.Success, problemResponse_status h]
  decide

/-- A stored response was sent to a request with the key. -/
theorem after_entry {requests : List HttpRequest} {key : String} {cached : CachedResponse}
    (h : (app.after requests).get key = some cached) : ∃ q ∈ requests, ∃ response,
      app.storeKey q = some key ∧ app.contextual q = some response ∧ cached = response.cached app.codec := by
  induction requests using List.reverseRecOn generalizing cached with
  | nil => cases h
  | append_singleton requests request ih =>
      have old (h : (app.after requests).get key = some cached) : ∃ q ∈ requests ++ [request], ∃ response,
          app.storeKey q = some key ∧ app.contextual q = some response ∧ cached = response.cached app.codec := by
        obtain ⟨q, hq, hRest⟩ := ih h
        exact ⟨q, List.mem_append_left _ hq, hRest⟩
      rw [after_concat] at h
      by_cases hKey : app.storeKey request = some key
      · cases hStore : (app.after requests).get key with
        | some stored =>
            rw [serve_replayed hKey hStore] at h
            exact old h
        | none =>
            rw [serve_fresh hKey hStore] at h
            cases hFresh : app.contextual request with
            | none =>
                rw [hFresh] at h
                exact old h
            | some response =>
                rw [hFresh] at h
                simp only [IdempotencyStore.get_put, if_true, Option.some.injEq] at h
                exact ⟨request, List.mem_append_right _ (List.mem_singleton_self _), response, hKey, hFresh, h.symm⟩
      · rw [serve_get_other hKey] at h
        exact old h

/-- With personal keys an answer is a success only for the roles. -/
theorem answer_success {before after : List HttpRequest} {r : HttpRequest} {response : HttpResponse}
    (personal : app.KeysPersonal (before ++ r :: after)) (hAnswer : app.answer before r = some response)
    (hSuccess : response.Success) : Satisfies app.roles (app.identity r) := by
  have fresh (h : app.freshAnswer r = some response) : Satisfies app.roles (app.identity r) := by
    rcases Option.or_eq_some_iff.mp h with hFresh | ⟨-, hUnexpected⟩
    · exact contextual_success hFresh hSuccess
    · exact absurd hSuccess (not_success_handleUnexpected hUnexpected)
  unfold answer at hAnswer
  cases hKey : app.storeKey r with
  | none =>
      rw [serve_unguarded hKey] at hAnswer
      exact fresh hAnswer
  | some key =>
      cases hStore : (app.after before).get key with
      | none =>
          rw [serve_fresh hKey hStore] at hAnswer
          exact fresh hAnswer
      | some cached =>
          rw [serve_replayed hKey hStore] at hAnswer
          obtain ⟨q, hq, stored, hqKey, hStored, rfl⟩ := after_entry hStore
          rcases Option.or_eq_some_iff.mp hAnswer with hReplay | ⟨-, hUnexpected⟩
          · rcases personal.before hq ⟨key, hqKey, hKey⟩ with hSame | hSilent
            · rw [← hSame]
              have hStatus : response.status = stored.status := CachedResponse.replay_status hReplay
              exact contextual_success hStored (by rwa [HttpResponse.Success, ← hStatus])
            · rw [hSilent.contextual] at hStored
              cases hStored
          · exact absurd hSuccess (not_success_handleUnexpected hUnexpected)

theorem isolated_of_personal {history : List HttpRequest} (personal : app.KeysPersonal history) :
    app.Isolated history := by
  rintro before r after rfl
  refine ⟨fun response => answer_success personal, (answer_filter ?_).symm⟩
  intro other hOther key hKey hKey'
  rcases personal.before hOther ⟨key, hKey, hKey'⟩ with hSame | hSilent
  · exact Or.inl (by simp [sees, hSame])
  · exact Or.inr hSilent.contextual

/-- A replay has passed by the request context: it has no request id. -/
theorem replay_no_requestId {codec : JsonCodec} {cached : CachedResponse} {response : HttpResponse}
    (h : cached.replay codec = some response) : ∀ header ∈ response.headers, header.1 ≠ "x-request-id" := by
  intro header hHeader hName
  have apart : header.1 ≠ "content-length" ∧ header.1 ≠ "content-type" := by
    rw [hName]
    decide
  obtain ⟨content, body, -, -, rfl⟩ := CachedResponse.replay_eq_some.mp h
  rcases mem_bodyResponse_headers hHeader with hGiven | hLength | hType
  · cases hGiven
  · exact apart.1 hLength
  · exact apart.2 hType

/-- The body is one that is answered again from the store. -/
def Repeatable (codec : JsonCodec) (body : Bytes) : Prop :=
  ∃ content again, codec.loads (codec.decode body) = some content ∧ codec.dumps content = some again

/-- The protected route answers everybody it lets in, with a body that can be
answered again. -/
def Answers (app : KernelApp) : Prop := ∀ user request, ∃ response,
  app.handler user request = .responds response ∧ Repeatable app.codec response.body

/-- The refusal is rendered where the path can be read, and can be answered again. -/
theorem refused_repeatable {request : HttpRequest} {error : AppError}
    (hError : requireRoles app.registry app.roles (app.identity request) = .error error)
    (hPath : request.urlPath ≠ none) : ∃ response,
      handleAppError app.codec app.registry request request.traceId error = some response ∧
        Repeatable app.codec response.body := by
  obtain ⟨ec, -, hBuiltin, detail, hHandled⟩ :=
    (refusal_of_requireRoles hError).handled app.codec request request.traceId
  obtain ⟨path, hPath⟩ := Option.ne_none_iff_exists'.mp hPath
  obtain ⟨hLatin, hStatus⟩ := ErrorCode.builtin_plain hBuiltin
  obtain ⟨items, hItems, hFlat⟩ := problemDocument_flat hStatus (orDefault detail ec.defaultMessage) request.traceId path
  obtain ⟨body, content, hBody, hLoads, hAgain⟩ := app.codec.dumps_flat items hFlat
  rw [hHandled]
  exact ⟨_, problemResponse_eq_some.mpr ⟨hLatin, path, body, hPath, hItems ▸ hBody, rfl⟩,
    content, body, hLoads, hAgain⟩

theorem Answers.contextual (h : app.Answers) {request : HttpRequest} (hHeard : ¬ app.Silent request) :
    ∃ response, app.contextual request = some response ∧
      ("x-request-id", requestId request) ∈ response.headers ∧ Repeatable app.codec response.body := by
  have hRoute : ∃ inner, app.route request = some inner ∧ Repeatable app.codec inner.body := by
    simp only [route]
    split
    · next error hError =>
        refine refused_repeatable hError fun hPath => hHeard ⟨hPath, fun hAllowed => ?_⟩
        obtain ⟨user, hUser⟩ := (requireRoles_ok_iff app.registry).mpr hAllowed
        rw [hUser] at hError
        cases hError
    · next user _ =>
        obtain ⟨response, hResponse, hBody⟩ := h user request
        exact ⟨response, by rw [hResponse], hBody⟩
  obtain ⟨inner, hInner, hBody⟩ := hRoute
  exact ⟨{ inner with headers := inner.headers ++ [("x-request-id", requestId request)] },
    by rw [KernelApp.contextual, hInner, Option.map_some],
    List.mem_append_right _ (List.mem_singleton_self _), hBody⟩

/-- The first request with a key that is responded to leaves its response in the
store. -/
theorem stored_of_contextual {requests : List HttpRequest} {q : HttpRequest} {key : String} {response : HttpResponse}
    (hq : q ∈ requests) (hKey : app.storeKey q = some key) (hSome : app.contextual q = some response) :
    ∃ cached, (app.after requests).get key = some cached := by
  induction requests using List.reverseRecOn with
  | nil => cases hq
  | append_singleton requests request ih =>
      rw [after_concat]
      by_cases hSelf : app.storeKey request = some key
      · cases hStore : (app.after requests).get key with
        | some cached =>
            rw [serve_replayed hSelf hStore]
            exact ⟨cached, hStore⟩
        | none =>
            rcases List.mem_append.mp hq with hq | hq
            · obtain ⟨cached, hCached⟩ := ih hq
              rw [hStore] at hCached
              cases hCached
            · rw [← List.mem_singleton.mp hq, serve_fresh hKey hStore, hSome]
              exact ⟨response.cached app.codec, by simp [IdempotencyStore.get_put]⟩
      · rw [serve_get_other hSelf]
        refine ih ?_
        rcases List.mem_append.mp hq with hq | hq
        · exact hq
        · rw [List.mem_singleton.mp hq] at hKey
          exact absurd hKey hSelf

/-- A response that the route completed is answered from the store to everybody
with the key. -/
theorem Answers.replayed (h : app.Answers) {before : List HttpRequest} {q r : HttpRequest} {key : String}
    (hq : q ∈ before) (hHeard : ¬ app.Silent q) (hqKey : app.storeKey q = some key)
    (hrKey : app.storeKey r = some key) :
    ∃ response, app.answer before r = some response ∧ ∀ header ∈ response.headers, header.1 ≠ "x-request-id" := by
  obtain ⟨_, hSent, -⟩ := h.contextual hHeard
  obtain ⟨cached, hCached⟩ := stored_of_contextual hq hqKey hSent
  obtain ⟨first, -, stored, -, hStored, rfl⟩ := after_entry hCached
  have hFirst : ¬ app.Silent first := by
    intro hSilent
    rw [hSilent.contextual] at hStored
    cases hStored
  obtain ⟨_, hSame, -, content, again, hLoads, hAgain⟩ := h.contextual hFirst
  obtain rfl := Option.some.inj (hStored.symm.trans hSame)
  have hReplay : (stored.cached app.codec).replay app.codec = some _ :=
    CachedResponse.replay_eq_some.mpr ⟨content, again, hLoads, hAgain, rfl⟩
  refine ⟨_, ?_, replay_no_requestId hReplay⟩
  rw [answer, serve_replayed hrKey hCached, replayedAnswer, hReplay, Option.some_or]

/-- Somebody else's entry under the caller's key changes the caller's answer. -/
theorem Answers.answer_differs (h : app.Answers) {before : List HttpRequest} {q r : HttpRequest}
    (personal : app.KeysPersonal before) (hq : q ∈ before) (hShares : app.SharesKey q r)
    (hOther : app.identity q ≠ app.identity r) (hHeard : ¬ app.Silent q) :
    app.answer before r ≠ app.answer (before.filter (app.sees r)) r := by
  obtain ⟨key, hqKey, hrKey⟩ := hShares
  have hForeign : ∀ other ∈ before, app.storeKey other = some key →
      app.identity other ≠ app.identity r ∨ app.Silent other := by
    intro other hMem hKey
    rcases personal.same hMem hq ⟨key, hKey, hqKey⟩ with hSame | hSilent | hSilent
    · exact Or.inl (hSame ▸ hOther)
    · exact Or.inr hSilent
    · exact absurd hSilent hHeard
  have hFree : (app.after (before.filter (app.sees r))).get key = none := by
    cases hStore : (app.after (before.filter (app.sees r))).get key with
    | none => rfl
    | some entry =>
        obtain ⟨other, hMem, stored, hKey, hStored, -⟩ := after_entry hStore
        obtain ⟨hBefore, hSees⟩ := List.mem_filter.mp hMem
        have hShared : app.SharesKey other r := ⟨key, hKey, hrKey⟩
        rcases hForeign other hBefore hKey with hApart | hSilent
        · simp [sees, hApart, hShared] at hSees
        · rw [hSilent.contextual] at hStored
          cases hStored
  obtain ⟨replayed, hReplayed, hPlain⟩ := h.replayed hq hHeard hqKey hrKey
  rw [hReplayed, answer, serve_fresh hrKey hFree, freshAnswer]
  intro hEqual
  by_cases hSilent : app.Silent r
  · have hUnexpected : handleUnexpected app.codec r r.traceId = none := by
      rw [← Option.not_isSome_iff_eq_none, handleUnexpected_isSome, not_not]
      exact hSilent.1
    rw [hSilent.contextual, Option.none_or, hUnexpected] at hEqual
    cases hEqual
  · obtain ⟨response, hResponse, hId, -⟩ := h.contextual hSilent
    rw [hResponse, Option.some_or, Option.some.injEq] at hEqual
    exact hPlain _ (hEqual ▸ hId) rfl

theorem Answers.personal_of_isolated (h : app.Answers) {history : List HttpRequest}
    (isolated : app.Isolated history) : app.KeysPersonal history := by
  induction history using List.reverseRecOn with
  | nil => exact List.Pairwise.nil
  | append_singleton before r ih =>
      have personal : app.KeysPersonal before := by
        apply ih
        rintro earlier q later rfl
        exact isolated earlier q (later ++ [r]) (by simp)
      refine List.pairwise_append.mpr ⟨personal, List.pairwise_singleton _ _, ?_⟩
      intro q hq r' hr hShares
      obtain rfl := List.mem_singleton.mp hr
      by_contra hNeither
      obtain ⟨hOther, hHeard⟩ := not_or.mp hNeither
      exact h.answer_differs personal hq hShares hOther hHeard (isolated before r' [] rfl).2

end KernelApp

/-- For a history of requests to a protected route, whatever its handler is:
everyone is answered on their own identity exactly when no two identities use
the same key, where a refused request whose URL cannot be read does not count:
it leaves no response in the store. -/
theorem isolated_iff (codec : JsonCodec) (registry : ErrorRegistry) (serviceName : String)
    (roles : List String) (history : List HttpRequest) :
    (∀ handler, KernelApp.Isolated ⟨codec, registry, serviceName, true, roles, handler⟩ history) ↔
      history.Pairwise fun q r => ∀ key, q.storeKey serviceName = some key →
        r.storeKey serviceName = some key → identityOf true q = identityOf true r ∨
          q.urlPath = none ∧ ¬ Satisfies roles (identityOf true q) := by
  have hPersonal (handler : Identity → HttpRequest → HandlerResult) :
      KernelApp.KeysPersonal ⟨codec, registry, serviceName, true, roles, handler⟩ history ↔
        history.Pairwise fun q r => ∀ key, q.storeKey serviceName = some key →
          r.storeKey serviceName = some key → identityOf true q = identityOf true r ∨
            q.urlPath = none ∧ ¬ Satisfies roles (identityOf true q) := by
    constructor
    · exact List.Pairwise.imp fun h key hq hr => h ⟨key, hq, hr⟩
    · exact List.Pairwise.imp fun h ⟨key, hq, hr⟩ => h key hq hr
  constructor
  · intro h
    obtain ⟨body, content, -, hLoads, hAgain⟩ := codec.dumps_flat [] ⟨List.nodup_nil, fun _ hMem => nomatch hMem⟩
    have answers : KernelApp.Answers
        ⟨codec, registry, serviceName, true, roles, fun _ _ => .responds ⟨200, [], body⟩⟩ :=
      fun _ _ => ⟨_, rfl, content, body, hLoads, hAgain⟩
    exact (hPersonal _).mp (answers.personal_of_isolated (h _))
  · intro h handler
    exact KernelApp.isolated_of_personal ((hPersonal handler).mpr h)

/-- A route for administrators that answers 201 with `{}`. -/
def adminApp : KernelApp where
  codec := emptyObjectCodec
  registry := []
  serviceName := "svc"
  trustProxyHeaders := true
  roles := ["admin"]
  handler := fun _ _ => .responds ⟨201, [("content-type", "application/json")], [123, 125]⟩

def byAdmin : HttpRequest where
  method := "POST"
  path := "/users"
  headers := [("X-User-Id", "alice"), ("X-User-Roles", "admin"), ("Idempotency-Key", "k-1")]
  body := []
  uuid := "u-1"
  traceId := "t-1"

def byStranger : HttpRequest where
  method := "POST"
  path := "/users"
  headers := [("Idempotency-Key", "k-1")]
  body := []
  uuid := "u-2"
  traceId := "t-2"

/-- A caller without any identity gets the administrator's response. -/
theorem stranger_gets_admin_response :
    (adminApp.answer [byAdmin] byStranger).map HttpResponse.status = some 201 ∧
      adminApp.identity byStranger = none ∧
      (adminApp.answer [] byStranger).map HttpResponse.status = some 401 ∧
      ¬ adminApp.Isolated [byAdmin, byStranger] := by
  refine ⟨rfl, rfl, rfl, fun isolated => ?_⟩
  obtain ⟨response, hAnswer, hStatus⟩ : ∃ response, adminApp.answer [byAdmin] byStranger = some response ∧
      response.status = 201 := ⟨_, rfl, rfl⟩
  obtain ⟨user, hUser, -⟩ := (isolated [byAdmin] byStranger [] rfl).1 response hAnswer (by
    rw [HttpResponse.Success, hStatus]
    decide)
  cases hUser

end ServicePlatform
