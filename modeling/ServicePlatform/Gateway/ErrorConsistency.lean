import ServicePlatform.Gateway.Correlation

/-! Whether an error response says the same in its status, its `X-Error-Code`
and its body. The exception handlers build all three from one error code. The
whitelist, the relay and the replay choose headers of their own. -/
namespace ServicePlatform

/-- The media type of a `Content-Type`, without its parameters. -/
def mediaTypeOf (value : String) : List Char :=
  (Text.strip (value.toList.takeWhile fun c => c ≠ ';')).map Char.toLower

def problemMediaType : List Char := "application/problem+json".toList

/-- A charset does not change the media type. -/
theorem mediaTypeOf_mediaTypeHeader (value : String) : mediaTypeOf (mediaTypeHeader value) = mediaTypeOf value := by
  have hCut : ∀ text : List Char, (text ++ "; charset=utf-8".toList).takeWhile (fun c => c ≠ ';') =
      text.takeWhile fun c => c ≠ ';' := by
    intro text
    induction text with
    | nil => rfl
    | cons c text ih =>
        rw [List.cons_append, List.takeWhile_cons, List.takeWhile_cons, ih]
  unfold mediaTypeHeader
  split
  · unfold mediaTypeOf
    rw [String.toList_append, hCut]
  · rfl

namespace Headers

theorem first_append_other {headers : Headers} {header : String × String} {name : String}
    (h : lowerName header.1 ≠ name) : Headers.first (headers ++ [header]) name = Headers.first headers name := by
  simp [Headers.first, List.find?_append, h]

end Headers

namespace HttpResponse

def IsProblem (response : HttpResponse) : Prop :=
  ∃ value, Headers.first response.headers "content-type" = some value ∧ mediaTypeOf value = problemMediaType

/-- A problem response has a JSON object as its body, with the status of the
response and the code of its `X-Error-Code`. -/
def SelfConsistent (codec : JsonCodec) (response : HttpResponse) : Prop :=
  response.IsProblem → ∃ items code, codec.dumps (.dict items) = some response.body ∧
    items.lookup (.str "status") = some (.int response.status) ∧
    items.lookup (.str "code") = some (.str code) ∧ Headers.first response.headers "x-error-code" = some code

variable {codec : JsonCodec} {response : HttpResponse}

theorem selfConsistent_withRequestId (requestId : String) :
    (response.withRequestId requestId).SelfConsistent codec ↔ response.SelfConsistent codec := by
  have hType : lowerName "x-request-id" ≠ "content-type" := by decide
  have hCode : lowerName "x-request-id" ≠ "x-error-code" := by decide
  have hTypes : Headers.first (response.withRequestId requestId).headers "content-type" =
      Headers.first response.headers "content-type" := Headers.first_append_other hType
  have hCodes : Headers.first (response.withRequestId requestId).headers "x-error-code" =
      Headers.first response.headers "x-error-code" := Headers.first_append_other hCode
  unfold SelfConsistent IsProblem
  rw [hTypes, hCodes]
  exact Iff.rfl

/-- Without the header a response is consistent when it is no problem response. -/
theorem selfConsistent_iff_of_uncoded (h : Headers.first response.headers "x-error-code" = none) :
    response.SelfConsistent codec ↔ ¬ response.IsProblem := by
  unfold SelfConsistent
  rw [h]
  simp

theorem first_bodyResponse_errorCode (status : Nat) (mediaType : String) (body : Bytes) :
    Headers.first (bodyResponse status [] mediaType body).headers "x-error-code" = none := by
  simp only [Headers.first, Option.map_eq_none_iff, List.find?_eq_none, decide_eq_true_eq]
  intro header hMem
  rcases mem_bodyResponse_headers hMem with hGiven | hLength | hType
  · cases hGiven
  · rw [hLength]
    decide
  · rw [hType]
    decide

theorem isProblem_bodyResponse_iff {status : Nat} {mediaType : String} {body : Bytes} :
    (bodyResponse status [] mediaType body).IsProblem ↔ mediaTypeOf mediaType = problemMediaType := by
  unfold IsProblem
  rw [bodyResponse_contentType]
  simp [mediaTypeOf_mediaTypeHeader]

/-- Without headers of its own a rendered document is consistent when it is no
problem response. -/
theorem selfConsistent_bodyResponse_iff {status : Nat} {mediaType : String} {body : Bytes} :
    (bodyResponse status [] mediaType body).SelfConsistent codec ↔ mediaTypeOf mediaType ≠ problemMediaType := by
  rw [selfConsistent_iff_of_uncoded (first_bodyResponse_errorCode _ _ _), isProblem_bodyResponse_iff]

/-- The exception handlers build consistent responses. -/
theorem selfConsistent_problemResponse {request : HttpRequest} {traceId : String} {ec : ErrorCode}
    {detail : Option String} {errors : Option PyValue} {retryAfter : Option Nat}
    (h : problemResponse codec request traceId ec detail errors retryAfter = some response) :
    response.SelfConsistent codec := by
  obtain ⟨-, path, body, -, hBody, rfl⟩ := problemResponse_eq_some.mp h
  intro _
  have hName : lowerName "x-error-code" = "x-error-code" := by decide
  refine ⟨_, ec.code, hBody, rfl, rfl, ?_⟩
  simp [bodyResponse, Headers.first, hName]

end HttpResponse

namespace ServiceApp

variable {app : ServiceApp} {request : HttpRequest} {run : RouteRun}

/-- A replay is consistent when it is no problem response. A body that cannot
be parsed and written again is answered by the server's error handler. -/
theorem selfConsistent_replayedResponse_iff (cached : CachedResponse) :
    (∀ response, app.replayedResponse cached request = some response → response.SelfConsistent app.codec) ↔
      mediaTypeOf cached.contentType ≠ problemMediaType ∨
        ∀ content, app.codec.loads cached.body = some content → app.codec.dumps content = none := by
  rw [← CachedResponse.replay_eq_none]
  unfold replayedResponse
  cases hReplay : cached.replay app.codec with
  | none =>
      refine iff_of_true ?_ (Or.inr rfl)
      exact fun response hResponse => HttpResponse.selfConsistent_problemResponse hResponse
  | some response =>
      obtain ⟨content, body, -, -, rfl⟩ := CachedResponse.replay_eq_some.mp hReplay
      simp [HttpResponse.selfConsistent_bodyResponse_iff]

/-- Where the routes are called, only a response of their own can be
inconsistent. -/
theorem selfConsistent_freshResponse_iff :
    (∀ response, app.freshResponse request run = some response → response.SelfConsistent app.codec) ↔
      ∀ sent, run.sent = some sent → sent.response.SelfConsistent app.codec := by
  unfold freshResponse
  cases hSent : run.sent with
  | some sent => simp [HttpResponse.selfConsistent_withRequestId]
  | none =>
      refine iff_of_true ?_ (fun _ hNone => nomatch hNone)
      intro response hResponse
      cases hHandler : app.handler request run.ending with
      | some handled =>
          obtain ⟨ec, detail, errors, retryAfter, hProblem⟩ := handler_problem hHandler
          rw [hHandler] at hResponse
          cases hResponse
          rw [HttpResponse.selfConsistent_withRequestId]
          exact HttpResponse.selfConsistent_problemResponse hProblem
      | none =>
          rw [hHandler] at hResponse
          obtain ⟨-, hUnexpected⟩ := Option.ite_none_right_eq_some.mp hResponse
          exact HttpResponse.selfConsistent_problemResponse hUnexpected

end ServiceApp

namespace Gateway

/-- The media type that `proxy_request` passes on. -/
def relayedType (upstream : HttpResponse) : String :=
  (joinedHeader upstream.headers "content-type").getD "application/json"

theorem isProblem_proxyResponse_iff {upstream : HttpResponse} :
    (proxyResponse upstream).IsProblem ↔ mediaTypeOf (relayedType upstream) = problemMediaType := by
  have hName : lowerName "content-type" = "content-type" := by decide
  unfold HttpResponse.IsProblem
  simp [proxyResponse, relayedType, Headers.first, hName]

theorem first_proxyResponse_errorCode (upstream : HttpResponse) :
    Headers.first (proxyResponse upstream).headers "x-error-code" = none := by
  simp only [Headers.first, Option.map_eq_none_iff, List.find?_eq_none, decide_eq_true_eq]
  intro header hMem
  rcases mem_proxyResponse_headers hMem with hName | hName | hName
  · rw [hName]
    decide
  · rw [hName]
    decide
  · rw [hName]
    decide

/-- How a request that is let in is answered: by the code of a route, or, in
the gateway, with the response of an instance. -/
inductive Handling where
  | route (run : RouteRun)
  | relay (upstream : HttpResponse)

namespace Handling

def run : Handling → RouteRun
  | .route run => run
  | .relay upstream => relayRun upstream

/-- A route writes no inconsistent response itself, and an instance sends no
problem response. -/
def Sound (codec : JsonCodec) : Handling → Prop
  | .route run => ∀ sent, run.sent = some sent → sent.response.SelfConsistent codec
  | .relay upstream => mediaTypeOf (relayedType upstream) ≠ problemMediaType

theorem sound_iff {codec : JsonCodec} {handling : Handling} :
    (∀ sent, handling.run.sent = some sent → sent.response.SelfConsistent codec) ↔ handling.Sound codec := by
  cases handling with
  | route run => exact Iff.rfl
  | relay upstream =>
      have hSent : (Handling.relay upstream).run.sent = some (proxyResponse upstream).sent := rfl
      rw [hSent]
      simp [HttpResponse.response_sent, Sound, ← isProblem_proxyResponse_iff,
        HttpResponse.selfConsistent_iff_of_uncoded (first_proxyResponse_errorCode upstream)]

end Handling

namespace EdgeApp

variable {edge : EdgeApp} {store : HttpStore} {request : HttpRequest} {handling : Handling}

/-- The request passes the whitelist, and is answered neither from a stored
problem response nor with an unsound one. -/
structure ConsistentWhen (edge : EdgeApp) (store : HttpStore) (request : HttpRequest) (handling : Handling) :
    Prop where
  accepted : edge.rejected request = none
  replay : ∀ key cached, edge.app.storeKey request = some key → store.get key = some cached →
    mediaTypeOf cached.contentType ≠ problemMediaType ∨
      ∀ content, edge.app.codec.loads cached.body = some content → edge.app.codec.dumps content = none
  fresh : (∀ key, edge.app.storeKey request = some key → store.get key = none) → handling.Sound edge.app.codec

/-- The response to a request is consistent exactly when it comes from the
exception handlers, or is no problem response, or is a consistent one of a
route's own. -/
theorem self_consistent_iff :
    (∀ response, (edge.serve store request handling.run).exchange.response = some response →
      response.SelfConsistent edge.app.codec) ↔ edge.ConsistentWhen store request handling := by
  cases hRejected : edge.rejected request with
  | some error =>
      refine iff_of_false ?_ (fun hWhen => nomatch hRejected.symm.trans hWhen.accepted)
      intro hAll
      obtain ⟨items, body, hRendered, -, -⟩ :=
        rejectionResponse_of_refusal edge.app.codec request (refusal_of_rejected hRejected)
      exact HttpResponse.selfConsistent_bodyResponse_iff.mp (hAll _ ((serve_rejected hRejected).trans hRendered)) rfl
  | none =>
      rw [serve_accepted hRejected]
      by_cases hFree : ∀ key, edge.app.storeKey request = some key → store.get key = none
      · rw [ServiceApp.serve_called hFree, ServiceApp.selfConsistent_freshResponse_iff, Handling.sound_iff]
        constructor
        · intro hSound
          refine ⟨hRejected, ?_, fun _ => hSound⟩
          intro key cached hKey hTaken
          rw [hFree key hKey] at hTaken
          cases hTaken
        · intro hWhen
          exact hWhen.fresh hFree
      · have hTaken := hFree
        push Not at hTaken
        obtain ⟨key, hKey, hSome⟩ := hTaken
        obtain ⟨cached, hCached⟩ := Option.ne_none_iff_exists'.mp hSome
        rw [ServiceApp.serve_replayed hKey hCached]
        rw [ServiceApp.selfConsistent_replayedResponse_iff]
        constructor
        · intro hReplay
          refine ⟨hRejected, ?_, fun hNone => absurd hNone hFree⟩
          intro key' cached' hKey' hCached'
          cases hKey.symm.trans hKey'
          cases hCached.symm.trans hCached'
          exact hReplay
        · exact fun hWhen => hWhen.replay key cached hKey hCached

/-- What the JSON module writes for a user that exists already. -/
def conflictText : String :=
  "\x7b\"type\":\"/docs/errors#conflict\",\"title\":\"Conflict\",\"status\":409,\"detail\":\"资源冲突\"," ++
    "\"code\":\"CONFLICT\",\"instance\":\"/v1/users\",\"trace_id\":\"t-1\"\x7d"

/-- The JSON module on this one document. -/
def conflictCodec : JsonCodec where
  dumps := fun _ => some conflictText.toUTF8.toList
  loads := fun text =>
    if text = conflictText then
      some (problemDocument .conflict ErrorCode.conflict.defaultMessage "t-1" "/v1/users" none none)
    else none
  decode := fun body => if body = conflictText.toUTF8.toList then conflictText else ""
  dumps_flat := fun _ _ => ⟨conflictText.toUTF8.toList, _, rfl, by rw [if_pos rfl, if_pos rfl], rfl⟩

def conflicting : RouteRun := ⟨none, .raisedApp (AppError.make [] ErrorCode.conflict.code none none none)⟩

/-- The response of the service to the first request. -/
def conflict : HttpResponse :=
  bodyResponse 409 [("x-error-code", "CONFLICT")] "application/problem+json" conflictText.toUTF8.toList

def conflictService : EdgeApp := ⟨⟨conflictCodec, [], "svc"⟩, none⟩

def conflictGateway : EdgeApp := ⟨⟨conflictCodec, [], "gateway"⟩, some "dev-token"⟩

/-- A conflict loses its `X-Error-Code` in the relay, and in the replay. -/
theorem error_code_lost :
    (¬ ∀ response, (conflictGateway.serve IdempotencyStore.empty authorized (relayRun conflict)).exchange.response =
      some response → response.SelfConsistent conflictCodec) ∧
      ¬ ∀ response, (conflictService.serve (conflictService.serve IdempotencyStore.empty authorized conflicting).store
        authorized conflicting).exchange.response = some response → response.SelfConsistent conflictCodec := by
  have hProblem : mediaTypeOf "application/problem+json" = problemMediaType := by decide
  have hType : mediaTypeHeader "application/problem+json" = "application/problem+json" := by decide
  constructor
  · intro hAll
    have hAccepted : conflictGateway.rejected authorized = none := by rfl
    have hFree : ∀ key, conflictGateway.app.storeKey authorized = some key →
        (IdempotencyStore.empty : HttpStore).get key = none := fun _ _ => rfl
    rw [serve_accepted hAccepted, ServiceApp.serve_called hFree] at hAll
    have hSound : ∀ sent, (relayRun conflict).sent = some sent → sent.response.SelfConsistent conflictCodec :=
      ServiceApp.selfConsistent_freshResponse_iff.mp hAll
    have hRelayed : relayedType conflict = "application/problem+json" := by
      have hNames : lowerName "x-error-code" ≠ "content-type" ∧ lowerName "content-length" ≠ "content-type" ∧
          lowerName "content-type" = "content-type" := by decide
      simp [relayedType, joinedHeader, conflict, bodyResponse, hNames, hType]
    have hOwn := hSound _ rfl
    rw [HttpResponse.response_sent, HttpResponse.selfConsistent_iff_of_uncoded (first_proxyResponse_errorCode _),
      isProblem_proxyResponse_iff, hRelayed] at hOwn
    exact hOwn hProblem
  · intro hAll
    have hKey : conflictService.app.storeKey authorized = some "idem:svc:POST:/v1/users:k-1" := by decide
    have hStored : (conflictService.serve IdempotencyStore.empty authorized conflicting).store.get
        "idem:svc:POST:/v1/users:k-1" = some ⟨409, conflictCodec.decode conflict.body, "application/problem+json"⟩ := by
      rfl
    have hOwn : ∀ response, conflictService.app.replayedResponse ⟨409, conflictCodec.decode conflict.body,
        "application/problem+json"⟩ authorized = some response → response.SelfConsistent conflictCodec :=
      fun response hResponse => hAll response ((ServiceApp.serve_replayed hKey hStored).trans hResponse)
    rcases (ServiceApp.selfConsistent_replayedResponse_iff _).mp hOwn with hOther | hNone
    · exact hOther hProblem
    · obtain ⟨content, hLoads⟩ : ∃ content,
          conflictCodec.loads (conflictCodec.decode conflictText.toUTF8.toList) = some content := by
        simp [conflictCodec]
      cases hNone content hLoads

end EdgeApp

end Gateway

end ServicePlatform
