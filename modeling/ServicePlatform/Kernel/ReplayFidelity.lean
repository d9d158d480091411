import ServicePlatform.Kernel.Exchange

/-! Whether a replay gives back what was stored. The body is decoded when it is
stored, and parsed and rendered again when it is replayed, so that only the
bytes which the renderer itself would write come back. The content type is that
of the first header, or a default. -/
namespace ServicePlatform

/-- A media type to which no charset is added. -/
def KeepsMediaType (mediaType : String) : Prop :=
  "text/".toList.isPrefixOf mediaType.toList = true →
    (lowerName mediaType).toList.tails.any "charset=".toList.isPrefixOf = true

theorem mediaTypeHeader_eq_self {mediaType : String} : mediaTypeHeader mediaType = mediaType ↔ KeepsMediaType mediaType := by
  unfold mediaTypeHeader KeepsMediaType
  split
  · next hText =>
      rw [Bool.and_eq_true, Bool.not_eq_true'] at hText
      refine iff_of_false ?_ ?_
      · intro hSame
        have hLength := congrArg (List.length ∘ String.toList) hSame
        simp at hLength
      · intro hKeeps
        rw [hKeeps hText.1] at hText
        cases hText.2
  · next hText =>
      refine iff_of_true rfl ?_
      intro hPrefix
      rw [hPrefix, Bool.true_and, Bool.not_eq_true', Bool.not_eq_false] at hText
      exact hText

/-- The request is guarded by the key of its header. -/
def HttpRequest.Guarded (request : HttpRequest) (key : String) : Prop :=
  request.method ∈ idempotentMethods ∧ request.header "idempotency-key" = some key ∧ key ≠ ""

theorem HttpRequest.Guarded.storeKey {request : HttpRequest} {key : String} (h : request.Guarded key)
    (service : String) :
    request.storeKey service = some (makeIdempotencyKey service request.method request.path key) := by
  obtain ⟨hMethod, hKey, hSome⟩ := h
  simp only [HttpRequest.storeKey, hMethod, hKey, hSome, if_true, if_false]

namespace ChunkedResponse

/-- The wrapped application was not called, and the client gets the status, the
content type and the body of the response. -/
def Repeated (sent : ChunkedResponse) (served : Served) : Prop :=
  served.called = false ∧ ∃ response : HttpResponse, served.exchange = response.exchange ∧
    response.status = sent.status ∧
    Headers.first response.headers "content-type" = Headers.first sent.headers "content-type" ∧
    response.body = sent.response.body

/-- The body is as the JSON renderer writes it, and the content type is given
and stays as it is. -/
def Replayable (codec : JsonCodec) (sent : ChunkedResponse) : Prop :=
  (∃ content, codec.loads (codec.decode sent.response.body) = some content ∧
    codec.dumps content = some sent.response.body) ∧
  ∃ mediaType, Headers.first sent.headers "content-type" = some mediaType ∧ KeepsMediaType mediaType

end ChunkedResponse

namespace IdempotencyMiddleware

variable {m : IdempotencyMiddleware}

/-- What is stored of a response comes back as it was exactly when the response
is replayable. -/
theorem repeated_cached_iff (sent : ChunkedResponse) (store : IdempotencyStore CachedResponse) :
    sent.Repeated ⟨store, (sent.response.cached m.codec).exchange m.codec, false⟩ ↔ sent.Replayable m.codec := by
  constructor
  · rintro ⟨-, response, hExchange, -, hSame, hBytes⟩
    obtain ⟨content, body, hLoads, hBody, rfl⟩ :=
      CachedResponse.replay_eq_some.mp (CachedResponse.exchange_eq_iff.mp hExchange)
    refine ⟨⟨content, hLoads, hBody.trans (congrArg some hBytes)⟩, ?_⟩
    have hType : some (mediaTypeHeader ((Headers.first sent.headers "content-type").getD "application/json")) =
        Headers.first sent.headers "content-type" := (bodyResponse_contentType _ _ _).symm.trans hSame
    cases hGiven : Headers.first sent.headers "content-type" with
    | none =>
        rw [hGiven] at hType
        cases hType
    | some mediaType =>
        rw [hGiven, Option.getD_some] at hType
        exact ⟨mediaType, rfl, mediaTypeHeader_eq_self.mp (Option.some.inj hType)⟩
  · rintro ⟨⟨content, hLoads, hBody⟩, mediaType, hGiven, hKeeps⟩
    have hReplay : (sent.response.cached m.codec).replay m.codec = some _ :=
      CachedResponse.replay_eq_some.mpr ⟨content, _, hLoads, hBody, rfl⟩
    refine ⟨rfl, _, CachedResponse.exchange_eq_iff.mpr hReplay, rfl, ?_, rfl⟩
    have hType : (sent.response.cached m.codec).contentType = mediaType := by
      show (Headers.first sent.headers "content-type").getD "application/json" = mediaType
      rw [hGiven, Option.getD_some]
    rw [bodyResponse_contentType, hType, hGiven, mediaTypeHeader_eq_self.mpr hKeeps]

/-- A response that was completed for a guarded request is repeated to a later
request with the same method, path and key exactly when it is replayable. -/
theorem repeated_iff {before mid : List Event} {q r : HttpRequest} {key : String} (hGuarded : q.Guarded key)
    (hMethod : r.method = q.method) (hPath : r.path = q.path)
    (hKey : r.header "idempotency-key" = q.header "idempotency-key") (sent : ChunkedResponse) (raised : Bool)
    (hCalled : (m.call (m.after before) q ⟨sent.messages, raised⟩).called = true)
    (hLive : ∀ storeKey, q.storeKey m.service = some storeKey → .expire storeKey ∉ mid) (inner : Exchange) :
    sent.Repeated (m.call (m.after (before ++ .request q ⟨sent.messages, raised⟩ :: mid)) r inner) ↔
      sent.Replayable m.codec := by
  have hGuarded' : r.Guarded key := by
    rw [HttpRequest.Guarded, hMethod, hKey]
    exact hGuarded
  have hStoreKey := hGuarded.storeKey m.service
  have hStoreKey' := hGuarded'.storeKey m.service
  rw [hMethod, hPath] at hStoreKey'
  have hFree := called_iff.mp hCalled _ hStoreKey
  have hStored : (m.after (before ++ [.request q ⟨sent.messages, raised⟩])).get
      (makeIdempotencyKey m.service q.method q.path key) = some (sent.response.cached m.codec) := by
    rw [after_concat, storeStep, call_fresh hStoreKey hFree]
    exact keep_chunked sent
  have hKept := after_get_append hStored (hLive _ hStoreKey)
  rw [List.append_assoc, List.singleton_append] at hKept
  rw [call_known hStoreKey' hKept]
  exact repeated_cached_iff sent _

end IdempotencyMiddleware

/-- A request with an idempotency key. -/
def keyedPost : HttpRequest where
  method := "POST"
  path := "/users"
  headers := [("idempotency-key", "k-1")]
  body := []
  uuid := "u-1"
  traceId := "t-1"

def jsonMiddleware : IdempotencyMiddleware := ⟨emptyObjectCodec, "svc"⟩

/-- An empty JSON object in two chunks. -/
def emptyObject : ChunkedResponse := ⟨201, [("content-type", "application/json")], [[123]], [125]⟩

theorem IdempotencyMiddleware.repeated_iff_emptyObject :
    emptyObject.Repeated (jsonMiddleware.call (jsonMiddleware.after
      [.request keyedPost ⟨emptyObject.messages, false⟩]) keyedPost ⟨[], false⟩) := by
  have hGuarded : keyedPost.Guarded "k-1" := by
    refine ⟨by decide, by decide, by decide⟩
  have hIff : emptyObject.Repeated (jsonMiddleware.call (jsonMiddleware.after
      ([] ++ .request keyedPost ⟨emptyObject.messages, false⟩ :: [])) keyedPost ⟨[], false⟩) ↔ _ :=
    repeated_iff hGuarded rfl rfl rfl emptyObject false rfl (by simp) ⟨[], false⟩
  refine hIff.mpr ⟨⟨.dict [], rfl, rfl⟩, "application/json", by decide, ?_⟩
  unfold KeepsMediaType
  decide

/-- A response without a body. -/
def noContent : ChunkedResponse := ⟨204, [], [], []⟩

/-- The replay of a response without a body raises. -/
theorem IdempotencyMiddleware.noContent_not_repeated :
    (jsonMiddleware.call IdempotencyStore.empty keyedPost ⟨noContent.messages, false⟩).called = true ∧
      (jsonMiddleware.call (jsonMiddleware.after [.request keyedPost ⟨noContent.messages, false⟩]) keyedPost
        ⟨noContent.messages, false⟩).exchange = ⟨[], true⟩ ∧
      ¬ noContent.Repeated (jsonMiddleware.call (jsonMiddleware.after
        [.request keyedPost ⟨noContent.messages, false⟩]) keyedPost ⟨noContent.messages, false⟩) := by
  have hRaises : (jsonMiddleware.call (jsonMiddleware.after [.request keyedPost ⟨noContent.messages, false⟩]) keyedPost
        ⟨noContent.messages, false⟩).exchange = ⟨[], true⟩ := by
    rfl
  refine ⟨rfl, hRaises, ?_⟩
  rintro ⟨-, response, hExchange, -⟩
  rw [hRaises] at hExchange
  cases hExchange

end ServicePlatform
