import ServicePlatform.Gateway.Whitelist

/-! Which responses carry the request id of the caller. The request context is
inside the idempotency middleware, the whitelist and the server's error
handler, so that what these three answer by themselves has passed by it. -/
namespace ServicePlatform

namespace HttpResponse

/-- The response has one `X-Request-ID`, with the given value. -/
def Correlated (requestId : String) (response : HttpResponse) : Prop :=
  (response.headers.filter fun header => lowerName header.1 = "x-request-id").map Prod.snd = [requestId]

/-- The response has no `X-Request-ID`. -/
def Uncorrelated (response : HttpResponse) : Prop :=
  ∀ header ∈ response.headers, lowerName header.1 ≠ "x-request-id"

variable {response : HttpResponse} {requestId : String}

theorem Uncorrelated.not_correlated (h : response.Uncorrelated) : ¬ response.Correlated requestId := by
  have hNone : (response.headers.filter fun header => lowerName header.1 = "x-request-id") = [] := by
    rw [List.filter_eq_nil_iff]
    intro header hMem
    rw [decide_eq_true_eq]
    exact h header hMem
  simp [Correlated, hNone]

/-- The request context adds the one header to a response that has none. -/
theorem correlated_withRequestId_iff : (response.withRequestId requestId).Correlated requestId ↔ response.Uncorrelated := by
  have hOwn : lowerName "x-request-id" = "x-request-id" := by decide
  simp [Correlated, Uncorrelated, withRequestId, hOwn, List.filter_eq_nil_iff]

theorem uncorrelated_bodyResponse {status : Nat} {headers : Headers} {mediaType : String} {body : Bytes}
    (h : ∀ header ∈ headers, lowerName header.1 ≠ "x-request-id") :
    (bodyResponse status headers mediaType body).Uncorrelated := by
  intro header hMem
  have hLength : lowerName "content-length" ≠ "x-request-id" := by decide
  have hType : lowerName "content-type" ≠ "x-request-id" := by decide
  rcases mem_bodyResponse_headers hMem with hGiven | hName | hName
  · exact h header hGiven
  · rw [hName]
    exact hLength
  · rw [hName]
    exact hType

theorem uncorrelated_problemResponse {codec : JsonCodec} {request : HttpRequest} {traceId : String} {ec : ErrorCode}
    {detail : Option String} {errors : Option PyValue} {retryAfter : Option Nat}
    (h : problemResponse codec request traceId ec detail errors retryAfter = some response) :
    response.Uncorrelated := by
  obtain ⟨-, path, body, -, -, rfl⟩ := problemResponse_eq_some.mp h
  apply uncorrelated_bodyResponse
  intro header hMem
  rw [List.mem_singleton.mp hMem]
  show lowerName "x-error-code" ≠ "x-request-id"
  decide

/-- Whether a response is correlated is settled with its head. -/
theorem exists_correlated_congr {answer answer' : Option HttpResponse}
    (h : answer.map head = answer'.map head) :
    (∃ response, answer = some response ∧ response.Correlated requestId) ↔
      ∃ response, answer' = some response ∧ response.Correlated requestId := by
  have forward : ∀ {answer answer' : Option HttpResponse}, answer.map head = answer'.map head →
      (∃ response, answer = some response ∧ response.Correlated requestId) →
        ∃ response, answer' = some response ∧ response.Correlated requestId := by
    rintro answer answer' hHead ⟨response, rfl, hCorrelated⟩
    obtain ⟨other, rfl, hOther⟩ := Option.map_eq_some_iff.mp hHead.symm
    have hHeaders : other.headers = response.headers := congrArg Prod.snd hOther
    exact ⟨other, rfl, by rwa [Correlated, hHeaders]⟩
  exact ⟨forward h, forward h.symm⟩

end HttpResponse

namespace ServiceApp

variable {app : ServiceApp} {request : HttpRequest} {run : RouteRun}

theorem uncorrelated_replayedResponse {cached : CachedResponse} {response : HttpResponse}
    (h : app.replayedResponse cached request = some response) : response.Uncorrelated := by
  rcases Option.or_eq_some_iff.mp h with hReplay | ⟨-, hUnexpected⟩
  · obtain ⟨content, body, -, -, rfl⟩ := CachedResponse.replay_eq_some.mp hReplay
    exact HttpResponse.uncorrelated_bodyResponse fun _ hMem => nomatch hMem
  · exact HttpResponse.uncorrelated_problemResponse hUnexpected

/-- Where the routes are called, there is a correlated response when an exception
handler renders what they raise, or when they write one without the header. -/
theorem correlated_freshResponse_iff :
    (∃ response, app.freshResponse request run = some response ∧
      response.Correlated (KernelApp.requestId request)) ↔
      (run.sent = none → app.Answerable request run.ending) ∧
        ∀ sent, run.sent = some sent → sent.response.Uncorrelated := by
  unfold freshResponse
  cases hSent : run.sent with
  | some sent => simp [HttpResponse.correlated_withRequestId_iff]
  | none =>
      rw [← handler_isSome_iff]
      cases hHandler : app.handler request run.ending with
      | some response =>
          obtain ⟨ec, detail, errors, retryAfter, hProblem⟩ := handler_problem hHandler
          simp [HttpResponse.correlated_withRequestId_iff, HttpResponse.uncorrelated_problemResponse hProblem]
      | none =>
          refine iff_of_false ?_ (fun hCondition => nomatch hCondition.1 rfl)
          rintro ⟨response, hResponse, hCorrelated⟩
          obtain ⟨-, hUnexpected⟩ := Option.ite_none_right_eq_some.mp hResponse
          exact (HttpResponse.uncorrelated_problemResponse hUnexpected).not_correlated hCorrelated

end ServiceApp

namespace Gateway.EdgeApp

variable {edge : EdgeApp} {store : HttpStore} {request : HttpRequest} {run : RouteRun} {requestId : String}
  {faults : StoreFaults}

theorem requestId_given (hGiven : request.header "x-request-id" = some requestId) (hSome : requestId ≠ "") :
    KernelApp.requestId request = requestId := by
  unfold KernelApp.requestId orDefault
  rw [hGiven]
  exact if_neg hSome

theorem uncorrelated_rejected {error : AppError} {response : HttpResponse} (hRejected : edge.rejected request = some error)
    (h : (edge.serveWith faults store request run).response = some response) : response.Uncorrelated := by
  obtain ⟨items, body, hRendered, -, -⟩ :=
    rejectionResponse_of_refusal edge.app.codec request (refusal_of_rejected hRejected)
  simp only [serveWith, hRejected] at h
  rw [response_reject hRejected, hRendered] at h
  cases h
  exact HttpResponse.uncorrelated_bodyResponse fun _ hMem => nomatch hMem

theorem uncorrelated_proxyResponse (upstream : HttpResponse) : (proxyResponse upstream).Uncorrelated := by
  intro header hMem
  rcases mem_proxyResponse_headers hMem with hName | hName | hName
  · rw [hName]
    decide
  · rw [hName]
    decide
  · rw [hName]
    decide

/-- A request with an id gets a response that carries it once, and no other,
exactly when the request passes the whitelist, the store is read without a
failure and does not hold its key, and its route writes a response without such
a header or raises an exception that a handler renders. -/
theorem correlated_iff (hGiven : request.header "x-request-id" = some requestId) (hSome : requestId ≠ "") :
    (∃ response, (edge.serveWith faults store request run).response = some response ∧
      response.Correlated requestId) ↔
      edge.rejected request = none ∧
        (∀ key, edge.app.storeKey request = some key → faults.get = false ∧ store.get key = none) ∧
        (run.sent = none → edge.app.Answerable request run.ending) ∧
          ∀ sent, run.sent = some sent → sent.response.Uncorrelated := by
  cases hRejected : edge.rejected request with
  | some error =>
      refine iff_of_false ?_ (fun hCondition => nomatch hCondition.1)
      rintro ⟨response, hResponse, hCorrelated⟩
      exact (uncorrelated_rejected hRejected hResponse).not_correlated hCorrelated
  | none =>
      have hServed : edge.serveWith faults store request run = edge.app.serveWith faults store request run := by
        simp only [serveWith, hRejected]
      rw [hServed, eq_self_iff_true, true_and]
      by_cases hFree : ∀ key, edge.app.storeKey request = some key → faults.get = false ∧ store.get key = none
      · rw [HttpResponse.exists_correlated_congr (ServiceApp.head_serveWith hFree), ← requestId_given hGiven hSome,
          and_iff_right hFree]
        exact ServiceApp.correlated_freshResponse_iff
      · refine iff_of_false ?_ (fun hCondition => hFree hCondition.1)
        push Not at hFree
        obtain ⟨key, hKey, hTaken⟩ := hFree
        rintro ⟨response, hResponse, hCorrelated⟩
        cases hGet : faults.get with
        | true =>
            rw [ServiceApp.serveWith_failed hKey hGet] at hResponse
            exact (HttpResponse.uncorrelated_problemResponse hResponse).not_correlated hCorrelated
        | false =>
            obtain ⟨cached, hCached⟩ := Option.ne_none_iff_exists'.mp (hTaken hGet)
            rw [ServiceApp.serveWith_replayed hKey hGet hCached] at hResponse
            exact (ServiceApp.uncorrelated_replayedResponse hResponse).not_correlated hCorrelated

/-- The gateway, and the same application without the whitelist. -/
def gateway : EdgeApp := ⟨⟨emptyObjectCodec, [], "gateway"⟩, some "dev-token"⟩

def service : EdgeApp := ⟨⟨emptyObjectCodec, [], "svc"⟩, none⟩

def createUser (key : String) (headers : Headers) : HttpRequest where
  method := "POST"
  path := "/v1/users"
  headers := [("x-request-id", "r-1"), ("idempotency-key", key)] ++ headers
  body := []
  uuid := "u-1"
  traceId := "t-1"

/-- An instance has created the user. -/
def created : HttpResponse := ⟨201, [("content-type", "application/json"), ("x-upstream", "http://a")], [123, 125]⟩

/-- A request of a client with a token. -/
def authorized : HttpRequest := createUser "k-1" [("authorization", "Bearer dev-token")]

/-- The gateway relays a response with the id of the caller. -/
theorem correlated_iff_relayed : ∃ response,
    (gateway.serveWith ⟨false, false⟩ IdempotencyStore.empty authorized (relayRun created)).response = some response ∧
      response.Correlated "r-1" := by
  have hGiven : authorized.header "x-request-id" = some "r-1" := by decide
  have hAccepted : gateway.rejected authorized = none := by rfl
  have hOwn : ∀ sent, (relayRun created).sent = some sent → sent.response.Uncorrelated := by
    intro sent hSent
    cases hSent
    rw [HttpResponse.response_sent]
    exact uncorrelated_proxyResponse created
  refine (correlated_iff hGiven (by decide)).mpr ⟨hAccepted, fun _ _ => ⟨rfl, rfl⟩, ?_, hOwn⟩
  intro hNone
  cases hNone

/-- The client gets no response with its id. -/
def Lost (exchange : Exchange) : Prop :=
  ¬ ∃ response, exchange.response = some response ∧ response.Correlated "r-1"

/-- A rejected request, a repeated one and one whose route raises something
unexpected are answered without the id of the caller. -/
theorem request_id_lost :
    Lost (gateway.serveWith ⟨false, false⟩ IdempotencyStore.empty (createUser "k-1" []) (relayRun created)) ∧
      Lost (service.serveWith ⟨false, false⟩ (service.serve IdempotencyStore.empty (createUser "k-1" [])
        (relayRun created)).store (createUser "k-1" []) (relayRun created)) ∧
      Lost (service.serveWith ⟨false, false⟩ IdempotencyStore.empty (createUser "k-1" []) ⟨none, .raised⟩) := by
  refine ⟨?_, ?_, ?_⟩
  · rintro ⟨response, hResponse, hCorrelated⟩
    obtain ⟨error, hError⟩ : ∃ error, gateway.rejected (createUser "k-1" []) = some error := ⟨_, rfl⟩
    exact (uncorrelated_rejected hError hResponse).not_correlated hCorrelated
  · rintro ⟨response, hResponse, hCorrelated⟩
    obtain ⟨cached, hCached⟩ : ∃ cached, (service.serve IdempotencyStore.empty (createUser "k-1" [])
        (relayRun created)).store.get "idem:svc:POST:/v1/users:k-1" = some cached := ⟨_, rfl⟩
    have hKey : service.app.storeKey (createUser "k-1" []) = some "idem:svc:POST:/v1/users:k-1" := by decide
    have hReplayed := (ServiceApp.serveWith_replayed hKey rfl hCached).symm.trans hResponse
    exact (ServiceApp.uncorrelated_replayedResponse hReplayed).not_correlated hCorrelated
  · rintro ⟨response, hResponse, hCorrelated⟩
    have hUnexpected : handleUnexpected service.app.codec (createUser "k-1" []) "t-1" = some response := hResponse
    exact (HttpResponse.uncorrelated_problemResponse hUnexpected).not_correlated hCorrelated

end Gateway.EdgeApp

end ServicePlatform
