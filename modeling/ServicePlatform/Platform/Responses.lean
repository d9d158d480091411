import ServicePlatform.Kernel.ReplayScope
import ServicePlatform.Platform.Mediation

/-! Where the responses of the gateway come from. A response is an error of the
gateway's own, or an instance has given it to the very operation that the client
asked for: for this client, or for an earlier one that repeated the same POST
with the same key. -/
namespace ServicePlatform

open Gateway Transition

section Whitelisted

/-- Literal characters match themselves, with a line feed after them at most. -/
theorem matchParts_literal {text front : List Char} (h : matchParts text (front.map .char) = true) :
    text = front ∨ text = front ++ ['\n'] := by
  induction front generalizing text with
  | nil =>
      cases text with
      | nil => exact Or.inl rfl
      | cons c rest =>
          simp only [List.map_nil, matchParts, Bool.and_eq_true, beq_iff_eq, List.isEmpty_iff] at h
          rw [h.1, h.2]
          exact Or.inr rfl
  | cons d front ih =>
      cases text with
      | nil => simp [matchParts] at h
      | cons c rest =>
          simp only [List.map_cons, matchParts, Bool.and_eq_true, beq_iff_eq] at h
          rw [h.1]
          exact (ih h.2).imp (congrArg _) (congrArg _)

/-- No path of the POST rule has a colon. -/
theorem no_colon_of_match {path : String} (h : matchPath "/v1/users" path = true) : ':' ∉ path.toList := by
  have hParts : patternParts "/v1/users" = "/v1/users".toList.map .char := by decide
  rw [matchPath, hParts] at h
  rcases matchParts_literal h with hPath | hPath
  · rw [hPath]
    decide
  · rw [hPath]
    decide

variable {registry : ErrorRegistry} {devToken : String} {request : HttpRequest}

/-- A POST below `/v1/` that passes the whitelist is one for the rule. -/
theorem match_of_passed (hPassed : rejection registry devToken request = none) (hMethod : request.method = "POST")
    (hPrefix : "/v1/".toList <+: request.path.toList) : matchPath "/v1/users" request.path = true := by
  unfold rejection at hPassed
  rw [if_pos (List.isPrefixOf_iff_prefix.mpr hPrefix)] at hPassed
  split at hPassed
  · cases hPassed
  · next identity _ =>
      split at hPassed
      · cases hPassed
      · next hAccess =>
          unfold checkFunctionAccess at hAccess
          split at hAccess
          · cases hAccess
          · next rule hRule =>
              have hMatch := List.find?_some hRule
              have hListed := List.mem_of_find?_eq_some hRule
              rw [Bool.and_eq_true, beq_iff_eq, hMethod] at hMatch
              simp only [routeWhitelist, List.mem_cons, List.not_mem_nil, or_false] at hListed
              rcases hListed with rfl | rfl
              · exact hMatch.2
              · exact absurd hMatch.1 (by decide)

theorem guarded_of_storeKey {service key : String} (h : request.storeKey service = some key) :
    ∃ own, request.Guarded own ∧ key = makeIdempotencyKey service request.method request.path own := by
  unfold HttpRequest.storeKey at h
  split at h
  · next hMethod =>
      split at h
      · next own hOwn =>
          obtain ⟨hSome, hKey⟩ := Option.ite_none_left_eq_some.mp h
          exact ⟨own, ⟨hMethod, hOwn, hSome⟩, (Option.some_inj.mp hKey).symm⟩
      · cases h
  · cases h

/-- Behind the whitelist a key of the store belongs to one operation, if it is
that of a POST for users. -/
theorem sameOperation_of_storeKey {other : HttpRequest} {service key : String}
    (hPassed : rejection registry devToken other = none) (hOther : other.storeKey service = some key)
    (hRoute : UserRoute.of request = some .createUser) (hKey : request.storeKey service = some key) :
    other.SameOperation request := by
  obtain ⟨own, hGuarded, rfl⟩ := guarded_of_storeKey hKey
  obtain ⟨otherKey, hOtherGuarded, hSame⟩ := guarded_of_storeKey hOther
  have hMatch : request.method = "POST" ∧ matchPath "/v1/users" request.path = true := by
    unfold UserRoute.of at hRoute
    split at hRoute
    · next hPost => exact hPost
    · split at hRoute
      · cases hRoute
      · cases hRoute
  have hPlain := no_colon_of_match hMatch.2
  obtain ⟨hMethod, ⟨hPath, hOwn⟩ | ⟨piece, hShifted, -⟩ | ⟨piece, hShifted, -⟩⟩ :=
    (makeIdempotencyKey_eq_iff service hGuarded.1 hOtherGuarded.1).mp hSame
  · exact ⟨hMethod.symm, hPath.symm, hOtherGuarded.2.1.trans ((congrArg some hOwn.symm).trans hGuarded.2.1.symm)⟩
  · -- the other path goes on behind a colon, below `/v1/users`, which no rule allows
    have hPrefix : "/v1/".toList <+: other.path.toList := by
      have hFront : "/v1/".toList <+: request.path.toList := by
        have hParts : patternParts "/v1/users" = "/v1/users".toList.map .char := by decide
        have hLiteral := hMatch.2
        rw [matchPath, hParts] at hLiteral
        rcases matchParts_literal hLiteral with hText | hText
        · exact ⟨"users".toList, hText.symm⟩
        · exact ⟨"users\n".toList, hText.symm⟩
      rw [hShifted, String.toList_append, String.toList_append, List.append_assoc]
      exact hFront.trans (List.prefix_append _ _)
    have hOtherPlain := no_colon_of_match (match_of_passed hPassed (hMethod.symm.trans hMatch.1) hPrefix)
    rw [hShifted, toList_joined] at hOtherPlain
    simp at hOtherPlain
  · rw [hShifted, toList_joined] at hPlain
    simp at hPlain

end Whitelisted

/-- The messages of the `DownstreamError` that ends a call of the balancer. -/
def OutOfInstances (message : String) : Prop := message = noneAvailable ∨ ∃ lastError, message = exhausted lastError

/-- Why the route of a client ended as it did. -/
inductive Ran (platform : Platform) (s : PlatformState) (c : CallId) : RouteRun → Prop where
  | other (hRoute : UserRoute.of (platform.request c) = none) : Ran platform s c (platform.edgeRoutes (platform.request c))
  | refused {route : UserRoute} {error : AppError} (hRoute : UserRoute.of (platform.request c) = some route)
      (hRefused : route.authorise platform.edge.registry platform.devToken (platform.request c) = .error error) :
      Ran platform s c ⟨none, .raisedApp error⟩
  | relayed {e : Execution} {reply : HttpResponse} (hMem : e ∈ s.executions) (hCall : e.call = c)
      (hConveyed : Conveyed e.answer reply) (hStatus : reply.status < 500) :
      Ran platform s c (relayRun (withUpstream e.url reply))
  | failed {message : String} (hMessage : OutOfInstances message) :
      Ran platform s c ⟨none, .raisedApp (downstreamError platform.edge.registry message)⟩
  | lost : Ran platform s c ⟨none, .raised⟩

/-- The entry was stored for a client that the whitelist let pass. -/
def Stored (platform : Platform) (s : PlatformState) (key : String) (cached : CachedResponse) : Prop :=
  ∃ c run, platform.edgeApp.rejected (platform.request c) = none ∧
    platform.edge.storeKey (platform.request c) = some key ∧ Ran platform s c run ∧
    (UserRoute.of (platform.request c) ≠ none → ∃ response,
      platform.edge.freshResponse (platform.request c) run = some response ∧ cached = response.cached platform.edge.codec)

/-- Why a client got its response. -/
inductive Explained (platform : Platform) (s : PlatformState) (c : CallId) : Option HttpResponse → Prop where
  | rejected {error : AppError} (hRejected : platform.edgeApp.rejected (platform.request c) = some error) :
      Explained platform s c (rejectionResponse platform.edge.codec (platform.request c) error)
  | replayed {key : String} {cached : CachedResponse} (hKey : platform.edge.storeKey (platform.request c) = some key)
      (hStored : Stored platform s key cached) (hUnproxied : s.proxied c = none) :
      Explained platform s c (platform.edge.replayedResponse cached (platform.request c))
  | fresh {run : RouteRun} (hRan : Ran platform s c run) :
      Explained platform s c (platform.edge.freshResponse (platform.request c) run)

section Account

variable {platform : Platform} {users : List User} {s t : PlatformState} {a : PlatformAction} {c : CallId}

theorem Ran.mono {run : RouteRun} (h : Ran platform s c run) (hMore : ∀ e ∈ s.executions, e ∈ t.executions) :
    Ran platform t c run := by
  cases h with
  | other hRoute => exact .other hRoute
  | refused hRoute hRefused => exact .refused hRoute hRefused
  | relayed hMem hCall hConveyed hStatus => exact .relayed (hMore _ hMem) hCall hConveyed hStatus
  | failed hMessage => exact .failed hMessage
  | lost => exact .lost

theorem Stored.mono {key : String} {cached : CachedResponse} (h : Stored platform s key cached)
    (hMore : ∀ e ∈ s.executions, e ∈ t.executions) : Stored platform t key cached := by
  obtain ⟨c, run, hPassed, hKey, hRan, hEntry⟩ := h
  exact ⟨c, run, hPassed, hKey, hRan.mono hMore, hEntry⟩

theorem Explained.mono {response : Option HttpResponse} (h : Explained platform s c response)
    (hMore : ∀ e ∈ s.executions, e ∈ t.executions) (hProxied : t.proxied c = s.proxied c) :
    Explained platform t c response := by
  cases h with
  | rejected hRejected => exact .rejected hRejected
  | replayed hKey hStored hUnproxied => exact .replayed hKey (hStored.mono hMore) (hProxied.trans hUnproxied)
  | fresh hRan => exact .fresh (hRan.mono hMore)

/-- Everything that was answered and stored is explained by what was executed. -/
structure Backed (platform : Platform) (s : PlatformState) : Prop where
  answered : ∀ c response, s.clients c = .answered response → Explained platform s c response
  stored : ∀ key cached, s.store.get key = some cached → Stored platform s key cached
  proxying : ∀ c, s.clients c = .proxying → s.proxied c ≠ none
  returned : ∀ c response, s.gateway.calls c = .returned response → ∃ e ∈ s.executions, e.call = c ∧
    ∃ reply, Conveyed e.answer reply ∧ reply.status < 500 ∧ response = withUpstream e.url reply
  raised : ∀ c message, s.gateway.calls c = .raised message → OutOfInstances message

theorem backed_initial (urls : List String) : Backed platform (PlatformState.initial urls users) where
  answered _ _ h := nomatch h
  stored _ _ h := nomatch h
  proxying _ h := nomatch h
  returned _ _ h := nomatch h
  raised _ _ h := nomatch h

/-- A response that is sent in one piece is stored as a whole. -/
theorem keep_exchange (m : IdempotencyMiddleware) (store : HttpStore) (key : String) (response : HttpResponse) :
    m.keep store key response.exchange.messages = store.put key (response.cached m.codec) := rfl

theorem freshResponse_relay (app : ServiceApp) (request : HttpRequest) (upstream : HttpResponse) :
    app.freshResponse request (relayRun upstream) =
      some ((proxyResponse upstream).withRequestId (KernelApp.requestId request)) :=
  congrArg (fun response => some (HttpResponse.withRequestId (KernelApp.requestId request) response))
    (HttpResponse.response_sent _)

/-- What a route that ended for one of these reasons leaves in the store. -/
theorem Ran.entry {run : RouteRun} (hRan : Ran platform s c run) {store : HttpStore} {key other : String}
    {cached : CachedResponse}
    (h : (platform.edge.idempotency.keep store key
      (platform.edge.inner (platform.request c) run).messages).get other = some cached) :
    store.get other = some cached ∨ other = key ∧ (UserRoute.of (platform.request c) ≠ none → ∃ response,
      platform.edge.freshResponse (platform.request c) run = some response ∧
        cached = response.cached platform.edge.codec) := by
  by_cases hOther : other = key
  · subst hOther
    have hWhole : ∀ response, platform.edge.freshResponse (platform.request c) run = some response →
        platform.edge.inner (platform.request c) run = response.exchange → store.get other = some cached ∨
          other = other ∧ (UserRoute.of (platform.request c) ≠ none → ∃ response,
            platform.edge.freshResponse (platform.request c) run = some response ∧
              cached = response.cached platform.edge.codec) := by
      intro response hFresh hInner
      rw [hInner, keep_exchange, IdempotencyStore.get_put, if_pos rfl] at h
      exact Or.inr ⟨rfl, fun _ => ⟨response, hFresh, (Option.some_inj.mp h).symm⟩⟩
    have hRaised : ∀ error, run = ⟨none, .raisedApp error⟩ → store.get other = some cached ∨
        other = other ∧ (UserRoute.of (platform.request c) ≠ none → ∃ response,
          platform.edge.freshResponse (platform.request c) run = some response ∧
            cached = response.cached platform.edge.codec) := by
      rintro error rfl
      cases hHandler : platform.edge.handler (platform.request c) (.raisedApp error) with
      | some response =>
          refine hWhole (response.withRequestId (KernelApp.requestId (platform.request c))) ?_ ?_
          · simp only [ServiceApp.freshResponse, hHandler]
          · rw [ServiceApp.inner, ServiceApp.handled_handler rfl hHandler]
            rfl
      | none =>
          rw [ServiceApp.inner, ServiceApp.handled_silent rfl hHandler] at h
          exact Or.inl h
    cases hRan with
    | other hRoute => exact Or.inr ⟨rfl, fun hSome => absurd hRoute hSome⟩
    | refused => exact hRaised _ rfl
    | relayed => exact hWhole _ (freshResponse_relay _ _ _) rfl
    | failed => exact hRaised _ rfl
    | lost => exact Or.inl h
  · rw [IdempotencyMiddleware.keep_get_other hOther] at h
    exact Or.inl h

/-- A client moves on. Its response is explained by what was done so far. -/
theorem Backed.setClient (inv : Backed platform s) {phase : ClientPhase}
    (hExplained : ∀ response, phase = .answered response → Explained platform s c response)
    (hProxying : phase = .proxying → s.proxied c ≠ none) : Backed platform (s.setClient c phase) := by
  have hSelf : (s.setClient c phase).clients c = phase := Function.update_self ..
  have hOther : ∀ c', c' ≠ c → (s.setClient c phase).clients c' = s.clients c' := fun c' hc => Function.update_of_ne hc ..
  refine ⟨fun c' response h => ?_, fun key cached h => ?_, fun c' h => ?_, inv.returned, inv.raised⟩
  · by_cases hc : c' = c
    · subst hc
      exact (hExplained response (hSelf.symm.trans h)).mono (fun _ he => he) rfl
    · exact (inv.answered c' response ((hOther c' hc).symm.trans h)).mono (fun _ he => he) rfl
  · exact (inv.stored key cached h).mono fun _ he => he
  · by_cases hc : c' = c
    · subst hc
      exact hProxying (hSelf.symm.trans h)
    · exact inv.proxying c' ((hOther c' hc).symm.trans h)

/-- The end of a route. -/
theorem Backed.close (inv : Backed platform s) {run : RouteRun} (hRan : Ran platform s c run)
    (hPassed : platform.edgeApp.rejected (platform.request c) = none) : Backed platform (s.close platform c run) := by
  have hAnswered : Backed platform (s.setClient c
      (.answered (platform.edge.freshResponse (platform.request c) run))) :=
    inv.setClient (fun response h => by cases h; exact .fresh hRan) nofun
  refine ⟨fun c' response h => (hAnswered.answered c' response h).mono (fun _ he => he) rfl, fun other cached h => ?_,
    hAnswered.proxying, hAnswered.returned, hAnswered.raised⟩
  have hKept : Stored platform s other cached := by
    simp only [PlatformState.close] at h
    split at h
    · next key hKey =>
        rcases hRan.entry h with hOld | ⟨rfl, hEntry⟩
        · exact inv.stored other cached hOld
        · exact ⟨c, run, hPassed, hKey, hRan, hEntry⟩
    · exact inv.stored other cached h
  exact hKept.mono fun _ he => he

/-- The balancer moves. A call that returns a response got it from an instance. -/
theorem Backed.withGateway (inv : Backed platform s) {gateway : GatewayState}
    (hReturned : ∀ c response, gateway.calls c = .returned response → s.gateway.calls c = .returned response ∨
      ∃ e ∈ s.executions, e.call = c ∧ ∃ reply, Conveyed e.answer reply ∧ reply.status < 500 ∧
        response = withUpstream e.url reply)
    (hRaised : ∀ c message, gateway.calls c = .raised message → s.gateway.calls c = .raised message ∨
      OutOfInstances message) : Backed platform { s with gateway := gateway } :=
  ⟨fun c response h => (inv.answered c response h).mono (fun _ he => he) rfl,
    fun key cached h => (inv.stored key cached h).mono fun _ he => he, inv.proxying,
    fun c response h => (hReturned c response h).elim (inv.returned c response) id,
    fun c message h => (hRaised c message h).elim (inv.raised c message) id⟩

/-- A call that begins has no response yet. -/
theorem not_returned_of_begun {config : BalancerConfig} {g g' : GatewayState} {clock : Nat → Clock}
    (h : gatewayStep config g (.request c clock) = some g') (response : HttpResponse) : g'.calls c ≠ .returned response := by
  obtain ⟨-, hTurned⟩ := step_request h
  generalize g.balancer.urls.length = left at hTurned
  cases hTurned <;> simp [GatewayState.send]

/-- A call that raises has run out of instances. -/
theorem raised_of_turned {config : BalancerConfig} {g g' : GatewayState} {clock : Nat → Clock} {tried : List String}
    {lastError : Option String} {left : Nat} (h : GatewayState.Turned config clock c tried lastError g left g')
    {message : String} (hRaised : g'.calls c = .raised message) : OutOfInstances message := by
  cases h with
  | outOfTurns =>
      simp only [GatewayState.setCall_self, RequestPhase.raised.injEq] at hRaised
      exact Or.inr ⟨lastError, hRaised.symm⟩
  | repeated =>
      simp only [GatewayState.setCall_self, RequestPhase.raised.injEq] at hRaised
      exact Or.inr ⟨lastError, hRaised.symm⟩
  | unavailable =>
      simp only [GatewayState.setCall_self, RequestPhase.raised.injEq] at hRaised
      exact Or.inl hRaised.symm
  | sent => simp [GatewayState.send] at hRaised
  | lookupFailed => simp at hRaised

theorem raised_of_step {config : BalancerConfig} {g g' : GatewayState} {action : GatewayAction}
    (h : gatewayStep config g action = some g') {message : String} (hRaised : g'.calls c = .raised message) :
    g.calls c = .raised message ∨ OutOfInstances message := by
  by_cases hCaller : action.caller = some c
  · cases action with
    | request c' clock =>
        cases hCaller
        exact Or.inr (raised_of_turned (step_request h).2 hRaised)
    | answer c' outcome now clock =>
        cases hCaller
        obtain ⟨url, tried, left, -, hAnswered⟩ := step_answer h
        cases hAnswered with
        | retried _ _ hTurned => exact Or.inr (raised_of_turned hTurned hRaised)
        | _ => simp at hRaised
    | _ => cases hCaller
  · exact Or.inl (((step_callsKept h).calls c hCaller).symm.trans hRaised)

/-- The response that a call returns is the outcome of its last attempt. -/
theorem returned_of_answer {config : BalancerConfig} {g g' : GatewayState} {outcome : UpstreamOutcome} {now : Clock}
    {clock : Nat → Clock} {url : String} {tried : List String} {left : Nat} (hWaiting : g.calls c = .waiting url tried left)
    (h : gatewayStep config g (.answer c outcome now clock) = some g') {response : HttpResponse}
    (hReturned : g'.calls c = .returned response) :
    ∃ reply, outcome = .response reply ∧ reply.status < 500 ∧ response = withUpstream url reply := by
  obtain ⟨url', tried', left', hWaiting', hAnswered⟩ := step_answer h
  cases hWaiting.symm.trans hWaiting'
  cases hAnswered with
  | retried _ _ hTurned => cases hTurned <;> simp [GatewayState.send] at hReturned
  | failureUnknown => simp at hReturned
  | successUnknown => simp at hReturned
  | @returned reply b hOk hRecord =>
      simp only [GatewayState.setCall_self, RequestPhase.returned.injEq] at hReturned
      cases outcome with
      | httpError text => cases hOk
      | response given =>
          simp only [UpstreamOutcome.result] at hOk
          split at hOk
          · cases hOk
          · next hStatus =>
              cases hOk
              exact ⟨reply, rfl, not_le.mp hStatus, hReturned.symm⟩

theorem Backed.step (inv : Backed platform s) (hMediated : Mediated platform users s)
    (h : platformStep platform s a = some t) : Backed platform t := by
  have hPassed : ∀ c, s.clients c = .proxying → platform.edgeApp.rejected (platform.request c) = none :=
    fun c hPhase => hMediated.passed c (Or.inr (inv.proxying c hPhase))
  cases platformMove_of_step h with
  | rejected _ hRejected => exact inv.setClient (fun _ h => by cases h; exact .rejected hRejected) nofun
  | @replayed c key cached hPhase _ hKey hStored =>
      refine inv.setClient (fun _ h => ?_) nofun
      cases h
      exact .replayed hKey (inv.stored key cached hStored) (hMediated.unbegun c (Or.inl hPhase))
  | accepted => exact inv.setClient nofun nofun
  | otherRoute hPhase hRoute => exact inv.close (.other hRoute) (hMediated.passed _ (Or.inl hPhase))
  | refused hPhase hRoute hRefused => exact inv.close (.refused hRoute hRefused) (hMediated.passed _ (Or.inl hPhase))
  | @proxied c drawn clock route identity gateway hPhase hRoute hGranted hBegun =>
      have hOther : ∀ c', c' ≠ c → Function.update s.proxied c
          (some (tracedCall platform.otel route.method route.path (platform.request c) identity drawn)) c' =
            s.proxied c' := fun c' hc => Function.update_of_ne hc ..
      have hSelf : (s.setClient c .proxying).clients c = .proxying := Function.update_self ..
      have hClients : ∀ c', c' ≠ c → (s.setClient c .proxying).clients c' = s.clients c' :=
        fun c' hc => Function.update_of_ne hc ..
      refine ⟨fun c' response h => ?_, fun key cached h => (inv.stored key cached h).mono fun _ he => he,
        fun c' h => ?_, fun c' response h => ?_,
        fun c' message h => (raised_of_step hBegun h).elim (inv.raised c' message) id⟩
      · have hc : c' ≠ c := by
          rintro rfl
          cases hSelf.symm.trans h
        exact (inv.answered c' response ((hClients c' hc).symm.trans h)).mono (fun _ he => he) (hOther c' hc)
      · by_cases hc : c' = c
        · subst hc
          simp
        · exact fun hNone => inv.proxying c' ((hClients c' hc).symm.trans h) ((hOther c' hc).symm.trans hNone)
      · have hc : c' ≠ c := by
          rintro rfl
          exact not_returned_of_begun hBegun response h
        exact inv.returned c' response (((step_callsKept hBegun).calls c' fun hSame =>
          hc (Option.some_inj.mp hSame).symm).symm.trans h)
  | @executed c url chance call hCall hSent =>
      have hMore : ∀ e ∈ s.executions, e ∈ s.executions ++ [⟨c, url, call.received platform.client platform.wire url
          chance.uuid chance.traceId, chance, s.users, (platform.handle s.users (call.received platform.client
            platform.wire url chance.uuid chance.traceId) chance).2⟩] := fun e he => List.mem_append_left _ he
      refine ⟨fun c' response h => (inv.answered c' response h).mono hMore rfl,
        fun key cached h => (inv.stored key cached h).mono hMore, inv.proxying, fun c' response h => ?_, inv.raised⟩
      obtain ⟨e, he, hOwn⟩ := inv.returned c' response h
      exact ⟨e, hMore e he, hOwn⟩
  | @answered c outcome now clock url tried left gateway hWaiting hGenuine hStep =>
      refine inv.withGateway (fun c' response hReturned => ?_) fun c' message => raised_of_step hStep
      by_cases hc : c' = c
      · rw [hc] at hReturned ⊢
        obtain ⟨reply, rfl, hStatus, hResponse⟩ := returned_of_answer hWaiting hStep hReturned
        obtain ⟨e, he, ⟨hCall, hUrl⟩, hConveyed⟩ := hGenuine
        exact Or.inr ⟨e, he, hCall, reply, hConveyed, hStatus, hUrl ▸ hResponse⟩
      · exact Or.inl
          (((step_callsKept hStep).calls c' fun hSame => hc (Option.some_inj.mp hSame).symm).symm.trans hReturned)
  | @relayed c response hPhase hReturned =>
      obtain ⟨e, he, hCall, reply, hConveyed, hStatus, rfl⟩ := inv.returned c response hReturned
      exact inv.close (.relayed he hCall hConveyed hStatus) (hPassed c hPhase)
  | @failed c message hPhase hRaised => exact inv.close (.failed (inv.raised c message hRaised)) (hPassed c hPhase)
  | @lost c hPhase => exact inv.close .lost (hPassed c hPhase)
  | background hNobody hStep =>
      refine inv.withGateway (fun c response h => Or.inl ?_) fun c message => raised_of_step hStep
      exact ((step_callsKept hStep).calls c (by simp [hNobody])).symm.trans h
  | @expired key =>
      refine ⟨fun c response h => (inv.answered c response h).mono (fun _ he => he) rfl, fun other cached h => ?_,
        inv.proxying, inv.returned, inv.raised⟩
      have hOld : s.store.get other = some cached := by
        have hEntry : (s.store.expire key).get other = some cached := h
        rw [IdempotencyStore.get_expire] at hEntry
        exact (Option.ite_none_left_eq_some.mp hEntry).2
      exact (inv.stored other cached hOld).mono fun _ he => he

theorem backed_run {urls : List String} {as : List PlatformAction}
    (run : exec (platformStep platform) (PlatformState.initial urls users) as = some s) :
    Mediated platform users s ∧ Backed platform s :=
  invariant (fun _ _ _ inv h => ⟨inv.1.step h, inv.2.step inv.1 h⟩)
    (I := fun s => Mediated platform users s ∧ Backed platform s) ⟨mediated_initial urls, backed_initial urls⟩ run

section Errors

variable {registry : ErrorRegistry} {devToken : String} {identity : Identity} {error : AppError}

theorem refusal_of_authorise {request : HttpRequest} {route : UserRoute}
    (h : route.authorise registry devToken request = .error error) : Refusal registry error := by
  unfold UserRoute.authorise at h
  split at h
  · next hToken =>
      cases h
      exact ⟨_, by simp, unauthorized_of_verifyToken hToken⟩
  · split at h
    · next hAccess =>
        cases h
        exact ⟨_, by simp, forbidden_of_checkFunctionAccess hAccess⟩
    · cases h

end Errors

/-- The ends of a route for users that are errors of the gateway. -/
inductive OwnEnd (platform : Platform) (c : CallId) : RouteEnd → Prop where
  | refused {route : UserRoute} {error : AppError} (hRoute : UserRoute.of (platform.request c) = some route)
      (hRefused : route.authorise platform.edge.registry platform.devToken (platform.request c) = .error error) :
      OwnEnd platform c (.raisedApp error)
  | unreachable {message : String} (hMessage : OutOfInstances message) :
      OwnEnd platform c (.raisedApp (downstreamError platform.edge.registry message))
  | unexpected : OwnEnd platform c .raised

/-- The errors of the gateway's own, each as it renders it: what the whitelist
rejects, what a route ends with, what cannot be repeated from the store, and what
is repeated of the end of an earlier route with the same operation. -/
inductive OwnError (platform : Platform) (c : CallId) : Option HttpResponse → Prop where
  | rejected {error : AppError} (hRejected : platform.edgeApp.rejected (platform.request c) = some error) :
      OwnError platform c (rejectionResponse platform.edge.codec (platform.request c) error)
  | ended {ending : RouteEnd} (hEnd : OwnEnd platform c ending) :
      OwnError platform c (platform.edge.freshResponse (platform.request c) ⟨none, ending⟩)
  | unrepeatable {key : String} (hKey : platform.edge.storeKey (platform.request c) = some key) :
      OwnError platform c (handleUnexpected platform.edge.codec (platform.request c) "")
  | repeated {first : CallId} {ending : RouteEnd} {given : HttpResponse}
      (hSame : (platform.request first).SameOperation (platform.request c)) (hEnd : OwnEnd platform first ending)
      (hGiven : platform.edge.freshResponse (platform.request first) ⟨none, ending⟩ = some given) :
      OwnError platform c ((given.cached platform.edge.codec).replay platform.edge.codec)

/-- The codes of the gateway's own errors. -/
def edgeErrors : List ErrorCode := [.unauthorized, .forbidden, .internalError, .badGateway]

/-- The statuses of the gateway's own errors. -/
def edgeStatuses : List Nat := edgeErrors.map ErrorCode.httpStatus

theorem handleUnexpected_edge {codec : JsonCodec} {request : HttpRequest} {traceId : String} {response : HttpResponse}
    (h : handleUnexpected codec request traceId = some response) : response.status ∈ edgeStatuses := by
  rw [problemResponse_status h]
  decide

theorem handleAppError_edge {codec : JsonCodec} {registry : ErrorRegistry} {request : HttpRequest} {traceId : String}
    {ec : ErrorCode} {message : Option String} {response : HttpResponse} (hListed : ec ∈ edgeErrors)
    (h : handleAppError codec registry request traceId (AppError.make registry ec.code message none none) =
      some response) : response.status ∈ edgeStatuses := by
  have hBuiltin : ∀ ec ∈ edgeErrors, ec ∈ ErrorCode.builtin := by decide
  rw [handleAppError_builtin (hBuiltin ec hListed)] at h
  rw [problemResponse_status h]
  exact List.mem_map_of_mem hListed

theorem Refusal.listed {registry : ErrorRegistry} {error : AppError} (h : Refusal registry error) :
    ∃ ec ∈ edgeErrors, ∃ message, error = AppError.make registry ec.code message none none := by
  obtain ⟨ec, hListed, message, hError⟩ := h
  have hEdge : ∀ ec ∈ [ErrorCode.unauthorized, ErrorCode.forbidden], ec ∈ edgeErrors := by decide
  exact ⟨ec, hEdge ec hListed, message, hError⟩

/-- A route for users raises nothing but the errors of the gateway. -/
theorem OwnEnd.status {ending : RouteEnd} (hEnd : OwnEnd platform c ending) {response : HttpResponse}
    (h : platform.edge.freshResponse (platform.request c) ⟨none, ending⟩ = some response) :
    response.status ∈ edgeStatuses := by
  have hRaisedApp : ∀ ec ∈ edgeErrors, ∀ message, ending =
      .raisedApp (AppError.make platform.edge.registry ec.code message none none) → response.status ∈ edgeStatuses := by
    rintro ec hListed message rfl
    simp only [ServiceApp.freshResponse, ServiceApp.handler] at h
    split at h
    · next given hHandled =>
        cases h
        show given.status ∈ edgeStatuses
        exact handleAppError_edge hListed hHandled
    · exact handleUnexpected_edge ((if_pos rfl).symm.trans h)
  cases hEnd with
  | refused _ hRefused =>
      obtain ⟨ec, hListed, message, rfl⟩ := (refusal_of_authorise hRefused).listed
      exact hRaisedApp ec hListed message rfl
  | unreachable => exact hRaisedApp .badGateway (by decide) _ rfl
  | unexpected => exact handleUnexpected_edge h

theorem OwnError.status {response : HttpResponse} (h : OwnError platform c (some response)) :
    response.status ∈ edgeStatuses := by
  generalize hResponse : some response = answer at h
  cases h with
  | rejected hRejected =>
      have hRefusal := refusal_of_rejection hRejected
      obtain ⟨items, body, hRendered, -⟩ := rejectionResponse_of_refusal platform.edge.codec (platform.request c) hRefusal
      cases hResponse.trans hRendered
      obtain ⟨ec, hListed, message, rfl⟩ := hRefusal.listed
      have hBuiltin : ∀ ec ∈ edgeErrors, ec ∈ ErrorCode.builtin := by decide
      simp only [AppError.make, getErrorCode_builtin _ (hBuiltin ec hListed)]
      exact List.mem_map_of_mem hListed
  | ended hEnd => exact hEnd.status hResponse.symm
  | unrepeatable => exact handleUnexpected_edge hResponse.symm
  | repeated _ hEnd hGiven =>
      rw [CachedResponse.replay_status hResponse.symm]
      exact hEnd.status hGiven

theorem not_ownError {response : HttpResponse} (h : response.status ∉ edgeStatuses) :
    ¬ OwnError platform c (some response) := fun hOwn => h hOwn.status

/-- What the end of a route for users leads to: an error of the gateway, or the
response of an instance to this client. -/
theorem Ran.response {run : RouteRun} (hRan : Ran platform s c run) (hRoute : UserRoute.of (platform.request c) ≠ none)
    {response : HttpResponse} (hFresh : platform.edge.freshResponse (platform.request c) run = some response) :
    (∃ ending, OwnEnd platform c ending ∧ run = ⟨none, ending⟩) ∨ ∃ e ∈ s.executions, e.call = c ∧
      ∃ sent ∈ e.answer, sent.status < 500 ∧ response.status = sent.status ∧ response.body = sent.body := by
  cases hRan with
  | other hNone => exact absurd hNone hRoute
  | refused hOwn hRefused => exact Or.inl ⟨_, .refused hOwn hRefused, rfl⟩
  | relayed hMem hCall hConveyed hStatus =>
      rw [freshResponse_relay] at hFresh
      cases hFresh
      obtain ⟨sent, hSent, hSame, hBody, -⟩ := hConveyed
      exact Or.inr ⟨_, hMem, hCall, sent, hSent, hSame ▸ hStatus, hSame, hBody⟩
  | failed hMessage => exact Or.inl ⟨_, .unreachable hMessage, rfl⟩
  | lost => exact Or.inl ⟨_, .unexpected, rfl⟩

/-- Only a POST for users has a key. -/
theorem createUser_of_storeKey {request : HttpRequest} {service key : String} {route : UserRoute}
    (hRoute : UserRoute.of request = some route) (hKey : request.storeKey service = some key) : route = .createUser := by
  obtain ⟨own, hGuarded, -⟩ := guarded_of_storeKey hKey
  have hMethod := hGuarded.1
  rw [UserRoute.method_of hRoute] at hMethod
  cases route with
  | createUser => rfl
  | getUser userId => exact absurd hMethod (show "GET" ∉ idempotentMethods by decide)

/-- What a response that is no error of the gateway rests on. -/
def Genuine (platform : Platform) (s : PlatformState) (c : CallId) (response : HttpResponse) : Prop :=
  ∃ e ∈ s.executions, ∃ sent ∈ e.answer, sent.status < 500 ∧ response.status = sent.status ∧
    (e.call = c ∧ response.body = sent.body ∨
      (∀ other ∈ s.executions, other.call ≠ c) ∧ UserRoute.of (platform.request c) = some .createUser ∧
        (platform.request e.call).SameOperation (platform.request c) ∧
          ∃ content, platform.edge.codec.loads (platform.edge.codec.decode sent.body) = some content ∧
            platform.edge.codec.dumps content = some response.body)

theorem Backed.genuine (inv : Backed platform s) (hMediated : Mediated platform users s) {response : HttpResponse}
    (hAnswered : s.clients c = .answered (some response)) (hRoute : UserRoute.of (platform.request c) ≠ none) :
    OwnError platform c (some response) ∨ Genuine platform s c response := by
  have hExplained := inv.answered c _ hAnswered
  generalize hResponse : some response = answer at hExplained
  cases hExplained with
  | rejected hRejected => exact Or.inl (.rejected hRejected)
  | fresh hRan =>
      rcases hRan.response hRoute hResponse.symm with ⟨ending, hEnd, rfl⟩ | hInstance
      · exact Or.inl (.ended hEnd)
      · obtain ⟨e, he, hCall, sent, hSent, hStatus, hSame, hBody⟩ := hInstance
        exact Or.inr ⟨e, he, sent, hSent, hStatus, hSame, Or.inl ⟨hCall, hBody⟩⟩
  | @replayed key cached hKey hStored hUnproxied =>
      have hNone : ∀ other ∈ s.executions, other.call ≠ c := by
        rintro other hOther rfl
        obtain ⟨call, hCall, -⟩ := hMediated.sent other hOther
        rw [hUnproxied] at hCall
        cases hCall
      obtain ⟨first, ran, hPassed, hFirstKey, hRan, hEntry⟩ := hStored
      obtain ⟨route, hRoute⟩ := Option.ne_none_iff_exists'.mp hRoute
      cases createUser_of_storeKey hRoute hKey
      have hSame : (platform.request first).SameOperation (platform.request c) :=
        sameOperation_of_storeKey hPassed hFirstKey hRoute hKey
      have hFirstRoute : UserRoute.of (platform.request first) ≠ none := by
        have hCongr : UserRoute.of (platform.request first) = UserRoute.of (platform.request c) := by
          simp only [UserRoute.of, hSame.1, hSame.2.1]
        rw [hCongr, hRoute]
        simp
      obtain ⟨given, hGiven, rfl⟩ := hEntry hFirstRoute
      rw [← hResponse]
      unfold ServiceApp.replayedResponse at hResponse
      cases hReplay : (given.cached platform.edge.codec).replay platform.edge.codec with
      | none =>
          rw [hReplay, Option.none_or] at hResponse
          exact Or.inl (hResponse ▸ .unrepeatable hKey)
      | some repeated =>
          rw [hReplay] at hResponse
          cases hResponse
          rcases hRan.response hFirstRoute hGiven with ⟨ending, hEnd, rfl⟩ | hInstance
          · exact Or.inl (hReplay ▸ .repeated hSame hEnd hGiven)
          · obtain ⟨e, he, rfl, sent, hSent, hStatus, hSameStatus, hBody⟩ := hInstance
            obtain ⟨content, body, hLoads, hDumps, rfl⟩ := CachedResponse.replay_eq_some.mp hReplay
            have hRead : platform.edge.codec.loads (platform.edge.codec.decode sent.body) = some content := by
              rw [← hBody]
              exact hLoads
            exact Or.inr ⟨e, he, sent, hSent, hStatus, hSameStatus,
              Or.inr ⟨hNone, hRoute, hSame, content, hRead, hDumps⟩⟩

/-- In every run, the response of a client with a request for users is an error of
the gateway, rendered as it renders it, or it has the status and the body that an
instance gave to an attempt for this client, or, with nothing executed for this client,
it replays what an instance gave to another client with the same POST and the same key. -/
theorem responses_genuine {urls : List String} {as : List PlatformAction}
    (run : exec (platformStep platform) (PlatformState.initial urls users) as = some s) {response : HttpResponse}
    (hAnswered : s.clients c = .answered (some response)) (hRoute : UserRoute.of (platform.request c) ≠ none) :
    OwnError platform c (some response) ∨ Genuine platform s c response := by
  obtain ⟨hMediated, inv⟩ := backed_run run
  exact inv.genuine hMediated hAnswered hRoute

/-- The service answers, the server adds a header, and the second client repeats
the POST. -/
def repeatingActions : List PlatformAction :=
  creatingActions ++ [.answer 0 (.response ⟨201, [("date", "today"), ("content-type", "application/json")], [123, 125]⟩)
    0 fun _ => 0, .finish 0, .arrive 1]

theorem responses_genuine_replayed : ∃ s response,
    exec (platformStep samplePlatform) (PlatformState.initial [templateUrl] []) repeatingActions = some s ∧
      s.clients 1 = .answered (some response) ∧ response.status = 201 ∧ Genuine samplePlatform s 1 response := by
  obtain ⟨s, response, run, hAnswered, hStatus⟩ : ∃ s response,
      exec (platformStep samplePlatform) (PlatformState.initial [templateUrl] []) repeatingActions = some s ∧
        s.clients 1 = .answered (some response) ∧ response.status = 201 := ⟨_, _, rfl, rfl, rfl⟩
  have hRoute : UserRoute.of (samplePlatform.request 1) = some .createUser := rfl
  have hSuccess : ¬ OwnError samplePlatform 1 (some response) := not_ownError (by rw [hStatus]; decide)
  exact ⟨s, response, run, hAnswered, hStatus,
    (responses_genuine run hAnswered (by rw [hRoute]; simp)).resolve_left hSuccess⟩

end Account

end ServicePlatform
