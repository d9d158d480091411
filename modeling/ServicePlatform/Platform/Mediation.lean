import ServicePlatform.Platform.System

/-! What reaches the instances. Every request that an instance handles was sent
for a client who presented the token, asks for the operation that this client
asked for, and speaks for the identity of the token, whatever headers the client
added. Each instance handles it at most once, since the gateway sends it to no
instance twice. -/
namespace ServicePlatform

open Gateway Text Transition

/-- The identity of the token. -/
def devIdentity : Identity := ⟨"dev-user", ["user", "admin"], some "dev-tenant"⟩

/-- The request has the token in its first `Authorization` header. -/
def Presents (devToken : String) (request : HttpRequest) : Prop :=
  ∃ text ∈ Headers.first request.headers "authorization", bearerPrefix <+: text.toList ∧
    strip (text.toList.drop bearerPrefix.length) = devToken.toList

namespace UserRoute

/-- The path of the route means nothing else in a URL. -/
def Plain : UserRoute → Prop
  | createUser => True
  | getUser userId => PlainId userId

instance : DecidablePred Plain
  | createUser => isTrue trivial
  | getUser userId => inferInstanceAs (Decidable (PlainId userId))

variable {registry : ErrorRegistry} {devToken : String} {request : HttpRequest} {route : UserRoute} {identity : Identity}

theorem method_of (h : UserRoute.of request = some route) : request.method = route.method := by
  unfold UserRoute.of at h
  split at h
  · next hPost =>
      cases h
      exact hPost.1
  · split at h
    · next hGet =>
        cases h
        exact hGet.1
    · cases h

/-- Whoever is let in has presented the token, and has its identity. -/
theorem granted_token (h : route.authorise registry devToken request = .ok identity) :
    Presents devToken request ∧ identity = devIdentity ∧
      checkFunctionAccess registry route.method route.path devIdentity = .ok () := by
  unfold authorise at h
  split at h
  · cases h
  · next known hToken =>
      split at h
      · cases h
      · next hAccess =>
          cases h
          unfold verifyToken at hToken
          split at hToken
          · cases hToken
          · next text hText =>
              split at hToken
              · next hBearer =>
                  split at hToken
                  · next hSame =>
                      cases hToken
                      exact ⟨⟨text, hText, List.isPrefixOf_iff_prefix.mp hBearer, hSame⟩, rfl, hAccess⟩
                  · cases hToken
              · cases hToken

/-- A request for the path of a route is dispatched to it. -/
theorem of_path (hAccess : checkFunctionAccess registry route.method route.path identity = .ok ())
    (hMethod : request.method = route.method) (hPath : request.path = route.path) :
    UserRoute.of request = some route := by
  unfold UserRoute.of
  rw [hMethod, hPath]
  cases route with
  | createUser => exact if_pos ⟨rfl, by decide⟩
  | getUser userId =>
      have hMatch : matchPath "/v1/users/\x7buser_id\x7d" (userPath userId) = true := by
        rw [matchPath, toList_userPath, patternParts_user, matchParts_append]
        exact matchParts_segment_iff.mpr (segment_of_access hAccess)
      have hRest : (userPath userId).toList.drop "/v1/users/".length = userId.toList := by
        rw [toList_userPath]
        exact List.drop_left
      have hPost : ¬ (method (.getUser userId) = "POST" ∧ matchPath "/v1/users" (path (.getUser userId)) = true) :=
        fun h => absurd h.1 (show "GET" ≠ "POST" by decide)
      rw [if_neg hPost, if_pos ⟨rfl, hMatch⟩]
      exact congrArg (fun text => some (getUser text)) ((congrArg String.ofList hRest).trans String.ofList_toList)

end UserRoute

section Served

variable {dots : DotRemoval} {decoder : ByteDecoder}

/-- The base of the URLs of an instance. -/
theorem rdropWhile_url (origin : Origin) : origin.url.toList.rdropWhile (fun c => c = '/') =
    origin.scheme ++ ':' :: '/' :: '/' :: origin.authority := by
  have hUser := upstreamUrl_origin origin ""
  have hPath : (userPath "").toList = "/v1/users/".toList := by rw [toList_userPath]; rfl
  rw [upstreamUrl, String.toList_append, String.toList_append, String.toList_ofList, String.toList_ofList, hPath,
    ← List.cons_append, ← List.cons_append, ← List.cons_append, ← List.append_assoc, List.append_assoc] at hUser
  exact List.append_cancel_right hUser

/-- An instance reads the path of a plain route as it was sent. -/
theorem forwardedPath_plain (origin : Origin) {route : UserRoute} (hPlain : route.Plain)
    (hSegment : ∀ userId, route = .getUser userId → '/' ∉ userId.toList) :
    forwardedPath dots decoder origin route.path = route.path.toList := by
  obtain ⟨rest, hSlash, hPath⟩ : ∃ rest, route.path.toList.dropWhile (fun c => c = '/') = rest ∧
      route.path.toList = '/' :: rest := by
    cases route with
    | createUser => exact ⟨_, rfl, rfl⟩
    | getUser userId =>
        refine ⟨"v1/users/".toList ++ userId.toList, ?_, ?_⟩
        · rw [UserRoute.path, toList_userPath]
          rfl
        · rw [UserRoute.path, toList_userPath]
          rfl
  have hUrl : urlPath (upstreamUrl origin.url route.path).toList = beforeQuery route.path.toList := by
    have hJoined : (upstreamUrl origin.url route.path).toList =
        origin.scheme ++ ':' :: '/' :: '/' :: (origin.authority ++ '/' :: rest) := by
      rw [upstreamUrl, String.toList_append, String.toList_append, String.toList_ofList, String.toList_ofList,
        rdropWhile_url, hSlash]
      simp
    rw [hJoined, hPath]
    exact urlPath_append origin.scheme_plain origin.authority_plain
  rw [forwardedPath, servedPath_eq_iff hUrl]
  cases route with
  | createUser =>
      show (_ ∉ "/v1/users".toList ∧ _ ∉ "/v1/users".toList) ∧ _
      decide
  | getUser userId =>
      obtain ⟨⟨hHash, hQuestion⟩, hDots, hEscape⟩ := hPlain
      rw [UserRoute.path, hasDotSegment_userPath_iff (hSegment userId rfl), toList_userPath,
        hasEscape_append_iff (by decide), not_or]
      refine ⟨⟨?_, ?_⟩, hDots, hEscape⟩
      · rw [List.mem_append, or_iff_right (by decide)]
        exact hHash
      · rw [List.mem_append, or_iff_right (by decide)]
        exact hQuestion

end Served

/-- The call of `proxy_request` for a client who was let in. -/
def Granted (platform : Platform) (c : CallId) (call : ProxyCall) : Prop :=
  ∃ route identity drawn, UserRoute.of (platform.request c) = some route ∧
    route.authorise platform.edge.registry platform.devToken (platform.request c) = .ok identity ∧
    call = tracedCall platform.otel route.method route.path (platform.request c) identity drawn

/-- The users after some executions. -/
def Platform.usersAfter (platform : Platform) (users : List User) (executions : List Execution) : List User :=
  executions.foldl (fun users e => (platform.handle users e.request e.chance).1) users

/-- What the instances did is what the gateway let them do, one after the other. -/
structure Mediated (platform : Platform) (users : List User) (s : PlatformState) : Prop where
  unbegun : ∀ c, s.clients c = .arriving ∨ s.clients c = .accepted → s.proxied c = none
  idle : ∀ c, s.proxied c = none → s.gateway.calls c = .idle
  passed : ∀ c, s.clients c = .accepted ∨ s.proxied c ≠ none →
    platform.edgeApp.rejected (platform.request c) = none
  granted : ∀ c call, s.proxied c = some call → Granted platform c call
  sent : ∀ e ∈ s.executions, ∃ call, s.proxied e.call = some call ∧
    e.request = call.received platform.client platform.wire e.url e.chance.uuid e.chance.traceId
  tries : ∀ c, TriesOnce s.gateway c
  counted : ∀ c url, s.timesExecuted c url ≤ (s.gateway.contacts c).count url
  database : s.users = platform.usersAfter users s.executions
  handled : ∀ before e after, s.executions = before ++ e :: after → e.found = platform.usersAfter users before ∧
    e.answer = (platform.handle e.found e.request e.chance).2

section Step

variable {platform : Platform} {users : List User} {s t : PlatformState} {a : PlatformAction}

theorem mediated_initial (urls : List String) : Mediated platform users (PlatformState.initial urls users) where
  unbegun _ _ := rfl
  idle _ _ := rfl
  passed _ h := h.elim nofun fun h => absurd rfl h
  granted _ _ h := nomatch h
  sent _ h := nomatch h
  tries := triesOnce_initial urls
  counted _ _ := Nat.zero_le _
  database := rfl
  handled before e after h := by cases before <;> cases h

/-- A client moves on, and nothing is sent for it. -/
theorem Mediated.setClient (inv : Mediated platform users s) {c : CallId} {phase : ClientPhase}
    (hBegun : phase = .arriving ∨ phase = .accepted → s.proxied c = none)
    (hPassed : phase = .accepted → platform.edgeApp.rejected (platform.request c) = none) :
    Mediated platform users (s.setClient c phase) := by
  have hOther : ∀ c', c' ≠ c → (s.setClient c phase).clients c' = s.clients c' :=
    fun c' hc => Function.update_of_ne hc ..
  have hSelf : (s.setClient c phase).clients c = phase := Function.update_self ..
  refine { inv with unbegun := fun c' h => ?_, passed := fun c' h => ?_ }
  · by_cases hc : c' = c
    · subst hc
      rw [hSelf] at h
      exact hBegun h
    · rw [hOther c' hc] at h
      exact inv.unbegun c' h
  · by_cases hc : c' = c
    · subst hc
      rw [hSelf] at h
      exact h.elim hPassed fun hProxied => inv.passed c' (Or.inr hProxied)
    · rw [hOther c' hc] at h
      exact inv.passed c' h

/-- The store is no concern of the instances. -/
theorem Mediated.withStore (inv : Mediated platform users s) (store : HttpStore) :
    Mediated platform users { s with store := store } := { inv with }

theorem Mediated.close (inv : Mediated platform users s) (c : CallId) (run : RouteRun) :
    Mediated platform users (s.close platform c run) := by
  have hAnswered : Mediated platform users (s.setClient c
      (.answered (platform.edge.freshResponse (platform.request c) run))) := inv.setClient nofun nofun
  exact hAnswered.withStore _

/-- What was sent to an instance stays on record while the balancer moves. -/
theorem Mediated.counted_gateway (inv : Mediated platform users s) {a : GatewayAction} {gateway : GatewayState}
    (hStep : gatewayStep platform.balancer s.gateway a = some gateway) (c : CallId) (url : String) :
    s.timesExecuted c url ≤ (gateway.contacts c).count url :=
  (inv.counted c url).trans ((triesOnce_step hStep c (inv.tries c)).2.sublist.count_le url)

/-- The balancer moves, and no call begins. -/
theorem Mediated.withGateway (inv : Mediated platform users s) {a : GatewayAction} {gateway : GatewayState}
    (hStep : gatewayStep platform.balancer s.gateway a = some gateway)
    (hIdle : ∀ c, s.gateway.calls c = .idle → gateway.calls c = .idle) :
    Mediated platform users { s with gateway := gateway } :=
  { inv with
    idle := fun c h => hIdle c (inv.idle c h)
    tries := fun c => (triesOnce_step hStep c (inv.tries c)).1
    counted := inv.counted_gateway hStep }

/-- No instance handles a request twice: it got it once at most. -/
theorem Mediated.once (inv : Mediated platform users s) : (s.executions.map fun e => (e.call, e.url)).Nodup := by
  refine List.nodup_iff_count_le_one.mpr fun pair => ?_
  calc s.timesExecuted pair.1 pair.2
      ≤ (s.gateway.contacts pair.1).count pair.2 := inv.counted pair.1 pair.2
    _ ≤ 1 := List.nodup_iff_count_le_one.mp (inv.tries pair.1).nodup pair.2

theorem Mediated.step (inv : Mediated platform users s) (h : platformStep platform s a = some t) :
    Mediated platform users t := by
  cases platformMove_of_step h with
  | rejected => exact inv.setClient nofun nofun
  | replayed => exact inv.setClient nofun nofun
  | accepted hPhase hPassed => exact inv.setClient (fun _ => inv.unbegun _ (Or.inl hPhase)) fun _ => hPassed
  | otherRoute => exact inv.close _ _
  | refused => exact inv.close _ _
  | @proxied c drawn clock route identity gateway hPhase hRoute hGranted hBegun =>
      have hKept : ∀ c', c' ≠ c → gateway.calls c' = s.gateway.calls c' := fun c' hc =>
        (step_callsKept hBegun).calls c' fun hSame => hc (Option.some_inj.mp hSame).symm
      have hNone : s.proxied c = none := inv.unbegun c (Or.inr hPhase)
      have hOther : ∀ c', c' ≠ c → Function.update s.proxied c
          (some (tracedCall platform.otel route.method route.path (platform.request c) identity drawn)) c' =
            s.proxied c' := fun c' hc => Function.update_of_ne hc ..
      have hBase : Mediated platform users (s.setClient c .proxying) := inv.setClient nofun nofun
      refine { hBase with unbegun := fun c' h => ?_, idle := fun c' h => ?_, passed := fun c' h => ?_
                          granted := fun c' call h => ?_, sent := fun e he => ?_
                          tries := fun c' => (triesOnce_step hBegun c' (inv.tries c')).1
                          counted := inv.counted_gateway hBegun }
      · by_cases hc : c' = c
        · subst hc
          have hSelf : (s.setClient c' .proxying).clients c' = .proxying := Function.update_self ..
          rcases h with h | h
          · cases hSelf.symm.trans h
          · cases hSelf.symm.trans h
        · exact (hOther c' hc).trans (hBase.unbegun c' h)
      · by_cases hc : c' = c
        · subst hc
          simp at h
        · exact (hKept c' hc).trans (inv.idle c' ((hOther c' hc).symm.trans h))
      · by_cases hc : c' = c
        · subst hc
          exact inv.passed c' (Or.inl hPhase)
        · exact hBase.passed c' (h.imp_right fun hSome hNone => hSome ((hOther c' hc).trans hNone))
      · by_cases hc : c' = c
        · subst hc
          simp only [Function.update_self, Option.some_inj] at h
          exact ⟨route, identity, drawn, hRoute, hGranted, h.symm⟩
        · exact inv.granted c' call ((hOther c' hc).symm.trans h)
      · obtain ⟨call, hCall, hRequest⟩ := inv.sent e he
        have hc : e.call ≠ c := by
          rintro rfl
          rw [hNone] at hCall
          cases hCall
        exact ⟨call, (hOther e.call hc).trans hCall, hRequest⟩
  | @executed c url chance call hCall hSent =>
      refine { inv with sent := fun e he => ?_, counted := fun c' url' => ?_, database := ?_
                        handled := fun before e after hSplit => ?_ }
      · rcases List.mem_append.mp he with he | he
        · exact inv.sent e he
        · rw [List.mem_singleton.mp he]
          exact ⟨call, hCall, rfl⟩
      · rw [PlatformState.timesExecuted, List.map_append, List.map_singleton, List.count_append]
        by_cases hSame : (c, url) = (c', url')
        · cases hSame
          rw [List.count_singleton_self]
          exact hSent
        · rw [List.count_singleton, if_neg (by simpa using hSame), Nat.add_zero]
          exact inv.counted c' url'
      · simp only [Platform.usersAfter, List.foldl_append, List.foldl_cons, List.foldl_nil]
        rw [inv.database]
        rfl
      · rcases concat_eq_iff.mp hSplit with ⟨rfl, rfl, -⟩ | ⟨rest, hEarlier, -⟩
        · exact ⟨inv.database, rfl⟩
        · exact inv.handled before e rest hEarlier
  | @answered c outcome now clock url tried left gateway hWaiting hGenuine hStep =>
      refine inv.withGateway hStep fun c' hIdle => ?_
      have hc : c' ≠ c := by
        rintro rfl
        rw [hWaiting] at hIdle
        cases hIdle
      exact ((step_callsKept hStep).calls c' fun hSame => hc (Option.some_inj.mp hSame).symm).trans hIdle
  | relayed => exact inv.close _ _
  | failed => exact inv.close _ _
  | lost => exact inv.close _ _
  | background hNobody hStep =>
      refine inv.withGateway hStep fun c hIdle => ?_
      exact ((step_callsKept hStep).calls c (by simp [hNobody])).trans hIdle
  | expired => exact inv.withStore _

theorem mediated_run {urls : List String} {as : List PlatformAction}
    (run : exec (platformStep platform) (PlatformState.initial urls users) as = some s) : Mediated platform users s :=
  invariant (fun _ _ _ inv h => inv.step h) (mediated_initial urls) run

/-- The service sees the identity of the token, whatever the client claimed to be. -/
theorem identityOf_granted {call : ProxyCall} (hIdentity : call.identity = devIdentity) (url uuid traceId : String) :
    identityOf true (call.received platform.client platform.wire url uuid traceId) = some devIdentity := by
  have hUser : call.identity.userId ≠ "" := by
    rw [hIdentity]
    decide
  have hTextual : call.identity.Textual := by
    rw [hIdentity]
    refine ⟨by decide, by decide, fun tenantId hTenant => ?_⟩
    cases hTenant
    decide
  have hRoles : parseRoles (some (",".intercalate devIdentity.roles)) = devIdentity.roles := parseRoles_join (by decide)
  rw [ProxyCall.identityOf_received hUser hTextual, hIdentity, hRoles]
  rfl

/-- No header of an attempt is the key of the client. -/
theorem received_key (call : ProxyCall) (url uuid traceId : String) :
    (call.received platform.client platform.wire url uuid traceId).header "idempotency-key" = none := by
  have hNone := deliver_key platform.client call url uuid traceId
  simp only [HttpRequest.header, Headers.last, Option.map_eq_none_iff, List.find?_eq_none, List.mem_reverse] at hNone ⊢
  intro header hHeader
  obtain ⟨sent, hSent, rfl⟩ := List.mem_map.mp hHeader
  exact hNone sent hSent

theorem received_body (call : ProxyCall) (url uuid traceId : String) :
    (call.received platform.client platform.wire url uuid traceId).body = call.request.body := by
  show ((call.outbound url).content.getD [] : Bytes) = call.request.body
  unfold ProxyCall.outbound
  dsimp only
  split
  · next hEmpty => exact hEmpty.symm
  · rfl

/-- Only a POST makes a user, and at most one. -/
theorem handle_users (request : HttpRequest) (chance : Chance) : (platform.handle users request chance).1 = users ∨
    UserRoute.of request = some .createUser ∧ ∃ user, (platform.handle users request chance).1 = users ++ [user] := by
  unfold Platform.handle
  cases hRoute : UserRoute.of request with
  | none => exact Or.inl rfl
  | some route =>
      cases route with
      | getUser userId => exact Or.inl rfl
      | createUser =>
          simp only [UserApi.step]
          split
          · next user _ => exact Or.inr ⟨trivial, user, rfl⟩
          · exact Or.inl rfl

/-- The request that an instance handled was an attempt for a client with this
route: the client has passed the whitelist with the token, and the instance sees
the identity of the token, the method and the body of the client and no key. It
is asked for the same route, if the path means nothing else in a URL. -/
structure AttemptFor (platform : Platform) (e : Execution) (route : UserRoute) : Prop where
  routed : UserRoute.of (platform.request e.call) = some route
  passed : platform.edgeApp.rejected (platform.request e.call) = none
  token : Presents platform.devToken (platform.request e.call)
  identity : identityOf true e.request = some devIdentity
  method : e.request.method = route.method
  body : e.request.body = (platform.request e.call).body
  unkeyed : e.request.header "idempotency-key" = none
  path : ∀ origin : Origin, e.url = origin.url → route.Plain → UserRoute.of e.request = some route

theorem Mediated.attempt {dots : DotRemoval} {decoder : ByteDecoder} (inv : Mediated platform users s)
    (hServed : ∀ url, platform.client.path url = String.ofList (servedPath dots decoder url.toList)) {e : Execution}
    (he : e ∈ s.executions) : ∃ route, AttemptFor platform e route := by
  obtain ⟨call, hCall, hRequest⟩ := inv.sent e he
  obtain ⟨route, identity, drawn, hRoute, hGranted, rfl⟩ := inv.granted e.call call hCall
  obtain ⟨hToken, hIdentity, hAccess⟩ := UserRoute.granted_token hGranted
  have hMethod : e.request.method = route.method := by rw [hRequest]; rfl
  refine ⟨route, hRoute, inv.passed e.call (Or.inr (by simp [hCall])), hToken, ?_, hMethod, ?_, ?_, ?_⟩
  · rw [hRequest]
    exact identityOf_granted hIdentity _ _ _
  · rw [hRequest]
    exact received_body _ _ _ _
  · rw [hRequest]
    exact received_key _ _ _ _
  · intro origin hOrigin hPlain
    refine UserRoute.of_path hAccess hMethod ?_
    have hSegment : ∀ userId, route = .getUser userId → '/' ∉ userId.toList := by
      rintro userId rfl
      exact (segment_of_access hAccess).2
    have hPath : e.request.path = platform.client.path (upstreamUrl e.url route.path) := by rw [hRequest]; rfl
    have hForwarded : servedPath dots decoder (upstreamUrl origin.url route.path).toList = route.path.toList :=
      forwardedPath_plain origin hPlain hSegment
    rw [hPath, hServed, hOrigin, hForwarded, String.ofList_toList]

/-- A user that is not from the start was made for a POST of a client. -/
theorem Mediated.made {dots : DotRemoval} {decoder : ByteDecoder} (inv : Mediated platform users s)
    (hServed : ∀ url, platform.client.path url = String.ofList (servedPath dots decoder url.toList))
    {executions rest : List Execution} (hSplit : s.executions = executions ++ rest) {user : User}
    (hUser : user ∈ platform.usersAfter users executions) : user ∈ users ∨ ∃ e ∈ s.executions,
      AttemptFor platform e .createUser ∧ (platform.handle e.found e.request e.chance).1 = e.found ++ [user] := by
  induction executions using List.reverseRecOn generalizing rest user with
  | nil => exact Or.inl hUser
  | append_singleton before e ih =>
      rw [List.append_assoc, List.singleton_append] at hSplit
      have he : e ∈ s.executions := hSplit ▸ List.mem_append_right _ List.mem_cons_self
      have hFound := (inv.handled before e rest hSplit).1
      have hAfter : platform.usersAfter users (before ++ [e]) = (platform.handle e.found e.request e.chance).1 := by
        rw [hFound, Platform.usersAfter, List.foldl_append]
        rfl
      rw [hAfter] at hUser
      rcases handle_users e.request e.chance with hSame | ⟨hPost, new, hNew⟩
      · rw [hSame, hFound] at hUser
        exact ih hSplit hUser
      · rw [hNew, List.mem_append, List.mem_singleton] at hUser
        rcases hUser with hOld | rfl
        · exact ih hSplit (hFound ▸ hOld)
        · obtain ⟨route, hAttempt⟩ := inv.attempt hServed he
          have hMethod : route.method = "POST" := hAttempt.method.symm.trans (UserRoute.method_of hPost)
          cases route with
          | createUser => exact Or.inr ⟨e, he, hAttempt, hNew⟩
          | getUser userId => exact absurd hMethod (show "GET" ≠ "POST" by decide)

/-- In every run of clients, gateway and instances, each instance handles the
request of a client at most once, as the gateway contacts no instance twice for it;
what it handles is an attempt for the route that a client with the token asked for,
and no user is made in another way. -/
theorem executions_mediated {dots : DotRemoval} {decoder : ByteDecoder}
    (hServed : ∀ url, platform.client.path url = String.ofList (servedPath dots decoder url.toList))
    {urls : List String} {as : List PlatformAction}
    (run : exec (platformStep platform) (PlatformState.initial urls users) as = some s) :
    (s.executions.map fun e => (e.call, e.url)).Nodup ∧ (∀ e ∈ s.executions, ∃ route, AttemptFor platform e route) ∧
    ∀ user ∈ s.users, user ∈ users ∨ ∃ e ∈ s.executions, AttemptFor platform e .createUser ∧
      (platform.handle e.found e.request e.chance).1 = e.found ++ [user] := by
  have inv := mediated_run run
  refine ⟨inv.once, fun e he => inv.attempt hServed he, fun user hUser => ?_⟩
  rw [inv.database] at hUser
  exact inv.made hServed (List.append_nil _).symm hUser

/-- The client and the server parse URLs as `segmentwise` and `ascii` say. -/
def parsingClient : HttpClient :=
  { plainClient with path := fun url => String.ofList (servedPath segmentwise ascii url.toList) }

def templateUrl : String := "http://service-template:8100"

/-- A POST of a client that claims to be somebody else. -/
def forgedPost : HttpRequest where
  method := "POST"
  path := "/v1/users"
  headers := [("authorization", "Bearer dev-token"), ("x-user-id", "root"), ("idempotency-key", "k-1")]
  body := [123, 125]
  uuid := "r-1"
  traceId := "t-1"

/-- The first two clients send the POST, the others ask for a user. -/
def samplePlatform : Platform where
  edge := ⟨emptyObjectCodec, [], "gateway"⟩
  devToken := "dev-token"
  balancer := ⟨3, 30⟩
  otel := sampleTelemetry
  client := parsingClient
  wire := plainWire
  api := sampleApi
  readBody _ _ := some (.dict [(.str "email", .str "a@b.c"), (.str "display_name", .str "Ada")])
  edgeRoutes _ := ⟨none, .raisedHttp 404 "Not Found"⟩
  apiRoutes _ := ⟨none, .raisedHttp 404 "Not Found"⟩
  request c := if c < 2 then forgedPost else getUser "u-1"

def sampleChance (applied : Nat) : Chance := ⟨"r-2", "t-2", ⟨"u-1", 0, 0, "e-1", 0, none⟩, applied⟩

/-- An instance creates the user of the first client. -/
def creatingActions : List PlatformAction :=
  [.arrive 0, .route 0 ⟨2, 2⟩ fun _ => 0, .execute 0 templateUrl (sampleChance 0)]

/-- A second instance. -/
def spareOrigin : Origin := { templateOrigin with
  authority := "service-spare:8100".toList
  authority_plain := by decide
  authority_nonempty := by decide }

/-- The first instance creates the user, but its response gets lost, and the gateway
goes on to the second one. -/
def lostActions : List PlatformAction :=
  creatingActions ++ [.answer 0 (.httpError "timed out") 1 fun _ => 1, .execute 0 spareOrigin.url (sampleChance 0)]

theorem executions_mediated_forged : ∃ s,
    exec (platformStep samplePlatform) (PlatformState.initial [templateUrl, spareOrigin.url] []) lostActions = some s ∧
      s.executions.map (fun e => (e.call, e.url)) = [(0, templateUrl), (0, spareOrigin.url)] ∧
      (s.executions.map fun e => (e.call, e.url)).Nodup ∧ forgedPost.header "x-user-id" = some "root" ∧
      ∀ e ∈ s.executions, identityOf true e.request = some devIdentity ∧ UserRoute.of e.request = some .createUser := by
  obtain ⟨s, run, hSeen⟩ : ∃ s,
      exec (platformStep samplePlatform) (PlatformState.initial [templateUrl, spareOrigin.url] []) lostActions = some s ∧
        s.executions.map (fun e => (e.call, e.url)) = [(0, templateUrl), (0, spareOrigin.url)] := ⟨_, rfl, rfl⟩
  obtain ⟨hOnce, hSent, -⟩ := executions_mediated (fun _ => rfl) run
  refine ⟨s, run, hSeen, hOnce, by decide, fun e he => ?_⟩
  obtain ⟨route, hAttempt⟩ := hSent e he
  have hMem : (e.call, e.url) ∈ [(0, templateUrl), (0, spareOrigin.url)] :=
    hSeen ▸ List.mem_map_of_mem (f := fun e : Execution => (e.call, e.url)) he
  have hCall : e.call = 0 ∧ (e.url = templateOrigin.url ∨ e.url = spareOrigin.url) := by
    simp only [List.mem_cons, List.not_mem_nil, or_false, Prod.mk.injEq] at hMem
    rcases hMem with ⟨hCall, hUrl⟩ | ⟨hCall, hUrl⟩
    · exact ⟨hCall, Or.inl hUrl⟩
    · exact ⟨hCall, Or.inr hUrl⟩
  have hOwn : UserRoute.of (samplePlatform.request e.call) = some .createUser := by
    rw [hCall.1]
    rfl
  cases hOwn.symm.trans hAttempt.routed
  refine ⟨hAttempt.identity, ?_⟩
  rcases hCall.2 with hUrl | hUrl
  · exact hAttempt.path templateOrigin hUrl trivial
  · exact hAttempt.path spareOrigin hUrl trivial

end Step

end ServicePlatform
