import ServicePlatform.Gateway.BalancerSystem
import ServicePlatform.Gateway.ForwardedPath
import ServicePlatform.Gateway.TraceContinuity
import ServicePlatform.Service.UserApi

/-! The gateway in front of the instances of the user service. Requests of
clients, health probes and pool refreshes interleave at their awaits, and an
instance may handle an attempt at any time after it was sent, also when the
gateway has given up on it. -/
namespace ServicePlatform

open Gateway Transition

/-- The routes for users, which the gateway and the service have alike. -/
inductive UserRoute where
  | createUser
  | getUser (userId : String)

namespace UserRoute

def method : UserRoute → String
  | .createUser => "POST"
  | .getUser _ => "GET"

/-- `path` in the two routes of the gateway. -/
def path : UserRoute → String
  | .createUser => "/v1/users"
  | .getUser userId => userPath userId

/-- The route that a request is dispatched to. The placeholder takes the rest of
the path. -/
def of (request : HttpRequest) : Option UserRoute :=
  if request.method = "POST" ∧ matchPath "/v1/users" request.path = true then some .createUser
  else if request.method = "GET" ∧ matchPath "/v1/users/\x7buser_id\x7d" request.path = true then
    some (.getUser (String.ofList (request.path.toList.drop "/v1/users/".length)))
  else none

/-- `gateway_create_user` and `gateway_get_user` up to the call of `proxy_request`. -/
def authorise (registry : ErrorRegistry) (devToken : String) (request : HttpRequest) (route : UserRoute) :
    Except AppError Identity :=
  match verifyToken registry devToken (Headers.first request.headers "authorization") with
  | .error error => .error error
  | .ok identity =>
      match checkFunctionAccess registry route.method route.path identity with
      | .error error => .error error
      | .ok () => .ok identity

end UserRoute

/-- The applications with their settings, and the requests of the clients. The
service reads a body by its content type. The routes that are not for users do
what they do in either application. -/
structure Platform where
  edge : ServiceApp
  devToken : String
  balancer : BalancerConfig
  otel : OpenTelemetry
  client : HttpClient
  wire : HeaderWire
  api : UserApi
  readBody : Option String → Bytes → Option PyValue
  edgeRoutes : HttpRequest → RouteRun
  apiRoutes : HttpRequest → RouteRun
  request : CallId → HttpRequest

/-- What is drawn and found while an instance handles a request. -/
structure Chance where
  uuid : String
  traceId : String
  values : FlushValues
  applied : Nat

/-- A request that an instance has handled, with the users it found there. -/
structure Execution where
  call : CallId
  url : String
  request : HttpRequest
  chance : Chance
  found : List User
  answer : Option HttpResponse

/-- Where a request of a client stands: it has not been seen, or it has passed
the whitelist and the store, or it waits in `proxy_request`, or it is over. -/
inductive ClientPhase where
  | arriving
  | accepted
  | proxying
  | answered (response : Option HttpResponse)

/-- The state of the gateway and of the database, with the calls of
`proxy_request` and what the instances have done so far. -/
structure PlatformState where
  store : HttpStore
  gateway : GatewayState
  users : List User
  clients : CallId → ClientPhase
  proxied : CallId → Option ProxyCall
  executions : List Execution

inductive PlatformAction where
  | arrive (c : CallId)
  | route (c : CallId) (drawn : SpanContext) (clock : Nat → Clock)
  | execute (c : CallId) (url : String) (chance : Chance)
  | answer (c : CallId) (outcome : UpstreamOutcome) (now : Clock) (clock : Nat → Clock)
  | finish (c : CallId)
  | background (a : GatewayAction)
  | expire (key : String)

/-- The client reads the response that an instance sent. The server may have
added headers of its own. -/
def Conveyed (answer : Option HttpResponse) (reply : HttpResponse) : Prop :=
  ∃ sent ∈ answer, reply.status = sent.status ∧ reply.body = sent.body ∧
    joinedHeader reply.headers "content-type" = joinedHeader sent.headers "content-type"

instance (answer : Option HttpResponse) (reply : HttpResponse) : Decidable (Conveyed answer reply) :=
  match answer with
  | none => isFalse fun ⟨_, hMem, _⟩ => nomatch hMem
  | some sent => decidable_of_iff (reply.status = sent.status ∧ reply.body = sent.body ∧
      joinedHeader reply.headers "content-type" = joinedHeader sent.headers "content-type")
        ⟨fun h => ⟨sent, rfl, h⟩, fun ⟨_, hMem, h⟩ => by cases hMem; exact h⟩

namespace Platform

variable (platform : Platform)

/-- The gateway behind its whitelist. -/
def edgeApp : EdgeApp := ⟨platform.edge, some platform.devToken⟩

/-- What the service does with a request: the users afterwards, and the answer. No
request of the gateway has a key, so the idempotency middleware lets it through. -/
def handle (users : List User) (request : HttpRequest) (chance : Chance) : List User × Option HttpResponse :=
  match UserRoute.of request with
  | some .createUser =>
      platform.api.step users ⟨request, .create
        (platform.readBody (Headers.first request.headers "content-type") request.body) chance.values⟩
  | some (.getUser userId) => platform.api.step users ⟨request, .get userId chance.applied⟩
  | none => (users, platform.api.app.freshResponse request (platform.apiRoutes request))

end Platform

namespace PlatformState

def initial (urls : List String) (users : List User) : PlatformState :=
  ⟨.empty, .initial urls, users, fun _ => .arriving, fun _ => none, []⟩

def setClient (s : PlatformState) (c : CallId) (phase : ClientPhase) : PlatformState :=
  { s with clients := Function.update s.clients c phase }

/-- The end of a route of the gateway: the response is sent, and stored under the
key of the request. -/
def close (platform : Platform) (c : CallId) (run : RouteRun) (s : PlatformState) : PlatformState :=
  { s.setClient c (.answered (platform.edge.freshResponse (platform.request c) run)) with
    store := match platform.edge.storeKey (platform.request c) with
      | some key => platform.edge.idempotency.keep s.store key (platform.edge.inner (platform.request c) run).messages
      | none => s.store }

/-- How often an instance has handled an attempt of a call. -/
def timesExecuted (s : PlatformState) (c : CallId) (url : String) : Nat :=
  (s.executions.map fun e => (e.call, e.url)).count (c, url)

/-- The outcome of an attempt is an error, or the response of the instance. -/
def Observable (s : PlatformState) (c : CallId) (url : String) : UpstreamOutcome → Prop
  | .response reply => ∃ e ∈ s.executions, (e.call = c ∧ e.url = url) ∧ Conveyed e.answer reply
  | .httpError _ => True

instance (s : PlatformState) (c : CallId) (url : String) (outcome : UpstreamOutcome) :
    Decidable (s.Observable c url outcome) :=
  match outcome with
  | .response reply =>
      inferInstanceAs (Decidable (∃ e ∈ s.executions, (e.call = c ∧ e.url = url) ∧ Conveyed e.answer reply))
  | .httpError _ => isTrue trivial

end PlatformState

/-- What the route of the gateway raises for a `DownstreamError`. -/
def downstreamError (registry : ErrorRegistry) (message : String) : AppError :=
  AppError.make registry ErrorCode.badGateway.code (some message) none none

def platformStep (platform : Platform) (s : PlatformState) : PlatformAction → Option PlatformState
  | .arrive c =>
      match s.clients c with
      | .arriving =>
          match platform.edgeApp.rejected (platform.request c) with
          | some error =>
              some (s.setClient c (.answered (rejectionResponse platform.edge.codec (platform.request c) error)))
          | none =>
              match (platform.edge.storeKey (platform.request c)).bind s.store.get with
              | some cached =>
                  some (s.setClient c (.answered (platform.edge.replayedResponse cached (platform.request c))))
              | none => some (s.setClient c .accepted)
      | _ => none
  | .route c drawn clock =>
      match s.clients c with
      | .accepted =>
          match UserRoute.of (platform.request c) with
          | none => some (s.close platform c (platform.edgeRoutes (platform.request c)))
          | some route =>
              match route.authorise platform.edge.registry platform.devToken (platform.request c) with
              | .error error => some (s.close platform c ⟨none, .raisedApp error⟩)
              | .ok identity =>
                  (gatewayStep platform.balancer s.gateway (.request c clock)).map fun gateway =>
                    { s.setClient c .proxying with
                      gateway := gateway
                      proxied := Function.update s.proxied c
                        (some (tracedCall platform.otel route.method route.path (platform.request c) identity drawn)) }
      | _ => none
  | .execute c url chance =>
      match s.proxied c with
      | some call =>
          -- an instance handles each attempt that was sent to it once at most
          if s.timesExecuted c url < (s.gateway.contacts c).count url then
            let request := call.received platform.client platform.wire url chance.uuid chance.traceId
            some { s with
              users := (platform.handle s.users request chance).1
              executions := s.executions ++
                [⟨c, url, request, chance, s.users, (platform.handle s.users request chance).2⟩] }
          else none
      | none => none
  | .answer c outcome now clock =>
      match s.gateway.calls c with
      | .waiting url _ _ =>
          if s.Observable c url outcome then
            (gatewayStep platform.balancer s.gateway (.answer c outcome now clock)).map fun gateway =>
              { s with gateway := gateway }
          else none
      | _ => none
  | .finish c =>
      match s.clients c, s.gateway.calls c with
      | .proxying, .returned response => some (s.close platform c (relayRun response))
      | .proxying, .raised message =>
          some (s.close platform c ⟨none, .raisedApp (downstreamError platform.edge.registry message)⟩)
      | .proxying, .lookupFailed => some (s.close platform c ⟨none, .raised⟩)
      | _, _ => none
  | .background a =>
      if a.caller = none then
        (gatewayStep platform.balancer s.gateway a).map fun gateway => { s with gateway := gateway }
      else none
  | .expire key => some { s with store := s.store.expire key }

/-- What a step of the platform does, case by case. -/
inductive PlatformMove (platform : Platform) (s : PlatformState) : PlatformAction → PlatformState → Prop where
  | rejected {c : CallId} {error : AppError} (hPhase : s.clients c = .arriving)
      (hRejected : platform.edgeApp.rejected (platform.request c) = some error) :
      PlatformMove platform s (.arrive c)
        (s.setClient c (.answered (rejectionResponse platform.edge.codec (platform.request c) error)))
  | replayed {c : CallId} {key : String} {cached : CachedResponse} (hPhase : s.clients c = .arriving)
      (hPassed : platform.edgeApp.rejected (platform.request c) = none)
      (hKey : platform.edge.storeKey (platform.request c) = some key) (hStored : s.store.get key = some cached) :
      PlatformMove platform s (.arrive c)
        (s.setClient c (.answered (platform.edge.replayedResponse cached (platform.request c))))
  | accepted {c : CallId} (hPhase : s.clients c = .arriving)
      (hPassed : platform.edgeApp.rejected (platform.request c) = none) :
      PlatformMove platform s (.arrive c) (s.setClient c .accepted)
  | otherRoute {c : CallId} {drawn : SpanContext} {clock : Nat → Clock} (hPhase : s.clients c = .accepted)
      (hRoute : UserRoute.of (platform.request c) = none) :
      PlatformMove platform s (.route c drawn clock)
        (s.close platform c (platform.edgeRoutes (platform.request c)))
  | refused {c : CallId} {drawn : SpanContext} {clock : Nat → Clock} {route : UserRoute} {error : AppError}
      (hPhase : s.clients c = .accepted) (hRoute : UserRoute.of (platform.request c) = some route)
      (hRefused : route.authorise platform.edge.registry platform.devToken (platform.request c) = .error error) :
      PlatformMove platform s (.route c drawn clock) (s.close platform c ⟨none, .raisedApp error⟩)
  | proxied {c : CallId} {drawn : SpanContext} {clock : Nat → Clock} {route : UserRoute} {identity : Identity}
      {gateway : GatewayState} (hPhase : s.clients c = .accepted)
      (hRoute : UserRoute.of (platform.request c) = some route)
      (hGranted : route.authorise platform.edge.registry platform.devToken (platform.request c) = .ok identity)
      (hBegun : gatewayStep platform.balancer s.gateway (.request c clock) = some gateway) :
      PlatformMove platform s (.route c drawn clock)
        { s.setClient c .proxying with
          gateway := gateway
          proxied := Function.update s.proxied c
            (some (tracedCall platform.otel route.method route.path (platform.request c) identity drawn)) }
  | executed {c : CallId} {url : String} {chance : Chance} {call : ProxyCall} (hCall : s.proxied c = some call)
      (hSent : s.timesExecuted c url < (s.gateway.contacts c).count url) :
      PlatformMove platform s (.execute c url chance)
        (let request := call.received platform.client platform.wire url chance.uuid chance.traceId
        { s with
          users := (platform.handle s.users request chance).1
          executions := s.executions ++
            [⟨c, url, request, chance, s.users, (platform.handle s.users request chance).2⟩] })
  | answered {c : CallId} {outcome : UpstreamOutcome} {now : Clock} {clock : Nat → Clock} {url : String}
      {tried : List String} {left : Nat} {gateway : GatewayState} (hWaiting : s.gateway.calls c = .waiting url tried left)
      (hGenuine : s.Observable c url outcome)
      (hStep : gatewayStep platform.balancer s.gateway (.answer c outcome now clock) = some gateway) :
      PlatformMove platform s (.answer c outcome now clock) { s with gateway := gateway }
  | relayed {c : CallId} {response : HttpResponse} (hPhase : s.clients c = .proxying)
      (hReturned : s.gateway.calls c = .returned response) :
      PlatformMove platform s (.finish c) (s.close platform c (relayRun response))
  | failed {c : CallId} {message : String} (hPhase : s.clients c = .proxying)
      (hRaised : s.gateway.calls c = .raised message) :
      PlatformMove platform s (.finish c)
        (s.close platform c ⟨none, .raisedApp (downstreamError platform.edge.registry message)⟩)
  | lost {c : CallId} (hPhase : s.clients c = .proxying) (hLookup : s.gateway.calls c = .lookupFailed) :
      PlatformMove platform s (.finish c) (s.close platform c ⟨none, .raised⟩)
  | background {a : GatewayAction} {gateway : GatewayState} (hNobody : a.caller = none)
      (hStep : gatewayStep platform.balancer s.gateway a = some gateway) :
      PlatformMove platform s (.background a) { s with gateway := gateway }
  | expired {key : String} : PlatformMove platform s (.expire key) { s with store := s.store.expire key }

theorem platformMove_of_step {platform : Platform} {s t : PlatformState} {a : PlatformAction}
    (h : platformStep platform s a = some t) : PlatformMove platform s a t := by
  cases a with
  | arrive c =>
      simp only [platformStep] at h
      split at h
      · next hPhase =>
          split at h
          · next error hRejected =>
              cases h
              exact .rejected hPhase hRejected
          · next hPassed =>
              split at h
              · next cached hStored =>
                  cases h
                  obtain ⟨key, hKey, hEntry⟩ := Option.bind_eq_some_iff.mp hStored
                  exact .replayed hPhase hPassed hKey hEntry
              · cases h
                exact .accepted hPhase hPassed
      · cases h
  | route c drawn clock =>
      simp only [platformStep] at h
      split at h
      · next hPhase =>
          split at h
          · next hRoute =>
              cases h
              exact .otherRoute hPhase hRoute
          · next route hRoute =>
              split at h
              · next error hRefused =>
                  cases h
                  exact .refused hPhase hRoute hRefused
              · next identity hGranted =>
                  obtain ⟨gateway, hBegun, rfl⟩ := Option.map_eq_some_iff.mp h
                  exact .proxied hPhase hRoute hGranted hBegun
      · cases h
  | execute c url chance =>
      simp only [platformStep] at h
      split at h
      · next call hCall =>
          split at h
          · next hOpen =>
              cases h
              exact .executed hCall hOpen
          · cases h
      · cases h
  | answer c outcome now clock =>
      simp only [platformStep] at h
      split at h
      · next url tried left hWaiting =>
          split at h
          · next hGenuine =>
              obtain ⟨gateway, hStep, rfl⟩ := Option.map_eq_some_iff.mp h
              exact .answered hWaiting hGenuine hStep
          · cases h
      · cases h
  | finish c =>
      simp only [platformStep] at h
      split at h
      · next response hPhase hReturned =>
          cases h
          exact .relayed hPhase hReturned
      · next message hPhase hRaised =>
          cases h
          exact .failed hPhase hRaised
      · next hPhase hLookup =>
          cases h
          exact .lost hPhase hLookup
      · cases h
  | background a =>
      simp only [platformStep] at h
      split at h
      · next hNobody =>
          obtain ⟨gateway, hStep, rfl⟩ := Option.map_eq_some_iff.mp h
          exact .background hNobody hStep
      · cases h
  | expire key =>
      cases h
      exact .expired

end ServicePlatform
