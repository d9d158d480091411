import ServicePlatform.Gateway.BalancerSystem
import ServicePlatform.Kernel.RegistryAgreement
import ServicePlatform.Storage.Scan

/-! Service discovery over Redis. An instance renews its entry in the registry until
its tasks are cancelled, and removes it in an orderly shutdown. The gateway lists
the entries from time to time and refreshes its pool. All of them run at once, so
entries come and go while a listing is under way, and so do requests. -/
namespace ServicePlatform.Gateway

open Storage Transition

/-- What an instance registers. -/
structure Registration (Time : Type*) where
  service : String
  instanceId : String
  url : String
  ttlSeconds : Time

def Registration.key {Time : Type*} (registration : Registration Time) : String :=
  RedisServiceRegistry.key registration.service registration.instanceId

/-- What `create_app` of a service reads of its settings for the registry. -/
structure InstanceSettings (Time : Type*) where
  serviceName : String
  port : Nat
  instanceUrl : String
  serviceRegistryTtlSeconds : Time

/-- `instance_id` and `instance_url` of `create_app`, for the name of the host and the
first eight digits of a `uuid4`. -/
def InstanceSettings.registration {Time : Type*} (settings : InstanceSettings Time) (hostname hex : String) :
    Registration Time where
  service := settings.serviceName
  instanceId := settings.serviceName ++ "-" ++ hostname ++ "-" ++ hex
  url := if settings.instanceUrl ≠ "" then settings.instanceUrl
    else "http://" ++ settings.serviceName ++ ":" ++ toString settings.port
  ttlSeconds := settings.serviceRegistryTtlSeconds

/-- Where the lifespan of an instance stands. When it is stopping, its tasks are
cancelled and gathered, and the entry is still to be removed. -/
inductive Lifespan where
  | absent
  | serving
  | stopping
  | ended
  deriving DecidableEq

/-- Where the discovery loop stands: in its pause, in the scan of a listing, or at the
reading of the keys that are left, with the URLs read so far. -/
inductive Listing where
  | asleep
  | scanning (scan : Scan String)
  | reading (keys urls : List String)
  | cancelled

def Listing.observe (present : String → Bool) : Listing → Listing
  | .scanning scan => .scanning (scan.observe present)
  | listing => listing

/-- The registry server, the settings of the gateway, and all the instances there
ever are. -/
structure Deployment (Instance Time : Type*) where
  server : RedisServer
  config : BalancerConfig
  discoveryService : String
  instances : Instance → Registration Time

/-- The system. Listings are counted when they begin, and `builtBy` is the count of the
one that the pool comes from; it is zero for the configured pool. -/
structure DiscoveryState (Instance Time : Type*) where
  now : Time
  store : RedisStore Time
  lifespans : Instance → Lifespan
  listing : Listing
  begun : Nat
  builtBy : Nat
  gateway : GatewayState

inductive DiscoveryAction (Instance : Type*) where
  | start (i : Instance)
  | beat (i : Instance) (reached : Bool)
  | stop (i : Instance)
  | leave (i : Instance) (reached : Bool)
  | crash (i : Instance)
  | list
  | page (keys : List String)
  | listed
  | read
  | fail
  | cancel
  | traffic (a : GatewayAction)

/-- The instance whose lifespan goes on to another stage. -/
def DiscoveryAction.moves {Instance : Type*} : DiscoveryAction Instance → Option Instance
  | .start i => some i
  | .stop i => some i
  | .leave i _ => some i
  | .crash i => some i
  | _ => none

structure TimedAction (Instance Time : Type*) where
  now : Time
  action : DiscoveryAction Instance

namespace DiscoveryState

variable {Instance Time : Type*} [DecidableEq Instance] [LinearOrder Time]

/-- `create_app` of the gateway. Without a service to discover there is no loop. -/
def initial (d : Deployment Instance Time) (now : Time) (urls : List String) : DiscoveryState Instance Time where
  now := now
  store := []
  lifespans _ := .absent
  listing := if d.discoveryService = "" then .cancelled else .asleep
  begun := 0
  builtBy := 0
  gateway := .initial urls

/-- The URLs of the pool. -/
def pool (s : DiscoveryState Instance Time) : List String := s.gateway.balancer.urls

/-- The keys that a scan may come to. -/
def present (d : Deployment Instance Time) (s : DiscoveryState Instance Time) : List String :=
  (RedisServiceRegistry.reached d.server s.store s.now d.discoveryService).map Prod.fst

def move (s : DiscoveryState Instance Time) (i : Instance) (lifespan : Lifespan) : DiscoveryState Instance Time :=
  { s with lifespans := Function.update s.lifespans i lifespan }

/-- `registry.register`, called by the heartbeat. -/
def register [Add Time] [One Time] (s : DiscoveryState Instance Time) (registration : Registration Time) :
    DiscoveryState Instance Time :=
  { s with store := s.store.set s.now registration.key registration.url registration.ttlSeconds }

/-- `registry.deregister`, called at the end of the lifespan. -/
def deregister (s : DiscoveryState Instance Time) (registration : Registration Time) : DiscoveryState Instance Time :=
  { s with store := s.store.delete registration.key }

/-- What `_discovery_loop` does with the URLs of a listing. -/
def finish (s : DiscoveryState Instance Time) (urls : List String) : DiscoveryState Instance Time :=
  if urls = [] then { s with listing := .asleep }
  else
    { s with
      listing := .asleep
      builtBy := s.begun
      gateway := s.gateway.observe (s.gateway.balancer.refresh urls) }

/-- The loop of `list` over the keys, up to its next await. -/
def goOn (s : DiscoveryState Instance Time) (keys urls : List String) : DiscoveryState Instance Time :=
  if keys = [] then s.finish urls else { s with listing := .reading keys urls }

/-- Time passes. A key that is gone by now is not owed to a scan any more. -/
def settle (d : Deployment Instance Time) (s : DiscoveryState Instance Time) (now : Time) : DiscoveryState Instance Time :=
  { s with
    now := now
    listing := s.listing.observe fun key => key ∈ present d { s with now := now } }

/-- What is read under a key, if anything. -/
def value (s : DiscoveryState Instance Time) (key : String) : List String :=
  ((s.store.get s.now key).filter fun value => value ≠ "").toList

/-- A call to the registry takes effect at one moment or not at all. A heartbeat that
fails is logged, and so is a listing that fails. -/
def perform [Add Time] [One Time] (d : Deployment Instance Time) (s : DiscoveryState Instance Time) :
    DiscoveryAction Instance → Option (DiscoveryState Instance Time)
  | .start i => if s.lifespans i = .absent then some (s.move i .serving) else none
  | .beat i reached =>
      if s.lifespans i = .serving then some (if reached then s.register (d.instances i) else s) else none
  | .stop i => if s.lifespans i = .serving then some (s.move i .stopping) else none
  | .leave i reached =>
      if s.lifespans i = .stopping then some ((if reached then s.deregister (d.instances i) else s).move i .ended)
      else none
  | .crash i =>
      if s.lifespans i = .serving ∨ s.lifespans i = .stopping then some (s.move i .ended) else none
  | .list =>
      match s.listing with
      | .asleep => some { s with listing := .scanning (.begin (s.present d)), begun := s.begun + 1 }
      | _ => none
  | .page keys =>
      match s.listing with
      | .scanning scan =>
          if ∀ key ∈ keys, key ∈ s.present d then some { s with listing := .scanning (scan.page keys) } else none
      | _ => none
  | .listed =>
      match s.listing with
      | .scanning scan => if scan.Complete then some (s.goOn scan.found []) else none
      | _ => none
  | .read =>
      match s.listing with
      | .reading (key :: keys) urls => some (s.goOn keys (urls ++ s.value key))
      | _ => none
  | .fail =>
      match s.listing with
      | .scanning _ | .reading _ _ => some { s with listing := .asleep }
      | _ => none
  | .cancel =>
      match s.listing with
      | .cancelled => none
      | _ => some { s with listing := .cancelled }
  | .traffic a =>
      if a.refreshes then none
      else (gatewayStep d.config s.gateway a).map fun gateway => { s with gateway := gateway }

end DiscoveryState

/-- The clock does not go back. -/
def discoveryStep {Instance Time : Type*} [DecidableEq Instance] [LinearOrder Time] [Add Time] [One Time] (d : Deployment Instance Time)
    (s : DiscoveryState Instance Time) (a : TimedAction Instance Time) : Option (DiscoveryState Instance Time) :=
  if s.now ≤ a.now then (s.settle d a.now).perform d a.action else none

namespace DiscoveryState

variable {Instance Time : Type*} [DecidableEq Instance] [LinearOrder Time] [Add Time] [One Time] {d : Deployment Instance Time} {s t : DiscoveryState Instance Time}

/-- The step changes nothing but lifespans and what the balancer knows of health. -/
structure Kept (s t : DiscoveryState Instance Time) : Prop where
  now : t.now = s.now
  store : t.store = s.store
  listing : t.listing = s.listing
  begun : t.begun = s.begun
  builtBy : t.builtBy = s.builtBy
  pool : t.pool = s.pool

/-- What an action does to the registry, the listing and the pool, case by case. -/
inductive Performed (d : Deployment Instance Time) (s : DiscoveryState Instance Time) :
    DiscoveryAction Instance → DiscoveryState Instance Time → Prop where
  | kept {a : DiscoveryAction Instance} {t : DiscoveryState Instance Time} (hKept : Kept s t) (hQuiet : ∀ i, a ≠ .beat i true)
      (hStay : ∀ i, a ≠ .leave i true) (hLifespans : ∀ i, a.moves ≠ some i → t.lifespans i = s.lifespans i)
      (hGateway : t.gateway = s.gateway ∨
        ∃ b : GatewayAction, b.refreshes = false ∧ gatewayStep d.config s.gateway b = some t.gateway) :
      Performed d s a t
  | registered {i : Instance} (hServing : s.lifespans i = .serving) :
      Performed d s (.beat i true) (s.register (d.instances i))
  | deregistered {i : Instance} (hStopping : s.lifespans i = .stopping) :
      Performed d s (.leave i true) ((s.deregister (d.instances i)).move i .ended)
  | began (hAsleep : s.listing = .asleep) :
      Performed d s .list { s with listing := .scanning (.begin (s.present d)), begun := s.begun + 1 }
  | paged {keys : List String} {scan : Scan String} (hScan : s.listing = .scanning scan)
      (hThere : ∀ key ∈ keys, key ∈ s.present d) :
      Performed d s (.page keys) { s with listing := .scanning (scan.page keys) }
  | scanned {scan : Scan String} (hScan : s.listing = .scanning scan) (hComplete : scan.Complete) :
      Performed d s .listed (s.goOn scan.found [])
  | read {key : String} {keys urls : List String} (hReading : s.listing = .reading (key :: keys) urls) :
      Performed d s .read (s.goOn keys (urls ++ s.value key))
  | failed : Performed d s .fail { s with listing := .asleep }
  | cancelled : Performed d s .cancel { s with listing := .cancelled }

omit [LinearOrder Time] [Add Time] [One Time] in
theorem Kept.move (s : DiscoveryState Instance Time) (i : Instance) (lifespan : Lifespan) : Kept s (s.move i lifespan) :=
  ⟨rfl, rfl, rfl, rfl, rfl, rfl⟩

omit [LinearOrder Time] [Add Time] [One Time] in
theorem lifespans_move {s : DiscoveryState Instance Time} {a : DiscoveryAction Instance} {i : Instance} {lifespan : Lifespan}
    (hMove : a.moves = some i) (j : Instance) (hOther : a.moves ≠ some j) :
    (s.move i lifespan).lifespans j = s.lifespans j := by
  have hNe : j ≠ i := fun hSame => hOther (hSame ▸ hMove)
  exact Function.update_of_ne hNe lifespan s.lifespans

theorem perform_performed {a : DiscoveryAction Instance} (h : s.perform d a = some t) : Performed d s a t := by
  cases a with
  | start i =>
      obtain ⟨-, h⟩ := Option.ite_none_right_eq_some.mp h
      cases h
      exact .kept (Kept.move s i _) (by simp) (by simp) (lifespans_move rfl) (Or.inl rfl)
  | beat i reached =>
      obtain ⟨hServing, h⟩ := Option.ite_none_right_eq_some.mp h
      cases reached with
      | true =>
          cases h
          exact .registered hServing
      | false =>
          cases h
          exact .kept ⟨rfl, rfl, rfl, rfl, rfl, rfl⟩ (by simp) (by simp) (fun _ _ => rfl) (Or.inl rfl)
  | stop i =>
      obtain ⟨-, h⟩ := Option.ite_none_right_eq_some.mp h
      cases h
      exact .kept (Kept.move s i _) (by simp) (by simp) (lifespans_move rfl) (Or.inl rfl)
  | leave i reached =>
      obtain ⟨hStopping, h⟩ := Option.ite_none_right_eq_some.mp h
      cases reached with
      | true =>
          cases h
          exact .deregistered hStopping
      | false =>
          cases h
          exact .kept (Kept.move s i _) (by simp) (by simp) (lifespans_move rfl) (Or.inl rfl)
  | crash i =>
      obtain ⟨-, h⟩ := Option.ite_none_right_eq_some.mp h
      cases h
      exact .kept (Kept.move s i _) (by simp) (by simp) (lifespans_move rfl) (Or.inl rfl)
  | list =>
      simp only [perform] at h
      split at h
      · next hAsleep =>
          cases h
          exact .began hAsleep
      · cases h
  | page keys =>
      simp only [perform] at h
      split at h
      · next scan hScan =>
          obtain ⟨hThere, h⟩ := Option.ite_none_right_eq_some.mp h
          cases h
          exact .paged hScan hThere
      · cases h
  | listed =>
      simp only [perform] at h
      split at h
      · next scan hScan =>
          obtain ⟨hComplete, h⟩ := Option.ite_none_right_eq_some.mp h
          cases h
          exact .scanned hScan hComplete
      · cases h
  | read =>
      simp only [perform] at h
      split at h
      · next key keys urls hReading =>
          cases h
          exact .read hReading
      · cases h
  | fail =>
      simp only [perform] at h
      split at h
      · cases h
        exact .failed
      · cases h
        exact .failed
      · cases h
  | cancel =>
      simp only [perform] at h
      split at h
      · cases h
      · cases h
        exact .cancelled
  | traffic a =>
      simp only [perform] at h
      split at h
      · cases h
      · next hFixed =>
          obtain ⟨gateway, hStep, rfl⟩ := Option.map_eq_some_iff.mp h
          have hOther : a.refreshes = false := by simpa using hFixed
          exact .kept ⟨rfl, rfl, rfl, rfl, rfl, (step_poolKept hStep hOther).urls⟩ (by simp) (by simp)
            (fun _ _ => rfl) (Or.inr ⟨a, hOther, hStep⟩)

/-- A step that is taken: time passes, and then the action is performed. -/
theorem step_performed {a : TimedAction Instance Time} (h : discoveryStep d s a = some t) :
    s.now ≤ a.now ∧ Performed d (s.settle d a.now) a.action t := by
  obtain ⟨hClock, h⟩ := Option.ite_none_right_eq_some.mp h
  exact ⟨hClock, perform_performed h⟩

end DiscoveryState

end ServicePlatform.Gateway
