import Mathlib.Algebra.Group.Defs
import ServicePlatform.Storage.Leases

/-! The two service registries. `LocalServiceRegistry` nests dictionaries, an
entry below its service. `RedisServiceRegistry` makes one key of service and
instance, and finds the members of a service by a pattern. -/
namespace ServicePlatform

open Storage

inductive RegistryCall (Time : Type*) where
  | register (service instanceId url : String) (ttlSeconds : Time)
  | deregister (service instanceId : String)
  | list (service : String)
  | close

/-- A call, and what the clock shows when it is made. -/
structure TimedCall (Time : Type*) where
  now : Time
  call : RegistryCall Time

/-- The clock does not go back from call to call. -/
def Clocked {Time : Type*} [LE Time] (calls : List (TimedCall Time)) : Prop :=
  calls.Pairwise fun earlier later => earlier.now ≤ later.now

/-- `_data`. -/
abbrev LocalServiceRegistry (Time : Type*) := Dict String (LeaseTable String String Time)

namespace LocalServiceRegistry

variable {Time : Type*}

/-- The bucket of a service. -/
def bucket (registry : LocalServiceRegistry Time) (service : String) : LeaseTable String String Time :=
  Dict.getD registry service []

variable [LinearOrder Time]

def register [Add Time] (registry : LocalServiceRegistry Time) (now : Time) (service instanceId url : String)
    (ttlSeconds : Time) : LocalServiceRegistry Time :=
  Dict.setItem registry service (Dict.setItem (registry.bucket service) instanceId (url, now + ttlSeconds))

def deregister (registry : LocalServiceRegistry Time) (service instanceId : String) : LocalServiceRegistry Time :=
  Dict.modify (fun bucket => Dict.pop bucket instanceId) registry service

/-- The registry after `list`, from which what has expired is gone, and the URLs
of what is left. -/
def list (registry : LocalServiceRegistry Time) (now : Time) (service : String) :
    LocalServiceRegistry Time × List String :=
  (Dict.modify (LeaseTable.live now) registry service,
    (LeaseTable.live now (registry.bucket service)).map fun entry => entry.2.1)

/-- The registry after a call, and what the call returns. -/
def call [Add Time] (registry : LocalServiceRegistry Time) (c : TimedCall Time) :
    LocalServiceRegistry Time × Option (List String) :=
  match c.call with
  | .register service instanceId url ttlSeconds => (registry.register c.now service instanceId url ttlSeconds, none)
  | .deregister service instanceId => (registry.deregister service instanceId, none)
  | .list service => ((registry.list c.now service).1, some (registry.list c.now service).2)
  | .close => ([], none)

/-- A new registry after some calls. -/
def after [Add Time] (calls : List (TimedCall Time)) : LocalServiceRegistry Time :=
  calls.foldl (fun registry c => (registry.call c).1) []

theorem after_concat [Add Time] (calls : List (TimedCall Time)) (c : TimedCall Time) :
    after (calls ++ [c]) = ((after calls).call c).1 := by
  rw [after, List.foldl_append]
  rfl

end LocalServiceRegistry

/-- What is left open of a Redis server: which keys a pattern matches, and in
which order `SCAN` comes to the keys. -/
structure RedisServer where
  glob : String → String → Bool
  order : List String → List String
  order_perm : ∀ keys, (order keys).Perm keys

/-- The keys of a Redis database with their values and expiries. -/
abbrev RedisStore (Time : Type*) := LeaseTable String String Time

namespace RedisStore

variable {Time : Type*} [LinearOrder Time]

/-- `SET key value EX ttl`, which is refused for a time to live below one. -/
def set [Add Time] [One Time] (store : RedisStore Time) (now : Time) (key value : String) (ttl : Time) :
    RedisStore Time :=
  if 1 ≤ ttl then Dict.setItem store key (value, now + ttl) else store

def get (store : RedisStore Time) (now : Time) (key : String) : Option String :=
  (store.find? fun entry => entry.1 = key ∧ now < entry.2.2).map fun entry => entry.2.1

def delete (store : RedisStore Time) (key : String) : RedisStore Time := Dict.pop store key

/-- `SCAN` with `MATCH`, from its first to its last page. -/
def scan (server : RedisServer) (store : RedisStore Time) (now : Time) (pattern : String) : List String :=
  server.order ((store.filter fun entry => now < entry.2.2 ∧ server.glob pattern entry.1 = true).map Prod.fst)

end RedisStore

namespace RedisServiceRegistry

variable {Time : Type*} [LinearOrder Time]

/-- `_key`. -/
def key (service instanceId : String) : String := "svc:reg:" ++ service ++ ":" ++ instanceId

/-- The pattern that `list` scans for. -/
def membersPattern (service : String) : String := "svc:reg:" ++ service ++ ":*"

def list (server : RedisServer) (store : RedisStore Time) (now : Time) (service : String) : List String :=
  (store.scan server now (membersPattern service)).filterMap fun key =>
    (store.get now key).filter fun value => value ≠ ""

/-- The store after a call, and what the call returns. -/
def call [Add Time] [One Time] (server : RedisServer) (store : RedisStore Time) (c : TimedCall Time) :
    RedisStore Time × Option (List String) :=
  match c.call with
  | .register service instanceId url ttlSeconds => (store.set c.now (key service instanceId) url ttlSeconds, none)
  | .deregister service instanceId => (store.delete (key service instanceId), none)
  | .list service => (store, some (list server store c.now service))
  | .close => (store, none)

/-- An empty store after some calls. -/
def after [Add Time] [One Time] (server : RedisServer) (calls : List (TimedCall Time)) : RedisStore Time :=
  calls.foldl (fun store c => (call server store c).1) []

theorem after_concat [Add Time] [One Time] (server : RedisServer) (calls : List (TimedCall Time))
    (c : TimedCall Time) : after server (calls ++ [c]) = (call server (after server calls) c).1 := by
  rw [after, List.foldl_append]
  rfl

end RedisServiceRegistry

end ServicePlatform
