import ServicePlatform.Http.Message
import ServicePlatform.Rotation.Wheel
import Mathlib.Algebra.Ring.Int.Defs
import Mathlib.Logic.Function.Basic

/-! The client-side load balancer of the gateway: the pool of instances, what
is known of their health, and the rotation that all requests share. Health
records are objects that the state map refers to, since a probe keeps its
record while the map is replaced. A lookup of a URL that is not in the state
map is a `KeyError`, which is `none` here. -/
namespace ServicePlatform.Gateway

open Rotation

/-- A reading of the monotonic clock. -/
abbrev Clock := Int

structure InstanceHealth where
  healthy : Bool
  fails : Nat
  downSince : Option Clock
  deriving DecidableEq

structure BalancerConfig where
  failThreshold : Int
  cooldown : Int

/-- The defaults of the constructor, in seconds. -/
def BalancerConfig.default : BalancerConfig := ⟨3, 30⟩

namespace InstanceHealth

def fresh : InstanceHealth := ⟨true, 0, none⟩

/-- A healthy instance, or one whose cooldown has passed. -/
def available (config : BalancerConfig) (now : Clock) (state : InstanceHealth) : Bool :=
  state.healthy || state.downSince.any fun since => config.cooldown ≤ now - since

/-- One more failure, which takes the instance down at the threshold. -/
def failed (config : BalancerConfig) (now : Clock) (state : InstanceHealth) : InstanceHealth :=
  if config.failThreshold ≤ state.fails + 1 then ⟨false, state.fails + 1, some now⟩
  else { state with fails := state.fails + 1 }

theorem available_of_healthy {config : BalancerConfig} {now : Clock} {state : InstanceHealth}
    (h : state.healthy = true) : state.available config now = true := by
  simp [available, h]

end InstanceHealth

/-- `_urls` with `_rr`, `_states` with the records it refers to, and the number
of records made so far. -/
structure Balancer where
  pool : Wheel String
  states : String → Option Nat
  objects : Nat → InstanceHealth
  allocated : Nat

/-- What `_next` returns or raises. -/
inductive Selection where
  | picked (url : String)
  | unavailable
  | lookupFailed
  deriving DecidableEq

namespace Balancer

def urls (b : Balancer) : List String := b.pool.items

def health (b : Balancer) (url : String) : Option InstanceHealth := (b.states url).map b.objects

/-- The instance is in the state map and marked healthy. -/
def healthy (b : Balancer) (url : String) : Bool := (b.health url).any InstanceHealth.healthy

/-- Put the URL into the state map, with the record that the old map has for
it, or with a new one. -/
def adopt (old : String → Option Nat) (b : Balancer) (url : String) : Balancer :=
  match old url with
  | some object => { b with states := Function.update b.states url (some object) }
  | none =>
      { b with
        states := Function.update b.states url (some b.allocated)
        objects := Function.update b.objects b.allocated .fresh
        allocated := b.allocated + 1 }

/-- A new URL list, state map and rotation. -/
def install (old : String → Option Nat) (urls : List String) (b : Balancer) : Balancer :=
  urls.foldl (adopt old) { b with pool := ⟨urls, 0⟩, states := fun _ => none }

/-- `UpstreamBalancer(urls)`. -/
def new (urls : List String) : Balancer :=
  install (fun _ => none) urls ⟨⟨[], 0⟩, fun _ => none, fun _ => .fresh, 0⟩

/-- The new pool without duplicates, where every instance that remains keeps
its record. An empty list changes nothing. -/
def refresh (b : Balancer) (urls : List String) : Balancer :=
  if urls = [] then b else install b.states urls.eraseDups b

/-- `_is_available`. -/
def isAvailable (config : BalancerConfig) (b : Balancer) (now : Clock) (url : String) : Option Bool :=
  (b.health url).map (InstanceHealth.available config now)

/-- `_next` stops at an available instance, and at one whose lookup raises. -/
def stopsAt (config : BalancerConfig) (b : Balancer) (clock : Nat → Clock) (i : Nat) (url : String) : Bool :=
  b.isAvailable config (clock i) url != some false

/-- `_next` looks at each place of the pool once. The clock is read at each. -/
def next (config : BalancerConfig) (b : Balancer) (clock : Nat → Clock) : Selection × Balancer :=
  let (found, pool) := b.pool.next (b.stopsAt config clock)
  (match found with
    | some url => if (b.states url).isSome then .picked url else .lookupFailed
    | none => .unavailable, { b with pool := pool })

def write (b : Balancer) (object : Nat) (state : InstanceHealth) : Balancer :=
  { b with objects := Function.update b.objects object state }

/-- `_record_success`. -/
def recordSuccess (b : Balancer) (url : String) : Option Balancer :=
  (b.states url).map fun object => b.write object .fresh

/-- `_record_failure`. -/
def recordFailure (config : BalancerConfig) (b : Balancer) (now : Clock) (url : String) : Option Balancer :=
  (b.states url).map fun object => b.write object ((b.objects object).failed config now)

end Balancer

/-- `resp.headers[name] = value`: the first header with the name is replaced,
the others are removed. -/
def setHeader (name value : String) : Headers → Headers
  | [] => [(name, value)]
  | header :: headers =>
      if lowerName header.1 = lowerName name then
        (name, value) :: headers.filter fun other => lowerName other.1 ≠ lowerName name
      else header :: setHeader name value headers

/-- The response with the instance it came from. -/
def withUpstream (url : String) (response : HttpResponse) : HttpResponse :=
  { response with headers := setHeader "x-upstream" url response.headers }

/-- What an attempt gives: a response, or an `httpx.HTTPError` with its text. -/
inductive UpstreamOutcome where
  | response (response : HttpResponse)
  | httpError (text : String)
  deriving DecidableEq

/-- The error that remains when all instances were tried. -/
def exhausted (lastError : Option String) : String :=
  "所有上游实例均不可用: " ++ lastError.getD "None"

/-- The error that `_next` raises. -/
def noneAvailable : String := "所有上游服务实例均不可用"

def answeredWith (url : String) (status : Nat) : String :=
  "上游 " ++ url ++ " 返回 " ++ toString status

namespace Balancer

variable {config : BalancerConfig} {b : Balancer}

@[simp] theorem urls_next (b : Balancer) (clock : Nat → Clock) :
    (b.next config clock).2.urls = b.urls := Wheel.items_next ..

/-- The state map covers exactly the pool. -/
def Covers (b : Balancer) : Prop := ∀ url, b.states url ≠ none ↔ url ∈ b.urls

theorem states_adopt (old : String → Option Nat) (b : Balancer) (url other : String) :
    (b.adopt old url).states other ≠ none ↔ other = url ∨ b.states other ≠ none := by
  unfold adopt
  split <;> by_cases h : other = url <;> simp [h]

theorem pool_adopt (old : String → Option Nat) (b : Balancer) (url : String) :
    (b.adopt old url).pool = b.pool := by
  unfold adopt
  split <;> rfl

theorem pool_foldl_adopt (old : String → Option Nat) (urls : List String) (b : Balancer) :
    (urls.foldl (adopt old) b).pool = b.pool := by
  induction urls generalizing b with
  | nil => rfl
  | cons url urls ih => rw [List.foldl_cons, ih, pool_adopt]

theorem states_foldl_adopt (old : String → Option Nat) (urls : List String) (b : Balancer)
    (other : String) :
    (urls.foldl (adopt old) b).states other ≠ none ↔ other ∈ urls ∨ b.states other ≠ none := by
  induction urls generalizing b with
  | nil => simp
  | cons url urls ih =>
      rw [List.foldl_cons, ih, states_adopt, List.mem_cons]
      tauto

theorem pool_install (old : String → Option Nat) (urls : List String) (b : Balancer) :
    (install old urls b).pool = ⟨urls, 0⟩ := pool_foldl_adopt ..

@[simp] theorem urls_install (old : String → Option Nat) (urls : List String) (b : Balancer) :
    (install old urls b).urls = urls := congrArg Wheel.items (pool_install ..)

theorem covers_install (old : String → Option Nat) (urls : List String) (b : Balancer) :
    (install old urls b).Covers := by
  intro url
  rw [urls_install, install, states_foldl_adopt]
  simp

theorem covers_refresh (h : b.Covers) (urls : List String) : (b.refresh urls).Covers := by
  unfold refresh
  split
  · exact h
  · exact covers_install b.states urls.eraseDups b

theorem healthy_mem (h : b.Covers) {url : String} (hHealthy : b.healthy url = true) : url ∈ b.urls := by
  apply (h url).mp
  intro hNone
  simp [healthy, health, hNone] at hHealthy

theorem isAvailable_healthy {now : Clock} {url : String} (h : b.healthy url = true) :
    b.isAvailable config now url = some true := by
  unfold healthy at h
  unfold isAvailable
  cases hHealth : b.health url with
  | none => simp [hHealth] at h
  | some state =>
      rw [hHealth] at h
      exact congrArg some (InstanceHealth.available_of_healthy h)

theorem isAvailable_ne_none (config : BalancerConfig) (now : Clock) (h : b.Covers) {url : String}
    (hMem : url ∈ b.urls) :
    b.isAvailable config now url ≠ none := by
  have hState := (h url).mpr hMem
  simp only [isAvailable, health]
  cases hObject : b.states url with
  | none => exact absurd hObject hState
  | some object => simp

theorem recordSuccess_none (h : b.Covers) {url : String} : b.recordSuccess url = none ↔ url ∉ b.urls := by
  rw [recordSuccess, Option.map_eq_none_iff, ← h url, not_not]

theorem recordFailure_none (h : b.Covers) {now : Clock} {url : String} :
    b.recordFailure config now url = none ↔ url ∉ b.urls := by
  rw [recordFailure, Option.map_eq_none_iff, ← h url, not_not]

/-- Recording an outcome changes one health record and nothing else. -/
theorem recordSuccess_frame {b' : Balancer} {url : String} (h : b.recordSuccess url = some b') :
    b'.pool = b.pool ∧ b'.states = b.states := by
  obtain ⟨object, -, rfl⟩ := Option.map_eq_some_iff.mp h
  exact ⟨rfl, rfl⟩

theorem recordFailure_frame {b' : Balancer} {now : Clock} {url : String}
    (h : b.recordFailure config now url = some b') : b'.pool = b.pool ∧ b'.states = b.states := by
  obtain ⟨object, -, rfl⟩ := Option.map_eq_some_iff.mp h
  exact ⟨rfl, rfl⟩

section Next

variable {clock : Nat → Clock}

theorem stopsAt_iff (h : b.Covers) {i : Nat} {url : String} (hMem : url ∈ b.urls) :
    b.stopsAt config clock i url = true ↔ b.isAvailable config (clock i) url = some true := by
  have hKnown := isAvailable_ne_none config (clock i) h hMem
  unfold stopsAt
  cases hAvailable : b.isAvailable config (clock i) url with
  | none => exact absurd hAvailable hKnown
  | some available => cases available <;> decide

/-- A covered pool has an instance to pick or none; no lookup fails. -/
theorem next_fst (h : b.Covers) :
    (b.next config clock).1 = match (b.pool.next (b.stopsAt config clock)).1 with
      | some url => .picked url
      | none => .unavailable := by
  show (match (b.pool.next (b.stopsAt config clock)).1 with
      | some url => if (b.states url).isSome then Selection.picked url else .lookupFailed
      | none => .unavailable) = _
  cases hFound : (b.pool.next (b.stopsAt config clock)).1 with
  | none => rfl
  | some url =>
      have hState := (h url).mpr (Wheel.mem_of_next hFound)
      simp [Option.isSome_iff_ne_none.mpr hState]

theorem next_lookup (h : b.Covers) : (b.next config clock).1 ≠ .lookupFailed := by
  rw [next_fst h]
  split <;> simp

theorem next_picked (h : b.Covers) {url : String} :
    (b.next config clock).1 = .picked url ↔ (b.pool.next (b.stopsAt config clock)).1 = some url := by
  rw [next_fst h]
  cases (b.pool.next (b.stopsAt config clock)).1 <;> simp

theorem next_picked_mem (h : b.Covers) {url : String} (hPicked : (b.next config clock).1 = .picked url) :
    url ∈ b.urls := Wheel.mem_of_next ((next_picked h).mp hPicked)

/-- When `_next` raises, no instance is healthy. -/
theorem next_unavailable (h : b.Covers) (hNone : (b.next config clock).1 = .unavailable) (url : String) :
    b.healthy url = false := by
  rw [next_fst h] at hNone
  split at hNone
  · cases hNone
  · next hFound =>
      apply Bool.eq_false_iff.mpr
      intro hHealthy
      obtain ⟨i, hStop⟩ := Wheel.next_none hFound (healthy_mem h hHealthy)
      simp [stopsAt, isAvailable_healthy hHealthy] at hStop

end Next

end Balancer

end ServicePlatform.Gateway
