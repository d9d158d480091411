import Mathlib.Data.Int.Order.Basic
import Mathlib.Data.List.Induction
import Mathlib.Data.Multiset.Basic
import ServicePlatform.Kernel.Registry
import ServicePlatform.Transition.Run

/-! What the local registry returns, in terms of the calls made so far. `list`
drops what has expired while it reads, and nobody can tell. -/
namespace ServicePlatform

open Storage Transition

namespace RegistryCall

variable {Time : Type*}

/-- A register or deregister of the instance, or a close. -/
def Concerns (service instanceId : String) : RegistryCall Time → Prop
  | register service' instanceId' _ _ => service' = service ∧ instanceId' = instanceId
  | deregister service' instanceId' => service' = service ∧ instanceId' = instanceId
  | list _ => False
  | close => True

def isList : RegistryCall Time → Bool
  | list _ => true
  | _ => false

theorem not_concerns_of_isList {call : RegistryCall Time} (h : call.isList = true) (service instanceId : String) :
    ¬ call.Concerns service instanceId := by
  cases call with
  | list service' => exact id
  | register service' instanceId' url ttlSeconds => cases h
  | deregister service' instanceId' => cases h
  | close => cases h

end RegistryCall

variable {Time : Type*}

/-- Of the calls that concern an instance, the last is a register at this time. -/
def LatestRegister (calls : List (TimedCall Time)) (service instanceId url : String) (start ttlSeconds : Time) : Prop :=
  ∃ before after, calls = before ++ ⟨start, .register service instanceId url ttlSeconds⟩ :: after ∧
    ∀ c ∈ after, ¬ c.call.Concerns service instanceId

/-- The calls without those of `list`. -/
def withoutLists (calls : List (TimedCall Time)) : List (TimedCall Time) :=
  calls.filter fun c => c.call.isList = false

section Latest

variable {calls : List (TimedCall Time)} {c : TimedCall Time} {service instanceId url : String} {start ttl : Time}

theorem not_latestRegister_nil : ¬ LatestRegister [] service instanceId url start ttl := by
  rintro ⟨before, after, hCalls, -⟩
  cases before <;> cases hCalls

/-- The latest call is the register, or it concerns other instances. -/
theorem latestRegister_concat : LatestRegister (calls ++ [c]) service instanceId url start ttl ↔
    c = ⟨start, .register service instanceId url ttl⟩ ∨
      LatestRegister calls service instanceId url start ttl ∧ ¬ c.call.Concerns service instanceId := by
  constructor
  · rintro ⟨before, after, hCalls, hAfter⟩
    rcases concat_eq_iff.mp hCalls with ⟨-, hLast, -⟩ | ⟨rest, hEarlier, rfl⟩
    · exact Or.inl hLast.symm
    · obtain ⟨hRest, hHere⟩ := List.forall_mem_append.mp hAfter
      exact Or.inr ⟨⟨before, rest, hEarlier, hRest⟩, hHere c (List.mem_singleton_self c)⟩
  · rintro (rfl | ⟨⟨before, after, rfl, hAfter⟩, hHere⟩)
    · exact ⟨calls, [], rfl, by simp⟩
    · refine ⟨before, after ++ [c], by simp, ?_⟩
      rw [List.forall_mem_append]
      exact ⟨hAfter, by simpa using hHere⟩

theorem withoutLists_concat : withoutLists (calls ++ [c]) =
    if c.call.isList then withoutLists calls else withoutLists calls ++ [c] := by
  rw [withoutLists, List.filter_append, withoutLists]
  cases hList : c.call.isList with
  | true => simp [hList]
  | false => simp [hList]

/-- Calls of `list` do not settle anything. -/
theorem latestRegister_withoutLists : LatestRegister (withoutLists calls) service instanceId url start ttl ↔
    LatestRegister calls service instanceId url start ttl := by
  induction calls using List.reverseRecOn with
  | nil => rfl
  | append_singleton calls c ih =>
      rw [withoutLists_concat, latestRegister_concat, ← ih]
      split
      · next hList =>
          have hOther : c ≠ ⟨start, .register service instanceId url ttl⟩ := by
            rintro rfl
            cases hList
          rw [or_iff_right hOther]
          exact (and_iff_left (RegistryCall.not_concerns_of_isList hList service instanceId)).symm
      · exact latestRegister_concat

end Latest

section Leases

variable [Add Time]

/-- What a call does to the leases of the instances. -/
def TimedCall.settle (c : TimedCall Time) (leases : Leases (String × String) String Time) :
    Leases (String × String) String Time :=
  match c.call with
  | .register service instanceId url ttlSeconds =>
      Function.update leases (service, instanceId) (some (url, c.now + ttlSeconds))
  | .deregister service instanceId => Function.update leases (service, instanceId) none
  | .list _ => leases
  | .close => fun _ => none

theorem TimedCall.settle_register (now : Time) (service instanceId url : String) (ttl : Time)
    (leases : Leases (String × String) String Time) :
    TimedCall.settle ⟨now, .register service instanceId url ttl⟩ leases =
      Function.update leases (service, instanceId) (some (url, now + ttl)) := rfl

theorem TimedCall.settle_deregister (now : Time) (service instanceId : String)
    (leases : Leases (String × String) String Time) :
    TimedCall.settle ⟨now, .deregister service instanceId⟩ leases =
      Function.update leases (service, instanceId) none := rfl

/-- The leases of the instances after some calls. -/
def instanceLeases (calls : List (TimedCall Time)) : Leases (String × String) String Time :=
  calls.foldl (fun leases c => c.settle leases) fun _ => none

theorem instanceLeases_concat (calls : List (TimedCall Time)) (c : TimedCall Time) :
    instanceLeases (calls ++ [c]) = c.settle (instanceLeases calls) := by
  rw [instanceLeases, List.foldl_append]
  rfl

/-- An instance holds what its latest register gave it. -/
theorem instanceLeases_eq_some_iff {calls : List (TimedCall Time)} {service instanceId url : String} {due : Time} :
    instanceLeases calls (service, instanceId) = some (url, due) ↔
      ∃ start ttl, LatestRegister calls service instanceId url start ttl ∧ due = start + ttl := by
  induction calls using List.reverseRecOn with
  | nil => simp [instanceLeases, not_latestRegister_nil]
  | append_singleton calls c ih =>
      obtain ⟨now, call⟩ := c
      simp only [instanceLeases_concat, latestRegister_concat, TimedCall.mk.injEq]
      cases call with
      | register service' instanceId' url' ttl' =>
          by_cases hSame : service' = service ∧ instanceId' = instanceId
          · obtain ⟨rfl, rfl⟩ := hSame
            simp only [TimedCall.settle_register, Function.update_self, Option.some.injEq, Prod.mk.injEq,
              RegistryCall.Concerns, RegistryCall.register.injEq, true_and, and_true, not_true_eq_false, and_false,
              or_false]
            constructor
            · rintro ⟨rfl, rfl⟩
              exact ⟨now, ttl', ⟨rfl, rfl, rfl⟩, rfl⟩
            · rintro ⟨start, ttl, ⟨rfl, rfl, rfl⟩, rfl⟩
              exact ⟨rfl, rfl⟩
          · have hKey : (service, instanceId) ≠ (service', instanceId') := fun hKey => hSame (Prod.mk.inj hKey.symm)
            simp only [TimedCall.settle_register, Function.update_of_ne hKey, ih, RegistryCall.Concerns, hSame,
              not_false_eq_true, and_true, RegistryCall.register.injEq]
            have hOther : ∀ start ttl : Time, ¬ (now = start ∧ service' = service ∧ instanceId' = instanceId ∧
                url' = url ∧ ttl' = ttl) := fun _ _ h => hSame ⟨h.2.1, h.2.2.1⟩
            simp only [hOther, false_or]
      | deregister service' instanceId' =>
          by_cases hSame : service' = service ∧ instanceId' = instanceId
          · obtain ⟨rfl, rfl⟩ := hSame
            simp [TimedCall.settle_deregister, RegistryCall.Concerns]
          · have hKey : (service, instanceId) ≠ (service', instanceId') := fun hKey => hSame (Prod.mk.inj hKey.symm)
            simp only [TimedCall.settle_deregister, Function.update_of_ne hKey, ih, RegistryCall.Concerns, hSame,
              not_false_eq_true, and_true, reduceCtorEq, and_false, false_or]
      | list service' => simpa [TimedCall.settle, RegistryCall.Concerns] using ih
      | close => simp [TimedCall.settle, RegistryCall.Concerns]

end Leases

section Update

variable {leases : Leases (String × String) String Time} {service service' instanceId : String}
  {held : Option (String × Time)}

/-- The leases of a service after a change of one of them. -/
theorem leases_update_self : (fun id => Function.update leases (service, instanceId) held (service, id)) =
    Function.update (fun id => leases (service, id)) instanceId held := by
  funext id
  simp [Function.update_apply]

theorem leases_update_of_ne (h : service' ≠ service) :
    (fun id => Function.update leases (service, instanceId) held (service', id)) = fun id => leases (service', id) := by
  funext id
  exact Function.update_of_ne (fun hKey => h (congrArg Prod.fst hKey)) _ _

end Update

namespace LocalServiceRegistry

theorem bucket_modify {f : LeaseTable String String Time → LeaseTable String String Time} (hEmpty : f [] = [])
    (registry : LocalServiceRegistry Time) (service service' : String) :
    bucket (Dict.modify f registry service) service' =
      if service' = service then f (registry.bucket service') else registry.bucket service' :=
  Dict.getD_modify hEmpty

variable [LinearOrder Time]

/-- From a time on, the buckets have what the instances hold. -/
def Shows (now : Time) (registry : LocalServiceRegistry Time) (leases : Leases (String × String) String Time) : Prop :=
  ∀ service, LeaseTable.Shows now (registry.bucket service) fun instanceId => leases (service, instanceId)

namespace Shows

variable {now : Time} {registry : LocalServiceRegistry Time} {leases : Leases (String × String) String Time}

theorem empty (now : Time) : Shows now ([] : LocalServiceRegistry Time) fun _ => none :=
  fun _ => LeaseTable.Shows.empty now

theorem later {time : Time} (h : registry.Shows now leases) (hLater : now ≤ time) : registry.Shows time leases :=
  fun service => (h service).later hLater

theorem register [Add Time] (h : registry.Shows now leases) (service instanceId url : String) (ttl : Time) :
    (registry.register now service instanceId url ttl).Shows now
      (Function.update leases (service, instanceId) (some (url, now + ttl))) := by
  intro service'
  rw [LocalServiceRegistry.register, bucket]
  by_cases hService : service = service'
  · subst hService
    rw [Dict.getD_setItem_self, leases_update_self]
    exact (h service).grant instanceId url (now + ttl)
  · rw [Dict.getD_setItem_of_ne hService, leases_update_of_ne (Ne.symm hService)]
    exact h service'

theorem deregister (h : registry.Shows now leases) (service instanceId : String) :
    (registry.deregister service instanceId).Shows now (Function.update leases (service, instanceId) none) := by
  intro service'
  rw [LocalServiceRegistry.deregister, bucket_modify rfl]
  split
  · next hService =>
      subst hService
      rw [leases_update_self]
      exact (h service').revoke instanceId
  · next hService =>
      rw [leases_update_of_ne hService]
      exact h service'

theorem list (h : registry.Shows now leases) (service : String) : (registry.list now service).1.Shows now leases := by
  intro service'
  rw [LocalServiceRegistry.list, bucket_modify rfl]
  split
  · exact (h service').live
  · exact h service'

/-- A call does to the buckets what it does to the leases. -/
theorem call [Add Time] {c : TimedCall Time} (h : registry.Shows c.now leases) :
    (registry.call c).1.Shows c.now (c.settle leases) := by
  obtain ⟨now, made⟩ := c
  cases made with
  | register service instanceId url ttl => exact h.register service instanceId url ttl
  | deregister service instanceId => exact h.deregister service instanceId
  | list service => exact h.list service
  | close => exact empty now

end Shows

variable [Add Time]

/-- After any calls the buckets have, from the time of the last one on, what the
instances hold. -/
theorem shows_after {calls : List (TimedCall Time)} {now : Time} (hClock : Clocked calls)
    (hNow : ∀ c ∈ calls, c.now ≤ now) : (after calls).Shows now (instanceLeases calls) := by
  induction calls using List.reverseRecOn generalizing now with
  | nil => exact Shows.empty now
  | append_singleton calls c ih =>
      obtain ⟨hEarlier, -, hLast⟩ := List.pairwise_append.mp hClock
      have hBefore : (after calls).Shows c.now (instanceLeases calls) :=
        ih hEarlier fun earlier hMem => hLast earlier hMem c (List.mem_singleton_self c)
      rw [after_concat, instanceLeases_concat]
      exact hBefore.call.later (hNow c (by simp))

theorem shows_before {calls : List (TimedCall Time)} {c : TimedCall Time} (hClock : Clocked (calls ++ [c])) :
    (after calls).Shows c.now (instanceLeases calls) := by
  obtain ⟨hEarlier, -, hLast⟩ := List.pairwise_append.mp hClock
  exact shows_after hEarlier fun earlier hMem => hLast earlier hMem c (List.mem_singleton_self c)

/-- The instances that `list` finds, with their URLs. -/
def listed (calls : List (TimedCall Time)) (now : Time) (service : String) : Dict String String :=
  (LeaseTable.live now ((after calls).bucket service)).map fun entry => (entry.1, entry.2.1)

theorem call_list (calls : List (TimedCall Time)) (now : Time) (service : String) :
    ((after calls).call ⟨now, .list service⟩).2 = some ((listed calls now service).map Prod.snd) := by
  rw [listed, List.map_map]
  rfl

section Listed

variable {calls others : List (TimedCall Time)} {now : Time} {service : String}

theorem nodup_listed (hClock : Clocked (calls ++ [⟨now, .list service⟩])) :
    ((listed calls now service).map Prod.fst).Nodup := by
  have hLive := ((shows_before hClock service).live).nodup
  rw [listed, List.map_map]
  exact hLive

/-- The instances found are those whose latest register has not run out. -/
theorem mem_listed_iff (hClock : Clocked (calls ++ [⟨now, .list service⟩])) {instanceId url : String} :
    (instanceId, url) ∈ listed calls now service ↔
      ∃ start ttl, LatestRegister calls service instanceId url start ttl ∧ now ≤ start + ttl := by
  have hShows := shows_before hClock service
  rw [listed, List.mem_map]
  constructor
  · rintro ⟨⟨id, found, due⟩, hLive, hEntry⟩
    cases hEntry
    obtain ⟨hDue, hLease⟩ := hShows.mem_live.mp hLive
    obtain ⟨start, ttl, hLatest, rfl⟩ := instanceLeases_eq_some_iff.mp hLease
    exact ⟨start, ttl, hLatest, hDue⟩
  · rintro ⟨start, ttl, hLatest, hDue⟩
    have hLease := instanceLeases_eq_some_iff.mpr ⟨start, ttl, hLatest, rfl⟩
    exact ⟨(instanceId, url, start + ttl), hShows.mem_live.mpr ⟨hDue, hLease⟩, rfl⟩

theorem perm_listed (hClock : Clocked (calls ++ [⟨now, .list service⟩]))
    (hOthers : Clocked (others ++ [⟨now, .list service⟩])) (hSame : withoutLists others = withoutLists calls) :
    (listed others now service).Perm (listed calls now service) := by
  rw [List.perm_ext_iff_of_nodup (nodup_listed hOthers).of_map (nodup_listed hClock).of_map]
  rintro ⟨instanceId, url⟩
  rw [mem_listed_iff hOthers, mem_listed_iff hClock]
  have hLatest : ∀ start ttl, LatestRegister others service instanceId url start ttl ↔
      LatestRegister calls service instanceId url start ttl := fun start ttl => by
    rw [← latestRegister_withoutLists, hSame, latestRegister_withoutLists]
  simp only [hLatest]

end Listed

/-- What a call returns after some others, up to the order. -/
def returned (calls : List (TimedCall Time)) (c : TimedCall Time) : Option (Multiset String) :=
  ((after calls).call c).2.map Multiset.ofList

/-- `list` returns the URL of each instance whose latest register has not run
out, once each, and no call can tell which calls of `list` were made before. -/
theorem meets_specification (calls : List (TimedCall Time)) (c : TimedCall Time) (hClock : Clocked (calls ++ [c])) :
    (∀ service, c.call = .list service → ∃ entries : Dict String String,
      ((after calls).call c).2 = some (entries.map Prod.snd) ∧ (entries.map Prod.fst).Nodup ∧
        ∀ instanceId url, (instanceId, url) ∈ entries ↔
          ∃ start ttl, LatestRegister calls service instanceId url start ttl ∧ c.now ≤ start + ttl) ∧
      ∀ others, Clocked (others ++ [c]) → withoutLists others = withoutLists calls →
        returned others c = returned calls c := by
  obtain ⟨now, made⟩ := c
  constructor
  · rintro service rfl
    exact ⟨listed calls now service, call_list calls now service, nodup_listed hClock,
      fun instanceId url => mem_listed_iff hClock⟩
  · intro others hOthers hSame
    cases made with
    | register service instanceId url ttl => rfl
    | deregister service instanceId => rfl
    | list service =>
        have hUrls := (perm_listed hClock hOthers hSame).map Prod.snd
        rw [returned, returned, call_list, call_list, Option.map_some, Option.map_some]
        exact congrArg some (Multiset.coe_eq_coe.mpr hUrls)
    | close => rfl

/-- Two instances, of which one is renewed after the other has run out. -/
def renewals : List (TimedCall Int) :=
  [⟨0, .register "users" "i-1" "http://a:1" 30⟩, ⟨5, .register "users" "i-2" "http://b:1" 30⟩,
    ⟨40, .list "users"⟩, ⟨50, .register "users" "i-1" "http://a:1" 30⟩]

/-- After the renewal only one instance is listed, whether or not the registry was
read in between. -/
theorem meets_specification_renewals :
    (∃ entries : Dict String String, ((after renewals).call ⟨80, .list "users"⟩).2 = some (entries.map Prod.snd) ∧
      (entries.map Prod.fst).Nodup ∧ ∀ instanceId url, (instanceId, url) ∈ entries ↔
        ∃ start ttl, LatestRegister renewals "users" instanceId url start ttl ∧ 80 ≤ start + ttl) ∧
      returned (withoutLists renewals) ⟨80, .list "users"⟩ = returned renewals ⟨80, .list "users"⟩ := by
  obtain ⟨hListed, hOthers⟩ := meets_specification renewals ⟨80, .list "users"⟩ (by unfold Clocked; decide)
  exact ⟨hListed "users" rfl, hOthers (withoutLists renewals) (by unfold Clocked; decide) rfl⟩

end LocalServiceRegistry

end ServicePlatform
