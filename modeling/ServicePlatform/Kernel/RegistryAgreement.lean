import Mathlib.Algebra.Order.Ring.Int
import ServicePlatform.Kernel.LocalRegistry
import ServicePlatform.Text.Fields
import ServicePlatform.Text.Glob

/-! When the two registries agree. The key of an instance does not tell where the
name of its service ends, and the pattern of a service is not quoted, so a
service may list the instances of another one, or miss its own. -/
namespace ServicePlatform

open Storage Transition Text

/-- The names and URLs that calls use: the services that are listed, the instances
that are registered or deregistered, and the URLs. -/
structure RegistryNames where
  Listed : String → Prop
  Instance : String → String → Prop
  Url : String → Prop

/-- The time to live that a call asks for. -/
def RegistryCall.lifetime {Time : Type*} : RegistryCall Time → Option Time
  | .register _ _ _ ttlSeconds => some ttlSeconds
  | _ => none

namespace RegistryNames

variable {Time : Type*}

def Covers (names : RegistryNames) : RegistryCall Time → Prop
  | .register service instanceId url _ => names.Instance service instanceId ∧ names.Url url
  | .deregister service instanceId => names.Instance service instanceId
  | .list service => names.Listed service
  | .close => False

/-- What `list` finds of a service in Redis are the instances of that service. -/
def Apart (names : RegistryNames) (server : RedisServer) : Prop :=
  ∀ service service' instanceId url, names.Listed service → names.Instance service' instanceId → names.Url url →
    (server.glob (RedisServiceRegistry.membersPattern service)
        (RedisServiceRegistry.key service' instanceId) = true ∧ url ≠ "" ↔ service' = service)

end RegistryNames

section Calls

variable {Time : Type*} [LinearOrder Time] [Add Time] [One Time]

/-- Calls with these names. Every time to live is at least one, the clock does not
go back, and it never shows the expiry of an entry. -/
structure RegistryRun (names : RegistryNames) (calls : List (TimedCall Time)) : Prop where
  covered : ∀ c ∈ calls, names.Covers c.call
  clocked : Clocked calls
  lasting : ∀ c ∈ calls, ∀ ttl ∈ c.call.lifetime, 1 ≤ ttl
  never_due : ∀ c ∈ calls, ∀ ttl ∈ c.call.lifetime, ∀ other ∈ calls, other.now ≠ c.now + ttl

/-- Every call of a run returns the same from both registries, up to the order. -/
def RegistriesAgree (server : RedisServer) (calls : List (TimedCall Time)) : Prop :=
  Scheduled (fun before c =>
    ((RedisServiceRegistry.call server (RedisServiceRegistry.after server before) c).2.map Multiset.ofList) =
      LocalServiceRegistry.returned before c) calls

end Calls

namespace RedisServiceRegistry

variable {Time : Type*}

theorem key_inj {service instanceId instanceId' : String} :
    key service instanceId = key service instanceId' ↔ instanceId = instanceId' := by
  unfold key
  constructor
  · intro h
    have hText := congrArg String.toList h
    simp only [String.toList_append, List.append_cancel_left_eq] at hText
    exact String.toList_inj.mp hText
  · intro h
    rw [h]

section Leases

variable [Add Time]

/-- What a call does to the leases of the keys. -/
def settle (c : TimedCall Time) (leases : Leases String String Time) : Leases String String Time :=
  match c.call with
  | .register service instanceId url ttlSeconds =>
      Function.update leases (key service instanceId) (some (url, c.now + ttlSeconds))
  | .deregister service instanceId => Function.update leases (key service instanceId) none
  | _ => leases

theorem settle_register (now : Time) (service instanceId url : String) (ttl : Time)
    (leases : Leases String String Time) : settle ⟨now, .register service instanceId url ttl⟩ leases =
      Function.update leases (key service instanceId) (some (url, now + ttl)) := rfl

theorem settle_deregister (now : Time) (service instanceId : String) (leases : Leases String String Time) :
    settle ⟨now, .deregister service instanceId⟩ leases =
      Function.update leases (key service instanceId) none := rfl

/-- The leases of the keys after some calls. -/
def keyLeases (calls : List (TimedCall Time)) : Leases String String Time :=
  calls.foldl (fun leases c => settle c leases) fun _ => none

theorem keyLeases_concat (calls : List (TimedCall Time)) (c : TimedCall Time) :
    keyLeases (calls ++ [c]) = settle c (keyLeases calls) := by
  rw [keyLeases, List.foldl_append]
  rfl

end Leases

variable [LinearOrder Time] {store : RedisStore Time} {now : Time}

/-- `GET` of a key that is there returns its value. -/
theorem get_of_mem (hNodup : (store.map Prod.fst).Nodup) {key value : String} {due : Time}
    (hMem : (key, value, due) ∈ store) (hDue : now < due) : store.get now key = some value := by
  unfold RedisStore.get
  cases hFound : store.find? fun entry => decide (entry.1 = key ∧ now < entry.2.2) with
  | none =>
      have hNone := List.find?_eq_none.mp hFound _ hMem
      simp [hDue] at hNone
  | some entry =>
      have hKey : entry.1 = key := by
        have hTest := List.find?_some hFound
        simp only [decide_eq_true_eq] at hTest
        exact hTest.1
      have hSame : entry = (key, value, due) :=
        List.inj_on_of_nodup_map hNodup (List.mem_of_find?_eq_some hFound) hMem hKey
      rw [hSame]
      rfl

/-- The entries that `list` comes to. -/
def reached (server : RedisServer) (store : RedisStore Time) (now : Time) (service : String) : RedisStore Time :=
  store.filter fun entry => now < entry.2.2 ∧ server.glob (membersPattern service) entry.1 = true

/-- Those of them whose URL is not empty. -/
def found (server : RedisServer) (store : RedisStore Time) (now : Time) (service : String) : RedisStore Time :=
  (reached server store now service).filter fun entry => entry.2.1 ≠ ""

theorem nodup_found (server : RedisServer) (now : Time) (hNodup : (store.map Prod.fst).Nodup) (service : String) :
    ((found server store now service).map Prod.fst).Nodup :=
  Dict.nodup_filter (Dict.nodup_filter hNodup)

/-- The URLs of entries that are read one by one. -/
theorem filterMap_get {entries : RedisStore Time}
    (h : ∀ entry ∈ entries, store.get now entry.1 = some entry.2.1) :
    ((entries.map Prod.fst).filterMap fun key => (store.get now key).filter fun value => value ≠ "") =
      (entries.filter fun entry => entry.2.1 ≠ "").map fun entry => entry.2.1 := by
  induction entries with
  | nil => rfl
  | cons entry entries ih =>
      obtain ⟨hHere, hRest⟩ := List.forall_mem_cons.mp h
      rw [List.map_cons, List.filterMap_cons, hHere, ih hRest]
      by_cases hUrl : entry.2.1 = ""
      · simp [hUrl, Option.filter]
      · simp [hUrl, Option.filter]

theorem list_perm (server : RedisServer) (now : Time) (hNodup : (store.map Prod.fst).Nodup) (service : String) :
    (list server store now service).Perm ((found server store now service).map fun entry => entry.2.1) := by
  have hGet : ∀ entry ∈ reached server store now service, store.get now entry.1 = some entry.2.1 := by
    intro entry hMem
    obtain ⟨hStore, hLive⟩ := List.mem_filter.mp hMem
    simp only [decide_eq_true_eq] at hLive
    exact get_of_mem hNodup hStore hLive.1
  rw [found, ← filterMap_get hGet]
  exact (server.order_perm _).filterMap _

/-- The store has what the keys hold; nothing is dropped from it. -/
theorem shows_after [Add Time] [One Time] (server : RedisServer) (now : Time) {calls : List (TimedCall Time)}
    (hLasting : ∀ c ∈ calls, ∀ ttl ∈ c.call.lifetime, 1 ≤ ttl) :
    LeaseTable.Shows now (after server calls) (keyLeases calls) := by
  induction calls using List.reverseRecOn with
  | nil => exact LeaseTable.Shows.empty now
  | append_singleton calls c ih =>
      obtain ⟨hEarlier, hHere⟩ := List.forall_mem_append.mp hLasting
      rw [after_concat, keyLeases_concat]
      obtain ⟨time, made⟩ := c
      cases made with
      | register service instanceId url ttl =>
          have hTtl : 1 ≤ ttl := hHere _ (List.mem_singleton_self _) ttl rfl
          have hSet : (call server (after server calls) ⟨time, .register service instanceId url ttl⟩).1 =
              Dict.setItem (after server calls) (key service instanceId) (url, time + ttl) := if_pos hTtl
          rw [hSet]
          exact (ih hEarlier).grant (key service instanceId) url (time + ttl)
      | deregister service instanceId => exact (ih hEarlier).revoke (key service instanceId)
      | list service => exact ih hEarlier
      | close => exact ih hEarlier

end RedisServiceRegistry

namespace RegistryRun

variable {Time : Type*} [LinearOrder Time] [Add Time] [One Time] {names : RegistryNames} {server : RedisServer}
  {calls before : List (TimedCall Time)} {c : TimedCall Time}

theorem sublist (run : RegistryRun names calls) (h : before.Sublist calls) : RegistryRun names before where
  covered c hMem := run.covered c (h.subset hMem)
  clocked := run.clocked.sublist h
  lasting c hMem := run.lasting c (h.subset hMem)
  never_due c hMem ttl hTtl other hOther := run.never_due c (h.subset hMem) ttl hTtl other (h.subset hOther)

/-- What an instance holds comes from a register of it. -/
theorem instance_registered (run : RegistryRun names calls) {service instanceId url : String} {due : Time}
    (hLease : instanceLeases calls (service, instanceId) = some (url, due)) :
    names.Instance service instanceId ∧ names.Url url ∧ ∀ other ∈ calls, other.now ≠ due := by
  obtain ⟨start, ttl, ⟨front, back, rfl, -⟩, rfl⟩ := instanceLeases_eq_some_iff.mp hLease
  have hMem : (⟨start, .register service instanceId url ttl⟩ : TimedCall Time) ∈
      front ++ ⟨start, .register service instanceId url ttl⟩ :: back := by simp
  obtain ⟨hInstance, hUrl⟩ := run.covered _ hMem
  exact ⟨hInstance, hUrl, run.never_due _ hMem ttl rfl⟩

/-- What a key holds comes from a register of an instance with that key. -/
theorem key_registered (run : RegistryRun names calls) {key url : String} {due : Time}
    (hLease : RedisServiceRegistry.keyLeases calls key = some (url, due)) :
    ∃ service instanceId, names.Instance service instanceId ∧ names.Url url ∧
      key = RedisServiceRegistry.key service instanceId := by
  induction calls using List.reverseRecOn with
  | nil => cases hLease
  | append_singleton calls c ih =>
      have hEarlier := ih (run.sublist (List.sublist_append_left calls [c]))
      have hHere := run.covered c (by simp)
      rw [RedisServiceRegistry.keyLeases_concat] at hLease
      obtain ⟨time, made⟩ := c
      cases made with
      | register service instanceId url' ttl =>
          rw [RedisServiceRegistry.settle_register, Function.update_apply] at hLease
          split at hLease
          · next hKey =>
              cases hLease
              exact ⟨service, instanceId, hHere.1, hHere.2, hKey⟩
          · exact hEarlier hLease
      | deregister service instanceId =>
          rw [RedisServiceRegistry.settle_deregister, Function.update_apply] at hLease
          split at hLease
          · cases hLease
          · exact hEarlier hLease
      | list service => exact hEarlier hLease
      | close => exact hEarlier hLease

end RegistryRun

namespace RegistryNames.Apart

variable {Time : Type*} {names : RegistryNames} {server : RedisServer} {service service' instanceId instanceId' url : String}

/-- A key that holds a listed instance belongs to no other instance. -/
theorem key_inj (apart : names.Apart server) (hListed : names.Listed service) (hUrl : names.Url url)
    (hInstance : names.Instance service instanceId) (hOther : names.Instance service' instanceId')
    (hKey : RedisServiceRegistry.key service' instanceId' = RedisServiceRegistry.key service instanceId) :
    service' = service ∧ instanceId' = instanceId := by
  have hFound := (apart service service instanceId url hListed hInstance hUrl).mpr rfl
  rw [← hKey] at hFound
  have hService := (apart service service' instanceId' url hListed hOther hUrl).mp hFound
  rw [hService, RedisServiceRegistry.key_inj] at hKey
  exact ⟨hService, hKey⟩

theorem key_eq_iff (apart : names.Apart server) (hListed : names.Listed service) (hUrl : names.Url url)
    (hInstance : names.Instance service instanceId) (hOther : names.Instance service' instanceId') :
    RedisServiceRegistry.key service instanceId = RedisServiceRegistry.key service' instanceId' ↔
      (service, instanceId) = (service', instanceId') := by
  constructor
  · intro hKey
    obtain ⟨rfl, rfl⟩ := apart.key_inj hListed hUrl hInstance hOther hKey.symm
    rfl
  · intro hPair
    cases hPair
    rfl

end RegistryNames.Apart

namespace RegistryRun

variable {Time : Type*} [LinearOrder Time] [Add Time] [One Time] {names : RegistryNames} {server : RedisServer}
  {calls : List (TimedCall Time)} {service instanceId : String}

/-- The key of a listed instance holds what the instance holds. -/
theorem linked (run : RegistryRun names calls) (apart : names.Apart server) (hListed : names.Listed service)
    (hInstance : names.Instance service instanceId) :
    RedisServiceRegistry.keyLeases calls (RedisServiceRegistry.key service instanceId) =
      instanceLeases calls (service, instanceId) := by
  induction calls using List.reverseRecOn with
  | nil => rfl
  | append_singleton calls c ih =>
      have earlier := run.sublist (List.sublist_append_left calls [c])
      have hLinked := ih earlier
      have hHere := run.covered c (by simp)
      rw [RedisServiceRegistry.keyLeases_concat, instanceLeases_concat]
      obtain ⟨time, made⟩ := c
      cases made with
      | register service' instanceId' url ttl =>
          rw [RedisServiceRegistry.settle_register, TimedCall.settle_register, Function.update_apply,
            Function.update_apply, hLinked]
          exact if_congr (apart.key_eq_iff hListed hHere.2 hInstance hHere.1) rfl rfl
      | deregister service' instanceId' =>
          rw [RedisServiceRegistry.settle_deregister, TimedCall.settle_deregister, Function.update_apply,
            Function.update_apply, hLinked]
          cases hLease : instanceLeases calls (service, instanceId) with
          | none => simp
          | some held =>
              obtain ⟨url, due⟩ := held
              have hUrl := (earlier.instance_registered hLease).2.1
              exact if_congr (apart.key_eq_iff hListed hUrl hInstance hHere) rfl rfl
      | list service' => exact hLinked
      | close => cases hHere

end RegistryRun

section Agreement

variable {Time : Type*} [LinearOrder Time] [Add Time] [One Time] {names : RegistryNames} {server : RedisServer}
  {calls : List (TimedCall Time)} {service : String} {now : Time}

/-- The entries found in Redis are those of the bucket, under their keys. -/
theorem mem_found_iff (run : RegistryRun names (calls ++ [⟨now, .list service⟩])) (apart : names.Apart server)
    {key url : String} {due : Time} :
    (key, url, due) ∈ RedisServiceRegistry.found server (RedisServiceRegistry.after server calls) now service ↔
      ∃ instanceId, (instanceId, url, due) ∈
        LeaseTable.live now ((LocalServiceRegistry.after calls).bucket service) ∧
          RedisServiceRegistry.key service instanceId = key := by
  have earlier := run.sublist (List.sublist_append_left calls [⟨now, .list service⟩])
  have hListed : names.Listed service := run.covered ⟨now, .list service⟩ (by simp)
  have hStore := RedisServiceRegistry.shows_after server now earlier.lasting
  have hBucket := LocalServiceRegistry.shows_before run.clocked service
  simp only [RedisServiceRegistry.found, RedisServiceRegistry.reached, List.mem_filter, decide_eq_true_eq, hBucket.mem_live]
  constructor
  · rintro ⟨⟨hMem, hNow, hFound⟩, hFilled⟩
    have hLease := (hStore.mem_iff key url due hNow.le).mp hMem
    obtain ⟨service', instanceId, hInstance, hUrl, rfl⟩ := earlier.key_registered hLease
    obtain rfl := (apart service service' instanceId url hListed hInstance hUrl).mp ⟨hFound, hFilled⟩
    rw [earlier.linked apart hListed hInstance] at hLease
    exact ⟨instanceId, ⟨hNow.le, hLease⟩, rfl⟩
  · rintro ⟨instanceId, ⟨hNow, hLease⟩, rfl⟩
    obtain ⟨hInstance, hUrl, -⟩ := earlier.instance_registered hLease
    obtain ⟨start, ttl, ⟨front, back, hCalls, -⟩, rfl⟩ := instanceLeases_eq_some_iff.mp hLease
    have hOther : now ≠ start + ttl :=
      run.never_due ⟨start, .register service instanceId url ttl⟩ (by simp [hCalls]) ttl rfl ⟨now, .list service⟩
        (by simp)
    obtain ⟨hFound, hFilled⟩ := (apart service service instanceId url hListed hInstance hUrl).mpr rfl
    rw [← earlier.linked apart hListed hInstance] at hLease
    exact ⟨⟨(hStore.mem_iff _ url _ hNow).mpr hLease, lt_of_le_of_ne hNow hOther, hFound⟩, hFilled⟩

/-- Both registries list the same URLs. -/
theorem list_perm_listed (run : RegistryRun names (calls ++ [⟨now, .list service⟩])) (apart : names.Apart server) :
    (RedisServiceRegistry.list server (RedisServiceRegistry.after server calls) now service).Perm
      ((LocalServiceRegistry.listed calls now service).map Prod.snd) := by
  have earlier := run.sublist (List.sublist_append_left calls [⟨now, .list service⟩])
  have hStore := RedisServiceRegistry.shows_after server now earlier.lasting
  have hBucket := (LocalServiceRegistry.shows_before run.clocked service).live
  have hKeys : ((LeaseTable.live now ((LocalServiceRegistry.after calls).bucket service)).map
      fun entry => (RedisServiceRegistry.key service entry.1, entry.2)).Nodup := by
    refine hBucket.nodup.of_map.map ?_
    rintro ⟨instanceId, held⟩ ⟨instanceId', held'⟩ hSame
    obtain ⟨hKey, hHeld⟩ := Prod.mk.inj hSame
    exact Prod.ext (RedisServiceRegistry.key_inj.mp hKey) hHeld
  have hEntries : (RedisServiceRegistry.found server (RedisServiceRegistry.after server calls) now service).Perm
      ((LeaseTable.live now ((LocalServiceRegistry.after calls).bucket service)).map
        fun entry => (RedisServiceRegistry.key service entry.1, entry.2)) := by
    have hFound := RedisServiceRegistry.nodup_found server now hStore.nodup service
    refine (List.perm_ext_iff_of_nodup hFound.of_map hKeys).mpr ?_
    rintro ⟨key, url, due⟩
    rw [mem_found_iff run apart, List.mem_map]
    constructor
    · rintro ⟨instanceId, hLive, hKey⟩
      exact ⟨(instanceId, url, due), hLive, by rw [hKey]⟩
    · rintro ⟨⟨instanceId, held⟩, hLive, hSame⟩
      obtain ⟨hKey, rfl⟩ := Prod.mk.inj hSame
      exact ⟨instanceId, hLive, hKey⟩
  have hUrls := hEntries.map fun entry => entry.2.1
  rw [List.map_map] at hUrls
  rw [LocalServiceRegistry.listed, List.map_map]
  exact (RedisServiceRegistry.list_perm server now hStore.nodup service).trans hUrls

theorem agree_of_apart (run : RegistryRun names calls) (apart : names.Apart server) :
    RegistriesAgree server calls := by
  rintro before ⟨now, made⟩ after rfl
  have hHere : names.Covers made := run.covered ⟨now, made⟩ (by simp)
  have hBefore : RegistryRun names (before ++ [⟨now, made⟩]) :=
    run.sublist ((List.singleton_sublist.mpr List.mem_cons_self).append_left before)
  cases made with
  | register service instanceId url ttl => rfl
  | deregister service instanceId => rfl
  | list service =>
      have hUrls := list_perm_listed hBefore apart
      rw [LocalServiceRegistry.returned, LocalServiceRegistry.call_list, Option.map_some]
      exact congrArg some (Multiset.coe_eq_coe.mpr hUrls)
  | close => cases hHere

end Agreement

section Plain

variable {names : RegistryNames} {server : RedisServer}

/-- Where a literal text before a star matches what begins with it, names are apart
when no service has a colon, no listed one a sign of the pattern language, and no
URL is empty. -/
theorem RegistryNames.apart_of_plain
    (hGlob : ∀ stem key : String, (∀ c ∈ stem.toList, c ∉ globSigns) →
      (server.glob (stem ++ "*") key = true ↔ stem.toList <+: key.toList))
    (hListed : ∀ service, names.Listed service → ∀ c ∈ service.toList, c ∉ ':' :: globSigns)
    (hInstance : ∀ service instanceId, names.Instance service instanceId → ':' ∉ service.toList)
    (hUrl : ∀ url, names.Url url → url ≠ "") : names.Apart server := by
  intro service service' instanceId url hService hMember hPlace
  have hPlain := hListed service hService
  have hColon : ':' ∉ service.toList := fun hMem => hPlain ':' hMem List.mem_cons_self
  have hStem : ∀ c ∈ ("svc:reg:" ++ service ++ ":").toList, c ∉ globSigns := by
    intro c hMem
    simp only [String.toList_append, List.mem_append] at hMem
    rcases hMem with (hFront | hName) | hBack
    · revert c
      decide
    · exact fun hSign => hPlain c hName (List.mem_cons_of_mem _ hSign)
    · revert c
      decide
  have hPattern : RedisServiceRegistry.membersPattern service = "svc:reg:" ++ service ++ ":" ++ "*" := by
    simp [RedisServiceRegistry.membersPattern, String.append_assoc]
  rw [hPattern, hGlob _ _ hStem, and_iff_left (hUrl url hPlace)]
  simp only [RedisServiceRegistry.key, String.toList_append, List.append_assoc, List.prefix_append_right_inj]
  constructor
  · rintro ⟨rest, hKey⟩
    have hCut := splitOnce_append (hInstance service' instanceId hMember) instanceId.toList
    have hSame : service.toList ++ ':' :: rest = service'.toList ++ ':' :: instanceId.toList := by
      simpa using hKey
    rw [← hSame, splitOnce_append hColon] at hCut
    exact String.toList_inj.mp (congrArg Prod.fst (Option.some.inj hCut)).symm
  · rintro rfl
    exact ⟨instanceId.toList, by simp⟩

end Plain

section Probe

variable {Time : Type*} [Ring Time] [LinearOrder Time] [IsStrictOrderedRing Time]

/-- One register. -/
def registerOnce (service' instanceId url : String) : List (TimedCall Time) :=
  [⟨0, .register service' instanceId url 1⟩]

/-- One register, and a list at once. -/
def probe (service' instanceId url service : String) : List (TimedCall Time) :=
  [⟨0, .register service' instanceId url 1⟩, ⟨0, .list service⟩]

theorem registryRun_probe {names : RegistryNames} {service' instanceId url service : String}
    (hListed : names.Listed service) (hInstance : names.Instance service' instanceId) (hUrl : names.Url url) :
    RegistryRun names (probe service' instanceId url service : List (TimedCall Time)) where
  covered := by simp [probe, RegistryNames.Covers, hListed, hInstance, hUrl]
  clocked := by simp [Clocked, probe]
  lasting := by simp [probe, RegistryCall.lifetime]
  never_due := by simp [probe, RegistryCall.lifetime]

theorem redis_probe (server : RedisServer) (service' instanceId url service : String) :
    (RedisServiceRegistry.list server
        (RedisServiceRegistry.after server (registerOnce service' instanceId url : List (TimedCall Time))) 0 service).Perm
      (if server.glob (RedisServiceRegistry.membersPattern service)
        (RedisServiceRegistry.key service' instanceId) = true ∧ url ≠ "" then [url] else []) := by
  have hStore : RedisServiceRegistry.after server (registerOnce service' instanceId url : List (TimedCall Time)) =
      [(RedisServiceRegistry.key service' instanceId, url, 0 + 1)] := if_pos le_rfl
  have hNodup : (([(RedisServiceRegistry.key service' instanceId, url, (0 + 1 : Time))] : RedisStore Time).map
      Prod.fst).Nodup := List.nodup_singleton _
  have hPerm := RedisServiceRegistry.list_perm server 0 hNodup service
  rw [hStore]
  refine hPerm.trans (List.Perm.of_eq ?_)
  by_cases hFound : server.glob (RedisServiceRegistry.membersPattern service)
      (RedisServiceRegistry.key service' instanceId) = true
  · by_cases hUrl : url = "" <;>
      simp [RedisServiceRegistry.found, RedisServiceRegistry.reached, hFound, hUrl]
  · simp [RedisServiceRegistry.found, RedisServiceRegistry.reached, hFound]

theorem local_probe (service' instanceId url service : String) :
    (LocalServiceRegistry.listed (registerOnce service' instanceId url : List (TimedCall Time)) 0 service).map Prod.snd =
      if service' = service then [url] else [] := by
  have hBucket : (LocalServiceRegistry.after
      (registerOnce service' instanceId url : List (TimedCall Time))).bucket service =
        if service' = service then [(instanceId, url, 0 + 1)] else [] := rfl
  rw [LocalServiceRegistry.listed, hBucket]
  by_cases hService : service' = service
  · simp [hService, LeaseTable.live]
  · simp [hService, LeaseTable.live]

/-- All runs over some names have the same answers from both registries exactly
when in Redis the names are apart. -/
theorem registries_agree_iff (names : RegistryNames) (server : RedisServer) :
    (∀ calls : List (TimedCall Time), RegistryRun names calls → RegistriesAgree server calls) ↔
      names.Apart server := by
  constructor
  · intro hAgree service service' instanceId url hListed hInstance hUrl
    have hProbe : some (Multiset.ofList (RedisServiceRegistry.list server (RedisServiceRegistry.after server
          (registerOnce service' instanceId url : List (TimedCall Time))) 0 service)) =
        LocalServiceRegistry.returned (registerOnce service' instanceId url : List (TimedCall Time)) ⟨0, .list service⟩ :=
      hAgree (probe service' instanceId url service) (registryRun_probe hListed hInstance hUrl)
        (registerOnce service' instanceId url) ⟨0, .list service⟩ [] rfl
    rw [LocalServiceRegistry.returned, LocalServiceRegistry.call_list, local_probe] at hProbe
    have hPerm := Multiset.coe_eq_coe.mp (Option.some.inj hProbe)
    have hUrls := (redis_probe server service' instanceId url service).symm.trans hPerm
    constructor
    · intro hFound
      rw [if_pos hFound] at hUrls
      by_contra hOther
      rw [if_neg hOther] at hUrls
      cases hUrls.eq_nil
    · intro hService
      rw [if_pos hService] at hUrls
      by_contra hMissed
      rw [if_neg hMissed] at hUrls
      cases hUrls.symm.eq_nil
  · intro apart calls run
    exact agree_of_apart run apart

end Probe

/-- A server that matches patterns as documented and scans the keys in their order. -/
def documentedServer : RedisServer := ⟨glob, id, fun keys => List.Perm.refl keys⟩

/-- Services called `users` and `orders`, with instances and URLs of any kind. -/
def plainNames : RegistryNames where
  Listed service := service = "users" ∨ service = "orders"
  Instance service _ := service = "users" ∨ service = "orders"
  Url url := url ≠ ""

theorem plainNames_apart : plainNames.Apart documentedServer := by
  have hColon : ∀ service, service = "users" ∨ service = "orders" → ∀ c ∈ service.toList, c ∉ ':' :: globSigns := by
    rintro service (rfl | rfl) <;> decide
  refine RegistryNames.apart_of_plain (fun _ _ => glob_literal_star) hColon ?_ fun _ => id
  exact fun service _ hService hMem => hColon service hService ':' hMem List.mem_cons_self

/-- Both services register an instance, and one of them renews it. -/
def plainCalls : List (TimedCall Int) :=
  [⟨0, .register "users" "i-1" "http://a:1" 30⟩, ⟨5, .register "orders" "i-1" "http://b:1" 30⟩,
    ⟨20, .register "users" "i-1" "http://a:1" 30⟩, ⟨40, .list "users"⟩, ⟨40, .list "orders"⟩]

theorem registries_agree_iff_plain : RegistriesAgree documentedServer plainCalls := by
  refine (registries_agree_iff plainNames documentedServer).mpr plainNames_apart plainCalls ⟨?_, ?_, ?_, ?_⟩
  · simp [plainCalls, RegistryNames.Covers, plainNames]
  · unfold Clocked
    decide
  · decide
  · decide

/-- An instance of a service whose name goes on after a colon. -/
def nestedName : List (TimedCall Int) := [⟨0, .register "users:eu" "i-1" "http://a:1" 30⟩]

/-- Redis lists the instance of `users:eu` for `users`, and the local registry does
not. -/
theorem other_service_listed :
    RegistryRun ⟨fun _ => True, fun _ _ => True, fun _ => True⟩ (nestedName ++ [⟨1, .list "users"⟩]) ∧
      RedisServiceRegistry.list documentedServer (RedisServiceRegistry.after documentedServer nestedName) 1 "users" =
        ["http://a:1"] ∧
      ((LocalServiceRegistry.after nestedName).list 1 "users").2 = [] := by
  refine ⟨⟨?_, ?_, ?_, ?_⟩, by decide, by decide⟩
  · simp [nestedName, RegistryNames.Covers]
  · unfold Clocked
    decide
  · decide
  · decide

end ServicePlatform
