import ServicePlatform.Gateway.Discovery
import Mathlib.Data.Int.ConditionallyCompleteOrder

/-! What the pool of the gateway has to do with the instances that run. A listing is
not a snapshot: it may catch some instances before and others after a change. The
pool that it builds still has no instance that was gone before it began, and misses
none whose entry was there all the time. -/
namespace ServicePlatform.Gateway

open Storage Transition

/-- The registry takes in a heartbeat of the instance, or removes its entry. -/
def DiscoveryAction.Settles {Instance : Type*} (i : Instance) : DiscoveryAction Instance → Prop
  | .beat j true => j = i
  | .leave j true => j = i
  | _ => False

/-- The last that the registry heard of the instance is a heartbeat at this time. -/
def RegisteredAt {Instance Time : Type*} (actions : List (TimedAction Instance Time)) (i : Instance) (beaten : Time) : Prop :=
  Last (fun a => a.action.Settles i) actions ⟨beaten, .beat i true⟩

namespace Deployment

variable {Instance Time : Type*}

/-- The scan of the gateway comes to the entry of the instance. -/
def Scans (d : Deployment Instance Time) (i : Instance) : Prop :=
  d.server.glob (RedisServiceRegistry.membersPattern d.discoveryService) (d.instances i).key = true

/-- No two instances write under one key. -/
def KeysDiffer (d : Deployment Instance Time) : Prop := ∀ i j, (d.instances i).key = (d.instances j).key → i = j

variable [LinearOrder Time] [Add Time]

/-- The instance that these actions leave registered at a time. -/
def RegisteredBy (d : Deployment Instance Time) (actions : List (TimedAction Instance Time)) (now : Time) (i : Instance) : Prop :=
  ∃ beaten, RegisteredAt actions i beaten ∧ now < beaten + (d.instances i).ttlSeconds

/-- At each action of a segment the last heartbeat of the instance is younger than its
time to live. -/
def InTime (d : Deployment Instance Time) (before segment : List (TimedAction Instance Time)) (i : Instance) : Prop :=
  Scheduled (fun front a => d.RegisteredBy (before ++ front) a.now i) segment

/-- A segment in which the registry hears nothing of the instance. -/
theorem inTime_of_quiet {d : Deployment Instance Time} {before segment : List (TimedAction Instance Time)}
    {i : Instance} {beaten : Time} (hRegistered : RegisteredAt before i beaten)
    (hYoung : ∀ a ∈ segment, ¬ a.action.Settles i ∧ a.now < beaten + (d.instances i).ttlSeconds) :
    d.InTime before segment i := by
  rintro front a back rfl
  obtain ⟨earlier, later, rfl, hLater⟩ := hRegistered
  refine ⟨beaten, ⟨earlier, later ++ front, by simp, ?_⟩, (hYoung a (by simp)).2⟩
  rw [List.forall_mem_append]
  exact ⟨hLater, fun b hMem => (hYoung b (by simp [hMem])).1⟩

end Deployment

namespace Listing

/-- The keys that were found and are still to be read. -/
def keys : Listing → List String
  | .scanning scan => scan.found
  | .reading keys _ => keys
  | _ => []

def urls : Listing → List String
  | .reading _ urls => urls
  | _ => []

/-- The listing has begun and is not over. -/
def active : Listing → Bool
  | .scanning _ => true
  | .reading _ _ => true
  | _ => false

@[simp] theorem active_observe (present : String → Bool) (listing : Listing) :
    (listing.observe present).active = listing.active := by
  cases listing <;> rfl

@[simp] theorem keys_observe (present : String → Bool) (listing : Listing) :
    (listing.observe present).keys = listing.keys := by
  cases listing <;> rfl

@[simp] theorem urls_observe (present : String → Bool) (listing : Listing) :
    (listing.observe present).urls = listing.urls := by
  cases listing <;> rfl

theorem observe_scanning {present : String → Bool} {listing : Listing} {scan : Scan String}
    (h : listing.observe present = .scanning scan) :
    ∃ earlier, listing = .scanning earlier ∧ scan = earlier.observe present := by
  cases listing with
  | scanning earlier =>
      cases h
      exact ⟨earlier, rfl, rfl⟩
  | _ => cases h

theorem observe_reading {present : String → Bool} {listing : Listing} {keys urls : List String}
    (h : listing.observe present = .reading keys urls) : listing = .reading keys urls := by
  cases listing with
  | scanning earlier => cases h
  | _ => exact h

end Listing

namespace DiscoveryState

section GoOn

variable {Instance Time : Type*} {s : DiscoveryState Instance Time} {keys urls : List String}

@[simp] theorem store_goOn : (s.goOn keys urls).store = s.store := by
  unfold goOn finish
  split
  · split <;> rfl
  · rfl

@[simp] theorem begun_goOn : (s.goOn keys urls).begun = s.begun := by
  unfold goOn finish
  split
  · split <;> rfl
  · rfl

@[simp] theorem now_goOn : (s.goOn keys urls).now = s.now := by
  unfold goOn finish
  split
  · split <;> rfl
  · rfl

@[simp] theorem lifespans_goOn : (s.goOn keys urls).lifespans = s.lifespans := by
  unfold goOn finish
  split
  · split <;> rfl
  · rfl

/-- Where a listing stands after a part of it, case by case: there is more to read, or
it found nothing, or there is a new pool. -/
inductive WentOn (s : DiscoveryState Instance Time) (keys urls : List String) (t : DiscoveryState Instance Time) : Prop where
  | further (hKeys : keys ≠ []) (hListing : t.listing = .reading keys urls) (hBuilt : t.builtBy = s.builtBy)
      (hPool : t.pool = s.pool)
  | nothing (hKeys : keys = []) (hUrls : urls = []) (hListing : t.listing = .asleep) (hBuilt : t.builtBy = s.builtBy)
      (hPool : t.pool = s.pool)
  | refreshed (hKeys : keys = []) (hUrls : urls ≠ []) (hListing : t.listing = .asleep) (hBuilt : t.builtBy = s.begun)
      (hPool : t.pool = urls.eraseDups)

theorem goOn_wentOn (s : DiscoveryState Instance Time) (keys urls : List String) : WentOn s keys urls (s.goOn keys urls) := by
  unfold goOn
  split
  · next hKeys =>
      unfold finish
      split
      · next hUrls => exact .nothing hKeys hUrls rfl rfl rfl
      · next hUrls =>
          refine .refreshed hKeys hUrls rfl rfl ?_
          show (s.gateway.balancer.refresh urls).urls = urls.eraseDups
          rw [Balancer.refresh, if_neg hUrls, Balancer.urls_install]
  · next hKeys => exact .further hKeys rfl rfl rfl

end GoOn

variable {Instance Time : Type*} [LinearOrder Time]

section Frame

variable {d : Deployment Instance Time} {s : DiscoveryState Instance Time} {now : Time}

@[simp] theorem store_settle : (s.settle d now).store = s.store := rfl

@[simp] theorem pool_settle : (s.settle d now).pool = s.pool := rfl

@[simp] theorem begun_settle : (s.settle d now).begun = s.begun := rfl

@[simp] theorem builtBy_settle : (s.settle d now).builtBy = s.builtBy := rfl

@[simp] theorem lifespans_settle : (s.settle d now).lifespans = s.lifespans := rfl

@[simp] theorem now_settle : (s.settle d now).now = now := rfl

end Frame

section Store

variable {d : Deployment Instance Time} {s t : DiscoveryState Instance Time}

theorem mem_present_iff {key : String} : key ∈ s.present d ↔
    d.server.glob (RedisServiceRegistry.membersPattern d.discoveryService) key = true ∧
      ∃ url due, (key, url, due) ∈ s.store ∧ s.now < due := by
  unfold present RedisServiceRegistry.reached
  constructor
  · intro h
    obtain ⟨⟨key', url, due⟩, hEntry, rfl⟩ := List.mem_map.mp h
    obtain ⟨hMem, hLive⟩ := List.mem_filter.mp hEntry
    simp only [decide_eq_true_eq] at hLive
    exact ⟨hLive.2, url, due, hMem, hLive.1⟩
  · rintro ⟨hGlob, url, due, hMem, hLive⟩
    exact List.mem_map.mpr ⟨(key, url, due), List.mem_filter.mpr ⟨hMem, by simp [hLive, hGlob]⟩, rfl⟩

/-- What is read comes from an entry that has not run out. -/
theorem mem_value {key url : String} (h : url ∈ s.value key) :
    url ≠ "" ∧ ∃ due, (key, url, due) ∈ s.store ∧ s.now < due := by
  unfold value at h
  obtain ⟨hGet, hUrl⟩ := Option.filter_eq_some_iff.mp (Option.mem_toList.mp h)
  obtain ⟨⟨key', url', due⟩, hFound, rfl⟩ := Option.map_eq_some_iff.mp hGet
  have hEntry := List.find?_some hFound
  simp only [decide_eq_true_eq] at hEntry
  obtain ⟨rfl, hLive⟩ := hEntry
  exact ⟨by simpa using hUrl, due, List.mem_of_find?_eq_some hFound, hLive⟩

theorem value_of_mem (hNodup : (s.store.map Prod.fst).Nodup) {key url : String} {due : Time} (hUrl : url ≠ "")
    (hMem : (key, url, due) ∈ s.store) (hLive : s.now < due) : url ∈ s.value key := by
  unfold value
  rw [RedisServiceRegistry.get_of_mem hNodup hMem hLive]
  simp [Option.filter, hUrl]

/-- What a listing has found matches its pattern, and the pool comes from one that has
begun. -/
structure Sound (d : Deployment Instance Time) (s : DiscoveryState Instance Time) : Prop where
  nodup : (s.store.map Prod.fst).Nodup
  matched : ∀ key ∈ s.listing.keys,
    d.server.glob (RedisServiceRegistry.membersPattern d.discoveryService) key = true
  counted : s.builtBy ≤ s.begun

omit [LinearOrder Time] in
theorem Sound.goOn (h : s.Sound d) {keys urls : List String} (hKeys : ∀ key ∈ keys, key ∈ s.listing.keys) :
    (s.goOn keys urls).Sound d := by
  have hNodup : ((s.goOn keys urls).store.map Prod.fst).Nodup := by
    rw [store_goOn]
    exact h.nodup
  cases goOn_wentOn s keys urls with
  | further hMore hListing hBuilt hPool =>
      refine ⟨hNodup, ?_, ?_⟩
      · rw [hListing]
        exact fun key hMem => h.matched key (hKeys key hMem)
      · rw [hBuilt, begun_goOn]
        exact h.counted
  | nothing hNone hUrls hListing hBuilt hPool =>
      refine ⟨hNodup, ?_, ?_⟩
      · rw [hListing]
        exact fun key hMem => absurd hMem List.not_mem_nil
      · rw [hBuilt, begun_goOn]
        exact h.counted
  | refreshed hNone hUrls hListing hBuilt hPool =>
      refine ⟨hNodup, ?_, ?_⟩
      · rw [hListing]
        exact fun key hMem => absurd hMem List.not_mem_nil
      · rw [hBuilt, begun_goOn]

theorem Sound.settle (h : s.Sound d) (now : Time) : (s.settle d now).Sound d := by
  refine ⟨h.nodup, ?_, h.counted⟩
  intro key hMem
  apply h.matched key
  simpa [DiscoveryState.settle] using hMem

omit [LinearOrder Time] in
theorem sound_initial (d : Deployment Instance Time) (start : Time) (urls : List String) : (initial d start urls).Sound d := by
  refine ⟨List.nodup_nil, ?_, le_rfl⟩
  unfold initial
  split <;> exact fun key hMem => absurd hMem List.not_mem_nil

variable [DecidableEq Instance] [Add Time] [One Time] {actions : List (TimedAction Instance Time)} {start : Time} {urls : List String}

theorem mem_set {store : RedisStore Time} {now : Time} {key value : String} {ttl : Time}
    (hNodup : (store.map Prod.fst).Nodup) (hTtl : 1 ≤ ttl) {entry : String × String × Time} :
    entry ∈ store.set now key value ttl ↔ entry = (key, value, now + ttl) ∨ entry ∈ store ∧ entry.1 ≠ key := by
  rw [RedisStore.set, if_pos hTtl]
  exact Dict.mem_setItem_iff hNodup

/-- What a step does to the store. -/
inductive StoreStep (d : Deployment Instance Time) (s : DiscoveryState Instance Time) (a : TimedAction Instance Time) (t : DiscoveryState Instance Time) :
    Prop where
  | kept (hOther : ∀ i, ¬ a.action.Settles i) (hStore : t.store = s.store)
  | set (i : Instance) (hAction : a = ⟨a.now, .beat i true⟩) (hServing : s.lifespans i = .serving)
      (hStore : t.store = s.store.set a.now (d.instances i).key (d.instances i).url (d.instances i).ttlSeconds)
  | deleted (i : Instance) (hAction : a = ⟨a.now, .leave i true⟩)
      (hStore : t.store = s.store.delete (d.instances i).key)

theorem step_store {a : TimedAction Instance Time} (h : discoveryStep d s a = some t) : StoreStep d s a t := by
  obtain ⟨now, action⟩ := a
  obtain ⟨-, hPerformed⟩ := step_performed h
  cases hPerformed with
  | kept hKept hQuiet hStay =>
      refine .kept (fun i hSettles => ?_) hKept.store
      cases action with
      | beat j reached => cases reached with
        | true => exact hQuiet j rfl
        | false => exact hSettles
      | leave j reached => cases reached with
        | true => exact hStay j rfl
        | false => exact hSettles
      | _ => exact hSettles
  | registered hServing => exact .set _ rfl hServing rfl
  | deregistered => exact .deleted _ rfl rfl
  | began => exact .kept (fun _ => id) rfl
  | paged => exact .kept (fun _ => id) rfl
  | scanned => exact .kept (fun _ => id) store_goOn
  | read => exact .kept (fun _ => id) store_goOn
  | failed => exact .kept (fun _ => id) rfl
  | cancelled => exact .kept (fun _ => id) rfl

theorem nodup_step {a : TimedAction Instance Time} (hNodup : (s.store.map Prod.fst).Nodup)
    (h : discoveryStep d s a = some t) : (t.store.map Prod.fst).Nodup := by
  cases step_store h with
  | kept hOther hStore =>
      rw [hStore]
      exact hNodup
  | set i hAction hServing hStore =>
      rw [hStore, RedisStore.set]
      split
      · exact Dict.nodup_setItem hNodup
      · exact hNodup
  | deleted i hAction hStore =>
      rw [hStore]
      exact Dict.nodup_filter hNodup

theorem nodup_store (hRun : exec (discoveryStep d) (initial d start urls) actions = some t) :
    (t.store.map Prod.fst).Nodup :=
  invariant (I := fun s => (s.store.map Prod.fst).Nodup) (fun _ _ _ => nodup_step) List.nodup_nil hRun

/-- An entry of the store is what the last heartbeat of an instance left there. -/
theorem entry_registered (hRun : exec (discoveryStep d) (initial d start urls) actions = some t)
    {entry : String × String × Time} (hEntry : entry ∈ t.store) :
    ∃ i beaten, RegisteredAt actions i beaten ∧ 1 ≤ (d.instances i).ttlSeconds ∧
      entry = ((d.instances i).key, (d.instances i).url, beaten + (d.instances i).ttlSeconds) := by
  induction actions using List.reverseRecOn generalizing t with
  | nil =>
      cases hRun
      cases hEntry
  | append_singleton actions a ih =>
      obtain ⟨s, hEarlier, hStep⟩ := exec_concat.mp hRun
      have hNodup := nodup_store hEarlier
      -- an old entry stays where the action settles nothing of the instance it is from
      have hStays : entry ∈ s.store → (∀ i, a.action.Settles i → 1 ≤ (d.instances i).ttlSeconds →
          entry.1 ≠ (d.instances i).key) → ∃ i beaten, RegisteredAt (actions ++ [a]) i beaten ∧
            1 ≤ (d.instances i).ttlSeconds ∧
            entry = ((d.instances i).key, (d.instances i).url, beaten + (d.instances i).ttlSeconds) := by
        intro hOld hKey
        obtain ⟨i, beaten, hRegistered, hTtl, rfl⟩ := ih hEarlier hOld
        exact ⟨i, beaten, last_concat.mpr (Or.inr ⟨hRegistered, fun hSettles => hKey i hSettles hTtl rfl⟩), hTtl, rfl⟩
      cases step_store hStep with
      | kept hOther hStore =>
          rw [hStore] at hEntry
          exact hStays hEntry fun i hSettles => absurd hSettles (hOther i)
      | set i hAction hServing hStore =>
          rw [hStore] at hEntry
          have hSettled : ∀ j, a.action.Settles j → i = j := by
            rw [hAction]
            exact fun _ => id
          by_cases hTtl : 1 ≤ (d.instances i).ttlSeconds
          · rcases (mem_set hNodup hTtl).mp hEntry with rfl | ⟨hOld, hKey⟩
            · exact ⟨i, a.now, last_concat.mpr (Or.inl hAction), hTtl, rfl⟩
            · exact hStays hOld fun j hSettles _ => hSettled j hSettles ▸ hKey
          · rw [RedisStore.set, if_neg hTtl] at hEntry
            exact hStays hEntry fun j hSettles hLasting => absurd (hSettled j hSettles ▸ hLasting) hTtl
      | deleted i hAction hStore =>
          rw [hStore] at hEntry
          obtain ⟨hOld, hKey⟩ := Dict.mem_pop_iff.mp hEntry
          have hSettled : ∀ j, a.action.Settles j → i = j := by
            rw [hAction]
            exact fun _ => id
          exact hStays hOld fun j hSettles _ => hSettled j hSettles ▸ hKey

/-- What an instance registered last stays in the store. -/
theorem registered_entry (hKeys : d.KeysDiffer)
    (hRun : exec (discoveryStep d) (initial d start urls) actions = some t) {i : Instance} {beaten : Time}
    (hRegistered : RegisteredAt actions i beaten) (hTtl : 1 ≤ (d.instances i).ttlSeconds) :
    ((d.instances i).key, (d.instances i).url, beaten + (d.instances i).ttlSeconds) ∈ t.store := by
  induction actions using List.reverseRecOn generalizing t with
  | nil => exact absurd hRegistered not_last_nil
  | append_singleton actions a ih =>
      obtain ⟨s, hEarlier, hStep⟩ := exec_concat.mp hRun
      have hNodup := nodup_store hEarlier
      rcases last_concat.mp hRegistered with rfl | ⟨hBefore, hOther⟩
      · cases step_store hStep with
        | kept hOther => exact absurd rfl (hOther i)
        | set j hAction hServing hStore =>
            cases hAction
            rw [hStore]
            exact (mem_set hNodup hTtl).mpr (Or.inl rfl)
        | deleted j hAction => cases hAction
      · have hOld := ih hEarlier hBefore
        cases step_store hStep with
        | kept hNone hStore =>
            rw [hStore]
            exact hOld
        | set j hAction hServing hStore =>
            rw [hAction] at hOther
            have hKey : (d.instances i).key ≠ (d.instances j).key := fun hKey => hOther (hKeys i j hKey).symm
            rw [hStore]
            by_cases hLasting : 1 ≤ (d.instances j).ttlSeconds
            · exact (mem_set hNodup hLasting).mpr (Or.inr ⟨hOld, hKey⟩)
            · rw [RedisStore.set, if_neg hLasting]
              exact hOld
        | deleted j hAction hStore =>
            rw [hAction] at hOther
            have hKey : (d.instances i).key ≠ (d.instances j).key := fun hKey => hOther (hKeys i j hKey).symm
            rw [hStore]
            exact Dict.mem_pop_iff.mpr ⟨hOld, hKey⟩

theorem sound_step {a : TimedAction Instance Time} (h : s.Sound d) (hStep : discoveryStep d s a = some t) : t.Sound d := by
  have hNodup := nodup_step h.nodup hStep
  obtain ⟨-, hPerformed⟩ := step_performed hStep
  have hSettled := h.settle a.now
  generalize hAction : a.action = action at hPerformed
  cases hPerformed with
  | kept hKept =>
      refine ⟨hNodup, ?_, ?_⟩
      · rw [hKept.listing]
        exact hSettled.matched
      · rw [hKept.builtBy, hKept.begun]
        exact hSettled.counted
  | registered => exact ⟨hNodup, hSettled.matched, hSettled.counted⟩
  | deregistered => exact ⟨hNodup, hSettled.matched, hSettled.counted⟩
  | began =>
      refine ⟨hNodup, fun key hMem => absurd hMem List.not_mem_nil, ?_⟩
      exact Nat.le_succ_of_le hSettled.counted
  | @paged keys scan hScan hThere =>
      refine ⟨hNodup, fun key hMem => ?_, hSettled.counted⟩
      rcases List.mem_append.mp hMem with hOld | hNew
      · apply hSettled.matched key
        rw [hScan]
        exact hOld
      · exact (mem_present_iff.mp (hThere key hNew)).1
  | @scanned scan hScan =>
      apply hSettled.goOn
      intro key hMem
      rw [hScan]
      exact hMem
  | @read key keys urls hReading =>
      apply hSettled.goOn
      intro other hMem
      rw [hReading]
      exact List.mem_cons_of_mem key hMem
  | failed => exact ⟨hNodup, fun key hMem => absurd hMem List.not_mem_nil, hSettled.counted⟩
  | cancelled => exact ⟨hNodup, fun key hMem => absurd hMem List.not_mem_nil, hSettled.counted⟩

theorem sound_run (hRun : exec (discoveryStep d) (initial d start urls) actions = some t) : t.Sound d :=
  invariant (fun _ _ _ => sound_step) (sound_initial d start urls) hRun

end Store

section Sources

variable [DecidableEq Instance] [Add Time] [One Time] {d : Deployment Instance Time} {before segment : List (TimedAction Instance Time)}
  {s m t : DiscoveryState Instance Time} {start : Time} {configured : List String}

/-- The instance registers in the segment, or its registration from before reaches
into it. -/
def Source (d : Deployment Instance Time) (before segment : List (TimedAction Instance Time)) (now : Time) (i : Instance) : Prop :=
  (∃ beaten, ⟨beaten, .beat i true⟩ ∈ segment) ∨ d.RegisteredBy before now i

/-- The URL of an instance of the service that the segment knows of. -/
def Sourced (d : Deployment Instance Time) (before segment : List (TimedAction Instance Time)) (now : Time) (url : String) : Prop :=
  url ≠ "" ∧ ∃ i, Source d before segment now i ∧ d.Scans i ∧ url = (d.instances i).url

/-- What is there after a part of the segment comes from instances that the segment
knows of, as far as listings are concerned that began in it. -/
structure Traced (d : Deployment Instance Time) (before segment : List (TimedAction Instance Time)) (s t : DiscoveryState Instance Time) : Prop where
  later : s.now ≤ t.now
  entries : ∀ key url due, (key, url, due) ∈ t.store → s.now < due →
    ∃ i, Source d before segment s.now i ∧ key = (d.instances i).key ∧ url = (d.instances i).url
  urls : s.begun < t.begun → ∀ url ∈ t.listing.urls, Sourced d before segment s.now url
  pool : s.begun < t.builtBy → ∀ url ∈ t.pool, Sourced d before segment s.now url

theorem traced_start (hSound : s.Sound d) (hRun : exec (discoveryStep d) (initial d start configured) before = some s) :
    Traced d before segment s s := by
  refine ⟨le_rfl, ?_, fun hBegun => absurd hBegun (lt_irrefl _), fun hBuilt => ?_⟩
  · intro key url due hEntry hDue
    obtain ⟨i, beaten, hRegistered, -, hSame⟩ := entry_registered hRun hEntry
    cases hSame
    exact ⟨i, Or.inr ⟨beaten, hRegistered, hDue⟩, rfl, rfl⟩
  · exact absurd hBuilt (Nat.not_lt.mpr hSound.counted)

omit [DecidableEq Instance] [One Time] in
theorem Traced.settle (h : Traced d before segment s m) {now : Time} (hClock : m.now ≤ now) :
    Traced d before segment s (m.settle d now) := by
  refine ⟨h.later.trans hClock, h.entries, fun hBegun url hMem => ?_, h.pool⟩
  apply h.urls hBegun url
  simpa [DiscoveryState.settle] using hMem

omit [DecidableEq Instance] [One Time] in
/-- What is read under a key that was found. -/
theorem Traced.value (h : Traced d before segment s m) (hSound : m.Sound d) {key url : String}
    (hKey : key ∈ m.listing.keys) (hMem : url ∈ m.value key) : Sourced d before segment s.now url := by
  obtain ⟨hUrl, due, hEntry, hLive⟩ := mem_value hMem
  obtain ⟨i, hSource, rfl, rfl⟩ := h.entries key url due hEntry (lt_of_le_of_lt h.later hLive)
  exact ⟨hUrl, i, hSource, hSound.matched _ hKey, rfl⟩

omit [DecidableEq Instance] [One Time] in
theorem Traced.goOn (h : Traced d before segment s m) {keys urls : List String}
    (hUrls : s.begun < m.begun → ∀ url ∈ urls, Sourced d before segment s.now url) :
    Traced d before segment s (m.goOn keys urls) := by
  have hLater : s.now ≤ (m.goOn keys urls).now := by
    rw [now_goOn]
    exact h.later
  have hEntries : ∀ key url due, (key, url, due) ∈ (m.goOn keys urls).store → s.now < due →
      ∃ i, Source d before segment s.now i ∧ key = (d.instances i).key ∧ url = (d.instances i).url := by
    rw [store_goOn]
    exact h.entries
  cases goOn_wentOn m keys urls with
  | further hKeys hListing hBuilt hPool =>
      refine ⟨hLater, hEntries, ?_, ?_⟩
      · rw [hListing, begun_goOn]
        exact hUrls
      · rw [hBuilt, hPool]
        exact h.pool
  | nothing hKeys hNone hListing hBuilt hPool =>
      refine ⟨hLater, hEntries, ?_, ?_⟩
      · rw [hListing]
        exact fun _ url hMem => absurd hMem List.not_mem_nil
      · rw [hBuilt, hPool]
        exact h.pool
  | refreshed hKeys hSome hListing hBuilt hPool =>
      refine ⟨hLater, hEntries, ?_, ?_⟩
      · rw [hListing]
        exact fun _ url hMem => absurd hMem List.not_mem_nil
      · rw [hBuilt, hPool]
        exact fun hBegun url hMem => hUrls hBegun url (List.mem_eraseDups.mp hMem)

theorem traced_step {a : TimedAction Instance Time} (h : Traced d before segment s m) (hSound : m.Sound d) (hMem : a ∈ segment)
    (hStep : discoveryStep d m a = some t) : Traced d before segment s t := by
  obtain ⟨now, action⟩ := a
  obtain ⟨hClock, hPerformed⟩ := step_performed hStep
  have hSettled := h.settle hClock
  have hSound' := hSound.settle now
  cases hPerformed with
  | kept hKept =>
      refine ⟨?_, ?_, ?_, ?_⟩
      · rw [hKept.now]
        exact hSettled.later
      · rw [hKept.store]
        exact hSettled.entries
      · rw [hKept.listing, hKept.begun]
        exact hSettled.urls
      · rw [hKept.builtBy, hKept.pool]
        exact hSettled.pool
  | @registered i =>
      refine ⟨hSettled.later, ?_, hSettled.urls, hSettled.pool⟩
      intro key url due hEntry hDue
      by_cases hTtl : 1 ≤ (d.instances i).ttlSeconds
      · rcases (mem_set hSound.nodup hTtl).mp hEntry with hNew | ⟨hOld, -⟩
        · cases hNew
          exact ⟨i, Or.inl ⟨now, hMem⟩, rfl, rfl⟩
        · exact hSettled.entries key url due hOld hDue
      · have hSame : (m.settle d now).store.set now (d.instances i).key (d.instances i).url
            (d.instances i).ttlSeconds = m.store := if_neg hTtl
        exact hSettled.entries key url due (hSame ▸ hEntry) hDue
  | @deregistered i =>
      refine ⟨hSettled.later, ?_, hSettled.urls, hSettled.pool⟩
      intro key url due hEntry hDue
      exact hSettled.entries key url due (Dict.mem_pop_iff.mp hEntry).1 hDue
  | began =>
      exact ⟨hSettled.later, hSettled.entries, fun _ url hNone => absurd hNone List.not_mem_nil, hSettled.pool⟩
  | @paged keys scan hScan =>
      exact ⟨hSettled.later, hSettled.entries, fun _ url hNone => absurd hNone List.not_mem_nil, hSettled.pool⟩
  | scanned =>
      apply hSettled.goOn
      exact fun _ url hNone => absurd hNone List.not_mem_nil
  | @read key keys urls hReading =>
      apply hSettled.goOn
      intro hBegun url hUrl
      rcases List.mem_append.mp hUrl with hOld | hNew
      · apply hSettled.urls hBegun url
        rw [hReading]
        exact hOld
      · apply hSettled.value hSound' _ hNew
        rw [hReading]
        exact List.mem_cons_self
  | failed =>
      exact ⟨hSettled.later, hSettled.entries, fun _ url hNone => absurd hNone List.not_mem_nil, hSettled.pool⟩
  | cancelled =>
      exact ⟨hSettled.later, hSettled.entries, fun _ url hNone => absurd hNone List.not_mem_nil, hSettled.pool⟩

theorem traced_run (hBefore : exec (discoveryStep d) (initial d start configured) before = some s)
    (hSegment : exec (discoveryStep d) s segment = some t) : Traced d before segment s t := by
  have hSound := sound_run hBefore
  have hKeep : ∀ m a m', m.Sound d ∧ Traced d before segment s m → a ∈ segment →
      discoveryStep d m a = some m' → m'.Sound d ∧ Traced d before segment s m' := by
    rintro m a m' ⟨hSound, hTraced⟩ hMem hStep
    exact ⟨sound_step hSound hStep, traced_step hTraced hSound hMem hStep⟩
  exact (invariant_along hKeep ⟨hSound, traced_start hSound hBefore⟩
    (along_of_forall (fun a hMem _ => hMem) s) hSegment).2

/-- Every instance of a pool that a listing begun in the segment has built registers in
the segment, or the entry it had before had not run out at its beginning. -/
theorem pool_sourced (hBefore : exec (discoveryStep d) (initial d start configured) before = some s)
    (hSegment : exec (discoveryStep d) s segment = some t) (hBuilt : s.begun < t.builtBy) {url : String}
    (hMem : url ∈ t.pool) : Sourced d before segment s.now url :=
  (traced_run hBefore hSegment).pool hBuilt url hMem

end Sources

section Retention

variable [DecidableEq Instance] [Add Time] [One Time] {d : Deployment Instance Time} {before segment : List (TimedAction Instance Time)}
  {s m t : DiscoveryState Instance Time} {start : Time} {configured : List String} {key url : String}

/-- The entry under a key has this URL, and it has not run out when the action is taken. -/
def Live (key url : String) (s : DiscoveryState Instance Time) (a : TimedAction Instance Time) : Prop :=
  ∃ due, (key, url, due) ∈ s.store ∧ a.now < due

/-- A listing that began after `s` has caught the entry, and so has the pool that it
built. -/
structure Caught (key url : String) (s t : DiscoveryState Instance Time) : Prop where
  scanning : s.begun < t.begun → ∀ scan, t.listing = .scanning scan → scan.Catches key
  reading : s.begun < t.begun → ∀ keys urls, t.listing = .reading keys urls → key ∈ keys ∨ url ∈ urls
  pool : s.begun < t.builtBy → url ∈ t.pool

omit [LinearOrder Time] [DecidableEq Instance] [Add Time] [One Time] in
theorem Caught.goOn (h : Caught key url s m) {keys urls : List String}
    (hNext : s.begun < m.begun → key ∈ keys ∨ url ∈ urls) : Caught key url s (m.goOn keys urls) := by
  cases goOn_wentOn m keys urls with
  | further hKeys hListing hBuilt hPool =>
      refine ⟨?_, ?_, ?_⟩
      · rw [hListing]
        exact fun _ scan hScan => absurd hScan (by simp)
      · rw [hListing, begun_goOn]
        intro hBegun keys' urls' hSame
        cases hSame
        exact hNext hBegun
      · rw [hBuilt, hPool]
        exact h.pool
  | nothing hKeys hNone hListing hBuilt hPool =>
      refine ⟨?_, ?_, ?_⟩
      · rw [hListing]
        exact fun _ scan hScan => absurd hScan (by simp)
      · rw [hListing]
        exact fun _ keys' urls' hSame => absurd hSame (by simp)
      · rw [hBuilt, hPool]
        exact h.pool
  | refreshed hKeys hSome hListing hBuilt hPool =>
      refine ⟨?_, ?_, ?_⟩
      · rw [hListing]
        exact fun _ scan hScan => absurd hScan (by simp)
      · rw [hListing]
        exact fun _ keys' urls' hSame => absurd hSame (by simp)
      · rw [hBuilt, hPool]
        intro hBegun
        rw [hKeys] at hNext
        exact List.mem_eraseDups.mpr ((hNext hBegun).resolve_left List.not_mem_nil)

omit [LinearOrder Time] [DecidableEq Instance] [Add Time] [One Time] in
theorem caught_start (hSound : s.Sound d) : Caught key url s s :=
  ⟨fun hBegun => absurd hBegun (lt_irrefl _), fun hBegun => absurd hBegun (lt_irrefl _),
    fun hBuilt => absurd hBuilt (Nat.not_lt.mpr hSound.counted)⟩

omit [DecidableEq Instance] [Add Time] [One Time] in
theorem Caught.settle (h : Caught key url s m) {now : Time} (hPresent : key ∈ present d { m with now := now }) :
    Caught key url s (m.settle d now) := by
  refine ⟨?_, ?_, h.pool⟩
  · intro hBegun scan hScan
    obtain ⟨earlier, hEarlier, rfl⟩ := Listing.observe_scanning hScan
    exact (h.scanning hBegun earlier hEarlier).observe (decide_eq_true hPresent)
  · intro hBegun keys urls hReading
    exact h.reading hBegun keys urls (Listing.observe_reading hReading)

theorem caught_step {a : TimedAction Instance Time} (hUrl : url ≠ "")
    (hGlob : d.server.glob (RedisServiceRegistry.membersPattern d.discoveryService) key = true)
    (h : Caught key url s m) (hNodup : (m.store.map Prod.fst).Nodup) (hLive : Live key url m a)
    (hStep : discoveryStep d m a = some t) : Caught key url s t := by
  obtain ⟨now, action⟩ := a
  obtain ⟨due, hEntry, hDue⟩ := hLive
  obtain ⟨-, hPerformed⟩ := step_performed hStep
  have hPresent : key ∈ present d { m with now := now } := mem_present_iff.mpr ⟨hGlob, url, due, hEntry, hDue⟩
  have hSettled := h.settle hPresent
  cases hPerformed with
  | kept hKept =>
      refine ⟨?_, ?_, ?_⟩
      · rw [hKept.begun, hKept.listing]
        exact hSettled.scanning
      · rw [hKept.begun, hKept.listing]
        exact hSettled.reading
      · rw [hKept.builtBy, hKept.pool]
        exact hSettled.pool
  | registered => exact ⟨hSettled.scanning, hSettled.reading, hSettled.pool⟩
  | deregistered => exact ⟨hSettled.scanning, hSettled.reading, hSettled.pool⟩
  | began =>
      refine ⟨?_, ?_, hSettled.pool⟩
      · rintro - scan hScan
        cases hScan
        exact Scan.catches_begin hPresent
      · exact fun _ keys urls hReading => absurd hReading (by simp)
  | @paged keys scan hScan =>
      refine ⟨?_, ?_, hSettled.pool⟩
      · intro hBegun scan' hSame
        cases hSame
        exact (hSettled.scanning hBegun scan hScan).page keys
      · exact fun _ keys urls hReading => absurd hReading (by simp)
  | scanned hScan hComplete =>
      apply hSettled.goOn
      exact fun hBegun => Or.inl ((hSettled.scanning hBegun _ hScan).found hComplete)
  | @read head keys urls hReading =>
      apply hSettled.goOn
      intro hBegun
      rcases hSettled.reading hBegun _ _ hReading with hKey | hOld
      · rcases List.mem_cons.mp hKey with rfl | hLater
        · exact Or.inr (List.mem_append_right urls (value_of_mem (s := m.settle d now) hNodup hUrl hEntry hDue))
        · exact Or.inl hLater
      · exact Or.inr (List.mem_append_left _ hOld)
  | failed => exact ⟨fun _ scan hScan => absurd hScan (by simp), fun _ keys urls hSame => absurd hSame (by simp), hSettled.pool⟩
  | cancelled =>
      exact ⟨fun _ scan hScan => absurd hScan (by simp), fun _ keys urls hSame => absurd hSame (by simp), hSettled.pool⟩

/-- An instance whose heartbeats come in time has its entry at every action. -/
theorem live_of_inTime (hKeys : d.KeysDiffer) {i : Instance} (hTtl : 1 ≤ (d.instances i).ttlSeconds)
    (hBefore : exec (discoveryStep d) (initial d start configured) before = some s)
    (hTime : d.InTime before segment i) :
    Along (discoveryStep d) (Live (d.instances i).key (d.instances i).url) s segment := by
  induction segment generalizing before s with
  | nil => trivial
  | cons a segment ih =>
      refine ⟨?_, fun m hStep => ?_⟩
      · obtain ⟨beaten, hRegistered, hYoung⟩ := hTime [] a segment rfl
        rw [List.append_nil] at hRegistered
        exact ⟨_, registered_entry hKeys hBefore hRegistered hTtl, hYoung⟩
      · have hLater : exec (discoveryStep d) (initial d start configured) (before ++ [a]) = some m :=
          exec_concat.mpr ⟨s, hBefore, hStep⟩
        apply ih hLater
        rintro front b back rfl
        rw [List.append_assoc]
        exact hTime (a :: front) b back rfl

theorem caught_run (hKeys : d.KeysDiffer) {i : Instance} (hTtl : 1 ≤ (d.instances i).ttlSeconds)
    (hUrl : (d.instances i).url ≠ "") (hScans : d.Scans i)
    (hBefore : exec (discoveryStep d) (initial d start configured) before = some s)
    (hTime : d.InTime before segment i) (hSegment : exec (discoveryStep d) s segment = some t) :
    Caught (d.instances i).key (d.instances i).url s t := by
  have hSound := sound_run hBefore
  have hKeep : ∀ m a m', m.Sound d ∧ Caught (d.instances i).key (d.instances i).url s m →
      Live (d.instances i).key (d.instances i).url m a → discoveryStep d m a = some m' →
      m'.Sound d ∧ Caught (d.instances i).key (d.instances i).url s m' := by
    rintro m a m' ⟨hSound, hCaught⟩ hLive hStep
    exact ⟨sound_step hSound hStep, caught_step hUrl hScans hCaught hSound.nodup hLive hStep⟩
  have hLive := live_of_inTime hKeys hTtl hBefore hTime
  exact (invariant_along hKeep ⟨hSound, caught_start hSound⟩ hLive hSegment).2

/-- An instance whose heartbeats come in time is in every pool that a listing builds
which began in that time. -/
theorem kept_in_pool (hKeys : d.KeysDiffer) {i : Instance} (hTtl : 1 ≤ (d.instances i).ttlSeconds)
    (hUrl : (d.instances i).url ≠ "") (hScans : d.Scans i)
    (hBefore : exec (discoveryStep d) (initial d start configured) before = some s)
    (hTime : d.InTime before segment i) (hSegment : exec (discoveryStep d) s segment = some t)
    (hBuilt : s.begun < t.builtBy) : (d.instances i).url ∈ t.pool :=
  (caught_run hKeys hTtl hUrl hScans hBefore hTime hSegment).pool hBuilt

end Retention

section Examples

/-- Two instances of a service. -/
def handover : Deployment (Fin 2) Int where
  server := documentedServer
  config := .default
  discoveryService := "users"
  instances i := if i = 0 then InstanceSettings.registration ⟨"users", 8100, "http://a:1", 30⟩ "a" "0a1b2c3d"
    else InstanceSettings.registration ⟨"users", 8100, "http://b:1", 30⟩ "b" "4e5f6a7b"

theorem keysDiffer_handover : handover.KeysDiffer := by
  unfold Deployment.KeysDiffer
  decide

/-- Both register, and the second one leaves. -/
def arrivals : List (TimedAction (Fin 2) Int) :=
  [⟨0, .start 0⟩, ⟨0, .beat 0 true⟩, ⟨5, .start 1⟩, ⟨5, .beat 1 true⟩, ⟨10, .beat 0 true⟩, ⟨12, .stop 1⟩,
    ⟨13, .leave 1 true⟩]

/-- The gateway lists what is left. -/
def relisting : List (TimedAction (Fin 2) Int) :=
  [⟨14, .list⟩, ⟨15, .page ["svc:reg:users:users-a-0a1b2c3d"]⟩, ⟨15, .listed⟩, ⟨16, .read⟩]

theorem inTime_relisting : handover.InTime arrivals relisting 0 := by
  have hRegistered : RegisteredAt arrivals (0 : Fin 2) 10 :=
    ⟨[⟨0, .start 0⟩, ⟨0, .beat 0 true⟩, ⟨5, .start 1⟩, ⟨5, .beat 1 true⟩], [⟨12, .stop 1⟩, ⟨13, .leave 1 true⟩], rfl,
      by simp [DiscoveryAction.Settles]⟩
  apply Deployment.inTime_of_quiet hRegistered
  simp [relisting, DiscoveryAction.Settles, handover, InstanceSettings.registration]

theorem pool_sourced_handover : ∃ s t, exec (discoveryStep handover) (initial handover 0 ["http://c:1"]) arrivals = some s ∧
    exec (discoveryStep handover) s relisting = some t ∧ ∀ url ∈ t.pool, Sourced handover arrivals relisting s.now url := by
  obtain ⟨s, t, hBefore, hSegment, hBuilt⟩ : ∃ s t,
      exec (discoveryStep handover) (initial handover 0 ["http://c:1"]) arrivals = some s ∧
        exec (discoveryStep handover) s relisting = some t ∧ s.begun < t.builtBy := ⟨_, _, rfl, rfl, by decide⟩
  exact ⟨s, t, hBefore, hSegment, fun url hMem => pool_sourced hBefore hSegment hBuilt hMem⟩

theorem kept_in_pool_handover : ∃ t, exec (discoveryStep handover) (initial handover 0 ["http://c:1"]) (arrivals ++ relisting) =
    some t ∧ "http://a:1" ∈ t.pool := by
  obtain ⟨s, t, hBefore, hSegment, hBuilt⟩ : ∃ s t,
      exec (discoveryStep handover) (initial handover 0 ["http://c:1"]) arrivals = some s ∧
        exec (discoveryStep handover) s relisting = some t ∧ s.begun < t.builtBy := ⟨_, _, rfl, rfl, by decide⟩
  refine ⟨t, exec_append.mpr ⟨s, hBefore, hSegment⟩, ?_⟩
  exact kept_in_pool (i := 0) keysDiffer_handover (by decide) (by decide) (by unfold Deployment.Scans; decide) hBefore
    inTime_relisting hSegment hBuilt

end Examples

end DiscoveryState

end ServicePlatform.Gateway
