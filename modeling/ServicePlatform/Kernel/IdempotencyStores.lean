import Mathlib.Algebra.Order.Monoid.Defs
import ServicePlatform.Kernel.IdempotencyStore
import ServicePlatform.Kernel.RegistryAgreement

/-! The two idempotency stores. `RedisIdempotencyStore` lets a key run out,
`InMemoryIdempotencyStore` keeps it for ever. Both are the store of the abstract model,
the first one with expiries at the moments at which keys fall due. -/
namespace ServicePlatform

open Storage Transition

inductive StoreCall (Time : Type*) where
  | get (key : String)
  | put (key value : String) (ttlSeconds : Option Time)
  | acquire (key : String) (ttlSeconds : Option Time)

/-- What a call returns. Redis refuses a time to live below one. -/
inductive StoreAnswer where
  | value (stored : Option String)
  | done
  | acquired (free : Bool)
  | refused
  deriving DecidableEq

/-- A call, and what the clock shows when it takes effect. -/
structure TimedStoreCall (Time : Type*) where
  now : Time
  call : StoreCall Time

/-- `ttl_seconds or self._default_ttl`. -/
def ttlOr {Time : Type*} [Zero Time] [DecidableEq Time] (ttlSeconds : Option Time) (defaultTtl : Time) : Time :=
  (ttlSeconds.filter fun ttl => ttl ≠ 0).getD defaultTtl

namespace StoreCall

variable {Time : Type*}

/-- The key whose presence the answer depends on. -/
def looksUp : StoreCall Time → Option String
  | .get key => some key
  | .put _ _ _ => none
  | .acquire key _ => some key

/-- The time to live that a call asks for, where it may write the key. -/
def asksFor [Zero Time] [DecidableEq Time] (defaultTtl : Time) (key : String) : StoreCall Time → Option Time
  | .get _ => none
  | .put other _ ttlSeconds => if other = key then some (ttlOr ttlSeconds defaultTtl) else none
  | .acquire other ttlSeconds => if other = key then some (ttlOr ttlSeconds defaultTtl) else none

end StoreCall

namespace RedisStore

variable {Time : Type*} [LinearOrder Time]

/-- `SET key value NX EX ttl`: the store that results, and whether the key was free. -/
def setNx [Add Time] [One Time] (store : RedisStore Time) (now : Time) (key value : String) (ttl : Time) :
    RedisStore Time × Bool :=
  match store.get now key with
  | some _ => (store, false)
  | none => (store.set now key value ttl, true)

/-- What a reader sees at a time. -/
def view (store : RedisStore Time) (now : Time) : IdempotencyStore String := fun key => store.get now key

/-- The key is in the store, and it does not run out before a time. -/
def HeldUntil (store : RedisStore Time) (key : String) (time : Time) : Prop :=
  ∃ value due, (key, value, due) ∈ store ∧ time ≤ due

/-- The key is in the store, but it has run out. -/
def Expired (store : RedisStore Time) (key : String) (now : Time) : Prop :=
  ∃ value due, (key, value, due) ∈ store ∧ due ≤ now

variable {store : RedisStore Time} {now time : Time} {key other value : String}

theorem get_eq_some_iff (hNodup : (store.map Prod.fst).Nodup) :
    store.get now key = some value ↔ ∃ due, (key, value, due) ∈ store ∧ now < due := by
  constructor
  · intro hGet
    obtain ⟨⟨key', value', due⟩, hFound, rfl⟩ := Option.map_eq_some_iff.mp hGet
    have hEntry := List.find?_some hFound
    simp only [decide_eq_true_eq] at hEntry
    obtain ⟨rfl, hLive⟩ := hEntry
    exact ⟨due, List.mem_of_find?_eq_some hFound, hLive⟩
  · rintro ⟨due, hMem, hLive⟩
    exact RedisServiceRegistry.get_of_mem hNodup hMem hLive

theorem get_eq_none_iff (hNodup : (store.map Prod.fst).Nodup) :
    store.get now key = none ↔ ∀ value due, (key, value, due) ∈ store → due ≤ now := by
  rw [Option.eq_none_iff_forall_not_mem]
  constructor
  · intro hNone value due hMem
    by_contra hLive
    exact hNone value ((get_eq_some_iff hNodup).mpr ⟨due, hMem, not_le.mp hLive⟩)
  · intro hDue value hGet
    obtain ⟨due, hMem, hLive⟩ := (get_eq_some_iff hNodup).mp hGet
    exact absurd hLive (not_lt.mpr (hDue value due hMem))

section Set

variable [Add Time] [One Time] {ttl : Time}

theorem nodup_set (hNodup : (store.map Prod.fst).Nodup) : ((store.set now key value ttl).map Prod.fst).Nodup := by
  unfold set
  split
  · exact Dict.nodup_setItem hNodup
  · exact hNodup

theorem mem_set_iff (hNodup : (store.map Prod.fst).Nodup) (hTtl : 1 ≤ ttl) {entry : String × String × Time} :
    entry ∈ store.set now key value ttl ↔ entry = (key, value, now + ttl) ∨ entry ∈ store ∧ entry.1 ≠ key := by
  rw [set, if_pos hTtl]
  exact Dict.mem_setItem_iff hNodup

theorem get_set (hNodup : (store.map Prod.fst).Nodup) (hTtl : 1 ≤ ttl) (hLater : now < now + ttl) :
    (store.set now key value ttl).get now other = if other = key then some value else store.get now other := by
  by_cases hKey : other = key
  · subst hKey
    rw [if_pos rfl]
    exact (get_eq_some_iff (nodup_set hNodup)).mpr
      ⟨now + ttl, (mem_set_iff hNodup hTtl).mpr (Or.inl rfl), hLater⟩
  · rw [if_neg hKey]
    apply Option.ext
    intro found
    rw [get_eq_some_iff (nodup_set hNodup), get_eq_some_iff hNodup]
    simp [mem_set_iff hNodup hTtl, hKey]

end Set

end RedisStore

namespace RedisIdempotencyStore

variable {Time : Type*} [AddCommMonoid Time] [LinearOrder Time] [One Time]

/-- The store after a call, and what the call returns. -/
def call (defaultTtl : Time) (store : RedisStore Time) (c : TimedStoreCall Time) : RedisStore Time × StoreAnswer :=
  match c.call with
  | .get key => (store, .value (store.get c.now key))
  | .put key value ttlSeconds =>
      if 1 ≤ ttlOr ttlSeconds defaultTtl then (store.set c.now key value (ttlOr ttlSeconds defaultTtl), .done)
      else (store, .refused)
  | .acquire key ttlSeconds =>
      if 1 ≤ ttlOr ttlSeconds defaultTtl then
        let (store, free) := store.setNx c.now key "processing" (ttlOr ttlSeconds defaultTtl)
        (store, .acquired free)
      else (store, .refused)

/-- The store after some calls, and what they returned. -/
def run (defaultTtl : Time) : RedisStore Time → List (TimedStoreCall Time) → RedisStore Time × List StoreAnswer
  | store, [] => (store, [])
  | store, c :: calls =>
      let (store, answer) := call defaultTtl store c
      let (store, answers) := run defaultTtl store calls
      (store, answer :: answers)

theorem run_cons (defaultTtl : Time) (store : RedisStore Time) (c : TimedStoreCall Time)
    (calls : List (TimedStoreCall Time)) : run defaultTtl store (c :: calls) =
      ((run defaultTtl (call defaultTtl store c).1 calls).1,
        (call defaultTtl store c).2 :: (run defaultTtl (call defaultTtl store c).1 calls).2) := rfl

end RedisIdempotencyStore

namespace InMemoryIdempotencyStore

variable {Time : Type*}

/-- `_data` after a call, and what the call returns. -/
def call (data : Dict String String) : StoreCall Time → Dict String String × StoreAnswer
  | .get key => (data, .value (Dict.get? data key))
  | .put key value _ => (Dict.setItem data key value, .done)
  | .acquire key _ =>
      if (Dict.get? data key).isSome then (data, .acquired false)
      else (Dict.setItem data key "processing", .acquired true)

def run : Dict String String → List (StoreCall Time) → Dict String String × List StoreAnswer
  | data, [] => (data, [])
  | data, c :: calls =>
      let (data, answer) := call data c
      let (data, answers) := run data calls
      (data, answer :: answers)

theorem run_cons (data : Dict String String) (c : StoreCall Time) (calls : List (StoreCall Time)) :
    run data (c :: calls) = ((run (call data c).1 calls).1, (call data c).2 :: (run (call data c).1 calls).2) := rfl

end InMemoryIdempotencyStore

/-- A step of the abstract store: a call, or the end of a key. -/
inductive StoreStep (Time : Type*) where
  | call (call : StoreCall Time)
  | expire (key : String)

def StoreStep.call? {Time : Type*} : StoreStep Time → Option (StoreCall Time)
  | .call made => some made
  | .expire _ => none

namespace IdempotencyStore

variable {Time : Type*}

def answer (store : IdempotencyStore String) : StoreCall Time → IdempotencyStore String × StoreAnswer
  | .get key => (store, .value (store.get key))
  | .put key value _ => (store.put key value, .done)
  | .acquire key _ => ((store.acquire key "processing").2, .acquired (store.acquire key "processing").1)

def run : IdempotencyStore String → List (StoreStep Time) → IdempotencyStore String × List StoreAnswer
  | store, [] => (store, [])
  | store, .call c :: steps =>
      let (store, answer) := store.answer c
      let (store, answers) := run store steps
      (store, answer :: answers)
  | store, .expire key :: steps => run (store.expire key) steps

end IdempotencyStore

section Refinement

namespace IdempotencyStore

variable {Time : Type*} {store : IdempotencyStore String} {key : String}

theorem answer_free (h : store.get key = none) (ttl : Option Time) :
    store.answer (.acquire key ttl) = (store.put key "processing", .acquired true) := by
  rw [answer, acquire_free h]

theorem answer_taken (h : store.get key ≠ none) (ttl : Option Time) :
    store.answer (.acquire key ttl) = (store, .acquired false) := by
  rw [answer, acquire_taken h]

theorem run_append (steps more : List (StoreStep Time)) : (store.run (steps ++ more)).2 =
    (store.run steps).2 ++ ((store.run steps).1.run more).2 := by
  induction steps generalizing store with
  | nil => rfl
  | cons step steps ih =>
      cases step with
      | call c => exact congrArg (List.cons (store.answer c).2) ih
      | expire key => exact ih

/-- A run that only lets keys end. -/
theorem run_expire (keys : List String) : store.run (keys.map fun key => (.expire key : StoreStep Time)) =
    (keys.foldl expire store, []) := by
  induction keys generalizing store with
  | nil => rfl
  | cons key keys ih => exact ih

theorem get_foldl_expire (keys : List String) : (keys.foldl expire store).get key =
    if key ∈ keys then none else store.get key := by
  induction keys generalizing store with
  | nil => simp
  | cons other keys ih =>
      rw [List.foldl_cons, ih, get_expire]
      by_cases hKey : key = other
      · simp [hKey]
      · simp [hKey]

end IdempotencyStore

namespace InMemoryIdempotencyStore

/-- What the abstract store has for the dictionary. -/
def view (data : Dict String String) : IdempotencyStore String := fun key => Dict.get? data key

theorem view_setItem (data : Dict String String) (key value : String) :
    view (Dict.setItem data key value) = (view data).put key value := by
  funext other
  rw [IdempotencyStore.put, Function.update_apply]
  by_cases hKey : other = key
  · rw [if_pos hKey, hKey]
    exact Dict.get?_setItem_self
  · rw [if_neg hKey]
    exact Dict.get?_setItem_of_ne (Ne.symm hKey)

/-- The dictionary answers as the abstract store does. -/
theorem call_answer {Time : Type*} (data : Dict String String) (c : StoreCall Time) :
    view (call data c).1 = ((view data).answer c).1 ∧ (call data c).2 = ((view data).answer c).2 := by
  cases c with
  | get key => exact ⟨rfl, rfl⟩
  | put key value ttl => exact ⟨view_setItem data key value, rfl⟩
  | acquire key ttl =>
      by_cases hHeld : Dict.get? data key = none
      · have hCall : call data (.acquire key ttl) = (Dict.setItem data key "processing", .acquired true) := by
          simp [call, hHeld]
        have hFree : (view data).get key = none := hHeld
        rw [hCall, IdempotencyStore.answer_free hFree]
        exact ⟨view_setItem data key "processing", rfl⟩
      · have hCall : call data (.acquire key ttl) = (data, .acquired false) := by
          simp [call, Option.isSome_iff_ne_none, hHeld]
        have hTaken : (view data).get key ≠ none := hHeld
        rw [hCall, IdempotencyStore.answer_taken hTaken]
        exact ⟨rfl, rfl⟩

end InMemoryIdempotencyStore

namespace RedisIdempotencyStore

variable {Time : Type*} [Ring Time] [LinearOrder Time] [IsStrictOrderedRing Time] {defaultTtl : Time}
  {store : RedisStore Time} {now later : Time} {key value : String} {ttl : Option Time}

/-- Redis takes the time to live of the call. -/
def Accepts (defaultTtl : Time) (c : TimedStoreCall Time) : Prop :=
  ∀ key, ∀ ttl ∈ c.call.asksFor defaultTtl key, 1 ≤ ttl

omit [IsStrictOrderedRing Time] in
theorem call_put (h : 1 ≤ ttlOr ttl defaultTtl) : call defaultTtl store ⟨now, .put key value ttl⟩ =
    (store.set now key value (ttlOr ttl defaultTtl), .done) := if_pos h

omit [IsStrictOrderedRing Time] in
theorem call_free (h : 1 ≤ ttlOr ttl defaultTtl) (hFree : store.get now key = none) :
    call defaultTtl store ⟨now, .acquire key ttl⟩ =
      (store.set now key "processing" (ttlOr ttl defaultTtl), .acquired true) := by
  simp [call, h, RedisStore.setNx, hFree]

omit [IsStrictOrderedRing Time] in
theorem call_taken (h : 1 ≤ ttlOr ttl defaultTtl) (hTaken : store.get now key ≠ none) :
    call defaultTtl store ⟨now, .acquire key ttl⟩ = (store, .acquired false) := by
  obtain ⟨held, hHeld⟩ := Option.ne_none_iff_exists'.mp hTaken
  simp [call, h, RedisStore.setNx, hHeld]

omit [IsStrictOrderedRing Time] in
theorem nodup_call (hNodup : (store.map Prod.fst).Nodup) (c : TimedStoreCall Time) :
    ((call defaultTtl store c).1.map Prod.fst).Nodup := by
  obtain ⟨now, made⟩ := c
  cases made with
  | get key => exact hNodup
  | put key value ttl =>
      by_cases hTtl : 1 ≤ ttlOr ttl defaultTtl
      · rw [call_put hTtl]
        exact RedisStore.nodup_set hNodup
      · simpa [call, hTtl] using hNodup
  | acquire key ttl =>
      by_cases hTtl : 1 ≤ ttlOr ttl defaultTtl
      · by_cases hFree : store.get now key = none
        · rw [call_free hTtl hFree]
          exact RedisStore.nodup_set hNodup
        · rw [call_taken hTtl hFree]
          exact hNodup
      · simpa [call, hTtl] using hNodup

theorem view_set (hNodup : (store.map Prod.fst).Nodup) {lifetime : Time} (hTtl : 1 ≤ lifetime) :
    (store.set now key value lifetime).view now = (store.view now).put key value := by
  have hLater : now < now + lifetime := lt_add_of_pos_right now (lt_of_lt_of_le zero_lt_one hTtl)
  funext other
  rw [IdempotencyStore.put, Function.update_apply]
  exact RedisStore.get_set hNodup hTtl hLater

/-- At the time of a call Redis answers as the abstract store does. -/
theorem call_answer (hNodup : (store.map Prod.fst).Nodup) {c : TimedStoreCall Time} (hAccepts : Accepts defaultTtl c) :
    (call defaultTtl store c).1.view c.now = ((store.view c.now).answer c.call).1 ∧
      (call defaultTtl store c).2 = ((store.view c.now).answer c.call).2 := by
  obtain ⟨now, made⟩ := c
  cases made with
  | get key => exact ⟨rfl, rfl⟩
  | put key value ttl =>
      have hTtl : 1 ≤ ttlOr ttl defaultTtl := hAccepts key _ (by simp [StoreCall.asksFor])
      rw [call_put hTtl]
      exact ⟨view_set hNodup hTtl, rfl⟩
  | acquire key ttl =>
      have hTtl : 1 ≤ ttlOr ttl defaultTtl := hAccepts key _ (by simp [StoreCall.asksFor])
      by_cases hFree : store.get now key = none
      · have hView : (store.view now).get key = none := hFree
        rw [call_free hTtl hFree, IdempotencyStore.answer_free hView]
        exact ⟨view_set hNodup hTtl, rfl⟩
      · have hView : (store.view now).get key ≠ none := hFree
        rw [call_taken hTtl hFree, IdempotencyStore.answer_taken hView]
        exact ⟨rfl, rfl⟩

/-- The keys that have run out by now. -/
def dueKeys (store : RedisStore Time) (now : Time) : List String :=
  (store.filter fun entry => entry.2.2 ≤ now).map Prod.fst

omit [Ring Time] [IsStrictOrderedRing Time] in
/-- While time passes, the abstract store loses the keys that run out. -/
theorem view_later (hNodup : (store.map Prod.fst).Nodup) (hClock : now ≤ later) :
    store.view later = (dueKeys store later).foldl IdempotencyStore.expire (store.view now) := by
  funext key
  have hGet : ((dueKeys store later).foldl IdempotencyStore.expire (store.view now)) key =
      if key ∈ dueKeys store later then none else store.get now key := IdempotencyStore.get_foldl_expire _
  rw [hGet]
  by_cases hDue : key ∈ dueKeys store later
  · rw [if_pos hDue]
    obtain ⟨⟨key', value, due⟩, hEntry, rfl⟩ := List.mem_map.mp hDue
    obtain ⟨hMem, hPast⟩ := List.mem_filter.mp hEntry
    simp only [decide_eq_true_eq] at hPast
    refine (RedisStore.get_eq_none_iff hNodup).mpr fun value' due' hMem' => ?_
    cases List.inj_on_of_nodup_map hNodup hMem hMem' rfl
    exact hPast
  · rw [if_neg hDue]
    apply Option.ext
    intro value
    show store.get later key = some value ↔ store.get now key = some value
    rw [RedisStore.get_eq_some_iff hNodup, RedisStore.get_eq_some_iff hNodup]
    refine exists_congr fun due => and_congr_right fun hMem => ?_
    constructor
    · exact fun hLive => lt_of_le_of_lt hClock hLive
    · intro _
      by_contra hPast
      exact hDue (List.mem_map.mpr ⟨_, List.mem_filter.mpr ⟨hMem, by simpa using hPast⟩, rfl⟩)

/-- A run of Redis is a run of the abstract store, with the same calls and answers, in
which keys end between the calls. -/
theorem run_refines {calls : List (TimedStoreCall Time)} (hClock : calls.Pairwise fun c other => c.now ≤ other.now)
    (hAccepts : ∀ c ∈ calls, Accepts defaultTtl c) (hNodup : (store.map Prod.fst).Nodup)
    (hNow : ∀ c ∈ calls, now ≤ c.now) : ∃ steps : List (StoreStep Time),
      steps.filterMap StoreStep.call? = calls.map TimedStoreCall.call ∧
        ((store.view now).run steps).2 = (run defaultTtl store calls).2 := by
  induction calls generalizing store now with
  | nil => exact ⟨[], rfl, rfl⟩
  | cons c calls ih =>
      obtain ⟨hFirst, hRest⟩ := List.pairwise_cons.mp hClock
      obtain ⟨hHere, hOthers⟩ := List.forall_mem_cons.mp hAccepts
      obtain ⟨hView, hAnswer⟩ := call_answer hNodup hHere
      obtain ⟨steps, hCalls, hAnswers⟩ := ih hRest hOthers (nodup_call hNodup c) hFirst
      refine ⟨(dueKeys store c.now).map .expire ++ .call c.call :: steps, ?_, ?_⟩
      · rw [List.filterMap_append, List.filterMap_cons]
        simp [StoreStep.call?, hCalls, List.filterMap_map, Function.comp_def]
      · rw [IdempotencyStore.run_append, IdempotencyStore.run_expire,
          ← view_later hNodup (hNow c List.mem_cons_self), List.nil_append]
        rw [run_cons, ← hAnswers, hView, hAnswer]
        rfl

/-- A run in which a key ends and is acquired again. -/
def renewedKey : List (TimedStoreCall Int) :=
  [⟨0, .acquire "evt:user.created:1" (some 60)⟩, ⟨5, .put "evt:user.created:1" "done" none⟩,
    ⟨10, .acquire "evt:user.created:1" (some 60)⟩, ⟨3605, .acquire "evt:user.created:1" (some 60)⟩]

theorem accepts_renewedKey : ∀ c ∈ renewedKey, Accepts 3600 c := by
  unfold Accepts
  simp [renewedKey, StoreCall.asksFor, ttlOr, Option.filter]

theorem run_refines_renewedKey : ∃ steps : List (StoreStep Int),
    steps.filterMap StoreStep.call? = renewedKey.map TimedStoreCall.call ∧
      ((RedisStore.view ([] : RedisStore Int) 0).run steps).2 = (run 3600 [] renewedKey).2 :=
  run_refines (by decide) accepts_renewedKey List.nodup_nil (by decide)

end RedisIdempotencyStore

end Refinement

namespace RedisIdempotencyStore

variable {Time : Type*} [Ring Time] [LinearOrder Time] [IsStrictOrderedRing Time] {defaultTtl : Time}
  {store : RedisStore Time} {key : String}

section Window

variable {time : Time}

omit [IsStrictOrderedRing Time] in
/-- A call keeps a key in the store for as long as it lasted, where it does not ask for
less. -/
theorem heldUntil_call (hNodup : (store.map Prod.fst).Nodup) {c : TimedStoreCall Time}
    (hHeld : store.HeldUntil key time) (hLasting : ∀ ttl ∈ c.call.asksFor defaultTtl key, time ≤ c.now + ttl) :
    (call defaultTtl store c).1.HeldUntil key time := by
  obtain ⟨value, due, hMem, hDue⟩ := hHeld
  -- what a `SET` leaves under the key
  have hSet : ∀ other value' lifetime, (other = key → time ≤ c.now + lifetime) →
      (store.set c.now other value' lifetime).HeldUntil key time := by
    intro other value' lifetime hLater
    by_cases hTtl : 1 ≤ lifetime
    · by_cases hKey : other = key
      · refine ⟨value', c.now + lifetime, (RedisStore.mem_set_iff hNodup hTtl).mpr (Or.inl ?_), hLater hKey⟩
        rw [hKey]
      · exact ⟨value, due, (RedisStore.mem_set_iff hNodup hTtl).mpr (Or.inr ⟨hMem, Ne.symm hKey⟩), hDue⟩
    · rw [RedisStore.set, if_neg hTtl]
      exact ⟨value, due, hMem, hDue⟩
  obtain ⟨now, made⟩ := c
  cases made with
  | get other => exact ⟨value, due, hMem, hDue⟩
  | put other value' ttl =>
      by_cases hTtl : 1 ≤ ttlOr ttl defaultTtl
      · rw [call_put hTtl]
        exact hSet other value' _ fun hKey => hLasting _ (by simp [StoreCall.asksFor, hKey])
      · simpa [call, hTtl] using ⟨value, due, hMem, hDue⟩
  | acquire other ttl =>
      by_cases hTtl : 1 ≤ ttlOr ttl defaultTtl
      · by_cases hFree : store.get now other = none
        · rw [call_free hTtl hFree]
          exact hSet other "processing" _ fun hKey => hLasting _ (by simp [StoreCall.asksFor, hKey])
        · rw [call_taken hTtl hFree]
          exact ⟨value, due, hMem, hDue⟩
      · simpa [call, hTtl] using ⟨value, due, hMem, hDue⟩

omit [IsStrictOrderedRing Time] in
/-- Who acquires a key finds it free, and leaves it held. -/
theorem acquired_iff {now : Time} {ttl : Option Time} :
    (call defaultTtl store ⟨now, .acquire key ttl⟩).2 = .acquired true ↔
      1 ≤ ttlOr ttl defaultTtl ∧ store.get now key = none := by
  by_cases hTtl : 1 ≤ ttlOr ttl defaultTtl
  · by_cases hFree : store.get now key = none
    · simp [call_free hTtl hFree, hTtl, hFree]
    · simp [call_taken hTtl hFree, hFree]
  · simp [call, hTtl]

omit [IsStrictOrderedRing Time] in
theorem nodup_run (hNodup : (store.map Prod.fst).Nodup) (calls : List (TimedStoreCall Time)) :
    ((run defaultTtl store calls).1.map Prod.fst).Nodup := by
  induction calls generalizing store with
  | nil => exact hNodup
  | cons c calls ih => exact ih (nodup_call hNodup c)

omit [IsStrictOrderedRing Time] in
theorem heldUntil_run (hNodup : (store.map Prod.fst).Nodup) {calls : List (TimedStoreCall Time)}
    (hHeld : store.HeldUntil key time)
    (hLasting : ∀ c ∈ calls, ∀ ttl ∈ c.call.asksFor defaultTtl key, time ≤ c.now + ttl) :
    (run defaultTtl store calls).1.HeldUntil key time := by
  induction calls generalizing store with
  | nil => exact hHeld
  | cons c calls ih =>
      obtain ⟨hHere, hRest⟩ := List.forall_mem_cons.mp hLasting
      exact ih (nodup_call hNodup c) (heldUntil_call hNodup hHeld hHere) hRest

/-- Where nobody asks for less than some time to live, two callers that both acquire a
key do so that time apart, whatever is called in between. -/
theorem acquires_apart (hNodup : (store.map Prod.fst).Nodup) {start later lifetime : Time} {ttl ttl' : Option Time}
    {between : List (TimedStoreCall Time)} (hClock : ∀ c ∈ between, start ≤ c.now)
    (hFirst : (call defaultTtl store ⟨start, .acquire key ttl⟩).2 = .acquired true)
    (hLasting : ∀ c ∈ ⟨start, .acquire key ttl⟩ :: between, ∀ ttl ∈ c.call.asksFor defaultTtl key, lifetime ≤ ttl)
    (hSecond : (call defaultTtl (run defaultTtl (call defaultTtl store ⟨start, .acquire key ttl⟩).1 between).1
      ⟨later, .acquire key ttl'⟩).2 = .acquired true) : start + lifetime ≤ later := by
  obtain ⟨hTtl, hFree⟩ := acquired_iff.mp hFirst
  obtain ⟨hHere, hBetween⟩ := List.forall_mem_cons.mp hLasting
  have hAsked : lifetime ≤ ttlOr ttl defaultTtl := hHere _ (by simp [StoreCall.asksFor])
  have hNodup' : ((call defaultTtl store ⟨start, .acquire key ttl⟩).1.map Prod.fst).Nodup := nodup_call hNodup _
  have hHeld : (call defaultTtl store ⟨start, .acquire key ttl⟩).1.HeldUntil key (start + lifetime) := by
    rw [call_free hTtl hFree]
    exact ⟨"processing", start + ttlOr ttl defaultTtl, (RedisStore.mem_set_iff hNodup hTtl).mpr (Or.inl rfl),
      add_le_add_right hAsked start⟩
  have hStill := heldUntil_run hNodup' hHeld fun c hMem ttl hAsks =>
    add_le_add (hClock c hMem) (hBetween c hMem ttl hAsks)
  obtain ⟨value, due, hMem, hDue⟩ := hStill
  obtain ⟨-, hFree'⟩ := acquired_iff.mp hSecond
  exact hDue.trans ((RedisStore.get_eq_none_iff (nodup_run hNodup' between)).mp hFree' value due hMem)

/-- Two consumers take the same event, the second one when its key has run out. In
between the first one is done, and a third one finds the key taken. -/
def firstConsumer : RedisStore Int × StoreAnswer :=
  call 3600 [] ⟨0, .acquire "evt:user.created:1" (some 86400)⟩

def meanwhile : RedisStore Int × List StoreAnswer :=
  run 3600 firstConsumer.1
    [⟨5, .put "evt:user.created:1" "done" (some 86400)⟩, ⟨9, .acquire "evt:user.created:1" (some 86400)⟩]

def nextConsumer : RedisStore Int × StoreAnswer :=
  call 3600 meanwhile.1 ⟨90000, .acquire "evt:user.created:1" (some 86400)⟩

theorem acquires_apart_day : firstConsumer.2 = .acquired true ∧ meanwhile.2 = [.done, .acquired false] ∧
    nextConsumer.2 = .acquired true ∧ (0 : Int) + 86400 ≤ 90000 := by
  have hFirst : firstConsumer.2 = .acquired true := by decide
  have hSecond : nextConsumer.2 = .acquired true := by decide
  have hNodup : (([] : RedisStore Int).map Prod.fst).Nodup := List.nodup_nil
  refine ⟨hFirst, by decide, hSecond, acquires_apart hNodup ?_ hFirst ?_ hSecond⟩
  · decide
  · simp [StoreCall.asksFor, ttlOr, Option.filter]

end Window

section Agreement

/-- The dictionary has the values of the store, whether or not they have run out. -/
structure SameValues (data : Dict String String) (store : RedisStore Time) : Prop where
  nodup : (store.map Prod.fst).Nodup
  values : ∀ key, Dict.get? data key = (Dict.get? store key).map Prod.fst

omit [Ring Time] [IsStrictOrderedRing Time] in
/-- A key that has not run out is found in both, or in neither. -/
theorem SameValues.get_eq_iff {data : Dict String String} (h : SameValues data store) {now : Time} :
    Dict.get? data key = store.get now key ↔ ¬ store.Expired key now := by
  rw [h.values key]
  cases hEntry : Dict.get? store key with
  | none =>
      have hAbsent : ∀ value due, (key, value, due) ∉ store := by
        intro value due hMem
        rw [Dict.get?_of_mem h.nodup hMem] at hEntry
        cases hEntry
      refine iff_of_true ?_ fun ⟨value, due, hMem, _⟩ => hAbsent value due hMem
      exact ((RedisStore.get_eq_none_iff h.nodup).mpr fun value due hMem => absurd hMem (hAbsent value due)).symm
  | some held =>
      obtain ⟨value, due⟩ := held
      have hMem := Dict.mem_of_get? hEntry
      constructor
      · rintro hSame ⟨value', due', hMem', hPast⟩
        have hGet : store.get now key = some value := hSame.symm
        obtain ⟨due'', hMem'', hLive⟩ := (RedisStore.get_eq_some_iff h.nodup).mp hGet
        cases List.inj_on_of_nodup_map h.nodup hMem' hMem'' rfl
        exact absurd hLive (not_lt.mpr hPast)
      · intro hFresh
        have hLive : now < due := by
          by_contra hPast
          exact hFresh ⟨value, due, hMem, not_lt.mp hPast⟩
        exact (RedisServiceRegistry.get_of_mem h.nodup hMem hLive).symm

omit [Ring Time] [IsStrictOrderedRing Time] in
theorem SameValues.get_of_live {data : Dict String String} (h : SameValues data store) {now : Time}
    (hLive : store.get now key ≠ none) : Dict.get? data key = store.get now key := by
  obtain ⟨value, hValue⟩ := Option.ne_none_iff_exists'.mp hLive
  obtain ⟨due, hMem, -⟩ := (RedisStore.get_eq_some_iff h.nodup).mp hValue
  rw [h.values key, Dict.get?_of_mem h.nodup hMem, hValue]
  rfl

omit [IsStrictOrderedRing Time] in
theorem SameValues.set {data : Dict String String} (h : SameValues data store) {now lifetime : Time} (hTtl : 1 ≤ lifetime)
    (key value : String) : SameValues (Dict.setItem data key value) (store.set now key value lifetime) := by
  refine ⟨RedisStore.nodup_set h.nodup, fun other => ?_⟩
  rw [RedisStore.set, if_pos hTtl]
  by_cases hKey : key = other
  · rw [hKey, Dict.get?_setItem_self, Dict.get?_setItem_self]
    rfl
  · rw [Dict.get?_setItem_of_ne hKey, Dict.get?_setItem_of_ne hKey]
    exact h.values other

omit [IsStrictOrderedRing Time] in
/-- The answers to one call are the same exactly when the key it looks up has not run
out, and then the stores stay alike. -/
theorem SameValues.call {data : Dict String String} (h : SameValues data store) {c : TimedStoreCall Time}
    (hAccepts : Accepts defaultTtl c) :
    ((InMemoryIdempotencyStore.call data c.call).2 = (RedisIdempotencyStore.call defaultTtl store c).2 ↔
      ∀ key, c.call.looksUp = some key → ¬ store.Expired key c.now) ∧
    ((InMemoryIdempotencyStore.call data c.call).2 = (RedisIdempotencyStore.call defaultTtl store c).2 →
      SameValues (InMemoryIdempotencyStore.call data c.call).1 (RedisIdempotencyStore.call defaultTtl store c).1) := by
  obtain ⟨now, made⟩ := c
  cases made with
  | get key =>
      refine ⟨?_, fun _ => h⟩
      simp only [InMemoryIdempotencyStore.call, RedisIdempotencyStore.call, StoreAnswer.value.injEq, h.get_eq_iff,
        StoreCall.looksUp, Option.some.injEq, forall_eq']
  | put key value ttl =>
      have hTtl : 1 ≤ ttlOr ttl defaultTtl := hAccepts key _ (by simp [StoreCall.asksFor])
      rw [call_put hTtl]
      exact ⟨by simp [InMemoryIdempotencyStore.call, StoreCall.looksUp], fun _ => h.set hTtl key value⟩
  | acquire key ttl =>
      have hTtl : 1 ≤ ttlOr ttl defaultTtl := hAccepts key _ (by simp [StoreCall.asksFor])
      have hExpired : (∀ key', (StoreCall.acquire key ttl).looksUp = some key' → ¬ store.Expired key' now) ↔
          Dict.get? data key = store.get now key := by
        rw [h.get_eq_iff]
        simp [StoreCall.looksUp]
      rw [hExpired]
      by_cases hFree : store.get now key = none
      · rw [call_free hTtl hFree, hFree]
        by_cases hAbsent : Dict.get? data key = none
        · have hCall : InMemoryIdempotencyStore.call data (.acquire key ttl) =
              (Dict.setItem data key "processing", .acquired true) := by
            simp [InMemoryIdempotencyStore.call, hAbsent]
          rw [hCall]
          exact ⟨iff_of_true rfl hAbsent, fun _ => h.set hTtl key "processing"⟩
        · have hCall : InMemoryIdempotencyStore.call data (.acquire key ttl) = (data, .acquired false) := by
            simp [InMemoryIdempotencyStore.call, Option.isSome_iff_ne_none, hAbsent]
          rw [hCall]
          exact ⟨iff_of_false (by simp) hAbsent, fun hSame => absurd hSame (by simp)⟩
      · have hHeld := h.get_of_live hFree
        have hCall : InMemoryIdempotencyStore.call data (.acquire key ttl) = (data, .acquired false) := by
          simp [InMemoryIdempotencyStore.call, Option.isSome_iff_ne_none, hHeld, hFree]
        rw [call_taken hTtl hFree, hCall]
        exact ⟨iff_of_true rfl hHeld, fun _ => h⟩

omit [IsStrictOrderedRing Time] in
theorem SameValues.run {data : Dict String String} (h : SameValues data store) {calls : List (TimedStoreCall Time)}
    (hAccepts : ∀ c ∈ calls, Accepts defaultTtl c) :
    (InMemoryIdempotencyStore.run data (calls.map TimedStoreCall.call)).2 =
        (RedisIdempotencyStore.run defaultTtl store calls).2 ↔
      Along (fun store c => some (RedisIdempotencyStore.call defaultTtl store c).1)
        (fun store c => ∀ key, c.call.looksUp = some key → ¬ store.Expired key c.now) store calls := by
  induction calls generalizing data store with
  | nil => exact iff_of_true rfl trivial
  | cons c calls ih =>
      obtain ⟨hHere, hRest⟩ := List.forall_mem_cons.mp hAccepts
      obtain ⟨hAnswer, hStores⟩ := h.call hHere
      rw [List.map_cons, InMemoryIdempotencyStore.run_cons, run_cons, List.cons_eq_cons, hAnswer]
      refine and_congr_right fun hFresh => ?_
      rw [ih (hStores (hAnswer.mpr hFresh)) hRest]
      simp

omit [IsStrictOrderedRing Time] in
/-- The two stores answer a sequence of calls alike exactly when no `get` and no `acquire`
comes to a key that has run out. -/
theorem stores_agree_iff {calls : List (TimedStoreCall Time)} (hAccepts : ∀ c ∈ calls, Accepts defaultTtl c) :
    (InMemoryIdempotencyStore.run [] (calls.map TimedStoreCall.call)).2 = (run defaultTtl [] calls).2 ↔
      Along (fun store c => some (call defaultTtl store c).1)
        (fun store c => ∀ key, c.call.looksUp = some key → ¬ store.Expired key c.now) [] calls := by
  have hEmpty : SameValues ([] : Dict String String) ([] : RedisStore Time) := ⟨List.nodup_nil, fun key => rfl⟩
  exact hEmpty.run hAccepts

theorem stores_agree_iff_renewedKey :
    (InMemoryIdempotencyStore.run [] (renewedKey.map TimedStoreCall.call)).2 = (run 3600 [] renewedKey).2 ↔
      Along (fun store c => some (call 3600 store c).1)
        (fun store c => ∀ key, c.call.looksUp = some key → ¬ store.Expired key c.now) [] renewedKey :=
  stores_agree_iff accepts_renewedKey

end Agreement

end RedisIdempotencyStore

end ServicePlatform
