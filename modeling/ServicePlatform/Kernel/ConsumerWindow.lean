import ServicePlatform.Kernel.ConsumerDedup
import ServicePlatform.Kernel.IdempotencyStores

/-! Deduplication over Redis, where the key of an event ends a day after it was written.
Deliveries of a subscription interleave, calls to the store may fail with or without
effect, the process may crash, and others use the same store. A handler is still not
started twice for one event within a day. -/
namespace ServicePlatform

open Storage Transition

/-- The time to live of the key of an event. -/
def eventTtl (Time : Type*) [Ring Time] : Time := 86400

/-- The consumers of one subscription. A start of the handler is recorded with the time at
which its `acquire` took effect in Redis. -/
structure WindowState (Time : Type*) where
  now : Time
  store : RedisStore Time
  deliveries : DeliveryId → DeliveryPhase
  started : List (Time × String)

inductive WindowAction (Time : Type*) where
  | deliver (d : DeliveryId) (envelope : EventEnvelope)
  | resume (d : DeliveryId) (outcome : HandlerOutcome)
  | lose (d : DeliveryId) (reached : Bool)
  | crash
  | other (call : StoreCall Time)

structure TimedWindowAction (Time : Type*) where
  now : Time
  action : WindowAction Time

/-- What is left of a delivery after a crash of the process. -/
def DeliveryPhase.crashed : DeliveryPhase → DeliveryPhase
  | .running _ _ => .idle
  | phase => phase

namespace Subscription

variable {Time : Type*} [Ring Time] [LinearOrder Time]

/-- The call to the store that a guarded call awaits. -/
def awaited (sub : Subscription) (eventId : String) : GuardedPhase → Option (StoreCall Time)
  | .acquiring => some (.acquire (sub.key eventId) (some (eventTtl Time)))
  | .handling => none
  | .finishing _ => some (.put (sub.key eventId) "done" (some (eventTtl Time)))

/-- The step of `guarded` after its await, for what the store answered. -/
def proceed (outcome : HandlerOutcome) : GuardedPhase → StoreAnswer → GuardedNext
  | .acquiring, .acquired true => .awaits .handling
  | .acquiring, .acquired false => .skipped
  | .acquiring, _ => .handled .raised
  | .handling, _ => .awaits (.finishing outcome)
  | .finishing _, .refused => .handled .raised
  | .finishing outcome, _ => .handled outcome

/-- The store and the guarded call after an await. -/
def resumeAt (sub : Subscription) (defaultTtl now : Time) (eventId : String) (store : RedisStore Time)
    (outcome : HandlerOutcome) (phase : GuardedPhase) : RedisStore Time × GuardedNext :=
  match sub.awaited eventId phase with
  | some call =>
      let (store, answer) := RedisIdempotencyStore.call defaultTtl store ⟨now, call⟩
      (store, proceed outcome phase answer)
  | none => (store, proceed outcome phase .done)

end Subscription

namespace WindowState

variable {Time : Type*} [Ring Time] [LinearOrder Time]

def initial (now : Time) (store : RedisStore Time) : WindowState Time := ⟨now, store, fun _ => .idle, []⟩

def setDelivery (s : WindowState Time) (d : DeliveryId) (phase : DeliveryPhase) : WindowState Time :=
  { s with deliveries := Function.update s.deliveries d phase }

/-- One step of the guarded call of a delivery. -/
def resume (sub : Subscription) (defaultTtl : Time) (s : WindowState Time) (d : DeliveryId) (envelope : EventEnvelope)
    (phase : GuardedPhase) (outcome : HandlerOutcome) : WindowState Time :=
  let (store, next) := sub.resumeAt defaultTtl s.now envelope.eventId s.store outcome phase
  { s.setDelivery d (.next envelope next) with
    store := store
    started := s.started ++ (sub.starts envelope.eventId next).map fun start => (s.now, start.2) }

/-- The call to the store raises. It may have taken effect. -/
def lose (defaultTtl : Time) (s : WindowState Time) (d : DeliveryId) (envelope : EventEnvelope)
    (call : StoreCall Time) (reached : Bool) : WindowState Time :=
  { s.setDelivery d (.handled envelope .raised) with
    store := if reached then (RedisIdempotencyStore.call defaultTtl s.store ⟨s.now, call⟩).1 else s.store }

def perform (sub : Subscription) (defaultTtl : Time) (s : WindowState Time) :
    WindowAction Time → Option (WindowState Time)
  | .deliver d envelope =>
      match s.deliveries d with
      | .idle => some (s.setDelivery d (.running envelope .acquiring))
      | _ => none
  | .resume d outcome =>
      match s.deliveries d with
      | .running envelope phase => some (s.resume sub defaultTtl d envelope phase outcome)
      | _ => none
  | .lose d reached =>
      match s.deliveries d with
      | .running envelope phase =>
          (sub.awaited envelope.eventId phase).map fun call => s.lose defaultTtl d envelope call reached
      | _ => none
  | .crash => some { s with deliveries := fun d => (s.deliveries d).crashed }
  | .other call => some { s with store := (RedisIdempotencyStore.call defaultTtl s.store ⟨s.now, call⟩).1 }

end WindowState

/-- The clock does not go back. -/
def windowStep {Time : Type*} [Ring Time] [LinearOrder Time] (sub : Subscription) (defaultTtl : Time)
    (s : WindowState Time) (a : TimedWindowAction Time) : Option (WindowState Time) :=
  if s.now ≤ a.now then { s with now := a.now }.perform sub defaultTtl a.action else none

/-- Whatever else uses the store asks no less for the keys of the subscription. -/
def Lasting {Time : Type*} [Ring Time] [LinearOrder Time] (sub : Subscription) (defaultTtl : Time)
    (a : TimedWindowAction Time) : Prop :=
  ∀ call, a.action = .other call → ∀ id, ∀ ttl ∈ call.asksFor defaultTtl (sub.key id), eventTtl Time ≤ ttl

variable {Time : Type*} [Ring Time] [LinearOrder Time] [IsStrictOrderedRing Time] {sub : Subscription}
  {defaultTtl : Time}

theorem one_le_eventTtl : (1 : Time) ≤ eventTtl Time := by
  unfold eventTtl
  exact_mod_cast (by decide : 1 ≤ 86400)

theorem ttlOr_eventTtl : ttlOr (some (eventTtl Time)) defaultTtl = eventTtl Time := by
  have hPositive : eventTtl Time ≠ 0 := (lt_of_lt_of_le zero_lt_one one_le_eventTtl).ne'
  simp [ttlOr, Option.filter, hPositive]

theorem one_le_ttlOr : 1 ≤ ttlOr (some (eventTtl Time)) defaultTtl := by
  rw [ttlOr_eventTtl]
  exact one_le_eventTtl

namespace Subscription

/-- What a guarded call asks of the store. -/
theorem asksFor_awaited {eventId id : String} {phase : GuardedPhase} {call : StoreCall Time} {ttl : Time}
    (h : sub.awaited eventId phase = some call) (hAsks : ttl ∈ call.asksFor defaultTtl (sub.key id)) :
    ttl = eventTtl Time := by
  cases phase with
  | acquiring | finishing outcome =>
      cases h
      simp only [StoreCall.asksFor, ttlOr_eventTtl, Option.mem_def, Option.ite_none_right_eq_some] at hAsks
      exact (Option.some.inj hAsks.2).symm
  | handling => cases h

/-- A guarded call on Redis is the guarded call on the abstract store. -/
theorem resumeAt_eq (hStore : sub.idemStore = true) {now : Time} {store : RedisStore Time}
    (hNodup : (store.map Prod.fst).Nodup) (eventId : String) (outcome : HandlerOutcome) (phase : GuardedPhase) :
    (sub.resumeAt defaultTtl now eventId store outcome phase).1.view now =
        (sub.resume eventId (store.view now) outcome phase).1 ∧
      (sub.resumeAt defaultTtl now eventId store outcome phase).2 =
        (sub.resume eventId (store.view now) outcome phase).2 := by
  cases phase with
  | handling => simp [resumeAt, awaited, resume, hStore, proceed]
  | finishing result =>
      have hTtl : 1 ≤ ttlOr (some (eventTtl Time)) defaultTtl := one_le_ttlOr
      have hCall : sub.resumeAt defaultTtl now eventId store outcome (.finishing result) =
          (store.set now (sub.key eventId) "done" (ttlOr (some (eventTtl Time)) defaultTtl), .handled result) := by
        simp only [resumeAt, awaited, RedisIdempotencyStore.call_put hTtl, proceed]
      rw [hCall]
      exact ⟨RedisIdempotencyStore.view_set hNodup hTtl, rfl⟩
  | acquiring =>
      have hTtl : 1 ≤ ttlOr (some (eventTtl Time)) defaultTtl := one_le_ttlOr
      by_cases hFree : store.get now (sub.key eventId) = none
      · have hView : (store.view now).get (sub.key eventId) = none := hFree
        simp only [resumeAt, awaited, RedisIdempotencyStore.call_free hTtl hFree, proceed, resume, hStore, if_true,
          IdempotencyStore.acquire_free hView]
        exact ⟨RedisIdempotencyStore.view_set hNodup hTtl, trivial⟩
      · have hView : (store.view now).get (sub.key eventId) ≠ none := hFree
        simp [resumeAt, awaited, RedisIdempotencyStore.call_taken hTtl hFree, proceed, resume, hStore,
          IdempotencyStore.acquire_taken hView]

/-- A guarded call goes on to the handler, or it makes a call to the store, or neither. -/
inductive ResumedAt (sub : Subscription) (defaultTtl now : Time) (eventId : String) (store : RedisStore Time)
    (result : RedisStore Time × GuardedNext) : Prop where
  | started (hFree : store.get now (sub.key eventId) = none)
      (hStore : result.1 = (RedisIdempotencyStore.call defaultTtl store
        ⟨now, .acquire (sub.key eventId) (some (eventTtl Time))⟩).1)
      (hStarts : sub.starts eventId result.2 = [(sub.handler, eventId)])
  | called {phase : GuardedPhase} {call : StoreCall Time} (hCall : sub.awaited eventId phase = some call)
      (hStore : result.1 = (RedisIdempotencyStore.call defaultTtl store ⟨now, call⟩).1)
      (hStarts : sub.starts eventId result.2 = [])
  | quiet (hStore : result.1 = store) (hStarts : sub.starts eventId result.2 = [])

theorem resumeAt_resumed (sub : Subscription) (defaultTtl now : Time) (eventId : String) (store : RedisStore Time)
    (outcome : HandlerOutcome) (phase : GuardedPhase) :
    ResumedAt sub defaultTtl now eventId store (sub.resumeAt defaultTtl now eventId store outcome phase) := by
  have hTtl : 1 ≤ ttlOr (some (eventTtl Time)) defaultTtl := one_le_ttlOr
  cases phase with
  | handling => exact .quiet rfl rfl
  | finishing result =>
      have hAwaited : sub.awaited eventId (.finishing result) =
          some (.put (sub.key eventId) "done" (some (eventTtl Time))) := rfl
      refine .called hAwaited rfl ?_
      simp only [resumeAt, awaited, RedisIdempotencyStore.call_put hTtl, proceed]
      rfl
  | acquiring =>
      by_cases hFree : store.get now (sub.key eventId) = none
      · refine .started hFree rfl ?_
        simp only [resumeAt, awaited, RedisIdempotencyStore.call_free hTtl hFree, proceed]
        rfl
      · have hAwaited : sub.awaited eventId .acquiring =
            some (.acquire (sub.key eventId) (some (eventTtl Time))) := rfl
        refine .called hAwaited rfl ?_
        simp only [resumeAt, awaited, RedisIdempotencyStore.call_taken hTtl hFree, proceed]
        rfl

end Subscription

/-- Every start of the handler is in the past and still holds its key, and two starts for
one event are a time to live apart. -/
structure Spaced (sub : Subscription) (now : Time) (store : RedisStore Time) (started : List (Time × String)) : Prop where
  nodup : (store.map Prod.fst).Nodup
  past : ∀ start ∈ started, start.1 ≤ now
  held : ∀ start ∈ started, store.HeldUntil (sub.key start.2) (start.1 + eventTtl Time)
  apart : started.Pairwise fun start later => start.2 = later.2 → start.1 + eventTtl Time ≤ later.1

namespace Spaced

variable {now time : Time} {store : RedisStore Time} {started : List (Time × String)}

omit [IsStrictOrderedRing Time] in
theorem later (h : Spaced sub now store started) (hClock : now ≤ time) : Spaced sub time store started :=
  ⟨h.nodup, fun start hMem => (h.past start hMem).trans hClock, h.held, h.apart⟩

/-- A call to the store that asks for no less. -/
theorem call (h : Spaced sub now store started) {made : StoreCall Time}
    (hLasting : ∀ id, ∀ ttl ∈ made.asksFor defaultTtl (sub.key id), eventTtl Time ≤ ttl) :
    Spaced sub now (RedisIdempotencyStore.call defaultTtl store ⟨now, made⟩).1 started := by
  refine ⟨RedisIdempotencyStore.nodup_call h.nodup _, h.past, fun start hMem => ?_, h.apart⟩
  apply RedisIdempotencyStore.heldUntil_call h.nodup (h.held start hMem)
  intro ttl hAsks
  exact add_le_add (h.past start hMem) (hLasting start.2 ttl hAsks)

/-- A handler starts only when its key is free, so a day after the starts before. -/
theorem start (h : Spaced sub now store started) {eventId : String} (hFree : store.get now (sub.key eventId) = none) :
    Spaced sub now (RedisIdempotencyStore.call defaultTtl store
      ⟨now, .acquire (sub.key eventId) (some (eventTtl Time))⟩).1 (started ++ [(now, eventId)]) := by
  have hTtl : 1 ≤ ttlOr (some (eventTtl Time)) defaultTtl := one_le_ttlOr
  have hCalled : Spaced sub now (RedisIdempotencyStore.call defaultTtl store
      ⟨now, .acquire (sub.key eventId) (some (eventTtl Time))⟩).1 started := by
    have hAwaited : sub.awaited eventId .acquiring = some (.acquire (sub.key eventId) (some (eventTtl Time))) := rfl
    exact h.call fun id ttl hAsks => (Subscription.asksFor_awaited hAwaited hAsks).ge
  refine ⟨hCalled.nodup, ?_, ?_, ?_⟩
  · intro start hMem
    rcases List.mem_append.mp hMem with hOld | hNew
    · exact h.past start hOld
    · rw [List.mem_singleton.mp hNew]
  · intro start hMem
    rcases List.mem_append.mp hMem with hOld | hNew
    · exact hCalled.held start hOld
    · rw [List.mem_singleton.mp hNew, RedisIdempotencyStore.call_free hTtl hFree, ttlOr_eventTtl]
      exact ⟨"processing", now + eventTtl Time, (RedisStore.mem_set_iff h.nodup one_le_eventTtl).mpr (Or.inl rfl), le_rfl⟩
  · rw [List.pairwise_append]
    refine ⟨h.apart, List.pairwise_singleton _ _, fun start hOld last hLast hSame => ?_⟩
    rw [List.mem_singleton.mp hLast] at hSame ⊢
    obtain ⟨value, due, hMem, hDue⟩ := h.held start hOld
    rw [hSame] at hMem
    exact hDue.trans ((RedisStore.get_eq_none_iff h.nodup).mp hFree value due hMem)

end Spaced

theorem spaced_step {s t : WindowState Time} {a : TimedWindowAction Time} (h : Spaced sub s.now s.store s.started)
    (hLasting : Lasting sub defaultTtl a) (hStep : windowStep sub defaultTtl s a = some t) :
    Spaced sub t.now t.store t.started := by
  obtain ⟨now, action⟩ := a
  obtain ⟨hClock, hTaken⟩ := Option.ite_none_right_eq_some.mp hStep
  have hLater := h.later hClock
  cases action with
  | deliver d envelope =>
      simp only [WindowState.perform] at hTaken
      split at hTaken
      · cases hTaken
        exact hLater
      · cases hTaken
  | crash =>
      cases hTaken
      exact hLater
  | other call =>
      cases hTaken
      exact hLater.call (hLasting call rfl)
  | lose d reached =>
      simp only [WindowState.perform] at hTaken
      split at hTaken
      · next envelope phase hRunning =>
          obtain ⟨call, hCall, rfl⟩ := Option.map_eq_some_iff.mp hTaken
          cases reached with
          | true => exact hLater.call fun id ttl hAsks => (Subscription.asksFor_awaited hCall hAsks).ge
          | false => exact hLater
      · cases hTaken
  | resume d outcome =>
      simp only [WindowState.perform] at hTaken
      split at hTaken
      · next envelope phase hRunning =>
          cases hTaken
          cases Subscription.resumeAt_resumed sub defaultTtl now envelope.eventId s.store outcome phase with
          | started hFree hStore hStarts =>
              simp only [WindowState.resume, hStore, hStarts]
              exact hLater.start hFree
          | called hCall hStore hStarts =>
              simp only [WindowState.resume, hStore, hStarts, List.map_nil, List.append_nil]
              exact hLater.call fun id ttl hAsks => (Subscription.asksFor_awaited hCall hAsks).ge
          | quiet hStore hStarts =>
              simp only [WindowState.resume, hStore, hStarts, List.map_nil, List.append_nil]
              exact hLater
      · cases hTaken

/-- Whatever is delivered how often, and whatever fails, the handler is not started twice
for one event within the time to live of its key, where a start counts from the moment
at which Redis carried out its `acquire`. The handler itself begins when the answer
arrives. -/
theorem starts_apart {start : Time} {store : RedisStore Time} (hNodup : (store.map Prod.fst).Nodup)
    {actions : List (TimedWindowAction Time)} (hLasting : ∀ a ∈ actions, Lasting sub defaultTtl a) {t : WindowState Time}
    (hRun : exec (windowStep sub defaultTtl) (WindowState.initial start store) actions = some t) :
    t.started.Pairwise fun first later => first.2 = later.2 → first.1 + eventTtl Time ≤ later.1 := by
  have hStart : Spaced sub (WindowState.initial start store).now (WindowState.initial start store).store
      (WindowState.initial start store).started :=
    ⟨hNodup, fun start hMem => absurd hMem List.not_mem_nil, fun start hMem => absurd hMem List.not_mem_nil,
      List.Pairwise.nil⟩
  exact (invariant_along (P := fun _ a => Lasting sub defaultTtl a)
    (fun s a t h hLasting hStep => spaced_step h hLasting hStep) hStart
    (along_of_forall (fun a hMem _ => hLasting a hMem) _) hRun).apart

/-- An event that is delivered three times: again while its handler runs, and after the
key has run out. -/
def redeliveries (envelope : EventEnvelope) : List (TimedWindowAction Int) :=
  [⟨0, .deliver 0 envelope⟩, ⟨0, .resume 0 .returned⟩, ⟨1, .deliver 1 envelope⟩, ⟨2, .resume 1 .returned⟩,
    ⟨5, .resume 0 .raised⟩, ⟨6, .resume 0 .returned⟩, ⟨86406, .deliver 2 envelope⟩, ⟨86406, .resume 2 .returned⟩]

theorem starts_apart_redeliveries : ∃ t, exec (windowStep ⟨"user.created.v1", 0, true⟩ 3600) (WindowState.initial 0 [])
    (redeliveries ⟨"e1", "user.created.v1", "user", "user", "u1", 0, [], none⟩) = some t ∧
      t.started = [(0, "e1"), (86406, "e1")] ∧
      t.started.Pairwise fun first later => first.2 = later.2 → first.1 + eventTtl Int ≤ later.1 := by
  obtain ⟨t, hRun, hStarted⟩ : ∃ t, exec (windowStep ⟨"user.created.v1", 0, true⟩ 3600) (WindowState.initial 0 [])
      (redeliveries ⟨"e1", "user.created.v1", "user", "user", "u1", 0, [], none⟩) = some t ∧
        t.started = [(0, "e1"), (86406, "e1")] := ⟨_, rfl, by decide⟩
  have hNodup : (([] : RedisStore Int).map Prod.fst).Nodup := List.nodup_nil
  refine ⟨t, hRun, hStarted, starts_apart hNodup (fun a hMem => ?_) hRun⟩
  rintro call hOther
  simp only [redeliveries, List.mem_cons, List.not_mem_nil, or_false] at hMem
  rcases hMem with rfl | rfl | rfl | rfl | rfl | rfl | rfl | rfl <;> cases hOther

end ServicePlatform
