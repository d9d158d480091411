import ServicePlatform.Kernel.LocalDelivery
import ServicePlatform.Kernel.RabbitDelivery

/-! Whether RabbitMQ brings events to the handlers that the in-process bus
brings them to. A queue is named by the event, so the handlers of one event
share it and each message goes to one of them; and its binding key is the
event name too, in which `*` and `#` match the names of other events. -/
namespace ServicePlatform

open Broker Transition

variable {subs : List Subscription} {key : String}

/-- No other event name that was subscribed matches the key, and there is at
most one subscription of the key. For the empty name the broker makes a queue
for each subscription. -/
def Separate (subs : List Subscription) (key : String) : Prop :=
  (∀ sub ∈ subs, topicMatches sub.eventName key = true → sub.eventName = key) ∧
    (key = "" ∨ ∀ sub ∈ subs, ∀ other ∈ subs, sub.eventName = key → other.eventName = key → sub = other)

/-- The subscriptions of an event name. -/
def subscribed (subs : List Subscription) (key : String) : List Subscription :=
  subs.filter fun sub => sub.eventName = key

theorem mem_subscribed {sub : Subscription} : sub ∈ subscribed subs key ↔ sub ∈ subs ∧ sub.eventName = key := by
  simp [subscribed]

/-- A subscription that is made once has one queue. -/
theorem queue_unique (hNodup : subs.Nodup) {queue queue' : QueueName} {sub : Subscription}
    (h : sub ∈ (RabbitEventBus.subscribeAll subs).consumers queue)
    (h' : sub ∈ (RabbitEventBus.subscribeAll subs).consumers queue') : queue = queue' := by
  obtain ⟨n, hAt, rfl⟩ := RabbitEventBus.mem_consumers.mp h
  obtain ⟨n', hAt', rfl⟩ := RabbitEventBus.mem_consumers.mp h'
  obtain ⟨hLength, hSub⟩ := List.getElem?_eq_some_iff.mp hAt
  obtain ⟨hLength', hSub'⟩ := List.getElem?_eq_some_iff.mp hAt'
  have hSame : n = n' := (hNodup.getElem_inj_iff).mp (hSub.trans hSub'.symm)
  rw [hSame]

/-- A consumer of a queue that gets the event is subscribed to its name. -/
theorem Separate.eventName (h : Separate subs key) {queue : QueueName} {sub : Subscription}
    (hQueue : queue ∈ (RabbitEventBus.subscribeAll subs).route key)
    (hSub : sub ∈ (RabbitEventBus.subscribeAll subs).consumers queue) : sub.eventName = key := by
  obtain ⟨n, bound, hAt, rfl, hMatch⟩ := RabbitEventBus.mem_route_subscribeAll.mp hQueue
  obtain ⟨n', -, hSame⟩ := RabbitEventBus.mem_consumers.mp hSub
  rw [(RabbitEventBus.queueOf_eq hSame).1]
  exact h.1 bound (List.mem_of_getElem? hAt) hMatch

/-- The queue of a subscription of the event's name has no other consumer. -/
theorem Separate.sub_unique (h : Separate subs key) {sub other : Subscription} {queue : QueueName}
    (hName : sub.eventName = key) (hSub : sub ∈ (RabbitEventBus.subscribeAll subs).consumers queue)
    (hOther : other ∈ (RabbitEventBus.subscribeAll subs).consumers queue) : other = sub := by
  obtain ⟨n, hAt, rfl⟩ := RabbitEventBus.mem_consumers.mp hSub
  obtain ⟨n', hAt', hSame⟩ := RabbitEventBus.mem_consumers.mp hOther
  obtain ⟨hNames, hNumbers⟩ := RabbitEventBus.queueOf_eq hSame.symm
  rcases h.2 with hEmpty | hOne
  · have hNumber := hNumbers (hName.trans hEmpty)
    rw [hNumber] at hAt
    exact Option.some.inj (hAt'.symm.trans hAt)
  · apply hOne other (List.mem_of_getElem? hAt') sub (List.mem_of_getElem? hAt) _ hName
    exact hNames.symm.trans hName

/-- Under the condition, the consumers of the queues that get the event are
the subscriptions of its name. -/
theorem consumers_perm (hNodup : subs.Nodup) (hSeparate : Separate subs key)
    {Body : Type*} {deliveries : List (Delivery QueueName Subscription Body OnMessage)}
    (hQueues : (deliveries.map fun delivery => delivery.copy.queue).Perm
      ((RabbitEventBus.subscribeAll subs).route key))
    (hServed : ∀ delivery ∈ deliveries,
      delivery.consumer ∈ (RabbitEventBus.subscribeAll subs).consumers delivery.copy.queue) :
    (deliveries.map Delivery.consumer).Perm (subscribed subs key) := by
  have hDistinct : (deliveries.map fun delivery => delivery.copy.queue).Nodup :=
    hQueues.nodup_iff.mpr Topology.nodup_route
  have hNodupSubs : (deliveries.map Delivery.consumer).Nodup := by
    apply List.Nodup.map_on _ hDistinct.of_map
    intro d hd d' hd' hSub
    apply List.inj_on_of_nodup_map hDistinct hd hd'
    exact queue_unique hNodup (hServed d hd) (hSub ▸ hServed d' hd')
  apply (List.perm_ext_iff_of_nodup hNodupSubs (hNodup.filter _)).mpr
  intro sub
  rw [← subscribed, mem_subscribed]
  constructor
  · intro hMem
    obtain ⟨delivery, hDelivery, rfl⟩ := List.mem_map.mp hMem
    have hQueue := hQueues.mem_iff.mp (List.mem_map_of_mem hDelivery)
    obtain ⟨n, hAt, -⟩ := RabbitEventBus.mem_consumers.mp (hServed delivery hDelivery)
    exact ⟨List.mem_of_getElem? hAt, hSeparate.eventName hQueue (hServed delivery hDelivery)⟩
  · rintro ⟨hMem, hName⟩
    obtain ⟨n, hAt⟩ := List.mem_iff_getElem?.mp hMem
    have hSub := RabbitEventBus.mem_consumers.mpr ⟨n, hAt, rfl⟩
    have hMatch : topicMatches sub.eventName key = true := by
      rw [hName]
      exact topicMatches_self key
    have hQueue := RabbitEventBus.mem_route_subscribeAll.mpr ⟨n, sub, hAt, rfl, hMatch⟩
    obtain ⟨delivery, hDelivery, hFirst⟩ := List.mem_map.mp (hQueues.mem_iff.mpr hQueue)
    have hServed' := hServed delivery hDelivery
    rw [hFirst] at hServed'
    rw [← hSeparate.sub_unique hName hSub hServed']
    exact List.mem_map_of_mem hDelivery

section Necessity

variable {choice : QueueName → Subscription}

/-- Whoever is chosen of the consumers, the event goes to the handlers of its
name. -/
def Indifferent (subs : List Subscription) (key : String) : Prop :=
  ∀ choice : QueueName → Subscription,
    (∀ other, ∀ queue ∈ (RabbitEventBus.subscribeAll subs).route other,
      choice queue ∈ (RabbitEventBus.subscribeAll subs).consumers queue) →
    (((RabbitEventBus.subscribeAll subs).route key).map fun queue => (choice queue).handler).Perm
      ((subscribed subs key).map Subscription.handler)

/-- Each queue that is bound has a consumer. -/
theorem exists_choice (subs : List Subscription) : ∃ choice : QueueName → Subscription,
    ∀ other, ∀ queue ∈ (RabbitEventBus.subscribeAll subs).route other,
      choice queue ∈ (RabbitEventBus.subscribeAll subs).consumers queue := by
  have hEach : ∀ queue, ∃ sub, (∃ other, other ∈ (RabbitEventBus.subscribeAll subs).consumers queue) →
      sub ∈ (RabbitEventBus.subscribeAll subs).consumers queue := by
    intro queue
    by_cases hSome : ∃ other, other ∈ (RabbitEventBus.subscribeAll subs).consumers queue
    · obtain ⟨sub, hSub⟩ := hSome
      exact ⟨sub, fun _ => hSub⟩
    · exact ⟨⟨"", 0, false⟩, fun h => absurd h hSome⟩
  choose choice hChoice using hEach
  refine ⟨choice, ?_⟩
  intro other queue hQueue
  obtain ⟨n, sub, hAt, hSame, -⟩ := RabbitEventBus.mem_route_subscribeAll.mp hQueue
  exact hChoice queue ⟨sub, RabbitEventBus.mem_consumers.mpr ⟨n, hAt, hSame⟩⟩

/-- The choice may be changed for one queue. -/
theorem choice_update
    (hChoice : ∀ other, ∀ queue ∈ (RabbitEventBus.subscribeAll subs).route other,
      choice queue ∈ (RabbitEventBus.subscribeAll subs).consumers queue) {queue : QueueName}
    {sub : Subscription} (hSub : sub ∈ (RabbitEventBus.subscribeAll subs).consumers queue) :
    ∀ other, ∀ queue' ∈ (RabbitEventBus.subscribeAll subs).route other,
      Function.update choice queue sub queue' ∈ (RabbitEventBus.subscribeAll subs).consumers queue' := by
  intro other queue' hQueue
  by_cases hSame : queue' = queue
  · rw [hSame, Function.update_self]
    exact hSub
  · rw [Function.update_of_ne hSame]
    exact hChoice other queue' hQueue

/-- Consumers of one queue that gets the event have the same handler. -/
theorem Indifferent.handler_eq (h : Indifferent subs key) {queue : QueueName} {sub other : Subscription}
    (hQueue : queue ∈ (RabbitEventBus.subscribeAll subs).route key)
    (hSub : sub ∈ (RabbitEventBus.subscribeAll subs).consumers queue)
    (hOther : other ∈ (RabbitEventBus.subscribeAll subs).consumers queue) : sub.handler = other.handler := by
  obtain ⟨choice, hChoice⟩ := exists_choice subs
  have hFirst := h _ (choice_update hChoice hSub)
  have hSecond := h _ (choice_update hChoice hOther)
  have hBoth := hFirst.trans hSecond.symm
  let others := ((RabbitEventBus.subscribeAll subs).route key).erase queue
  have hNot : queue ∉ others := by
    apply List.Nodup.not_mem_erase
    exact Topology.nodup_route
  have hSplit : ∀ picked : Subscription,
      (((RabbitEventBus.subscribeAll subs).route key).map fun q =>
        (Function.update choice queue picked q).handler).Perm
          (picked.handler :: others.map fun q => (choice q).handler) := by
    intro picked
    have hPerm := (List.perm_cons_erase hQueue).map fun q => (Function.update choice queue picked q).handler
    rw [List.map_cons, Function.update_self] at hPerm
    have hOthers : (others.map fun q => (Function.update choice queue picked q).handler) =
        others.map fun q => (choice q).handler := by
      apply List.map_congr_left
      intro q hq
      have hNe : q ≠ queue := by
        rintro rfl
        exact hNot hq
      rw [Function.update_of_ne hNe]
    rw [hOthers] at hPerm
    exact hPerm
  have hCons := (hSplit sub).symm.trans (hBoth.trans (hSplit other))
  by_contra hNe
  have hCount := hCons.count_eq sub.handler
  rw [List.count_cons_self, List.count_cons_of_ne (Ne.symm hNe)] at hCount
  omega

/-- The queues that get an event are as many as its subscriptions. -/
theorem Indifferent.length_eq (h : Indifferent subs key) :
    ((RabbitEventBus.subscribeAll subs).route key).length = (subscribed subs key).length := by
  obtain ⟨choice, hChoice⟩ := exists_choice subs
  have hLength := (h choice hChoice).length_eq
  simpa using hLength

theorem Indifferent.sub_unique (h : Indifferent subs key) (hPlain : ∀ sub ∈ subs, sub.idemStore = false)
    (hKey : key ≠ "") {sub other : Subscription} (hSub : sub ∈ subs) (hOther : other ∈ subs)
    (hName : sub.eventName = key) (hName' : other.eventName = key) : sub = other := by
  obtain ⟨n, hAt⟩ := List.mem_iff_getElem?.mp hSub
  obtain ⟨n', hAt'⟩ := List.mem_iff_getElem?.mp hOther
  have hQueue : RabbitEventBus.queueOf n sub = .named key := by
    simp [RabbitEventBus.queueOf, hName, hKey]
  have hQueue' : RabbitEventBus.queueOf n' other = .named key := by
    simp [RabbitEventBus.queueOf, hName', hKey]
  have hRoute : .named key ∈ (RabbitEventBus.subscribeAll subs).route key := by
    apply RabbitEventBus.mem_route_subscribeAll.mpr
    refine ⟨n, sub, hAt, hQueue, ?_⟩
    rw [hName]
    exact topicMatches_self key
  have hHandler := h.handler_eq hRoute (RabbitEventBus.mem_consumers.mpr ⟨n, hAt, hQueue⟩)
    (RabbitEventBus.mem_consumers.mpr ⟨n', hAt', hQueue'⟩)
  have hStore := (hPlain sub hSub).trans (hPlain other hOther).symm
  cases sub
  cases other
  simp_all

theorem Indifferent.separate (h : Indifferent subs key) (hPlain : ∀ sub ∈ subs, sub.idemStore = false)
    (hNodup : subs.Nodup) : Separate subs key := by
  have hOne : key = "" ∨
      ∀ sub ∈ subs, ∀ other ∈ subs, sub.eventName = key → other.eventName = key → sub = other := by
    by_cases hKey : key = ""
    · exact Or.inl hKey
    · exact Or.inr fun sub hSub other hOther => h.sub_unique hPlain hKey hSub hOther
  refine ⟨?_, hOne⟩
  intro sub hSub hMatch
  -- The queues of the subscriptions of the name are all queues that get the event.
  let own (s : Subscription) : QueueName := RabbitEventBus.queueOf (subs.idxOf s) s
  have hAt : ∀ s ∈ subs, subs[subs.idxOf s]? = some s := fun s hs => List.getElem?_idxOf hs
  have hInjective : ((subscribed subs key).map own).Nodup := by
    apply List.Nodup.map_on _ (hNodup.filter _)
    intro s hs s' hs' hSame
    obtain ⟨hMem, hName⟩ := mem_subscribed.mp hs
    obtain ⟨hMem', hName'⟩ := mem_subscribed.mp hs'
    rcases hOne with hEmpty | hUnique
    · have hNumber := (RabbitEventBus.queueOf_eq hSame).2 (hName.trans hEmpty)
      have hFirst := hAt s hMem
      rw [hNumber, hAt s' hMem'] at hFirst
      exact (Option.some.inj hFirst).symm
    · exact hUnique s hMem s' hMem' hName hName'
  have hSubset : (subscribed subs key).map own ⊆ (RabbitEventBus.subscribeAll subs).route key := by
    intro queue hQueue
    obtain ⟨s, hs, rfl⟩ := List.mem_map.mp hQueue
    obtain ⟨hMem, hName⟩ := mem_subscribed.mp hs
    apply RabbitEventBus.mem_route_subscribeAll.mpr
    refine ⟨subs.idxOf s, s, hAt s hMem, rfl, ?_⟩
    rw [hName]
    exact topicMatches_self key
  have hAll : ((subscribed subs key).map own).Perm ((RabbitEventBus.subscribeAll subs).route key) := by
    apply (List.subperm_of_subset hInjective hSubset).perm_of_length_le
    rw [h.length_eq, List.length_map]
  have hQueue := RabbitEventBus.mem_route_subscribeAll.mpr
    ⟨subs.idxOf sub, sub, hAt sub hSub, rfl, hMatch⟩
  obtain ⟨s, hs, hSame⟩ := List.mem_map.mp (hAll.mem_iff.mpr hQueue)
  rw [← (RabbitEventBus.queueOf_eq hSame).1]
  exact (mem_subscribed.mp hs).2

end Necessity

/-- The handlers that are started for an event are the same over both buses,
in all complete runs without exceptions, if and only if each event goes to one
queue at most, and that queue has one consumer. -/
theorem buses_agree_iff {Body : Type*} {codec : EnvelopeCodec Body} {events : List EventEnvelope}
    (hPlain : ∀ sub ∈ subs, sub.idemStore = false) (hNodup : subs.Nodup) (hReadable : Readable codec events) :
    (∀ l r, LocalRun subs events l → RabbitRun codec subs events r →
      ∀ n < events.length, (r.handlersOf n).Perm (l.handlersOf n)) ↔
    ∀ envelope ∈ events, Separate subs envelope.eventName := by
  constructor
  · intro hAgree envelope hEnvelope
    obtain ⟨n, hEvent⟩ := List.mem_iff_getElem?.mp hEnvelope
    obtain ⟨l, hLocal⟩ := exists_localRun hPlain events
    apply Indifferent.separate _ hPlain hNodup
    intro choice hChoice
    obtain ⟨r, hRabbit, hChosen⟩ := exists_rabbitRun hPlain hReadable hChoice
    have hPerm := hAgree l r hLocal hRabbit n (List.getElem?_eq_some_iff.mp hEvent).1
    rw [hLocal.handlersOf hPlain hEvent] at hPerm
    obtain ⟨deliveries, hAcked, hQueues, hHandlers⟩ := hRabbit.deliveries hPlain hReadable hEvent
    have hSame : (deliveries.map fun delivery => delivery.consumer.handler) =
        (deliveries.map fun delivery => delivery.copy.queue).map fun queue => (choice queue).handler := by
      rw [List.map_map]
      apply List.map_congr_left
      intro delivery hDelivery
      rw [hChosen delivery (hAcked delivery hDelivery).1]
      rfl
    rw [hSame] at hHandlers
    exact (hQueues.map _).symm.trans (hHandlers.symm.trans hPerm)
  · intro hSeparate l r hLocal hRabbit n hn
    have hEvent : events[n]? = some events[n] := List.getElem?_eq_getElem hn
    rw [hLocal.handlersOf hPlain hEvent]
    obtain ⟨deliveries, hAcked, hQueues, hHandlers⟩ := hRabbit.deliveries hPlain hReadable hEvent
    have hConsumers := consumers_perm hNodup (hSeparate events[n] (List.getElem_mem hn))
      hQueues fun delivery hDelivery => (hAcked delivery hDelivery).2
    apply hHandlers.trans
    have hPerm := hConsumers.map Subscription.handler
    rw [List.map_map] at hPerm
    exact hPerm

/-- The subscriptions of one event name share a queue, which any of them may
be chosen to serve. -/
theorem choice_of_one_name {name : String} (hName : ∀ sub ∈ subs, sub.eventName = name) (hSome : name ≠ "")
    {chosen : Subscription} (hChosen : chosen ∈ subs) :
    ∀ other, ∀ queue ∈ (RabbitEventBus.subscribeAll subs).route other,
      chosen ∈ (RabbitEventBus.subscribeAll subs).consumers queue := by
  intro other queue hQueue
  obtain ⟨n, sub, hAt, hSame, -⟩ := RabbitEventBus.mem_route_subscribeAll.mp hQueue
  obtain ⟨k, hk⟩ := List.mem_iff_getElem?.mp hChosen
  apply RabbitEventBus.mem_consumers.mpr
  refine ⟨k, hk, ?_⟩
  rw [← hSame]
  simp [RabbitEventBus.queueOf, hName chosen hChosen, hName sub (List.mem_of_getElem? hAt), hSome]

def lonely : List Subscription := [⟨"user.created.v1", 0, false⟩]

/-- Two handlers of one event name. -/
def competing : List Subscription := [⟨"user.created.v1", 0, false⟩, ⟨"user.created.v1", 1, false⟩]

theorem lonely_eventName : ∀ sub ∈ lonely, sub.eventName = "user.created.v1" := by simp [lonely]

theorem competing_eventName : ∀ sub ∈ competing, sub.eventName = "user.created.v1" := by simp [competing]

theorem buses_agree_iff_lonely : ∃ l r, LocalRun lonely [sampleEnvelope] l ∧
    RabbitRun sampleCodec lonely [sampleEnvelope] r ∧ (r.handlersOf 0).Perm (l.handlersOf 0) := by
  have hPlain : ∀ sub ∈ lonely, sub.idemStore = false := by simp [lonely]
  have hReadable : Readable sampleCodec [sampleEnvelope] := fun envelope _ => Option.some_ne_none envelope
  have hChoice := choice_of_one_name lonely_eventName (by decide) (List.mem_cons_self ..)
  obtain ⟨l, hLocal⟩ := exists_localRun hPlain [sampleEnvelope]
  obtain ⟨r, hRabbit, -⟩ := exists_rabbitRun hPlain hReadable hChoice
  refine ⟨l, r, hLocal, hRabbit, ?_⟩
  apply (buses_agree_iff hPlain (List.nodup_singleton _) hReadable).mpr _ l r hLocal hRabbit 0 Nat.zero_lt_one
  intro envelope hEnvelope
  rw [List.mem_singleton.mp hEnvelope]
  constructor
  · intro sub hSub _
    rw [List.mem_singleton.mp hSub]
    rfl
  · right
    intro sub hSub other hOther _ _
    rw [List.mem_singleton.mp hSub, List.mem_singleton.mp hOther]

/-- The two handlers share a queue, so one of them misses the event. -/
theorem buses_differ : ∃ l r, LocalRun competing [sampleEnvelope] l ∧
    RabbitRun sampleCodec competing [sampleEnvelope] r ∧ ¬ (r.handlersOf 0).Perm (l.handlersOf 0) := by
  have hPlain : ∀ sub ∈ competing, sub.idemStore = false := by simp [competing]
  have hReadable : Readable sampleCodec [sampleEnvelope] := fun envelope _ => Option.some_ne_none envelope
  have hChoice := choice_of_one_name competing_eventName (by decide) (List.mem_cons_self ..)
  obtain ⟨l, hLocal⟩ := exists_localRun hPlain [sampleEnvelope]
  obtain ⟨r, hRabbit, -⟩ := exists_rabbitRun hPlain hReadable hChoice
  refine ⟨l, r, hLocal, hRabbit, ?_⟩
  intro hPerm
  obtain ⟨deliveries, -, hQueues, hHandlers⟩ := hRabbit.deliveries hPlain hReadable (n := 0) rfl
  rw [hLocal.handlersOf hPlain (p := 0) rfl] at hPerm
  have hRoute : ((RabbitEventBus.subscribeAll competing).route sampleEnvelope.eventName).length = 1 := rfl
  have hOne := hQueues.length_eq
  have hSome := hHandlers.length_eq
  have hTwo : (r.handlersOf 0).length = 2 := hPerm.length_eq
  rw [List.length_map] at hOne hSome
  omega

end ServicePlatform
