import ServicePlatform.Broker.Queues
import ServicePlatform.Kernel.ConsumerDedup
import Mathlib.Data.List.Induction

/-! Consumption over RabbitMQ. A subscription declares a queue with the name of
the event, binds it to the topic exchange under the same name, and consumes
it. The callback decodes the body and calls the guarded handler within
`message.process()`: the message is acknowledged when the block ends normally
and rejected without requeue when an exception leaves it. -/
namespace ServicePlatform

open Broker Transition

/-- A queue that is declared with an empty name gets one from the broker. -/
inductive QueueName where
  | named (name : String)
  | generated (number : Nat)
  deriving DecidableEq

abbrev RabbitTopology := Topology QueueName Subscription

/-- How an envelope is written to a message body and read from one. -/
structure EnvelopeCodec (Body : Type*) where
  modelDumpJson : EventEnvelope → Body
  modelValidateJson : Body → Option EventEnvelope

/-- Where `on_message` stands. -/
inductive OnMessage where
  | decoding
  | guarded (envelope : EventEnvelope) (phase : GuardedPhase)

namespace RabbitEventBus

def empty : RabbitTopology := ⟨[], fun _ => [], fun _ => false⟩

/-- `declare_queue(event_name, durable=True)`. No arguments are given, so the
queue has no dead letters. -/
def declareQueue (topology : RabbitTopology) (eventName : String) : QueueName :=
  if eventName = "" then .generated topology.bindings.length else .named eventName

/-- `EventConsumer.subscribe`. -/
def subscribe (topology : RabbitTopology) (sub : Subscription) : RabbitTopology :=
  let queue := declareQueue topology sub.eventName
  { topology with
    bindings := topology.bindings ++ [(queue, sub.eventName)]
    consumers := Function.update topology.consumers queue (topology.consumers queue ++ [sub]) }

def subscribeAll (subs : List Subscription) : RabbitTopology := subs.foldl subscribe empty

/-- The queue of the n-th subscription. -/
def queueOf (n : Nat) (sub : Subscription) : QueueName :=
  if sub.eventName = "" then .generated n else .named sub.eventName

/-- Subscriptions that share a queue have the same event name, which is not
empty unless it is one subscription. -/
theorem queueOf_eq {n n' : Nat} {sub sub' : Subscription} (h : queueOf n sub = queueOf n' sub') :
    sub.eventName = sub'.eventName ∧ (sub.eventName = "" → n = n') := by
  unfold queueOf at h
  split at h
  · next hEmpty =>
      split at h
      · next hEmpty' =>
          cases h
          exact ⟨hEmpty.trans hEmpty'.symm, fun _ => rfl⟩
      · cases h
  · next hSome =>
      split at h
      · cases h
      · exact ⟨QueueName.named.inj h, fun hEmpty => absurd hEmpty hSome⟩

theorem subscribeAll_concat (subs : List Subscription) (sub : Subscription) :
    subscribeAll (subs ++ [sub]) = subscribe (subscribeAll subs) sub := by
  simp [subscribeAll]

theorem length_bindings (subs : List Subscription) : (subscribeAll subs).bindings.length = subs.length := by
  induction subs using List.reverseRecOn with
  | nil => rfl
  | append_singleton subs sub ih =>
      rw [subscribeAll_concat]
      simp [subscribe, ih]

theorem declareQueue_subscribeAll (subs : List Subscription) (sub : Subscription) :
    declareQueue (subscribeAll subs) sub.eventName = queueOf subs.length sub := by
  rw [declareQueue, queueOf, length_bindings]

theorem deadLetters_subscribeAll (subs : List Subscription) (queue : QueueName) :
    (subscribeAll subs).deadLetters queue = false := by
  induction subs using List.reverseRecOn with
  | nil => rfl
  | append_singleton subs sub ih =>
      rw [subscribeAll_concat]
      exact ih

/-- Each subscription binds its queue under its event name. -/
theorem mem_bindings {subs : List Subscription} {queue : QueueName} {key : String} :
    (queue, key) ∈ (subscribeAll subs).bindings ↔
      ∃ n sub, subs[n]? = some sub ∧ queueOf n sub = queue ∧ sub.eventName = key := by
  induction subs using List.reverseRecOn with
  | nil => simp [subscribeAll, empty]
  | append_singleton subs last ih =>
      rw [subscribeAll_concat]
      simp only [subscribe, List.mem_append, List.mem_singleton, ih, declareQueue_subscribeAll,
        Prod.mk.injEq]
      constructor
      · rintro (⟨n, sub, hAt, hQueue, hName⟩ | ⟨rfl, rfl⟩)
        · exact ⟨n, sub, getElem?_concat_iff.mpr (Or.inl hAt), hQueue, hName⟩
        · exact ⟨subs.length, last, getElem?_concat_iff.mpr (Or.inr ⟨rfl, rfl⟩), rfl, rfl⟩
      · rintro ⟨n, sub, hAt, hQueue, hName⟩
        rcases getElem?_concat_iff.mp hAt with hOld | ⟨rfl, rfl⟩
        · exact Or.inl ⟨n, sub, hOld, hQueue, hName⟩
        · exact Or.inr ⟨hQueue.symm, hName.symm⟩

/-- Each subscription consumes its queue. -/
theorem mem_consumers {subs : List Subscription} {queue : QueueName} {sub : Subscription} :
    sub ∈ (subscribeAll subs).consumers queue ↔ ∃ n, subs[n]? = some sub ∧ queueOf n sub = queue := by
  induction subs using List.reverseRecOn with
  | nil => simp [subscribeAll, empty]
  | append_singleton subs last ih =>
      rw [subscribeAll_concat]
      simp only [subscribe, declareQueue_subscribeAll, Function.update_apply]
      constructor
      · intro h
        split at h
        · next hQueue =>
            rcases List.mem_append.mp h with hOld | hLast
            · obtain ⟨n, hAt, hSame⟩ := (hQueue ▸ ih).mp hOld
              exact ⟨n, getElem?_concat_iff.mpr (Or.inl hAt), hSame.trans hQueue.symm⟩
            · rw [List.mem_singleton.mp hLast]
              exact ⟨subs.length, getElem?_concat_iff.mpr (Or.inr ⟨rfl, rfl⟩), hQueue.symm⟩
        · obtain ⟨n, hAt, hSame⟩ := ih.mp h
          exact ⟨n, getElem?_concat_iff.mpr (Or.inl hAt), hSame⟩
      · rintro ⟨n, hAt, hSame⟩
        rcases getElem?_concat_iff.mp hAt with hOld | ⟨rfl, rfl⟩
        · have hMem := ih.mpr ⟨n, hOld, hSame⟩
          split
          · next hQueue => exact List.mem_append_left _ (hQueue ▸ hMem)
          · exact hMem
        · rw [if_pos hSame.symm]
          exact List.mem_append_right _ (List.mem_singleton_self _)

/-- The queues that get an event. -/
theorem mem_route_subscribeAll {subs : List Subscription} {queue : QueueName} {key : String} :
    queue ∈ (subscribeAll subs).route key ↔
      ∃ n sub, subs[n]? = some sub ∧ queueOf n sub = queue ∧ topicMatches sub.eventName key = true := by
  rw [Topology.mem_route]
  constructor
  · rintro ⟨name, hBinding, hMatch⟩
    obtain ⟨n, sub, hAt, hQueue, rfl⟩ := mem_bindings.mp hBinding
    exact ⟨n, sub, hAt, hQueue, hMatch⟩
  · rintro ⟨n, sub, hAt, hQueue, hMatch⟩
    exact ⟨sub.eventName, mem_bindings.mpr ⟨n, sub, hAt, hQueue, rfl⟩, hMatch⟩

end RabbitEventBus

/-- The broker, the idempotency store of the consumers, the handlers that were
started with the number of the message, and the copies that a handler handled
without an exception. -/
structure RabbitState (Body : Type*) where
  broker : BrokerState QueueName Subscription Body OnMessage
  store : IdempotencyStore String
  invoked : List (Nat × HandlerId)
  handled : List (Copy QueueName Body)

inductive RabbitAction (Body : Type*) where
  | publish (routingKey : String) (body : Body)
  | deliver (n consumer : Nat)
  | resume (n : Nat) (outcome : HandlerOutcome)

namespace RabbitState

variable {Body : Type*}

def initial (store : IdempotencyStore String) : RabbitState Body := ⟨.empty, store, [], []⟩

def withBroker (s : RabbitState Body) (broker : BrokerState QueueName Subscription Body OnMessage) :
    RabbitState Body :=
  { s with broker := broker }

/-- One step of `on_message`. -/
def resume (codec : EnvelopeCodec Body) (topology : RabbitTopology) (s : RabbitState Body) (n : Nat)
    (delivery : Delivery QueueName Subscription Body OnMessage) (outcome : HandlerOutcome) :
    RabbitState Body :=
  match delivery.work with
  | .decoding =>
      match codec.modelValidateJson delivery.copy.body with
      | some envelope => s.withBroker (s.broker.proceed n delivery (.guarded envelope .acquiring))
      | none => s.withBroker (s.broker.reject topology n delivery)
  | .guarded envelope phase =>
      let (store, next) := delivery.consumer.resume envelope.eventId s.store outcome phase
      let starts := (delivery.consumer.starts envelope.eventId next).map fun start =>
        (delivery.copy.serial, start.1)
      let s := { s with store := store, invoked := s.invoked ++ starts }
      match next with
      | .awaits phase => s.withBroker (s.broker.proceed n delivery (.guarded envelope phase))
      | .skipped => s.withBroker (s.broker.ack n delivery)
      | .handled .returned =>
          { s.withBroker (s.broker.ack n delivery) with handled := s.handled ++ [delivery.copy] }
      | .handled .raised => s.withBroker (s.broker.reject topology n delivery)

end RabbitState

def rabbitStep {Body : Type*} (codec : EnvelopeCodec Body) (topology : RabbitTopology)
    (s : RabbitState Body) : RabbitAction Body → Option (RabbitState Body)
  | .publish routingKey body => some (s.withBroker (s.broker.publish topology routingKey body))
  | .deliver n consumer =>
      match s.broker.ready[n]? with
      | some copy =>
          match (topology.consumers copy.queue)[consumer]? with
          | some sub => some (s.withBroker (s.broker.deliver n copy sub .decoding))
          | none => none
      | none => none
  | .resume n outcome =>
      match s.broker.unacked[n]? with
      | some delivery => some (s.resume codec topology n delivery outcome)
      | none => none

section Step

variable {Body : Type*} {codec : EnvelopeCodec Body} {topology : RabbitTopology} {s t : RabbitState Body}
  {a : RabbitAction Body}

/-- What `on_message` does with a delivery of a consumer without an
idempotency store, case by case. -/
inductive Consumed (codec : EnvelopeCodec Body) (topology : RabbitTopology) (s : RabbitState Body) (n : Nat)
    (delivery : Delivery QueueName Subscription Body OnMessage) (outcome : HandlerOutcome) :
    RabbitState Body → Prop where
  | decoded {envelope : EventEnvelope} (hWork : delivery.work = .decoding)
      (hBody : codec.modelValidateJson delivery.copy.body = some envelope) :
      Consumed codec topology s n delivery outcome
        (s.withBroker (s.broker.proceed n delivery (.guarded envelope .acquiring)))
  | undecodable (hWork : delivery.work = .decoding)
      (hBody : codec.modelValidateJson delivery.copy.body = none) :
      Consumed codec topology s n delivery outcome (s.withBroker (s.broker.reject topology n delivery))
  | started {envelope : EventEnvelope} (hWork : delivery.work = .guarded envelope .acquiring) :
      Consumed codec topology s n delivery outcome
        { s.withBroker (s.broker.proceed n delivery (.guarded envelope .handling)) with
          invoked := s.invoked ++ [(delivery.copy.serial, delivery.consumer.handler)] }
  | handled {envelope : EventEnvelope} (hWork : delivery.work = .guarded envelope .handling)
      (hOutcome : outcome = .returned) :
      Consumed codec topology s n delivery outcome
        { s.withBroker (s.broker.ack n delivery) with handled := s.handled ++ [delivery.copy] }
  | raised {envelope : EventEnvelope} (hWork : delivery.work = .guarded envelope .handling)
      (hOutcome : outcome = .raised) :
      Consumed codec topology s n delivery outcome (s.withBroker (s.broker.reject topology n delivery))

/-- A delivery whose consumer has no store is never about to write to it. -/
def Plain (delivery : Delivery QueueName Subscription Body OnMessage) : Prop :=
  ∀ envelope outcome, delivery.work ≠ .guarded envelope (.finishing outcome)

theorem resume_consumed (s : RabbitState Body) (n : Nat)
    {delivery : Delivery QueueName Subscription Body OnMessage} (outcome : HandlerOutcome)
    (hStore : delivery.consumer.idemStore = false) (hPlain : Plain delivery) :
    Consumed codec topology s n delivery outcome (s.resume codec topology n delivery outcome) := by
  unfold RabbitState.resume
  cases hWork : delivery.work with
  | decoding =>
      cases hBody : codec.modelValidateJson delivery.copy.body with
      | some envelope => exact .decoded hWork hBody
      | none => exact .undecodable hWork hBody
  | guarded envelope phase =>
      cases phase with
      | acquiring =>
          simpa [Subscription.resume, hStore, Subscription.starts, RabbitState.withBroker] using
            Consumed.started hWork
      | handling =>
          cases outcome with
          | returned =>
              simpa [Subscription.resume, hStore, Subscription.starts, RabbitState.withBroker] using
                Consumed.handled hWork rfl
          | raised =>
              simpa [Subscription.resume, hStore, Subscription.starts, RabbitState.withBroker] using
                Consumed.raised hWork rfl
      | finishing result => exact absurd hWork (hPlain envelope result)

theorem rabbitStep_cases (h : rabbitStep codec topology s a = some t) :
    (∃ routingKey body, a = .publish routingKey body ∧
      t = s.withBroker (s.broker.publish topology routingKey body)) ∨
    (∃ n consumer copy sub, a = .deliver n consumer ∧ s.broker.ready[n]? = some copy ∧
      sub ∈ topology.consumers copy.queue ∧ t = s.withBroker (s.broker.deliver n copy sub .decoding)) ∨
    (∃ n outcome delivery, a = .resume n outcome ∧ s.broker.unacked[n]? = some delivery ∧
      t = s.resume codec topology n delivery outcome) := by
  cases a with
  | publish routingKey body =>
      cases h
      exact Or.inl ⟨routingKey, body, rfl, rfl⟩
  | deliver n consumer =>
      simp only [rabbitStep] at h
      split at h
      · next copy hReady =>
          split at h
          · next sub hSub =>
              cases h
              exact Or.inr (Or.inl ⟨n, consumer, copy, sub, rfl, hReady, List.mem_of_getElem? hSub, rfl⟩)
          · cases h
      · cases h
  | resume n outcome =>
      simp only [rabbitStep] at h
      split at h
      · next delivery hUnacked =>
          cases h
          exact Or.inr (Or.inr ⟨n, outcome, delivery, rfl, hUnacked, rfl⟩)
      · cases h

/-- The consumers have no idempotency store and the queues no dead letters. -/
structure PlainTopology (topology : RabbitTopology) : Prop where
  noStore : ∀ queue, ∀ sub ∈ topology.consumers queue, sub.idemStore = false
  noDeadLetters : ∀ queue, topology.deadLetters queue = false

/-- The broker loses track of no copy, and an acknowledged copy has been
handled without an exception. -/
structure RabbitInv (topology : RabbitTopology) (s : RabbitState Body) : Prop where
  conserved : Conserved topology s.broker
  plain : ∀ delivery ∈ s.broker.unacked, Plain delivery
  handled : s.broker.acked.map Delivery.copy = s.handled
  dead : s.broker.dead = []

theorem rabbitInv_initial (store : IdempotencyStore String) :
    RabbitInv topology (RabbitState.initial store : RabbitState Body) where
  conserved := .empty
  plain := by
    intro delivery h
    cases h
  handled := rfl
  dead := rfl

theorem plain_proceed {n : Nat} {delivery : Delivery QueueName Subscription Body OnMessage}
    (hPlain : ∀ other ∈ s.broker.unacked, Plain other) {work : OnMessage}
    (hWork : ∀ envelope outcome, work ≠ .guarded envelope (.finishing outcome)) :
    ∀ other ∈ (s.broker.proceed n delivery work).unacked, Plain other := by
  intro other h
  rcases List.mem_or_eq_of_mem_set h with hOld | rfl
  · exact hPlain other hOld
  · exact hWork

/-- The step of a delivery, for an unacknowledged one of the state. -/
theorem RabbitInv.consumed (inv : RabbitInv topology s) (hTopology : PlainTopology topology)
    (codec : EnvelopeCodec Body) {n : Nat} {delivery : Delivery QueueName Subscription Body OnMessage}
    (hUnacked : s.broker.unacked[n]? = some delivery) (outcome : HandlerOutcome) :
    Consumed codec topology s n delivery outcome (s.resume codec topology n delivery outcome) := by
  have hMem := List.mem_of_getElem? hUnacked
  apply resume_consumed
  · apply hTopology.noStore delivery.copy.queue
    exact inv.conserved.served delivery (List.mem_append_left _ hMem)
  · exact inv.plain delivery hMem

theorem RabbitInv.reject (inv : RabbitInv topology s) (hTopology : PlainTopology topology) {n : Nat}
    {delivery : Delivery QueueName Subscription Body OnMessage}
    (hUnacked : s.broker.unacked[n]? = some delivery) :
    RabbitInv topology (s.withBroker (s.broker.reject topology n delivery)) := by
  have hReject : s.broker.reject topology n delivery =
      { s.broker with
        unacked := s.broker.unacked.eraseIdx n
        dropped := s.broker.dropped ++ [delivery.copy] } := by
    simp [BrokerState.reject, hTopology.noDeadLetters delivery.copy.queue]
  constructor
  · exact inv.conserved.reject hUnacked
  · intro other h
    simp only [RabbitState.withBroker, hReject] at h
    exact inv.plain other (List.mem_of_mem_eraseIdx h)
  · simp only [RabbitState.withBroker, hReject]
    exact inv.handled
  · simp only [RabbitState.withBroker, hReject]
    exact inv.dead

theorem RabbitInv.step (inv : RabbitInv topology s) (hTopology : PlainTopology topology)
    (h : rabbitStep codec topology s a = some t) : RabbitInv topology t := by
  obtain ⟨routingKey, body, -, rfl⟩ | ⟨n, consumer, copy, sub, -, hReady, hSub, rfl⟩ |
    ⟨n, outcome, delivery, -, hUnacked, rfl⟩ := rabbitStep_cases h
  · exact ⟨inv.conserved.publish routingKey body, inv.plain, inv.handled, inv.dead⟩
  · refine ⟨inv.conserved.deliver hReady hSub _, ?_, inv.handled, inv.dead⟩
    intro other hOther
    rcases List.mem_append.mp hOther with hOld | hNew
    · exact inv.plain other hOld
    · rw [List.mem_singleton.mp hNew]
      intro envelope outcome hWork
      cases hWork
  · have hConsumed := inv.consumed hTopology codec hUnacked outcome
    revert hConsumed
    generalize s.resume codec topology n delivery outcome = t
    intro hConsumed
    cases hConsumed with
    | decoded =>
        refine ⟨inv.conserved.proceed hUnacked _, ?_, inv.handled, inv.dead⟩
        apply plain_proceed inv.plain
        intro envelope outcome hWork
        cases hWork
    | undecodable => exact inv.reject hTopology hUnacked
    | started =>
        refine ⟨inv.conserved.proceed hUnacked _, ?_, inv.handled, inv.dead⟩
        apply plain_proceed inv.plain
        intro envelope outcome hWork
        cases hWork
    | handled =>
        refine ⟨inv.conserved.ack hUnacked, ?_, ?_, inv.dead⟩
        · intro other hOther
          exact inv.plain other (List.mem_of_mem_eraseIdx hOther)
        · show (s.broker.acked ++ [delivery]).map Delivery.copy = s.handled ++ [delivery.copy]
          rw [List.map_append, inv.handled]
          rfl
    | raised => exact inv.reject hTopology hUnacked

end Step

end ServicePlatform
