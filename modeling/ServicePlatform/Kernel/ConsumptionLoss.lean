import ServicePlatform.Kernel.RabbitBus

/-! When a message that RabbitMQ accepted is gone. The queues are declared
without dead letters, so a message whose delivery ends with an exception is
dropped by the broker, at the first attempt. -/
namespace ServicePlatform

open Broker Transition

namespace RabbitEventBus

theorem plain_subscribeAll {subs : List Subscription} (h : ∀ sub ∈ subs, sub.idemStore = false) :
    PlainTopology (subscribeAll subs) where
  noStore := by
    intro queue sub hSub
    obtain ⟨n, hAt, -⟩ := mem_consumers.mp hSub
    exact h sub (List.mem_of_getElem? hAt)
  noDeadLetters := deadLetters_subscribeAll subs

end RabbitEventBus

section Loss

variable {Body : Type*} {codec : EnvelopeCodec Body} {topology : RabbitTopology} {s t : RabbitState Body}

/-- The delivery does not end with an exception in this step. -/
def FineDelivery (codec : EnvelopeCodec Body) (outcome : HandlerOutcome)
    (delivery : Delivery QueueName Subscription Body OnMessage) : Prop :=
  match delivery.work with
  | .decoding => codec.modelValidateJson delivery.copy.body ≠ none
  | .guarded _ .handling => outcome = .returned
  | .guarded _ _ => True

/-- The step does not end a delivery with an exception: the body that is
decoded is an envelope, and the handler that ends returns. -/
def Fine (codec : EnvelopeCodec Body) (s : RabbitState Body) (a : RabbitAction Body) : Prop :=
  ∀ n outcome, a = .resume n outcome → ∀ delivery, s.broker.unacked[n]? = some delivery →
    FineDelivery codec outcome delivery

/-- A message is lost in the steps that end a delivery with an exception. -/
theorem dropped_step {a : RabbitAction Body} (inv : RabbitInv topology s) (hTopology : PlainTopology topology)
    (h : rabbitStep codec topology s a = some t) :
    t.broker.dropped = [] ↔ s.broker.dropped = [] ∧ Fine codec s a := by
  have hReject : ∀ n delivery, (s.broker.reject topology n delivery).dropped =
      s.broker.dropped ++ [delivery.copy] := by
    intro n delivery
    simp [BrokerState.reject, hTopology.noDeadLetters delivery.copy.queue]
  obtain ⟨routingKey, body, rfl, rfl⟩ | ⟨n, consumer, copy, sub, rfl, hReady, hSub, rfl⟩ |
    ⟨n, outcome, delivery, rfl, hUnacked, rfl⟩ := rabbitStep_cases h
  · have hFine : Fine codec s (.publish routingKey body) := by
      intro n outcome hAction
      cases hAction
    exact ⟨fun hNone => ⟨hNone, hFine⟩, fun hNone => hNone.1⟩
  · have hFine : Fine codec s (.deliver n consumer) := by
      intro n outcome hAction
      cases hAction
    exact ⟨fun hNone => ⟨hNone, hFine⟩, fun hNone => hNone.1⟩
  · have hFine : Fine codec s (.resume n outcome) ↔ FineDelivery codec outcome delivery := by
      constructor
      · intro hStep
        exact hStep n outcome rfl delivery hUnacked
      · intro hDelivery n' outcome' hAction delivery' hUnacked'
        cases hAction
        cases hUnacked.symm.trans hUnacked'
        exact hDelivery
    rw [hFine]
    have hConsumed := inv.consumed hTopology codec hUnacked outcome
    revert hConsumed
    generalize s.resume codec topology n delivery outcome = t
    intro hConsumed
    cases hConsumed with
    | decoded hWork hBody =>
        simp [RabbitState.withBroker, BrokerState.proceed, FineDelivery, hWork, hBody]
    | undecodable hWork hBody => simp [RabbitState.withBroker, hReject, FineDelivery, hWork, hBody]
    | started hWork => simp [RabbitState.withBroker, BrokerState.proceed, FineDelivery, hWork]
    | handled hWork hOutcome =>
        simp [RabbitState.withBroker, BrokerState.ack, FineDelivery, hWork, hOutcome]
    | raised hWork hOutcome => simp [RabbitState.withBroker, hReject, FineDelivery, hWork, hOutcome]

/-- Every copy that came to a queue is still with the broker, or a handler
handled it to the end without an exception. -/
def NoneLost (s : RabbitState Body) : Prop :=
  ∀ copy ∈ s.broker.arrived, copy ∈ s.broker.ready ∨ copy ∈ s.broker.unacked.map Delivery.copy ∨
    copy ∈ s.broker.dead ∨ copy ∈ s.handled

theorem noneLost_iff (inv : RabbitInv topology s) : NoneLost s ↔ s.broker.dropped = [] := by
  rw [inv.conserved.dropped_iff, inv.handled]
  rfl

/-- No message is lost in a run if and only if no delivery of the run ends
with an exception. -/
theorem consumption_lossless_iff {subs : List Subscription} (hPlain : ∀ sub ∈ subs, sub.idemStore = false)
    {store : IdempotencyStore String} {as : List (RabbitAction Body)}
    (run : exec (rabbitStep codec (RabbitEventBus.subscribeAll subs)) (.initial store) as = some t) :
    NoneLost t ↔
      Along (rabbitStep codec (RabbitEventBus.subscribeAll subs)) (Fine codec) (.initial store) as := by
  have hTopology := RabbitEventBus.plain_subscribeAll hPlain
  have inv : RabbitInv (RabbitEventBus.subscribeAll subs) t := by
    apply invariant (fun s a t inv h => RabbitInv.step inv hTopology h) _ run
    exact rabbitInv_initial store
  rw [noneLost_iff inv, holds_iff_along (A := fun _ => True) (Q := fun s => s.broker.dropped = [])
    (fun s a t inv _ h => RabbitInv.step inv hTopology h)
    (fun s a t inv _ h => dropped_step inv hTopology h) (rabbitInv_initial store) (fun _ _ => trivial) run]
  exact and_iff_right rfl

end Loss

/-- Bodies that are known by what they decode to. -/
def sampleCodec : EnvelopeCodec (Option EventEnvelope) := ⟨some, id⟩

def sampleTopology : RabbitTopology := RabbitEventBus.subscribeAll [⟨"user.created.v1", 0, false⟩]

/-- One message comes to its handler, which ends with the outcome. -/
def consumeOne (outcome : HandlerOutcome) : List (RabbitAction (Option EventEnvelope)) :=
  [.publish "user.created.v1" (some sampleEnvelope), .deliver 0 0, .resume 0 .returned,
    .resume 0 .returned, .resume 0 outcome]

theorem consumption_lossless_iff_returned :
    Along (rabbitStep sampleCodec sampleTopology) (Fine sampleCodec) (.initial .empty)
      (consumeOne .returned) := by
  have hRun : (exec (rabbitStep sampleCodec sampleTopology) (.initial .empty)
      (consumeOne .returned)).isSome = true := rfl
  obtain ⟨t, ht⟩ := Option.isSome_iff_exists.mp hRun
  have hPlain : ∀ sub ∈ [(⟨"user.created.v1", 0, false⟩ : Subscription)], sub.idemStore = false := by
    simp
  apply (consumption_lossless_iff hPlain ht).mp
  cases ht
  intro copy hCopy
  exact Or.inr (Or.inr (Or.inr hCopy))

/-- A message whose handler raised is nowhere. -/
theorem consumption_loses_failed :
    ∃ t, exec (rabbitStep sampleCodec sampleTopology) (.initial .empty) (consumeOne .raised) = some t ∧
      ¬ NoneLost t := by
  refine ⟨_, rfl, ?_⟩
  intro hHeld
  have hPlace := hHeld ⟨.named "user.created.v1", 0, some sampleEnvelope⟩ (List.mem_cons_self ..)
  rcases hPlace with hReady | hUnacked | hDead | hHandled
  · cases hReady
  · cases hUnacked
  · cases hDead
  · cases hHandled

end ServicePlatform
