import ServicePlatform.Kernel.ConsumptionLoss

/-! Complete runs over RabbitMQ without exceptions. Each queue that an event is
routed to gets one copy, and one consumer of the queue handles it; any choice
of consumers is possible. -/
namespace ServicePlatform

open Broker Transition

section Flow

variable {Body : Type*} {codec : EnvelopeCodec Body} {topology : RabbitTopology} {s t : RabbitState Body}
  {a : RabbitAction Body} {as : List (RabbitAction Body)}

/-- The handler call that a delivery stands for, with the number of its message. -/
def handlerCall (delivery : Delivery QueueName Subscription Body OnMessage) : Nat × HandlerId :=
  (delivery.copy.serial, delivery.consumer.handler)

/-- The handler call that is going on, if any. -/
def callInProgress (delivery : Delivery QueueName Subscription Body OnMessage) : List (Nat × HandlerId) :=
  match delivery.work with
  | .guarded _ .handling => [handlerCall delivery]
  | _ => []

def RabbitAction.publication : RabbitAction Body → Option (String × Body)
  | .publish routingKey body => some (routingKey, body)
  | _ => none

/-- The action puts no undecodable body on a queue and is no exception of a
handler. -/
def RabbitAction.Calm (codec : EnvelopeCodec Body) : RabbitAction Body → Prop
  | .publish _ body => codec.modelValidateJson body ≠ none
  | .resume _ outcome => outcome = .returned
  | .deliver _ _ => True

/-- Without exceptions nothing is dropped, and every handler call is one of an
acknowledged delivery or is going on. -/
structure FlowInv (codec : EnvelopeCodec Body) (topology : RabbitTopology) (s : RabbitState Body) : Prop where
  rabbit : RabbitInv topology s
  readable : ∀ copy ∈ s.broker.arrived, codec.modelValidateJson copy.body ≠ none
  complete : s.broker.dropped = []
  invoked : s.invoked.Perm (s.broker.acked.map handlerCall ++ s.broker.unacked.flatMap callInProgress)

theorem flowInv_initial (store : IdempotencyStore String) :
    FlowInv codec topology (RabbitState.initial store : RabbitState Body) where
  rabbit := rabbitInv_initial store
  readable := by
    intro copy h
    cases h
  complete := rfl
  invoked := .nil

/-- A copy in delivery is one that arrived. -/
theorem RabbitInv.copy_arrived (inv : RabbitInv topology s) {n : Nat}
    {delivery : Delivery QueueName Subscription Body OnMessage}
    (hUnacked : s.broker.unacked[n]? = some delivery) : delivery.copy ∈ s.broker.arrived := by
  rw [inv.conserved.balance.mem_iff]
  have hCopy : delivery.copy ∈ s.broker.unacked.map Delivery.copy :=
    List.mem_map_of_mem (List.mem_of_getElem? hUnacked)
  simp only [BrokerState.places, List.mem_append]
  tauto

theorem FlowInv.fine (inv : FlowInv codec topology s) (hCalm : a.Calm codec) : Fine codec s a := by
  rintro n outcome rfl delivery hUnacked
  unfold FineDelivery
  split
  · exact inv.readable delivery.copy (inv.rabbit.copy_arrived hUnacked)
  · exact hCalm
  · trivial

/-- What the calls in progress are after one delivery went on. -/
theorem callInProgress_proceed {n : Nat} {delivery : Delivery QueueName Subscription Body OnMessage}
    (hUnacked : s.broker.unacked[n]? = some delivery) (work : OnMessage) :
    ∃ others, (s.broker.unacked.flatMap callInProgress).Perm (callInProgress delivery ++ others) ∧
      ((s.broker.proceed n delivery work).unacked.flatMap callInProgress).Perm
        (callInProgress { delivery with work := work } ++ others) ∧
      ((s.broker.ack n delivery).unacked.flatMap callInProgress).Perm others := by
  obtain ⟨hLength, -⟩ := List.getElem?_eq_some_iff.mp hUnacked
  refine ⟨(s.broker.unacked.eraseIdx n).flatMap callInProgress, ?_, ?_, .refl _⟩
  · exact (perm_of_getElem? hUnacked).flatMap_right _
  · exact (List.set_perm_cons_eraseIdx hLength _).flatMap_right _

/-- A call of a handler that starts is in progress. -/
theorem FlowInv.call_starts (inv : FlowInv codec topology s) {n : Nat}
    {delivery : Delivery QueueName Subscription Body OnMessage}
    (hUnacked : s.broker.unacked[n]? = some delivery) (hIdle : callInProgress delivery = [])
    (envelope : EventEnvelope) :
    (s.invoked ++ [handlerCall delivery]).Perm (s.broker.acked.map handlerCall ++
      (s.broker.proceed n delivery (.guarded envelope .handling)).unacked.flatMap callInProgress) := by
  obtain ⟨others, hBefore, hAfter, -⟩ := callInProgress_proceed hUnacked (.guarded envelope .handling)
  rw [hIdle] at hBefore
  classical
  apply List.perm_iff_count.mpr
  intro call
  have hOld := inv.invoked.count_eq call
  have hLess := hBefore.count_eq call
  have hMore := hAfter.count_eq call
  have hCall : callInProgress { delivery with work := .guarded envelope .handling } =
    [handlerCall delivery] := rfl
  simp only [List.count_append, List.nil_append, hCall] at hOld hLess hMore ⊢
  omega

/-- A call of a handler that is done is one of an acknowledged delivery. -/
theorem FlowInv.call_ends (inv : FlowInv codec topology s) {n : Nat}
    {delivery : Delivery QueueName Subscription Body OnMessage}
    (hUnacked : s.broker.unacked[n]? = some delivery)
    (hCall : callInProgress delivery = [handlerCall delivery]) :
    s.invoked.Perm ((s.broker.acked ++ [delivery]).map handlerCall ++
      (s.broker.ack n delivery).unacked.flatMap callInProgress) := by
  obtain ⟨others, hBefore, -, hAfter⟩ := callInProgress_proceed hUnacked .decoding
  rw [hCall] at hBefore
  classical
  apply List.perm_iff_count.mpr
  intro call
  have hOld := inv.invoked.count_eq call
  have hLess := hBefore.count_eq call
  have hMore := hAfter.count_eq call
  simp only [List.count_append, List.map_append, List.map_cons, List.map_nil] at hOld hLess hMore ⊢
  omega

theorem FlowInv.step (inv : FlowInv codec topology s) (hTopology : PlainTopology topology)
    (hCalm : a.Calm codec) (h : rabbitStep codec topology s a = some t) : FlowInv codec topology t := by
  have hRabbit := inv.rabbit.step hTopology h
  have hComplete := (dropped_step inv.rabbit hTopology h).mpr ⟨inv.complete, inv.fine hCalm⟩
  obtain ⟨routingKey, body, rfl, rfl⟩ | ⟨n, consumer, copy, sub, -, hReady, hSub, rfl⟩ |
    ⟨n, outcome, delivery, rfl, hUnacked, rfl⟩ := rabbitStep_cases h
  · refine ⟨hRabbit, ?_, hComplete, inv.invoked⟩
    intro copy hCopy
    rcases List.mem_append.mp hCopy with hOld | hNew
    · exact inv.readable copy hOld
    · obtain ⟨queue, -, rfl⟩ := List.mem_map.mp hNew
      exact hCalm
  · refine ⟨hRabbit, inv.readable, hComplete, ?_⟩
    have hSame : (s.broker.deliver n copy sub .decoding).unacked.flatMap callInProgress =
        s.broker.unacked.flatMap callInProgress := by
      simp [BrokerState.deliver, callInProgress]
    show s.invoked.Perm (s.broker.acked.map handlerCall ++
      (s.broker.deliver n copy sub .decoding).unacked.flatMap callInProgress)
    rw [hSame]
    exact inv.invoked
  · have hCopy := inv.readable delivery.copy (inv.rabbit.copy_arrived hUnacked)
    have hConsumed := inv.rabbit.consumed hTopology codec hUnacked outcome
    revert hConsumed hRabbit hComplete
    generalize s.resume codec topology n delivery outcome = t
    intro hRabbit hComplete hConsumed
    cases hConsumed with
    | decoded hWork hBody =>
        obtain ⟨others, hBefore, hAfter, -⟩ := callInProgress_proceed hUnacked (.guarded _ .acquiring)
        refine ⟨hRabbit, inv.readable, hComplete, inv.invoked.trans (List.Perm.append_left _ ?_)⟩
        have hIdle : callInProgress delivery = [] := by simp [callInProgress, hWork]
        rw [hIdle] at hBefore
        exact hBefore.trans hAfter.symm
    | undecodable hWork hBody => exact absurd hBody hCopy
    | @started envelope hWork =>
        have hIdle : callInProgress delivery = [] := by simp [callInProgress, hWork]
        exact ⟨hRabbit, inv.readable, hComplete, inv.call_starts hUnacked hIdle envelope⟩
    | handled hWork hOutcome =>
        have hCall : callInProgress delivery = [handlerCall delivery] := by simp [callInProgress, hWork]
        exact ⟨hRabbit, inv.readable, hComplete, inv.call_ends hUnacked hCall⟩
    | raised hWork hOutcome =>
        have hReturned : outcome = .returned := hCalm
        rw [hOutcome] at hReturned
        cases hReturned

/-- The other steps neither number nor add copies. -/
theorem arrived_step (hOther : a.publication = none) (h : rabbitStep codec topology s a = some t) :
    t.broker.serial = s.broker.serial ∧ t.broker.arrived = s.broker.arrived := by
  have hReject : ∀ n delivery, (s.broker.reject topology n delivery).serial = s.broker.serial ∧
      (s.broker.reject topology n delivery).arrived = s.broker.arrived := by
    intro n delivery
    unfold BrokerState.reject
    split <;> exact ⟨rfl, rfl⟩
  obtain ⟨routingKey, body, rfl, -⟩ | ⟨n, consumer, copy, sub, -, -, -, rfl⟩ |
    ⟨n, outcome, delivery, -, -, rfl⟩ := rabbitStep_cases h
  · cases hOther
  · exact ⟨rfl, rfl⟩
  · unfold RabbitState.resume
    split
    · split
      · exact ⟨rfl, rfl⟩
      · exact hReject n delivery
    · simp only
      split
      · exact ⟨rfl, rfl⟩
      · exact ⟨rfl, rfl⟩
      · exact ⟨rfl, rfl⟩
      · exact hReject n delivery

/-- A publish adds one copy of its message for each queue, under a new number. -/
theorem arrived_publish (inv : RabbitInv topology s) {key : String} {body : Body} {n : Nat} :
    (s.broker.arrived ++ (topology.route key).map fun queue =>
        (⟨queue, s.broker.serial, body⟩ : Copy QueueName Body)).filter (fun copy => copy.serial = n) =
      if n = s.broker.serial then (topology.route key).map fun queue => ⟨queue, n, body⟩
      else s.broker.arrived.filter fun copy => copy.serial = n := by
  rw [List.filter_append]
  split
  · next hNumber =>
      rw [hNumber]
      have hNone : s.broker.arrived.filter (fun copy => copy.serial = s.broker.serial) = [] := by
        apply List.filter_eq_nil_iff.mpr
        intro copy hCopy
        have hEarlier := inv.conserved.numbered copy hCopy
        simp only [decide_eq_true_eq]
        omega
      rw [hNone, List.nil_append]
      apply List.filter_eq_self.mpr
      intro copy hCopy
      obtain ⟨queue, -, rfl⟩ := List.mem_map.mp hCopy
      simp
  · next hNumber =>
      rw [List.append_right_eq_self, List.filter_eq_nil_iff]
      intro copy hCopy
      obtain ⟨queue, -, rfl⟩ := List.mem_map.mp hCopy
      simpa using Ne.symm hNumber

/-- The copies of the n-th message are one for each queue it is routed to. -/
theorem arrived_of_run (hTopology : PlainTopology topology) {store : IdempotencyStore String}
    (run : exec (rabbitStep codec topology) (.initial store) as = some t) :
    t.broker.serial = (as.filterMap RabbitAction.publication).length ∧
    ∀ n key body, (as.filterMap RabbitAction.publication)[n]? = some (key, body) →
      t.broker.arrived.filter (fun copy => copy.serial = n) =
        (topology.route key).map fun queue => ⟨queue, n, body⟩ := by
  induction as using List.reverseRecOn generalizing t with
  | nil =>
      cases run
      exact ⟨rfl, by simp⟩
  | append_singleton as a ih =>
      obtain ⟨m, hm, h⟩ := exec_concat.mp run
      obtain ⟨hSerial, hArrived⟩ := ih hm
      have inv : RabbitInv topology m :=
        invariant (fun s a t inv h => RabbitInv.step inv hTopology h) (rabbitInv_initial store) hm
      rw [List.filterMap_append]
      cases hPublication : a.publication with
      | none =>
          obtain ⟨hSerial', hArrived'⟩ := arrived_step hPublication h
          rw [hSerial', hArrived']
          simpa [hPublication] using ⟨hSerial, hArrived⟩
      | some published =>
          cases a with
          | deliver n consumer => cases hPublication
          | resume n outcome => cases hPublication
          | publish key body =>
              cases hPublication
              cases h
              have hLast : [RabbitAction.publish key body].filterMap RabbitAction.publication =
                [(key, body)] := rfl
              rw [hLast]
              constructor
              · show m.broker.serial + 1 = _
                rw [hSerial, List.length_append, List.length_singleton]
              · intro n key' body' hAt
                show (m.broker.arrived ++ _).filter _ = _
                rw [arrived_publish inv]
                rcases getElem?_concat_iff.mp hAt with hOld | ⟨hNumber, hNew⟩
                · have hEarlier : n < m.broker.serial := by
                    rw [hSerial]
                    exact (List.getElem?_eq_some_iff.mp hOld).1
                  rw [if_neg (Nat.ne_of_lt hEarlier)]
                  exact hArrived n key' body' hOld
                · cases hNew
                  rw [if_pos (hNumber.trans hSerial.symm)]

/-- The handlers that were started for the n-th message. -/
def RabbitState.handlersOf (s : RabbitState Body) (n : Nat) : List HandlerId :=
  (s.invoked.filter fun call => call.1 = n).map Prod.snd

/-- `RabbitEventBus.publish`, with the event name as routing key. -/
def publishEvent (codec : EnvelopeCodec Body) (envelope : EventEnvelope) : RabbitAction Body :=
  .publish envelope.eventName (codec.modelDumpJson envelope)

/-- A run in which the events are published in order, no handler raises, and
all messages come to their end. -/
def RabbitRun (codec : EnvelopeCodec Body) (subs : List Subscription) (events : List EventEnvelope)
    (t : RabbitState Body) : Prop :=
  ∃ as, exec (rabbitStep codec (RabbitEventBus.subscribeAll subs)) (.initial .empty) as = some t ∧
    as.filterMap RabbitAction.publication = events.map (fun e => (e.eventName, codec.modelDumpJson e)) ∧
    (∀ n outcome, .resume n outcome ∈ as → outcome = .returned) ∧
    t.broker.ready = [] ∧ t.broker.unacked = []

variable {subs : List Subscription} {events : List EventEnvelope}

/-- The envelopes that are published can be read back. -/
def Readable (codec : EnvelopeCodec Body) (events : List EventEnvelope) : Prop :=
  ∀ envelope ∈ events, codec.modelValidateJson (codec.modelDumpJson envelope) ≠ none

theorem flowInv_of_run (hPlain : ∀ sub ∈ subs, sub.idemStore = false) (hReadable : Readable codec events)
    (run : exec (rabbitStep codec (RabbitEventBus.subscribeAll subs)) (.initial .empty) as = some t)
    (hPublished : as.filterMap RabbitAction.publication =
      events.map (fun e => (e.eventName, codec.modelDumpJson e)))
    (hReturns : ∀ n outcome, .resume n outcome ∈ as → outcome = .returned) :
    FlowInv codec (RabbitEventBus.subscribeAll subs) t := by
  apply invariant_along (P := fun _ a => RabbitAction.Calm codec a)
    (fun s a t inv hCalm h => FlowInv.step inv (RabbitEventBus.plain_subscribeAll hPlain) hCalm h)
    (flowInv_initial .empty) _ run
  apply along_of_forall
  intro a ha s
  cases a with
  | publish key body =>
      have hMem : (key, body) ∈ as.filterMap RabbitAction.publication :=
        List.mem_filterMap.mpr ⟨.publish key body, ha, rfl⟩
      rw [hPublished] at hMem
      obtain ⟨envelope, hEnvelope, hSame⟩ := List.mem_map.mp hMem
      cases hSame
      exact hReadable envelope hEnvelope
  | deliver n consumer => trivial
  | resume n outcome => exact hReturns n outcome ha

/-- In a complete run, each queue that an event is routed to hands its copy to
one consumer, and these are the handlers that are started for the event. -/
theorem RabbitRun.deliveries (h : RabbitRun codec subs events t)
    (hPlain : ∀ sub ∈ subs, sub.idemStore = false) (hReadable : Readable codec events) {n : Nat}
    {envelope : EventEnvelope} (hEvent : events[n]? = some envelope) :
    ∃ deliveries : List (Delivery QueueName Subscription Body OnMessage),
      (∀ delivery ∈ deliveries, delivery ∈ t.broker.acked ∧
        delivery.consumer ∈ (RabbitEventBus.subscribeAll subs).consumers delivery.copy.queue) ∧
      (deliveries.map fun delivery => delivery.copy.queue).Perm
        ((RabbitEventBus.subscribeAll subs).route envelope.eventName) ∧
      (t.handlersOf n).Perm (deliveries.map fun delivery => delivery.consumer.handler) := by
  obtain ⟨as, run, hPublished, hReturns, hReady, hUnacked⟩ := h
  have inv := flowInv_of_run hPlain hReadable run hPublished hReturns
  have hTopology := RabbitEventBus.plain_subscribeAll hPlain
  have hAt : (as.filterMap RabbitAction.publication)[n]? =
      some (envelope.eventName, codec.modelDumpJson envelope) := by
    rw [hPublished, List.getElem?_map, hEvent]
    rfl
  have hArrived := (arrived_of_run hTopology run).2 n _ _ hAt
  have hBalance : t.broker.arrived.Perm (t.broker.acked.map Delivery.copy) := by
    have hPlaces := inv.rabbit.conserved.balance
    rw [BrokerState.places, hReady, hUnacked, inv.rabbit.dead, inv.complete] at hPlaces
    simpa using hPlaces
  have hInvoked : t.invoked.Perm (t.broker.acked.map handlerCall) := by
    have hCalls := inv.invoked
    rw [hUnacked] at hCalls
    simpa using hCalls
  refine ⟨t.broker.acked.filter fun delivery => delivery.copy.serial = n, ?_, ?_, ?_⟩
  · intro delivery hMem
    have hAcked := List.mem_of_mem_filter hMem
    exact ⟨hAcked, inv.rabbit.conserved.served delivery (List.mem_append_right _ hAcked)⟩
  · have hCopies := hBalance.filter fun copy => copy.serial = n
    rw [hArrived, List.filter_map] at hCopies
    have hQueues := (hCopies.map Copy.queue).symm
    simpa [Function.comp_def] using hQueues
  · have hCalls := (hInvoked.filter fun call => call.1 = n).map Prod.snd
    rw [List.filter_map, List.map_map] at hCalls
    exact hCalls

section Choice

variable {choice : QueueName → Subscription}

/-- Messages that are ready can be brought to their end, one after the other,
with the consumers as chosen. -/
theorem exists_drained (hTopology : PlainTopology topology) (ready : List (Copy QueueName Body))
    (hReady : ∀ copy ∈ ready, choice copy.queue ∈ topology.consumers copy.queue ∧
      codec.modelValidateJson copy.body ≠ none) (s : RabbitState Body) (hStart : s.broker.ready = ready)
    (hUnacked : s.broker.unacked = [])
    (hAcked : ∀ delivery ∈ s.broker.acked, delivery.consumer = choice delivery.copy.queue) :
    ∃ as t, exec (rabbitStep codec topology) s as = some t ∧
      as.filterMap RabbitAction.publication = [] ∧
      (∀ n outcome, .resume n outcome ∈ as → outcome = .returned) ∧
      t.broker.ready = [] ∧ t.broker.unacked = [] ∧
      ∀ delivery ∈ t.broker.acked, delivery.consumer = choice delivery.copy.queue := by
  induction ready generalizing s with
  | nil => exact ⟨[], s, rfl, rfl, by simp, hStart, hUnacked, hAcked⟩
  | cons copy ready ih =>
      obtain ⟨hConsumer, hBody⟩ := hReady copy (List.mem_cons_self ..)
      obtain ⟨k, hk⟩ := List.mem_iff_getElem?.mp hConsumer
      obtain ⟨envelope, hEnvelope⟩ := Option.ne_none_iff_exists'.mp hBody
      have hStore := hTopology.noStore copy.queue (choice copy.queue) hConsumer
      let waiting (work : OnMessage) : RabbitState Body :=
        s.withBroker { s.broker with ready := ready, unacked := [⟨copy, choice copy.queue, work⟩] }
      have hDeliver : rabbitStep codec topology s (.deliver 0 k) = some (waiting .decoding) := by
        simp [rabbitStep, hStart, hk, waiting, BrokerState.deliver, hUnacked]
      have hDecode : rabbitStep codec topology (waiting .decoding) (.resume 0 .returned) =
          some (waiting (.guarded envelope .acquiring)) := by
        simp [rabbitStep, waiting, RabbitState.withBroker, RabbitState.resume, hEnvelope,
          BrokerState.proceed]
      let running : RabbitState Body :=
        { waiting (.guarded envelope .handling) with
          invoked := s.invoked ++ [(copy.serial, (choice copy.queue).handler)] }
      have hAcquire : rabbitStep codec topology (waiting (.guarded envelope .acquiring))
          (.resume 0 .returned) = some running := by
        simp [rabbitStep, waiting, running, RabbitState.withBroker, RabbitState.resume,
          Subscription.resume, hStore, Subscription.starts, BrokerState.proceed]
      let done : RabbitState Body :=
        { running with
          broker := { s.broker with
            ready := ready
            unacked := []
            acked := s.broker.acked ++ [⟨copy, choice copy.queue, .guarded envelope .handling⟩] }
          handled := s.handled ++ [copy] }
      have hHandle : rabbitStep codec topology running (.resume 0 .returned) = some done := by
        simp [rabbitStep, waiting, running, done, RabbitState.withBroker, RabbitState.resume,
          Subscription.resume, hStore, Subscription.starts, BrokerState.ack]
      have hChosen : ∀ delivery ∈ done.broker.acked, delivery.consumer = choice delivery.copy.queue := by
        intro delivery hDelivery
        rcases List.mem_append.mp hDelivery with hOld | hNew
        · exact hAcked delivery hOld
        · rw [List.mem_singleton.mp hNew]
      obtain ⟨as, t, run, hQuiet, hReturns, hEnd⟩ :=
        ih (fun other h => hReady other (List.mem_cons_of_mem _ h)) done rfl rfl hChosen
      refine ⟨.deliver 0 k :: .resume 0 .returned :: .resume 0 .returned :: .resume 0 .returned :: as, t,
        ?_, hQuiet, ?_, hEnd⟩
      · apply exec_cons.mpr
        refine ⟨_, hDeliver, exec_cons.mpr ⟨_, hDecode, exec_cons.mpr ⟨_, hAcquire, ?_⟩⟩⟩
        exact exec_cons.mpr ⟨_, hHandle, run⟩
      · intro n outcome h
        simp only [List.mem_cons, RabbitAction.resume.injEq, reduceCtorEq, false_or] at h
        rcases h with ⟨-, hOutcome⟩ | ⟨-, hOutcome⟩ | ⟨-, hOutcome⟩ | hLater
        · exact hOutcome
        · exact hOutcome
        · exact hOutcome
        · exact hReturns n outcome hLater

/-- The events can be published without a delivery in between. -/
theorem exists_published (topology : RabbitTopology) (hReadable : Readable codec events) :
    ∃ s, exec (rabbitStep codec topology) (.initial .empty) (events.map (publishEvent codec)) = some s ∧
      s.broker.unacked = [] ∧ s.broker.acked = [] ∧
      ∀ copy ∈ s.broker.ready, (∃ key, copy.queue ∈ topology.route key) ∧
        codec.modelValidateJson copy.body ≠ none := by
  induction events using List.reverseRecOn with
  | nil => exact ⟨.initial .empty, rfl, rfl, rfl, by simp [RabbitState.initial, BrokerState.empty]⟩
  | append_singleton events envelope ih =>
      obtain ⟨s, run, hUnacked, hAcked, hReady⟩ :=
        ih fun other h => hReadable other (List.mem_append_left _ h)
      refine ⟨s.withBroker (s.broker.publish topology envelope.eventName (codec.modelDumpJson envelope)),
        ?_, hUnacked, hAcked, ?_⟩
      · rw [List.map_append]
        exact exec_concat.mpr ⟨s, run, rfl⟩
      · intro copy hCopy
        rcases List.mem_append.mp hCopy with hOld | hNew
        · exact hReady copy hOld
        · obtain ⟨queue, hQueue, rfl⟩ := List.mem_map.mp hNew
          exact ⟨⟨_, hQueue⟩, hReadable envelope (List.mem_append_right _ (List.mem_singleton_self _))⟩

/-- Whatever consumer is chosen for each queue, there is a run that hands the
messages to these. -/
theorem exists_rabbitRun (hPlain : ∀ sub ∈ subs, sub.idemStore = false) (hReadable : Readable codec events)
    (hChoice : ∀ key, ∀ queue ∈ (RabbitEventBus.subscribeAll subs).route key,
      choice queue ∈ (RabbitEventBus.subscribeAll subs).consumers queue) :
    ∃ t, RabbitRun codec subs events t ∧
      ∀ delivery ∈ t.broker.acked, delivery.consumer = choice delivery.copy.queue := by
  obtain ⟨s, hPublish, hUnacked, hAcked, hReady⟩ :=
    exists_published (RabbitEventBus.subscribeAll subs) hReadable
  have hReady' : ∀ copy ∈ s.broker.ready,
      choice copy.queue ∈ (RabbitEventBus.subscribeAll subs).consumers copy.queue ∧
        codec.modelValidateJson copy.body ≠ none := by
    intro copy hCopy
    obtain ⟨⟨key, hQueue⟩, hBody⟩ := hReady copy hCopy
    exact ⟨hChoice key copy.queue hQueue, hBody⟩
  obtain ⟨as, t, run, hQuiet, hReturns, hEmpty, hSettled, hChosen⟩ :=
    exists_drained (RabbitEventBus.plain_subscribeAll hPlain) _ hReady' s rfl hUnacked (by simp [hAcked])
  refine ⟨t, ⟨events.map (publishEvent codec) ++ as, ?_, ?_, ?_, hEmpty, hSettled⟩, hChosen⟩
  · exact exec_append.mpr ⟨s, hPublish, run⟩
  · rw [List.filterMap_append, hQuiet, List.append_nil, List.filterMap_map, ← List.filterMap_eq_map]
    rfl
  · intro n outcome h
    rcases List.mem_append.mp h with hPublished | hDrained
    · obtain ⟨envelope, -, hSame⟩ := List.mem_map.mp hPublished
      cases hSame
    · exact hReturns n outcome hDrained

end Choice

end Flow

end ServicePlatform
