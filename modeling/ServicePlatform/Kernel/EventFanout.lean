import ServicePlatform.Kernel.ConsumerDedup

/-! Calls of `publish` on the in-process bus, which interleave at the awaits of
the guarded handlers. Consumers that share an idempotency store share its keys
as well, since a key names the event and not the handler. The first handler
that comes to an event claims it for all of them. -/
namespace ServicePlatform

open Transition

abbrev PublishId := Nat

/-- Where a call of `LocalEventBus.publish` stands. -/
inductive PublishPhase where
  | idle
  | awaiting (envelope : EventEnvelope) (call : PublishCall)
  | returned (envelope : EventEnvelope)
  | raised (envelope : EventEnvelope)

namespace PublishPhase

def next (envelope : EventEnvelope) : PublishNext → PublishPhase
  | .awaits call => .awaiting envelope call
  | .returns => .returned envelope
  | .raises => .raised envelope

def envelope : PublishPhase → Option EventEnvelope
  | .idle => none
  | .awaiting envelope _ => some envelope
  | .returned envelope => some envelope
  | .raised envelope => some envelope

def isAwaiting : PublishPhase → Bool
  | .awaiting _ _ => true
  | _ => false

@[simp] theorem envelope_next (event : EventEnvelope) (next : PublishNext) :
    (PublishPhase.next event next).envelope = some event := by
  cases next <;> rfl

end PublishPhase

/-- A handler that was started by a call of `publish`. -/
structure Invocation where
  publish : PublishId
  handler : HandlerId
  eventId : String
  deriving DecidableEq

structure LocalState where
  store : IdempotencyStore String
  publishes : PublishId → PublishPhase
  invoked : List Invocation

inductive LocalAction where
  | publish (p : PublishId) (envelope : EventEnvelope)
  | resume (p : PublishId) (outcome : HandlerOutcome)

namespace LocalState

def initial (store : IdempotencyStore String) : LocalState := ⟨store, fun _ => .idle, []⟩

/-- The handler starts with their events. -/
def started (s : LocalState) : List (HandlerId × String) :=
  s.invoked.map fun invocation => (invocation.handler, invocation.eventId)

def setPublish (s : LocalState) (p : PublishId) (phase : PublishPhase) : LocalState :=
  { s with publishes := Function.update s.publishes p phase }

/-- One step of a publish call. -/
def resume (s : LocalState) (p : PublishId) (envelope : EventEnvelope) (call : PublishCall)
    (outcome : HandlerOutcome) : LocalState :=
  let (store, next) := call.resume envelope.eventId s.store outcome
  let (_, guarded) := call.sub.resume envelope.eventId s.store outcome call.phase
  { s.setPublish p (.next envelope next) with
    store := store
    invoked := s.invoked ++
      (call.sub.starts envelope.eventId guarded).map fun start => ⟨p, start.1, start.2⟩ }

end LocalState

def localStep (bus : LocalEventBus) (s : LocalState) : LocalAction → Option LocalState
  | .publish p envelope =>
      match s.publishes p with
      | .idle => some (s.setPublish p (.next envelope (PublishCall.atLoopHead (bus.handlersFor envelope.eventName))))
      | _ => none
  | .resume p outcome =>
      match s.publishes p with
      | .awaiting envelope call => some (s.resume p envelope call outcome)
      | _ => none

namespace LocalEventBus

/-- The bus after calls of `subscribe`, one for each subscription. -/
def subscribeAll (subs : List Subscription) : LocalEventBus :=
  subs.foldl (fun bus sub => bus.subscribe sub.eventName sub) empty

/-- An event goes to the subscriptions of its name, in their order. -/
theorem handlersFor_subscribeAll (subs : List Subscription) (eventName : String) :
    (subscribeAll subs).handlersFor eventName = subs.filter fun sub => sub.eventName = eventName := by
  unfold subscribeAll
  have hFold : ∀ bus : LocalEventBus,
      (subs.foldl (fun bus sub => bus.subscribe sub.eventName sub) bus).handlersFor eventName =
        bus.handlersFor eventName ++ subs.filter fun sub => sub.eventName = eventName := by
    induction subs with
    | nil =>
        intro bus
        simp
    | cons sub subs ih =>
        intro bus
        rw [List.foldl_cons, ih, handlersFor_subscribe]
        by_cases hName : eventName = sub.eventName
        · simp [hName]
        · simp [hName, Ne.symm hName]
  rw [hFold, handlersFor_empty, List.nil_append]

end LocalEventBus

section Local

variable {bus : LocalEventBus} {s t : LocalState} {a : LocalAction}

theorem localStep_cases (h : localStep bus s a = some t) :
    (∃ p envelope, a = .publish p envelope ∧ s.publishes p = .idle ∧
      t = s.setPublish p (.next envelope (PublishCall.atLoopHead (bus.handlersFor envelope.eventName)))) ∨
    (∃ p outcome envelope call, a = .resume p outcome ∧ s.publishes p = .awaiting envelope call ∧
      t = s.resume p envelope call outcome) := by
  cases a with
  | publish p envelope =>
      simp only [localStep] at h
      split at h
      · next hIdle =>
          cases h
          exact Or.inl ⟨p, envelope, rfl, hIdle, rfl⟩
      · cases h
  | resume p outcome =>
      simp only [localStep] at h
      split at h
      · next envelope call hAwaiting =>
          cases h
          exact Or.inr ⟨p, outcome, envelope, call, rfl, hAwaiting, rfl⟩
      · cases h

/-- The step of one call leaves the others where they are. -/
theorem LocalState.resume_of_ne {p p' : PublishId} (h : p' ≠ p) (s : LocalState) (envelope : EventEnvelope)
    (call : PublishCall) (outcome : HandlerOutcome) :
    (s.resume p envelope call outcome).publishes p' = s.publishes p' :=
  Function.update_of_ne h ..

@[simp] theorem LocalState.resume_self (p : PublishId) (s : LocalState) (envelope : EventEnvelope)
    (call : PublishCall) (outcome : HandlerOutcome) :
    (s.resume p envelope call outcome).publishes p =
      .next envelope (call.resume envelope.eventId s.store outcome).2 :=
  Function.update_self ..

theorem LocalState.started_resume (p : PublishId) (s : LocalState) (envelope : EventEnvelope)
    (call : PublishCall) (outcome : HandlerOutcome) :
    (s.resume p envelope call outcome).started = s.started ++
      call.sub.starts envelope.eventId (call.sub.resume envelope.eventId s.store outcome call.phase).2 := by
  simp [resume, started, Function.comp_def]

/-- A call keeps its envelope. -/
theorem published_step {p : PublishId} {envelope : EventEnvelope}
    (hEnvelope : (s.publishes p).envelope = some envelope) (h : localStep bus s a = some t) :
    (t.publishes p).envelope = some envelope := by
  obtain ⟨p', other, -, hIdle, rfl⟩ | ⟨p', outcome, other, call, -, hAwaiting, rfl⟩ := localStep_cases h
  · have hp : p ≠ p' := by
      intro hp
      rw [hp, hIdle] at hEnvelope
      cases hEnvelope
    simpa [LocalState.setPublish, hp] using hEnvelope
  · by_cases hp : p = p'
    · rw [hp, hAwaiting] at hEnvelope
      rw [hp, LocalState.resume_self, PublishPhase.envelope_next]
      exact hEnvelope
    · rw [LocalState.resume_of_ne hp]
      exact hEnvelope

theorem published_envelope {as : List LocalAction} (run : exec (localStep bus) s as = some t)
    {p : PublishId} {envelope : EventEnvelope} (h : .publish p envelope ∈ as) :
    (t.publishes p).envelope = some envelope := by
  obtain ⟨before, after, rfl⟩ := List.append_of_mem h
  obtain ⟨m, -, hRest⟩ := exec_append.mp run
  obtain ⟨n, hStep, hAfter⟩ := exec_cons.mp hRest
  apply invariant (I := fun s => (s.publishes p).envelope = some envelope) _ _ hAfter
  · intro s a t hEnvelope hStep
    exact published_step hEnvelope hStep
  · obtain ⟨p', other, hAction, -, rfl⟩ | ⟨p', outcome, other, call, hAction, -⟩ := localStep_cases hStep
    · cases hAction
      simp [LocalState.setPublish]
    · cases hAction

end Local

/-- The step of a publish call after a guarded handler that did not raise. -/
theorem PublishCall.resume_returned (call : PublishCall) (eventId : String) (store : IdempotencyStore String)
    {outcome : HandlerOutcome}
    (h : (call.sub.resume eventId store outcome call.phase).2 ≠ .handled .raised) :
    (call.resume eventId store outcome).1 = (call.sub.resume eventId store outcome call.phase).1 ∧
    ((∃ phase, (call.sub.resume eventId store outcome call.phase).2 = .awaits phase ∧
        (call.resume eventId store outcome).2 = .awaits { call with phase := phase }) ∨
      (∀ phase, (call.sub.resume eventId store outcome call.phase).2 ≠ .awaits phase) ∧
        (call.resume eventId store outcome).2 = PublishCall.atLoopHead call.rest) := by
  unfold PublishCall.resume
  rcases hNext : call.sub.resume eventId store outcome call.phase with ⟨store', next⟩
  rw [hNext] at h
  cases next with
  | awaits phase => exact ⟨rfl, Or.inl ⟨phase, rfl, rfl⟩⟩
  | skipped =>
      refine ⟨rfl, Or.inr ⟨?_, rfl⟩⟩
      intro phase hPhase
      cases hPhase
  | handled result =>
      cases result with
      | raised => exact absurd rfl h
      | returned =>
          refine ⟨rfl, Or.inr ⟨?_, rfl⟩⟩
          intro phase hPhase
          cases hPhase

/-- A guarded handler that returns does not raise. -/
theorem Subscription.resume_not_raised (sub : Subscription) (eventId : String)
    (store : IdempotencyStore String) {phase : GuardedPhase} (h : phase ≠ .finishing .raised) :
    (sub.resume eventId store .returned phase).2 ≠ .handled .raised ∧
      (sub.resume eventId store .returned phase).2 ≠ .awaits (.finishing .raised) := by
  cases phase with
  | acquiring =>
      cases hStore : sub.idemStore with
      | false => simp [Subscription.resume, hStore]
      | true =>
          by_cases hFree : store.get (sub.key eventId) = none
          · simp [Subscription.resume, hStore, IdempotencyStore.acquire_free hFree]
          · simp [Subscription.resume, hStore, IdempotencyStore.acquire_taken hFree]
  | handling => cases hStore : sub.idemStore <;> simp [Subscription.resume, hStore]
  | finishing result =>
      have hResult : result ≠ .raised := fun he => h (congrArg GuardedPhase.finishing he)
      simpa [Subscription.resume] using hResult

section Fanout

variable {eventName : String} {handlers : List HandlerId} {s t : LocalState} {a : LocalAction}

/-- Handlers that were subscribed to one event name through consumers with the
shared store. -/
def fanoutBus (eventName : String) (handlers : List HandlerId) : LocalEventBus :=
  .subscribeAll (handlers.map fun handler => ⟨eventName, handler, true⟩)

/-- The handlers that the bus calls, and the only event name it knows. -/
theorem handlersFor_fanoutBus (other : String) : (fanoutBus eventName handlers).handlersFor other =
    if other = eventName then handlers.map fun handler => ⟨eventName, handler, true⟩ else [] := by
  rw [fanoutBus, LocalEventBus.handlersFor_subscribeAll]
  by_cases hName : other = eventName
  · rw [if_pos hName, List.filter_eq_self]
    intro sub hSub
    obtain ⟨handler, -, rfl⟩ := List.mem_map.mp hSub
    simp [hName]
  · rw [if_neg hName, List.filter_eq_nil_iff]
    intro sub hSub
    obtain ⟨handler, -, rfl⟩ := List.mem_map.mp hSub
    simpa using Ne.symm hName

/-- The subscription is one of the bus. -/
def Fanned (eventName : String) (handlers : List HandlerId) (sub : Subscription) : Prop :=
  ∃ handler ∈ handlers, sub = ⟨eventName, handler, true⟩

theorem fanned_of_handlersFor {other : String} {sub : Subscription}
    (h : sub ∈ (fanoutBus eventName handlers).handlersFor other) : Fanned eventName handlers sub := by
  rw [handlersFor_fanoutBus] at h
  split at h
  · obtain ⟨handler, hMem, rfl⟩ := List.mem_map.mp h
    exact ⟨handler, hMem, rfl⟩
  · cases h

/-- What is known of a publish call by its next await, or by its end. -/
structure FanoutSound (eventName : String) (handlers : List HandlerId)
    (started : List (HandlerId × String)) (envelope : EventEnvelope) (next : PublishNext) : Prop where
  calm : next ≠ .raises
  members : ∀ call, next = .awaits call → ∀ sub ∈ call.sub :: call.rest, Fanned eventName handlers sub
  quiet : ∀ call, next = .awaits call → call.phase ≠ .finishing .raised
  entered : ∀ call, next = .awaits call → call.phase ≠ .acquiring →
    envelope.eventId ∈ started.map Prod.snd
  returned : next = .returns → envelope.eventName = eventName → handlers ≠ [] →
    envelope.eventId ∈ started.map Prod.snd

theorem FanoutSound.grow {started started' : List (HandlerId × String)} {envelope : EventEnvelope}
    {next : PublishNext} (h : FanoutSound eventName handlers started envelope next)
    (hGrows : ∀ id, id ∈ started.map Prod.snd → id ∈ started'.map Prod.snd) :
    FanoutSound eventName handlers started' envelope next := by
  constructor
  · exact h.calm
  · exact h.members
  · exact h.quiet
  · exact fun call hNext hPhase => hGrows _ (h.entered call hNext hPhase)
  · exact fun hNext hName hSome => hGrows _ (h.returned hNext hName hSome)

/-- The head of the loop over handlers of the bus. -/
theorem FanoutSound.atLoopHead {started : List (HandlerId × String)} {envelope : EventEnvelope}
    {subs : List Subscription} (hFanned : ∀ sub ∈ subs, Fanned eventName handlers sub)
    (hDone : subs = [] → envelope.eventName = eventName → handlers ≠ [] →
      envelope.eventId ∈ started.map Prod.snd) :
    FanoutSound eventName handlers started envelope (PublishCall.atLoopHead subs) := by
  cases subs with
  | nil =>
      constructor
      · simp [PublishCall.atLoopHead]
      · intro call h
        cases h
      · intro call h
        cases h
      · intro call h
        cases h
      · exact fun _ => hDone rfl
  | cons sub rest =>
      constructor
      · simp [PublishCall.atLoopHead]
      · intro call h
        cases h
        exact hFanned
      · intro call h
        cases h
        simp
      · intro call h hPhase
        cases h
        exact absurd rfl hPhase
      · intro h
        cases h

/-- Every event whose publish call came past its first await was started once,
for one of the handlers. -/
structure FanoutInv (eventName : String) (handlers : List HandlerId) (s : LocalState) : Prop where
  claimed : Claimed ⟨eventName, 0, true⟩ s.store s.started
  handler : ∀ start ∈ s.started, start.1 ∈ handlers
  sound : ∀ p envelope next, s.publishes p = .next envelope next →
    FanoutSound eventName handlers s.started envelope next

theorem PublishPhase.next_ne_idle (envelope : EventEnvelope) (next : PublishNext) :
    PublishPhase.idle ≠ .next envelope next := by
  cases next <;> simp [PublishPhase.next]

theorem PublishPhase.next_inj {envelope other : EventEnvelope} {next next' : PublishNext}
    (h : PublishPhase.next envelope next = .next other next') : envelope = other ∧ next = next' := by
  cases next <;> cases next' <;> cases h <;> exact ⟨rfl, rfl⟩

theorem fanoutInv_initial {store : IdempotencyStore String}
    (hFresh : ∀ id, store.get (Subscription.key ⟨eventName, 0, true⟩ id) = none) :
    FanoutInv eventName handlers (.initial store) where
  claimed := .nil hFresh
  handler := by
    intro start hMem
    cases hMem
  sound := by
    intro p envelope next h
    exact absurd h (PublishPhase.next_ne_idle envelope next)

/-- One call moves to its next phase. The record may have grown. -/
theorem FanoutInv.sound_moved (inv : FanoutInv eventName handlers s) {p : PublishId}
    {envelope : EventEnvelope} {next : PublishNext}
    (hOthers : ∀ p', p' ≠ p → t.publishes p' = s.publishes p')
    (hGrows : ∀ id, id ∈ s.started.map Prod.snd → id ∈ t.started.map Prod.snd)
    (hNext : t.publishes p = .next envelope next)
    (hSound : FanoutSound eventName handlers t.started envelope next) :
    ∀ p' envelope' next', t.publishes p' = .next envelope' next' →
      FanoutSound eventName handlers t.started envelope' next' := by
  intro p' envelope' next' h
  by_cases hp : p' = p
  · rw [hp, hNext] at h
    obtain ⟨rfl, rfl⟩ := PublishPhase.next_inj h
    exact hSound
  · rw [hOthers p' hp] at h
    exact (inv.sound p' envelope' next' h).grow hGrows

theorem FanoutInv.publish (inv : FanoutInv eventName handlers s) (p : PublishId) (envelope : EventEnvelope) :
    FanoutInv eventName handlers (s.setPublish p
      (.next envelope (PublishCall.atLoopHead ((fanoutBus eventName handlers).handlersFor envelope.eventName)))) := by
  constructor
  · exact inv.claimed
  · exact inv.handler
  · apply inv.sound_moved (p := p) (t := s.setPublish p _) _ (fun id hId => hId) (Function.update_self ..)
    · apply FanoutSound.atLoopHead (fun sub hSub => fanned_of_handlersFor hSub)
      intro hNone hName hSome
      rw [handlersFor_fanoutBus, if_pos hName] at hNone
      exact absurd (List.map_eq_nil_iff.mp hNone) hSome
    · exact fun p' hp => Function.update_of_ne hp ..

theorem FanoutInv.resume (inv : FanoutInv eventName handlers s) {p : PublishId} {envelope : EventEnvelope}
    {call : PublishCall} (hAwaiting : s.publishes p = .awaiting envelope call) :
    FanoutInv eventName handlers (s.resume p envelope call .returned) := by
  have hSound := inv.sound p envelope (.awaits call) hAwaiting
  obtain ⟨handler, hHandler, hSub⟩ := hSound.members call rfl call.sub (List.mem_cons_self ..)
  have hQuiet := call.sub.resume_not_raised envelope.eventId s.store (hSound.quiet call rfl)
  have hClaimed := (inv.claimed.of_eventName call.sub (by rw [hSub])).resume (by rw [hSub]) .returned
    (hSound.entered call rfl)
  rw [← LocalState.started_resume p s envelope call .returned] at hClaimed
  have hGrows : ∀ id, id ∈ s.started.map Prod.snd →
      id ∈ (s.resume p envelope call .returned).started.map Prod.snd := by
    intro id hId
    rw [LocalState.started_resume, List.map_append]
    exact List.mem_append_left _ hId
  obtain ⟨hStore, hNext⟩ := call.resume_returned envelope.eventId s.store hQuiet.1
  constructor
  · show Claimed _ (call.resume envelope.eventId s.store .returned).1 _
    rw [hStore]
    exact hClaimed.1.of_eventName _ (by rw [hSub])
  · intro start hMem
    rw [LocalState.started_resume] at hMem
    rcases List.mem_append.mp hMem with hOld | hNew
    · exact inv.handler start hOld
    · rw [Subscription.handler_of_starts hNew, hSub]
      exact hHandler
  · apply inv.sound_moved (fun p' hp => LocalState.resume_of_ne hp ..) hGrows (LocalState.resume_self ..)
    rcases hNext with ⟨phase, hPhase, hAwaits⟩ | ⟨-, hHead⟩
    · rw [hAwaits]
      constructor
      · simp
      · intro call' h
        cases h
        exact hSound.members call rfl
      · intro call' h
        cases h
        rw [hPhase] at hQuiet
        exact fun hRaised => hQuiet.2 (congrArg GuardedNext.awaits hRaised)
      · exact fun _ _ _ => hClaimed.2
      · intro h
        cases h
    · rw [hHead]
      apply FanoutSound.atLoopHead
      · exact fun sub hSub => hSound.members call rfl sub (List.mem_cons_of_mem _ hSub)
      · exact fun _ _ _ => hClaimed.2

theorem FanoutInv.step (inv : FanoutInv eventName handlers s)
    (hReturns : ∀ p outcome, a = .resume p outcome → outcome = .returned)
    (h : localStep (fanoutBus eventName handlers) s a = some t) : FanoutInv eventName handlers t := by
  obtain ⟨p, envelope, -, hIdle, rfl⟩ | ⟨p, outcome, envelope, call, hAction, hAwaiting, rfl⟩ :=
    localStep_cases h
  · exact inv.publish p envelope
  · rw [hReturns p outcome hAction]
    exact inv.resume hAwaiting

/-- When no handler raises, each handler is started once for each event if and
only if there is at most one handler, or no event for it. -/
theorem fanout_iff {store : IdempotencyStore String}
    (hFresh : ∀ id, store.get (Subscription.key ⟨eventName, 0, true⟩ id) = none) {as : List LocalAction}
    (hReturns : ∀ p outcome, .resume p outcome ∈ as → outcome = .returned)
    (run : exec (localStep (fanoutBus eventName handlers)) (.initial store) as = some t)
    (hFinished : ∀ p envelope, .publish p envelope ∈ as → (t.publishes p).isAwaiting = false) :
    (∀ p envelope, .publish p envelope ∈ as → envelope.eventName = eventName →
      ∀ handler ∈ handlers, t.started.count (handler, envelope.eventId) = 1) ↔
    ((∃ p envelope, .publish p envelope ∈ as ∧ envelope.eventName = eventName) →
      ∀ handler ∈ handlers, ∀ other ∈ handlers, handler = other) := by
  have inv : FanoutInv eventName handlers t := by
    apply invariant_along (P := fun _ a => ∀ p outcome, a = .resume p outcome → outcome = .returned)
      (fun s a t inv hReturns h => inv.step hReturns h) (fanoutInv_initial hFresh) _ run
    apply along_of_forall
    intro a ha s p outcome hAction
    exact hReturns p outcome (hAction ▸ ha)
  constructor
  · rintro hEach ⟨p, envelope, hPublished, hName⟩ handler hHandler other hOther
    have hFirst := hEach p envelope hPublished hName handler hHandler
    have hSecond := hEach p envelope hPublished hName other hOther
    have hMem : (handler, envelope.eventId) ∈ t.started := List.count_pos_iff.mp (by omega)
    have hMem' : (other, envelope.eventId) ∈ t.started := List.count_pos_iff.mp (by omega)
    exact congrArg Prod.fst (List.inj_on_of_nodup_map inv.claimed.once hMem hMem' rfl)
  · intro hSame p envelope hPublished hName handler hHandler
    have hEnvelope := published_envelope run hPublished
    have hOver := hFinished p envelope hPublished
    have hReturned : t.publishes p = .returned envelope := by
      cases hPhase : t.publishes p with
      | idle =>
          rw [hPhase] at hEnvelope
          cases hEnvelope
      | awaiting other call =>
          rw [hPhase] at hOver
          cases hOver
      | returned other =>
          rw [hPhase] at hEnvelope
          cases hEnvelope
          rfl
      | raised other => exact absurd rfl (inv.sound p other .raises hPhase).calm
    have hStarted := (inv.sound p envelope .returns hReturned).returned rfl hName
      (List.ne_nil_of_mem hHandler)
    obtain ⟨start, hStart, hId⟩ := List.mem_map.mp hStarted
    have hOne := hSame ⟨p, envelope, hPublished, hName⟩ start.1 (inv.handler start hStart) handler hHandler
    have hMem : (handler, envelope.eventId) ∈ t.started := by
      rw [← hOne, ← hId]
      exact hStart
    have hOnce := inv.claimed.count_le_one handler envelope.eventId
    have hSome := List.count_pos_iff.mpr hMem
    omega

end Fanout

/-- A call of `publish` whose only handler returns. -/
def publishToOne (envelope : EventEnvelope) : List LocalAction :=
  [.publish 0 envelope, .resume 0 .returned, .resume 0 .returned, .resume 0 .returned]

/-- A call of `publish` that comes to a second handler. -/
def publishToTwo (envelope : EventEnvelope) : List LocalAction :=
  publishToOne envelope ++ [.resume 0 .returned]

theorem fanout_iff_one :
    ∃ t, exec (localStep (fanoutBus "user.created.v1" [0])) (.initial .empty)
      (publishToOne sampleEnvelope) = some t ∧ t.started.count (0, "e1") = 1 := by
  have hRun : (exec (localStep (fanoutBus "user.created.v1" [0])) (.initial .empty)
      (publishToOne sampleEnvelope)).isSome = true := rfl
  obtain ⟨t, ht⟩ := Option.isSome_iff_exists.mp hRun
  refine ⟨t, ht, ?_⟩
  have hReturns : ∀ p outcome, .resume p outcome ∈ publishToOne sampleEnvelope → outcome = .returned := by
    intro p outcome h
    simp [publishToOne] at h
    exact h.2
  have hFinished : ∀ p envelope, .publish p envelope ∈ publishToOne sampleEnvelope →
      (t.publishes p).isAwaiting = false := by
    intro p envelope h
    simp [publishToOne] at h
    rw [h.1]
    cases ht
    rfl
  apply (fanout_iff (fun _ => rfl) hReturns ht hFinished).mpr _ 0 sampleEnvelope (List.mem_cons_self ..) rfl 0
    (List.mem_singleton_self 0)
  intro _ handler hHandler other hOther
  rw [List.mem_singleton.mp hHandler, List.mem_singleton.mp hOther]

/-- The second of two handlers never hears of the event. -/
theorem fanout_skips_second :
    ∃ t, exec (localStep (fanoutBus "user.created.v1" [0, 1])) (.initial .empty)
        (publishToTwo sampleEnvelope) = some t ∧ t.publishes 0 = .returned sampleEnvelope ∧
      ¬ ∀ handler ∈ [0, 1], t.started.count (handler, sampleEnvelope.eventId) = 1 := by
  refine ⟨_, rfl, rfl, ?_⟩
  decide

end ServicePlatform
