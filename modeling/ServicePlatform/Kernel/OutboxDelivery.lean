import ServicePlatform.Kernel.Events
import ServicePlatform.Kernel.RelayFrame
import ServicePlatform.Kernel.RelayLocking

/-! Relays that publish through the in-process bus. A relay that waits for a
publish walks the bus's loop over the guarded handlers, and the publish
returns or raises when that loop does. The pattern of handler outcomes gives
the outcome of each call of a handler for an event, in order. -/
namespace ServicePlatform

open Storage Transition

abbrev HandlerPattern := HandlerId → String → Nat → HandlerOutcome

structure PipelineConfig where
  relay : RelayConfig
  bus : LocalEventBus
  outcome : HandlerPattern

/-- The relays, the consumer's store, the publish call each relay waits for,
and the handler calls that have ended. -/
structure PipelineState where
  relay : RelayState
  store : IdempotencyStore String
  calls : RelayId → Option PublishCall
  handled : List (HandlerId × String × HandlerOutcome)

namespace PipelineState

def initial : PipelineState where
  relay := RelayState.initial
  store := IdempotencyStore.empty
  calls := fun _ => none
  handled := []

/-- How many calls of the handler for the event have ended. -/
def callCount (s : PipelineState) (handler : HandlerId) (eventId : String) : Nat :=
  s.handled.countP fun entry => entry.1 = handler && entry.2.1 = eventId

def Succeeded (s : PipelineState) (handler : HandlerId) (eventId : String) : Prop :=
  (handler, eventId, .returned) ∈ s.handled

/-- The outcome of the handler call that is under way, recorded as it ends. -/
def record (s : PipelineState) (call : PublishCall) (eventId : String) (outcome : HandlerOutcome) :
    List (HandlerId × String × HandlerOutcome) :=
  if call.phase = .handling then s.handled ++ [(call.sub.handler, eventId, outcome)] else s.handled

end PipelineState

/-- A batch may also die, but not while it awaits the bus: neither inside a handler nor at
the `acquire` before it or the `put` after it. -/
inductive PipelineAction where
  | relay (a : RelayAction)
  | deliver (r : RelayId) (clock : DateTime)
  | expire (key : String)

def PipelineAction.actor : PipelineAction → Option RelayId
  | .relay a => a.actor
  | .deliver r _ => some r
  | .expire _ => none

/-- The relay steps that do not end a publish, and that leave the awaits of the bus alone. -/
def PipelineState.outside (s : PipelineState) : RelayAction → Bool
  | .publishReturns .. => false
  | .crash r => (s.calls r).isNone
  | _ => true

/-- The publish call of the relay goes on to `next`. -/
def PipelineState.advance (config : PipelineConfig) (s : PipelineState) (r : RelayId)
    (clock : DateTime) : PublishNext → Option PipelineState
  | .awaits call => some { s with calls := Function.update s.calls r (some call) }
  | .returns => (relayStep config.relay s.relay (.publishReturns r .ok clock)).map fun relay =>
      { s with relay := relay, calls := Function.update s.calls r none }
  | .raises => (relayStep config.relay s.relay (.publishReturns r .error clock)).map fun relay =>
      { s with relay := relay, calls := Function.update s.calls r none }

def pipelineStep (config : PipelineConfig) (s : PipelineState) : PipelineAction → Option PipelineState
  | .relay a =>
      if s.outside a then
        (relayStep config.relay s.relay a).map fun relay => { s with relay := relay }
      else none
  | .deliver r clock =>
      match s.relay.relays r with
      | .publishing _ _ row _ =>
          match s.calls r with
          | none => s.advance config r clock (PublishCall.atLoopHead (config.bus.handlersFor row.eventName))
          | some call =>
              let outcome := config.outcome call.sub.handler row.id
                (s.callCount call.sub.handler row.id)
              let (store, next) := call.resume row.id s.store outcome
              { s with store := store, handled := s.record call row.id outcome }.advance
                config r clock next
      | _ => none
  | .expire key => some { s with store := s.store.expire key }

section

variable {config : PipelineConfig} {s s' : PipelineState} {a : PipelineAction}

/-- Advancing a call takes at most one step of the relays. -/
theorem PipelineState.advance_relay {r : RelayId} {clock : DateTime} {next : PublishNext}
    (h : s.advance config r clock next = some s') :
    s'.relay = s.relay ∨ ∃ outcome,
      relayStep config.relay s.relay (.publishReturns r outcome clock) = some s'.relay := by
  cases next with
  | awaits call =>
      cases h
      exact Or.inl rfl
  | returns =>
      obtain ⟨relay, hRelay, rfl⟩ := Option.map_eq_some_iff.mp h
      exact Or.inr ⟨.ok, hRelay⟩
  | raises =>
      obtain ⟨relay, hRelay, rfl⟩ := Option.map_eq_some_iff.mp h
      exact Or.inr ⟨.error, hRelay⟩

/-- Seen from the relays, a step is one of theirs or nothing. -/
theorem pipelineStep_relay (h : pipelineStep config s a = some s') :
    s'.relay = s.relay ∨ ∃ b, b.actor = a.actor ∧ relayStep config.relay s.relay b = some s'.relay := by
  cases a with
  | relay b =>
      simp only [pipelineStep] at h
      split at h
      · obtain ⟨relay, hRelay, rfl⟩ := Option.map_eq_some_iff.mp h
        exact Or.inr ⟨b, rfl, hRelay⟩
      · cases h
  | deliver r clock =>
      have advance {t : PipelineState} {next : PublishNext} (ht : t.relay = s.relay)
          (h : t.advance config r clock next = some s') : s'.relay = s.relay ∨
            ∃ b, b.actor = some r ∧ relayStep config.relay s.relay b = some s'.relay := by
        rcases PipelineState.advance_relay h with hSame | ⟨outcome, hRelay⟩
        · exact Or.inl (hSame.trans ht)
        · exact Or.inr ⟨_, rfl, ht ▸ hRelay⟩
      simp only [pipelineStep] at h
      split at h
      · split at h
        · exact advance rfl h
        · refine advance ?_ h
          rfl
      · cases h
  | expire key =>
      cases h
      exact Or.inl rfl

section Deliver

variable {r : RelayId} {now clock : DateTime} {batch : List Attempt} {row : OutboxMessage}
  {rest : List OutboxMessage} {sub : Subscription} {later : List Subscription}

theorem deliver_enter (hPhase : s.relay.relays r = .publishing now batch row rest)
    (hCall : s.calls r = none) : pipelineStep config s (.deliver r clock) =
      s.advance config r clock (PublishCall.atLoopHead (config.bus.handlersFor row.eventName)) := by
  simp only [pipelineStep, hPhase, hCall]

theorem deliver_acquired (hPhase : s.relay.relays r = .publishing now batch row rest)
    (hCall : s.calls r = some ⟨sub, .acquiring, later⟩) (hStore : sub.idemStore = true)
    (hFree : s.store.get (sub.key row.id) = none) :
    pipelineStep config s (.deliver r clock) = some { s with
      store := s.store.put (sub.key row.id) "processing"
      calls := Function.update s.calls r (some ⟨sub, .handling, later⟩) } := by
  simp only [pipelineStep, hPhase, hCall, PublishCall.resume, Subscription.resume, hStore, if_true]
  rw [IdempotencyStore.acquire_free hFree]
  rfl

theorem deliver_skipped (hPhase : s.relay.relays r = .publishing now batch row rest)
    (hCall : s.calls r = some ⟨sub, .acquiring, later⟩) (hStore : sub.idemStore = true)
    (hTaken : s.store.get (sub.key row.id) ≠ none) :
    pipelineStep config s (.deliver r clock) =
      s.advance config r clock (PublishCall.atLoopHead later) := by
  simp only [pipelineStep, hPhase, hCall, PublishCall.resume, Subscription.resume, hStore, if_true]
  rw [IdempotencyStore.acquire_taken hTaken]
  rfl

theorem deliver_handled (hPhase : s.relay.relays r = .publishing now batch row rest)
    (hCall : s.calls r = some ⟨sub, .handling, later⟩) (hStore : sub.idemStore = true)
    {outcome : HandlerOutcome}
    (hOutcome : config.outcome sub.handler row.id (s.callCount sub.handler row.id) = outcome) :
    pipelineStep config s (.deliver r clock) = some { s with
      handled := s.handled ++ [(sub.handler, row.id, outcome)]
      calls := Function.update s.calls r (some ⟨sub, .finishing outcome, later⟩) } := by
  simp only [pipelineStep, hPhase, hCall, PublishCall.resume, Subscription.resume, hStore, if_true,
    hOutcome]
  rfl

/-- The `finally` block has marked the key; the publish goes on or raises. -/
theorem deliver_finished (hPhase : s.relay.relays r = .publishing now batch row rest)
    {outcome : HandlerOutcome} (hCall : s.calls r = some ⟨sub, .finishing outcome, later⟩) :
    pipelineStep config s (.deliver r clock) =
      { s with store := s.store.put (sub.key row.id) "done" }.advance config r clock
        (match outcome with
          | .returned => PublishCall.atLoopHead later
          | .raised => .raises) := by
  simp only [pipelineStep, hPhase, hCall, PublishCall.resume, Subscription.resume]
  cases outcome <;> rfl

end Deliver

/-- A run of the pipeline contains a run of its relays. -/
theorem pipeline_simulates {as : List PipelineAction} (run : exec (pipelineStep config) s as = some s') :
    ∃ bs, exec (relayStep config.relay) s.relay bs = some s'.relay := by
  refine simulation (I := fun _ => True) PipelineState.relay (fun _ _ _ _ _ => trivial) ?_ trivial run
  intro c a d _ h
  rcases pipelineStep_relay h with hSame | ⟨b, -, hRelay⟩
  · exact ⟨[], congrArg some hSame.symm⟩
  · exact ⟨[b], exec_cons.mpr ⟨d.relay, hRelay, rfl⟩⟩

end

end ServicePlatform
