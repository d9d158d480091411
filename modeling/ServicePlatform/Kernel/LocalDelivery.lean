import ServicePlatform.Kernel.EventFanout
import Mathlib.Data.List.Induction

/-! What the in-process bus does with handlers that are subscribed without an
idempotency store and do not raise: each event goes to the handlers of its
name, in the order of their subscription. -/
namespace ServicePlatform

open Transition

namespace LocalState

/-- The handlers that a call of `publish` has started, in order. -/
def handlersOf (s : LocalState) (p : PublishId) : List HandlerId :=
  (s.invoked.filter fun invocation => invocation.publish = p).map Invocation.handler

end LocalState

namespace PublishNext

/-- The handlers that are still to be started. -/
def pending : PublishNext → List HandlerId
  | .awaits call =>
      match call.phase with
      | .acquiring => (call.sub :: call.rest).map Subscription.handler
      | _ => call.rest.map Subscription.handler
  | _ => []

@[simp] theorem pending_atLoopHead (subs : List Subscription) :
    (PublishCall.atLoopHead subs).pending = subs.map Subscription.handler := by
  cases subs <;> rfl

/-- A call that stands at a handler without a store. -/
def Unguarded (next : PublishNext) : Prop :=
  next ≠ .raises ∧ ∀ call, next = .awaits call →
    (call.phase = .acquiring ∨ call.phase = .handling) ∧
      ∀ sub ∈ call.sub :: call.rest, sub.idemStore = false

theorem unguarded_atLoopHead {subs : List Subscription} (h : ∀ sub ∈ subs, sub.idemStore = false) :
    (PublishCall.atLoopHead subs).Unguarded := by
  cases subs with
  | nil => simp [PublishCall.atLoopHead, Unguarded]
  | cons sub rest =>
      constructor
      · simp [PublishCall.atLoopHead]
      · intro call hCall
        cases hCall
        exact ⟨Or.inl rfl, h⟩

end PublishNext

/-- A publish call without idempotency store takes two steps for a handler: the
handler is started, and its return takes the call to the next. -/
theorem PublishCall.resume_unguarded {call : PublishCall} (hUnguarded : (PublishNext.awaits call).Unguarded)
    (eventId : String) (store : IdempotencyStore String) :
    (call.phase = .acquiring ∧
      call.resume eventId store .returned = (store, .awaits { call with phase := .handling }) ∧
      (call.sub.resume eventId store .returned call.phase).2 = .awaits .handling) ∨
    (call.phase = .handling ∧
      call.resume eventId store .returned = (store, PublishCall.atLoopHead call.rest) ∧
      (call.sub.resume eventId store .returned call.phase).2 = .handled .returned) := by
  obtain ⟨hPhase, hPlain⟩ := hUnguarded.2 call rfl
  have hStore := hPlain call.sub (List.mem_cons_self ..)
  rcases hPhase with hPhase | hPhase
  · left
    simp [PublishCall.resume, Subscription.resume, hPhase, hStore]
  · right
    simp [PublishCall.resume, Subscription.resume, hPhase, hStore]

section Local

variable {bus : LocalEventBus} {s t : LocalState} {a : LocalAction}

theorem LocalState.handlersOf_resume (s : LocalState) (p : PublishId) (envelope : EventEnvelope)
    (call : PublishCall) (outcome : HandlerOutcome) (p' : PublishId) :
    (s.resume p envelope call outcome).handlersOf p' = s.handlersOf p' ++
      if p' = p then (call.sub.starts envelope.eventId
        (call.sub.resume envelope.eventId s.store outcome call.phase).2).map Prod.fst else [] := by
  have hInvoked : (s.resume p envelope call outcome).invoked = s.invoked ++
      (call.sub.starts envelope.eventId
        (call.sub.resume envelope.eventId s.store outcome call.phase).2).map
          fun start => ⟨p, start.1, start.2⟩ := rfl
  unfold LocalState.handlersOf
  rw [hInvoked, List.filter_append, List.map_append]
  by_cases hp : p' = p
  · simp [hp, List.filter_map, Function.comp_def]
  · simp [hp, Ne.symm hp, List.filter_map, Function.comp_def]

/-- The handlers started by a call and those it still has to start are the
handlers of the event. -/
structure LocalInv (bus : LocalEventBus) (s : LocalState) : Prop where
  idle : ∀ p, s.publishes p = .idle → s.handlersOf p = []
  unguarded : ∀ p envelope next, s.publishes p = .next envelope next → next.Unguarded
  progress : ∀ p envelope next, s.publishes p = .next envelope next →
    s.handlersOf p ++ next.pending = (bus.handlersFor envelope.eventName).map Subscription.handler

theorem localInv_initial (bus : LocalEventBus) (store : IdempotencyStore String) :
    LocalInv bus (.initial store) where
  idle := fun _ _ => rfl
  unguarded := fun _ envelope next h => absurd h (PublishPhase.next_ne_idle envelope next)
  progress := fun _ envelope next h => absurd h (PublishPhase.next_ne_idle envelope next)

/-- Only one publish call moves, and it is accounted for in the new state. -/
theorem LocalInv.moved (inv : LocalInv bus s) {p : PublishId} {envelope : EventEnvelope} {next : PublishNext}
    (hOthers : ∀ p', p' ≠ p → t.publishes p' = s.publishes p')
    (hHandlers : ∀ p', p' ≠ p → t.handlersOf p' = s.handlersOf p')
    (hSelf : t.publishes p = .next envelope next) (hUnguarded : next.Unguarded)
    (hProgress : t.handlersOf p ++ next.pending =
      (bus.handlersFor envelope.eventName).map Subscription.handler) : LocalInv bus t := by
  constructor
  · intro p' h
    by_cases hp : p' = p
    · rw [hp, hSelf] at h
      exact absurd h.symm (PublishPhase.next_ne_idle _ _)
    · rw [hHandlers p' hp]
      exact inv.idle p' ((hOthers p' hp).symm.trans h)
  · intro p' event other h
    by_cases hp : p' = p
    · rw [hp, hSelf] at h
      obtain ⟨-, rfl⟩ := PublishPhase.next_inj h
      exact hUnguarded
    · exact inv.unguarded p' event other ((hOthers p' hp).symm.trans h)
  · intro p' event other h
    by_cases hp : p' = p
    · rw [hp, hSelf] at h
      obtain ⟨rfl, rfl⟩ := PublishPhase.next_inj h
      rw [hp]
      exact hProgress
    · rw [hHandlers p' hp]
      exact inv.progress p' event other ((hOthers p' hp).symm.trans h)

theorem LocalInv.publish (inv : LocalInv bus s)
    (hPlain : ∀ eventName, ∀ sub ∈ bus.handlersFor eventName, sub.idemStore = false) {p : PublishId}
    (hIdle : s.publishes p = .idle) (envelope : EventEnvelope) :
    LocalInv bus (s.setPublish p
      (.next envelope (PublishCall.atLoopHead (bus.handlersFor envelope.eventName)))) := by
  have hSelf : (s.setPublish p (.next envelope
      (PublishCall.atLoopHead (bus.handlersFor envelope.eventName)))).publishes p =
        .next envelope (PublishCall.atLoopHead (bus.handlersFor envelope.eventName)) :=
    Function.update_self ..
  refine inv.moved (fun p' hp => Function.update_of_ne hp ..) (fun _ _ => rfl) hSelf
    (PublishNext.unguarded_atLoopHead (hPlain envelope.eventName)) ?_
  rw [PublishNext.pending_atLoopHead]
  show s.handlersOf p ++ _ = _
  rw [inv.idle p hIdle, List.nil_append]

theorem LocalInv.resume (inv : LocalInv bus s) {p : PublishId} {envelope : EventEnvelope}
    {call : PublishCall} (hAwaiting : s.publishes p = .awaiting envelope call) :
    LocalInv bus (s.resume p envelope call .returned) := by
  have hUnguarded := inv.unguarded p envelope (.awaits call) hAwaiting
  have hPlain := (hUnguarded.2 call rfl).2
  have hProgress := inv.progress p envelope (.awaits call) hAwaiting
  have hHandlers : ∀ p', p' ≠ p → (s.resume p envelope call .returned).handlersOf p' = s.handlersOf p' := by
    intro p' hp
    rw [LocalState.handlersOf_resume, if_neg hp, List.append_nil]
  refine inv.moved (fun p' hp => LocalState.resume_of_ne hp ..) hHandlers (LocalState.resume_self ..) ?_ ?_
  · rcases call.resume_unguarded hUnguarded envelope.eventId s.store with
      ⟨-, hResume, -⟩ | ⟨-, hResume, -⟩
    · rw [hResume]
      constructor
      · simp
      · intro call' hCall
        cases hCall
        exact ⟨Or.inr rfl, hPlain⟩
    · rw [hResume]
      apply PublishNext.unguarded_atLoopHead
      exact fun sub hSub => hPlain sub (List.mem_cons_of_mem _ hSub)
  · rw [LocalState.handlersOf_resume, if_pos rfl, ← hProgress]
    rcases call.resume_unguarded hUnguarded envelope.eventId s.store with
      ⟨hPhase, hResume, hNext⟩ | ⟨hPhase, hResume, hNext⟩
    · rw [hResume, hNext]
      simp [Subscription.starts, PublishNext.pending, hPhase]
    · rw [hResume, hNext]
      simp only [Subscription.starts, PublishNext.pending_atLoopHead]
      simp [PublishNext.pending, hPhase]

theorem LocalInv.step (inv : LocalInv bus s)
    (hPlain : ∀ eventName, ∀ sub ∈ bus.handlersFor eventName, sub.idemStore = false)
    (hReturns : ∀ p outcome, a = .resume p outcome → outcome = .returned)
    (h : localStep bus s a = some t) : LocalInv bus t := by
  obtain ⟨p, envelope, -, hIdle, rfl⟩ | ⟨p, outcome, envelope, call, hAction, hAwaiting, rfl⟩ :=
    localStep_cases h
  · exact inv.publish hPlain hIdle envelope
  · rw [hReturns p outcome hAction]
    exact inv.resume hAwaiting

/-- A run in which the n-th call publishes the n-th event, no handler raises,
and all calls come to their end. -/
def LocalRun (subs : List Subscription) (events : List EventEnvelope) (t : LocalState) : Prop :=
  ∃ as, exec (localStep (.subscribeAll subs)) (.initial .empty) as = some t ∧
    (∀ p envelope, .publish p envelope ∈ as ↔ events[p]? = some envelope) ∧
    (∀ p outcome, .resume p outcome ∈ as → outcome = .returned) ∧
    ∀ p, (t.publishes p).isAwaiting = false

variable {subs : List Subscription} {events : List EventEnvelope}

theorem plain_handlersFor (hPlain : ∀ sub ∈ subs, sub.idemStore = false) :
    ∀ eventName, ∀ sub ∈ (LocalEventBus.subscribeAll subs).handlersFor eventName, sub.idemStore = false := by
  intro eventName sub h
  rw [LocalEventBus.handlersFor_subscribeAll] at h
  exact hPlain sub (List.mem_of_mem_filter h)

/-- Each event of a run goes to the handlers of its name. -/
theorem LocalRun.handlersOf (h : LocalRun subs events t) (hPlain : ∀ sub ∈ subs, sub.idemStore = false)
    {p : PublishId} {envelope : EventEnvelope} (hEvent : events[p]? = some envelope) :
    t.handlersOf p =
      (subs.filter fun sub => sub.eventName = envelope.eventName).map Subscription.handler := by
  obtain ⟨as, run, hPublished, hReturns, hFinished⟩ := h
  have inv : LocalInv (.subscribeAll subs) t := by
    apply invariant_along (P := fun _ a => ∀ p outcome, a = .resume p outcome → outcome = .returned)
      (fun s a t inv hReturns h => inv.step (plain_handlersFor hPlain) hReturns h)
      (localInv_initial _ _) _ run
    apply along_of_forall
    intro a ha s p outcome hAction
    exact hReturns p outcome (hAction ▸ ha)
  have hEnvelope := published_envelope run ((hPublished p envelope).mpr hEvent)
  have hOver := hFinished p
  have hReturned : t.publishes p = .next envelope .returns := by
    cases hPhase : t.publishes p with
    | idle =>
        rw [hPhase] at hEnvelope
        cases hEnvelope
    | awaiting other call =>
        rw [hPhase] at hOver
        cases hOver
    | returned other =>
        rw [hPhase] at hEnvelope
        cases hEnvelope
        rfl
    | raised other => exact absurd rfl (inv.unguarded p other .raises hPhase).1
  have hProgress := inv.progress p envelope .returns hReturned
  rw [LocalEventBus.handlersFor_subscribeAll] at hProgress
  simpa [PublishNext.pending] using hProgress

/-- A call that comes to a loop head can be brought to its end. -/
theorem exists_publish_end (p : PublishId) (envelope : EventEnvelope) (rest : List Subscription)
    (hPlain : ∀ sub ∈ rest, sub.idemStore = false) (s : LocalState)
    (hHead : s.publishes p = .next envelope (PublishCall.atLoopHead rest)) :
    ∃ as t, exec (localStep bus) s as = some t ∧ (∀ a ∈ as, a = .resume p .returned) ∧
      t.publishes p = .returned envelope ∧ ∀ p', p' ≠ p → t.publishes p' = s.publishes p' := by
  induction rest generalizing s with
  | nil => exact ⟨[], s, rfl, by simp, hHead, fun p' _ => rfl⟩
  | cons sub rest ih =>
      have hStore := hPlain sub (List.mem_cons_self ..)
      have hStarted : s.publishes p = .awaiting envelope ⟨sub, .acquiring, rest⟩ := hHead
      let m := s.resume p envelope ⟨sub, .acquiring, rest⟩ .returned
      have hRunning : m.publishes p = .awaiting envelope ⟨sub, .handling, rest⟩ := by
        show (s.resume p envelope ⟨sub, .acquiring, rest⟩ .returned).publishes p = _
        rw [LocalState.resume_self]
        simp [PublishCall.resume, Subscription.resume, hStore, PublishPhase.next]
      let n := m.resume p envelope ⟨sub, .handling, rest⟩ .returned
      have hNext : n.publishes p = .next envelope (PublishCall.atLoopHead rest) := by
        show (m.resume p envelope ⟨sub, .handling, rest⟩ .returned).publishes p = _
        rw [LocalState.resume_self]
        simp [PublishCall.resume, Subscription.resume, hStore]
      obtain ⟨as, t, run, hActions, hReturned, hOthers⟩ :=
        ih (fun other h => hPlain other (List.mem_cons_of_mem _ h)) n hNext
      refine ⟨.resume p .returned :: .resume p .returned :: as, t, ?_, ?_, hReturned, ?_⟩
      · apply exec_cons.mpr
        refine ⟨m, by simp only [localStep, hStarted, m], ?_⟩
        apply exec_cons.mpr
        exact ⟨n, by simp only [localStep, hRunning, n], run⟩
      · intro a ha
        rcases List.mem_cons.mp ha with rfl | ha
        · rfl
        · rcases List.mem_cons.mp ha with rfl | ha
          · rfl
          · exact hActions a ha
      · intro p' hp
        rw [hOthers p' hp]
        show (m.resume p envelope _ .returned).publishes p' = _
        rw [LocalState.resume_of_ne hp]
        show (s.resume p envelope _ .returned).publishes p' = _
        rw [LocalState.resume_of_ne hp]

/-- There is such a run for every list of events. -/
theorem exists_localRun (hPlain : ∀ sub ∈ subs, sub.idemStore = false) (events : List EventEnvelope) :
    ∃ t, LocalRun subs events t := by
  suffices hRun : ∃ t, LocalRun subs events t ∧ ∀ p, events.length ≤ p → t.publishes p = .idle by
    obtain ⟨t, ht, -⟩ := hRun
    exact ⟨t, ht⟩
  induction events using List.reverseRecOn with
  | nil => exact ⟨.initial .empty, ⟨[], rfl, by simp, by simp, fun _ => rfl⟩, fun _ _ => rfl⟩
  | append_singleton events envelope ih =>
      obtain ⟨s, ⟨as, run, hPublished, hReturns, hFinished⟩, hIdle⟩ := ih
      let p := events.length
      let m := s.setPublish p (.next envelope (PublishCall.atLoopHead
        ((LocalEventBus.subscribeAll subs).handlersFor envelope.eventName)))
      have hHead : m.publishes p = .next envelope (PublishCall.atLoopHead
          ((LocalEventBus.subscribeAll subs).handlersFor envelope.eventName)) :=
        Function.update_self ..
      obtain ⟨bs, t, run', hActions, hReturned, hOthers⟩ :=
        exists_publish_end p envelope _ (plain_handlersFor hPlain envelope.eventName) m hHead
      have hKept : ∀ p', p' ≠ p → t.publishes p' = s.publishes p' := by
        intro p' hp
        rw [hOthers p' hp]
        exact Function.update_of_ne hp ..
      refine ⟨t, ⟨as ++ .publish p envelope :: bs, ?_, ?_, ?_, ?_⟩, ?_⟩
      · apply exec_append.mpr
        refine ⟨s, run, exec_cons.mpr ⟨m, ?_, run'⟩⟩
        simp only [localStep, hIdle p (Nat.le_refl _), m]
      · intro p' other
        have hLater : ∀ b ∈ bs, b ≠ .publish p' other := by
          intro b hb
          rw [hActions b hb]
          simp
        rw [List.mem_append, List.mem_cons, hPublished p' other, getElem?_concat_iff]
        constructor
        · rintro (hOld | hNew | hBs)
          · exact Or.inl hOld
          · cases hNew
            exact Or.inr ⟨rfl, rfl⟩
          · exact absurd rfl (hLater _ hBs)
        · rintro (hOld | ⟨rfl, rfl⟩)
          · exact Or.inl hOld
          · exact Or.inr (Or.inl rfl)
      · intro p' outcome h
        rcases List.mem_append.mp h with hOld | hNew
        · exact hReturns p' outcome hOld
        · rcases List.mem_cons.mp hNew with hFirst | hBs
          · cases hFirst
          · cases hActions _ hBs
            rfl
      · intro p'
        by_cases hp : p' = p
        · rw [hp, hReturned]
          rfl
        · rw [hKept p' hp]
          exact hFinished p'
      · intro p' hLength
        have hp : p' ≠ p := by
          show p' ≠ events.length
          rw [List.length_append, List.length_singleton] at hLength
          omega
        rw [hKept p' hp]
        apply hIdle p'
        rw [List.length_append] at hLength
        omega

end Local

end ServicePlatform
