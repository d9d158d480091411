import ServicePlatform.Kernel.Events
import ServicePlatform.Transition.Run
import Mathlib.Data.List.Nodup

/-! Deliveries of one subscription, deduplicated by the idempotency store. The
guarded calls interleave at their awaits, and the handler changes its memory
as it likes while it runs. What ties the store to the handler is that the keys
in it are the events for which the handler was started. -/
namespace ServicePlatform

open Transition

abbrev DeliveryId := Nat

/-- Where a delivery stands: its guarded call is at an await, or over. -/
inductive DeliveryPhase where
  | idle
  | running (envelope : EventEnvelope) (phase : GuardedPhase)
  | skipped (envelope : EventEnvelope)
  | handled (envelope : EventEnvelope) (outcome : HandlerOutcome)

namespace DeliveryPhase

def envelope : DeliveryPhase → Option EventEnvelope
  | .idle => none
  | .running envelope _ => some envelope
  | .skipped envelope => some envelope
  | .handled envelope _ => some envelope

/-- The guarded call has come past `acquire` and goes on to the handler. -/
def entered : DeliveryPhase → Bool
  | .running _ .acquiring => false
  | .running _ _ => true
  | .handled _ _ => true
  | _ => false

def isRunning : DeliveryPhase → Bool
  | .running _ _ => true
  | _ => false

/-- The delivery after its guarded call was resumed. -/
def next (envelope : EventEnvelope) : GuardedNext → DeliveryPhase
  | .awaits phase => .running envelope phase
  | .skipped => .skipped envelope
  | .handled outcome => .handled envelope outcome

@[simp] theorem envelope_next (event : EventEnvelope) (next : GuardedNext) :
    (DeliveryPhase.next event next).envelope = some event := by
  cases next <;> rfl

end DeliveryPhase

/-- The store, the memory of the handler, the deliveries so far, and the
record of handler starts. -/
structure ConsumerState (Memory : Type*) where
  store : IdempotencyStore String
  memory : Memory
  deliveries : DeliveryId → DeliveryPhase
  started : List (HandlerId × String)

inductive ConsumerAction (Memory : Type*) where
  | deliver (d : DeliveryId) (envelope : EventEnvelope)
  | resume (d : DeliveryId) (outcome : HandlerOutcome)
  | work (d : DeliveryId) (effect : Memory → Memory)

def ConsumerAction.delivery {Memory : Type*} : ConsumerAction Memory → DeliveryId
  | .deliver d _ => d
  | .resume d _ => d
  | .work d _ => d

namespace Subscription

/-- The handler start that a resumed call makes, if any. -/
def starts (sub : Subscription) (eventId : String) : GuardedNext → List (HandlerId × String)
  | .awaits .handling => [(sub.handler, eventId)]
  | _ => []

end Subscription

namespace ConsumerState

variable {Memory : Type*}

def initial (store : IdempotencyStore String) (memory : Memory) : ConsumerState Memory :=
  ⟨store, memory, fun _ => .idle, []⟩

def setDelivery (s : ConsumerState Memory) (d : DeliveryId) (phase : DeliveryPhase) :
    ConsumerState Memory :=
  { s with deliveries := Function.update s.deliveries d phase }

/-- One step of the guarded call of a delivery. -/
def resume (sub : Subscription) (s : ConsumerState Memory) (d : DeliveryId) (envelope : EventEnvelope)
    (phase : GuardedPhase) (outcome : HandlerOutcome) : ConsumerState Memory :=
  let (store, next) := sub.resume envelope.eventId s.store outcome phase
  { s.setDelivery d (.next envelope next) with
    store := store
    started := s.started ++ sub.starts envelope.eventId next }

end ConsumerState

def consumerStep {Memory : Type*} (sub : Subscription) (s : ConsumerState Memory) :
    ConsumerAction Memory → Option (ConsumerState Memory)
  | .deliver d envelope =>
      match s.deliveries d with
      | .idle => some (s.setDelivery d (.running envelope .acquiring))
      | _ => none
  | .resume d outcome =>
      match s.deliveries d with
      | .running envelope phase => some (s.resume sub d envelope phase outcome)
      | _ => none
  | .work d effect =>
      match s.deliveries d with
      | .running _ .handling => some { s with memory := effect s.memory }
      | _ => none

/-- The keys of the subscription in the store are the events for which a
handler was started, and no event has two starts. -/
structure Claimed (sub : Subscription) (store : IdempotencyStore String)
    (started : List (HandlerId × String)) : Prop where
  known : ∀ id, store.get (sub.key id) ≠ none ↔ id ∈ started.map Prod.snd
  once : (started.map Prod.snd).Nodup

namespace Claimed

variable {sub : Subscription} {store : IdempotencyStore String} {started : List (HandlerId × String)}

theorem nil (h : ∀ id, store.get (sub.key id) = none) : Claimed sub store [] := by
  constructor
  · intro id
    simp [h id]
  · exact List.nodup_nil

/-- Another subscription of the event name uses the same keys. -/
theorem of_eventName (h : Claimed sub store started) (other : Subscription)
    (hName : other.eventName = sub.eventName) : Claimed other store started := by
  have hKey : other.key = sub.key := by
    funext id
    unfold Subscription.key
    rw [hName]
  constructor
  · rw [hKey]
    exact h.known
  · exact h.once

/-- Marking an event that was started changes no knowledge. -/
theorem put (h : Claimed sub store started) {id : String} (hStarted : id ∈ started.map Prod.snd)
    (value : String) : Claimed sub (store.put (sub.key id) value) started := by
  constructor
  · intro other
    rw [IdempotencyStore.get_put]
    split
    · next hKey =>
        rw [sub.key_injective hKey]
        simpa using hStarted
    · exact h.known other
  · exact h.once

/-- The first delivery of an event claims it. -/
theorem claim (h : Claimed sub store started) {id : String} (hFree : store.get (sub.key id) = none)
    (handler : HandlerId) (value : String) :
    Claimed sub (store.put (sub.key id) value) (started ++ [(handler, id)]) := by
  have hNew : id ∉ started.map Prod.snd := fun hMem => (h.known id).mpr hMem hFree
  constructor
  · intro other
    rw [IdempotencyStore.get_put, List.map_append, List.mem_append]
    split
    · next hKey =>
        rw [sub.key_injective hKey]
        simp
    · next hKey =>
        have hOther : other ≠ id := fun he => hKey (congrArg sub.key he)
        rw [h.known other]
        simp [hOther]
  · rw [List.map_append]
    apply h.once.append (List.nodup_singleton id)
    intro other hOld hLast
    rw [List.mem_singleton.mp hLast] at hOld
    exact hNew hOld

/-- A step of a guarded call keeps the store tied to the handler starts. Past
its first await, the call belongs to an event that was started. -/
theorem resume (h : Claimed sub store started) (hStore : sub.idemStore = true) (outcome : HandlerOutcome)
    {id : String} {phase : GuardedPhase}
    (hEntered : phase ≠ .acquiring → id ∈ started.map Prod.snd) :
    Claimed sub (sub.resume id store outcome phase).1
        (started ++ sub.starts id (sub.resume id store outcome phase).2) ∧
      id ∈ (started ++ sub.starts id (sub.resume id store outcome phase).2).map Prod.snd := by
  cases phase with
  | acquiring =>
      by_cases hFree : store.get (sub.key id) = none
      · have hResume : sub.resume id store outcome .acquiring =
            (store.put (sub.key id) "processing", .awaits .handling) := by
          simp [Subscription.resume, hStore, IdempotencyStore.acquire_free hFree]
        rw [hResume]
        exact ⟨h.claim hFree sub.handler "processing", by simp [Subscription.starts]⟩
      · have hResume : sub.resume id store outcome .acquiring = (store, .skipped) := by
          simp [Subscription.resume, hStore, IdempotencyStore.acquire_taken hFree]
        rw [hResume]
        simp only [Subscription.starts, List.append_nil]
        exact ⟨h, (h.known id).mp hFree⟩
  | handling =>
      have hStarted := hEntered (by simp)
      have hResume : sub.resume id store outcome .handling = (store, .awaits (.finishing outcome)) := by
        simp [Subscription.resume, hStore]
      rw [hResume]
      simp only [Subscription.starts, List.append_nil]
      exact ⟨h, hStarted⟩
  | finishing result =>
      have hStarted := hEntered (by simp)
      have hResume : sub.resume id store outcome (.finishing result) =
          (store.put (sub.key id) "done", .handled result) := rfl
      rw [hResume]
      simp only [Subscription.starts, List.append_nil]
      exact ⟨h.put hStarted "done", hStarted⟩

/-- How often a handler was started for an event, when it is the only one. -/
theorem count_le_one (h : Claimed sub store started) (handler : HandlerId) (id : String) :
    started.count (handler, id) ≤ 1 := by
  apply List.nodup_iff_count_le_one.mp
  exact h.once.of_map

end Claimed

section Consumer

variable {Memory : Type*} {sub : Subscription} {s t : ConsumerState Memory} {a : ConsumerAction Memory}

/-- What a step does, case by case. -/
theorem consumerStep_cases (h : consumerStep sub s a = some t) :
    (∃ d envelope, a = .deliver d envelope ∧ s.deliveries d = .idle ∧
      t = s.setDelivery d (.running envelope .acquiring)) ∨
    (∃ d outcome envelope phase, a = .resume d outcome ∧ s.deliveries d = .running envelope phase ∧
      t = s.resume sub d envelope phase outcome) ∨
    (∃ d effect envelope, a = .work d effect ∧ s.deliveries d = .running envelope .handling ∧
      t = { s with memory := effect s.memory }) := by
  cases a with
  | deliver d envelope =>
      simp only [consumerStep] at h
      split at h
      · next hIdle =>
          cases h
          exact Or.inl ⟨d, envelope, rfl, hIdle, rfl⟩
      · cases h
  | resume d outcome =>
      simp only [consumerStep] at h
      split at h
      · next envelope phase hRunning =>
          cases h
          exact Or.inr (Or.inl ⟨d, outcome, envelope, phase, rfl, hRunning, rfl⟩)
      · cases h
  | work d effect =>
      simp only [consumerStep] at h
      split at h
      · next envelope hRunning =>
          cases h
          exact Or.inr (Or.inr ⟨d, effect, envelope, rfl, hRunning, rfl⟩)
      · cases h

/-- Only the handler of the subscription is started, and every delivery past
its first await belongs to an event that was started. -/
structure ConsumerInv (sub : Subscription) (s : ConsumerState Memory) : Prop where
  claimed : Claimed sub s.store s.started
  handler : ∀ start ∈ s.started, start.1 = sub.handler
  started : ∀ d envelope, (s.deliveries d).envelope = some envelope →
    s.deliveries d ≠ .running envelope .acquiring → envelope.eventId ∈ s.started.map Prod.snd

theorem consumerInv_initial {store : IdempotencyStore String} (hFresh : ∀ id, store.get (sub.key id) = none)
    (memory : Memory) : ConsumerInv sub (.initial store memory) where
  claimed := .nil hFresh
  handler := by
    intro start hMem
    cases hMem
  started := by
    intro d envelope hEnvelope
    cases hEnvelope

theorem Subscription.handler_of_starts {eventId : String} {next : GuardedNext}
    {start : HandlerId × String} (h : start ∈ sub.starts eventId next) : start.1 = sub.handler := by
  unfold Subscription.starts at h
  split at h
  · rw [List.mem_singleton.mp h]
  · cases h

theorem ConsumerInv.resume (inv : ConsumerInv sub s) (hStore : sub.idemStore = true) {d : DeliveryId}
    {envelope : EventEnvelope} {phase : GuardedPhase} (hRunning : s.deliveries d = .running envelope phase)
    (outcome : HandlerOutcome) : ConsumerInv sub (s.resume sub d envelope phase outcome) := by
  have hEntered : phase ≠ .acquiring → envelope.eventId ∈ s.started.map Prod.snd := by
    intro hPhase
    apply inv.started d envelope
    · rw [hRunning]
      rfl
    · rw [hRunning]
      simpa using hPhase
  have hResume := inv.claimed.resume hStore outcome hEntered
  constructor
  · exact hResume.1
  · intro start hMem
    rcases List.mem_append.mp hMem with hOld | hNew
    · exact inv.handler start hOld
    · exact Subscription.handler_of_starts hNew
  · intro d' other hEnvelope hPast
    by_cases hd : d' = d
    · rw [hd] at hEnvelope
      have hOther : other = envelope := by
        simpa [ConsumerState.resume, ConsumerState.setDelivery] using hEnvelope.symm
      rw [hOther]
      exact hResume.2
    · have hSame : (s.resume sub d envelope phase outcome).deliveries d' = s.deliveries d' :=
        Function.update_of_ne hd ..
      rw [hSame] at hEnvelope hPast
      have hOld := inv.started d' other hEnvelope hPast
      show other.eventId ∈ (s.started ++ _).map Prod.snd
      rw [List.map_append]
      exact List.mem_append_left _ hOld

theorem ConsumerInv.step (hStore : sub.idemStore = true) (inv : ConsumerInv sub s)
    (h : consumerStep sub s a = some t) : ConsumerInv sub t := by
  obtain ⟨d, envelope, -, hIdle, rfl⟩ | ⟨d, outcome, envelope, phase, -, hRunning, rfl⟩ |
    ⟨d, effect, envelope, -, hRunning, rfl⟩ := consumerStep_cases h
  · constructor
    · exact inv.claimed
    · exact inv.handler
    · intro d' other hEnvelope hPast
      by_cases hd : d' = d
      · subst hd
        simp only [ConsumerState.setDelivery, Function.update_self, DeliveryPhase.envelope,
          Option.some.injEq] at hEnvelope hPast
        exact absurd (by rw [hEnvelope]) hPast
      · simp only [ConsumerState.setDelivery, Function.update_of_ne hd] at hEnvelope hPast
        exact inv.started d' other hEnvelope hPast
  · exact inv.resume hStore hRunning outcome
  · exact ⟨inv.claimed, inv.handler, inv.started⟩

/-- A delivery that has come past `acquire` is never skipped afterwards. -/
theorem entered_step {d : DeliveryId} (hEntered : (s.deliveries d).entered = true)
    (h : consumerStep sub s a = some t) : (t.deliveries d).entered = true := by
  obtain ⟨d', envelope, -, hIdle, rfl⟩ | ⟨d', outcome, envelope, phase, -, hRunning, rfl⟩ |
    ⟨d', effect, envelope, -, hRunning, rfl⟩ := consumerStep_cases h
  · have hd : d ≠ d' := by
      rintro rfl
      rw [hIdle] at hEntered
      cases hEntered
    simpa [ConsumerState.setDelivery, hd] using hEntered
  · by_cases hd : d = d'
    · subst hd
      rw [hRunning] at hEntered
      cases phase with
      | acquiring => cases hEntered
      | handling =>
          cases hStore : sub.idemStore <;>
            simp [ConsumerState.resume, ConsumerState.setDelivery, Subscription.resume, hStore,
              DeliveryPhase.next, DeliveryPhase.entered]
      | finishing result =>
          simp [ConsumerState.resume, ConsumerState.setDelivery, Subscription.resume,
            DeliveryPhase.next, DeliveryPhase.entered]
    · simpa [ConsumerState.resume, ConsumerState.setDelivery, hd] using hEntered
  · exact hEntered

/-- A step of a delivery changes the store or the memory only if it takes the
delivery past `acquire`, or the delivery was past it. -/
theorem consumerStep_frame (hStore : sub.idemStore = true) (h : consumerStep sub s a = some t)
    (hOutside : (t.deliveries a.delivery).entered = false) :
    t.store = s.store ∧ t.memory = s.memory := by
  obtain ⟨d, envelope, rfl, hIdle, rfl⟩ | ⟨d, outcome, envelope, phase, rfl, hRunning, rfl⟩ |
    ⟨d, effect, envelope, rfl, hRunning, rfl⟩ := consumerStep_cases h
  · exact ⟨rfl, rfl⟩
  · refine ⟨?_, rfl⟩
    cases phase with
    | acquiring =>
        by_cases hFree : s.store.get (sub.key envelope.eventId) = none
        · simp [ConsumerAction.delivery, ConsumerState.resume, ConsumerState.setDelivery,
            Subscription.resume, hStore, IdempotencyStore.acquire_free hFree, DeliveryPhase.next,
            DeliveryPhase.entered] at hOutside
        · simp [ConsumerState.resume, Subscription.resume, hStore,
            IdempotencyStore.acquire_taken hFree]
    | _ =>
        have hEntered := entered_step (by rw [hRunning]; rfl) h
        rw [ConsumerAction.delivery] at hOutside
        rw [hEntered] at hOutside
        cases hOutside
  · have hEntered := entered_step (by rw [hRunning]; rfl) h
    rw [ConsumerAction.delivery] at hOutside
    rw [hEntered] at hOutside
    cases hOutside

/-- A delivery keeps its envelope. -/
theorem envelope_step {d : DeliveryId} {envelope : EventEnvelope}
    (hEnvelope : (s.deliveries d).envelope = some envelope) (h : consumerStep sub s a = some t) :
    (t.deliveries d).envelope = some envelope := by
  obtain ⟨d', other, -, hIdle, rfl⟩ | ⟨d', outcome, other, phase, -, hRunning, rfl⟩ |
    ⟨d', effect, other, -, hRunning, rfl⟩ := consumerStep_cases h
  · have hd : d ≠ d' := by
      intro hd
      rw [hd, hIdle] at hEnvelope
      cases hEnvelope
    simpa [ConsumerState.setDelivery, hd] using hEnvelope
  · by_cases hd : d = d'
    · rw [hd, hRunning] at hEnvelope
      rw [hd, ← hEnvelope]
      show (Function.update s.deliveries d' (DeliveryPhase.next other _) d').envelope = some other
      rw [Function.update_self, DeliveryPhase.envelope_next]
    · simpa [ConsumerState.resume, ConsumerState.setDelivery, hd] using hEnvelope
  · exact hEnvelope

/-- What was delivered in a run is found at its end. -/
theorem delivered_envelope {as : List (ConsumerAction Memory)} (run : exec (consumerStep sub) s as = some t)
    {d : DeliveryId} {envelope : EventEnvelope} (h : .deliver d envelope ∈ as) :
    (t.deliveries d).envelope = some envelope := by
  obtain ⟨before, after, rfl⟩ := List.append_of_mem h
  obtain ⟨m, -, hRest⟩ := exec_append.mp run
  obtain ⟨n, hStep, hAfter⟩ := exec_cons.mp hRest
  apply invariant (I := fun s => (s.deliveries d).envelope = some envelope) _ _ hAfter
  · intro s a t hEnvelope hStep
    exact envelope_step hEnvelope hStep
  · obtain ⟨d', other, hAction, -, rfl⟩ | ⟨d', outcome, other, phase, hAction, -⟩ |
      ⟨d', effect, other, hAction, -⟩ := consumerStep_cases hStep
    · cases hAction
      simp [ConsumerState.setDelivery, DeliveryPhase.envelope]
    · cases hAction
    · cases hAction

/-- The handler is started once for each event that is delivered, whatever the
order of the steps and the outcomes. A skipped delivery leaves no trace. -/
theorem consumer_deduplicates (hStore : sub.idemStore = true) {store : IdempotencyStore String}
    (hFresh : ∀ id, store.get (sub.key id) = none) {memory : Memory} {as : List (ConsumerAction Memory)}
    (run : exec (consumerStep sub) (.initial store memory) as = some t) :
    (∀ id, t.started.count (sub.handler, id) ≤ 1) ∧
    (∀ d envelope, .deliver d envelope ∈ as → (t.deliveries d).isRunning = false →
      t.started.count (sub.handler, envelope.eventId) = 1) ∧
    (∀ before a after m n, as = before ++ a :: after →
      exec (consumerStep sub) (.initial store memory) before = some m → consumerStep sub m a = some n →
      (∃ envelope, t.deliveries a.delivery = .skipped envelope) →
      n.store = m.store ∧ n.memory = m.memory) := by
  have inv : ConsumerInv sub t := by
    apply invariant (fun s a t inv h => ConsumerInv.step hStore inv h) _ run
    exact consumerInv_initial hFresh memory
  refine ⟨fun id => inv.claimed.count_le_one sub.handler id, ?_, ?_⟩
  · intro d envelope hDelivered hFinished
    have hEnvelope := delivered_envelope run hDelivered
    have hPast : t.deliveries d ≠ .running envelope .acquiring := by
      intro hPhase
      rw [hPhase] at hFinished
      cases hFinished
    obtain ⟨start, hStart, hId⟩ := List.mem_map.mp (inv.started d envelope hEnvelope hPast)
    have hMem : (sub.handler, envelope.eventId) ∈ t.started := by
      rw [← inv.handler start hStart, ← hId]
      exact hStart
    have hOnce := inv.claimed.count_le_one sub.handler envelope.eventId
    have hSome := List.count_pos_iff.mpr hMem
    omega
  · intro before a after m n hAs hBefore hStep hSkipped
    apply consumerStep_frame hStore hStep
    apply Bool.eq_false_iff.mpr
    intro hEntered
    have hAfter : exec (consumerStep sub) n after = some t := by
      rw [hAs] at run
      obtain ⟨m', hm', hRest⟩ := exec_append.mp run
      obtain ⟨n', hn', hAfter⟩ := exec_cons.mp hRest
      cases hBefore.symm.trans hm'
      cases hStep.symm.trans hn'
      exact hAfter
    have hStill : (t.deliveries a.delivery).entered = true := by
      apply invariant (I := fun s => (s.deliveries a.delivery).entered = true) _ hEntered hAfter
      intro s b t hs h
      exact entered_step hs h
    obtain ⟨envelope, hSkip⟩ := hSkipped
    rw [hSkip] at hStill
    cases hStill

end Consumer

/-- Two deliveries of an event, of which the second comes while the handler
runs, and is skipped; the handler raises. -/
def duplicateDeliveries (envelope : EventEnvelope) : List (ConsumerAction Nat) :=
  [.deliver 0 envelope, .deliver 1 envelope, .resume 0 .returned, .work 0 (· + 1), .resume 1 .returned,
    .resume 0 .raised, .resume 0 .returned]

def sampleEnvelope : EventEnvelope := ⟨"e1", "user.created.v1", "user", "user", "u1", 0, [], none⟩

theorem consumer_deduplicates_duplicate :
    ∃ t, exec (consumerStep ⟨"user.created.v1", 0, true⟩) (.initial .empty 0)
        (duplicateDeliveries sampleEnvelope) = some t ∧
      t.started.count (0, "e1") = 1 ∧ t.memory = 1 := by
  have hRun : (exec (consumerStep ⟨"user.created.v1", 0, true⟩) (.initial .empty 0)
      (duplicateDeliveries sampleEnvelope)).isSome = true := rfl
  obtain ⟨t, ht⟩ := Option.isSome_iff_exists.mp hRun
  refine ⟨t, ht, ?_, ?_⟩
  · apply (consumer_deduplicates rfl (fun _ => rfl) ht).2.1 0 sampleEnvelope (List.mem_cons_self ..)
    cases ht
    rfl
  · cases ht
    rfl

end ServicePlatform
