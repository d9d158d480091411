import ServicePlatform.Contract.Events
import ServicePlatform.Kernel.IdempotencyStore

/-! The in-process event bus and the guarded handlers a consumer puts on it.
A call is cut at its awaits: the store's `acquire`, the handler, and the `put`
of the `finally` block. What the handler does is an argument. -/
namespace ServicePlatform

abbrev HandlerId := Nat

inductive HandlerOutcome where
  | returned
  | raised
  deriving DecidableEq, Repr

/-- What `EventConsumer.subscribe` closes over in `guarded`: the event name,
the handler, and whether the consumer has an idempotency store. -/
structure Subscription where
  eventName : String
  handler : HandlerId
  idemStore : Bool
  deriving DecidableEq

/-- The await a guarded call stands at. -/
inductive GuardedPhase where
  | acquiring
  | handling
  | finishing (outcome : HandlerOutcome)
  deriving DecidableEq

/-- The next await of a guarded call, or how it ends. -/
inductive GuardedNext where
  | awaits (phase : GuardedPhase)
  | skipped
  | handled (outcome : HandlerOutcome)

namespace Subscription

def key (sub : Subscription) (eventId : String) : String :=
  "evt:" ++ sub.eventName ++ ":" ++ eventId

theorem key_injective (sub : Subscription) {a b : String} (h : sub.key a = sub.key b) : a = b := by
  have hList := congrArg String.toList h
  simp only [key, String.toList_append, List.append_cancel_left_eq] at hList
  exact String.toList_injective hList

/-- The step of `guarded` that ends the await it stands at. The `finally`
block marks the key as done whatever the handler did. -/
def resume (sub : Subscription) (eventId : String) (store : IdempotencyStore String)
    (outcome : HandlerOutcome) : GuardedPhase → IdempotencyStore String × GuardedNext
  | .acquiring =>
      if sub.idemStore then
        match store.acquire (sub.key eventId) "processing" with
        | (true, store) => (store, .awaits .handling)
        | (false, store) => (store, .skipped)
      else (store, .awaits .handling)
  | .handling =>
      if sub.idemStore then (store, .awaits (.finishing outcome)) else (store, .handled outcome)
  | .finishing outcome => (store.put (sub.key eventId) "done", .handled outcome)

end Subscription

/-- `LocalEventBus._handlers`. -/
structure LocalEventBus where
  handlers : List (String × List Subscription)

namespace LocalEventBus

def empty : LocalEventBus := ⟨[]⟩

def subscribeIn (eventName : String) (handler : Subscription) :
    List (String × List Subscription) → List (String × List Subscription)
  | [] => [(eventName, [handler])]
  | (name, registered) :: rest =>
      if name = eventName then (name, registered ++ [handler]) :: rest
      else (name, registered) :: subscribeIn eventName handler rest

def subscribe (bus : LocalEventBus) (eventName : String) (handler : Subscription) : LocalEventBus :=
  ⟨subscribeIn eventName handler bus.handlers⟩

def handlersFor (bus : LocalEventBus) (eventName : String) : List Subscription :=
  (bus.handlers.lookup eventName).getD []

@[simp] theorem handlersFor_empty (eventName : String) : empty.handlersFor eventName = [] := rfl

/-- A subscription is called after the earlier ones of its event name. -/
theorem handlersFor_subscribe (bus : LocalEventBus) (eventName other : String)
    (handler : Subscription) : (bus.subscribe eventName handler).handlersFor other =
      if other = eventName then bus.handlersFor other ++ [handler] else bus.handlersFor other := by
  obtain ⟨handlers⟩ := bus
  simp only [subscribe, handlersFor]
  induction handlers with
  | nil =>
      by_cases h : other = eventName
      · simp [subscribeIn, h]
      · have hb : (other == eventName) = false := by simpa using h
        simp [subscribeIn, List.lookup_cons, h, hb]
  | cons entry rest ih =>
      obtain ⟨name, registered⟩ := entry
      by_cases hHead : other = name
      · subst hHead
        by_cases hName : other = eventName <;> simp [subscribeIn, hName]
      · have hb : (other == name) = false := by simpa using hHead
        by_cases hName : name = eventName
        · subst hName
          simp [subscribeIn, List.lookup_cons, hb, hHead]
        · simpa [subscribeIn, List.lookup_cons, hName, hb] using ih

end LocalEventBus

/-- A call of `LocalEventBus.publish`: the handler it awaits and those after it. -/
structure PublishCall where
  sub : Subscription
  phase : GuardedPhase
  rest : List Subscription
  deriving DecidableEq

inductive PublishNext where
  | awaits (call : PublishCall)
  | returns
  | raises

namespace PublishCall

/-- The head of the loop over the handlers. -/
def atLoopHead : List Subscription → PublishNext
  | [] => .returns
  | sub :: rest => .awaits ⟨sub, .acquiring, rest⟩

/-- An exception of one handler leaves the loop. -/
def resume (call : PublishCall) (eventId : String) (store : IdempotencyStore String)
    (outcome : HandlerOutcome) : IdempotencyStore String × PublishNext :=
  match call.sub.resume eventId store outcome call.phase with
  | (store, .awaits phase) => (store, .awaits { call with phase := phase })
  | (store, .handled .raised) => (store, .raises)
  | (store, _) => (store, atLoopHead call.rest)

end PublishCall

/-- A bus with the one handler that `EventConsumer.subscribe` registers. -/
def LocalEventBus.single (eventName : String) : LocalEventBus :=
  LocalEventBus.empty.subscribe eventName ⟨eventName, 0, true⟩

theorem LocalEventBus.handlersFor_single (eventName other : String) :
    (LocalEventBus.single eventName).handlersFor other =
      if other = eventName then [⟨eventName, 0, true⟩] else [] := by
  simp [LocalEventBus.single, LocalEventBus.handlersFor_subscribe]

end ServicePlatform
