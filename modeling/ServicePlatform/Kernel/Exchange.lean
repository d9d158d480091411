import Mathlib.Data.List.Induction
import ServicePlatform.Kernel.IdempotencyRace

/-! What an ASGI application does with a request, message by message, and the
idempotency middleware in front of it. Requests come one after the other here,
and what the application does with each of them is open, so that it may depend
on anything that happened before. -/
namespace ServicePlatform

namespace AppMessage

def isStart : AppMessage → Bool
  | .start _ _ => true
  | .body _ _ => false

/-- The body message that ends a response. -/
def isFinal : AppMessage → Bool
  | .body _ false => true
  | _ => false

@[simp] theorem isFinal_body (chunk : Bytes) (moreBody : Bool) : (body chunk moreBody).isFinal = !moreBody := by
  cases moreBody <;> rfl

end AppMessage

/-- The messages that an application sends, and whether an exception leaves it
afterwards. -/
structure Exchange where
  messages : List AppMessage
  raised : Bool

namespace Exchange

def Started (exchange : Exchange) : Prop := ∃ message ∈ exchange.messages, message.isStart = true

/-- The application sends its response to the end. -/
def Completed (exchange : Exchange) : Prop := ∃ message ∈ exchange.messages, message.isFinal = true

instance (exchange : Exchange) : Decidable exchange.Started :=
  inferInstanceAs (Decidable (∃ message ∈ exchange.messages, message.isStart = true))

instance (exchange : Exchange) : Decidable exchange.Completed :=
  inferInstanceAs (Decidable (∃ message ∈ exchange.messages, message.isFinal = true))

/-- What is sent where an exception holds up the message that ends the response. -/
def cut (exchange : Exchange) : Exchange :=
  if exchange.Completed then ⟨exchange.messages.takeWhile fun message => !message.isFinal, true⟩ else exchange

end Exchange

namespace HttpResponse

/-- `Response.__call__`. -/
def exchange (response : HttpResponse) : Exchange :=
  ⟨[.start response.status response.headers, .body response.body false], false⟩

theorem exchange_injective {response response' : HttpResponse} (h : response.exchange = response'.exchange) :
    response = response' := by
  cases response
  cases response'
  simp only [exchange, Exchange.mk.injEq, List.cons.injEq, AppMessage.start.injEq, AppMessage.body.injEq,
    and_true] at h
  obtain ⟨⟨rfl, rfl⟩, rfl⟩ := h
  rfl

end HttpResponse

/-- A response that is sent in several chunks. -/
structure ChunkedResponse where
  status : Nat
  headers : Headers
  chunks : List Bytes
  final : Bytes

namespace ChunkedResponse

def messages (sent : ChunkedResponse) : List AppMessage :=
  .start sent.status sent.headers :: sent.chunks.map (fun chunk => .body chunk true) ++ [.body sent.final false]

/-- The response that the client puts together. -/
def response (sent : ChunkedResponse) : HttpResponse where
  status := sent.status
  headers := sent.headers
  body := sent.chunks.flatten ++ sent.final

end ChunkedResponse

/-- What of a response is sent first. -/
def HttpResponse.head (response : HttpResponse) : Nat × Headers := (response.status, response.headers)

/-- The answer from a stored response, where a body raises that is not JSON or is
not written again. -/
def CachedResponse.exchange (codec : JsonCodec) (cached : CachedResponse) : Exchange :=
  match cached.replay codec with
  | some response => response.exchange
  | none => ⟨[], true⟩

theorem CachedResponse.exchange_eq_iff {codec : JsonCodec} {cached : CachedResponse} {response : HttpResponse} :
    cached.exchange codec = response.exchange ↔ cached.replay codec = some response := by
  unfold exchange
  cases cached.replay codec with
  | none => simp [HttpResponse.exchange]
  | some replayed =>
      rw [Option.some.injEq]
      exact ⟨HttpResponse.exchange_injective, congrArg HttpResponse.exchange⟩

/-- Which calls of the store raise. -/
structure StoreFaults where
  get : Bool
  put : Bool

structure IdempotencyMiddleware where
  codec : JsonCodec
  service : String

/-- What a call leaves in the store, what it sends, and whether it called the
wrapped application. -/
structure Served where
  store : IdempotencyStore CachedResponse
  exchange : Exchange
  called : Bool

namespace IdempotencyMiddleware

variable (m : IdempotencyMiddleware)

/-- `send_wrapper`, on the store and what has been collected. -/
def sendWrapper (key : String) (kept : IdempotencyStore CachedResponse × Collected) (message : AppMessage) :
    IdempotencyStore CachedResponse × Collected :=
  let collected := kept.2.receive message
  (if message.isFinal then kept.1.put key (collected.entry m.codec) else kept.1, collected)

/-- The store after the wrapped application has sent its messages. -/
def keep (store : IdempotencyStore CachedResponse) (key : String) (messages : List AppMessage) :
    IdempotencyStore CachedResponse :=
  (messages.foldl (m.sendWrapper key) (store, Collected.empty)).1

/-- `IdempotencyMiddleware.__call__`, for a wrapped application that would do
`inner`. -/
def call (store : IdempotencyStore CachedResponse) (request : HttpRequest) (inner : Exchange) : Served :=
  match request.storeKey m.service with
  | none => ⟨store, inner, true⟩
  | some key =>
      match store.get key with
      | some cached => ⟨store, cached.exchange m.codec, false⟩
      | none => ⟨m.keep store key inner.messages, inner, true⟩

/-- What a call sends, and whether it calls the wrapped application, where calls of
the store may raise. A lookup that raises leaves the middleware at once, and a
response that cannot be stored is not sent to its end. -/
def callWith (faults : StoreFaults) (store : IdempotencyStore CachedResponse) (request : HttpRequest)
    (inner : Exchange) : Exchange × Bool :=
  match request.storeKey m.service with
  | none => (inner, true)
  | some key =>
      if faults.get then (⟨[], true⟩, false)
      else
        match store.get key with
        | some cached => (cached.exchange m.codec, false)
        | none => (if faults.put then inner.cut else inner, true)

/-- What happens to the store: a request, or the end of an entry's lifetime. -/
inductive Event where
  | request (request : HttpRequest) (inner : Exchange)
  | expire (key : String)

def storeStep (store : IdempotencyStore CachedResponse) : Event → IdempotencyStore CachedResponse
  | .request request inner => (m.call store request inner).store
  | .expire key => store.expire key

def after (events : List Event) : IdempotencyStore CachedResponse :=
  events.foldl m.storeStep IdempotencyStore.empty

variable {m} {store : IdempotencyStore CachedResponse} {request : HttpRequest} {inner : Exchange}
  {key other : String} {events : List Event}

theorem after_concat (event : Event) : m.after (events ++ [event]) = m.storeStep (m.after events) event := by
  simp [after]

theorem call_unguarded (h : request.storeKey m.service = none) :
    m.call store request inner = ⟨store, inner, true⟩ := by
  simp only [call, h]

theorem call_known {cached : CachedResponse} (h : request.storeKey m.service = some key)
    (hTaken : store.get key = some cached) :
    m.call store request inner = ⟨store, cached.exchange m.codec, false⟩ := by
  simp only [call, h, hTaken]

theorem call_fresh (h : request.storeKey m.service = some key) (hFree : store.get key = none) :
    m.call store request inner = ⟨m.keep store key inner.messages, inner, true⟩ := by
  simp only [call, h, hFree]

/-- The wrapped application is called unless a response is stored. -/
theorem called_iff : (m.call store request inner).called = true ↔
    ∀ key, request.storeKey m.service = some key → store.get key = none := by
  cases hKey : request.storeKey m.service with
  | none => simp [call_unguarded hKey]
  | some key =>
      cases hStore : store.get key with
      | none => simp [call_fresh hKey hStore, hStore]
      | some cached => simp [call_known hKey hStore, hStore]

theorem exchange_of_called (h : (m.call store request inner).called = true) :
    (m.call store request inner).exchange = inner := by
  cases hKey : request.storeKey m.service with
  | none => rw [call_unguarded hKey]
  | some key => rw [call_fresh hKey (called_iff.mp h key hKey)]

/-- Where the store does not fail, this is the call. -/
theorem callWith_sound : m.callWith ⟨false, false⟩ store request inner =
    ((m.call store request inner).exchange, (m.call store request inner).called) := by
  unfold callWith call
  cases request.storeKey m.service with
  | none => rfl
  | some key =>
      simp only [Bool.false_eq_true, if_false]
      cases store.get key <;> rfl

theorem keep_get_other (h : other ≠ key) (messages : List AppMessage) :
    (m.keep store key messages).get other = store.get other := by
  have general : ∀ kept : IdempotencyStore CachedResponse × Collected,
      (messages.foldl (m.sendWrapper key) kept).1.get other = kept.1.get other := by
    induction messages with
    | nil => exact fun _ => rfl
    | cons message messages ih =>
        intro kept
        rw [List.foldl_cons, ih]
        unfold sendWrapper
        cases message.isFinal with
        | true => simp [IdempotencyStore.get_put, h]
        | false => rfl
  exact general _

/-- A response is stored when it is complete. -/
theorem keep_get_self (hFree : store.get key = none) :
    (m.keep store key inner.messages).get key ≠ none ↔ inner.Completed := by
  have general : ∀ (messages : List AppMessage) (kept : IdempotencyStore CachedResponse × Collected),
      (messages.foldl (m.sendWrapper key) kept).1.get key ≠ none ↔
        kept.1.get key ≠ none ∨ ∃ message ∈ messages, message.isFinal = true := by
    intro messages
    induction messages with
    | nil => simp
    | cons message messages ih =>
        intro kept
        rw [List.foldl_cons, ih]
        unfold sendWrapper
        cases hFinal : message.isFinal with
        | true => simp [IdempotencyStore.get_put, hFinal]
        | false => simp [hFinal]
  unfold keep Exchange.Completed
  rw [general, hFree, ne_self_iff_false, false_or]

/-- What is stored of a complete response. -/
theorem keep_chunked (sent : ChunkedResponse) :
    (m.keep store key sent.messages).get key = some (sent.response.cached m.codec) := by
  have chunked : ∀ (chunks : List Bytes) (kept : IdempotencyStore CachedResponse × Collected),
      (chunks.map fun chunk => AppMessage.body chunk true).foldl (m.sendWrapper key) kept =
        (kept.1, ⟨kept.2.started, kept.2.body ++ chunks.flatten⟩) := by
    intro chunks
    induction chunks with
    | nil => simp
    | cons chunk chunks ih =>
        intro kept
        rw [List.map_cons, List.foldl_cons, ih]
        simp [sendWrapper, Collected.receive, AppMessage.isFinal]
  unfold keep ChunkedResponse.messages
  rw [List.foldl_append, List.foldl_cons, List.foldl_nil, List.foldl_cons, chunked]
  simp [sendWrapper, AppMessage.isFinal, IdempotencyStore.get_put, Collected.receive, Collected.empty,
    HttpResponse.cached, ChunkedResponse.response]

/-- A request writes at most the entry of its own key, and no entry twice. -/
theorem call_get_of_taken {cached : CachedResponse} (hTaken : store.get key = some cached) :
    (m.call store request inner).store.get key = some cached := by
  cases hKey : request.storeKey m.service with
  | none => rw [call_unguarded hKey, hTaken]
  | some own =>
      cases hStore : store.get own with
      | some _ => rw [call_known hKey hStore, hTaken]
      | none =>
          rw [call_fresh hKey hStore, keep_get_other _ _, hTaken]
          rintro rfl
          rw [hTaken] at hStore
          cases hStore

/-- A call adds the entry of its own key, when it completes its response. -/
theorem call_get_iff : (m.call store request inner).store.get key ≠ none ↔
    store.get key ≠ none ∨ request.storeKey m.service = some key ∧ inner.Completed := by
  cases hStore : store.get key with
  | some cached => simp [call_get_of_taken hStore]
  | none =>
      rw [ne_self_iff_false, false_or]
      cases hOwn : request.storeKey m.service with
      | none => simp [call_unguarded hOwn, hStore]
      | some own =>
          rw [Option.some.injEq]
          by_cases hKey : own = key
          · subst hKey
            rw [call_fresh hOwn hStore, keep_get_self hStore, eq_self_iff_true, true_and]
          · cases hEntry : store.get own with
            | some _ => simp [call_known hOwn hEntry, hStore, hKey]
            | none => simp [call_fresh hOwn hEntry, keep_get_other (Ne.symm hKey), hStore, hKey]

/-- An entry stays until it expires. -/
theorem after_get_append {cached : CachedResponse} {rest : List Event} (hTaken : (m.after events).get key = some cached)
    (hLive : .expire key ∉ rest) : (m.after (events ++ rest)).get key = some cached := by
  induction rest using List.reverseRecOn with
  | nil => rwa [List.append_nil]
  | append_singleton rest event ih =>
      have hEarlier := ih fun hMem => hLive (List.mem_append_left _ hMem)
      rw [← List.append_assoc, after_concat]
      cases event with
      | request request inner => exact call_get_of_taken hEarlier
      | expire other =>
          have hOther : key ≠ other := by
            rintro rfl
            simp at hLive
          rw [storeStep, IdempotencyStore.get_expire, if_neg hOther, hEarlier]

/-- A response with the key was completed, and has not expired since. -/
def Held (m : IdempotencyMiddleware) (key : String) (events : List Event) : Prop :=
  ∃ before request inner rest, events = before ++ .request request inner :: rest ∧
    request.storeKey m.service = some key ∧ inner.Completed ∧ .expire key ∉ rest

theorem not_held_nil : ¬ m.Held key [] := by
  rintro ⟨before, request, inner, rest, hSplit, -⟩
  simp at hSplit

/-- The event completes a response with the key. -/
def Completes (m : IdempotencyMiddleware) (key : String) : Event → Prop
  | .request request inner => request.storeKey m.service = some key ∧ inner.Completed
  | .expire _ => False

theorem held_cons {event : Event} : m.Held key (event :: events) ↔
    m.Completes key event ∧ .expire key ∉ events ∨ m.Held key events := by
  constructor
  · rintro ⟨before, request, inner, rest, hSplit, hKey, hCompleted, hLive⟩
    cases before with
    | nil =>
        obtain ⟨rfl, rfl⟩ := List.cons.inj hSplit
        exact Or.inl ⟨⟨hKey, hCompleted⟩, hLive⟩
    | cons first before =>
        exact Or.inr ⟨before, request, inner, rest, (List.cons.inj hSplit).2, hKey, hCompleted, hLive⟩
  · rintro (⟨hCompletes, hLive⟩ | ⟨before, request, inner, rest, rfl, hKey, hCompleted, hLive⟩)
    · cases event with
      | request request inner => exact ⟨[], request, inner, events, rfl, hCompletes.1, hCompletes.2, hLive⟩
      | expire other => exact hCompletes.elim
    · exact ⟨event :: before, request, inner, rest, rfl, hKey, hCompleted, hLive⟩

theorem held_append {rest : List Event} : m.Held key (events ++ rest) ↔
    m.Held key events ∧ .expire key ∉ rest ∨ m.Held key rest := by
  induction events with
  | nil => simp [not_held_nil]
  | cons event events ih =>
      rw [List.cons_append, held_cons, held_cons, ih, List.mem_append, not_or, or_and_right, and_assoc, or_assoc]

theorem held_concat {event : Event} : m.Held key (events ++ [event]) ↔
    m.Held key events ∧ event ≠ .expire key ∨ m.Completes key event := by
  have hLive : .expire key ∉ ([] : List Event) := List.not_mem_nil
  rw [held_append, held_cons, List.mem_singleton, and_iff_left hLive, or_iff_left not_held_nil, ne_comm]

/-- The store holds an entry for exactly the completed responses. -/
theorem stored_iff : (m.after events).get key ≠ none ↔ m.Held key events := by
  induction events using List.reverseRecOn with
  | nil =>
      exact iff_of_false (fun hSome => hSome rfl) not_held_nil
  | append_singleton events event ih =>
      rw [after_concat, held_concat, ← ih]
      cases event with
      | expire other =>
          rw [storeStep, IdempotencyStore.get_expire]
          by_cases hOther : key = other
          · simp [hOther, Completes]
          · simp [hOther, Ne.symm hOther, Completes]
      | request request inner =>
          have hKept : Event.request request inner ≠ .expire key := by simp
          rw [storeStep, call_get_iff, and_iff_left hKept]
          rfl

end IdempotencyMiddleware

end ServicePlatform
