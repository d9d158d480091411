import ServicePlatform.Contract.Events
import ServicePlatform.Storage.KeyedTable
import Mathlib.Algebra.Ring.Int.Defs

/-! The transactional outbox: the row a business transaction stages, and what
the relay reads from a row and writes back to it. Values the database or the
clock supplies (the generated id, the default timestamps) are arguments. -/
namespace ServicePlatform

def maxAttempts : Nat := 8

/-- `BASE_BACKOFF_SECONDS`, in the microseconds of `DateTime`. -/
def baseBackoff : Int := 2000000

inductive OutboxStatus where
  | pending
  | sent
  | failed
  deriving DecidableEq, Repr

structure OutboxMessage where
  id : String
  eventName : String
  aggregateType : String
  aggregateId : String
  payload : StrDict
  headers : StrDict
  status : OutboxStatus
  attempts : Nat
  nextAttemptAt : Option DateTime
  createdAt : DateTime
  sentAt : Option DateTime

def traceHeader : Option TraceContext → PyValue
  | some trace => trace.modelDump
  | none => .none

/-- The row object of `stage_outbox`, with the column defaults it receives
when the session flushes: a fresh id and the current time. -/
def stageOutbox (id : String) (createdAt : DateTime) (envelope : EventEnvelope) : OutboxMessage where
  id := id
  eventName := envelope.eventName
  aggregateType := envelope.aggregateType
  aggregateId := envelope.aggregateId
  payload := envelope.payload
  headers := [("trace", traceHeader envelope.trace)]
  status := .pending
  attempts := 0
  nextAttemptAt := none
  createdAt := createdAt
  sentAt := none

namespace OutboxMessage

/-- The row as the database returns it later: both JSON columns have been
serialised. A value `json.dumps` rejects fails the flush. -/
def persist (row : OutboxMessage) : Option OutboxMessage :=
  (jsonColumn row.payload).bind fun payload =>
    (jsonColumn row.headers).map fun headers => { row with payload := payload, headers := headers }

/-- The columns that staging decides. The relay never writes one of them. -/
structure Content where
  id : String
  eventName : String
  aggregateType : String
  aggregateId : String
  payload : StrDict
  headers : StrDict
  createdAt : DateTime

def content (row : OutboxMessage) : Content :=
  ⟨row.id, row.eventName, row.aggregateType, row.aggregateId, row.payload, row.headers,
    row.createdAt⟩

def toTrace (row : OutboxMessage) : Option TraceContext :=
  match row.headers.lookup "trace" with
  | some (.dict items) => TraceContext.modelValidate items
  | _ => none

/-- `OutboxRelay._to_envelope`. -/
def toEnvelope (row : OutboxMessage) : EventEnvelope where
  eventId := row.id
  eventName := row.eventName
  source := ""
  aggregateType := row.aggregateType
  aggregateId := row.aggregateId
  occurredAt := row.createdAt
  payload := row.payload
  trace := row.toTrace

theorem toEnvelope_congr {row row' : OutboxMessage} (h : row.content = row'.content) :
    row.toEnvelope = row'.toEnvelope := by
  simp only [content, Content.mk.injEq] at h
  obtain ⟨hId, hName, hType, hAggregate, hPayload, hHeaders, hCreated⟩ := h
  simp only [toEnvelope, toTrace, hId, hName, hType, hAggregate, hPayload, hHeaders, hCreated]

theorem id_of_content {row row' : OutboxMessage} (h : row.content = row'.content) :
    row.id = row'.id :=
  congrArg Content.id h

/-- The `WHERE` clause of the relay's query. -/
def due (now : DateTime) (row : OutboxMessage) : Bool :=
  row.status = .pending && match row.nextAttemptAt with
    | none => true
    | some next => decide (next ≤ now)

theorem pending_of_due {now : DateTime} {row : OutboxMessage} (h : row.due now = true) :
    row.status = .pending := by
  simp only [due, Bool.and_eq_true, decide_eq_true_eq] at h
  exact h.1

/-- After the publisher returned. -/
def markSent (clock : DateTime) (row : OutboxMessage) : OutboxMessage :=
  { row with status := .sent, sentAt := some clock, attempts := row.attempts + 1 }

/-- After the publisher raised: give up at the last attempt, otherwise wait
longer each time, counting from the start of the batch. -/
def markFailed (now : DateTime) (row : OutboxMessage) : OutboxMessage :=
  let attempts := row.attempts + 1
  if maxAttempts ≤ attempts then { row with attempts := attempts, status := .failed }
  else { row with attempts := attempts, nextAttemptAt := some (now + baseBackoff * 2 ^ min attempts 6) }

/-- A failed row is due again when its backoff has passed. -/
theorem due_markFailed {now : DateTime} {row : OutboxMessage} (h : row.status = .pending)
    (hMore : row.attempts + 1 < maxAttempts) :
    (row.markFailed now).due (now + baseBackoff * 2 ^ min (row.attempts + 1) 6) = true := by
  have hRoom : ¬ maxAttempts ≤ row.attempts + 1 := Nat.not_le_of_lt hMore
  simp [due, markFailed, hRoom, h]

/-- The flush of an ORM object updates the columns whose value differs from
the value that was loaded, and leaves the others as the database has them. -/
def flush (loaded current committed : OutboxMessage) : OutboxMessage :=
  { committed with
    status := if current.status = loaded.status then committed.status else current.status
    attempts := if current.attempts = loaded.attempts then committed.attempts else current.attempts
    nextAttemptAt := if current.nextAttemptAt = loaded.nextAttemptAt then committed.nextAttemptAt
      else current.nextAttemptAt
    sentAt := if current.sentAt = loaded.sentAt then committed.sentAt else current.sentAt }

@[simp] theorem flush_content (loaded current committed : OutboxMessage) :
    (flush loaded current committed).content = committed.content := rfl

/-- Nobody else wrote the row since it was loaded, so the flush stores the
object as it is. -/
theorem flush_self {loaded current : OutboxMessage} (h : current.content = loaded.content) :
    flush loaded current loaded = current := by
  cases loaded
  cases current
  simp only [content, Content.mk.injEq] at h
  obtain ⟨rfl, rfl, rfl, rfl, rfl, rfl, rfl⟩ := h
  simp only [flush, mk.injEq, true_and]
  refine ⟨?_, ?_, ?_, ?_⟩ <;> split <;> simp_all

@[simp] theorem markSent_content (clock : DateTime) (row : OutboxMessage) :
    (row.markSent clock).content = row.content := rfl

@[simp] theorem markFailed_content (now : DateTime) (row : OutboxMessage) :
    (row.markFailed now).content = row.content := by
  unfold markFailed
  dsimp only
  split <;> rfl

@[simp] theorem markFailed_attempts (now : DateTime) (row : OutboxMessage) :
    (row.markFailed now).attempts = row.attempts + 1 := by
  unfold markFailed
  dsimp only
  split <;> rfl

/-- A pending row that fails stays pending with room for another attempt, or
has used all of them. -/
theorem markFailed_status {now : DateTime} {row : OutboxMessage} (h : row.status = .pending) :
    (row.markFailed now).status = .pending ∧ row.attempts + 1 < maxAttempts ∨
      (row.markFailed now).status = .failed ∧ maxAttempts ≤ row.attempts + 1 := by
  unfold markFailed
  dsimp only
  split
  · next hLast => exact Or.inr ⟨rfl, hLast⟩
  · next hMore => exact Or.inl ⟨h, Nat.lt_of_not_le hMore⟩

end OutboxMessage

abbrev OutboxTable := Storage.KeyedTable OutboxMessage OutboxMessage.id

namespace OutboxTable

/-- The ids the relay's query matches in a committed state of the table. -/
def dueIds (table : OutboxTable) (now : DateTime) : List String :=
  (table.rows.filter (OutboxMessage.due now)).map OutboxMessage.id

/-- An answer to the query before its limit: every due row, oldest first.
The order of rows created at the same instant is the database's choice. -/
def DueOrder (table : OutboxTable) (now : DateTime) (order : List String) : Prop :=
  order.Perm (table.dueIds now) ∧
    (order.filterMap table.find).Pairwise fun a b => a.createdAt ≤ b.createdAt

instance (table : OutboxTable) (now : DateTime) (order : List String) :
    Decidable (table.DueOrder now order) :=
  inferInstanceAs (Decidable (_ ∧ _))

theorem DueOrder.nodup {table : OutboxTable} {now : DateTime} {order : List String}
    (h : table.DueOrder now order) : order.Nodup := by
  rw [h.1.nodup_iff]
  exact (List.filter_sublist.map OutboxMessage.id).nodup table.nodup

/-- The number of rows `SELECT count(*) … WHERE status = 'pending'` finds. -/
def pendingCount (table : OutboxTable) : Nat :=
  table.rows.countP fun row => row.status = .pending

end OutboxTable

end ServicePlatform
