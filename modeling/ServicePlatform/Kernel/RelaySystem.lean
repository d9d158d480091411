import ServicePlatform.Kernel.Outbox
import ServicePlatform.Storage.RowLocks
import ServicePlatform.Transition.Run

/-! Any number of outbox relays over one table, interleaved at every await of
`run_once`: the query, each publish, the count and the commit. The query with
`FOR UPDATE SKIP LOCKED` takes one candidate at a time, so other transactions
may commit while it runs; a candidate is skipped if it is locked, and checked
again once it is locked. A batch that dies keeps nothing but the publishes it
already made. -/
namespace ServicePlatform

open Storage Transition

abbrev RelayId := Nat

inductive PublishOutcome where
  | ok
  | error
  deriving DecidableEq, Repr

structure RelayConfig where
  useSkipLocked : Bool
  batchSize : Nat

/-- A row of the batch whose publish has returned, not yet committed. -/
structure Attempt where
  loaded : OutboxMessage
  outcome : PublishOutcome
  now : DateTime
  clock : DateTime

namespace Attempt

/-- The ORM object after the publish: `now` is the start of the batch and
`clock` the time the publish returned. -/
def current (attempt : Attempt) : OutboxMessage :=
  match attempt.outcome with
  | .ok => attempt.loaded.markSent attempt.clock
  | .error => attempt.loaded.markFailed attempt.now

@[simp] theorem current_content (attempt : Attempt) :
    attempt.current.content = attempt.loaded.content := by
  unfold current
  split <;> simp

@[simp] theorem current_id (attempt : Attempt) : attempt.current.id = attempt.loaded.id :=
  OutboxMessage.id_of_content attempt.current_content

@[simp] theorem current_attempts (attempt : Attempt) :
    attempt.current.attempts = attempt.loaded.attempts + 1 := by
  unfold current
  split
  · rfl
  · simp

def settlement (attempt : Attempt) : String × PublishOutcome := (attempt.loaded.id, attempt.outcome)

/-- The number `run_once` returns. -/
def delivered (batch : List Attempt) : Nat := batch.countP fun attempt => attempt.outcome = .ok

end Attempt

namespace OutboxTable

/-- What the commit of a batch makes of a stored row. -/
def storeRow (batch : List Attempt) (row : OutboxMessage) : OutboxMessage :=
  match batch.find? (fun attempt => attempt.loaded.id = row.id) with
  | some attempt => OutboxMessage.flush attempt.loaded attempt.current row
  | none => row

@[simp] theorem storeRow_content (batch : List Attempt) (row : OutboxMessage) :
    (storeRow batch row).content = row.content := by
  unfold storeRow
  split <;> simp

@[simp] theorem storeRow_id (batch : List Attempt) (row : OutboxMessage) :
    (storeRow batch row).id = row.id :=
  OutboxMessage.id_of_content (storeRow_content batch row)

/-- The commit writes each object of the batch to its row. -/
def applyBatch (table : OutboxTable) (batch : List Attempt) : OutboxTable :=
  table.mapRows (storeRow batch) (storeRow_id batch)

theorem mem_applyBatch {table : OutboxTable} {batch : List Attempt} {row : OutboxMessage} :
    row ∈ table.applyBatch batch ↔ ∃ before ∈ table, storeRow batch before = row :=
  KeyedTable.mem_mapRows

theorem storeRow_of_not_mem {batch : List Attempt} {row : OutboxMessage}
    (h : row.id ∉ batch.map fun attempt => attempt.loaded.id) : storeRow batch row = row := by
  have hNone : batch.find? (fun attempt => attempt.loaded.id = row.id) = none := by
    rw [List.find?_eq_none]
    intro attempt ha he
    exact h (List.mem_map.mpr ⟨attempt, ha, by simpa using he⟩)
  simp [storeRow, hNone]

/-- A row that still is what the batch loaded becomes the batch's object. -/
theorem storeRow_loaded {batch : List Attempt} {attempt : Attempt} (h : attempt ∈ batch)
    (nodup : (batch.map fun attempt => attempt.loaded.id).Nodup) :
    storeRow batch attempt.loaded = attempt.current := by
  have hFind : batch.find? (fun other => other.loaded.id = attempt.loaded.id) = some attempt := by
    cases hf : batch.find? (fun other => other.loaded.id = attempt.loaded.id) with
    | none =>
        have hn := List.find?_eq_none.mp hf attempt h
        simp at hn
    | some other =>
        have hSame : other.loaded.id = attempt.loaded.id := by simpa using List.find?_some hf
        rw [List.inj_on_of_nodup_map nodup (List.mem_of_find?_eq_some hf) h hSame]
  simp only [storeRow, hFind]
  exact OutboxMessage.flush_self attempt.current_content

end OutboxTable

/-- Where a relay stands in `run_once`: between the awaits named here it runs
without interruption. -/
inductive RelayPhase where
  | idle
  | selecting (now : DateTime) (candidates : List String) (rows : List OutboxMessage)
  | publishing (now : DateTime) (batch : List Attempt) (row : OutboxMessage)
      (rest : List OutboxMessage)
  | counting (batch : List Attempt)
  | committing (batch : List Attempt)

namespace RelayPhase

/-- The attempts the open transaction has recorded. -/
def batch : RelayPhase → List Attempt
  | .publishing _ batch _ _ => batch
  | .counting batch => batch
  | .committing batch => batch
  | _ => []

/-- The rows the open transaction has loaded. -/
def loaded : RelayPhase → List OutboxMessage
  | .selecting _ _ rows => rows
  | .publishing _ batch row rest => batch.map Attempt.loaded ++ row :: rest
  | .counting batch => batch.map Attempt.loaded
  | .committing batch => batch.map Attempt.loaded
  | .idle => []

/-- The head of the loop over the rows. -/
def atLoopHead (now : DateTime) (batch : List Attempt) : List OutboxMessage → RelayPhase
  | [] => .counting batch
  | row :: rest => .publishing now batch row rest

@[simp] theorem batch_atLoopHead (now : DateTime) (batch : List Attempt)
    (rows : List OutboxMessage) : (atLoopHead now batch rows).batch = batch := by
  cases rows <;> rfl

@[simp] theorem loaded_atLoopHead (now : DateTime) (batch : List Attempt)
    (rows : List OutboxMessage) :
    (atLoopHead now batch rows).loaded = batch.map Attempt.loaded ++ rows := by
  cases rows with
  | nil => exact (List.append_nil _).symm
  | cons row rest => rfl

theorem loaded_of_mem_batch {phase : RelayPhase} {attempt : Attempt} (h : attempt ∈ phase.batch) :
    attempt.loaded ∈ phase.loaded := by
  cases phase with
  | idle => cases h
  | selecting now candidates rows => cases h
  | publishing now batch row rest => exact List.mem_append_left _ (List.mem_map_of_mem h)
  | counting batch => exact List.mem_map_of_mem h
  | committing batch => exact List.mem_map_of_mem h

end RelayPhase

/-- The database, the relays, and what an observer has seen: the publish calls
begun, the calls that returned, and the attempts of committed batches. -/
structure RelayState where
  table : OutboxTable
  locks : RowLocks String RelayId
  relays : RelayId → RelayPhase
  begun : List (RelayId × EventEnvelope)
  returned : List (String × PublishOutcome)
  settled : List (String × PublishOutcome)
  gauge : RelayId → Nat
  results : List (RelayId × Nat)

namespace RelayState

def initial : RelayState where
  table := KeyedTable.empty
  locks := RowLocks.free
  relays := fun _ => .idle
  begun := []
  returned := []
  settled := []
  gauge := fun _ => 0
  results := []

def setPhase (s : RelayState) (r : RelayId) (phase : RelayPhase) : RelayState :=
  { s with relays := fun r' => if r' = r then phase else s.relays r' }

@[simp] theorem setPhase_self (s : RelayState) (r : RelayId) (phase : RelayPhase) :
    (s.setPhase r phase).relays r = phase := if_pos rfl

theorem setPhase_of_ne (s : RelayState) {r r' : RelayId} (phase : RelayPhase) (h : r' ≠ r) :
    (s.setPhase r phase).relays r' = s.relays r' := if_neg h

@[simp] theorem setPhase_table (s : RelayState) (r : RelayId) (phase : RelayPhase) :
    (s.setPhase r phase).table = s.table := rfl

@[simp] theorem setPhase_locks (s : RelayState) (r : RelayId) (phase : RelayPhase) :
    (s.setPhase r phase).locks = s.locks := rfl

/-- Call the publisher with the next row, or leave the loop for the count. -/
def enterLoop (s : RelayState) (r : RelayId) (now : DateTime) (batch : List Attempt)
    (rows : List OutboxMessage) : RelayState :=
  { s.setPhase r (.atLoopHead now batch rows) with
    begun := s.begun ++ (rows.head?.map fun row => (r, row.toEnvelope)).toList }

@[simp] theorem enterLoop_self (s : RelayState) (r : RelayId) (now : DateTime)
    (batch : List Attempt) (rows : List OutboxMessage) :
    (s.enterLoop r now batch rows).relays r = .atLoopHead now batch rows := if_pos rfl

theorem enterLoop_of_ne (s : RelayState) {r r' : RelayId} (now : DateTime) (batch : List Attempt)
    (rows : List OutboxMessage) (h : r' ≠ r) :
    (s.enterLoop r now batch rows).relays r' = s.relays r' := if_neg h

end RelayState

inductive RelayAction where
  | stage (id : String) (createdAt : DateTime) (envelope : EventEnvelope)
  | select (r : RelayId) (now : DateTime) (order : List String)
  | lock (r : RelayId)
  | publishReturns (r : RelayId) (outcome : PublishOutcome) (clock : DateTime)
  | count (r : RelayId)
  | commit (r : RelayId)
  | crash (r : RelayId)

/-- The relay that takes the step. -/
def RelayAction.actor : RelayAction → Option RelayId
  | .stage .. => none
  | .select r .. => some r
  | .lock r => some r
  | .publishReturns r .. => some r
  | .count r => some r
  | .commit r => some r
  | .crash r => some r

/-- One step of one relay, or the commit of a business transaction that staged
a message. A crash stands for any exception that leaves `run_once`, a failed
commit included: the transaction is rolled back and its locks are released.
Without SKIP LOCKED the UPDATEs of several batches may come in any order, also
where the database would make one of them wait or fail. -/
def relayStep (config : RelayConfig) (s : RelayState) : RelayAction → Option RelayState
  | .stage id createdAt envelope =>
      (stageOutbox id createdAt envelope).persist.bind fun row =>
        (s.table.insert row).map fun table => { s with table := table }
  | .select r now order =>
      match s.relays r with
      | .idle =>
          if s.table.DueOrder now order then
            if config.useSkipLocked then some (s.setPhase r (.selecting now order []))
            else some (s.enterLoop r now [] ((order.filterMap s.table.find).take config.batchSize))
          else none
      | _ => none
  | .lock r =>
      match s.relays r with
      | .selecting now [] rows => some (s.enterLoop r now [] rows)
      | .selecting now (k :: candidates) rows =>
          if config.batchSize ≤ rows.length then some (s.enterLoop r now [] rows)
          else match s.locks k, s.table.find k with
            | none, some row =>
                if row.due now then
                  some ({ s with locks := s.locks.acquire k r }.setPhase r
                    (.selecting now candidates (rows ++ [row])))
                else some (s.setPhase r (.selecting now candidates rows))
            | _, _ => some (s.setPhase r (.selecting now candidates rows))
      | _ => none
  | .publishReturns r outcome clock =>
      match s.relays r with
      | .publishing now batch row rest =>
          some ({ s with returned := s.returned ++ [(row.id, outcome)] }.enterLoop r now
            (batch ++ [Attempt.mk row outcome now clock]) rest)
      | _ => none
  | .count r =>
      match s.relays r with
      | .counting batch =>
          let pending := (s.table.applyBatch batch).pendingCount
          some ({ s with gauge := fun r' => if r' = r then pending else s.gauge r' }.setPhase r
            (.committing batch))
      | _ => none
  | .commit r =>
      match s.relays r with
      | .committing batch =>
          some ({ s with
            table := s.table.applyBatch batch
            locks := s.locks.release r
            settled := s.settled ++ batch.map Attempt.settlement
            results := s.results ++ [(r, Attempt.delivered batch)] }.setPhase
              r .idle)
      | _ => none
  | .crash r =>
      match s.relays r with
      | .idle => none
      | _ => some ({ s with locks := s.locks.release r }.setPhase r .idle)

/-- Everything a step can do, with the guards under which it does it. -/
inductive RelayMove (config : RelayConfig) (s : RelayState) : RelayAction → RelayState → Prop where
  | stage {id : String} {createdAt : DateTime} {envelope : EventEnvelope} (row : OutboxMessage)
      (table : OutboxTable) (persisted : (stageOutbox id createdAt envelope).persist = some row)
      (inserted : s.table.insert row = some table) :
      RelayMove config s (.stage id createdAt envelope) { s with table := table }
  | select {r : RelayId} {now : DateTime} {order : List String} (hIdle : s.relays r = .idle)
      (hOrder : s.table.DueOrder now order) (hSkip : config.useSkipLocked = true) :
      RelayMove config s (.select r now order) (s.setPhase r (.selecting now order []))
  | selectPlain {r : RelayId} {now : DateTime} {order : List String} (hIdle : s.relays r = .idle)
      (hOrder : s.table.DueOrder now order) (hSkip : config.useSkipLocked = false) :
      RelayMove config s (.select r now order)
        (s.enterLoop r now [] ((order.filterMap s.table.find).take config.batchSize))
  | lockEnd {r : RelayId} {now : DateTime} {candidates : List String} {rows : List OutboxMessage}
      (hPhase : s.relays r = .selecting now candidates rows) :
      RelayMove config s (.lock r) (s.enterLoop r now [] rows)
  | lockSkip {r : RelayId} {now : DateTime} {k : String} {candidates : List String}
      {rows : List OutboxMessage} (hPhase : s.relays r = .selecting now (k :: candidates) rows) :
      RelayMove config s (.lock r) (s.setPhase r (.selecting now candidates rows))
  | lockRow {r : RelayId} {now : DateTime} {k : String} {candidates : List String}
      {rows : List OutboxMessage} (row : OutboxMessage)
      (hPhase : s.relays r = .selecting now (k :: candidates) rows)
      (hFree : s.locks k = none) (hFind : s.table.find k = some row) (hDue : row.due now = true) :
      RelayMove config s (.lock r) ({ s with locks := s.locks.acquire k r }.setPhase r
        (.selecting now candidates (rows ++ [row])))
  | publishReturns {r : RelayId} {outcome : PublishOutcome} {clock now : DateTime}
      {batch : List Attempt} {row : OutboxMessage} {rest : List OutboxMessage}
      (hPhase : s.relays r = .publishing now batch row rest) :
      RelayMove config s (.publishReturns r outcome clock)
        ({ s with returned := s.returned ++ [(row.id, outcome)] }.enterLoop r now
          (batch ++ [Attempt.mk row outcome now clock]) rest)
  | count {r : RelayId} {batch : List Attempt} (gauge : RelayId → Nat)
      (hPhase : s.relays r = .counting batch) :
      RelayMove config s (.count r) ({ s with gauge := gauge }.setPhase r (.committing batch))
  | commit {r : RelayId} {batch : List Attempt} (results : List (RelayId × Nat))
      (hPhase : s.relays r = .committing batch) :
      RelayMove config s (.commit r) ({ s with
        table := s.table.applyBatch batch
        locks := s.locks.release r
        settled := s.settled ++ batch.map Attempt.settlement
        results := results }.setPhase r .idle)
  | crash {r : RelayId} (hOpen : s.relays r ≠ .idle) :
      RelayMove config s (.crash r) ({ s with locks := s.locks.release r }.setPhase r .idle)

/-- A lock step takes the next candidate that is free and due, or passes it. -/
theorem relayMove_lock {config : RelayConfig} {s s' : RelayState} {r : RelayId}
    (h : relayStep config s (.lock r) = some s') : RelayMove config s (.lock r) s' := by
  simp only [relayStep] at h
  split at h
  · next now rows hPhase =>
      cases h
      exact .lockEnd hPhase
  · next now k candidates rows hPhase =>
      split at h
      · cases h
        exact .lockEnd hPhase
      · split at h
        · next row hFree hFind =>
            split at h
            · next hDue =>
                cases h
                exact .lockRow row hPhase hFree hFind hDue
            · cases h
              exact .lockSkip hPhase
        · cases h
          exact .lockSkip hPhase
  · cases h

theorem relayMove_of_step {config : RelayConfig} {s s' : RelayState} {a : RelayAction}
    (h : relayStep config s a = some s') : RelayMove config s a s' := by
  cases a with
  | stage id createdAt envelope =>
      simp only [relayStep, Option.bind_eq_some_iff, Option.map_eq_some_iff] at h
      obtain ⟨row, hRow, table, hTable, rfl⟩ := h
      exact .stage row table hRow hTable
  | select r now order =>
      simp only [relayStep] at h
      split at h
      · next hIdle =>
          split at h
          · next hOrder =>
              split at h
              · next hSkip =>
                  cases h
                  exact .select hIdle hOrder hSkip
              · next hSkip =>
                  cases h
                  exact .selectPlain hIdle hOrder (by simpa using hSkip)
          · cases h
      · cases h
  | lock r => exact relayMove_lock h
  | publishReturns r outcome clock =>
      simp only [relayStep] at h
      split at h
      · next hPhase =>
          cases h
          exact .publishReturns hPhase
      · cases h
  | count r =>
      simp only [relayStep] at h
      split at h
      · next hPhase =>
          cases h
          exact .count _ hPhase
      · cases h
  | commit r =>
      simp only [relayStep] at h
      split at h
      · next hPhase =>
          cases h
          exact .commit _ hPhase
      · cases h
  | crash r =>
      simp only [relayStep] at h
      split at h
      · cases h
      · next hOpen =>
          cases h
          exact .crash hOpen

end ServicePlatform
