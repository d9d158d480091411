import ServicePlatform.Kernel.RelayProgress
import Mathlib.Data.List.Induction
import Mathlib.Data.List.Perm.Subperm
import Mathlib.Algebra.BigOperators.Group.List.Basic
import Mathlib.Algebra.GroupWithZero.Nat

/-! The books of the relays. The numbers that `run_once` returns add up to the
rows that are SENT, but for the batches that die between their commit and their
return. A relay that works alone takes a full batch off the backlog each time and
reports what is left. -/
namespace ServicePlatform

open Storage Transition

variable {config : RelayConfig} {s t : RelayState} {a : RelayAction}

namespace OutboxTable

/-- The number of rows with this status. -/
def statusCount (table : OutboxTable) (status : OutboxStatus) : Nat :=
  table.rows.countP fun row => row.status = status

theorem pendingCount_eq (table : OutboxTable) : table.pendingCount = table.statusCount .pending := rfl

/-- Every row has one of the three statuses. -/
theorem statusCount_total (table : OutboxTable) :
    table.statusCount .pending + table.statusCount .sent + table.statusCount .failed = table.rows.length := by
  unfold statusCount
  induction table.rows with
  | nil => rfl
  | cons row rows ih =>
      simp only [List.countP_cons, List.length_cons]
      cases row.status <;> simp <;> omega

/-- A commit exchanges the rows of the batch for their objects. -/
theorem countP_applyBatch {table : OutboxTable} {batch : List Attempt} (p : OutboxMessage → Bool)
    (nodup : (batch.map fun attempt => attempt.loaded.id).Nodup)
    (stored : ∀ attempt ∈ batch, attempt.loaded ∈ table) :
    (table.applyBatch batch).rows.countP p + (batch.map Attempt.loaded).countP p =
      table.rows.countP p + (batch.map Attempt.current).countP p := by
  have hNodup : (batch.map Attempt.loaded).Nodup := by
    apply List.Nodup.of_map OutboxMessage.id
    rw [List.map_map]
    exact nodup
  have hSub : batch.map Attempt.loaded ⊆ table.rows := by
    intro row h
    obtain ⟨attempt, hAttempt, rfl⟩ := List.mem_map.mp h
    exact stored attempt hAttempt
  obtain ⟨loaded, hLoaded, hSublist⟩ := List.subperm_of_subset hNodup hSub
  obtain ⟨others, hSplit⟩ := hSublist.exists_perm_append
  have hRows : table.rows.Perm (batch.map Attempt.loaded ++ others) :=
    hSplit.trans (hLoaded.append_right others)
  have hCurrent : (batch.map Attempt.loaded).map (storeRow batch) = batch.map Attempt.current := by
    rw [List.map_map]
    exact List.map_congr_left fun attempt hAttempt => storeRow_loaded hAttempt nodup
  have hOthers : others.map (storeRow batch) = others := by
    have hIds : ((batch.map Attempt.loaded).map OutboxMessage.id ++ others.map OutboxMessage.id).Nodup := by
      rw [← List.map_append]
      exact (hRows.map OutboxMessage.id).nodup_iff.mp table.nodup
    have hKept : ∀ row ∈ others, storeRow batch row = row := by
      intro row hRow
      apply storeRow_of_not_mem
      intro hMem
      rw [List.map_map] at hIds
      exact (List.nodup_append.mp hIds).2.2 row.id hMem row.id (List.mem_map_of_mem hRow) rfl
    rw [List.map_congr_left hKept, List.map_id']
  have hNew : (table.applyBatch batch).rows.Perm (batch.map Attempt.current ++ others) := by
    have h := hRows.map (storeRow batch)
    rw [List.map_append, hCurrent, hOthers] at h
    exact h
  rw [hRows.countP_eq, hNew.countP_eq, List.countP_append, List.countP_append]
  omega

end OutboxTable

section Counts

variable {batch : List Attempt}

theorem current_sent {attempt : Attempt} (h : attempt.loaded.status = .pending) :
    attempt.current.status = .sent ↔ attempt.outcome = .ok := by
  cases hOutcome : attempt.outcome with
  | ok => simp [Attempt.current, hOutcome, OutboxMessage.markSent]
  | error =>
      have hStatus : (attempt.loaded.markFailed attempt.now).status ≠ .sent := by
        rcases OutboxMessage.markFailed_status h with ⟨hs, -⟩ | ⟨hs, -⟩ <;> rw [hs] <;> simp
      simp [Attempt.current, hOutcome, hStatus]

theorem countP_loaded (hPending : ∀ attempt ∈ batch, attempt.loaded.status = .pending)
    (status : OutboxStatus) : (batch.map Attempt.loaded).countP (fun row => row.status = status) =
      if status = .pending then batch.length else 0 := by
  rw [List.countP_map]
  split
  · next hSame =>
      rw [List.countP_eq_length]
      intro attempt hAttempt
      simp [hSame, hPending attempt hAttempt]
  · next hOther =>
      rw [List.countP_eq_zero]
      intro attempt hAttempt
      simpa [hPending attempt hAttempt] using Ne.symm hOther

/-- What the commit of a batch does to the number of SENT rows. -/
theorem sent_applyBatch {table : OutboxTable} (nodup : (batch.map fun attempt => attempt.loaded.id).Nodup)
    (stored : ∀ attempt ∈ batch, attempt.loaded ∈ table)
    (hPending : ∀ attempt ∈ batch, attempt.loaded.status = .pending) :
    (table.applyBatch batch).statusCount .sent = table.statusCount .sent + Attempt.delivered batch := by
  have hCount := OutboxTable.countP_applyBatch (fun row => row.status = .sent) nodup stored
  have hSent : (batch.map Attempt.current).countP (fun row => row.status = .sent) = Attempt.delivered batch := by
    rw [List.countP_map]
    refine List.countP_congr fun attempt hAttempt => ?_
    simpa using current_sent (hPending attempt hAttempt)
  rw [countP_loaded hPending, if_neg (by simp), hSent] at hCount
  exact hCount

/-- A batch whose publishes all succeed takes its rows off the backlog. -/
theorem pending_applyBatch {table : OutboxTable} (nodup : (batch.map fun attempt => attempt.loaded.id).Nodup)
    (stored : ∀ attempt ∈ batch, attempt.loaded ∈ table)
    (hPending : ∀ attempt ∈ batch, attempt.loaded.status = .pending)
    (hOk : ∀ attempt ∈ batch, attempt.outcome = .ok) :
    (table.applyBatch batch).pendingCount + batch.length = table.pendingCount := by
  have hCount := OutboxTable.countP_applyBatch (fun row => row.status = .pending) nodup stored
  have hNone : (batch.map Attempt.current).countP (fun row => row.status = .pending) = 0 := by
    rw [List.countP_map, List.countP_eq_zero]
    intro attempt hAttempt
    simp [(current_sent (hPending attempt hAttempt)).mpr (hOk attempt hAttempt)]
  rw [countP_loaded hPending, if_pos rfl, hNone] at hCount
  exact hCount

end Counts

/-- The rows of a batch, as its attempts have them. -/
theorem Owns.attempts {table : OutboxTable} {locks : RowLocks String RelayId} {r : RelayId}
    {batch : List Attempt} (own : Owns table locks r (batch.map Attempt.loaded)) :
    (batch.map fun attempt => attempt.loaded.id).Nodup ∧ (∀ attempt ∈ batch, attempt.loaded ∈ table) ∧
      ∀ attempt ∈ batch, attempt.loaded.status = .pending := by
  refine ⟨?_, ?_, ?_⟩
  · have h := own.nodup
    rw [List.map_map] at h
    exact h
  · intro attempt hAttempt
    exact (own.stored attempt.loaded (List.mem_map_of_mem hAttempt)).1
  · intro attempt hAttempt
    exact (own.stored attempt.loaded (List.mem_map_of_mem hAttempt)).2

/-- The end of a batch, as `run_once` leaves it. -/
theorem commit_step {r : RelayId} (step : relayStep config s (.commit r) = some t) :
    ∃ batch, s.relays r = .committing batch ∧ t = { s with
      table := s.table.applyBatch batch
      locks := s.locks.release r
      settled := s.settled ++ batch.map Attempt.settlement
      results := s.results ++ [(r, Attempt.delivered batch)] }.setPhase r .idle := by
  simp only [relayStep] at step
  split at step
  · next batch hPhase =>
      cases step
      exact ⟨batch, hPhase, rfl⟩
  · cases step

theorem count_step {r : RelayId} (step : relayStep config s (.count r) = some t) :
    ∃ batch, s.relays r = .counting batch ∧ t = { s with
      gauge := fun r' => if r' = r then (s.table.applyBatch batch).pendingCount else s.gauge r' }.setPhase r
        (.committing batch) := by
  simp only [relayStep] at step
  split at step
  · next batch hPhase =>
      cases step
      exact ⟨batch, hPhase, rfl⟩
  · cases step

/-- The numbers that the relays have returned. -/
def RelayState.deliveredTotal (s : RelayState) : Nat := (s.results.map Prod.snd).sum

/-- Only a commit writes the books. -/
theorem books_kept (step : relayStep config s a = some t) (hCommit : ∀ r, a ≠ .commit r) :
    t.results = s.results ∧ t.table.statusCount .sent = s.table.statusCount .sent := by
  by_cases hCount : ∃ r, a = .count r
  · obtain ⟨r, rfl⟩ := hCount
    obtain ⟨batch, -, rfl⟩ := count_step step
    exact ⟨rfl, rfl⟩
  · cases relayMove_of_step step with
    | stage row table persisted inserted =>
        refine ⟨rfl, ?_⟩
        simp only [OutboxMessage.persist, Option.bind_eq_some_iff, Option.map_eq_some_iff] at persisted
        obtain ⟨payload, -, headers, -, rfl⟩ := persisted
        unfold OutboxTable.statusCount
        dsimp only
        rw [(KeyedTable.insert_eq_some inserted).2, List.countP_append]
        rfl
    | count gauge hPhase => exact absurd ⟨_, rfl⟩ hCount
    | commit results hPhase => exact absurd rfl (hCommit _)
    | _ => exact ⟨rfl, rfl⟩

/-- The relays, and the numbers of the batches whose commit has taken effect, but
whose relay was killed before `run_once` could return. -/
structure AccountState where
  relay : RelayState
  unreturned : List (RelayId × Nat)

inductive AccountAction where
  | step (a : RelayAction)
  | dieCommitted (r : RelayId)

namespace AccountAction

def isDeath : AccountAction → Bool
  | .step _ => false
  | .dieCommitted _ => true

end AccountAction

def accountStep (config : RelayConfig) (s : AccountState) : AccountAction → Option AccountState
  | .step a => (relayStep config s.relay a).map fun relay => { s with relay := relay }
  | .dieCommitted r => (relayStep config s.relay (.commit r)).map fun relay =>
      ⟨{ relay with results := s.relay.results }, s.unreturned ++ relay.results.drop s.relay.results.length⟩

namespace AccountState

def initial : AccountState := ⟨.initial, []⟩

def unreturnedTotal (s : AccountState) : Nat := (s.unreturned.map Prod.snd).sum

/-- What has been returned and what has got lost make up the SENT rows. -/
structure Booked (s : AccountState) : Prop where
  locks : LockInv s.relay
  total : s.relay.deliveredTotal + s.unreturnedTotal = s.relay.table.statusCount .sent

theorem booked_step {batchSize : Nat} {s t : AccountState} {a : AccountAction} (inv : s.Booked)
    (h : accountStep ⟨true, batchSize⟩ s a = some t) :
    t.Booked ∧ t.unreturned.length = s.unreturned.length + if a.isDeath then 1 else 0 := by
  have committed : ∀ {r : RelayId} {relay : RelayState}, relayStep ⟨true, batchSize⟩ s.relay (.commit r) = some relay →
      ∃ count, relay.results = s.relay.results ++ [(r, count)] ∧
        relay.table.statusCount .sent = s.relay.table.statusCount .sent + count := by
    intro r relay step
    obtain ⟨batch, hPhase, rfl⟩ := commit_step step
    have own := inv.locks r
    rw [hPhase] at own
    obtain ⟨hNodup, hStored, hPending⟩ := own.attempts
    exact ⟨Attempt.delivered batch, rfl, sent_applyBatch hNodup hStored hPending⟩
  have hTotal := inv.total
  cases a with
  | step b =>
      obtain ⟨relay, step, rfl⟩ := Option.map_eq_some_iff.mp h
      refine ⟨⟨inv.locks.move rfl (relayMove_of_step step), ?_⟩, rfl⟩
      by_cases hCommit : ∃ r, b = .commit r
      · obtain ⟨r, rfl⟩ := hCommit
        obtain ⟨count, hResults, hSent⟩ := committed step
        simp only [RelayState.deliveredTotal, unreturnedTotal] at hTotal ⊢
        rw [hResults, hSent, ← hTotal]
        simp only [List.map_append, List.map_cons, List.map_nil, List.sum_append, List.sum_singleton]
        omega
      · obtain ⟨hResults, hSent⟩ := books_kept step fun r h => hCommit ⟨r, h⟩
        simp only [RelayState.deliveredTotal, unreturnedTotal] at hTotal ⊢
        rw [hResults, hSent]
        exact hTotal
  | dieCommitted r =>
      obtain ⟨relay, step, rfl⟩ := Option.map_eq_some_iff.mp h
      have hLocks := inv.locks.move rfl (relayMove_of_step step)
      obtain ⟨count, hResults, hSent⟩ := committed step
      have hLast : relay.results.drop s.relay.results.length = [(r, count)] := by
        rw [hResults, List.drop_left]
      refine ⟨⟨fun r => hLocks r, ?_⟩, ?_⟩
      · simp only [RelayState.deliveredTotal, unreturnedTotal, hLast] at hTotal ⊢
        rw [hSent, ← hTotal]
        simp only [List.map_append, List.map_cons, List.map_nil, List.sum_append, List.sum_singleton]
        omega
      · rw [hLast, List.length_append]
        rfl

theorem booked_run {batchSize : Nat} {s : AccountState} {as : List AccountAction}
    (run : exec (accountStep ⟨true, batchSize⟩) initial as = some s) :
    s.Booked ∧ s.unreturned.length = as.countP AccountAction.isDeath := by
  induction as using List.reverseRecOn generalizing s with
  | nil =>
      cases run
      exact ⟨⟨lockInv_initial, rfl⟩, rfl⟩
  | append_singleton as a ih =>
      obtain ⟨m, hEarlier, hStep⟩ := exec_concat.mp run
      obtain ⟨inv, hDeaths⟩ := ih hEarlier
      obtain ⟨hBooked, hMore⟩ := booked_step inv hStep
      exact ⟨hBooked, by rw [hMore, hDeaths, List.countP_append, List.countP_singleton]⟩

end AccountState

/-- With SKIP LOCKED, the numbers that `run_once` returned and those of the batches
that died between commit and return, one for each such death, add up to the rows
that are SENT. A batch that dies before has changed nothing. -/
theorem delivered_total {batchSize : Nat} {s : AccountState} {as : List AccountAction}
    (run : exec (accountStep ⟨true, batchSize⟩) AccountState.initial as = some s) :
    s.relay.deliveredTotal + s.unreturnedTotal = s.relay.table.statusCount .sent ∧
      s.unreturned.length = as.countP AccountAction.isDeath ∧
      s.relay.table.statusCount .sent + s.relay.table.pendingCount + s.relay.table.statusCount .failed =
        s.relay.table.rows.length := by
  obtain ⟨hBooked, hDeaths⟩ := AccountState.booked_run run
  have hAll := s.relay.table.statusCount_total
  rw [OutboxTable.pendingCount_eq]
  exact ⟨hBooked.total, hDeaths, by omega⟩

/-- Three messages, two of which fit in a batch. -/
def threeMessages : List RelayAction :=
  [.stage "m-1" 0 ⟨"e-1", "user.created.v1", "svc", "user", "u-1", 0, [], none⟩,
    .stage "m-2" 1 ⟨"e-2", "user.created.v1", "svc", "user", "u-2", 1, [], none⟩,
    .stage "m-3" 2 ⟨"e-3", "user.created.v1", "svc", "user", "u-3", 2, [], none⟩]

def afterSelect : List RelayAction :=
  [.lock 0, .lock 0, .lock 0, .publishReturns 0 .ok 6, .publishReturns 0 .ok 7, .count 0]

/-- The same batch dies before its commit, and another relay repeats it. -/
def repeatedBatch : List RelayAction :=
  threeMessages ++ .select 0 5 ["m-1", "m-2", "m-3"] :: afterSelect ++
    [.crash 0, .select 1 9 ["m-1", "m-2", "m-3"], .lock 1, .lock 1, .lock 1, .publishReturns 1 .ok 9,
      .publishReturns 1 .ok 10, .count 1]

def lastMessage : List RelayAction :=
  [.select 2 11 ["m-3"], .lock 2, .lock 2, .publishReturns 2 .ok 12, .count 2, .commit 2]

/-- The second relay dies after its commit, and a third one delivers what is left. -/
def diedAndRepeated : List AccountAction :=
  repeatedBatch.map .step ++ .dieCommitted 1 :: lastMessage.map .step

theorem delivered_total_diedAndRepeated :
    ∃ s, exec (accountStep ⟨true, 2⟩) AccountState.initial diedAndRepeated = some s ∧
      s.relay.results = [(2, 1)] ∧ s.unreturned = [(1, 2)] ∧
      s.relay.deliveredTotal + s.unreturnedTotal = s.relay.table.statusCount .sent := by
  have hRun : (exec (accountStep ⟨true, 2⟩) AccountState.initial diedAndRepeated).map
      (fun s => (s.relay.results, s.unreturned)) = some ([(2, 1)], [(1, 2)]) := rfl
  obtain ⟨s, run, hSeen⟩ := Option.map_eq_some_iff.mp hRun
  obtain ⟨hResults, hUnreturned⟩ := Prod.mk.injEq .. ▸ hSeen
  exact ⟨s, run, hResults, hUnreturned, (delivered_total run).1⟩

section Drain

/-- A step of a relay that works alone, nobody kills, and whose publishes
succeed. When it queries, no pending message is waiting for its backoff. -/
structure DrainStep (r : RelayId) (s : RelayState) (a : RelayAction) : Prop where
  actor : a.actor = some r
  alive : a ≠ .crash r
  succeeds : ∀ outcome clock, a = .publishReturns r outcome clock → outcome = .ok
  due : ∀ now order, a = .select r now order → ∀ row ∈ s.table, row.status = .pending → row.due now = true

/-- The batch has as much of the backlog as fits, and all its publishes succeeded. -/
structure FullBatch (batchSize : Nat) (table : OutboxTable) (phase : RelayPhase) : Prop where
  size : phase.loaded.length = min batchSize table.pendingCount
  ok : ∀ attempt ∈ phase.batch, attempt.outcome = .ok

/-- What is known of a batch of the lonely relay, phase by phase. -/
def DrainPhase (batchSize : Nat) (s : RelayState) (r : RelayId) : Prop :=
  match s.relays r with
  | .idle => True
  | .selecting now candidates rows => rows.length ≤ batchSize ∧
      rows.length + candidates.length = s.table.pendingCount ∧ candidates.Nodup ∧
      ∀ k ∈ candidates, k ∉ rows.map OutboxMessage.id ∧ ∃ row ∈ s.table, row.id = k ∧ row.due now = true
  | .committing batch => FullBatch batchSize s.table (.committing batch) ∧
      s.gauge r = s.table.pendingCount - batchSize
  | phase => FullBatch batchSize s.table phase

structure Draining (batchSize : Nat) (r : RelayId) (s : RelayState) : Prop where
  lock : LockInv s
  locks : LocksLoaded s
  alone : ∀ other, other ≠ r → s.relays other = .idle
  phase : DrainPhase batchSize s r

namespace Draining

variable {batchSize : Nat} {r : RelayId}

/-- Nobody else has locks. -/
theorem free (inv : Draining batchSize r s) {k : String}
    (hNew : k ∉ (s.relays r).loaded.map OutboxMessage.id) : s.locks k = none := by
  cases hLock : s.locks k with
  | none => rfl
  | some owner =>
      have hLoaded := inv.locks k owner hLock
      by_cases hr : owner = r
      · subst hr
        exact absurd hLoaded hNew
      · rw [inv.alone owner hr] at hLoaded
        cases hLoaded

theorem fullBatch_atLoopHead {table : OutboxTable} (now : DateTime) {batch : List Attempt}
    {rows : List OutboxMessage} (hSize : batch.length + rows.length = min batchSize table.pendingCount)
    (hOk : ∀ attempt ∈ batch, attempt.outcome = .ok) :
    FullBatch batchSize table (.atLoopHead now batch rows) where
  size := by
    rw [RelayPhase.loaded_atLoopHead, List.length_append, List.length_map]
    exact hSize
  ok := by
    rw [RelayPhase.batch_atLoopHead]
    exact hOk

/-- The relay enters its loop with a full batch. -/
theorem phase_enterLoop {now : DateTime} {batch : List Attempt} {rows : List OutboxMessage}
    (hSize : batch.length + rows.length = min batchSize s.table.pendingCount)
    (hOk : ∀ attempt ∈ batch, attempt.outcome = .ok) :
    DrainPhase batchSize (s.enterLoop r now batch rows) r := by
  have hFull := fullBatch_atLoopHead now hSize hOk
  unfold DrainPhase
  rw [RelayState.enterLoop_self]
  cases rows <;> exact hFull

/-- The query finds the whole backlog. -/
theorem phase_select {now : DateTime} {order : List String} (hOrder : s.table.DueOrder now order)
    (hDue : ∀ row ∈ s.table, row.status = .pending → row.due now = true) :
    DrainPhase batchSize (s.setPhase r (.selecting now order [])) r := by
  unfold DrainPhase
  rw [RelayState.setPhase_self]
  refine ⟨Nat.zero_le _, ?_, hOrder.nodup, ?_⟩
  · rw [List.length_nil, Nat.zero_add, hOrder.1.length_eq, OutboxTable.dueIds, List.length_map,
      ← List.countP_eq_length_filter]
    refine List.countP_congr fun row hRow => ?_
    simp only [decide_eq_true_eq]
    exact ⟨OutboxMessage.pending_of_due, hDue row hRow⟩
  · intro k hk
    exact ⟨List.not_mem_nil, mem_dueIds.mp (hOrder.1.mem_iff.mp hk)⟩

/-- A step of the query takes the next candidate, or has enough. -/
theorem phase_lock (inv : Draining batchSize r s) (hSize : config.batchSize = batchSize)
    (move : LockMove config s r t) : DrainPhase batchSize t r := by
  have hPhase := inv.phase
  unfold DrainPhase at hPhase
  cases move with
  | ends hHere hDone =>
      rw [hHere] at hPhase
      obtain ⟨hRoom, hCount, -, -⟩ := hPhase
      refine phase_enterLoop ?_ (fun attempt h => absurd h List.not_mem_nil)
      rw [List.length_nil, Nat.zero_add]
      rcases hDone with rfl | hFull
      · rw [List.length_nil, Nat.add_zero] at hCount
        omega
      · omega
  | @passes now k candidates rows hHere hRoom hBarred =>
      exfalso
      rw [hHere] at hPhase
      obtain ⟨hNew, row, hRow, hId, hDue⟩ := hPhase.2.2.2 k (List.mem_cons_self ..)
      rcases hBarred with hLocked | hNotDue
      · exact hLocked (inv.free (by rw [hHere]; exact hNew))
      · rw [hNotDue row (KeyedTable.find_eq_some.mpr ⟨hRow, hId⟩)] at hDue
        cases hDue
  | @takes now k candidates rows row hHere hRoom hFree hFind hDue =>
      rw [hHere] at hPhase
      obtain ⟨-, hCount, hNodup, hCandidates⟩ := hPhase
      obtain ⟨hFirst, hRest⟩ := List.nodup_cons.mp hNodup
      obtain ⟨-, rfl⟩ := KeyedTable.find_eq_some.mp hFind
      unfold DrainPhase
      rw [RelayState.setPhase_self]
      refine ⟨?_, ?_, hRest, ?_⟩
      · rw [List.length_append, ← hSize]
        exact hRoom
      · rw [List.length_cons] at hCount
        rw [List.length_append, List.length_singleton]
        change rows.length + 1 + candidates.length = s.table.pendingCount
        omega
      · intro k hk
        obtain ⟨hNew, hRow⟩ := hCandidates k (List.mem_cons_of_mem _ hk)
        refine ⟨?_, hRow⟩
        rw [List.map_append, List.mem_append]
        rintro (hOld | hNow)
        · exact hNew hOld
        · obtain rfl := List.mem_singleton.mp hNow
          exact hFirst hk

/-- A step that ends no batch leaves the backlog and the results as they are. -/
theorem step_within (inv : Draining batchSize r s) (hStep : DrainStep r s a) (hCommit : ∀ r', a ≠ .commit r')
    (step : relayStep ⟨true, batchSize⟩ s a = some t) :
    Draining batchSize r t ∧ t.table = s.table ∧ t.results = s.results := by
  have move := relayMove_of_step step
  have hActor := hStep.actor
  have others : ∀ other, other ≠ r → t.relays other = .idle := by
    intro other hr
    rw [move.others (by rw [hActor]; exact fun h => hr (Option.some.inj h).symm)]
    exact inv.alone other hr
  refine ⟨⟨inv.lock.move rfl move, inv.locks.move move, others, ?_⟩, ?_, ?_⟩
  · by_cases hLock : a = .lock r
    · subst hLock
      exact inv.phase_lock rfl (lockMove_of_step step)
    by_cases hCount : a = .count r
    · subst hCount
      obtain ⟨batch, hHere, rfl⟩ := count_step step
      have own := inv.lock r
      have hPhase := inv.phase
      unfold DrainPhase at hPhase ⊢
      rw [hHere] at own hPhase
      obtain ⟨hNodup, hStored, hPending⟩ := own.attempts
      have hLeft := pending_applyBatch hNodup hStored hPending hPhase.ok
      have hSize := hPhase.size
      rw [RelayPhase.loaded, List.length_map] at hSize
      rw [RelayState.setPhase_self]
      refine ⟨⟨hPhase.size, hPhase.ok⟩, ?_⟩
      change (if r = r then (s.table.applyBatch batch).pendingCount else s.gauge r) =
        s.table.pendingCount - batchSize
      rw [if_pos rfl]
      omega
    cases move with
    | stage row table persisted inserted => cases hActor
    | select hIdle hOrder hSkip =>
        cases hActor
        exact phase_select hOrder (hStep.due _ _ rfl)
    | selectPlain hIdle hOrder hPlain => cases hPlain
    | lockEnd hHere | lockSkip hHere | lockRow _ hHere _ _ _ =>
        cases hActor
        exact absurd rfl hLock
    | @publishReturns _ outcome clock now batch row rest hHere =>
        cases hActor
        have hPhase := inv.phase
        unfold DrainPhase at hPhase
        rw [hHere] at hPhase
        obtain ⟨hSize, hOk⟩ := hPhase
        refine phase_enterLoop ?_ ?_
        · rw [RelayPhase.loaded, List.length_append, List.length_map, List.length_cons] at hSize
          rw [List.length_append, List.length_singleton]
          change batch.length + 1 + rest.length = min batchSize s.table.pendingCount
          omega
        · intro attempt hAttempt
          rcases List.mem_append.mp hAttempt with hOld | hNew
          · exact hOk attempt hOld
          · obtain rfl := List.mem_singleton.mp hNew
            exact hStep.succeeds outcome clock rfl
    | count gauge hHere =>
        cases hActor
        exact absurd rfl hCount
    | commit results hHere => exact absurd rfl (hCommit _)
    | crash hOpen =>
        cases hActor
        exact absurd rfl hStep.alive
  · cases move with
    | stage row table persisted inserted => cases hActor
    | commit results hHere => exact absurd rfl (hCommit _)
    | _ => rfl
  · exact (books_kept step hCommit).1

/-- The end of a batch: a full batch leaves the backlog, and the gauge says
what is left. -/
theorem step_commit (inv : Draining batchSize r s) (step : relayStep ⟨true, batchSize⟩ s (.commit r) = some t) :
    Draining batchSize r t ∧ t.table.pendingCount = s.table.pendingCount - batchSize ∧
      t.results = s.results ++ [(r, min batchSize s.table.pendingCount)] ∧
      t.gauge r = t.table.pendingCount := by
  have move := relayMove_of_step step
  have lockNext := inv.lock.move rfl move
  have locksNext := inv.locks.move move
  obtain ⟨batch, hHere, rfl⟩ := commit_step step
  have own := inv.lock r
  have hPhase := inv.phase
  unfold DrainPhase at hPhase
  rw [hHere] at own hPhase
  obtain ⟨⟨hSize, hOk⟩, hGauge⟩ := hPhase
  obtain ⟨hNodup, hStored, hPending⟩ := own.attempts
  have hLeft := pending_applyBatch hNodup hStored hPending hOk
  rw [RelayPhase.loaded, List.length_map] at hSize
  have hDelivered : Attempt.delivered batch = batch.length := by
    rw [Attempt.delivered, List.countP_eq_length]
    intro attempt hAttempt
    simpa using hOk attempt hAttempt
  refine ⟨⟨lockNext, locksNext, ?_, ?_⟩, ?_, ?_, ?_⟩
  · intro other hr
    exact (RelayState.setPhase_of_ne _ _ hr).trans (inv.alone other hr)
  · unfold DrainPhase
    rw [RelayState.setPhase_self]
    trivial
  · change (s.table.applyBatch batch).pendingCount = s.table.pendingCount - batchSize
    omega
  · change s.results ++ [(r, Attempt.delivered batch)] = s.results ++ [(r, min batchSize s.table.pendingCount)]
    rw [hDelivered, hSize]
  · change s.gauge r = (s.table.applyBatch batch).pendingCount
    omega

end Draining

/-- The ends of batches in a schedule. -/
def RelayAction.isCommit : RelayAction → Bool
  | .commit _ => true
  | _ => false

/-- What the first `batches` batches of a backlog return. -/
def batchResults (r : RelayId) (batchSize pending batches : Nat) : List (RelayId × Nat) :=
  (List.range batches).map fun i => (r, min batchSize (pending - i * batchSize))

theorem batchResults_succ (r : RelayId) (batchSize pending batches : Nat) :
    batchResults r batchSize pending (batches + 1) =
      (r, min batchSize pending) :: batchResults r batchSize (pending - batchSize) batches := by
  unfold batchResults
  rw [List.range_succ_eq_map, List.map_cons, List.map_map, Nat.zero_mul, Nat.sub_zero]
  refine congrArg _ (List.map_congr_left fun i _ => ?_)
  rw [Function.comp, Nat.succ_mul, Nat.add_comm, Nat.sub_sub]

theorem drain_run {batchSize : Nat} {r : RelayId} {as : List RelayAction} (inv : Draining batchSize r s)
    (allowed : Along (relayStep ⟨true, batchSize⟩) (DrainStep r) s as)
    (run : exec (relayStep ⟨true, batchSize⟩) s as = some t) : Draining batchSize r t ∧
      t.table.pendingCount = s.table.pendingCount - as.countP RelayAction.isCommit * batchSize ∧
      t.results = s.results ++
        batchResults r batchSize s.table.pendingCount (as.countP RelayAction.isCommit) := by
  induction as generalizing s with
  | nil =>
      cases run
      refine ⟨inv, ?_, ?_⟩
      · simp
      · simp [batchResults]
  | cons a as ih =>
      obtain ⟨m, hStep, hRun⟩ := exec_cons.mp run
      obtain ⟨hHere, hLater⟩ := allowed
      by_cases hCommit : ∃ r', a = .commit r'
      · obtain ⟨r', rfl⟩ := hCommit
        cases hHere.actor
        obtain ⟨invNext, hPending, hResults, -⟩ := inv.step_commit hStep
        obtain ⟨hEnd, hPendingEnd, hResultsEnd⟩ := ih invNext (hLater m hStep) hRun
        rw [List.countP_cons_of_pos (by rfl)]
        refine ⟨hEnd, ?_, ?_⟩
        · rw [hPendingEnd, hPending, Nat.succ_mul, Nat.sub_sub, Nat.add_comm]
        · rw [hResultsEnd, hResults, hPending, batchResults_succ, List.append_assoc]
          rfl
      · obtain ⟨invNext, hTable, hResults⟩ := inv.step_within hHere (fun r' h => hCommit ⟨r', h⟩) hStep
        have hNot : ¬ a.isCommit = true := by
          cases a with
          | commit r' => exact absurd ⟨r', rfl⟩ hCommit
          | _ => simp [RelayAction.isCommit]
        rw [List.countP_cons_of_neg hNot, ← hTable, ← hResults]
        exact ih invNext (hLater m hStep) hRun

/-- With SKIP LOCKED a backlog drains at full speed. From any state in which no batch
is open, a relay that works alone returns a full batch each time, the last one what is
left; after each batch the gauge is the number of messages that still wait. -/
theorem backlog_drains {batchSize : Nat} {r : RelayId} {before as : List RelayAction} {middle : RelayState}
    (reach : exec (relayStep ⟨true, batchSize⟩) RelayState.initial before = some s)
    (quiet : ∀ other, s.relays other = .idle)
    (allowed : Along (relayStep ⟨true, batchSize⟩) (DrainStep r) s as)
    (run : exec (relayStep ⟨true, batchSize⟩) s as = some middle)
    (commits : relayStep ⟨true, batchSize⟩ middle (.commit r) = some t) :
    t.table.pendingCount = s.table.pendingCount - (as.countP RelayAction.isCommit + 1) * batchSize ∧
      t.results = s.results ++
        batchResults r batchSize s.table.pendingCount (as.countP RelayAction.isCommit + 1) ∧
      t.gauge r = t.table.pendingCount := by
  have inv : Draining batchSize r s := by
    refine ⟨lockInv_run rfl lockInv_initial reach, ?_, fun other _ => quiet other, ?_⟩
    · exact invariant (fun _ _ _ inv h => LocksLoaded.move inv (relayMove_of_step h)) locksLoaded_initial reach
    · unfold DrainPhase
      rw [quiet r]
      trivial
  obtain ⟨inv, hPending, hResults⟩ := drain_run inv allowed run
  obtain ⟨-, hLast, hReturned, hGauge⟩ := inv.step_commit commits
  refine ⟨?_, ?_, hGauge⟩
  · rw [hLast, hPending, Nat.succ_mul, Nat.sub_sub]
  · rw [hReturned, hResults, hPending, List.append_assoc]
    unfold batchResults
    rw [List.range_succ, List.map_append]
    rfl

theorem backlog_drains_threeMessages :
    ∃ s middle t, exec (relayStep ⟨true, 2⟩) RelayState.initial threeMessages = some s ∧
      exec (relayStep ⟨true, 2⟩) s (.select 0 5 ["m-1", "m-2", "m-3"] :: afterSelect) = some middle ∧
      relayStep ⟨true, 2⟩ middle (.commit 0) = some t ∧
      t.table.pendingCount = s.table.pendingCount - 1 * 2 ∧ t.results = s.results ++
        batchResults 0 2 s.table.pendingCount 1 ∧ t.gauge 0 = t.table.pendingCount := by
  have hBefore : (exec (relayStep ⟨true, 2⟩) RelayState.initial threeMessages).map
      (fun s => decide (∀ row ∈ s.table.rows, row.due 5 = true)) = some true := rfl
  obtain ⟨s, reach, hDue⟩ := Option.map_eq_some_iff.mp hBefore
  have hRun : ((exec (relayStep ⟨true, 2⟩) RelayState.initial threeMessages).bind fun s =>
      exec (relayStep ⟨true, 2⟩) s ((.select 0 5 ["m-1", "m-2", "m-3"] :: afterSelect) ++ [.commit 0])).isSome =
        true := rfl
  rw [reach, Option.bind_some] at hRun
  obtain ⟨t, run⟩ := Option.isSome_iff_exists.mp hRun
  obtain ⟨middle, first, commits⟩ := exec_concat.mp run
  have quiet : ∀ other, s.relays other = .idle := by
    intro other
    have hIdle : (exec (relayStep ⟨true, 2⟩) RelayState.initial threeMessages).map
        (fun s => s.relays other) = some .idle := rfl
    rw [reach] at hIdle
    exact Option.some.inj hIdle
  have selects : DrainStep 0 s (.select 0 5 ["m-1", "m-2", "m-3"]) := by
    refine ⟨rfl, by simp, by simp, ?_⟩
    intro now order h row hRow _
    cases h
    exact of_decide_eq_true hDue row hRow
  have goesOn : ∀ b ∈ afterSelect, ∀ u, DrainStep 0 u b := by
    intro b hb u
    simp only [afterSelect, List.mem_cons, List.not_mem_nil, or_false] at hb
    rcases hb with rfl | rfl | rfl | rfl | rfl | rfl <;>
      exact ⟨rfl, by simp, by simp, fun now order h => by cases h⟩
  have allowed : Along (relayStep ⟨true, 2⟩) (DrainStep 0) s
      (.select 0 5 ["m-1", "m-2", "m-3"] :: afterSelect) :=
    And.intro selects fun u _ => along_of_forall goesOn u
  exact ⟨s, middle, t, reach, first, commits, backlog_drains reach quiet allowed first commits⟩

end Drain

end ServicePlatform
