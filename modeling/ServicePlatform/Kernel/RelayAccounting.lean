import ServicePlatform.Kernel.RelaySafety

/-! The outbox table is an account of the publishes whose batch was committed.
A batch that dies takes its row updates with it, so the columns of a row always
add up to the committed history, while the publishes made may be ahead of it. -/
namespace ServicePlatform

open Storage Transition

variable {config : RelayConfig} {s s' : RelayState} {a : RelayAction}

section Settlement

variable {batch : List Attempt} {attempt : Attempt}

/-- A committed batch settles one attempt of each of its rows. -/
theorem count_settlement (h : attempt ∈ batch)
    (nodup : (batch.map fun attempt => attempt.loaded.id).Nodup) (outcome : PublishOutcome) :
    (batch.map Attempt.settlement).count (attempt.loaded.id, outcome) =
      if attempt.outcome = outcome then 1 else 0 := by
  have hNodup : (batch.map Attempt.settlement).Nodup := by
    apply List.Nodup.of_map Prod.fst
    rw [List.map_map]
    exact nodup
  split
  · next hSame =>
      subst hSame
      exact List.count_eq_one_of_mem hNodup (List.mem_map_of_mem h)
  · next hOther =>
      rw [List.count_eq_zero]
      intro hMem
      obtain ⟨other, ho, hEq⟩ := List.mem_map.mp hMem
      obtain ⟨hId, hOutcome⟩ := Prod.mk.injEq .. ▸ hEq
      rw [List.inj_on_of_nodup_map nodup ho h hId] at hOutcome
      exact hOther hOutcome

theorem count_settlement_of_not_mem {entry : String × PublishOutcome}
    (h : entry.1 ∉ batch.map fun attempt => attempt.loaded.id) :
    (batch.map Attempt.settlement).count entry = 0 := by
  rw [List.count_eq_zero]
  intro hMem
  obtain ⟨attempt, ha, rfl⟩ := List.mem_map.mp hMem
  exact h (List.mem_map_of_mem ha)

end Settlement

/-- The columns of a row add up to the committed attempts of its message. -/
structure Accounted (settled : List (String × PublishOutcome)) (row : OutboxMessage) : Prop where
  attempts : row.attempts = settled.count (row.id, .ok) + settled.count (row.id, .error)
  succeeded : settled.count (row.id, .ok) = if row.status = .sent then 1 else 0
  bound : row.attempts ≤ maxAttempts
  exhausted : row.attempts = maxAttempts → row.status ≠ .pending
  failed : row.status = .failed → row.attempts = maxAttempts
  sentAt : row.status = .sent → row.sentAt.isSome

namespace Accounted

variable {settled : List (String × PublishOutcome)} {row : OutboxMessage}

/-- A freshly staged row, whose id no batch has settled. -/
theorem staged {id : String} {createdAt : DateTime} {envelope : EventEnvelope}
    (persisted : (stageOutbox id createdAt envelope).persist = some row)
    (fresh : ∀ entry ∈ settled, entry.1 ≠ row.id) : Accounted settled row := by
  have hZero (outcome : PublishOutcome) : settled.count (row.id, outcome) = 0 :=
    List.count_eq_zero.mpr fun h => fresh _ h rfl
  simp only [OutboxMessage.persist, Option.bind_eq_some_iff, Option.map_eq_some_iff] at persisted
  obtain ⟨payload, -, headers, -, rfl⟩ := persisted
  constructor
  · rw [hZero, hZero]
    rfl
  · rw [hZero]
    rfl
  · exact Nat.zero_le _
  · intro h
    cases h
  · intro h
    cases h
  · intro h
    cases h

/-- Only entries of the row's own message matter to it. -/
theorem append_of_count_zero (h : Accounted settled row) {new : List (String × PublishOutcome)}
    (hNew : ∀ outcome, new.count (row.id, outcome) = 0) : Accounted (settled ++ new) row where
  attempts := by
    rw [List.count_append, List.count_append, hNew, hNew]
    exact h.attempts
  succeeded := by
    rw [List.count_append, hNew]
    exact h.succeeded
  bound := h.bound
  exhausted := h.exhausted
  failed := h.failed
  sentAt := h.sentAt

/-- The object of a committed batch accounts for its own attempt. -/
theorem settle {attempt : Attempt} (h : Accounted settled attempt.loaded)
    (hPending : attempt.loaded.status = .pending) {new : List (String × PublishOutcome)}
    (hNew : ∀ outcome, new.count (attempt.loaded.id, outcome) =
      if attempt.outcome = outcome then 1 else 0) : Accounted (settled ++ new) attempt.current := by
  have hAttempts := h.attempts
  have hSucceeded := h.succeeded
  have hRoom : attempt.loaded.attempts < maxAttempts :=
    Nat.lt_of_le_of_ne h.bound fun hFull => h.exhausted hFull hPending
  rw [hPending, if_neg (by simp)] at hSucceeded
  have hCount (outcome : PublishOutcome) : (settled ++ new).count (attempt.current.id, outcome) =
      settled.count (attempt.loaded.id, outcome) + if attempt.outcome = outcome then 1 else 0 := by
    rw [List.count_append, Attempt.current_id, hNew]
  cases hOutcome : attempt.outcome with
  | ok =>
      have hCurrent : attempt.current = attempt.loaded.markSent attempt.clock := by
        simp only [Attempt.current, hOutcome]
      refine ⟨?_, ?_, ?_, ?_, ?_, ?_⟩
      · rw [hCount, hCount, hOutcome, Attempt.current_attempts]
        simp only [reduceCtorEq, if_true, if_false]
        omega
      · rw [hCount, hOutcome, hSucceeded, hCurrent]
        rfl
      · rw [Attempt.current_attempts]
        exact hRoom
      · intro _
        simp [hCurrent, OutboxMessage.markSent]
      · intro hFailed
        simp [hCurrent, OutboxMessage.markSent] at hFailed
      · intro _
        rw [hCurrent]
        rfl
  | error =>
      have hCurrent : attempt.current = attempt.loaded.markFailed attempt.now := by
        simp only [Attempt.current, hOutcome]
      have hStatus : (attempt.current.status = .pending ∧ attempt.loaded.attempts + 1 < maxAttempts) ∨
          (attempt.current.status = .failed ∧ maxAttempts ≤ attempt.loaded.attempts + 1) := by
        rw [hCurrent]
        exact OutboxMessage.markFailed_status hPending
      have hNotSent : attempt.current.status ≠ .sent := by
        rcases hStatus with ⟨hs, -⟩ | ⟨hs, -⟩ <;> rw [hs] <;> simp
      refine ⟨?_, ?_, ?_, ?_, ?_, ?_⟩
      · rw [hCount, hCount, hOutcome, Attempt.current_attempts]
        simp only [reduceCtorEq, if_true, if_false]
        omega
      · rw [hCount, hOutcome, hSucceeded, if_neg hNotSent]
        rfl
      · rw [Attempt.current_attempts]
        exact hRoom
      · rw [Attempt.current_attempts]
        intro hFull hStill
        rcases hStatus with ⟨-, hMore⟩ | ⟨hs, -⟩
        · omega
        · rw [hs] at hStill
          cases hStill
      · rw [Attempt.current_attempts]
        intro hFailed
        rcases hStatus with ⟨hs, -⟩ | ⟨-, hLast⟩
        · rw [hs] at hFailed
          cases hFailed
        · omega
      · exact fun hSent => absurd hSent hNotSent

end Accounted

/-- Committed attempts are backed by publishes that returned, also while a
batch is open, and every row is accounted for. -/
structure AccountInv (s : RelayState) : Prop where
  rows : ∀ row ∈ s.table, Accounted s.settled row
  known : ∀ entry ∈ s.settled, ∃ row ∈ s.table, row.id = entry.1
  made : ∀ r entry, s.settled.count entry +
    ((s.relays r).batch.map Attempt.settlement).count entry ≤ s.returned.count entry

theorem accountInv_initial : AccountInv RelayState.initial where
  rows := by
    intro row h
    exact absurd h (KeyedTable.not_mem_empty row)
  known := by
    intro entry h
    cases h
  made := fun _ _ => Nat.zero_le _

/-- A step between two phases that record the same attempts. -/
theorem AccountInv.setPhase (inv : AccountInv s) {t : RelayState} {r : RelayId} {phase : RelayPhase}
    (hTable : t.table = s.table) (hRelays : t.relays = s.relays) (hSettled : t.settled = s.settled)
    (hReturned : t.returned = s.returned) (hBatch : phase.batch = (s.relays r).batch ∨ phase.batch = []) :
    AccountInv (t.setPhase r phase) where
  rows := by
    intro row h
    change row ∈ t.table at h
    change Accounted t.settled row
    rw [hSettled]
    exact inv.rows row (hTable ▸ h)
  known := by
    intro entry h
    change entry ∈ t.settled at h
    obtain ⟨row, hRow, hId⟩ := inv.known entry (hSettled ▸ h)
    refine ⟨row, ?_, hId⟩
    change row ∈ t.table
    rw [hTable]
    exact hRow
  made := by
    intro r' entry
    change t.settled.count entry + _ ≤ t.returned.count entry
    rw [hSettled, hReturned]
    by_cases hr : r' = r
    · subst hr
      rw [RelayState.setPhase_self]
      have hMade := inv.made r' entry
      rcases hBatch with hBatch | hBatch
      · rw [hBatch]
        exact hMade
      · rw [hBatch]
        simp only [List.map_nil, List.count_nil]
        omega
    · rw [RelayState.setPhase_of_ne t phase hr, hRelays]
      exact inv.made r' entry

theorem AccountInv.enterLoop (inv : AccountInv s) (r : RelayId) (now : DateTime)
    (rows : List OutboxMessage) : AccountInv (s.enterLoop r now [] rows) := by
  have h : AccountInv (s.setPhase r (.atLoopHead now [] rows)) :=
    inv.setPhase rfl rfl rfl rfl (Or.inr (RelayPhase.batch_atLoopHead ..))
  exact ⟨h.rows, h.known, h.made⟩

theorem AccountInv.publishReturns (inv : AccountInv s) {r : RelayId} {now clock : DateTime}
    {batch : List Attempt} {row : OutboxMessage} {rest : List OutboxMessage}
    {outcome : PublishOutcome} (hPhase : s.relays r = .publishing now batch row rest) :
    AccountInv ({ s with returned := s.returned ++ [(row.id, outcome)] }.enterLoop r now
      (batch ++ [Attempt.mk row outcome now clock]) rest) where
  rows := inv.rows
  known := inv.known
  made := by
    intro r' entry
    change s.settled.count entry + _ ≤ (s.returned ++ [(row.id, outcome)]).count entry
    rw [List.count_append]
    by_cases hr : r' = r
    · subst hr
      have hMade := inv.made r' entry
      rw [hPhase] at hMade
      rw [RelayState.enterLoop_self, RelayPhase.batch_atLoopHead, List.map_append, List.count_append,
        ← Nat.add_assoc]
      exact Nat.add_le_add_right hMade _
    · rw [RelayState.enterLoop_of_ne _ _ _ _ hr]
      exact Nat.le_trans (inv.made r' entry) (Nat.le_add_right _ _)

theorem AccountInv.commit (inv : AccountInv s) (lock : LockInv s) {r : RelayId}
    {batch : List Attempt} (results : List (RelayId × Nat)) (hPhase : s.relays r = .committing batch) :
    AccountInv ({ s with
      table := s.table.applyBatch batch
      locks := s.locks.release r
      settled := s.settled ++ batch.map Attempt.settlement
      results := results }.setPhase r .idle) := by
  have own := lock r
  rw [hPhase] at own
  have hNodup : (batch.map fun attempt => attempt.loaded.id).Nodup := by
    have h := own.nodup
    rw [RelayPhase.loaded, List.map_map] at h
    exact h
  constructor
  · intro row h
    obtain ⟨before, hBefore, rfl⟩ := OutboxTable.mem_applyBatch.mp h
    by_cases hIn : before.id ∈ batch.map fun attempt => attempt.loaded.id
    · obtain ⟨attempt, hAttempt, hId⟩ := List.mem_map.mp hIn
      obtain ⟨hStored, hPending⟩ := own.stored attempt.loaded (List.mem_map_of_mem hAttempt)
      obtain rfl := KeyedTable.eq_of_key hStored hBefore hId
      rw [OutboxTable.storeRow_loaded hAttempt hNodup]
      exact (inv.rows _ hBefore).settle hPending (count_settlement hAttempt hNodup)
    · rw [OutboxTable.storeRow_of_not_mem hIn]
      exact (inv.rows before hBefore).append_of_count_zero fun outcome =>
        count_settlement_of_not_mem hIn
  · intro entry h
    have hKnown : ∃ row ∈ s.table, row.id = entry.1 := by
      rcases List.mem_append.mp h with h | h
      · exact inv.known entry h
      · obtain ⟨attempt, hAttempt, rfl⟩ := List.mem_map.mp h
        exact ⟨attempt.loaded, (own.stored _ (List.mem_map_of_mem hAttempt)).1, rfl⟩
    obtain ⟨row, hRow, hId⟩ := hKnown
    exact ⟨_, OutboxTable.mem_applyBatch.mpr ⟨row, hRow, rfl⟩, (OutboxTable.storeRow_id batch row).trans hId⟩
  · intro r' entry
    change (s.settled ++ batch.map Attempt.settlement).count entry + _ ≤ s.returned.count entry
    have hMade := inv.made r entry
    rw [hPhase] at hMade
    rw [List.count_append]
    by_cases hr : r' = r
    · subst hr
      rw [RelayState.setPhase_self]
      exact hMade
    · rw [RelayState.setPhase_of_ne _ _ hr]
      by_cases hIn : entry.1 ∈ batch.map fun attempt => attempt.loaded.id
      · -- The other batch cannot contain this message.
        have hOut : entry.1 ∉ (s.relays r').batch.map fun attempt => attempt.loaded.id := by
          intro hOther
          obtain ⟨mine, hMine, hId⟩ := List.mem_map.mp hIn
          obtain ⟨theirs, hTheirs, hId'⟩ := List.mem_map.mp hOther
          refine (lock r').locked.disjoint own.locked hr (a := entry.1) ?_ ?_
          · rw [← hId']
            exact List.mem_map_of_mem (RelayPhase.loaded_of_mem_batch hTheirs)
          · rw [← hId]
            exact List.mem_map_of_mem (List.mem_map_of_mem hMine)
        rw [count_settlement_of_not_mem hOut]
        exact hMade
      · rw [count_settlement_of_not_mem hIn]
        exact inv.made r' entry

theorem AccountInv.move (inv : AccountInv s) (lock : LockInv s) (move : RelayMove config s a s') :
    AccountInv s' := by
  cases move with
  | stage row table persisted inserted =>
      have hFresh := (KeyedTable.insert_eq_some inserted).1
      refine ⟨?_, ?_, inv.made⟩
      · intro stored h
        rcases (KeyedTable.mem_insert inserted).mp h with h | rfl
        · exact inv.rows stored h
        · refine Accounted.staged persisted fun entry hEntry hSame => ?_
          obtain ⟨known, hKnown, hId⟩ := inv.known entry hEntry
          exact hFresh known hKnown (hId.trans hSame)
      · intro entry h
        obtain ⟨known, hKnown, hId⟩ := inv.known entry h
        exact ⟨known, (KeyedTable.mem_insert inserted).mpr (Or.inl hKnown), hId⟩
  | select hIdle hOrder hSkip => exact inv.setPhase rfl rfl rfl rfl (Or.inr rfl)
  | selectPlain hIdle hOrder hSkip => exact inv.enterLoop _ _ _
  | lockEnd hPhase => exact inv.enterLoop _ _ _
  | lockSkip hPhase => exact inv.setPhase rfl rfl rfl rfl (Or.inr rfl)
  | lockRow row hPhase hFree hFind hDue => exact inv.setPhase rfl rfl rfl rfl (Or.inr rfl)
  | publishReturns hPhase => exact inv.publishReturns hPhase
  | count gauge hPhase =>
      refine inv.setPhase rfl rfl rfl rfl (Or.inl ?_)
      rw [hPhase]
      rfl
  | commit results hPhase => exact inv.commit lock results hPhase
  | crash hOpen => exact inv.setPhase rfl rfl rfl rfl (Or.inr rfl)

/-- What a step does to the committed rows: it settles the attempts of one
batch, each of which its row counts, and leaves SENT and FAILED rows alone. -/
structure Settles (s s' : RelayState) : Prop where
  settled : s.settled <+: s'.settled
  kept : ∀ row ∈ s.table, ∃ stored ∈ s'.table, stored.content = row.content ∧
    (row.status ≠ .pending → stored = row)

theorem Settles.trans {t : RelayState} (h : Settles s t) (h' : Settles t s') : Settles s s' where
  settled := h.settled.trans h'.settled
  kept := by
    intro row hRow
    obtain ⟨middle, hMiddle, hContent, hSame⟩ := h.kept row hRow
    obtain ⟨stored, hStored, hContent', hSame'⟩ := h'.kept middle hMiddle
    refine ⟨stored, hStored, hContent'.trans hContent, fun hDone => ?_⟩
    obtain rfl := hSame hDone
    exact hSame' hDone

theorem RelayMove.settles (move : RelayMove config s a s') (lock : LockInv s) : Settles s s' := by
  cases move with
  | stage row table persisted inserted =>
      refine ⟨List.prefix_rfl, fun row h => ⟨row, ?_, rfl, fun _ => rfl⟩⟩
      exact (KeyedTable.mem_insert inserted).mpr (Or.inl h)
  | @commit r batch results hPhase =>
      have own := lock r
      rw [hPhase] at own
      refine ⟨List.prefix_append _ _, fun row h => ?_⟩
      refine ⟨_, OutboxTable.mem_applyBatch.mpr ⟨row, h, rfl⟩, OutboxTable.storeRow_content _ _, ?_⟩
      intro hDone
      apply OutboxTable.storeRow_of_not_mem
      intro hIn
      obtain ⟨attempt, hAttempt, hId⟩ := List.mem_map.mp hIn
      obtain ⟨hStored, hPending⟩ := own.stored attempt.loaded (List.mem_map_of_mem hAttempt)
      rw [KeyedTable.eq_of_key hStored h hId] at hPending
      exact hDone hPending
  | _ => exact ⟨List.prefix_rfl, fun row h => ⟨row, h, rfl, fun _ => rfl⟩⟩

/-- The three states a committed message can be in. -/
def DeliveryState (s : RelayState) (row : OutboxMessage) : Prop :=
  match row.status with
  | .pending => row.attempts < maxAttempts
  | .sent => row.sentAt.isSome ∧ 1 ≤ row.attempts ∧ row.attempts ≤ maxAttempts ∧
      1 ≤ s.returned.count (row.id, .ok)
  | .failed => row.attempts = maxAttempts ∧ s.settled.count (row.id, .error) = maxAttempts

theorem AccountInv.deliveryState (inv : AccountInv s) {row : OutboxMessage} (h : row ∈ s.table) :
    DeliveryState s row := by
  have acc := inv.rows row h
  have hAttempts := acc.attempts
  have hSucceeded := acc.succeeded
  unfold DeliveryState
  cases hStatus : row.status with
  | pending => exact Nat.lt_of_le_of_ne acc.bound fun hFull => acc.exhausted hFull hStatus
  | sent =>
      rw [hStatus, if_pos rfl] at hSucceeded
      have hMade := inv.made 0 (row.id, .ok)
      exact ⟨acc.sentAt hStatus, by omega, acc.bound, by omega⟩
  | failed =>
      rw [hStatus, if_neg (by simp)] at hSucceeded
      have hFull := acc.failed hStatus
      exact ⟨hFull, by omega⟩

theorem accounting_run {as : List RelayAction} (hSkip : config.useSkipLocked = true)
    (lock : LockInv s) (inv : AccountInv s) (run : exec (relayStep config) s as = some s') :
    LockInv s' ∧ AccountInv s' ∧ Settles s s' := by
  have keep : ∀ t b t', (LockInv t ∧ AccountInv t) → relayStep config t b = some t' →
      LockInv t' ∧ AccountInv t' := by
    intro t b t' inv h
    have move := relayMove_of_step h
    exact ⟨inv.1.move hSkip move, inv.2.move inv.1 move⟩
  obtain ⟨lock', inv'⟩ := invariant keep ⟨lock, inv⟩ run
  refine ⟨lock', inv', ?_⟩
  exact monotone (R := Settles) (fun _ => ⟨List.prefix_rfl, fun row h => ⟨row, h, rfl, fun _ => rfl⟩⟩)
    (fun _ _ _ => Settles.trans) keep (fun _ _ _ inv h => (relayMove_of_step h).settles inv.1)
    ⟨lock, inv⟩ run

/-- At any point of any run with crashes, each committed message is in one of
its three states, its attempts are those of the committed batches, and the
history they add up to was really published. -/
theorem outbox_accounting {batchSize : Nat} {before after : List RelayAction}
    (run : exec (relayStep ⟨true, batchSize⟩) RelayState.initial before = some s)
    (more : exec (relayStep ⟨true, batchSize⟩) s after = some s') :
    (∀ row ∈ s.table, DeliveryState s row) ∧
    (∀ entry, s.settled.count entry ≤ s.returned.count entry) ∧
    ∃ new, s'.settled = s.settled ++ new ∧ ∀ row ∈ s.table, ∃ stored ∈ s'.table,
      stored.content = row.content ∧ (row.status ≠ .pending → stored = row) ∧
      stored.attempts = row.attempts + (new.count (row.id, .ok) + new.count (row.id, .error)) := by
  obtain ⟨lock, inv, -⟩ := accounting_run rfl lockInv_initial accountInv_initial run
  obtain ⟨-, inv', grows⟩ := accounting_run rfl lock inv more
  obtain ⟨new, hNew⟩ := grows.settled
  refine ⟨fun row h => inv.deliveryState h, fun entry => ?_, new, hNew.symm, ?_⟩
  · have hMade := inv.made 0 entry
    omega
  · intro row h
    obtain ⟨stored, hStored, hContent, hSame⟩ := grows.kept row h
    refine ⟨stored, hStored, hContent, hSame, ?_⟩
    have hBefore := (inv.rows row h).attempts
    have hAfter := (inv'.rows stored hStored).attempts
    rw [OutboxMessage.id_of_content hContent, ← hNew, List.count_append, List.count_append] at hAfter
    omega

/-- A batch that dies after its publish, and the batch that makes up for it. -/
def crashedBatch : List RelayAction :=
  [.stage "m-1" 0 ⟨"e-1", "user.created.v1", "svc", "user", "u-1", 0, [], none⟩,
    .select 0 5 ["m-1"], .lock 0, .lock 0, .publishReturns 0 .ok 6, .crash 0]

def retriedBatch : List RelayAction :=
  [.select 1 9 ["m-1"], .lock 1, .lock 1, .publishReturns 1 .ok 9, .count 1, .commit 1]

theorem outbox_accounting_crashedBatch :
    ∃ s s', exec (relayStep ⟨true, 100⟩) RelayState.initial crashedBatch = some s ∧
      exec (relayStep ⟨true, 100⟩) s retriedBatch = some s' ∧
      s'.returned = [("m-1", .ok), ("m-1", .ok)] ∧ s'.settled = [("m-1", .ok)] ∧
      ∀ row ∈ s.table, DeliveryState s row := by
  have hRun : (exec (relayStep ⟨true, 100⟩) RelayState.initial
      (crashedBatch ++ retriedBatch)).isSome = true := rfl
  obtain ⟨s', run⟩ := Option.isSome_iff_exists.mp hRun
  have hSeen : (exec (relayStep ⟨true, 100⟩) RelayState.initial
      (crashedBatch ++ retriedBatch)).map (fun s => (s.returned, s.settled)) =
      some ([("m-1", .ok), ("m-1", .ok)], [("m-1", .ok)]) := rfl
  rw [run] at hSeen
  obtain ⟨hReturned, hSettled⟩ := Prod.mk.injEq .. ▸ Option.some.inj hSeen
  obtain ⟨s, first, second⟩ := exec_append.mp run
  exact ⟨s, s', first, second, hReturned, hSettled, (outbox_accounting first second).1⟩

end ServicePlatform
