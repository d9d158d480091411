import ServicePlatform.Kernel.RelayLocking

/-! Without a crash each message is published successfully at most once. The
success a relay has seen stays in its open batch until the commit makes the
row SENT, and both exclude another publish. -/
namespace ServicePlatform

open Storage Transition

variable {config : RelayConfig} {s s' : RelayState} {a : RelayAction}

/-- A success is remembered: in the committed row, or in the batch of the
relay that still holds the row. -/
def Remembered (s : RelayState) (id : String) : Prop :=
  (∃ row ∈ s.table, row.id = id ∧ row.status = .sent) ∨
    ∃ r, ∃ attempt ∈ (s.relays r).batch, attempt.loaded.id = id ∧ attempt.outcome = .ok

structure OnceInv (s : RelayState) : Prop where
  once : ∀ id, s.returned.count (id, .ok) ≤ 1
  remembered : ∀ id, (id, .ok) ∈ s.returned → Remembered s id

theorem onceInv_initial : OnceInv RelayState.initial where
  once := fun _ => Nat.zero_le 1
  remembered := by
    intro id h
    cases h

/-- Nothing is remembered about the row a relay is publishing: its committed
status is pending and no batch has recorded it. -/
theorem LockInv.not_remembered (inv : LockInv s) {r : RelayId} {now : DateTime}
    {batch : List Attempt} {row : OutboxMessage} {rest : List OutboxMessage}
    (h : s.relays r = .publishing now batch row rest) : ¬ Remembered s row.id := by
  have own := inv r
  rw [h] at own
  have hMem : row ∈ batch.map Attempt.loaded ++ row :: rest := by simp
  rintro (⟨stored, hStored, hId, hSent⟩ | ⟨r', attempt, hAttempt, hId, -⟩)
  · obtain ⟨hRow, hPending⟩ := own.stored row hMem
    rw [KeyedTable.eq_of_key hStored hRow hId, hPending] at hSent
    cases hSent
  · have hr : r' = r := by
      by_contra ne
      refine (inv r').locked.disjoint own.locked ne (a := row.id) ?_ (List.mem_map_of_mem hMem)
      rw [← hId]
      exact List.mem_map_of_mem (RelayPhase.loaded_of_mem_batch hAttempt)
    subst hr
    rw [h] at hAttempt
    have hNodup := own.nodup
    simp only [RelayPhase.loaded, List.map_append, List.nodup_append] at hNodup
    refine hNodup.2.2 row.id ?_ row.id (List.mem_cons_self ..) rfl
    rw [← hId]
    exact List.mem_map_of_mem (List.mem_map_of_mem hAttempt)

/-- A step that ends no batch keeps what is remembered. -/
theorem Remembered.setPhase {t : RelayState} {r : RelayId} {phase : RelayPhase} {id : String}
    (hTable : t.table = s.table) (hRelays : t.relays = s.relays)
    (hBatch : ∀ attempt ∈ (s.relays r).batch, attempt ∈ phase.batch) (h : Remembered s id) :
    Remembered (t.setPhase r phase) id := by
  rcases h with ⟨row, hRow, hSent⟩ | ⟨r', attempt, hAttempt, hOk⟩
  · exact Or.inl ⟨row, hTable ▸ hRow, hSent⟩
  · refine Or.inr ⟨r', attempt, ?_, hOk⟩
    by_cases hr : r' = r
    · subst hr
      rw [RelayState.setPhase_self]
      exact hBatch attempt hAttempt
    · rw [RelayState.setPhase_of_ne t phase hr, hRelays]
      exact hAttempt

theorem Remembered.commit (inv : LockInv s) {r : RelayId} {batch : List Attempt}
    (hPhase : s.relays r = .committing batch) {t : RelayState}
    (hTable : t.table = s.table.applyBatch batch) (hRelays : t.relays = s.relays) {id : String}
    (h : Remembered s id) : Remembered (t.setPhase r .idle) id := by
  have own := inv r
  rw [hPhase] at own
  have hNodup : (batch.map fun attempt => attempt.loaded.id).Nodup := by
    have h := own.nodup
    rw [RelayPhase.loaded, List.map_map] at h
    exact h
  rcases h with ⟨row, hRow, hId, hSent⟩ | ⟨r', attempt, hAttempt, hId, hOk⟩
  · refine Or.inl ⟨row, ?_, hId, hSent⟩
    change row ∈ t.table
    rw [hTable]
    refine OutboxTable.mem_applyBatch.mpr ⟨row, hRow, OutboxTable.storeRow_of_not_mem ?_⟩
    intro hBatch
    obtain ⟨attempt, hAttempt, hSame⟩ := List.mem_map.mp hBatch
    obtain ⟨hStored, hPending⟩ := own.stored attempt.loaded (List.mem_map_of_mem hAttempt)
    rw [KeyedTable.eq_of_key hStored hRow hSame, hSent] at hPending
    cases hPending
  · by_cases hr : r' = r
    · subst hr
      rw [hPhase] at hAttempt
      obtain ⟨hStored, -⟩ := own.stored attempt.loaded (List.mem_map_of_mem hAttempt)
      refine Or.inl ⟨attempt.current, ?_, by rw [Attempt.current_id, hId], ?_⟩
      · change attempt.current ∈ t.table
        rw [hTable]
        exact OutboxTable.mem_applyBatch.mpr
          ⟨attempt.loaded, hStored, OutboxTable.storeRow_loaded hAttempt hNodup⟩
      · simp [Attempt.current, hOk, OutboxMessage.markSent]
    · refine Or.inr ⟨r', attempt, ?_, hId, hOk⟩
      rw [RelayState.setPhase_of_ne t .idle hr, hRelays]
      exact hAttempt

/-- A call that returns gives the message its only success, and is remembered in
the batch of its relay. -/
theorem OnceInv.published (inv : OnceInv s) (lock : LockInv s) {r : RelayId} {now clock : DateTime}
    {batch : List Attempt} {row : OutboxMessage} {rest : List OutboxMessage}
    (hPhase : s.relays r = .publishing now batch row rest) (outcome : PublishOutcome) :
    OnceInv ({ s with returned := s.returned ++ [(row.id, outcome)] }.enterLoop r now
      (batch ++ [Attempt.mk row outcome now clock]) rest) := by
  have keeps (id : String) (h : Remembered s id) : Remembered
      ({ s with returned := s.returned ++ [(row.id, outcome)] }.enterLoop r now
        (batch ++ [Attempt.mk row outcome now clock]) rest) id := by
    refine h.setPhase rfl rfl ?_
    rw [hPhase, RelayPhase.batch_atLoopHead]
    exact fun _ h => List.mem_append_left _ h
  constructor
  · intro id
    change (s.returned ++ [(row.id, outcome)]).count (id, .ok) ≤ 1
    rw [List.count_append]
    by_cases hNew : (row.id, outcome) = (id, .ok)
    · cases hNew
      have hZero : s.returned.count (row.id, .ok) = 0 :=
        List.count_eq_zero.mpr fun h => lock.not_remembered hPhase (inv.remembered row.id h)
      simp [hZero]
    · have hZero : [(row.id, outcome)].count (id, .ok) = 0 := by
        rw [List.count_singleton]
        simpa using hNew
      have hOld := inv.once id
      omega
  · intro id h
    rcases List.mem_append.mp h with h | h
    · exact keeps id (inv.remembered id h)
    · cases List.mem_singleton.mp h
      refine Or.inr ⟨r, Attempt.mk row .ok now clock, ?_, rfl, rfl⟩
      rw [RelayState.enterLoop_self, RelayPhase.batch_atLoopHead]
      exact List.mem_append_right _ (List.mem_singleton_self _)

theorem OnceInv.move (inv : OnceInv s) (lock : LockInv s) (move : RelayMove config s a s')
    (noCrash : ∀ r, a ≠ .crash r) : OnceInv s' := by
  cases move with
  | stage row table persisted inserted =>
      refine ⟨inv.once, fun id h => ?_⟩
      rcases inv.remembered id h with ⟨row, hRow, hSent⟩ | hOpen
      · exact Or.inl ⟨row, (KeyedTable.mem_insert inserted).mpr (Or.inl hRow), hSent⟩
      · exact Or.inr hOpen
  | select hIdle hOrder hSkip =>
      refine ⟨inv.once, fun id h => (inv.remembered id h).setPhase rfl rfl ?_⟩
      rw [hIdle]
      exact fun _ h => h
  | selectPlain hIdle hOrder hPlain =>
      refine ⟨inv.once, fun id h => (inv.remembered id h).setPhase rfl rfl ?_⟩
      rw [hIdle, RelayPhase.batch_atLoopHead]
      exact fun _ h => h
  | lockEnd hPhase =>
      refine ⟨inv.once, fun id h => (inv.remembered id h).setPhase rfl rfl ?_⟩
      rw [hPhase, RelayPhase.batch_atLoopHead]
      exact fun _ h => h
  | lockSkip hPhase =>
      refine ⟨inv.once, fun id h => (inv.remembered id h).setPhase rfl rfl ?_⟩
      rw [hPhase]
      exact fun _ h => h
  | lockRow row hPhase hFree hFind hDue =>
      refine ⟨inv.once, fun id h => (inv.remembered id h).setPhase rfl rfl ?_⟩
      rw [hPhase]
      exact fun _ h => h
  | publishReturns hPhase => exact inv.published lock hPhase _
  | count gauge hPhase =>
      refine ⟨inv.once, fun id h => (inv.remembered id h).setPhase rfl rfl ?_⟩
      rw [hPhase]
      exact fun _ h => h
  | commit results hPhase =>
      refine ⟨inv.once, fun id h => ?_⟩
      exact Remembered.commit lock hPhase (t := { s with
        table := s.table.applyBatch _, locks := s.locks.release _,
        settled := s.settled ++ List.map Attempt.settlement _, results := results }) rfl rfl
        (inv.remembered id h)
  | @crash r hOpen => exact absurd rfl (noCrash r)

/-- What one writer per message means for an observer of the replicas. -/
structure SingleWriter (config : RelayConfig) (s : RelayState) : Prop where
  exclusive : ∀ r r' now now' batch batch' row row' rest rest',
    s.relays r = .publishing now batch row rest →
    s.relays r' = .publishing now' batch' row' rest' → row.id = row'.id → r = r'
  once : ∀ id, s.returned.count (id, .ok) ≤ 1
  pending : ∀ a s' call, relayStep config s a = some s' → s'.begun = s.begun ++ [call] →
    ∃ row ∈ s.table, row.toEnvelope = call.2 ∧ row.status = .pending

/-- Any number of replicas, staging transactions and publish failures, in any
interleaving without a crash. -/
theorem single_writer {batchSize : Nat} {as : List RelayAction}
    (run : exec (relayStep ⟨true, batchSize⟩) RelayState.initial as = some s)
    (noCrash : ∀ r, RelayAction.crash r ∉ as) : SingleWriter ⟨true, batchSize⟩ s := by
  have keep : ∀ t b t', (LockInv t ∧ OnceInv t) → (∀ r, b ≠ RelayAction.crash r) →
      relayStep ⟨true, batchSize⟩ t b = some t' → LockInv t' ∧ OnceInv t' := by
    intro t b t' inv hb h
    have move := relayMove_of_step h
    exact ⟨inv.1.move rfl move, inv.2.move inv.1 move hb⟩
  have allowed : Along (relayStep ⟨true, batchSize⟩) (fun _ b => ∀ r, b ≠ RelayAction.crash r)
      RelayState.initial as :=
    along_of_forall (fun b hb _ r => by
      rintro rfl
      exact noCrash r hb) _
  obtain ⟨lock, once⟩ := invariant_along keep ⟨lockInv_initial, onceInv_initial⟩ allowed run
  exact ⟨fun r r' now now' batch batch' row row' rest rest' h h' same =>
    lock.publishing_unique h h' same, once.once, fun a s' call h hNew => lock.begins_pending rfl h hNew⟩

/-- One message, two replicas: the second finds the row locked and skips it. -/
def twoReplicas : List RelayAction :=
  [.stage "m-1" 0 ⟨"e-1", "user.created.v1", "svc", "user", "u-1", 0, [], none⟩,
    .select 0 5 ["m-1"], .select 1 5 ["m-1"], .lock 0, .lock 1, .lock 0, .lock 1,
    .publishReturns 0 .ok 6, .count 1, .commit 1, .count 0, .commit 0]

theorem single_writer_twoReplicas :
    ∃ s, exec (relayStep ⟨true, 100⟩) RelayState.initial twoReplicas = some s ∧
      s.results = [(1, 0), (0, 1)] ∧ SingleWriter ⟨true, 100⟩ s := by
  obtain ⟨s, run⟩ := Option.isSome_iff_exists.mp (show
    (exec (relayStep ⟨true, 100⟩) RelayState.initial twoReplicas).isSome = true from rfl)
  have hResults : (exec (relayStep ⟨true, 100⟩) RelayState.initial twoReplicas).map
      RelayState.results = some [(1, 0), (0, 1)] := rfl
  rw [run] at hResults
  exact ⟨s, run, Option.some.inj hResults, single_writer run (by simp [twoReplicas])⟩

end ServicePlatform
