import ServicePlatform.Kernel.RelayContent

/-! One writer per message. With `SKIP LOCKED` every row an open batch has
loaded is locked by that batch and still stands in the table as it was loaded,
so no other batch can touch it before the commit. -/
namespace ServicePlatform

open Storage Transition

/-- The rows belong to the relay: it has their locks, and nobody has changed
them since it loaded them. -/
structure Owns (table : OutboxTable) (locks : RowLocks String RelayId) (r : RelayId)
    (rows : List OutboxMessage) : Prop where
  nodup : (rows.map OutboxMessage.id).Nodup
  locked : locks.Holds r (rows.map OutboxMessage.id)
  stored : ∀ row ∈ rows, row ∈ table ∧ row.status = .pending

namespace Owns

variable {table table' : OutboxTable} {locks : RowLocks String RelayId} {r r' : RelayId}
  {rows rows' : List OutboxMessage}

theorem nil : Owns table locks r [] where
  nodup := List.nodup_nil
  locked := by
    intro k hk
    cases hk
  stored := by
    intro row h
    cases h

theorem table_mono (h : Owns table locks r rows) (keeps : ∀ row ∈ rows, row ∈ table → row ∈ table') :
    Owns table' locks r rows where
  nodup := h.nodup
  locked := h.locked
  stored := fun row hRow => ⟨keeps row hRow (h.stored row hRow).1, (h.stored row hRow).2⟩

theorem acquire (h : Owns table locks r rows) {k : String} (hFree : locks k = none) :
    Owns table (locks.acquire k r') r rows where
  nodup := h.nodup
  locked := h.locked.acquire hFree
  stored := h.stored

theorem release (h : Owns table locks r rows) (ne : r ≠ r') : Owns table (locks.release r') r rows where
  nodup := h.nodup
  locked := h.locked.release ne
  stored := h.stored

/-- Locking a row that was free and matched the query adds it to the batch. -/
theorem snoc (h : Owns table locks r rows) {row : OutboxMessage} (hFree : locks row.id = none)
    (hRow : row ∈ table) (hPending : row.status = .pending) :
    Owns table (locks.acquire row.id r) r (rows ++ [row]) where
  nodup := by
    rw [List.map_append, List.nodup_append]
    refine ⟨h.nodup, by simp, ?_⟩
    intro k hk k' hk'
    simp only [List.map_cons, List.map_nil, List.mem_singleton] at hk'
    rintro rfl
    exact h.locked.not_mem_of_free hFree (hk' ▸ hk)
  locked := by
    intro k hk
    rw [List.map_append, List.mem_append] at hk
    rcases hk with hk | hk
    · exact (h.locked.acquire hFree) k hk
    · simp only [List.map_cons, List.map_nil, List.mem_singleton] at hk
      rw [hk]
      exact RowLocks.acquire_self
  stored := by
    intro other hOther
    rcases List.mem_append.mp hOther with hOther | hOther
    · exact h.stored other hOther
    · rw [List.mem_singleton.mp hOther]
      exact ⟨hRow, hPending⟩

/-- The commit of another relay leaves the rows as they are. -/
theorem applyBatch (h : Owns table locks r rows) {batch : List Attempt}
    (other : Owns table locks r' (batch.map Attempt.loaded)) (ne : r ≠ r') :
    Owns (table.applyBatch batch) locks r rows := by
  refine h.table_mono fun row hRow hStored => OutboxTable.mem_applyBatch.mpr ⟨row, hStored, ?_⟩
  apply OutboxTable.storeRow_of_not_mem
  intro hBatch
  have hOther : row.id ∈ (batch.map Attempt.loaded).map OutboxMessage.id := by
    rw [List.map_map]
    exact hBatch
  exact h.locked.disjoint other.locked ne (List.mem_map_of_mem hRow) hOther

end Owns

/-- Every open batch owns the rows it has loaded. -/
def LockInv (s : RelayState) : Prop := ∀ r, Owns s.table s.locks r (s.relays r).loaded

theorem lockInv_initial : LockInv RelayState.initial := fun _ => Owns.nil

variable {config : RelayConfig} {s s' : RelayState} {a : RelayAction}

/-- A step of one relay keeps the invariant when its own new rows are owned
and everybody else's rows are undisturbed. -/
theorem LockInv.setPhase {t : RelayState} {r : RelayId} {phase : RelayPhase}
    (own : Owns t.table t.locks r phase.loaded)
    (others : ∀ r', r' ≠ r → Owns t.table t.locks r' (t.relays r').loaded) :
    LockInv (t.setPhase r phase) := by
  intro r'
  by_cases hr : r' = r
  · subst hr
    rw [RelayState.setPhase_self]
    exact own
  · rw [RelayState.setPhase_of_ne t phase hr]
    exact others r' hr

theorem LockInv.move (inv : LockInv s) (hSkip : config.useSkipLocked = true)
    (move : RelayMove config s a s') : LockInv s' := by
  cases move with
  | stage row table persisted inserted =>
      intro r
      exact (inv r).table_mono fun row _ h => (KeyedTable.mem_insert inserted).mpr (Or.inl h)
  | select hIdle hOrder hSkip => exact LockInv.setPhase Owns.nil fun r' _ => inv r'
  | selectPlain hIdle hOrder hPlain =>
      rw [hSkip] at hPlain
      cases hPlain
  | @lockEnd r now candidates rows hPhase =>
      have own := inv r
      rw [hPhase] at own
      refine LockInv.setPhase ?_ fun r' _ => inv r'
      rw [RelayPhase.loaded_atLoopHead]
      exact own
  | @lockSkip r now k candidates rows hPhase =>
      have own := inv r
      rw [hPhase] at own
      exact LockInv.setPhase own fun r' _ => inv r'
  | @lockRow r now k candidates rows row hPhase hFree hFind hDue =>
      have own := inv r
      rw [hPhase] at own
      obtain ⟨hRow, rfl⟩ := KeyedTable.find_eq_some.mp hFind
      exact LockInv.setPhase (own.snoc hFree hRow (OutboxMessage.pending_of_due hDue))
        fun r' _ => (inv r').acquire hFree
  | @publishReturns r outcome clock now batch row rest hPhase =>
      have own := inv r
      rw [hPhase] at own
      refine LockInv.setPhase ?_ fun r' _ => inv r'
      rw [RelayPhase.loaded_atLoopHead, List.map_append, List.append_assoc]
      exact own
  | @count r batch gauge hPhase =>
      have own := inv r
      rw [hPhase] at own
      exact LockInv.setPhase own fun r' _ => inv r'
  | @commit r batch results hPhase =>
      have own := inv r
      rw [hPhase] at own
      exact LockInv.setPhase Owns.nil fun r' hr => ((inv r').applyBatch own hr).release hr
  | crash hOpen => exact LockInv.setPhase Owns.nil fun r' hr => (inv r').release hr

theorem lockInv_run {as : List RelayAction} (hSkip : config.useSkipLocked = true)
    (start : LockInv s) (run : exec (relayStep config) s as = some s') : LockInv s' :=
  invariant (fun _ _ _ inv h => inv.move hSkip (relayMove_of_step h)) start run

/-- Two relays never wait for a publish of the same message. -/
theorem LockInv.publishing_unique (inv : LockInv s) {r r' : RelayId} {now now' : DateTime}
    {batch batch' : List Attempt} {row row' : OutboxMessage} {rest rest' : List OutboxMessage}
    (h : s.relays r = .publishing now batch row rest)
    (h' : s.relays r' = .publishing now' batch' row' rest') (same : row.id = row'.id) : r = r' := by
  by_contra ne
  have own := inv r
  have own' := inv r'
  rw [h] at own
  rw [h'] at own'
  refine own.locked.disjoint own'.locked ne (a := row.id) ?_ ?_
  · simp [RelayPhase.loaded]
  · rw [same]
    simp [RelayPhase.loaded]

/-- A publish begins only for a message whose committed status is pending. -/
theorem LockInv.begins_pending (inv : LockInv s) (hSkip : config.useSkipLocked = true)
    (step : relayStep config s a = some s') {call : RelayId × EventEnvelope}
    (hNew : s'.begun = s.begun ++ [call]) :
    ∃ row ∈ s.table, row.toEnvelope = call.2 ∧ row.status = .pending := by
  have move := relayMove_of_step step
  rcases move.begun with hSame | ⟨new, hAdded, hTable, row, hRow, hEnvelope⟩
  · rw [hSame] at hNew
    exact absurd hNew.symm (by simp)
  · rw [hNew, List.append_cancel_left_eq, List.cons.injEq] at hAdded
    obtain ⟨rfl, -⟩ := hAdded
    have hStored := (inv.move hSkip move call.1).stored row hRow
    rw [hTable] at hStored
    exact ⟨row, hStored.1, hEnvelope, hStored.2⟩

end ServicePlatform
