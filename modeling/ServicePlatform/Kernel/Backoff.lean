import ServicePlatform.Kernel.RelayClock

/-! How long a message waits after a failure. The due time is counted from the
reading of the batch, so it is right when the publish fails while that reading is
current. The message is not loaded again before it, and not by any other batch. -/
namespace ServicePlatform

open Storage Transition

variable {config : RelayConfig}

/-- The message of a failure stands in the table with a due time that is late
enough, and no batch has loaded it. -/
def Waiting (s : RelayState) (failure : PublishFailure) : Prop :=
  (∃ row ∈ s.table, row.id = failure.id ∧ ∃ next, row.nextAttemptAt = some next ∧ failure.due ≤ next) ∧
    ∀ r, ∀ row ∈ (s.relays r).loaded, row.id ≠ failure.id

/-- The failure is the one of an attempt in the open batch of its relay, and its
message has not been published since. -/
structure OpenFailure (s : RelayState) (starts : List (String × DateTime)) (r : RelayId) (failure : PublishFailure) :
    Prop where
  recorded : ∃ attempt ∈ (s.relays r).batch, attempt.outcome = .error ∧ attempt.loaded.id = failure.id ∧
    attempt.loaded.attempts + 1 = failure.attempt ∧ attempt.clock = failure.time
  begun : failure.begun ≤ starts.length
  quiet : ∀ start ∈ starts.drop failure.begun, start.1 ≠ failure.id

/-- A failure of a batch that committed. -/
structure PastFailure (s : TimedRelays) (starts : List (String × DateTime)) (failure : PublishFailure) : Prop where
  waits : failure.due ≤ s.time ∨ Waiting s.state failure
  begun : failure.begun ≤ starts.length
  kept : ∀ start ∈ starts.drop failure.begun, start.1 = failure.id → failure.due ≤ start.2

structure BackoffInv (config : RelayConfig) (s : TimedRelays) (log : BackoffLog) : Prop where
  owned : RelayOwned config s.state
  read : ∀ r now candidates rows, s.state.relays r = .selecting now candidates rows → now ≤ s.time
  uncommitted : ∀ r, ∀ failure ∈ log.uncommitted r, OpenFailure s.state log.starts r failure
  failures : ∀ failure ∈ log.failures, failure.attempt < maxAttempts → PastFailure s log.starts failure

theorem backoffInv_initial : BackoffInv config TimedRelays.initial BackoffLog.empty where
  owned := relayOwned_initial
  read := by
    intro r now candidates rows h
    cases h
  uncommitted := by
    intro r failure h
    cases h
  failures := by
    intro failure h
    cases h

section Steps

variable {s s' : RelayState} {a : RelayAction} {failure : PublishFailure} {time : DateTime}

/-- Until its backoff has passed, a waiting message is left alone by every step. -/
theorem Waiting.move (h : Waiting s failure) (move : RelayMove config s a s')
    (hReads : ∀ r now, ((∃ order, a = .select r now order) ∨
      ∃ candidates rows, s.relays r = .selecting now candidates rows) → now ≤ time) :
    failure.due ≤ time ∨ Waiting s' failure := by
  obtain ⟨⟨row, hRow, hId, next, hNext, hLate⟩, hFree⟩ := h
  by_cases hDue : failure.due ≤ time
  · exact Or.inl hDue
  · refine Or.inr ⟨⟨row, ?_, hId, next, hNext, hLate⟩, ?_⟩
    · exact move.row_stays hRow fun r other hOther => hId ▸ hFree r other hOther
    · intro r other hOther hSame
      rcases move.loaded_origin hOther with hOld | ⟨hStored, now, hNow, hFrom⟩
      · exact hFree r other hOld hSame
      · rw [KeyedTable.eq_of_key hStored hRow (hSame.trans hId.symm)] at hNow
        simp only [OutboxMessage.due, hNext, Bool.and_eq_true, decide_eq_true_eq] at hNow
        have hRead := hReads r now hFrom
        exact hDue (Int.le_trans hLate (Int.le_trans hNow.2 hRead))

/-- A publish that begins is for a message that its relay has loaded, and that no
attempt of an open batch is about. -/
theorem OwnRows.starts_fresh (own : OwnRows s) {r r' : RelayId} {now : DateTime} {batch : List Attempt}
    {row : OutboxMessage} {rest : List OutboxMessage} (hPhase : s.relays r = .publishing now batch row rest)
    {attempt : Attempt} (hAttempt : attempt ∈ (s.relays r').batch) : row.id ≠ attempt.loaded.id := by
  have hLoaded : row ∈ (s.relays r).loaded := by
    rw [hPhase]
    exact List.mem_append_right _ List.mem_cons_self
  by_cases hr : r = r'
  · subst hr
    have hNodup := own.nodup r
    rw [hPhase] at hNodup hAttempt
    rw [RelayPhase.loaded, List.map_append, List.nodup_append] at hNodup
    intro hSame
    exact hNodup.2.2 attempt.loaded.id (List.mem_map_of_mem (List.mem_map_of_mem hAttempt)) row.id
      (by simp) hSame.symm
  · exact own.disjoint r r' hr row hLoaded attempt.loaded (RelayPhase.loaded_of_mem_batch hAttempt)

/-- The commit of a batch stores what each of its attempts has come to. -/
theorem OwnRows.committed (own : OwnRows s) {r : RelayId} (move : RelayMove config s (.commit r) s')
    {attempt : Attempt} (hAttempt : attempt ∈ (s.relays r).batch) : attempt.current ∈ s'.table := by
  have hStored := own.stored r attempt.loaded (RelayPhase.loaded_of_mem_batch hAttempt)
  cases move with
  | commit results hPhase =>
      have hNodup := own.nodup r
      rw [hPhase] at hAttempt hNodup
      rw [RelayPhase.loaded, List.map_map] at hNodup
      exact OutboxTable.mem_applyBatch.mpr ⟨attempt.loaded, hStored, OutboxTable.storeRow_loaded hAttempt hNodup⟩

/-- A publish that fails after the reading of its batch makes its message due
before the backoff is over. -/
theorem due_early (own : OwnRows s) {r : RelayId} (move : RelayMove config s (.commit r) s')
    {attempt : Attempt} (hAttempt : attempt ∈ (s.relays r).batch) (hError : attempt.outcome = .error)
    (hPending : attempt.loaded.status = .pending) (hMore : attempt.loaded.attempts + 1 < maxAttempts)
    (hLate : attempt.now < attempt.clock) :
    ∃ row ∈ s'.table, row.id = attempt.loaded.id ∧ ∃ now, row.due now = true ∧
      now < attempt.clock + backoffDelay (attempt.loaded.attempts + 1) := by
  refine ⟨attempt.current, own.committed move hAttempt, attempt.current_id, _, ?_, Int.add_lt_add_right hLate _⟩
  simp only [Attempt.current, hError]
  exact OutboxMessage.due_markFailed hPending hMore

/-- The commit of a failed attempt lets its message wait from the reading of the batch. -/
theorem waiting_of_commit (own : OwnRows s) {r : RelayId} (move : RelayMove config s (.commit r) s')
    {attempt : Attempt} (hAttempt : attempt ∈ (s.relays r).batch) (hError : attempt.outcome = .error)
    (hMore : attempt.loaded.attempts + 1 < maxAttempts) (hId : attempt.loaded.id = failure.id)
    (hDue : failure.due ≤ attempt.now + backoffDelay (attempt.loaded.attempts + 1)) : Waiting s' failure := by
  have hLoaded : attempt.loaded ∈ (s.relays r).loaded := RelayPhase.loaded_of_mem_batch hAttempt
  have hNext : attempt.current.nextAttemptAt =
      some (attempt.now + backoffDelay (attempt.loaded.attempts + 1)) := by
    simp only [Attempt.current, hError, OutboxMessage.markFailed, if_neg (Nat.not_le_of_lt hMore)]
    rfl
  have hCommitted := own.committed move hAttempt
  cases move with
  | @commit _ batch results hPhase =>
      refine ⟨⟨attempt.current, hCommitted, by rw [Attempt.current_id, hId], _, hNext, hDue⟩, ?_⟩
      intro r' other hOther hSame
      by_cases hr : r' = r
      · subst hr
        rw [RelayState.setPhase_self] at hOther
        cases hOther
      · rw [RelayState.setPhase_of_ne _ _ hr] at hOther
        exact own.disjoint r' r hr other hOther attempt.loaded hLoaded (hSame.trans hId.symm)

end Steps

/-- The publishes a step begins, as the observer notes them. -/
theorem note_starts {s t : TimedRelays} {a : TimedAction} {log : BackoffLog}
    (move : RelayMove config s.state a.action t.state) :
    (BackoffLog.note s a t log).starts = log.starts ∨
      ∃ r now batch row rest, (BackoffLog.note s a t log).starts = log.starts ++ [(row.id, a.time)] ∧
        t.state.relays r = .publishing now batch row rest := by
  rcases move.starts with hSame | ⟨r, now, batch, row, rest, hBegun, hPhase⟩
  · left
    simp [BackoffLog.note, hSame]
  · refine Or.inr ⟨r, now, batch, row, rest, ?_, hPhase⟩
    simp [BackoffLog.note, hBegun, OutboxMessage.toEnvelope]

theorem mem_drop_append {Item : Type*} {items new : List Item} {n : Nat} (hn : n ≤ items.length) {item : Item} :
    item ∈ (items ++ new).drop n ↔ item ∈ items.drop n ∨ item ∈ new := by
  rw [List.drop_append_of_le_length hn, List.mem_append]

section Notes

variable {s t : TimedRelays} {a : TimedAction} {log : BackoffLog} {failure : PublishFailure}

theorem length_starts_note : log.starts.length ≤ (BackoffLog.note s a t log).starts.length := by
  rw [BackoffLog.note, List.length_append]
  exact Nat.le_add_right _ _

/-- An open failure stays one while its attempt is in the batch. -/
theorem openFailure_note (own : OwnRows t.state) (move : RelayMove config s.state a.action t.state) {r : RelayId}
    {attempt : Attempt} (hAttempt : attempt ∈ (t.state.relays r).batch) (hError : attempt.outcome = .error)
    (hId : attempt.loaded.id = failure.id) (hCount : attempt.loaded.attempts + 1 = failure.attempt)
    (hClock : attempt.clock = failure.time) (hBegun : failure.begun ≤ log.starts.length)
    (hQuiet : ∀ start ∈ log.starts.drop failure.begun, start.1 ≠ failure.id) :
    OpenFailure t.state (BackoffLog.note s a t log).starts r failure := by
  refine ⟨⟨attempt, hAttempt, hError, hId, hCount, hClock⟩, ?_, ?_⟩
  · exact Nat.le_trans hBegun length_starts_note
  · rcases note_starts move with hSame | ⟨r', now, batch, row, rest, hStarts, hPhase⟩
    · rw [hSame]
      exact hQuiet
    · rw [hStarts]
      intro start hStart
      rcases (mem_drop_append hBegun).mp hStart with hOld | hNew
      · exact hQuiet start hOld
      · rw [List.mem_singleton.mp hNew, ← hId]
        exact own.starts_fresh hPhase hAttempt

/-- A failure of the past stays one when its message waits or its backoff is over. -/
theorem pastFailure_note (move : RelayMove config s.state a.action t.state) (hTime : t.time = a.time)
    (hWaits : failure.due ≤ t.time ∨ Waiting t.state failure) (hBegun : failure.begun ≤ log.starts.length)
    (hKept : ∀ start ∈ log.starts.drop failure.begun, start.1 = failure.id → failure.due ≤ start.2) :
    PastFailure t (BackoffLog.note s a t log).starts failure := by
  refine ⟨hWaits, Nat.le_trans hBegun length_starts_note, ?_⟩
  rcases note_starts move with hSame | ⟨r, now, batch, row, rest, hStarts, hPhase⟩
  · rw [hSame]
    exact hKept
  · rw [hStarts]
    intro start hStart hId
    rcases (mem_drop_append hBegun).mp hStart with hOld | hNew
    · exact hKept start hOld hId
    · rw [List.mem_singleton.mp hNew] at hId ⊢
      rcases hWaits with hDue | hWaiting
      · rwa [hTime] at hDue
      · refine absurd hId (hWaiting.2 r row ?_)
        rw [hPhase]
        exact List.mem_append_right _ List.mem_cons_self

theorem mem_addFailure {uncommitted : RelayId → List PublishFailure} {failed : Option (RelayId × PublishFailure)}
    {r : RelayId} (h : failure ∈ BackoffLog.addFailure uncommitted failed r) :
    failure ∈ uncommitted r ∨ failed = some (r, failure) := by
  unfold BackoffLog.addFailure at h
  split at h
  · next r' new =>
      by_cases hr : r = r'
      · subst hr
        rw [Function.update_self] at h
        rcases List.mem_append.mp h with hOld | hLast
        · exact Or.inl hOld
        · rw [List.mem_singleton.mp hLast]
          exact Or.inr rfl
      · rw [Function.update_of_ne hr] at h
        exact Or.inl h
  · exact Or.inl h

theorem mem_stillOpen {uncommitted : RelayId → List PublishFailure} {failed : Option (RelayId × PublishFailure)}
    {action : RelayAction} {r : RelayId} (h : failure ∈ BackoffLog.stillOpen uncommitted failed action r) :
    (failure ∈ uncommitted r ∧ action ≠ .commit r ∧ action ≠ .crash r) ∨ failed = some (r, failure) := by
  have hEnded : ∀ ended, failure ∈ Function.update uncommitted ended [] r → failure ∈ uncommitted r ∧ ended ≠ r := by
    intro ended hMem
    by_cases hr : r = ended
    · subst hr
      rw [Function.update_self] at hMem
      cases hMem
    · rw [Function.update_of_ne hr] at hMem
      exact ⟨hMem, Ne.symm hr⟩
  cases action with
  | commit ended =>
      obtain ⟨hOld, hr⟩ := hEnded ended h
      exact Or.inl ⟨hOld, by simpa using hr, by simp⟩
  | crash ended =>
      obtain ⟨hOld, hr⟩ := hEnded ended h
      exact Or.inl ⟨hOld, by simp, by simpa using hr⟩
  | stage | select | lock | publishReturns | count =>
      exact (mem_addFailure h).imp_left fun hOld => ⟨hOld, by simp, by simp⟩

theorem mem_failures_note (h : failure ∈ (BackoffLog.note s a t log).failures) :
    failure ∈ log.failures ∨ ∃ r, a.action = .commit r ∧ failure ∈ log.uncommitted r := by
  unfold BackoffLog.note at h
  dsimp only at h
  split at h
  · next r hAction =>
      rcases List.mem_append.mp h with hOld | hNew
      · exact Or.inl hOld
      · exact Or.inr ⟨r, hAction, hNew⟩
  · exact Or.inl h

theorem failureOf_some {r : RelayId} (h : BackoffLog.failureOf s a log = some (r, failure)) :
    ∃ clock now batch row rest, a.action = .publishReturns r .error clock ∧
      s.state.relays r = .publishing now batch row rest ∧
      failure = ⟨row.id, row.attempts + 1, a.time, log.starts.length⟩ := by
  unfold BackoffLog.failureOf at h
  split at h
  · next r' clock hAction =>
      split at h
      · next now batch row rest hPhase =>
          cases h
          exact ⟨clock, now, batch, row, rest, hAction, hPhase, rfl⟩
      · cases h
  · cases h

/-- One step at its time. -/
theorem timedStep_some (h : timedStep config s a = some t) :
    s.time ≤ a.time ∧ a.ReadsClock ∧ t.time = a.time ∧ RelayMove config s.state a.action t.state := by
  obtain ⟨hGuard, hStep⟩ := Option.ite_none_right_eq_some.mp h
  obtain ⟨state, hState, rfl⟩ := Option.map_eq_some_iff.mp hStep
  exact ⟨hGuard.1, hGuard.2, rfl, relayMove_of_step hState⟩

/-- No query uses a reading that is ahead of the time of a step. -/
theorem BackoffInv.reads (inv : BackoffInv config s log) (hTime : s.time ≤ a.time) (hClock : a.ReadsClock)
    (r : RelayId) (now : DateTime) (h : (∃ order, a.action = .select r now order) ∨
      ∃ candidates rows, s.state.relays r = .selecting now candidates rows) : now ≤ a.time := by
  rcases h with ⟨order, hAction⟩ | ⟨candidates, rows, hPhase⟩
  · rw [TimedAction.ReadsClock, hAction] at hClock
    exact hClock
  · exact Int.le_trans (inv.read r now candidates rows hPhase) hTime

theorem BackoffInv.uncommitted_note (inv : BackoffInv config s log) (own : OwnRows t.state)
    (hClock : a.ReadsClock) (move : RelayMove config s.state a.action t.state) {r : RelayId}
    (h : failure ∈ (BackoffLog.note s a t log).uncommitted r) :
    OpenFailure t.state (BackoffLog.note s a t log).starts r failure := by
  rcases mem_stillOpen h with ⟨hOld, hCommit, hCrash⟩ | hNew
  · obtain ⟨⟨attempt, hAttempt, hError, hId, hCount, hTime⟩, hBegun, hQuiet⟩ := inv.uncommitted r failure hOld
    exact openFailure_note own move (move.batch_stays hCommit hCrash hAttempt) hError hId hCount hTime hBegun hQuiet
  · obtain ⟨clock, now, batch, row, rest, hAction, hPhase, rfl⟩ := failureOf_some hNew
    have hMember : Attempt.mk row .error now clock ∈ (t.state.relays r).batch := by
      have hMove := move
      rw [hAction] at hMove
      exact hMove.attempt_recorded hPhase
    have hNow : clock = a.time := by
      rw [TimedAction.ReadsClock, hAction] at hClock
      exact hClock
    refine openFailure_note own move hMember rfl rfl rfl hNow (Nat.le_refl _) ?_
    intro start hStart
    rw [List.drop_length] at hStart
    cases hStart

theorem BackoffInv.failures_note (inv : BackoffInv config s log) (hLater : s.time ≤ a.time) (hClock : a.ReadsClock)
    (hTime : t.time = a.time) (hOnTime : FailsOnTime config s a) (move : RelayMove config s.state a.action t.state)
    (h : failure ∈ (BackoffLog.note s a t log).failures) (hMore : failure.attempt < maxAttempts) :
    PastFailure t (BackoffLog.note s a t log).starts failure := by
  rcases mem_failures_note h with hOld | ⟨r, hAction, hOpen⟩
  · obtain ⟨hWaits, hBegun, hKept⟩ := inv.failures failure hOld hMore
    refine pastFailure_note move hTime ?_ hBegun hKept
    rcases hWaits with hDue | hWaiting
    · exact Or.inl (hTime ▸ Int.le_trans hDue hLater)
    · exact hTime ▸ hWaiting.move move (inv.reads hLater hClock)
  · obtain ⟨⟨attempt, hAttempt, hError, hId, hCount, hFailed⟩, hBegun, hQuiet⟩ := inv.uncommitted r failure hOpen
    have hBatch := hOnTime.2 r hAction attempt hAttempt hError (hCount ▸ hMore)
    refine pastFailure_note move hTime ?_ hBegun fun start hStart hSame => absurd hSame (hQuiet start hStart)
    rw [hFailed] at hBatch
    rcases hBatch with hCurrent | hOver
    · right
      rw [hAction] at move
      refine waiting_of_commit inv.owned.ownRows move hAttempt hError (hCount ▸ hMore) hId ?_
      rw [hCount]
      exact Int.add_le_add_right hCurrent _
    · left
      rw [hTime, PublishFailure.due, ← hCount]
      exact hOver

theorem BackoffInv.step (inv : BackoffInv config s log) (hOnTime : FailsOnTime config s a)
    (h : timedStep config s a = some t) : BackoffInv config t (BackoffLog.note s a t log) := by
  obtain ⟨hLater, hClock, hTime, move⟩ := timedStep_some h
  have hOwned : RelayOwned config t.state := inv.owned.move hOnTime.1 move
  refine ⟨hOwned, ?_, fun r failure hMem => ?_, fun failure hMem hMore => ?_⟩
  · intro r now candidates rows hPhase
    rw [hTime]
    exact inv.reads hLater hClock r now (move.selecting_origin hPhase)
  · exact inv.uncommitted_note hOwned.ownRows hClock move hMem
  · exact inv.failures_note hLater hClock hTime hOnTime move hMem hMore

end Notes

/-- In every run whose batches are coordinated and commit their failures on time,
each failed message waits for its backoff. -/
theorem backoff_kept (config : RelayConfig) (as : List TimedAction) (s : TimedRelays) (log : BackoffLog)
    (run : exec (watched (timedStep config) BackoffLog.note) (TimedRelays.initial, BackoffLog.empty) as =
      some (s, log))
    (hOnTime : Along (timedStep config) (FailsOnTime config) TimedRelays.initial as) : log.BackoffKept := by
  have hInv : BackoffInv config s log := by
    refine invariant_along (I := fun noted => BackoffInv config noted.1 noted.2)
      (P := fun noted a => FailsOnTime config noted.1 a) ?_ backoffInv_initial (along_watched hOnTime) run
    rintro ⟨t, log⟩ a ⟨t', log'⟩ inv hOn hStep
    obtain ⟨hTimed, hNoted⟩ := watched_some.mp hStep
    have hLog : log' = BackoffLog.note t a t' log := hNoted
    rw [hLog]
    exact inv.step hOn hTimed
  exact fun failure hMem hMore => (hInv.failures failure hMem hMore).kept

/-- A batch with one message whose publish fails at a given time, and the retry
at another one. -/
def retried (failed again : DateTime) : List TimedAction :=
  [⟨0, .stage "m-1" 0 ⟨"e-1", "user.created.v1", "svc", "user", "u-1", 0, [], none⟩⟩,
    ⟨10, .select 0 10 ["m-1"]⟩, ⟨10, .lock 0⟩, ⟨10, .lock 0⟩, ⟨failed, .publishReturns 0 .error failed⟩,
    ⟨failed, .count 0⟩, ⟨failed, .commit 0⟩, ⟨again, .select 0 again ["m-1"]⟩, ⟨again, .lock 0⟩, ⟨again, .lock 0⟩]

theorem failsOnTime_promptFailure :
    Along (timedStep ⟨true, 100⟩) (FailsOnTime ⟨true, 100⟩) TimedRelays.initial (retried 10 4000010) := by
  have hOther : ∀ s (a : TimedAction), (∀ r, a.action ≠ .commit r) → FailsOnTime ⟨true, 100⟩ s a := by
    intro s a hNot
    refine ⟨?_, fun r hCommit => absurd hCommit (hNot r)⟩
    unfold Coordinated
    split
    · exact Or.inl rfl
    · trivial
  refine along_cons (hOther _ _ (by simp)) rfl (along_cons (hOther _ _ (by simp)) rfl ?_)
  refine along_cons (hOther _ _ (by simp)) rfl (along_cons (hOther _ _ (by simp)) rfl ?_)
  refine along_cons (hOther _ _ (by simp)) rfl (along_cons (hOther _ _ (by simp)) rfl ?_)
  refine along_cons ⟨trivial, ?_⟩ rfl ?_
  · intro r hCommit attempt hAttempt
    cases hCommit
    rw [List.mem_singleton.mp hAttempt]
    exact fun _ _ => Or.inl (Int.le_refl _)
  · refine along_cons (hOther _ _ (by simp)) rfl (along_cons (hOther _ _ (by simp)) rfl ?_)
    exact along_cons (hOther _ _ (by simp)) rfl trivial

/-- A publish that fails at once is repeated after four seconds. -/
theorem backoff_kept_promptFailure : ∃ s log,
    exec (watched (timedStep ⟨true, 100⟩) BackoffLog.note) (TimedRelays.initial, BackoffLog.empty)
      (retried 10 4000010) = some (s, log) ∧ log.starts = [("m-1", 10), ("m-1", 4000010)] ∧ log.BackoffKept := by
  have hRun : (exec (watched (timedStep ⟨true, 100⟩) BackoffLog.note) (TimedRelays.initial, BackoffLog.empty)
      (retried 10 4000010)).map (fun noted => noted.2.starts) = some [("m-1", 10), ("m-1", 4000010)] := rfl
  obtain ⟨⟨s, log⟩, run, hStarts⟩ := Option.map_eq_some_iff.mp hRun
  exact ⟨s, log, run, hStarts, backoff_kept ⟨true, 100⟩ (retried 10 4000010) s log run failsOnTime_promptFailure⟩

/-- A publish that fails after three seconds is repeated one second later. -/
theorem retried_early : ∃ s log,
    exec (watched (timedStep ⟨true, 100⟩) BackoffLog.note) (TimedRelays.initial, BackoffLog.empty)
      (retried 3000000 4000010) = some (s, log) ∧ log.starts = [("m-1", 10), ("m-1", 4000010)] ∧
      ¬ log.BackoffKept := by
  have hRun : (exec (watched (timedStep ⟨true, 100⟩) BackoffLog.note) (TimedRelays.initial, BackoffLog.empty)
      (retried 3000000 4000010)).map (fun noted => (noted.2.starts, noted.2.failures)) =
      some ([("m-1", 10), ("m-1", 4000010)], [⟨"m-1", 1, 3000000, 1⟩]) := rfl
  obtain ⟨⟨s, log⟩, run, hLog⟩ := Option.map_eq_some_iff.mp hRun
  obtain ⟨hStarts, hFailures⟩ := Prod.mk.inj hLog
  refine ⟨s, log, run, hStarts, fun hKept => ?_⟩
  have hEarly := hKept ⟨"m-1", 1, 3000000, 1⟩ (hFailures ▸ List.mem_singleton_self _) (by decide)
    ("m-1", 4000010) (by rw [hStarts]; exact List.mem_singleton_self _) rfl
  revert hEarly
  decide

end ServicePlatform
