import ServicePlatform.Kernel.EventDelivery

/-! When an event is lost. A batch whose handler raises keeps the key of the
event, so the next batch skips the handler and commits the message as SENT.
This is the only way, given one relay or row locks. -/
namespace ServicePlatform

open Storage Transition

variable {relay : RelayConfig} {eventName : String} {outcome : String → Nat → HandlerOutcome}
  {s s' : PipelineState}

section FailedHandler

/-- The first relay publishes the only stored message, alone in its batch. -/
structure Publishing (now : DateTime) (row : OutboxMessage) (call : Option PublishCall)
    (s : PipelineState) : Prop where
  rows : s.relay.table.rows = [row]
  phase : s.relay.relays 0 = .publishing now [] row []
  locks : s.relay.locks row.id = none ∨ s.relay.locks row.id = some 0
  calls : s.calls 0 = call

/-- The only stored message has been published by the first relay. -/
structure Published (attempt : Attempt) (s : PipelineState) : Prop where
  rows : s.relay.table.rows = [attempt.loaded]
  phase : s.relay.relays 0 = .counting [attempt]
  locks : s.relay.locks attempt.loaded.id = none ∨ s.relay.locks attempt.loaded.id = some 0
  calls : s.calls 0 = none

/-- Only one message is stored, and the first relay is between two batches. -/
structure Quiet (row : OutboxMessage) (s : PipelineState) : Prop where
  rows : s.relay.table.rows = [row]
  phase : s.relay.relays 0 = .idle
  free : s.relay.locks row.id = none
  calls : s.calls 0 = none

def selecting (useSkipLocked : Bool) (now : DateTime) (id : String) : List PipelineAction :=
  .relay (.select 0 now [id]) ::
    if useSkipLocked then [.relay (.lock 0), .relay (.lock 0)] else []

variable {row : OutboxMessage} {now clock : DateTime} {useSkipLocked : Bool}

theorem pipelineStep_of_relay {config : PipelineConfig} {a : RelayAction} {t : RelayState}
    (hOutside : s.outside a = true) (h : ServicePlatform.relayStep config.relay s.relay a = some t) :
    pipelineStep config s (.relay a) = some { s with relay := t } := by
  simp only [pipelineStep, hOutside, if_true, h, Option.map_some]

variable (eventName outcome useSkipLocked) in
theorem Quiet.select (h : Quiet row s) (hDue : row.due now = true) :
    ∃ m, exec (pipelineStep (deliveryConfig ⟨useSkipLocked, 1⟩ eventName outcome)) s
      (selecting useSkipLocked now row.id) = some m ∧
      Publishing now row none m ∧ m.store = s.store ∧ m.handled = s.handled := by
  have hFind : s.relay.table.find row.id = some row :=
    KeyedTable.find_of_mem (by simp [KeyedTable.mem_def, h.rows])
  have hOrder : s.relay.table.DueOrder now [row.id] := by
    refine ⟨?_, ?_⟩
    · simp [OutboxTable.dueIds, h.rows, hDue]
    · simp [hFind]
  cases useSkipLocked with
  | true =>
      have hSelect : relayStep ⟨true, 1⟩ s.relay (.select 0 now [row.id]) =
          some (s.relay.setPhase 0 (.selecting now [row.id] [])) := by
        simp only [relayStep, h.phase, hOrder, if_true]
      have hLock : relayStep ⟨true, 1⟩ (s.relay.setPhase 0 (.selecting now [row.id] [])) (.lock 0) =
          some ({ s.relay.setPhase 0 (.selecting now [row.id] []) with
            locks := s.relay.locks.acquire row.id 0 }.setPhase 0 (.selecting now [] [row])) := by
        simp [relayStep, h.free, hFind, hDue]
      refine ⟨_, exec_cons.mpr ⟨_, pipelineStep_of_relay rfl hSelect,
        exec_cons.mpr ⟨_, pipelineStep_of_relay rfl hLock,
        exec_cons.mpr ⟨_, pipelineStep_of_relay rfl rfl, rfl⟩⟩⟩, ⟨h.rows, rfl, ?_, h.calls⟩, rfl, rfl⟩
      exact Or.inr RowLocks.acquire_self
  | false =>
      have hSelect : relayStep ⟨false, 1⟩ s.relay (.select 0 now [row.id]) =
          some (s.relay.enterLoop 0 now [] [row]) := by
        simp [relayStep, h.phase, hOrder, hFind]
      exact ⟨_, exec_cons.mpr ⟨_, pipelineStep_of_relay rfl hSelect, rfl⟩,
        ⟨h.rows, rfl, Or.inl h.free, h.calls⟩, rfl, rfl⟩

/-- The batch is committed and its object becomes the stored row. -/
theorem Published.commit (config : PipelineConfig) {attempt : Attempt} (h : Published attempt s) :
    ∃ m, exec (pipelineStep config) s [.relay (.count 0), .relay (.commit 0)] = some m ∧
      Quiet attempt.current m ∧ m.store = s.store ∧ m.handled = s.handled := by
  have hCount : relayStep config.relay s.relay (.count 0) =
      some ({ s.relay with gauge := fun r' => if r' = 0 then
        (s.relay.table.applyBatch [attempt]).pendingCount else s.relay.gauge r' }.setPhase 0
          (.committing [attempt])) := by
    simp only [relayStep, h.phase]
  refine ⟨_, exec_cons.mpr ⟨_, pipelineStep_of_relay rfl hCount,
    exec_cons.mpr ⟨_, pipelineStep_of_relay rfl rfl, rfl⟩⟩, ⟨?_, rfl, ?_, h.calls⟩, rfl, rfl⟩
  · change s.relay.table.rows.map (OutboxTable.storeRow [attempt]) = [attempt.current]
    rw [h.rows, List.map_singleton,
      OutboxTable.storeRow_loaded (List.mem_singleton_self attempt) (List.nodup_singleton _)]
  · change s.relay.locks.release 0 attempt.current.id = none
    rw [Attempt.current_id]
    rcases h.locks with hFree | hMine
    · rw [RowLocks.release, hFree]
      rfl
    · exact RowLocks.release_of_owner hMine

section Deliver

variable (relay outcome clock)

theorem Publishing.enter (h : Publishing now row none s) :
    ∃ m, pipelineStep (deliveryConfig relay row.eventName outcome) s (.deliver 0 clock) = some m ∧
      Publishing now row (some ⟨guardedHandler row.eventName, .acquiring, []⟩) m ∧
      m.store = s.store ∧ m.handled = s.handled := by
  have hStep : pipelineStep (deliveryConfig relay row.eventName outcome) s (.deliver 0 clock) =
      s.advance (deliveryConfig relay row.eventName outcome) 0 clock
        (PublishCall.atLoopHead [guardedHandler row.eventName]) := by
    rw [deliver_enter h.phase h.calls]
    simp only [deliveryConfig, LocalEventBus.handlersFor_single, if_true]
    rfl
  exact ⟨_, hStep, ⟨h.rows, h.phase, h.locks, by simp⟩, rfl, rfl⟩

theorem Publishing.acquires
    (h : Publishing now row (some ⟨guardedHandler row.eventName, .acquiring, []⟩) s)
    (hFree : s.store.get ((guardedHandler row.eventName).key row.id) = none) :
    ∃ m, pipelineStep (deliveryConfig relay row.eventName outcome) s (.deliver 0 clock) = some m ∧
      Publishing now row (some ⟨guardedHandler row.eventName, .handling, []⟩) m ∧
      m.store.get ((guardedHandler row.eventName).key row.id) ≠ none ∧ m.handled = s.handled := by
  refine ⟨_, deliver_acquired h.phase h.calls rfl hFree, ⟨h.rows, h.phase, h.locks, by simp⟩, ?_, rfl⟩
  simp [IdempotencyStore.get_put]

theorem Publishing.handles {result : HandlerOutcome}
    (h : Publishing now row (some ⟨guardedHandler row.eventName, .handling, []⟩) s)
    (hOutcome : outcome row.id (s.callCount 0 row.id) = result) :
    ∃ m, pipelineStep (deliveryConfig relay row.eventName outcome) s (.deliver 0 clock) = some m ∧
      Publishing now row (some ⟨guardedHandler row.eventName, .finishing result, []⟩) m ∧
      m.store = s.store ∧ m.handled = s.handled ++ [(0, row.id, result)] :=
  ⟨_, deliver_handled h.phase h.calls rfl hOutcome, ⟨h.rows, h.phase, h.locks, by simp⟩, rfl, rfl⟩

theorem Publishing.raises
    (h : Publishing now row (some ⟨guardedHandler row.eventName, .finishing .raised, []⟩) s) :
    ∃ m, pipelineStep (deliveryConfig relay row.eventName outcome) s (.deliver 0 clock) = some m ∧
      Published (Attempt.mk row .error now clock) m ∧
      m.store.get ((guardedHandler row.eventName).key row.id) ≠ none ∧ m.handled = s.handled := by
  refine ⟨_, (deliver_finished h.phase h.calls).trans
    (congrArg (Option.map _) (relayStep_publishReturns h.phase)), ⟨h.rows, rfl, h.locks, by simp⟩, ?_, rfl⟩
  simp [IdempotencyStore.get_put]

/-- A delivery whose key is in the store is skipped, and the publish returns. -/
theorem Publishing.skips
    (h : Publishing now row (some ⟨guardedHandler row.eventName, .acquiring, []⟩) s)
    (hTaken : s.store.get ((guardedHandler row.eventName).key row.id) ≠ none) :
    ∃ m, pipelineStep (deliveryConfig relay row.eventName outcome) s (.deliver 0 clock) = some m ∧
      Published (Attempt.mk row .ok now clock) m ∧ m.handled = s.handled :=
  ⟨_, (deliver_skipped h.phase h.calls rfl hTaken).trans
    (congrArg (Option.map _) (relayStep_publishReturns h.phase)), ⟨h.rows, rfl, h.locks, by simp⟩, rfl⟩

end Deliver

variable (useSkipLocked outcome clock)

/-- A batch whose handler raises: the row waits for a retry, but its key stays. -/
theorem Quiet.batchFails (h : Quiet row s) (hDue : row.due now = true)
    (hFree : s.store.get ((guardedHandler row.eventName).key row.id) = none)
    (hRaises : outcome row.id (s.callCount 0 row.id) = .raised) :
    ∃ m, exec (pipelineStep (deliveryConfig ⟨useSkipLocked, 1⟩ row.eventName outcome)) s
      (selecting useSkipLocked now row.id ++ (List.replicate 4 (.deliver 0 clock) ++
        [.relay (.count 0), .relay (.commit 0)])) = some m ∧
      Quiet (row.markFailed now) m ∧
      m.store.get ((guardedHandler row.eventName).key row.id) ≠ none ∧
      m.handled = s.handled ++ [(0, row.id, .raised)] := by
  obtain ⟨selected, hSelect, hSelected, hStore, hHandled⟩ :=
    h.select row.eventName outcome useSkipLocked hDue
  obtain ⟨entered, hEnter, hEntered, hStore', hHandled'⟩ := hSelected.enter
    ⟨useSkipLocked, 1⟩ outcome clock
  rw [← hStore, ← hStore'] at hFree
  obtain ⟨acquired, hAcquire, hAcquired, hKey, hSame⟩ := hEntered.acquires
    ⟨useSkipLocked, 1⟩ outcome clock hFree
  rw [hHandled', hHandled] at hSame
  have hCount : acquired.callCount 0 row.id = s.callCount 0 row.id := by
    simp only [PipelineState.callCount, hSame]
  obtain ⟨handled, hHandle, hDone, hKept, hEntry⟩ := hAcquired.handles
    ⟨useSkipLocked, 1⟩ outcome clock (hCount ▸ hRaises)
  obtain ⟨raised, hRaise, hRaised, hMarked, hRaisedEntry⟩ := hDone.raises
    ⟨useSkipLocked, 1⟩ outcome clock
  obtain ⟨m, hCommit, hQuiet, hLast, hLastEntry⟩ := hRaised.commit
    (deliveryConfig ⟨useSkipLocked, 1⟩ row.eventName outcome)
  refine ⟨m, ?_, hQuiet, hLast ▸ hMarked, ?_⟩
  · exact exec_append.mpr ⟨selected, hSelect, exec_append.mpr ⟨raised, exec_cons.mpr ⟨entered, hEnter,
      exec_cons.mpr ⟨acquired, hAcquire, exec_cons.mpr ⟨handled, hHandle,
      exec_cons.mpr ⟨raised, hRaise, rfl⟩⟩⟩⟩, hCommit⟩⟩
  · rw [hLastEntry, hRaisedEntry, hEntry, hSame]

/-- A batch that finds the key skips the handler, and its row becomes SENT. -/
theorem Quiet.batchSkips (h : Quiet row s) (hDue : row.due now = true)
    (hTaken : s.store.get ((guardedHandler row.eventName).key row.id) ≠ none) :
    ∃ m, exec (pipelineStep (deliveryConfig ⟨useSkipLocked, 1⟩ row.eventName outcome)) s
      (selecting useSkipLocked now row.id ++ (List.replicate 2 (.deliver 0 clock) ++
        [.relay (.count 0), .relay (.commit 0)])) = some m ∧
      Quiet (row.markSent clock) m ∧ m.handled = s.handled := by
  obtain ⟨selected, hSelect, hSelected, hStore, hHandled⟩ :=
    h.select row.eventName outcome useSkipLocked hDue
  obtain ⟨entered, hEnter, hEntered, hStore', hHandled'⟩ := hSelected.enter
    ⟨useSkipLocked, 1⟩ outcome clock
  rw [← hStore, ← hStore'] at hTaken
  obtain ⟨skipped, hSkip, hSkipped, hSame⟩ := hEntered.skips
    ⟨useSkipLocked, 1⟩ outcome clock hTaken
  obtain ⟨m, hCommit, hQuiet, hLast, hLastSame⟩ := hSkipped.commit
    (deliveryConfig ⟨useSkipLocked, 1⟩ row.eventName outcome)
  refine ⟨m, ?_, hQuiet, by rw [hLastSame, hSame, hHandled', hHandled]⟩
  exact exec_append.mpr ⟨selected, hSelect, exec_append.mpr ⟨skipped, exec_cons.mpr ⟨entered, hEnter,
    exec_cons.mpr ⟨skipped, hSkip, rfl⟩⟩, hCommit⟩⟩

variable {useSkipLocked clock} in
theorem actor_batch {id : String} {n : Nat} {a : PipelineAction}
    (h : a ∈ selecting useSkipLocked now id ++ (List.replicate n (.deliver 0 clock) ++
      [.relay (.count 0), .relay (.commit 0)])) : a.actor = some 0 := by
  have hSelect : ∀ a ∈ selecting useSkipLocked now id, a.actor = some 0 := by
    cases useSkipLocked <;> simp [selecting, PipelineAction.actor, RelayAction.actor]
  rcases List.mem_append.mp h with h | h
  · exact hSelect a h
  · rcases List.mem_append.mp h with h | h
    · rw [List.eq_of_mem_replicate h]
      rfl
    · rcases List.mem_pair.mp h with rfl | rfl <;> rfl

variable {outcome} in
/-- A first call that raises loses the event: the retry is skipped as a
duplicate and the message is committed as SENT. -/
theorem failed_call_loses (eventName : String) {id : String}
    (hRaises : outcome id 0 = .raised) : ∃ as s, (∀ a ∈ as, ∀ r, a.actor = some r → r ≤ 0) ∧
      exec (pipelineStep (deliveryConfig ⟨useSkipLocked, 1⟩ eventName outcome))
        PipelineState.initial as = some s ∧ ¬ s.NoLoss eventName := by
  let envelope : EventEnvelope := ⟨id, eventName, "", "user", "u-1", 0, [], none⟩
  let row := stageOutbox id 0 envelope
  let staged : PipelineState := { PipelineState.initial with
    relay := { RelayState.initial with table := ⟨[row], List.nodup_singleton _⟩ } }
  have hStage : pipelineStep (deliveryConfig ⟨useSkipLocked, 1⟩ eventName outcome)
      PipelineState.initial (.relay (.stage id 0 envelope)) = some staged := rfl
  have hQuiet : Quiet row staged := ⟨rfl, rfl, rfl, rfl⟩
  have hDue : row.due 0 = true := rfl
  have hRetry : (row.markFailed 0).due (0 + baseBackoff * 2 ^ min (row.attempts + 1) 6) = true :=
    OutboxMessage.due_markFailed rfl (Nat.one_lt_succ_succ 6)
  obtain ⟨first, hFirst, hFailed, hKey, hHandled⟩ :=
    hQuiet.batchFails outcome 0 useSkipLocked hDue rfl hRaises
  obtain ⟨second, hSecond, hSent, hSame⟩ :=
    hFailed.batchSkips outcome 0 useSkipLocked hRetry hKey
  refine ⟨_, second, ?_, exec_cons.mpr ⟨_, hStage, exec_append.mpr ⟨first, hFirst, hSecond⟩⟩, ?_⟩
  · intro a ha r hr
    rcases List.mem_cons.mp ha with rfl | ha
    · cases hr
    · rcases List.mem_append.mp ha with ha | ha <;> rw [actor_batch ha] at hr <;> cases hr <;>
        exact Nat.le_refl 0
  · intro hNoLoss
    have hRow : (row.markFailed 0).markSent 0 ∈ second.relay.table := by
      rw [KeyedTable.mem_def, hSent.rows]
      exact List.mem_singleton_self _
    have hDone := hNoLoss _ hRow rfl rfl
    simp [PipelineState.Succeeded, hSame, hHandled, staged, PipelineState.initial] at hDone

end FailedHandler

/-- Without row locks a second relay skips the event while the first one still
waits for the handler. -/
def skippedWhileRunning : List PipelineAction :=
  [.relay (.stage "m-1" 0 ⟨"e-1", "user.created.v1", "svc", "user", "u-1", 0, [], none⟩),
    .relay (.select 0 5 ["m-1"]), .deliver 0 5, .deliver 0 5, .relay (.select 1 5 ["m-1"]),
    .deliver 1 6, .deliver 1 6, .relay (.count 1), .relay (.commit 1)]

theorem concurrent_skip_loses (outcome : String → Nat → HandlerOutcome) : ∃ s,
    exec (pipelineStep (deliveryConfig ⟨false, 100⟩ "user.created.v1" outcome))
      PipelineState.initial skippedWhileRunning = some s ∧ ¬ s.NoLoss "user.created.v1" := by
  refine ⟨_, rfl, ?_⟩
  intro hNoLoss
  have hDone := hNoLoss _ (List.mem_singleton_self _) rfl rfl
  cases hDone

/-- An event committed as SENT was handled, in every run of any number of
replicas, exactly when the first call of the handler succeeds for every event,
and the replicas lock their rows unless there is only one. -/
theorem sent_means_handled_iff (useSkipLocked : Bool) (others : Nat)
    (outcome : String → Nat → HandlerOutcome) :
    (∀ eventName batchSize as s, (∀ a ∈ as, ∀ r, PipelineAction.actor a = some r → r ≤ others) →
      exec (pipelineStep (deliveryConfig ⟨useSkipLocked, batchSize⟩ eventName outcome))
        PipelineState.initial as = some s → s.NoLoss eventName ∧ s.SkipsDuplicates) ↔
    (useSkipLocked = true ∨ others = 0) ∧ ∀ id, outcome id 0 = .returned := by
  constructor
  · intro h
    constructor
    · by_contra hShared
      obtain ⟨hPlain, hOthers⟩ := not_or.mp hShared
      obtain rfl : useSkipLocked = false := by simpa using hPlain
      obtain ⟨s, run, hLoss⟩ := concurrent_skip_loses outcome
      refine hLoss (h _ _ _ s ?_ run).1
      intro a ha r hr
      have hActor : r ≤ 1 := by
        simp only [skippedWhileRunning, List.mem_cons, List.not_mem_nil, or_false] at ha
        rcases ha with rfl | rfl | rfl | rfl | rfl | rfl | rfl | rfl | rfl <;> cases hr <;> decide
      exact Nat.le_trans hActor (Nat.one_le_iff_ne_zero.mpr hOthers)
    · intro id
      cases hRaises : outcome id 0 with
      | returned => rfl
      | raised =>
          obtain ⟨as, s, hActors, run, hLoss⟩ := failed_call_loses useSkipLocked "user.created.v1" hRaises
          refine absurd (h _ _ as s ?_ run).1 hLoss
          exact fun a ha r hr => Nat.le_trans (hActors a ha r hr) (Nat.zero_le others)
  · rintro ⟨hAlone, hFirst⟩ eventName batchSize as s hActors run
    have inv := delivery_run hAlone hFirst hActors run
    exact ⟨inv.sent, inv.skipsDuplicates⟩

/-- The handler raises at its first call for an event and would then succeed. -/
def failOnce : String → Nat → HandlerOutcome := fun _ n => if n = 0 then .raised else .returned

def lostEvent : List PipelineAction :=
  [.relay (.stage "m-1" 0 ⟨"e-1", "user.created.v1", "svc", "user", "u-1", 0, [], none⟩),
    .relay (.select 0 5 ["m-1"]), .relay (.lock 0), .relay (.lock 0), .deliver 0 5, .deliver 0 5,
    .deliver 0 5, .deliver 0 5, .relay (.count 0), .relay (.commit 0),
    .relay (.select 0 4000005 ["m-1"]), .relay (.lock 0), .relay (.lock 0), .deliver 0 4000005,
    .deliver 0 4000005, .relay (.count 0), .relay (.commit 0)]

theorem sent_without_success : ∃ s,
    exec (pipelineStep (deliveryConfig ⟨true, 100⟩ "user.created.v1" failOnce))
      PipelineState.initial lostEvent = some s ∧
      s.relay.table.rows.map (fun row => (row.id, row.eventName, row.status)) =
        [("m-1", "user.created.v1", .sent)] ∧
      s.handled = [(0, "m-1", .raised)] ∧ ¬ s.NoLoss "user.created.v1" := by
  have hRun : (exec (pipelineStep (deliveryConfig ⟨true, 100⟩ "user.created.v1" failOnce))
      PipelineState.initial lostEvent).map (fun s =>
        (s.relay.table.rows.map (fun row => (row.id, row.eventName, row.status)), s.handled)) =
      some ([("m-1", "user.created.v1", .sent)], [(0, "m-1", .raised)]) := rfl
  obtain ⟨s, run, hSeen⟩ := Option.map_eq_some_iff.mp hRun
  obtain ⟨hRows, hHandled⟩ := Prod.mk.injEq .. ▸ hSeen
  refine ⟨s, run, hRows, hHandled, fun hNoLoss => ?_⟩
  have hMem : ("m-1", "user.created.v1", OutboxStatus.sent) ∈
      s.relay.table.rows.map (fun row => (row.id, row.eventName, row.status)) := by
    rw [hRows]
    exact List.mem_singleton_self _
  obtain ⟨row, hRow, hSame⟩ := List.mem_map.mp hMem
  simp only [Prod.mk.injEq] at hSame
  have hDone := hNoLoss row hRow hSame.2.1 hSame.2.2
  simp [PipelineState.Succeeded, hHandled] at hDone

end ServicePlatform
