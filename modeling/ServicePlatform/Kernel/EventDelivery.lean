import ServicePlatform.Kernel.OutboxDelivery

/-! Whether an event committed as SENT was ever handled. A delivery is skipped
when the store knows its key, and the key is written whatever the handler did,
so a redelivery is skipped after a failure as well. -/
namespace ServicePlatform

open Storage Transition

/-- The one subscription of the event name. -/
def guardedHandler (eventName : String) : Subscription := ⟨eventName, 0, true⟩

def deliveryConfig (relay : RelayConfig) (eventName : String)
    (outcome : String → Nat → HandlerOutcome) : PipelineConfig :=
  ⟨relay, LocalEventBus.single eventName, fun _ => outcome⟩

/-- Nobody else publishes a message that a relay is publishing. -/
def Exclusive (s : RelayState) : Prop :=
  ∀ r r' now now' batch batch' row row' rest rest', s.relays r = .publishing now batch row rest →
    s.relays r' = .publishing now' batch' row' rest' → row.id = row'.id → r = r'

namespace PipelineState

/-- The handler is running for the event. -/
def Running (s : PipelineState) (eventId : String) : Prop :=
  ∃ r call now batch row rest, s.calls r = some call ∧ call.phase = .handling ∧
    s.relay.relays r = .publishing now batch row rest ∧ row.id = eventId

/-- No event of the name is committed as SENT before the handler succeeded. -/
def NoLoss (eventName : String) (s : PipelineState) : Prop :=
  ∀ row ∈ s.relay.table, row.eventName = eventName → row.status = .sent → s.Succeeded 0 row.id

/-- A delivery that finds its key in the store is a duplicate. -/
def SkipsDuplicates (s : PipelineState) : Prop :=
  ∀ r call now batch row rest, s.calls r = some call → call.phase = .acquiring →
    s.relay.relays r = .publishing now batch row rest →
    s.store.get (call.sub.key row.id) ≠ none → s.Succeeded call.sub.handler row.id ∨ s.Running row.id

end PipelineState

variable {relay : RelayConfig} {eventName : String} {outcome : String → Nat → HandlerOutcome}
  {s s' : PipelineState}

/-- Why the handler has succeeded for every event that counts as delivered,
when it succeeds at the first call for each event. -/
structure DeliveryInv (eventName : String) (s : PipelineState) : Prop where
  traceable : Traceable s.relay
  retried : ∀ id o, (0, id, o) ∈ s.handled → s.Succeeded 0 id
  keyed : ∀ id, s.store.get ((guardedHandler eventName).key id) ≠ none →
    s.Succeeded 0 id ∨ s.Running id
  calls : ∀ r call, s.calls r = some call → call.sub = guardedHandler eventName ∧ call.rest = [] ∧
    ∃ now batch row rest, s.relay.relays r = .publishing now batch row rest ∧
      row.eventName = eventName ∧ (∀ o, call.phase = .finishing o → s.Succeeded 0 row.id)
  batch : ∀ r, ∀ attempt ∈ (s.relay.relays r).batch, attempt.loaded.eventName = eventName →
    attempt.outcome = .ok → s.Succeeded 0 attempt.loaded.id
  sent : s.NoLoss eventName

theorem deliveryInv_initial : DeliveryInv eventName PipelineState.initial where
  traceable := traceable_initial
  retried := by
    intro id o h
    cases h
  keyed := fun id h => absurd rfl h
  calls := by
    intro r call h
    cases h
  batch := by
    intro r attempt h
    cases h
  sent := fun row h => absurd h (KeyedTable.not_mem_empty row)

/-- A step of the relays outside a publish. -/
theorem DeliveryInv.relayStep (inv : DeliveryInv eventName s) {a : RelayAction} {t : RelayState}
    (hOutside : s.outside a = true) (h : relayStep relay s.relay a = some t) :
    DeliveryInv eventName { s with relay := t } := by
  have move := relayMove_of_step h
  have hReturns : ∀ r outcome clock, a ≠ .publishReturns r outcome clock := by
    rintro r outcome clock rfl
    cases hOutside
  have stays {r : RelayId} {call : PublishCall} (hCall : s.calls r = some call) {now : DateTime}
      {batch : List Attempt} {row : OutboxMessage} {rest : List OutboxMessage}
      (hPhase : s.relay.relays r = .publishing now batch row rest) :
      t.relays r = .publishing now batch row rest := by
    refine move.publishing_stays hPhase ?_ (hReturns r)
    rintro rfl
    simp [PipelineState.outside, hCall] at hOutside
  constructor
  · exact inv.traceable.move move
  · exact inv.retried
  · intro id hKey
    rcases inv.keyed id hKey with hDone | ⟨r, call, now, batch, row, rest, hCall, hRun, hPhase, hId⟩
    · exact Or.inl hDone
    · exact Or.inr ⟨r, call, now, batch, row, rest, hCall, hRun, stays hCall hPhase, hId⟩
  · intro r call hCall
    obtain ⟨hSub, hRest, now, batch, row, rest, hPhase, hName, hFinishing⟩ := inv.calls r call hCall
    exact ⟨hSub, hRest, now, batch, row, rest, stays hCall hPhase, hName, hFinishing⟩
  · intro r attempt hAttempt
    exact inv.batch r attempt (move.batch_old hReturns hAttempt)
  · intro row hRow hName hSent
    rcases move.sent_origin hRow hSent with ⟨before, hBefore, hSame, hOld⟩ |
      ⟨r, attempt, hAttempt, before, hBefore, hSame, hId, hOk⟩
    · rw [← OutboxMessage.id_of_content hSame]
      exact inv.sent before hBefore ((congrArg OutboxMessage.Content.eventName hSame).trans hName) hOld
    · obtain ⟨stored, hStored, hContent⟩ :=
        inv.traceable.loaded r attempt.loaded (RelayPhase.loaded_of_mem_batch hAttempt)
      have hStoredId : stored.id = before.id := (OutboxMessage.id_of_content hContent).trans hId
      obtain rfl := KeyedTable.eq_of_key hStored hBefore hStoredId
      have hLoaded : attempt.loaded.eventName = eventName :=
        (congrArg OutboxMessage.Content.eventName (hContent.symm.trans hSame)).trans hName
      rw [← OutboxMessage.id_of_content hSame, ← hId]
      exact inv.batch r attempt hAttempt hLoaded hOk

/-- The end of a publish whose return, for an event of the name, means that
the handler succeeded. -/
theorem DeliveryInv.publishEnds (inv : DeliveryInv eventName s) {r : RelayId}
    {now clock : DateTime} {batch : List Attempt} {row : OutboxMessage} {rest : List OutboxMessage}
    (hPhase : s.relay.relays r = .publishing now batch row rest) {result : PublishOutcome}
    (hOk : row.eventName = eventName → result = .ok → s.Succeeded 0 row.id)
    (hRun : ∀ call, s.calls r = some call → call.phase ≠ .handling) {t : RelayState}
    (h : ServicePlatform.relayStep relay s.relay (.publishReturns r result clock) = some t) :
    DeliveryInv eventName { s with relay := t, calls := Function.update s.calls r none } := by
  have move := relayMove_of_step h
  rw [relayStep_publishReturns hPhase] at h
  obtain rfl := Option.some.inj h
  have others {r' : RelayId} (hr : r' ≠ r) : (RelayState.enterLoop
      { s.relay with returned := s.relay.returned ++ [(row.id, result)] } r now
      (batch ++ [Attempt.mk row result now clock]) rest).relays r' = s.relay.relays r' :=
    RelayState.enterLoop_of_ne _ _ _ _ hr
  constructor
  · exact inv.traceable.move move
  · exact inv.retried
  · intro id hKey
    rcases inv.keyed id hKey with hDone | ⟨r', call, now', batch', row', rest', hCall, hRunning, hPhase', hId⟩
    · exact Or.inl hDone
    · have hr : r' ≠ r := by
        rintro rfl
        exact hRun call hCall hRunning
      refine Or.inr ⟨r', call, now', batch', row', rest', ?_, hRunning, (others hr).trans hPhase', hId⟩
      exact (Function.update_of_ne hr ..).trans hCall
  · intro r' call hCall
    by_cases hr : r' = r
    · subst hr
      simp at hCall
    · change Function.update s.calls r none r' = some call at hCall
      rw [Function.update_of_ne hr] at hCall
      obtain ⟨hSub, hRest, now', batch', row', rest', hPhase', hName, hFinishing⟩ :=
        inv.calls r' call hCall
      exact ⟨hSub, hRest, now', batch', row', rest', (others hr).trans hPhase', hName, hFinishing⟩
  · intro r' attempt hAttempt hName hSuccess
    by_cases hr : r' = r
    · subst hr
      change attempt ∈ (RelayState.relays (RelayState.enterLoop _ _ _ _ _) r').batch at hAttempt
      rw [RelayState.enterLoop_self, RelayPhase.batch_atLoopHead] at hAttempt
      rcases List.mem_append.mp hAttempt with hOld | hNew
      · refine inv.batch r' attempt ?_ hName hSuccess
        rw [hPhase]
        exact hOld
      · rw [List.mem_singleton.mp hNew] at hName hSuccess ⊢
        exact hOk hName hSuccess
    · change attempt ∈ (RelayState.relays (RelayState.enterLoop _ _ _ _ _) r').batch at hAttempt
      rw [others hr] at hAttempt
      exact inv.batch r' attempt hAttempt hName hSuccess
  · exact inv.sent

/-- The call of a relay comes to its next await. -/
theorem DeliveryInv.awaits (inv : DeliveryInv eventName s) {r : RelayId} {now : DateTime}
    {batch : List Attempt} {row : OutboxMessage} {rest : List OutboxMessage}
    (hPhase : s.relay.relays r = .publishing now batch row rest) (hName : row.eventName = eventName)
    {store : IdempotencyStore String} {handled : List (HandlerId × String × HandlerOutcome)}
    {phase : GuardedPhase}
    (hGrows : ∀ id, s.Succeeded 0 id → (0, id, HandlerOutcome.returned) ∈ handled)
    (hRetried : ∀ id o, (0, id, o) ∈ handled → (0, id, HandlerOutcome.returned) ∈ handled)
    (hKeyed : ∀ id, store.get ((guardedHandler eventName).key id) ≠ none →
      s.store.get ((guardedHandler eventName).key id) ≠ none ∨ id = row.id ∧ phase = .handling)
    (hRun : ∀ call, s.calls r = some call → call.phase = .handling →
      (0, row.id, HandlerOutcome.returned) ∈ handled)
    (hFinishing : ∀ o, phase = .finishing o → (0, row.id, HandlerOutcome.returned) ∈ handled) :
    DeliveryInv eventName { s with
      store := store
      handled := handled
      calls := Function.update s.calls r (some ⟨guardedHandler eventName, phase, []⟩) } := by
  constructor
  · exact inv.traceable
  · exact hRetried
  · intro id hKey
    rcases hKeyed id hKey with hKey | ⟨rfl, rfl⟩
    · rcases inv.keyed id hKey with hDone | ⟨r', call, now', batch', row', rest', hCall, hRunning, hPhase', rfl⟩
      · exact Or.inl (hGrows id hDone)
      · by_cases hr : r' = r
        · subst hr
          rw [hPhase] at hPhase'
          cases hPhase'
          exact Or.inl (hRun call hCall hRunning)
        · refine Or.inr ⟨r', call, now', batch', row', rest', ?_, hRunning, hPhase', rfl⟩
          exact (Function.update_of_ne hr ..).trans hCall
    · exact Or.inr ⟨r, _, now, batch, row, rest, Function.update_self .., rfl, hPhase, rfl⟩
  · intro r' call hCall
    by_cases hr : r' = r
    · subst hr
      change Function.update s.calls r' _ r' = some call at hCall
      rw [Function.update_self] at hCall
      cases hCall
      exact ⟨rfl, rfl, now, batch, row, rest, hPhase, hName, hFinishing⟩
    · change Function.update s.calls r _ r' = some call at hCall
      rw [Function.update_of_ne hr] at hCall
      obtain ⟨hSub, hRest, now', batch', row', rest', hPhase', hName', hFinishing'⟩ :=
        inv.calls r' call hCall
      exact ⟨hSub, hRest, now', batch', row', rest', hPhase', hName', fun o ho => hGrows _ (hFinishing' o ho)⟩
  · exact fun r' attempt hAttempt hName' hSuccess => hGrows _ (inv.batch r' attempt hAttempt hName' hSuccess)
  · exact fun stored hStored hName' hSent => hGrows _ (inv.sent stored hStored hName' hSent)

theorem DeliveryInv.skipsDuplicates (inv : DeliveryInv eventName s) : s.SkipsDuplicates := by
  intro r call now batch row rest hCall _ hPhase hKey
  obtain ⟨hSub, -⟩ := inv.calls r call hCall
  rw [hSub] at hKey ⊢
  exact inv.keyed row.id hKey

/-- The call of the subscription does not run its handler in another phase. -/
theorem not_handling {r : RelayId} {call : PublishCall} (hCall : s.calls r = some call)
    (hIdle : call.phase ≠ .handling) : ∀ other, s.calls r = some other → other.phase ≠ .handling := by
  intro other hOther
  rw [hCall] at hOther
  cases hOther
  exact hIdle

section Resume

variable {r : RelayId} {now clock : DateTime} {batch : List Attempt} {row : OutboxMessage}
  {rest : List OutboxMessage}

/-- A call takes the key, or skips an event whose key is taken. -/
theorem DeliveryInv.acquire (inv : DeliveryInv eventName s) (hExclusive : Exclusive s.relay)
    (hPhase : s.relay.relays r = .publishing now batch row rest) (hName : row.eventName = eventName)
    (hCall : s.calls r = some ⟨guardedHandler eventName, .acquiring, []⟩)
    (h : pipelineStep (deliveryConfig relay eventName outcome) s (.deliver r clock) = some s') :
    DeliveryInv eventName s' := by
  have hIdle := not_handling hCall (by simp)
  by_cases hFree : s.store.get ((guardedHandler eventName).key row.id) = none
  · rw [deliver_acquired hPhase hCall rfl hFree] at h
    obtain rfl := Option.some.inj h
    refine inv.awaits hPhase hName (fun id h => h) inv.retried ?_ ?_ ?_
    · intro id hKey
      rw [IdempotencyStore.get_put] at hKey
      split at hKey
      · next hSame => exact Or.inr ⟨Subscription.key_injective _ hSame, rfl⟩
      · exact Or.inl hKey
    · exact fun call hOld hRunning => absurd hRunning (hIdle call hOld)
    · intro o hFinishing
      cases hFinishing
  · have hDone : s.Succeeded 0 row.id := by
      rcases inv.keyed row.id hFree with hDone |
        ⟨r', call, now', batch', row', rest', hCall', hRunning, hPhase', hId⟩
      · exact hDone
      · obtain rfl := hExclusive _ _ _ _ _ _ _ _ _ _ hPhase' hPhase hId
        exact absurd hRunning (hIdle call hCall')
    rw [deliver_skipped hPhase hCall rfl hFree] at h
    obtain ⟨t, hStep, rfl⟩ := Option.map_eq_some_iff.mp h
    exact inv.publishEnds hPhase (fun _ _ => hDone) hIdle hStep

/-- The handler succeeds, now or in an earlier call. -/
theorem DeliveryInv.handle (inv : DeliveryInv eventName s) (hFirst : ∀ id, outcome id 0 = .returned)
    (hPhase : s.relay.relays r = .publishing now batch row rest) (hName : row.eventName = eventName)
    (hCall : s.calls r = some ⟨guardedHandler eventName, .handling, []⟩)
    (h : pipelineStep (deliveryConfig relay eventName outcome) s (.deliver r clock) = some s') :
    DeliveryInv eventName s' := by
  rw [deliver_handled hPhase hCall rfl rfl] at h
  obtain rfl := Option.some.inj h
  have hDone : (0, row.id, HandlerOutcome.returned) ∈
      s.handled ++ [(0, row.id, outcome row.id (s.callCount 0 row.id))] := by
    by_cases hNew : s.callCount 0 row.id = 0
    · rw [hNew, hFirst]
      exact List.mem_append_right _ (List.mem_singleton_self _)
    · obtain ⟨⟨handler, id, o⟩, hEntry, hMatch⟩ := List.countP_pos_iff.mp (Nat.pos_of_ne_zero hNew)
      simp only [Bool.and_eq_true, decide_eq_true_eq] at hMatch
      obtain ⟨rfl, rfl⟩ := hMatch
      exact List.mem_append_left _ (inv.retried _ o hEntry)
  refine inv.awaits hPhase hName (fun id h => List.mem_append_left _ h) ?_ (fun id h => Or.inl h)
    (fun _ _ _ => hDone) (fun _ _ => hDone)
  intro id o hEntry
  rcases List.mem_append.mp hEntry with hOld | hNew
  · exact List.mem_append_left _ (inv.retried id o hOld)
  · cases List.mem_singleton.mp hNew
    exact hDone

/-- A call that ends marks the key of an event that its handler has handled. -/
theorem DeliveryInv.finish (inv : DeliveryInv eventName s)
    (hPhase : s.relay.relays r = .publishing now batch row rest) {result : HandlerOutcome}
    (hCall : s.calls r = some ⟨guardedHandler eventName, .finishing result, []⟩)
    (h : pipelineStep (deliveryConfig relay eventName outcome) s (.deliver r clock) = some s') :
    DeliveryInv eventName s' := by
  have hIdle := not_handling hCall (by simp)
  have hDone : s.Succeeded 0 row.id := by
    obtain ⟨-, -, now', batch', row', rest', hPhase', -, hFinishing⟩ := inv.calls r _ hCall
    rw [hPhase] at hPhase'
    cases hPhase'
    exact hFinishing result rfl
  have inv' : DeliveryInv eventName
      { s with store := s.store.put ((guardedHandler eventName).key row.id) "done" } := by
    refine ⟨inv.traceable, inv.retried, ?_, inv.calls, inv.batch, inv.sent⟩
    intro id hKey
    rw [IdempotencyStore.get_put] at hKey
    split at hKey
    · next hSame =>
        rw [Subscription.key_injective _ hSame]
        exact Or.inl hDone
    · exact inv.keyed id hKey
  rw [deliver_finished hPhase hCall] at h
  cases result with
  | returned =>
      obtain ⟨t, hStep, rfl⟩ := Option.map_eq_some_iff.mp h
      exact inv'.publishEnds hPhase (fun _ _ => hDone) hIdle hStep
  | raised =>
      obtain ⟨t, hStep, rfl⟩ := Option.map_eq_some_iff.mp h
      exact inv'.publishEnds hPhase (fun _ _ => hDone) hIdle hStep

/-- The next step of a guarded call of the handler. -/
theorem DeliveryInv.resume (inv : DeliveryInv eventName s) (hFirst : ∀ id, outcome id 0 = .returned)
    (hExclusive : Exclusive s.relay)
    (hPhase : s.relay.relays r = .publishing now batch row rest) (hName : row.eventName = eventName)
    {phase : GuardedPhase} (hCall : s.calls r = some ⟨guardedHandler eventName, phase, []⟩)
    (h : pipelineStep (deliveryConfig relay eventName outcome) s (.deliver r clock) = some s') :
    DeliveryInv eventName s' := by
  cases phase with
  | acquiring => exact inv.acquire hExclusive hPhase hName hCall h
  | handling => exact inv.handle hFirst hPhase hName hCall h
  | finishing result => exact inv.finish hPhase hCall h

end Resume

theorem DeliveryInv.step (inv : DeliveryInv eventName s) (hFirst : ∀ id, outcome id 0 = .returned)
    (hExclusive : Exclusive s.relay) {a : PipelineAction}
    (h : pipelineStep (deliveryConfig relay eventName outcome) s a = some s') :
    DeliveryInv eventName s' := by
  cases a with
  | relay b =>
      simp only [pipelineStep] at h
      split at h
      · next hOutside =>
          obtain ⟨t, hStep, rfl⟩ := Option.map_eq_some_iff.mp h
          exact inv.relayStep hOutside hStep
      · cases h
  | deliver r clock =>
      cases hCall : s.calls r with
      | some call =>
          obtain ⟨hSub, hRest, now, batch, row, rest, hPhase, hName, -⟩ := inv.calls r call hCall
          obtain ⟨sub, phase, remaining⟩ := call
          obtain rfl : sub = guardedHandler eventName := hSub
          obtain rfl : remaining = [] := hRest
          exact inv.resume hFirst hExclusive hPhase hName hCall h
      | none =>
          have hIdle : ∀ call, s.calls r = some call → call.phase ≠ .handling := by
            intro call hOld
            rw [hCall] at hOld
            cases hOld
          simp only [pipelineStep, hCall] at h
          split at h
          · next now batch row rest hPhase =>
              simp only [deliveryConfig, LocalEventBus.handlersFor_single] at h
              split at h
              · next hName =>
                  obtain rfl := Option.some.inj h
                  refine inv.awaits hPhase hName (fun id h => h) inv.retried (fun id h => Or.inl h) ?_ ?_
                  · exact fun call hOld hRunning => absurd hRunning (hIdle call hOld)
                  · intro o hFinishing
                    cases hFinishing
              · next hName =>
                  obtain ⟨t, hStep, rfl⟩ := Option.map_eq_some_iff.mp h
                  exact inv.publishEnds hPhase (fun hSame _ => absurd hSame hName) hIdle hStep
          · cases h
  | expire key =>
      obtain rfl := Option.some.inj h
      refine ⟨inv.traceable, inv.retried, ?_, inv.calls, inv.batch, inv.sent⟩
      intro id hKey
      rw [IdempotencyStore.get_expire] at hKey
      split at hKey
      · exact absurd rfl hKey
      · exact inv.keyed id hKey

/-- With row locks, or with one relay, nobody publishes the same message. -/
structure Replicas (useSkipLocked : Bool) (others : Nat) (s : RelayState) : Prop where
  locked : useSkipLocked = true → LockInv s
  absent : ∀ r, others < r → s.relays r = .idle

theorem Replicas.initial (useSkipLocked : Bool) (others : Nat) :
    Replicas useSkipLocked others RelayState.initial :=
  ⟨fun _ => lockInv_initial, fun _ _ => rfl⟩

theorem Replicas.exclusive {useSkipLocked : Bool} {others : Nat} {t : RelayState}
    (h : Replicas useSkipLocked others t) (alone : useSkipLocked = true ∨ others = 0) :
    Exclusive t := by
  intro r r' now now' batch batch' row row' rest rest' hPhase hPhase' hId
  rcases alone with hSkip | rfl
  · exact (h.locked hSkip).publishing_unique hPhase hPhase' hId
  · have zero {k : RelayId} {phase : RelayPhase} (hk : t.relays k = phase) (hBusy : phase ≠ .idle) :
        k = 0 := by
      by_contra hPos
      exact hBusy (hk.symm.trans (h.absent k (Nat.pos_of_ne_zero hPos)))
    rw [zero hPhase (by simp), zero hPhase' (by simp)]

theorem Replicas.step {others : Nat} (config : PipelineConfig) {a : PipelineAction}
    (h : Replicas config.relay.useSkipLocked others s.relay)
    (hActor : ∀ r, a.actor = some r → r ≤ others) (step : pipelineStep config s a = some s') :
    Replicas config.relay.useSkipLocked others s'.relay := by
  rcases pipelineStep_relay step with hSame | ⟨b, hActor', hStep⟩
  · rw [hSame]
    exact h
  · have move := relayMove_of_step hStep
    refine ⟨fun hSkip => (h.locked hSkip).move hSkip move, fun r hr => ?_⟩
    rw [move.others, h.absent r hr]
    intro hSelf
    exact absurd hr (Nat.not_lt.mpr (hActor r (hActor'.symm.trans hSelf)))

theorem delivery_run {useSkipLocked : Bool} {batchSize others : Nat}
    (alone : useSkipLocked = true ∨ others = 0) (hFirst : ∀ id, outcome id 0 = .returned)
    {as : List PipelineAction} (hActors : ∀ a ∈ as, ∀ r, a.actor = some r → r ≤ others)
    (run : exec (pipelineStep (deliveryConfig ⟨useSkipLocked, batchSize⟩ eventName outcome))
      PipelineState.initial as = some s) : DeliveryInv eventName s := by
  have keep : ∀ t a t', (Replicas useSkipLocked others t.relay ∧ DeliveryInv eventName t) →
      (∀ r, a.actor = some r → r ≤ others) →
      pipelineStep (deliveryConfig ⟨useSkipLocked, batchSize⟩ eventName outcome) t a = some t' →
      Replicas useSkipLocked others t'.relay ∧ DeliveryInv eventName t' := by
    intro t a t' inv ha h
    exact ⟨inv.1.step (deliveryConfig ⟨useSkipLocked, batchSize⟩ eventName outcome) ha h,
      inv.2.step hFirst (inv.1.exclusive alone) h⟩
  exact (invariant_along keep ⟨Replicas.initial .., deliveryInv_initial⟩
    (along_of_forall (fun a ha _ => hActors a ha) _) run).2

end ServicePlatform
