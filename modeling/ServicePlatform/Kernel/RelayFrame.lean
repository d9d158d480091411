import ServicePlatform.Kernel.RelaySystem

/-! What a step of one relay leaves alone: the other relays, a publish under
way, the attempts recorded so far, and the status of the rows. -/
namespace ServicePlatform

open Storage Transition

variable {config : RelayConfig} {s s' : RelayState} {a : RelayAction}

theorem relayStep_publishReturns {r : RelayId} {outcome : PublishOutcome} {clock now : DateTime}
    {batch : List Attempt} {row : OutboxMessage} {rest : List OutboxMessage}
    (h : s.relays r = .publishing now batch row rest) :
    relayStep config s (.publishReturns r outcome clock) =
      some ({ s with returned := s.returned ++ [(row.id, outcome)] }.enterLoop r now
        (batch ++ [Attempt.mk row outcome now clock]) rest) := by
  simp only [relayStep, h]

/-- A step of one relay leaves the others where they are. -/
theorem RelayMove.others (move : RelayMove config s a s') {r : RelayId} (h : a.actor ≠ some r) :
    s'.relays r = s.relays r := by
  have ne {r' : RelayId} (h : some r' ≠ some r) : r ≠ r' := fun he => h (congrArg some he.symm)
  cases move with
  | stage row table persisted inserted => rfl
  | select hIdle hOrder hSkip => exact RelayState.setPhase_of_ne _ _ (ne h)
  | selectPlain hIdle hOrder hSkip => exact RelayState.enterLoop_of_ne _ _ _ _ (ne h)
  | lockEnd hPhase => exact RelayState.enterLoop_of_ne _ _ _ _ (ne h)
  | lockSkip hPhase => exact RelayState.setPhase_of_ne _ _ (ne h)
  | lockRow row hPhase hFree hFind hDue => exact RelayState.setPhase_of_ne _ _ (ne h)
  | publishReturns hPhase => exact RelayState.enterLoop_of_ne _ _ _ _ (ne h)
  | count gauge hPhase => exact RelayState.setPhase_of_ne _ _ (ne h)
  | commit results hPhase => exact RelayState.setPhase_of_ne _ _ (ne h)
  | crash hOpen => exact RelayState.setPhase_of_ne _ _ (ne h)

/-- A relay that waits for a publish is woken by nothing else. -/
theorem RelayMove.publishing_stays (move : RelayMove config s a s') {r : RelayId} {now : DateTime}
    {batch : List Attempt} {row : OutboxMessage} {rest : List OutboxMessage}
    (h : s.relays r = .publishing now batch row rest) (hCrash : a ≠ .crash r)
    (hReturns : ∀ outcome clock, a ≠ .publishReturns r outcome clock) :
    s'.relays r = .publishing now batch row rest := by
  by_cases hr : a.actor = some r
  · cases move with
    | stage staged table persisted inserted => exact h
    | publishReturns hPhase =>
        cases hr
        exact absurd rfl (hReturns _ _)
    | crash hOpen =>
        cases hr
        exact absurd rfl hCrash
    | select hPhase _ _ | selectPlain hPhase _ _ | lockEnd hPhase | lockSkip hPhase
    | lockRow _ hPhase _ _ _ | count _ hPhase | commit _ hPhase =>
        cases hr
        rw [h] at hPhase
        cases hPhase
  · rw [move.others hr]
    exact h

/-- Only a publish that returns adds an attempt to a batch. -/
theorem RelayMove.batch_old (move : RelayMove config s a s')
    (hReturns : ∀ r outcome clock, a ≠ .publishReturns r outcome clock) {r : RelayId}
    {attempt : Attempt} (h : attempt ∈ (s'.relays r).batch) : attempt ∈ (s.relays r).batch := by
  have keep {actor : RelayId} {phase : RelayPhase} {t : RelayState} (ht : t.relays = s.relays)
      (hIn : attempt ∈ ((t.setPhase actor phase).relays r).batch)
      (hPhase : attempt ∈ phase.batch → attempt ∈ (s.relays actor).batch) :
      attempt ∈ (s.relays r).batch := by
    by_cases hr : r = actor
    · subst hr
      rw [RelayState.setPhase_self] at hIn
      exact hPhase hIn
    · rw [RelayState.setPhase_of_ne t phase hr, ht] at hIn
      exact hIn
  cases move with
  | stage row table persisted inserted => exact h
  | select hIdle hOrder hSkip => exact keep rfl h (fun hm => by cases hm)
  | selectPlain hIdle hOrder hSkip =>
      refine keep rfl h (fun hm => ?_)
      rw [RelayPhase.batch_atLoopHead] at hm
      cases hm
  | lockEnd hPhase =>
      refine keep rfl h (fun hm => ?_)
      rw [RelayPhase.batch_atLoopHead] at hm
      cases hm
  | lockSkip hPhase => exact keep rfl h (fun hm => by cases hm)
  | lockRow row hPhase hFree hFind hDue => exact keep rfl h (fun hm => by cases hm)
  | publishReturns hPhase => exact absurd rfl (hReturns _ _ _)
  | count gauge hPhase =>
      refine keep rfl h (fun hm => ?_)
      rw [hPhase]
      exact hm
  | commit results hPhase => exact keep rfl h (fun hm => by cases hm)
  | crash hOpen => exact keep rfl h (fun hm => by cases hm)

/-- The commit of a batch makes a row SENT only for a publish that returned. -/
theorem OutboxTable.storeRow_sent {batch : List Attempt} {row : OutboxMessage}
    (h : (OutboxTable.storeRow batch row).status = .sent) : row.status = .sent ∨
      ∃ attempt ∈ batch, attempt.loaded.id = row.id ∧ attempt.outcome = .ok := by
  unfold OutboxTable.storeRow at h
  split at h
  · next attempt hFind =>
      by_cases hSame : attempt.current.status = attempt.loaded.status
      · left
        simpa [OutboxMessage.flush, hSame] using h
      · right
        refine ⟨attempt, List.mem_of_find?_eq_some hFind, by simpa using List.find?_some hFind, ?_⟩
        cases hOutcome : attempt.outcome with
        | ok => rfl
        | error =>
            simp only [OutboxMessage.flush, if_neg hSame] at h
            simp only [Attempt.current, hOutcome, OutboxMessage.markFailed] at h hSame
            split at h
            · cases h
            · next hMore =>
                rw [if_neg hMore] at hSame
                exact absurd rfl hSame
  · exact Or.inl h

theorem RelayMove.sent_origin (move : RelayMove config s a s') {row : OutboxMessage}
    (h : row ∈ s'.table) (hSent : row.status = .sent) :
    (∃ before ∈ s.table, before.content = row.content ∧ before.status = .sent) ∨
      ∃ r, ∃ attempt ∈ (s.relays r).batch, ∃ before ∈ s.table, before.content = row.content ∧
        attempt.loaded.id = before.id ∧ attempt.outcome = .ok := by
  cases move with
  | stage staged table persisted inserted =>
      rcases (KeyedTable.mem_insert inserted).mp h with h | rfl
      · exact Or.inl ⟨row, h, rfl, hSent⟩
      · simp only [OutboxMessage.persist, Option.bind_eq_some_iff, Option.map_eq_some_iff] at persisted
        obtain ⟨payload, -, headers, -, rfl⟩ := persisted
        cases hSent
  | @commit r batch results hPhase =>
      obtain ⟨before, hBefore, rfl⟩ := OutboxTable.mem_applyBatch.mp h
      rcases OutboxTable.storeRow_sent hSent with hOld | ⟨attempt, hAttempt, hId, hOk⟩
      · exact Or.inl ⟨before, hBefore, (OutboxTable.storeRow_content _ _).symm, hOld⟩
      · refine Or.inr ⟨r, attempt, ?_, before, hBefore, (OutboxTable.storeRow_content _ _).symm,
          hId, hOk⟩
        rw [hPhase]
        exact hAttempt
  | _ => exact Or.inl ⟨row, h, rfl, hSent⟩

end ServicePlatform
