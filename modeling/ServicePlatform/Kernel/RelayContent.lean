import ServicePlatform.Kernel.RelaySystem

/-! What a relay publishes is the content some business transaction staged.
This holds with and without row locks: rows are never deleted, the relay only
writes the delivery columns, and an envelope is built from the others. -/
namespace ServicePlatform

open Storage Transition

variable {config : RelayConfig} {s s' : RelayState} {a : RelayAction}

/-- Every row stays, with the content it was staged with. -/
theorem RelayMove.retains (move : RelayMove config s a s') {row : OutboxMessage}
    (h : row ∈ s.table) : ∃ stored ∈ s'.table, stored.content = row.content := by
  cases move with
  | stage staged table persisted inserted =>
      exact ⟨row, (KeyedTable.mem_insert inserted).mpr (Or.inl h), rfl⟩
  | commit results hPhase =>
      exact ⟨_, OutboxTable.mem_applyBatch.mpr ⟨row, h, rfl⟩, OutboxTable.storeRow_content _ _⟩
  | _ => exact ⟨row, h, rfl⟩

/-- A relay loads rows from the committed table only. -/
theorem RelayMove.loaded (move : RelayMove config s a s') {r : RelayId} {row : OutboxMessage}
    (h : row ∈ (s'.relays r).loaded) : row ∈ (s.relays r).loaded ∨ row ∈ s.table := by
  have keep {actor : RelayId} {phase : RelayPhase} {t : RelayState} (ht : t.relays = s.relays)
      (hRow : row ∈ ((t.setPhase actor phase).relays r).loaded)
      (hPhase : row ∈ phase.loaded → row ∈ (s.relays actor).loaded ∨ row ∈ s.table) :
      row ∈ (s.relays r).loaded ∨ row ∈ s.table := by
    by_cases hr : r = actor
    · subst hr
      rw [RelayState.setPhase_self] at hRow
      exact hPhase hRow
    · rw [RelayState.setPhase_of_ne t phase hr, ht] at hRow
      exact Or.inl hRow
  cases move with
  | stage staged table persisted inserted => exact Or.inl h
  | select hIdle hOrder hSkip => exact keep rfl h (fun hm => by cases hm)
  | @selectPlain actor now order hIdle hOrder hSkip =>
      refine keep rfl h (fun hm => Or.inr ?_)
      rw [RelayPhase.loaded_atLoopHead] at hm
      obtain ⟨k, -, hk⟩ := List.mem_filterMap.mp (List.mem_of_mem_take hm)
      exact (KeyedTable.find_eq_some.mp hk).1
  | lockEnd hPhase =>
      refine keep rfl h (fun hm => Or.inl ?_)
      rw [RelayPhase.loaded_atLoopHead] at hm
      rw [hPhase]
      exact hm
  | lockSkip hPhase =>
      refine keep rfl h (fun hm => Or.inl ?_)
      rw [hPhase]
      exact hm
  | lockRow found hPhase hFree hFind hDue =>
      refine keep rfl h (fun hm => ?_)
      rcases List.mem_append.mp hm with hm | hm
      · rw [hPhase]
        exact Or.inl hm
      · rw [List.mem_singleton.mp hm]
        exact Or.inr (KeyedTable.find_eq_some.mp hFind).1
  | publishReturns hPhase =>
      refine keep rfl h (fun hm => Or.inl ?_)
      rw [RelayPhase.loaded_atLoopHead] at hm
      rw [hPhase]
      simpa [RelayPhase.loaded] using hm
  | count gauge hPhase =>
      refine keep rfl h (fun hm => Or.inl ?_)
      rw [hPhase]
      exact hm
  | commit results hPhase => exact keep rfl h (fun hm => by cases hm)
  | crash hOpen => exact keep rfl h (fun hm => by cases hm)

/-- A step begins at most one call. It is for a row its relay now waits on,
and that step leaves the table alone. -/
theorem RelayMove.begun (move : RelayMove config s a s') : s'.begun = s.begun ∨
    ∃ call, s'.begun = s.begun ++ [call] ∧ s'.table = s.table ∧
      ∃ row ∈ (s'.relays call.1).loaded, row.toEnvelope = call.2 := by
  have enter {t : RelayState} {r : RelayId} {now : DateTime} {batch : List Attempt}
      {rows : List OutboxMessage} (hTable : t.table = s.table) :
      (t.enterLoop r now batch rows).begun = t.begun ∨
        ∃ call, (t.enterLoop r now batch rows).begun = t.begun ++ [call] ∧
          (t.enterLoop r now batch rows).table = s.table ∧
          ∃ row ∈ ((t.enterLoop r now batch rows).relays call.1).loaded,
            row.toEnvelope = call.2 := by
    cases rows with
    | nil => exact Or.inl (List.append_nil _)
    | cons row rest =>
        refine Or.inr ⟨(r, row.toEnvelope), rfl, hTable, row, ?_, rfl⟩
        rw [RelayState.enterLoop_self, RelayPhase.loaded_atLoopHead]
        exact List.mem_append_right _ (List.mem_cons_self ..)
  cases move with
  | selectPlain hIdle hOrder hSkip => exact enter rfl
  | lockEnd hPhase => exact enter rfl
  | @publishReturns r outcome clock now batch row rest hPhase =>
      exact enter (t := { s with returned := s.returned ++ [(row.id, outcome)] }) rfl
  | _ => exact Or.inl rfl

/-- Loaded rows and published envelopes come from stored rows. -/
structure Traceable (s : RelayState) : Prop where
  loaded : ∀ r, ∀ row ∈ (s.relays r).loaded, ∃ stored ∈ s.table, stored.content = row.content
  begun : ∀ call ∈ s.begun, ∃ stored ∈ s.table, stored.toEnvelope = call.2

theorem traceable_initial : Traceable RelayState.initial where
  loaded := by
    intro r row h
    cases h
  begun := by
    intro call h
    cases h

theorem Traceable.move (inv : Traceable s) (move : RelayMove config s a s') : Traceable s' := by
  have hLoaded : ∀ r, ∀ row ∈ (s'.relays r).loaded,
      ∃ stored ∈ s'.table, stored.content = row.content := by
    intro r row h
    rcases move.loaded h with h | h
    · obtain ⟨before, hb, hSame⟩ := inv.loaded r row h
      obtain ⟨stored, hStored, hKept⟩ := move.retains hb
      exact ⟨stored, hStored, hKept.trans hSame⟩
    · exact move.retains h
  have hOld : ∀ call ∈ s.begun, ∃ stored ∈ s'.table, stored.toEnvelope = call.2 := by
    intro call h
    obtain ⟨before, hb, hSame⟩ := inv.begun call h
    obtain ⟨stored, hStored, hKept⟩ := move.retains hb
    exact ⟨stored, hStored, (OutboxMessage.toEnvelope_congr hKept).trans hSame⟩
  refine ⟨hLoaded, ?_⟩
  rcases move.begun with hSame | ⟨new, hNew, -, row, hRow, hEnvelope⟩
  · rw [hSame]
    exact hOld
  · intro call h
    rw [hNew, List.mem_append, List.mem_singleton] at h
    rcases h with h | rfl
    · exact hOld call h
    · obtain ⟨stored, hStored, hSame⟩ := hLoaded call.1 row hRow
      exact ⟨stored, hStored, (OutboxMessage.toEnvelope_congr hSame).trans hEnvelope⟩

theorem retains_run {as : List RelayAction} (run : exec (relayStep config) s as = some s')
    {row : OutboxMessage} (h : row ∈ s.table) :
    ∃ stored ∈ s'.table, stored.content = row.content := by
  have hR := monotone (I := fun _ => True)
    (R := fun s t : RelayState => ∀ row ∈ s.table, ∃ stored ∈ t.table, stored.content = row.content)
    (fun s row h => ⟨row, h, rfl⟩)
    (fun s t u hst htu row h => by
      obtain ⟨middle, hm, hSame⟩ := hst row h
      obtain ⟨stored, hStored, hKept⟩ := htu middle hm
      exact ⟨stored, hStored, hKept.trans hSame⟩)
    (fun _ _ _ _ _ => trivial)
    (fun _ _ _ _ h row hRow => (relayMove_of_step h).retains hRow) trivial run
  exact hR row h

end ServicePlatform
