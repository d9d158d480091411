import ServicePlatform.Kernel.RelayLocking

/-! Who works on a message. No message is in two open batches when the relays
skip locked rows. Without locks the same holds as long as no batch is started
while another one is open. -/
namespace ServicePlatform

open Storage Transition

variable {config : RelayConfig} {s s' : RelayState} {a : RelayAction}

/-- Each open batch has stored rows of its own. -/
structure OwnRows (s : RelayState) : Prop where
  nodup : ∀ r, ((s.relays r).loaded.map OutboxMessage.id).Nodup
  stored : ∀ r, ∀ row ∈ (s.relays r).loaded, row ∈ s.table
  disjoint : ∀ r r', r ≠ r' → ∀ row ∈ (s.relays r).loaded, ∀ row' ∈ (s.relays r').loaded, row.id ≠ row'.id

theorem LockInv.ownRows (inv : LockInv s) : OwnRows s where
  nodup := fun r => (inv r).nodup
  stored := fun r row hRow => ((inv r).stored row hRow).1
  disjoint := by
    intro r r' hr row hRow row' hRow' hSame
    exact (inv r).locked.disjoint (inv r').locked hr (List.mem_map_of_mem hRow)
      (hSame ▸ List.mem_map_of_mem hRow')

/-- A relay that is alone: every other one is idle. -/
structure SoloInv (s : RelayState) : Prop where
  plain : ∀ r now candidates rows, s.relays r ≠ .selecting now candidates rows
  alone : ∀ r r', s.relays r ≠ .idle → s.relays r' ≠ .idle → r = r'
  nodup : ∀ r, ((s.relays r).loaded.map OutboxMessage.id).Nodup
  stored : ∀ r, ∀ row ∈ (s.relays r).loaded, row ∈ s.table

theorem soloInv_initial : SoloInv RelayState.initial where
  plain := by
    intro r now candidates rows h
    cases h
  alone := fun r r' h => absurd rfl h
  nodup := fun _ => List.nodup_nil
  stored := by
    intro r row h
    cases h

theorem SoloInv.ownRows (inv : SoloInv s) : OwnRows s where
  nodup := inv.nodup
  stored := inv.stored
  disjoint := by
    intro r r' hr row hRow row' hRow' _
    have hOpen : ∀ r row, row ∈ (s.relays r).loaded → s.relays r ≠ .idle := by
      intro r row hRow hIdle
      rw [hIdle] at hRow
      cases hRow
    exact hr (inv.alone r r' (hOpen r row hRow) (hOpen r' row' hRow'))

/-- A step of the relay that is alone keeps it so when its rows are in order. -/
theorem soloInv_moved {t : RelayState} {r : RelayId} {phase : RelayPhase}
    (hRelays : t.relays = (s.setPhase r phase).relays) (hAlone : ∀ r', r' ≠ r → s.relays r' = .idle)
    (hPlain : ∀ now candidates rows, phase ≠ .selecting now candidates rows)
    (hNodup : (phase.loaded.map OutboxMessage.id).Nodup) (hStored : ∀ row ∈ phase.loaded, row ∈ t.table) :
    SoloInv t := by
  have hOther : ∀ r', r' ≠ r → t.relays r' = .idle := by
    intro r' hr
    rw [hRelays, RelayState.setPhase_of_ne s phase hr, hAlone r' hr]
  have hOwn : ∀ r', t.relays r' ≠ .idle → r' = r := fun r' hOpen => by_contra fun hr => hOpen (hOther r' hr)
  have hCases : ∀ (P : RelayPhase → Prop), P .idle → P phase → ∀ r', P (t.relays r') := by
    intro P hIdle hPhase r'
    by_cases hr : r' = r
    · rw [hr, hRelays, RelayState.setPhase_self]
      exact hPhase
    · rw [hOther r' hr]
      exact hIdle
  constructor
  · exact fun r' now candidates rows => hCases (fun p => p ≠ .selecting now candidates rows) (by simp)
      (hPlain now candidates rows) r'
  · exact fun r₁ r₂ h₁ h₂ => (hOwn r₁ h₁).trans (hOwn r₂ h₂).symm
  · exact hCases (fun p => (p.loaded.map OutboxMessage.id).Nodup) List.nodup_nil hNodup
  · exact hCases (fun p => ∀ row ∈ p.loaded, row ∈ t.table) (by simp [RelayPhase.loaded]) hStored

/-- A batch is started under the database's locks, or while no other is open. -/
def Coordinated (config : RelayConfig) (s : RelayState) : RelayAction → Prop
  | .select _ _ _ => config.useSkipLocked = true ∨ ∀ r, s.relays r = .idle
  | _ => True

theorem SoloInv.others (inv : SoloInv s) (r : RelayId) (h : s.relays r ≠ .idle) (r' : RelayId) (hr : r' ≠ r) :
    s.relays r' = .idle :=
  by_contra fun hOpen => hr (inv.alone r' r hOpen h)

/-- The rows that are found under some ids have these ids, in their order. -/
theorem sublist_found (table : OutboxTable) (order : List String) :
    ((order.filterMap table.find).map OutboxMessage.id).Sublist order := by
  induction order with
  | nil => exact List.Sublist.refl _
  | cons k order ih =>
      cases hFind : table.find k with
      | none =>
          rw [List.filterMap_cons_none hFind]
          exact ih.cons k
      | some row =>
          obtain ⟨-, rfl⟩ := KeyedTable.find_eq_some.mp hFind
          rw [List.filterMap_cons_some hFind, List.map_cons]
          exact ih.cons_cons row.id

theorem SoloInv.move (inv : SoloInv s) (hPlain : config.useSkipLocked = false) (hAllowed : Coordinated config s a)
    (move : RelayMove config s a s') : SoloInv s' := by
  cases move with
  | stage row table persisted inserted =>
      exact ⟨inv.plain, inv.alone, inv.nodup, fun r other h =>
        (KeyedTable.mem_insert inserted).mpr (Or.inl (inv.stored r other h))⟩
  | select hIdle hOrder hSkip =>
      rw [hPlain] at hSkip
      cases hSkip
  | @selectPlain r now order hIdle hOrder hSkip =>
      have hAlone : ∀ r, s.relays r = .idle := hAllowed.resolve_left (by simp [hPlain])
      have hFound : ∀ row ∈ (order.filterMap s.table.find).take config.batchSize, row ∈ s.table := by
        intro row hRow
        obtain ⟨k, -, hFind⟩ := List.mem_filterMap.mp (List.mem_of_mem_take hRow)
        exact (KeyedTable.find_eq_some.mp hFind).1
      refine soloInv_moved rfl (fun r' _ => hAlone r') ?_ ?_ ?_
      · intro now' candidates rows
        cases (order.filterMap s.table.find).take config.batchSize <;> simp [RelayPhase.atLoopHead]
      · rw [RelayPhase.loaded_atLoopHead]
        exact (((List.take_sublist _ _).map _).trans (sublist_found s.table order)).nodup hOrder.nodup
      · rw [RelayPhase.loaded_atLoopHead]
        exact hFound
  | @lockEnd r now candidates rows hPhase => exact absurd hPhase (inv.plain r now candidates rows)
  | @lockSkip r now k candidates rows hPhase => exact absurd hPhase (inv.plain r now (k :: candidates) rows)
  | @lockRow r now k candidates rows row hPhase hFree hFind hDue =>
      exact absurd hPhase (inv.plain r now (k :: candidates) rows)
  | @publishReturns r outcome clock now batch row rest hPhase =>
      have hNodup := inv.nodup r
      have hStored := inv.stored r
      have hAlone := inv.others r (by simp [hPhase])
      have hLoaded : (RelayPhase.atLoopHead now (batch ++ [Attempt.mk row outcome now clock]) rest).loaded =
          (RelayPhase.publishing now batch row rest).loaded := by
        rw [RelayPhase.loaded_atLoopHead, List.map_append, List.append_assoc]
        rfl
      rw [hPhase] at hNodup hStored
      refine soloInv_moved rfl hAlone ?_ ?_ ?_
      · cases rest <;> simp [RelayPhase.atLoopHead]
      · rw [hLoaded]
        exact hNodup
      · rw [hLoaded]
        exact hStored
  | @count r batch gauge hPhase =>
      have hNodup := inv.nodup r
      have hStored := inv.stored r
      have hAlone := inv.others r (by simp [hPhase])
      rw [hPhase] at hNodup hStored
      exact soloInv_moved rfl hAlone (by simp) hNodup hStored
  | @commit r batch results hPhase =>
      have hAlone := inv.others r (by simp [hPhase])
      exact soloInv_moved rfl hAlone (by simp) List.nodup_nil (by simp [RelayPhase.loaded])
  | @crash r hOpen =>
      exact soloInv_moved rfl (inv.others r hOpen) (by simp) List.nodup_nil (by simp [RelayPhase.loaded])

/-- Every run whose batches are coordinated keeps messages to one batch each. -/
def RelayOwned (config : RelayConfig) (s : RelayState) : Prop :=
  if config.useSkipLocked = true then LockInv s else SoloInv s

theorem relayOwned_initial : RelayOwned config RelayState.initial := by
  unfold RelayOwned
  split
  · exact lockInv_initial
  · exact soloInv_initial

theorem RelayOwned.move (inv : RelayOwned config s) (hAllowed : Coordinated config s a)
    (move : RelayMove config s a s') : RelayOwned config s' := by
  unfold RelayOwned at inv ⊢
  split
  · next hSkip =>
      rw [if_pos hSkip] at inv
      exact inv.move hSkip move
  · next hPlain =>
      rw [if_neg hPlain] at inv
      exact inv.move (by simpa using hPlain) hAllowed move

theorem RelayOwned.ownRows (inv : RelayOwned config s) : OwnRows s := by
  unfold RelayOwned at inv
  split at inv
  · exact inv.ownRows
  · exact inv.ownRows

end ServicePlatform
