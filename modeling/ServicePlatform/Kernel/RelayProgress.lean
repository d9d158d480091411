import ServicePlatform.Kernel.RelayFrame
import ServicePlatform.Kernel.RelayLocking

/-! What the query of a batch obtains, and how long a batch takes. A candidate
is passed over only while another relay has its lock or when its row is no
longer due, and no relay ever waits for another one. -/
namespace ServicePlatform

open Storage Transition

variable {config : RelayConfig} {s s' t : RelayState} {a : RelayAction}

namespace RelayState

/-- The query cannot take the row: it is locked, or no longer matches. -/
def Barred (s : RelayState) (now : DateTime) (k : String) : Prop :=
  s.locks k ≠ none ∨ ∀ row, s.table.find k = some row → row.due now = false

end RelayState

/-- The row is out of the relay's reach: another one has its lock, or it is not
due any more. -/
def RelayState.Withheld (s : RelayState) (r : RelayId) (now : DateTime) (k : String) : Prop :=
  (∃ other, other ≠ r ∧ s.locks k = some other) ∨ ∃ row ∈ s.table, row.id = k ∧ row.due now = false

/-- A step of the query, with the reason why it ends, passes a candidate or
takes it. -/
inductive LockMove (config : RelayConfig) (s : RelayState) (r : RelayId) : RelayState → Prop where
  | ends {now : DateTime} {candidates : List String} {rows : List OutboxMessage}
      (hPhase : s.relays r = .selecting now candidates rows)
      (hDone : candidates = [] ∨ config.batchSize ≤ rows.length) :
      LockMove config s r (s.enterLoop r now [] rows)
  | passes {now : DateTime} {k : String} {candidates : List String} {rows : List OutboxMessage}
      (hPhase : s.relays r = .selecting now (k :: candidates) rows)
      (hRoom : rows.length < config.batchSize) (hBarred : s.Barred now k) :
      LockMove config s r (s.setPhase r (.selecting now candidates rows))
  | takes {now : DateTime} {k : String} {candidates : List String} {rows : List OutboxMessage}
      (row : OutboxMessage) (hPhase : s.relays r = .selecting now (k :: candidates) rows)
      (hRoom : rows.length < config.batchSize) (hFree : s.locks k = none)
      (hFind : s.table.find k = some row) (hDue : row.due now = true) :
      LockMove config s r ({ s with locks := s.locks.acquire k r }.setPhase r
        (.selecting now candidates (rows ++ [row])))

theorem lockMove_of_step {r : RelayId} (h : relayStep config s (.lock r) = some t) :
    LockMove config s r t := by
  simp only [relayStep] at h
  split at h
  · next now rows hPhase =>
      cases h
      exact .ends hPhase (Or.inl rfl)
  · next now k candidates rows hPhase =>
      split at h
      · next hFull =>
          cases h
          exact .ends hPhase (Or.inr hFull)
      · next hRoom =>
          have hRoom : rows.length < config.batchSize := Nat.lt_of_not_le hRoom
          split at h
          · next row hFree hFind =>
              split at h
              · next hDue =>
                  cases h
                  exact .takes row hPhase hRoom hFree hFind hDue
              · next hDue =>
                  cases h
                  refine .passes hPhase hRoom (Or.inr fun other hOther => ?_)
                  cases hFind.symm.trans hOther
                  simpa using hDue
          · next hOther =>
              cases h
              refine .passes hPhase hRoom ?_
              cases hLock : s.locks k with
              | some owner => exact Or.inl (by rw [hLock]; simp)
              | none =>
                  refine Or.inr fun row hFind => ?_
                  exact absurd hFind (hOther row hLock)
  · cases h

/-- A query that is under way can go on. -/
theorem lock_enabled (config : RelayConfig) {r : RelayId} {now : DateTime} {candidates : List String} {rows : List OutboxMessage}
    (h : s.relays r = .selecting now candidates rows) : ∃ t, relayStep config s (.lock r) = some t := by
  simp only [relayStep, h]
  cases candidates with
  | nil => exact ⟨_, rfl⟩
  | cons k candidates =>
      dsimp only
      split
      · exact ⟨_, rfl⟩
      · split
        · split <;> exact ⟨_, rfl⟩
        · exact ⟨_, rfl⟩

section Work

namespace RelayPhase

/-- How many steps of its own a batch still takes at most. -/
def work (batchSize : Nat) : RelayPhase → Nat
  | .idle => 0
  | .selecting _ candidates rows =>
      candidates.length + max rows.length (min batchSize (rows.length + candidates.length)) + 3
  | .publishing _ _ _ rest => rest.length + 3
  | .counting _ => 2
  | .committing _ => 1

@[simp] theorem work_atLoopHead (batchSize : Nat) (now : DateTime) (batch : List Attempt)
    (rows : List OutboxMessage) : (atLoopHead now batch rows).work batchSize = rows.length + 2 := by
  cases rows <;> rfl

theorem work_pos (batchSize : Nat) {phase : RelayPhase} (h : phase ≠ .idle) : 0 < phase.work batchSize := by
  cases phase with
  | idle => exact absurd rfl h
  | selecting now candidates rows => exact Nat.succ_pos _
  | publishing now batch row rest => exact Nat.succ_pos _
  | counting batch => exact Nat.succ_pos _
  | committing batch => exact Nat.succ_pos _

end RelayPhase

theorem work_lock {r : RelayId} (move : LockMove config s r t) :
    (t.relays r).work config.batchSize < (s.relays r).work config.batchSize := by
  cases move with
  | ends hPhase hDone =>
      rw [hPhase, RelayState.enterLoop_self, RelayPhase.work_atLoopHead]
      simp only [RelayPhase.work]
      omega
  | passes hPhase hRoom hBarred =>
      rw [hPhase, RelayState.setPhase_self]
      simp only [RelayPhase.work, List.length_cons]
      omega
  | takes row hPhase hRoom hFree hFind hDue =>
      rw [hPhase, RelayState.setPhase_self]
      simp only [RelayPhase.work, List.length_cons, List.length_append, List.length_nil]
      omega

/-- A step of an open batch leaves it less to do. -/
theorem work_step {r : RelayId} (hOpen : s.relays r ≠ .idle) (hActor : a.actor = some r)
    (step : relayStep config s a = some t) :
    (t.relays r).work config.batchSize < (s.relays r).work config.batchSize := by
  by_cases hLock : a = .lock r
  · subst hLock
    exact work_lock (lockMove_of_step step)
  · cases relayMove_of_step step with
    | stage row table persisted inserted => cases hActor
    | select hIdle hOrder hSkip =>
        cases hActor
        exact absurd hIdle hOpen
    | selectPlain hIdle hOrder hSkip =>
        cases hActor
        exact absurd hIdle hOpen
    | lockEnd hPhase =>
        cases hActor
        exact absurd rfl hLock
    | lockSkip hPhase =>
        cases hActor
        exact absurd rfl hLock
    | lockRow row hPhase hFree hFind hDue =>
        cases hActor
        exact absurd rfl hLock
    | publishReturns hPhase =>
        cases hActor
        rw [hPhase, RelayState.enterLoop_self, RelayPhase.work_atLoopHead]
        exact Nat.lt_succ_self _
    | count gauge hPhase =>
        cases hActor
        rw [hPhase, RelayState.setPhase_self]
        exact Nat.lt_succ_self _
    | commit results hPhase =>
        cases hActor
        rw [hPhase, RelayState.setPhase_self]
        exact Nat.lt_succ_self _
    | crash hOpen =>
        cases hActor
        rw [RelayState.setPhase_self]
        exact RelayPhase.work_pos _ hOpen

/-- An open batch can always take its next step, whatever the others do. -/
theorem open_enabled {r : RelayId} (hOpen : s.relays r ≠ .idle) :
    ∃ a t, a.actor = some r ∧ a ≠ .crash r ∧ relayStep config s a = some t := by
  cases hPhase : s.relays r with
  | idle => exact absurd hPhase hOpen
  | selecting now candidates rows =>
      obtain ⟨t, hStep⟩ := lock_enabled config hPhase
      exact ⟨.lock r, t, rfl, by simp, hStep⟩
  | publishing now batch row rest =>
      exact ⟨.publishReturns r .ok now, _, rfl, by simp, relayStep_publishReturns hPhase⟩
  | counting batch =>
      have hStep : ∃ t, relayStep config s (.count r) = some t := by simp [relayStep, hPhase]
      obtain ⟨t, hStep⟩ := hStep
      exact ⟨.count r, t, rfl, by simp, hStep⟩
  | committing batch =>
      have hStep : ∃ t, relayStep config s (.commit r) = some t := by simp [relayStep, hPhase]
      obtain ⟨t, hStep⟩ := hStep
      exact ⟨.commit r, t, rfl, by simp, hStep⟩

/-- A batch that nobody kills stays open until its commit. -/
theorem open_step {r : RelayId} (hOpen : s.relays r ≠ .idle) (hEnd : a ≠ .commit r ∧ a ≠ .crash r)
    (step : relayStep config s a = some t) : t.relays r ≠ .idle := by
  have loopOpen (now : DateTime) (batch : List Attempt) (rows : List OutboxMessage) :
      RelayPhase.atLoopHead now batch rows ≠ .idle := by
    cases rows <;> simp [RelayPhase.atLoopHead]
  have move := relayMove_of_step step
  by_cases hActor : a.actor = some r
  · cases move with
    | stage row table persisted inserted => cases hActor
    | select hIdle hOrder hSkip | lockSkip hPhase | lockRow row hPhase hFree hFind hDue | count gauge hPhase =>
        cases hActor
        rw [RelayState.setPhase_self]
        simp
    | selectPlain hIdle hOrder hSkip | lockEnd hPhase | publishReturns hPhase =>
        cases hActor
        rw [RelayState.enterLoop_self]
        exact loopOpen _ _ _
    | commit results hPhase =>
        cases hActor
        exact absurd rfl hEnd.1
    | crash hOpen =>
        cases hActor
        exact absurd rfl hEnd.2
  · rw [move.others hActor]
    exact hOpen

theorem work_select {r : RelayId} {now : DateTime} {order : List String}
    (selected : relayStep config s (.select r now order) = some t) : t.relays r ≠ .idle ∧
      (t.relays r).work config.batchSize ≤
        (s.table.dueIds now).length + min config.batchSize (s.table.dueIds now).length + 3 := by
  cases relayMove_of_step selected with
  | select hIdle hOrder hSkip =>
      rw [RelayState.setPhase_self, ← hOrder.1.length_eq]
      refine ⟨by simp, ?_⟩
      simp only [RelayPhase.work, List.length_nil, Nat.zero_add]
      omega
  | selectPlain hIdle hOrder hSkip =>
      have hRows : (order.filterMap s.table.find).length ≤ order.length := List.length_filterMap_le ..
      rw [RelayState.enterLoop_self, ← hOrder.1.length_eq]
      refine ⟨?_, ?_⟩
      · cases (order.filterMap s.table.find).take config.batchSize <;> simp [RelayPhase.atLoopHead]
      · rw [RelayPhase.work_atLoopHead, List.length_take]
        omega

theorem work_run {r : RelayId} {as : List RelayAction} (hOpen : s.relays r ≠ .idle)
    (allowed : ∀ a ∈ as, a ≠ .commit r ∧ a ≠ .crash r) (run : exec (relayStep config) s as = some t) :
    t.relays r ≠ .idle ∧ as.countP (fun a => a.actor = some r) + (t.relays r).work config.batchSize ≤
      (s.relays r).work config.batchSize := by
  have pays : ∀ s a t, s.relays r ≠ .idle → (a ≠ .commit r ∧ a ≠ .crash r) → relayStep config s a = some t →
      (if decide (a.actor = some r) then 1 else 0) + (t.relays r).work config.batchSize ≤
        (s.relays r).work config.batchSize := by
    intro s a t hOpen _ step
    by_cases hActor : a.actor = some r
    · have hLess := work_step hOpen hActor step
      simp only [hActor, decide_true, if_true]
      omega
    · rw [(relayMove_of_step step).others hActor]
      simp [hActor]
  exact count_add_rank_le (I := fun s => s.relays r ≠ .idle)
    (fun s a t hOpen hEnd step => open_step hOpen hEnd step) pays hOpen allowed run

/-- With SKIP LOCKED no relay waits for another one. After its query a batch that
nobody kills has committed, or it has taken fewer steps than its rows account for,
can take the next one now, and updates only rows that it has locked itself. -/
theorem batch_wait_free {r : RelayId} {now : DateTime} {order : List String} {before as : List RelayAction}
    (hSkip : config.useSkipLocked = true) (reach : exec (relayStep config) RelayState.initial before = some s)
    (selected : relayStep config s (.select r now order) = some s') (noCrash : RelayAction.crash r ∉ as)
    (run : exec (relayStep config) s' as = some t) : .commit r ∈ as ∨
      (as.countP (fun a => a.actor = some r) <
        (s.table.dueIds now).length + min config.batchSize (s.table.dueIds now).length + 3 ∧
      (∀ row ∈ (t.relays r).loaded, t.locks row.id = some r) ∧
      ∃ a u, a.actor = some r ∧ a ≠ .crash r ∧ relayStep config t a = some u) := by
  by_cases hCommit : RelayAction.commit r ∈ as
  · exact Or.inl hCommit
  · right
    obtain ⟨hOpen, hWork⟩ := work_select selected
    have allowed : ∀ a ∈ as, a ≠ .commit r ∧ a ≠ .crash r := by
      intro a ha
      refine ⟨?_, ?_⟩ <;> rintro rfl
      · exact hCommit ha
      · exact noCrash ha
    obtain ⟨hStill, hCount⟩ := work_run hOpen allowed run
    have hPos := RelayPhase.work_pos config.batchSize hStill
    have lock : LockInv s := lockInv_run hSkip lockInv_initial reach
    have lock' : LockInv t := lockInv_run hSkip (lock.move hSkip (relayMove_of_step selected)) run
    exact ⟨by omega, fun row hRow => (lock' r).locked row.id (List.mem_map_of_mem hRow), open_enabled hStill⟩

/-- Two messages, the older one locked by another relay that does nothing more. -/
def stalledRelay : List RelayAction :=
  [.stage "m-1" 0 ⟨"e-1", "user.created.v1", "svc", "user", "u-1", 0, [], none⟩,
    .stage "m-2" 1 ⟨"e-2", "user.created.v1", "svc", "user", "u-2", 1, [], none⟩,
    .select 0 5 ["m-1", "m-2"], .lock 0]

theorem batch_wait_free_stalledRelay :
    ∃ s s' t, exec (relayStep ⟨true, 1⟩) RelayState.initial stalledRelay = some s ∧
      relayStep ⟨true, 1⟩ s (.select 1 5 ["m-1", "m-2"]) = some s' ∧
      exec (relayStep ⟨true, 1⟩) s' [.lock 1, .lock 1, .lock 1] = some t ∧
      (RelayAction.commit 1 ∈ [RelayAction.lock 1, .lock 1, .lock 1] ∨
        (3 < (s.table.dueIds 5).length + min 1 (s.table.dueIds 5).length + 3 ∧
        (∀ row ∈ (t.relays 1).loaded, t.locks row.id = some 1) ∧
        ∃ a u, a.actor = some 1 ∧ a ≠ .crash 1 ∧ relayStep ⟨true, 1⟩ t a = some u)) := by
  obtain ⟨t, run⟩ := Option.isSome_iff_exists.mp (show (exec (relayStep ⟨true, 1⟩) RelayState.initial
    (stalledRelay ++ .select 1 5 ["m-1", "m-2"] :: [.lock 1, .lock 1, .lock 1])).isSome = true from rfl)
  obtain ⟨s, first, rest⟩ := exec_append.mp run
  obtain ⟨s', selected, more⟩ := exec_cons.mp rest
  exact ⟨s, s', t, first, selected, more, batch_wait_free rfl first selected (by simp) more⟩

end Work

section Query

/-- A relay holds no locks but those of the rows it has loaded. -/
def LocksLoaded (s : RelayState) : Prop :=
  ∀ k r, s.locks k = some r → k ∈ (s.relays r).loaded.map OutboxMessage.id

theorem locksLoaded_initial : LocksLoaded RelayState.initial := by
  intro k r h
  cases h

/-- A step of one relay that drops none of its rows. -/
theorem LocksLoaded.setPhase {r : RelayId} {phase : RelayPhase} (inv : LocksLoaded s)
    (hLocks : t.locks = s.locks) (hRelays : t.relays = s.relays)
    (hRows : (s.relays r).loaded <+: phase.loaded) : LocksLoaded (t.setPhase r phase) := by
  intro k owner hLock
  rw [RelayState.setPhase_locks, hLocks] at hLock
  have hOld := inv k owner hLock
  by_cases hr : owner = r
  · subst hr
    rw [RelayState.setPhase_self]
    exact (hRows.sublist.map _).subset hOld
  · rw [RelayState.setPhase_of_ne _ _ hr, hRelays]
    exact hOld

/-- A transaction that ends gives up all its locks. -/
theorem LocksLoaded.release {r : RelayId} (inv : LocksLoaded s) (hLocks : t.locks = s.locks.release r)
    (hRelays : t.relays = s.relays) : LocksLoaded (t.setPhase r .idle) := by
  intro k owner hLock
  rw [RelayState.setPhase_locks, hLocks] at hLock
  obtain ⟨hOld, hr⟩ := RowLocks.release_owner hLock
  rw [RelayState.setPhase_of_ne _ _ hr, hRelays]
  exact inv k owner hOld

theorem LocksLoaded.move (inv : LocksLoaded s) (move : RelayMove config s a s') : LocksLoaded s' := by
  cases move with
  | stage row table persisted inserted => exact inv
  | select hIdle hOrder hSkip =>
      refine inv.setPhase rfl rfl ?_
      rw [hIdle]
      exact List.prefix_rfl
  | selectPlain hIdle hOrder hSkip =>
      refine inv.setPhase rfl rfl ?_
      rw [hIdle]
      exact List.nil_prefix
  | lockEnd hPhase =>
      refine inv.setPhase rfl rfl ?_
      rw [hPhase, RelayPhase.loaded_atLoopHead]
      exact List.prefix_rfl
  | lockSkip hPhase =>
      refine inv.setPhase rfl rfl ?_
      rw [hPhase]
      exact List.prefix_rfl
  | @lockRow r now k candidates rows row hPhase hFree hFind hDue =>
      intro k' owner hLock
      rw [RelayState.setPhase_locks] at hLock
      rcases RowLocks.acquire_owner hLock with ⟨rfl, rfl⟩ | hOld
      · rw [RelayState.setPhase_self, ← (KeyedTable.find_eq_some.mp hFind).2]
        simp [RelayPhase.loaded]
      · have hLoaded := inv k' owner hOld
        by_cases hr : owner = r
        · subst hr
          rw [hPhase] at hLoaded
          rw [RelayState.setPhase_self]
          exact ((List.prefix_append rows [row]).sublist.map _).subset hLoaded
        · rw [RelayState.setPhase_of_ne _ _ hr]
          exact hLoaded
  | publishReturns hPhase =>
      refine inv.setPhase rfl rfl ?_
      rw [hPhase, RelayPhase.loaded_atLoopHead, List.map_append, List.append_assoc]
      exact List.prefix_rfl
  | count gauge hPhase =>
      refine inv.setPhase rfl rfl ?_
      rw [hPhase]
      exact List.prefix_rfl
  | commit results hPhase => exact inv.release rfl rfl
  | crash hOpen => exact inv.release rfl rfl

/-- A relay has no lock on a candidate it has not taken yet. -/
theorem LocksLoaded.withheld (inv : LocksLoaded s) {r : RelayId} {now : DateTime} {k : String}
    (hRow : ∃ row ∈ s.table, row.id = k) (hNew : k ∉ (s.relays r).loaded.map OutboxMessage.id)
    (h : s.Barred now k) : s.Withheld r now k := by
  rcases h with hLocked | hNotDue
  · obtain ⟨other, hOwner⟩ := Option.ne_none_iff_exists'.mp hLocked
    refine Or.inl ⟨other, ?_, hOwner⟩
    rintro rfl
    exact hNew (inv k other hOwner)
  · obtain ⟨row, hMem, hId⟩ := hRow
    exact Or.inr ⟨row, hMem, hId, hNotDue row (KeyedTable.find_eq_some.mpr ⟨hMem, hId⟩)⟩

namespace RelayPhase

/-- The query of the batch is over. -/
def queried : RelayPhase → Bool
  | .idle => false
  | .selecting .. => false
  | _ => true

@[simp] theorem queried_atLoopHead (now : DateTime) (batch : List Attempt) (rows : List OutboxMessage) :
    (atLoopHead now batch rows).queried = true := by
  cases rows <;> rfl

end RelayPhase

/-- After its query a batch keeps its rows. -/
theorem loaded_step {r : RelayId} (hQueried : (s.relays r).queried = true)
    (hEnd : a ≠ .commit r ∧ a ≠ .crash r) (step : relayStep config s a = some t) :
    (t.relays r).queried = true ∧ (t.relays r).loaded = (s.relays r).loaded := by
  have move := relayMove_of_step step
  by_cases hActor : a.actor = some r
  · cases move with
    | stage row table persisted inserted => cases hActor
    | select hPhase _ _ | selectPlain hPhase _ _ | lockEnd hPhase | lockSkip hPhase
    | lockRow _ hPhase _ _ _ =>
        cases hActor
        rw [hPhase] at hQueried
        cases hQueried
    | publishReturns hPhase =>
        cases hActor
        rw [RelayState.enterLoop_self, hPhase, RelayPhase.queried_atLoopHead, RelayPhase.loaded_atLoopHead,
          List.map_append, List.append_assoc]
        exact ⟨rfl, rfl⟩
    | count gauge hPhase =>
        cases hActor
        rw [RelayState.setPhase_self, hPhase]
        exact ⟨rfl, rfl⟩
    | commit results hPhase =>
        cases hActor
        exact absurd rfl hEnd.1
    | crash hOpen =>
        cases hActor
        exact absurd rfl hEnd.2
  · rw [move.others hActor]
    exact ⟨hQueried, rfl⟩

theorem loaded_run {r : RelayId} {as : List RelayAction} (hQueried : (s.relays r).queried = true)
    (allowed : ∀ a ∈ as, a ≠ .commit r ∧ a ≠ .crash r) (run : exec (relayStep config) s as = some t) :
    (t.relays r).loaded = (s.relays r).loaded := by
  induction as generalizing s with
  | nil =>
      cases run
      rfl
  | cons a as ih =>
      obtain ⟨m, hStep, hRun⟩ := exec_cons.mp run
      obtain ⟨hMiddle, hSame⟩ := loaded_step hQueried (allowed a (List.mem_cons_self ..)) hStep
      exact (ih hMiddle (fun b hb => allowed b (List.mem_cons_of_mem _ hb)) hRun).trans hSame

/-- What a query takes of its candidates: it looks at some of them in order,
and at all of them unless the batch is full. -/
structure Takes (batchSize : Nat) (candidates : List String) (rows taken : List OutboxMessage)
    (withheld : String → Prop) : Prop where
  full : (rows ++ taken).length ≤ batchSize
  looks : ∃ passed rest, candidates = passed ++ rest ∧ (taken.map OutboxMessage.id).Sublist passed ∧
    (rest = [] ∨ batchSize ≤ (rows ++ taken).length) ∧
    ∀ k ∈ passed, k ∈ taken.map OutboxMessage.id ∨ withheld k

namespace Takes

variable {batchSize : Nat} {candidates : List String} {rows taken : List OutboxMessage}
  {withheld withheld' : String → Prop}

theorem nothing (hFull : rows.length ≤ batchSize) (hDone : candidates = [] ∨ batchSize ≤ rows.length) :
    Takes batchSize candidates rows [] withheld where
  full := by
    rw [List.append_nil]
    exact hFull
  looks := by
    refine ⟨[], candidates, rfl, List.Sublist.slnil, ?_, ?_⟩
    · rw [List.append_nil]
      exact hDone
    · intro k hk
      cases hk

theorem mono (h : Takes batchSize candidates rows taken withheld) (more : ∀ k, withheld k → withheld' k) :
    Takes batchSize candidates rows taken withheld' where
  full := h.full
  looks := by
    obtain ⟨passed, rest, hSplit, hSub, hRest, hPassed⟩ := h.looks
    exact ⟨passed, rest, hSplit, hSub, hRest, fun k hk => (hPassed k hk).imp_right (more k)⟩

theorem pass {k : String} (h : Takes batchSize candidates rows taken withheld) (hWithheld : withheld k) :
    Takes batchSize (k :: candidates) rows taken withheld where
  full := h.full
  looks := by
    obtain ⟨passed, rest, rfl, hSub, hRest, hPassed⟩ := h.looks
    refine ⟨k :: passed, rest, rfl, hSub.cons k, hRest, ?_⟩
    intro k' hk'
    rcases List.mem_cons.mp hk' with rfl | hk'
    · exact Or.inr hWithheld
    · exact hPassed k' hk'

theorem take {row : OutboxMessage} (h : Takes batchSize candidates (rows ++ [row]) taken withheld) :
    Takes batchSize (row.id :: candidates) rows (row :: taken) withheld where
  full := by
    rw [List.append_cons]
    exact h.full
  looks := by
    obtain ⟨passed, rest, rfl, hSub, hRest, hPassed⟩ := h.looks
    refine ⟨row.id :: passed, rest, rfl, ?_, ?_, ?_⟩
    · rw [List.map_cons]
      exact hSub.cons_cons row.id
    · simpa using hRest
    · intro k hk
      rw [List.map_cons, List.mem_cons]
      rcases List.mem_cons.mp hk with rfl | hk
      · exact Or.inl (Or.inl rfl)
      · exact (hPassed k hk).imp_left Or.inr

end Takes

/-- The query of a batch, from any point of it. -/
theorem query_run {r : RelayId} {now : DateTime} {candidates : List String} {rows : List OutboxMessage}
    {as : List RelayAction} (hSkip : config.useSkipLocked = true) (inv : LockInv s) (locks : LocksLoaded s)
    (hPhase : s.relays r = .selecting now candidates rows)
    (hKnown : ∀ k ∈ candidates, ∃ row ∈ s.table, row.id = k) (hNodup : candidates.Nodup)
    (hNew : ∀ k ∈ candidates, k ∉ rows.map OutboxMessage.id) (hFull : rows.length ≤ config.batchSize)
    (allowed : ∀ a ∈ as, a ≠ .commit r ∧ a ≠ .crash r) (run : exec (relayStep config) s as = some t)
    (hQueried : (t.relays r).queried = true) : ∃ taken, (t.relays r).loaded = rows ++ taken ∧
      Takes config.batchSize candidates rows taken
        fun k => Sometime (relayStep config) (fun u => u.Withheld r now k) s as := by
  induction as generalizing s candidates rows with
  | nil =>
      cases run
      rw [hPhase] at hQueried
      cases hQueried
  | cons a as ih =>
      obtain ⟨m, hStep, hRun⟩ := exec_cons.mp run
      have move := relayMove_of_step hStep
      have invNext := inv.move hSkip move
      have locksNext := locks.move move
      have allowedNext : ∀ b ∈ as, b ≠ .commit r ∧ b ≠ .crash r :=
        fun b hb => allowed b (List.mem_cons_of_mem _ hb)
      have knownNext : ∀ k, (∃ row ∈ s.table, row.id = k) → ∃ row ∈ m.table, row.id = k := by
        rintro k ⟨row, hRow, hId⟩
        obtain ⟨stored, hStored, hContent⟩ := move.retains hRow
        exact ⟨stored, hStored, (OutboxMessage.id_of_content hContent).trans hId⟩
      have later : ∀ k, Sometime (relayStep config) (fun u => u.Withheld r now k) m as →
          Sometime (relayStep config) (fun u => u.Withheld r now k) s (a :: as) :=
        fun k h => sometime_cons hStep h
      by_cases hActor : a.actor = some r
      · by_cases hLock : a = .lock r
        · subst hLock
          cases lockMove_of_step hStep with
          | ends hHere hDone =>
              cases hPhase.symm.trans hHere
              refine ⟨[], ?_, Takes.nothing hFull hDone⟩
              rw [loaded_run (by rw [RelayState.enterLoop_self, RelayPhase.queried_atLoopHead]) allowedNext hRun,
                RelayState.enterLoop_self, RelayPhase.loaded_atLoopHead, List.append_nil]
              rfl
          | @passes _ k rest _ hHere hRoom hBarred =>
              cases hPhase.symm.trans hHere
              have hWithheld : s.Withheld r now k := by
                refine locks.withheld (hKnown k (List.mem_cons_self ..)) ?_ hBarred
                rw [hPhase]
                exact hNew k (List.mem_cons_self ..)
              obtain ⟨taken, hLoaded, hTakes⟩ := ih invNext locksNext (RelayState.setPhase_self _ _ _)
                (fun k' hk' => knownNext k' (hKnown k' (List.mem_cons_of_mem _ hk')))
                (List.nodup_cons.mp hNodup).2 (fun k' hk' => hNew k' (List.mem_cons_of_mem _ hk'))
                hFull allowedNext hRun
              exact ⟨taken, hLoaded, (hTakes.mono later).pass (sometime_start hWithheld)⟩
          | @takes _ k rest _ row hHere hRoom hFree hFind hDue =>
              cases hPhase.symm.trans hHere
              obtain ⟨hRow, rfl⟩ := KeyedTable.find_eq_some.mp hFind
              obtain ⟨hFirst, hRest⟩ := List.nodup_cons.mp hNodup
              have hNewNext : ∀ k' ∈ rest, k' ∉ (rows ++ [row]).map OutboxMessage.id := by
                intro k' hk' hMem
                rw [List.map_append, List.mem_append] at hMem
                rcases hMem with hMem | hMem
                · exact hNew k' (List.mem_cons_of_mem _ hk') hMem
                · obtain rfl := List.mem_singleton.mp hMem
                  exact hFirst hk'
              obtain ⟨taken, hLoaded, hTakes⟩ := ih invNext locksNext (RelayState.setPhase_self _ _ _)
                (fun k' hk' => knownNext k' (hKnown k' (List.mem_cons_of_mem _ hk')))
                hRest hNewNext (by rw [List.length_append]; exact hRoom) allowedNext hRun
              refine ⟨row :: taken, ?_, (hTakes.mono later).take⟩
              rw [hLoaded, List.append_cons rows row taken]
        · exfalso
          have hEnd := allowed a (List.mem_cons_self ..)
          cases move with
          | stage row table persisted inserted => cases hActor
          | select hHere _ _ | selectPlain hHere _ _ | publishReturns hHere | count _ hHere | commit _ hHere =>
              cases hActor
              rw [hPhase] at hHere
              cases hHere
          | lockEnd hHere | lockSkip hHere | lockRow _ hHere _ _ _ =>
              cases hActor
              exact hLock rfl
          | crash hOpen =>
              cases hActor
              exact hEnd.2 rfl
      · obtain ⟨taken, hLoaded, hTakes⟩ := ih invNext locksNext ((move.others hActor).trans hPhase)
          (fun k hk => knownNext k (hKnown k hk)) hNodup hNew hFull allowedNext hRun
        exact ⟨taken, hLoaded, hTakes.mono later⟩

theorem mem_dueIds {table : OutboxTable} {now : DateTime} {k : String} :
    k ∈ table.dueIds now ↔ ∃ row ∈ table, row.id = k ∧ row.due now = true := by
  constructor
  · intro h
    obtain ⟨row, hRow, hId⟩ := List.mem_map.mp h
    obtain ⟨hMem, hDue⟩ := List.mem_filter.mp hRow
    exact ⟨row, hMem, hId, hDue⟩
  · rintro ⟨row, hMem, hId, hDue⟩
    exact List.mem_map.mpr ⟨row, List.mem_filter.mpr ⟨hMem, hDue⟩, hId⟩

/-- The rows of the answer with these ids are in the order of their creation. -/
theorem OutboxTable.DueOrder.created_le {table : OutboxTable} {now : DateTime} {order : List String}
    (h : table.DueOrder now order) : order.Pairwise fun k k' => ∀ row ∈ table, ∀ row' ∈ table,
      row.id = k → row'.id = k' → row.createdAt ≤ row'.createdAt := by
  refine (List.pairwise_filterMap.mp h.2).imp ?_
  intro k k' hPair row hRow row' hRow' hId hId'
  exact hPair row (KeyedTable.find_eq_some.mpr ⟨hRow, hId⟩) row' (KeyedTable.find_eq_some.mpr ⟨hRow', hId'⟩)

/-- Oldest first, whatever the other relays do meanwhile. The rows of a batch
stand in the order of their creation, no more than fit. A row that was due
when the query began is among them, or the batch is full of rows created no
later, or it was locked by another relay or settled while the query ran. -/
theorem oldest_first {r : RelayId} {now : DateTime} {order : List String} {before as : List RelayAction}
    (hSkip : config.useSkipLocked = true) (reach : exec (relayStep config) RelayState.initial before = some s)
    (selected : relayStep config s (.select r now order) = some s')
    (allowed : ∀ a ∈ as, a ≠ .commit r ∧ a ≠ .crash r) (run : exec (relayStep config) s' as = some t)
    (hQueried : (t.relays r).queried = true) :
    ((t.relays r).loaded.Pairwise fun row row' => row.createdAt ≤ row'.createdAt) ∧
    (t.relays r).loaded.length ≤ config.batchSize ∧
    ∀ row ∈ s.table, row.due now = true → (∃ loaded ∈ (t.relays r).loaded, loaded.id = row.id) ∨
      ((t.relays r).loaded.length = config.batchSize ∧
        ∀ loaded ∈ (t.relays r).loaded, loaded.createdAt ≤ row.createdAt) ∨
      Sometime (relayStep config) (fun u => u.Withheld r now row.id) s' as := by
  have lock := lockInv_run hSkip lockInv_initial reach
  have locks : LocksLoaded s :=
    invariant (fun _ _ _ inv h => LocksLoaded.move inv (relayMove_of_step h)) locksLoaded_initial reach
  have move := relayMove_of_step selected
  have lock' := lock.move hSkip move
  have locks' := locks.move move
  have inv := lockInv_run hSkip lock' run
  cases move with
  | selectPlain hIdle hOrder hPlain =>
      rw [hSkip] at hPlain
      cases hPlain
  | select hIdle hOrder _ =>
      have hCandidate : ∀ k ∈ order, ∃ row ∈ s.table, row.id = k := by
        intro k hk
        obtain ⟨row, hRow, hId, -⟩ := mem_dueIds.mp (hOrder.1.mem_iff.mp hk)
        exact ⟨row, hRow, hId⟩
      obtain ⟨taken, hLoaded, hTakes⟩ := query_run hSkip lock' locks' (RelayState.setPhase_self s r _)
        hCandidate hOrder.nodup (fun k _ => List.not_mem_nil) (Nat.zero_le _) allowed run hQueried
      rw [List.nil_append] at hLoaded
      obtain ⟨passed, rest, hSplit, hSub, hRest, hPassed⟩ := hTakes.looks
      have hFull := hTakes.full
      rw [List.nil_append] at hRest hFull
      have hCreated := hOrder.created_le
      rw [hSplit, List.pairwise_append] at hCreated
      -- A row that the batch has loaded was staged with the creation time it has now.
      have hSame : ∀ loaded ∈ taken, ∃ row ∈ s.table, row.id = loaded.id ∧ row.createdAt = loaded.createdAt := by
        intro loaded hTaken
        have hId : loaded.id ∈ order := by
          rw [hSplit]
          exact List.mem_append_left _ (hSub.subset (List.mem_map_of_mem hTaken))
        obtain ⟨row, hRow, hRowId⟩ := hCandidate _ hId
        obtain ⟨stored, hStored, hContent⟩ := retains_run run hRow
        have hOwn := ((inv r).stored loaded (hLoaded ▸ hTaken)).1
        obtain rfl := KeyedTable.eq_of_key hStored hOwn
          ((OutboxMessage.id_of_content hContent).trans hRowId)
        exact ⟨row, hRow, hRowId, (congrArg OutboxMessage.Content.createdAt hContent).symm⟩
      rw [hLoaded]
      refine ⟨?_, hFull, ?_⟩
      · have hIds := hCreated.1.sublist hSub
        rw [List.pairwise_map] at hIds
        refine hIds.imp_of_mem ?_
        intro a b ha hb hPair
        obtain ⟨row, hRow, hId, hTime⟩ := hSame a ha
        obtain ⟨row', hRow', hId', hTime'⟩ := hSame b hb
        rw [← hTime, ← hTime']
        exact hPair row hRow row' hRow' hId hId'
      · intro row hRow hDue
        have hMem : row.id ∈ passed ++ rest := by
          rw [← hSplit]
          exact hOrder.1.mem_iff.mpr (mem_dueIds.mpr ⟨row, hRow, rfl, hDue⟩)
        rcases List.mem_append.mp hMem with hMem | hMem
        · rcases hPassed _ hMem with hTaken | hWithheld
          · obtain ⟨loaded, hIn, hId⟩ := List.mem_map.mp hTaken
            exact Or.inl ⟨loaded, hIn, hId⟩
          · exact Or.inr (Or.inr hWithheld)
        · refine Or.inr (Or.inl ⟨?_, ?_⟩)
          · rcases hRest with rfl | hRest
            · cases hMem
            · exact Nat.le_antisymm hFull hRest
          · intro loaded hIn
            obtain ⟨other, hOther, hId, hTime⟩ := hSame loaded hIn
            rw [← hTime]
            exact hCreated.2.2 loaded.id (hSub.subset (List.mem_map_of_mem hIn)) row.id hMem
              other hOther row hRow hId rfl

theorem oldest_first_stalledRelay :
    ∃ s s' t, exec (relayStep ⟨true, 1⟩) RelayState.initial stalledRelay = some s ∧
      relayStep ⟨true, 1⟩ s (.select 1 5 ["m-1", "m-2"]) = some s' ∧
      exec (relayStep ⟨true, 1⟩) s' [.lock 1, .lock 1, .lock 1] = some t ∧
      (t.relays 1).loaded.map OutboxMessage.id = ["m-2"] ∧
      ∀ row ∈ s.table, row.due 5 = true → (∃ loaded ∈ (t.relays 1).loaded, loaded.id = row.id) ∨
        ((t.relays 1).loaded.length = 1 ∧ ∀ loaded ∈ (t.relays 1).loaded, loaded.createdAt ≤ row.createdAt) ∨
        Sometime (relayStep ⟨true, 1⟩) (fun u => u.Withheld 1 5 row.id) s' [.lock 1, .lock 1, .lock 1] := by
  have hRun : (exec (relayStep ⟨true, 1⟩) RelayState.initial
      (stalledRelay ++ .select 1 5 ["m-1", "m-2"] :: [.lock 1, .lock 1, .lock 1])).map
      (fun t => ((t.relays 1).queried, (t.relays 1).loaded.map OutboxMessage.id)) = some (true, ["m-2"]) := rfl
  obtain ⟨t, run, hSeen⟩ := Option.map_eq_some_iff.mp hRun
  obtain ⟨hQueried, hLoaded⟩ := Prod.mk.injEq .. ▸ hSeen
  obtain ⟨s, first, rest⟩ := exec_append.mp run
  obtain ⟨s', selected, more⟩ := exec_cons.mp rest
  exact ⟨s, s', t, first, selected, more, hLoaded,
    (oldest_first rfl first selected (by simp) more hQueried).2.2⟩

end Query

end ServicePlatform
