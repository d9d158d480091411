import ServicePlatform.Kernel.RelayFrame
import ServicePlatform.Kernel.RelayOwnership
import ServicePlatform.Transition.Monitor
import Mathlib.Logic.Function.Basic

/-! The relays in time. Each step happens at a time, and what a relay reads from
the clock is never ahead of it. An observer notes when publishes begin, and which
of them fail in a batch that commits. -/
namespace ServicePlatform

open Storage Transition

/-- The wait after an attempt with this number has failed. -/
def backoffDelay (attempt : Nat) : Int := baseBackoff * 2 ^ min attempt 6

structure TimedAction where
  time : DateTime
  action : RelayAction

/-- The query uses a reading taken before it, a publish that returns one taken then. -/
def TimedAction.ReadsClock (a : TimedAction) : Prop :=
  match a.action with
  | .select _ now _ => now ≤ a.time
  | .publishReturns _ _ clock => clock = a.time
  | _ => True

instance (a : TimedAction) : Decidable a.ReadsClock :=
  match a with
  | ⟨time, .select _ now _⟩ => inferInstanceAs (Decidable (now ≤ time))
  | ⟨time, .publishReturns _ _ clock⟩ => inferInstanceAs (Decidable (clock = time))
  | ⟨_, .stage _ _ _⟩ | ⟨_, .lock _⟩ | ⟨_, .count _⟩ | ⟨_, .commit _⟩ | ⟨_, .crash _⟩ => isTrue trivial

structure TimedRelays where
  time : DateTime
  state : RelayState

def TimedRelays.initial : TimedRelays := ⟨0, RelayState.initial⟩

/-- A step of the relays at its time. -/
def timedStep (config : RelayConfig) (s : TimedRelays) (a : TimedAction) : Option TimedRelays :=
  if s.time ≤ a.time ∧ a.ReadsClock then (relayStep config s.state a.action).map fun state => ⟨a.time, state⟩
  else none

/-- A publish that failed: the number of the attempt, the time, and how many
publishes had begun by then. -/
structure PublishFailure where
  id : String
  attempt : Nat
  time : DateTime
  begun : Nat

/-- When the message may be published again. -/
def PublishFailure.due (failure : PublishFailure) : DateTime := failure.time + backoffDelay failure.attempt

/-- What the observer has noted: the publishes that began, and the failures, those
of open batches apart. -/
structure BackoffLog where
  starts : List (String × DateTime)
  uncommitted : RelayId → List PublishFailure
  failures : List PublishFailure

namespace BackoffLog

def empty : BackoffLog := ⟨[], fun _ => [], []⟩

/-- The failure of a publish that returns. -/
def failureOf (s : TimedRelays) (a : TimedAction) (log : BackoffLog) : Option (RelayId × PublishFailure) :=
  match a.action with
  | .publishReturns r .error _ =>
      match s.state.relays r with
      | .publishing _ _ row _ => some (r, ⟨row.id, row.attempts + 1, a.time, log.starts.length⟩)
      | _ => none
  | _ => none

def addFailure (uncommitted : RelayId → List PublishFailure) :
    Option (RelayId × PublishFailure) → RelayId → List PublishFailure
  | some (r, failure) => Function.update uncommitted r (uncommitted r ++ [failure])
  | none => uncommitted

/-- The failures of open batches: a batch that ends has none any more. -/
def stillOpen (uncommitted : RelayId → List PublishFailure) (failed : Option (RelayId × PublishFailure)) :
    RelayAction → RelayId → List PublishFailure
  | .commit r => Function.update uncommitted r []
  | .crash r => Function.update uncommitted r []
  | _ => addFailure uncommitted failed

def note (s : TimedRelays) (a : TimedAction) (t : TimedRelays) (log : BackoffLog) : BackoffLog where
  starts := log.starts ++ (t.state.begun.drop s.state.begun.length).map fun call => (call.2.eventId, a.time)
  uncommitted := stillOpen log.uncommitted (failureOf s a log) a.action
  failures :=
    match a.action with
    | .commit r => log.failures ++ log.uncommitted r
    | _ => log.failures

/-- After a failure that leaves another attempt, no publish of the message begins
before its backoff has passed. -/
def BackoffKept (log : BackoffLog) : Prop :=
  ∀ failure ∈ log.failures, failure.attempt < maxAttempts →
    ∀ start ∈ log.starts.drop failure.begun, start.1 = failure.id → failure.due ≤ start.2

end BackoffLog

/-- A batch that commits has its failures on time: each came back while the
reading of the batch was current, or its backoff has passed by now. -/
def FailsOnTime (config : RelayConfig) (s : TimedRelays) (a : TimedAction) : Prop :=
  Coordinated config s.state a.action ∧
    ∀ r, a.action = .commit r → ∀ attempt ∈ (s.state.relays r).batch, attempt.outcome = .error →
      attempt.loaded.attempts + 1 < maxAttempts → attempt.clock ≤ attempt.now ∨
        attempt.clock + backoffDelay (attempt.loaded.attempts + 1) ≤ a.time

section Moves

variable {config : RelayConfig} {s s' : RelayState} {a : RelayAction}

/-- A publish that begins is what its relay now waits for. -/
theorem RelayMove.starts (move : RelayMove config s a s') : s'.begun = s.begun ∨
    ∃ r now batch row rest, s'.begun = s.begun ++ [(r, row.toEnvelope)] ∧
      s'.relays r = .publishing now batch row rest := by
  have enter {t : RelayState} (r : RelayId) (now : DateTime) (batch : List Attempt) (rows : List OutboxMessage) :
      (t.enterLoop r now batch rows).begun = t.begun ∨
        ∃ r' now' batch' row rest, (t.enterLoop r now batch rows).begun = t.begun ++ [(r', row.toEnvelope)] ∧
          (t.enterLoop r now batch rows).relays r' = .publishing now' batch' row rest := by
    cases rows with
    | nil => exact Or.inl (List.append_nil _)
    | cons row rest =>
        exact Or.inr ⟨r, now, batch, row, rest, rfl, RelayState.enterLoop_self t r now batch (row :: rest)⟩
  cases move with
  | selectPlain hIdle hOrder hSkip => exact enter _ _ _ _
  | lockEnd hPhase => exact enter _ _ _ _
  | @publishReturns r outcome clock now batch row rest hPhase =>
      exact enter (t := { s with returned := s.returned ++ [(row.id, outcome)] }) _ _ _ _
  | _ => exact Or.inl rfl

/-- A row that a batch has loaded was due at the reading of the batch. -/
theorem RelayMove.loaded_origin (move : RelayMove config s a s') {r : RelayId} {row : OutboxMessage}
    (h : row ∈ (s'.relays r).loaded) : row ∈ (s.relays r).loaded ∨
      row ∈ s.table ∧ ∃ now, row.due now = true ∧
        ((∃ order, a = .select r now order) ∨ ∃ candidates rows, s.relays r = .selecting now candidates rows) := by
  by_cases hr : a.actor = some r
  · cases move with
    | stage staged table persisted inserted => exact Or.inl h
    | select hIdle hOrder hSkip =>
        cases hr
        rw [RelayState.setPhase_self] at h
        cases h
    | @selectPlain r now order hIdle hOrder hSkip =>
        cases hr
        rw [RelayState.enterLoop_self, RelayPhase.loaded_atLoopHead] at h
        obtain ⟨k, hk, hFind⟩ := List.mem_filterMap.mp (List.mem_of_mem_take h)
        obtain ⟨hRow, rfl⟩ := KeyedTable.find_eq_some.mp hFind
        obtain ⟨stored, hStored, hSame⟩ := List.mem_map.mp (hOrder.1.mem_iff.mp hk)
        obtain ⟨hMem, hDue⟩ := List.mem_filter.mp hStored
        rw [KeyedTable.eq_of_key hMem hRow hSame] at hDue
        exact Or.inr ⟨hRow, now, hDue, Or.inl ⟨order, rfl⟩⟩
    | lockEnd hPhase =>
        cases hr
        rw [RelayState.enterLoop_self, RelayPhase.loaded_atLoopHead] at h
        rw [hPhase]
        exact Or.inl h
    | lockSkip hPhase =>
        cases hr
        rw [RelayState.setPhase_self] at h
        rw [hPhase]
        exact Or.inl h
    | @lockRow r now k candidates rows stored hPhase hFree hFind hDue =>
        cases hr
        rw [RelayState.setPhase_self] at h
        rcases List.mem_append.mp h with hOld | hNew
        · rw [hPhase]
          exact Or.inl hOld
        · rw [List.mem_singleton.mp hNew]
          exact Or.inr ⟨(KeyedTable.find_eq_some.mp hFind).1, now, hDue, Or.inr ⟨_, _, hPhase⟩⟩
    | publishReturns hPhase =>
        cases hr
        rw [RelayState.enterLoop_self, RelayPhase.loaded_atLoopHead, List.map_append, List.append_assoc] at h
        rw [hPhase]
        exact Or.inl h
    | count gauge hPhase =>
        cases hr
        rw [RelayState.setPhase_self] at h
        rw [hPhase]
        exact Or.inl h
    | commit results hPhase =>
        cases hr
        rw [RelayState.setPhase_self] at h
        cases h
    | crash hOpen =>
        cases hr
        rw [RelayState.setPhase_self] at h
        cases h
  · rw [move.others hr] at h
    exact Or.inl h

/-- A query that runs goes on with the reading it was started with. -/
theorem RelayMove.selecting_origin (move : RelayMove config s a s') {r : RelayId} {now : DateTime}
    {candidates : List String} {rows : List OutboxMessage} (h : s'.relays r = .selecting now candidates rows) :
    (∃ order, a = .select r now order) ∨ ∃ candidates rows, s.relays r = .selecting now candidates rows := by
  have hLoop : ∀ (batch : List Attempt) (loop : List OutboxMessage) (now' : DateTime),
      RelayPhase.atLoopHead now' batch loop ≠ .selecting now candidates rows := by
    intro batch loop now'
    cases loop <;> simp [RelayPhase.atLoopHead]
  by_cases hr : a.actor = some r
  · cases move with
    | stage staged table persisted inserted => exact Or.inr ⟨_, _, h⟩
    | select hIdle hOrder hSkip =>
        cases hr
        rw [RelayState.setPhase_self] at h
        cases h
        exact Or.inl ⟨_, rfl⟩
    | selectPlain hPhase _ _ | lockEnd hPhase | publishReturns hPhase =>
        cases hr
        rw [RelayState.enterLoop_self] at h
        exact absurd h (hLoop _ _ _)
    | lockSkip hPhase | lockRow _ hPhase _ _ _ =>
        cases hr
        rw [RelayState.setPhase_self] at h
        cases h
        exact Or.inr ⟨_, _, hPhase⟩
    | count gauge hPhase | commit results hPhase | crash hPhase =>
        cases hr
        rw [RelayState.setPhase_self] at h
        cases h
  · rw [move.others hr] at h
    exact Or.inr ⟨_, _, h⟩

/-- A row that no batch has loaded stays as it is. -/
theorem RelayMove.row_stays (move : RelayMove config s a s') {row : OutboxMessage} (h : row ∈ s.table)
    (hFree : ∀ r, ∀ other ∈ (s.relays r).loaded, other.id ≠ row.id) : row ∈ s'.table := by
  cases move with
  | stage staged table persisted inserted => exact (KeyedTable.mem_insert inserted).mpr (Or.inl h)
  | @commit r batch results hPhase =>
      refine OutboxTable.mem_applyBatch.mpr ⟨row, h, OutboxTable.storeRow_of_not_mem fun hBatch => ?_⟩
      obtain ⟨attempt, hAttempt, hSame⟩ := List.mem_map.mp hBatch
      refine hFree r attempt.loaded ?_ hSame
      rw [hPhase]
      exact List.mem_map_of_mem hAttempt
  | _ => exact h

/-- An attempt stays in its batch until the batch ends. -/
theorem RelayMove.batch_stays (move : RelayMove config s a s') {r : RelayId} {attempt : Attempt}
    (hCommit : a ≠ .commit r) (hCrash : a ≠ .crash r) (h : attempt ∈ (s.relays r).batch) :
    attempt ∈ (s'.relays r).batch := by
  by_cases hr : a.actor = some r
  · cases move with
    | stage staged table persisted inserted => exact h
    | select hPhase _ _ | selectPlain hPhase _ _ | lockEnd hPhase | lockSkip hPhase | lockRow _ hPhase _ _ _ =>
        cases hr
        rw [hPhase] at h
        cases h
    | publishReturns hPhase =>
        cases hr
        rw [hPhase] at h
        rw [RelayState.enterLoop_self, RelayPhase.batch_atLoopHead]
        exact List.mem_append_left _ h
    | count gauge hPhase =>
        cases hr
        rw [hPhase] at h
        rw [RelayState.setPhase_self]
        exact h
    | commit results hPhase =>
        cases hr
        exact absurd rfl hCommit
    | crash hOpen =>
        cases hr
        exact absurd rfl hCrash
  · rw [move.others hr]
    exact h

/-- A publish that returns is recorded in the batch. -/
theorem RelayMove.attempt_recorded {r : RelayId} {outcome : PublishOutcome} {clock now : DateTime}
    {batch : List Attempt} {row : OutboxMessage} {rest : List OutboxMessage}
    (move : RelayMove config s (.publishReturns r outcome clock) s')
    (h : s.relays r = .publishing now batch row rest) : Attempt.mk row outcome now clock ∈ (s'.relays r).batch := by
  cases move with
  | publishReturns hPhase =>
      rw [h] at hPhase
      cases hPhase
      rw [RelayState.enterLoop_self, RelayPhase.batch_atLoopHead]
      exact List.mem_append_right _ (List.mem_singleton_self _)

end Moves

end ServicePlatform
