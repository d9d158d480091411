import Mathlib.Algebra.Order.Ring.Unbundled.Rat
import Mathlib.Logic.Function.Basic
import Mathlib.Tactic.NormNum
import ServicePlatform.Storage.Dict
import ServicePlatform.Transition.Run

/-! The slow query log of one engine. A listener keeps the start of each statement
under its cursor, and takes it out when the statement completes. A statement that
fails has no completion event. -/
namespace ServicePlatform

open Storage Transition

/-- A cursor object of the driver. -/
abbrev Cursor := Nat

structure SlowQueryRecord where
  durationMs : ℚ
  sql : String
  engine : String
  deriving DecidableEq

/-- The nearest integer, and the even one of two. -/
def roundHalfEven (x : ℚ) : Int :=
  let below := x.floor
  if x - below < 1 / 2 then below
  else if 1 / 2 < x - below then below + 1
  else if below % 2 = 0 then below else below + 1

/-- `round(x, 1)`. -/
def roundTenth (x : ℚ) : ℚ := roundHalfEven (x * 10) / 10

/-- The record of a statement that took some seconds. -/
def slowQueryRecord (engineRole statement : String) (seconds : ℚ) : SlowQueryRecord where
  durationMs := roundTenth (seconds * 1000)
  sql := String.ofList (statement.toList.take 500)
  engine := engineRole

/-- What is logged about it: a record, if it was slow. -/
def slowQueryRecords (thresholdMs : ℚ) (engineRole statement : String) (seconds : ℚ) : List SlowQueryRecord :=
  if thresholdMs ≤ seconds * 1000 then [slowQueryRecord engineRole statement seconds] else []

/-- The closure of one `enable_slow_query_logging`. -/
structure SlowQueryListener where
  thresholdMs : ℚ
  engineRole : String
  startTimes : Dict Cursor ℚ

namespace SlowQueryListener

/-- `before_cursor_execute`. -/
def beforeCursorExecute (cursor : Cursor) (now : ℚ) (listener : SlowQueryListener) : SlowQueryListener :=
  { listener with startTimes := Dict.setItem listener.startTimes cursor now }

/-- `after_cursor_execute`, with what it logs. -/
def afterCursorExecute (cursor : Cursor) (statement : String) (now : ℚ) (listener : SlowQueryListener) :
    SlowQueryListener × List SlowQueryRecord :=
  ({ listener with startTimes := Dict.pop listener.startTimes cursor },
    match Dict.get? listener.startTimes cursor with
    | none => []
    | some started => slowQueryRecords listener.thresholdMs listener.engineRole statement (now - started))

end SlowQueryListener

/-- A statement that is being executed. -/
structure RunningStatement where
  sql : String
  startedAt : ℚ

/-- An engine: its listeners in the order of their registration, the statements
that run on it, and the records about it. -/
structure EngineState where
  listeners : List SlowQueryListener
  running : Cursor → Option RunningStatement
  records : List SlowQueryRecord

inductive EngineAction where
  | start (cursor : Cursor) (sql : String) (now : ℚ)
  | complete (cursor : Cursor) (now : ℚ)
  | fail (cursor : Cursor)

def EngineAction.isFail : EngineAction → Bool
  | fail _ => true
  | _ => false

namespace EngineState

def fresh : EngineState := ⟨[], fun _ => none, []⟩

def enableSlowQueryLogging (engine : EngineState) (thresholdMs : ℚ) (engineRole : String) : EngineState :=
  if thresholdMs ≤ 0 then engine
  else { engine with listeners := engine.listeners ++ [⟨thresholdMs, engineRole, []⟩] }

end EngineState

/-- A step of an engine. `complete` and `fail` are about a cursor with a running
statement, and `start` about one without. -/
def engineStep (engine : EngineState) : EngineAction → Option EngineState
  | .start cursor sql now =>
      match engine.running cursor with
      | some _ => none
      | none => some { engine with
          listeners := engine.listeners.map (SlowQueryListener.beforeCursorExecute cursor now)
          running := Function.update engine.running cursor (some ⟨sql, now⟩) }
  | .complete cursor now =>
      match engine.running cursor with
      | none => none
      | some statement => some {
          listeners := engine.listeners.map fun listener => (listener.afterCursorExecute cursor statement.sql now).1
          running := Function.update engine.running cursor none
          records := engine.records ++
            engine.listeners.flatMap fun listener => (listener.afterCursorExecute cursor statement.sql now).2 }
  | .fail cursor =>
      match engine.running cursor with
      | none => none
      | some _ => some { engine with running := Function.update engine.running cursor none }

/-- What a step of an engine does, case by case. -/
inductive EngineMove (engine : EngineState) : EngineAction → EngineState → Prop where
  | started {cursor : Cursor} {sql : String} {now : ℚ} (hFree : engine.running cursor = none) :
      EngineMove engine (.start cursor sql now) { engine with
        listeners := engine.listeners.map (SlowQueryListener.beforeCursorExecute cursor now)
        running := Function.update engine.running cursor (some ⟨sql, now⟩) }
  | completed {cursor : Cursor} {now : ℚ} {statement : RunningStatement}
      (hRunning : engine.running cursor = some statement) :
      EngineMove engine (.complete cursor now) {
        listeners := engine.listeners.map fun listener => (listener.afterCursorExecute cursor statement.sql now).1
        running := Function.update engine.running cursor none
        records := engine.records ++
          engine.listeners.flatMap fun listener => (listener.afterCursorExecute cursor statement.sql now).2 }
  | failed {cursor : Cursor} {statement : RunningStatement} (hRunning : engine.running cursor = some statement) :
      EngineMove engine (.fail cursor) { engine with running := Function.update engine.running cursor none }

theorem engineMove_of_step {engine engine' : EngineState} {a : EngineAction} (h : engineStep engine a = some engine') :
    EngineMove engine a engine' := by
  cases a with
  | start cursor sql now =>
      simp only [engineStep] at h
      split at h
      · cases h
      · next hFree =>
          cases h
          exact .started hFree
  | complete cursor now =>
      simp only [engineStep] at h
      split at h
      · cases h
      · next statement hRunning =>
          cases h
          exact .completed hRunning
  | fail cursor =>
      simp only [engineStep] at h
      split at h
      · cases h
      · next statement hRunning =>
          cases h
          exact .failed hRunning

/-- The listeners stand for these roles, and know the start of each statement that
runs. -/
structure EngineState.Listens (engine : EngineState) (thresholdMs : ℚ) (roles : List String) : Prop where
  wired : (engine.listeners.map fun listener => (listener.thresholdMs, listener.engineRole)) =
    roles.map fun role => (thresholdMs, role)
  started : ∀ listener ∈ engine.listeners, ∀ cursor statement, engine.running cursor = some statement →
    Dict.get? listener.startTimes cursor = some statement.startedAt

namespace EngineState.Listens

variable {engine engine' : EngineState} {thresholdMs : ℚ} {roles : List String} {a : EngineAction}

/-- An event that all listeners take note of. -/
theorem map_listeners (h : engine.Listens thresholdMs roles) {change : SlowQueryListener → SlowQueryListener}
    {running : Cursor → Option RunningStatement} {records : List SlowQueryRecord}
    (hKept : ∀ listener, ((change listener).thresholdMs, (change listener).engineRole) =
      (listener.thresholdMs, listener.engineRole))
    (hStarted : ∀ listener ∈ engine.listeners, ∀ cursor statement, running cursor = some statement →
      Dict.get? (change listener).startTimes cursor = some statement.startedAt) :
    (⟨engine.listeners.map change, running, records⟩ : EngineState).Listens thresholdMs roles := by
  constructor
  · rw [← h.wired, List.map_map]
    exact List.map_congr_left fun listener _ => hKept listener
  · intro listener hListener
    obtain ⟨before, hBefore, rfl⟩ := List.mem_map.mp hListener
    exact hStarted before hBefore

theorem step (h : engine.Listens thresholdMs roles) (hStep : engineStep engine a = some engine') :
    engine'.Listens thresholdMs roles := by
  cases engineMove_of_step hStep with
  | @started cursor sql now hFree =>
      refine h.map_listeners (fun _ => rfl) fun listener hListener other statement hRunning => ?_
      simp only [Function.update_apply] at hRunning
      split at hRunning
      · next hOther =>
          cases hRunning
          rw [hOther]
          exact Dict.get?_setItem_self
      · next hOther =>
          exact (Dict.get?_setItem_of_ne (Ne.symm hOther)).trans (h.started listener hListener other statement hRunning)
  | @completed cursor now completed hCompleted =>
      refine h.map_listeners (fun _ => rfl) fun listener hListener other statement hRunning => ?_
      simp only [Function.update_apply] at hRunning
      split at hRunning
      · cases hRunning
      · next hOther =>
          exact (Dict.get?_pop_of_ne hOther).trans (h.started listener hListener other statement hRunning)
  | @failed cursor failed hFailed =>
      refine ⟨h.wired, ?_⟩
      intro listener hListener other statement hRunning
      simp only [Function.update_apply] at hRunning
      split at hRunning
      · cases hRunning
      · exact h.started listener hListener other statement hRunning

/-- A statement that completes is recorded once for each role, if it was slow. -/
theorem complete (h : engine.Listens thresholdMs roles) {cursor : Cursor} {now : ℚ} {statement : RunningStatement}
    (hRunning : engine.running cursor = some statement)
    (hStep : engineStep engine (.complete cursor now) = some engine') :
    engine'.records = engine.records ++
      if thresholdMs ≤ (now - statement.startedAt) * 1000 then
        roles.map fun role => slowQueryRecord role statement.sql (now - statement.startedAt)
      else [] := by
  cases engineMove_of_step hStep with
  | @completed _ _ completed hCompleted =>
      cases hRunning.symm.trans hCompleted
      have hEach : ∀ listener ∈ engine.listeners, (listener.afterCursorExecute cursor statement.sql now).2 =
          slowQueryRecords listener.thresholdMs listener.engineRole statement.sql (now - statement.startedAt) := by
        intro listener hListener
        rw [SlowQueryListener.afterCursorExecute, h.started listener hListener cursor statement hRunning]
      have hWired := congrArg (List.flatMap fun wired : ℚ × String =>
        slowQueryRecords wired.1 wired.2 statement.sql (now - statement.startedAt)) h.wired
      rw [List.flatMap_map, List.flatMap_map] at hWired
      refine congrArg (engine.records ++ ·) ?_
      rw [List.flatMap_congr hEach, hWired]
      by_cases hSlow : thresholdMs ≤ (now - statement.startedAt) * 1000
      · simp [slowQueryRecords, hSlow, List.map_eq_flatMap]
      · simp [slowQueryRecords, hSlow]

end EngineState.Listens

/-- Each listener holds exactly the cursors whose statement is running. -/
def EngineState.Exact (engine : EngineState) : Prop :=
  ∀ listener ∈ engine.listeners, ∀ cursor,
    cursor ∈ listener.startTimes.map Prod.fst ↔ (engine.running cursor).isSome = true

section Exact

variable {engine engine' : EngineState} {a : EngineAction}

theorem running_update_iff {running : Cursor → Option RunningStatement} {cursor other : Cursor}
    {statement : Option RunningStatement} :
    (Function.update running cursor statement other).isSome = true ↔
      if other = cursor then statement.isSome = true else (running other).isSome = true := by
  rw [Function.update_apply]
  split <;> rfl

/-- A step keeps the books exact unless a statement fails. -/
theorem exact_step_iff (hListens : engine.listeners ≠ []) (hExact : engine.Exact)
    (h : engineStep engine a = some engine') : engine'.Exact ↔ a.isFail = false := by
  cases engineMove_of_step h with
  | @started cursor sql now hFree =>
      refine iff_of_true ?_ rfl
      intro listener hListener other
      obtain ⟨before, hBefore, rfl⟩ := List.mem_map.mp hListener
      rw [running_update_iff, SlowQueryListener.beforeCursorExecute, Dict.mem_keys_setItem_iff,
        hExact before hBefore other]
      by_cases hOther : other = cursor
      · simp [hOther]
      · simp [hOther]
  | @completed cursor now statement hRunning =>
      refine iff_of_true ?_ rfl
      intro listener hListener other
      obtain ⟨before, hBefore, rfl⟩ := List.mem_map.mp hListener
      rw [running_update_iff, SlowQueryListener.afterCursorExecute, Dict.mem_keys_pop_iff,
        hExact before hBefore other]
      by_cases hOther : other = cursor
      · simp [hOther]
      · simp [hOther]
  | @failed cursor statement hRunning =>
      refine iff_of_false ?_ (by simp [EngineAction.isFail])
      obtain ⟨listener, hListener⟩ := List.exists_mem_of_ne_nil _ hListens
      intro hAfter
      have hKept := (hExact listener hListener cursor).mpr (by rw [hRunning]; rfl)
      have hGone := (hAfter listener hListener cursor).mp hKept
      simp at hGone

theorem listeners_ne_nil (hListens : engine.listeners ≠ []) (h : engineStep engine a = some engine') :
    engine'.listeners ≠ [] := by
  cases engineMove_of_step h with
  | started => simpa using hListens
  | completed => simpa using hListens
  | failed => exact hListens

end Exact

/-- After every event of an engine `start_times` holds exactly the cursors whose
statement is running, exactly when no statement fails. -/
theorem startTimes_exact_iff (thresholdMs : ℚ) (engineRole : String) (hOn : 0 < thresholdMs)
    (as : List EngineAction) (engine : EngineState)
    (run : exec engineStep (EngineState.fresh.enableSlowQueryLogging thresholdMs engineRole) as = some engine) :
    Throughout engineStep EngineState.Exact (EngineState.fresh.enableSlowQueryLogging thresholdMs engineRole) as ↔
      ∀ a ∈ as, a.isFail = false := by
  have hWired : EngineState.fresh.enableSlowQueryLogging thresholdMs engineRole =
      ⟨[⟨thresholdMs, engineRole, []⟩], fun _ => none, []⟩ := if_neg (not_le.mpr hOn)
  rw [hWired] at run ⊢
  refine throughout_iff_forall (I := fun engine => engine.listeners ≠ []) (fun _ _ _ => listeners_ne_nil)
    (fun _ _ _ => exact_step_iff) (List.cons_ne_nil _ _) ?_ run
  intro listener hListener cursor
  rw [List.mem_singleton.mp hListener]
  simp

/-- Two statements at the same time. -/
def overlapping : List EngineAction :=
  [.start 1 "SELECT 1" 0, .start 2 "SELECT 2" 1, .complete 1 2, .complete 2 3]

theorem startTimes_exact_iff_overlapping :
    Throughout engineStep EngineState.Exact (EngineState.fresh.enableSlowQueryLogging 200 "write") overlapping := by
  obtain ⟨engine, hRun⟩ : ∃ engine,
      exec engineStep (EngineState.fresh.enableSlowQueryLogging 200 "write") overlapping = some engine :=
    ⟨_, rfl⟩
  exact (startTimes_exact_iff 200 "write" (by norm_num) overlapping engine hRun).mpr (by decide)

/-- A statement that fails stays in `start_times`. -/
theorem failed_statement_kept :
    ∃ engine, exec engineStep (EngineState.fresh.enableSlowQueryLogging 200 "write")
      [.start 1 "SELECT 1/0" 0, .fail 1] = some engine ∧
        engine.running 1 = none ∧ engine.listeners.map SlowQueryListener.startTimes = [[(1, 0)]] := by
  refine ⟨_, rfl, rfl, ?_⟩
  decide

end ServicePlatform
