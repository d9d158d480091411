import Mathlib.Tactic.Linarith
import ServicePlatform.Kernel.Auth
import ServicePlatform.Kernel.DatabaseRouter
import ServicePlatform.Kernel.SlowQueries
import ServicePlatform.Text.Fields

/-! The slow query log as the service wires it: a listener for writes on the primary
and one for reads on each read engine. Without a replica both are on the primary. -/
namespace ServicePlatform

open Text Transition

/-- What `create_app` reads of its settings for the databases. -/
structure DatabaseSettings where
  databaseUrl : Option String
  replicaDatabaseUrl : Option String
  replicaDatabaseUrls : String
  logSlowQueryMs : Int

namespace DatabaseSettings

/-- `replica_database_url_list`. -/
def replicaDatabaseUrlList (settings : DatabaseSettings) : List String :=
  (((splitComma settings.replicaDatabaseUrls.toList).map strip).filter fun url => url ≠ []).map String.ofList

def readUrls (settings : DatabaseSettings) : List String :=
  DatabaseRouter.readUrls settings.replicaDatabaseUrl settings.replicaDatabaseUrlList

def router (settings : DatabaseSettings) : DatabaseRouter :=
  DatabaseRouter.build ((settings.databaseUrl.filter fun url => url ≠ "").getD "sqlite+aiosqlite:///:memory:")
    settings.replicaDatabaseUrl settings.replicaDatabaseUrlList

/-- The engines after `create_app`. -/
def engines (settings : DatabaseSettings) : EngineId → EngineState :=
  if 0 < settings.logSlowQueryMs then
    settings.router.readEngines.foldl
      (fun engines e => Function.update engines e ((engines e).enableSlowQueryLogging settings.logSlowQueryMs "read"))
      (Function.update (fun _ => EngineState.fresh) writeEngine
        (EngineState.fresh.enableSlowQueryLogging settings.logSlowQueryMs "write"))
  else fun _ => EngineState.fresh

end DatabaseSettings

abbrev SessionId := Nat

/-- The engines, the read sessions opened so far, and the engine of each session. -/
structure QueryState where
  engines : EngineId → EngineState
  readsOpened : Nat
  sessions : SessionId → Option EngineId

inductive SessionAction where
  | openWrite (session : SessionId)
  | openRead (session : SessionId)
  | run (session : SessionId) (a : EngineAction)

def DatabaseSettings.initial (settings : DatabaseSettings) : QueryState := ⟨settings.engines, 0, fun _ => none⟩

/-- A session is opened once, and runs its statements on its engine. -/
def queryStep (router : DatabaseRouter) (s : QueryState) : SessionAction → Option QueryState
  | .openWrite session =>
      match s.sessions session with
      | some _ => none
      | none => some { s with sessions := Function.update s.sessions session (some writeEngine) }
  | .openRead session =>
      match s.sessions session with
      | some _ => none
      | none => (router.readEngine s.readsOpened).map fun e => { s with
          readsOpened := s.readsOpened + 1
          sessions := Function.update s.sessions session (some e) }
  | .run session a =>
      (s.sessions session).bind fun e => (engineStep (s.engines e) a).map fun engine =>
        { s with engines := Function.update s.engines e engine }

/-- What a step of the sessions does, case by case. -/
inductive QueryMove (router : DatabaseRouter) (s : QueryState) : SessionAction → QueryState → Prop where
  | openedWrite {session : SessionId} :
      QueryMove router s (.openWrite session)
        { s with sessions := Function.update s.sessions session (some writeEngine) }
  | openedRead {session : SessionId} {e : EngineId} (hEngine : e ∈ router.readEngines) :
      QueryMove router s (.openRead session) { s with
        readsOpened := s.readsOpened + 1
        sessions := Function.update s.sessions session (some e) }
  | ran {session : SessionId} {e : EngineId} {a : EngineAction} {engine : EngineState}
      (hSession : s.sessions session = some e) (hStep : engineStep (s.engines e) a = some engine) :
      QueryMove router s (.run session a) { s with engines := Function.update s.engines e engine }

theorem queryMove_of_step {router : DatabaseRouter} {s t : QueryState} {a : SessionAction}
    (h : queryStep router s a = some t) : QueryMove router s a t := by
  cases a with
  | openWrite session =>
      simp only [queryStep] at h
      split at h
      · cases h
      · cases h
        exact .openedWrite
  | openRead session =>
      simp only [queryStep] at h
      split at h
      · cases h
      · obtain ⟨e, hEngine, rfl⟩ := Option.map_eq_some_iff.mp h
        exact .openedRead (List.mem_of_getElem? hEngine)
  | run session a =>
      obtain ⟨e, hSession, h⟩ := Option.bind_eq_some_iff.mp h
      obtain ⟨engine, hStep, rfl⟩ := Option.map_eq_some_iff.mp h
      exact .ran hSession hStep

namespace DatabaseSettings

/-- The roles of the listeners on an engine. -/
def roles (settings : DatabaseSettings) (e : EngineId) : List String :=
  (if e = writeEngine then ["write"] else []) ++ List.replicate (settings.router.readEngines.count e) "read"

variable {settings : DatabaseSettings}

/-- No statement runs, and the listeners stand for these roles. -/
def Wired (thresholdMs : ℚ) (roles : EngineId → List String) (engines : EngineId → EngineState) : Prop :=
  ∀ e, (engines e).Listens thresholdMs (roles e) ∧ ∀ cursor, (engines e).running cursor = none

theorem wired_fresh (thresholdMs : ℚ) : Wired thresholdMs (fun _ => []) fun _ => EngineState.fresh :=
  fun _ => ⟨⟨rfl, by simp [EngineState.fresh]⟩, fun _ => rfl⟩

/-- One more listener on an engine. -/
theorem Wired.enable {thresholdMs : ℚ} {roles : EngineId → List String} {engines : EngineId → EngineState}
    (h : Wired thresholdMs roles engines) (hOn : 0 < thresholdMs) (e : EngineId) (role : String) :
    Wired thresholdMs (Function.update roles e (roles e ++ [role]))
      (Function.update engines e ((engines e).enableSlowQueryLogging thresholdMs role)) := by
  intro other
  by_cases hOther : other = e
  · subst hOther
    obtain ⟨⟨hWired, -⟩, hIdle⟩ := h other
    rw [Function.update_self, Function.update_self, EngineState.enableSlowQueryLogging, if_neg (not_le.mpr hOn)]
    refine ⟨⟨?_, ?_⟩, hIdle⟩
    · rw [List.map_append, List.map_append, hWired]
      rfl
    · intro listener hListener cursor statement hRunning
      cases (hIdle cursor).symm.trans hRunning
  · rw [Function.update_of_ne hOther, Function.update_of_ne hOther]
    exact h other

theorem Wired.enableReads {thresholdMs : ℚ} {roles : EngineId → List String} {engines : EngineId → EngineState}
    (h : Wired thresholdMs roles engines) (hOn : 0 < thresholdMs) (reads : List EngineId) :
    Wired thresholdMs (fun e => roles e ++ List.replicate (reads.count e) "read")
      (reads.foldl (fun engines e =>
        Function.update engines e ((engines e).enableSlowQueryLogging thresholdMs "read")) engines) := by
  induction reads generalizing roles engines with
  | nil => simpa using h
  | cons e reads ih =>
      have hRoles : (fun other => Function.update roles e (roles e ++ ["read"]) other ++
          List.replicate (reads.count other) "read") =
            fun other => roles other ++ List.replicate ((e :: reads).count other) "read" := by
        funext other
        by_cases hOther : other = e
        · subst hOther
          rw [Function.update_self, List.count_cons_self, List.replicate_succ, List.append_assoc]
          rfl
        · rw [Function.update_of_ne hOther, List.count_cons_of_ne (Ne.symm hOther)]
      rw [List.foldl_cons, ← hRoles]
      exact ih (h.enable hOn e "read")

theorem wired_engines (hOn : 0 < settings.logSlowQueryMs) :
    Wired settings.logSlowQueryMs settings.roles settings.engines := by
  have hThreshold : (0 : ℚ) < settings.logSlowQueryMs := Int.cast_pos.mpr hOn
  have hWrite := ((wired_fresh settings.logSlowQueryMs).enable hThreshold writeEngine "write").enableReads hThreshold
    settings.router.readEngines
  have hRoles : (fun e => Function.update (fun _ => []) writeEngine ([] ++ ["write"]) e ++
      List.replicate (settings.router.readEngines.count e) "read") = settings.roles := by
    funext e
    rw [Function.update_apply, roles]
    rfl
  rw [hRoles] at hWrite
  rw [engines, if_pos hOn]
  exact hWrite

theorem roles_unreplicated (h : settings.readUrls = []) : settings.roles writeEngine = ["write", "read"] := by
  rw [roles, router, DatabaseRouter.build_unreplicated h]
  simp

/-- With a replica each engine that sessions use has one listener. -/
theorem roles_replicated (h : settings.readUrls ≠ []) {e : EngineId}
    (hUsed : e = writeEngine ∨ e ∈ settings.router.readEngines) :
    settings.roles e = if e = writeEngine then ["write"] else ["read"] := by
  rw [router, DatabaseRouter.build_replicated h] at hUsed
  rw [roles, router, DatabaseRouter.build_replicated h]
  have hNodup : ((List.range (DatabaseRouter.readUrls settings.replicaDatabaseUrl
      settings.replicaDatabaseUrlList).length).map (· + 1)).Nodup :=
    List.nodup_range.map (add_left_injective 1)
  by_cases hWrite : e = writeEngine
  · have hAbsent : e ∉ (List.range (DatabaseRouter.readUrls settings.replicaDatabaseUrl
        settings.replicaDatabaseUrlList).length).map (· + 1) := by
      rw [hWrite]
      simp [writeEngine]
    rw [if_pos hWrite, if_pos hWrite, List.count_eq_zero_of_not_mem hAbsent]
    rfl
  · rw [if_neg hWrite, if_neg hWrite, List.count_eq_one_of_mem hNodup (hUsed.resolve_left hWrite)]
    rfl

end DatabaseSettings

/-- The listeners stand for the roles that were wired, and sessions use the engines
of the router. -/
structure QueryInv (settings : DatabaseSettings) (s : QueryState) : Prop where
  listens : ∀ e, (s.engines e).Listens settings.logSlowQueryMs (settings.roles e)
  used : ∀ session e, s.sessions session = some e → e = writeEngine ∨ e ∈ settings.router.readEngines

theorem queryInv_initial {settings : DatabaseSettings} (hOn : 0 < settings.logSlowQueryMs) :
    QueryInv settings settings.initial :=
  ⟨fun e => (DatabaseSettings.wired_engines hOn e).1, fun _ _ h => by cases h⟩

theorem QueryInv.step {settings : DatabaseSettings} {s t : QueryState} {a : SessionAction} (inv : QueryInv settings s)
    (h : queryStep settings.router s a = some t) : QueryInv settings t := by
  cases queryMove_of_step h with
  | @openedWrite session =>
      refine ⟨inv.listens, fun other e hOther => ?_⟩
      simp only [Function.update_apply] at hOther
      split at hOther
      · cases hOther
        exact Or.inl rfl
      · exact inv.used other e hOther
  | @openedRead session e hEngine =>
      refine ⟨inv.listens, fun other e' hOther => ?_⟩
      simp only [Function.update_apply] at hOther
      split at hOther
      · cases hOther
        exact Or.inr hEngine
      · exact inv.used other e' hOther
  | @ran session e b engine hSession hStep =>
      refine ⟨fun e' => ?_, inv.used⟩
      by_cases hEngine : e' = e
      · subst hEngine
        simp only [Function.update_self]
        exact (inv.listens e').step hStep
      · simp only [Function.update_of_ne hEngine]
        exact inv.listens e'

/-- A statement that completes at or above the threshold leaves one record, for the
role of its engine. -/
def LoggedOnce (settings : DatabaseSettings) (s : QueryState) (a : SessionAction) : Prop :=
  ∀ t, queryStep settings.router s a = some t →
    ∀ session cursor now e statement, a = .run session (.complete cursor now) → s.sessions session = some e →
      (s.engines e).running cursor = some statement →
      (settings.logSlowQueryMs : ℚ) ≤ (now - statement.startedAt) * 1000 →
        (∀ other, other ≠ e → (t.engines other).records = (s.engines other).records) ∧
          ∃ record, (t.engines e).records = (s.engines e).records ++ [record] ∧
            (record.engine = "write" ↔ e = writeEngine)

/-- The records of a slow statement, one for each role of its engine. -/
theorem records_complete {settings : DatabaseSettings} {s t : QueryState} (inv : QueryInv settings s)
    {session : SessionId} {cursor : Cursor} {now : ℚ} {e : EngineId} {statement : RunningStatement}
    (h : queryStep settings.router s (.run session (.complete cursor now)) = some t)
    (hSession : s.sessions session = some e) (hRunning : (s.engines e).running cursor = some statement)
    (hSlow : (settings.logSlowQueryMs : ℚ) ≤ (now - statement.startedAt) * 1000) :
    (∀ other, other ≠ e → (t.engines other).records = (s.engines other).records) ∧
      (t.engines e).records = (s.engines e).records ++ (settings.roles e).map fun role =>
        slowQueryRecord role statement.sql (now - statement.startedAt) := by
  cases queryMove_of_step h with
  | @ran _ e' _ engine hBound hStep =>
      cases hSession.symm.trans hBound
      constructor
      · intro other hOther
        simp only [Function.update_of_ne hOther]
      · have hRecords := (inv.listens e).complete hRunning hStep
        rw [if_pos hSlow] at hRecords
        simpa using hRecords

theorem loggedOnce_of_replica {settings : DatabaseSettings} {s : QueryState} (inv : QueryInv settings s)
    (hReplica : settings.readUrls ≠ []) (a : SessionAction) : LoggedOnce settings s a := by
  rintro t h session cursor now e statement rfl hSession hRunning hSlow
  obtain ⟨hOthers, hRecords⟩ := records_complete inv h hSession hRunning hSlow
  rw [DatabaseSettings.roles_replicated hReplica (inv.used session e hSession)] at hRecords
  refine ⟨hOthers, ?_⟩
  by_cases hWrite : e = writeEngine
  · rw [if_pos hWrite] at hRecords
    exact ⟨_, hRecords, iff_of_true rfl hWrite⟩
  · rw [if_neg hWrite] at hRecords
    have hRole : "read" ≠ "write" := by decide
    exact ⟨_, hRecords, iff_of_false hRole hWrite⟩

/-- One statement on a write session. -/
def oneWrite (seconds : ℚ) : List SessionAction :=
  [.openWrite 0, .run 0 (.start 0 "SELECT 1" 0), .run 0 (.complete 0 seconds)]

/-- Without a replica a slow statement of the primary has two records. -/
theorem recorded_twice {settings : DatabaseSettings} (hOn : 0 < settings.logSlowQueryMs) (h : settings.readUrls = []) :
    ¬ Along (queryStep settings.router) (LoggedOnce settings) settings.initial (oneWrite settings.logSlowQueryMs) := by
  rintro ⟨-, hOpened⟩
  have hIdle : (settings.engines writeEngine).running 0 = none := (DatabaseSettings.wired_engines hOn writeEngine).2 0
  have hFirst : queryStep settings.router settings.initial (.openWrite 0) =
      some ⟨settings.engines, 0, Function.update (fun _ => none) 0 (some writeEngine)⟩ := rfl
  have hStart : ∃ engine, engineStep (settings.engines writeEngine) (.start 0 "SELECT 1" 0) = some engine ∧
      engine.running 0 = some ⟨"SELECT 1", 0⟩ := by
    simp only [engineStep, hIdle]
    exact ⟨_, rfl, by simp⟩
  obtain ⟨engine, hEngine, hRunning⟩ := hStart
  have hSecond : queryStep settings.router
      ⟨settings.engines, 0, Function.update (fun _ => none) 0 (some writeEngine)⟩ (.run 0 (.start 0 "SELECT 1" 0)) =
        some ⟨Function.update settings.engines writeEngine engine, 0,
          Function.update (fun _ => none) 0 (some writeEngine)⟩ := by
    simp [queryStep, hEngine]
  have hThird : ∃ t, queryStep settings.router ⟨Function.update settings.engines writeEngine engine, 0,
      Function.update (fun _ => none) 0 (some writeEngine)⟩ (.run 0 (.complete 0 settings.logSlowQueryMs)) = some t := by
    simp [queryStep, engineStep, hRunning]
  obtain ⟨t, hThird⟩ := hThird
  have inv := ((queryInv_initial hOn).step hFirst).step hSecond
  have hRun : (Function.update settings.engines writeEngine engine writeEngine).running 0 = some ⟨"SELECT 1", 0⟩ := by
    rwa [Function.update_self]
  have hSlow : (settings.logSlowQueryMs : ℚ) ≤ (settings.logSlowQueryMs - 0) * 1000 := by
    have hPositive : (0 : ℚ) < settings.logSlowQueryMs := Int.cast_pos.mpr hOn
    linarith
  have hOnce := ((hOpened _ hFirst).2 _ hSecond).1
  obtain ⟨-, record, hRecord, -⟩ := hOnce t hThird 0 0 _ writeEngine ⟨"SELECT 1", 0⟩ rfl rfl hRun hSlow
  have hTwice := (records_complete inv hThird rfl hRun hSlow).2
  rw [DatabaseSettings.roles_unreplicated h, hRecord, List.append_cancel_left_eq] at hTwice
  cases hTwice

/-- Every slow statement of every run is logged once and with the role of its
engine, exactly when there is a replica. -/
theorem slow_logged_once_iff (settings : DatabaseSettings) (hOn : 0 < settings.logSlowQueryMs) :
    (∀ as, Along (queryStep settings.router) (LoggedOnce settings) settings.initial as) ↔ settings.readUrls ≠ [] := by
  constructor
  · intro hLogged hNone
    exact recorded_twice hOn hNone (hLogged _)
  · intro hReplica as
    refine along_of_invariant (fun s a t inv => QueryInv.step inv) (fun s a inv => ?_) (queryInv_initial hOn) as
    exact loggedOnce_of_replica inv hReplica a

/-- A service that logs statements of 200 ms and more, with these replicas. -/
def loggingService (replicaDatabaseUrls : String) : DatabaseSettings where
  databaseUrl := some "postgresql+psycopg://primary/users"
  replicaDatabaseUrl := none
  replicaDatabaseUrls := replicaDatabaseUrls
  logSlowQueryMs := 200

theorem slow_logged_once_iff_replicated :
    Along (queryStep (loggingService "postgresql+psycopg://replica/users").router)
      (LoggedOnce (loggingService "postgresql+psycopg://replica/users"))
      (loggingService "postgresql+psycopg://replica/users").initial (oneWrite 1) :=
  (slow_logged_once_iff (loggingService "postgresql+psycopg://replica/users") (by decide)).mpr (by decide) (oneWrite 1)

/-- Without a replica a write of one second is logged as a write and as a read. -/
theorem logged_as_write_and_read :
    ∃ s, exec (queryStep (loggingService "").router) (loggingService "").initial (oneWrite 1) = some s ∧
      (s.engines writeEngine).records = [⟨1000, "SELECT 1", "write"⟩, ⟨1000, "SELECT 1", "read"⟩] := by
  refine ⟨_, rfl, ?_⟩
  decide +kernel

end ServicePlatform
