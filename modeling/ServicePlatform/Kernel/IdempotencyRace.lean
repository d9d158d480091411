import ServicePlatform.Kernel.Idempotency
import ServicePlatform.Transition.Run
import Mathlib.Data.List.Induction

/-! Concurrent requests in front of one idempotency store. A request looks for
a stored response, runs the application when there is none, and stores the
response only when the application has sent all of it. Another request may
look in between. -/
namespace ServicePlatform

open Transition

abbrev RequestId := Nat

/-- The await a call of the middleware stands at. -/
inductive CallPhase where
  | arriving
  | looking (key : String)
  | executing (key : Option String) (collected : Collected)
  | storing (key : String) (collected : Collected)
  | replayed (response : Option HttpResponse)
  | ended

structure MiddlewareConfig where
  codec : JsonCodec
  service : String
  request : RequestId → HttpRequest

/-- The store, the calls, and the requests that entered the application. -/
structure MiddlewareState where
  store : IdempotencyStore CachedResponse
  calls : RequestId → CallPhase
  executed : List RequestId

namespace MiddlewareState

def initial : MiddlewareState := ⟨IdempotencyStore.empty, fun _ => .arriving, []⟩

def setCall (s : MiddlewareState) (r : RequestId) (phase : CallPhase) : MiddlewareState :=
  { s with calls := Function.update s.calls r phase }

/-- Call the wrapped application. -/
def enterApp (s : MiddlewareState) (r : RequestId) (key : Option String) : MiddlewareState :=
  { s.setCall r (.executing key Collected.empty) with executed := s.executed ++ [r] }

@[simp] theorem setCall_self (s : MiddlewareState) (r : RequestId) (phase : CallPhase) :
    (s.setCall r phase).calls r = phase := by
  simp [setCall]

theorem setCall_of_ne (s : MiddlewareState) {r r' : RequestId} (phase : CallPhase) (h : r' ≠ r) :
    (s.setCall r phase).calls r' = s.calls r' := by
  simp [setCall, h]

end MiddlewareState

inductive MiddlewareAction where
  | arrive (r : RequestId)
  | get (r : RequestId)
  | send (r : RequestId) (message : AppMessage)
  | put (r : RequestId)
  | finish (r : RequestId)

/-- The phase after the application sent a message. The last body message of a
guarded request waits for the store. -/
def afterMessage (key : Option String) (collected : Collected) (message : AppMessage) : CallPhase :=
  match key, message with
  | some key, .body _ false => .storing key (collected.receive message)
  | _, _ => .executing key (collected.receive message)

def middlewareStep (config : MiddlewareConfig) (s : MiddlewareState) :
    MiddlewareAction → Option MiddlewareState
  | .arrive r =>
      match s.calls r with
      | .arriving =>
          match (config.request r).storeKey config.service with
          | some key => some (s.setCall r (.looking key))
          | none => some (s.enterApp r none)
      | _ => none
  | .get r =>
      match s.calls r with
      | .looking key =>
          match s.store.get key with
          | some cached => some (s.setCall r (.replayed (cached.replay config.codec)))
          | none => some (s.enterApp r (some key))
      | _ => none
  | .send r message =>
      match s.calls r with
      | .executing key collected => some (s.setCall r (afterMessage key collected message))
      | _ => none
  | .put r =>
      match s.calls r with
      | .storing key collected =>
          some { s.setCall r (.executing (some key) collected) with
            store := s.store.put key (collected.entry config.codec) }
      | _ => none
  | .finish r =>
      match s.calls r with
      | .executing _ _ => some (s.setCall r .ended)
      | _ => none

/-- The requests are one operation to the store, up to the method. -/
structure SameOperation (config : MiddlewareConfig) (path key : String) : Prop where
  hasMethod : ∀ r, (config.request r).method ∈ idempotentMethods
  hasPath : ∀ r, (config.request r).path = path
  hasKey : ∀ r, (config.request r).header "idempotency-key" = some key
  nonempty : key ≠ ""

namespace SameOperation

variable {config : MiddlewareConfig} {path key : String}

theorem storeKey (h : SameOperation config path key) (r : RequestId) :
    (config.request r).storeKey config.service =
      some (makeIdempotencyKey config.service (config.request r).method path key) := by
  simp only [HttpRequest.storeKey, h.hasMethod r, h.hasKey r, h.nonempty, h.hasPath r, if_true, if_false]

theorem storeKey_iff (h : SameOperation config path key) (r r' : RequestId) :
    (config.request r).storeKey config.service = (config.request r').storeKey config.service ↔
      (config.request r).method = (config.request r').method := by
  rw [h.storeKey r, h.storeKey r', Option.some.injEq]
  exact ⟨makeIdempotencyKey_method, fun hMethod => by rw [hMethod]⟩

end SameOperation

/-- What a schedule of requests to one operation tells about the state. -/
structure RaceInv (config : MiddlewareConfig) (before : List MiddlewareAction)
    (s : MiddlewareState) : Prop where
  looking : ∀ r key, s.calls r = .looking key → (config.request r).storeKey config.service = some key
  executing : ∀ r key collected, s.calls r = .executing key collected →
    (config.request r).storeKey config.service = key ∧ s.executed ≠ []
  storing : ∀ r key collected, s.calls r = .storing key collected →
    (config.request r).storeKey config.service = some key ∧ s.executed ≠ []
  stored : ∀ key, s.store.get key ≠ none ↔
    ∃ r, .put r ∈ before ∧ (config.request r).storeKey config.service = some key
  put : ∀ r, .put r ∈ before → s.executed ≠ []
  get : s.executed ≠ [] ↔ ∃ r, .get r ∈ before

variable {config : MiddlewareConfig} {before : List MiddlewareAction} {s s' : MiddlewareState}

theorem raceInv_initial : RaceInv config [] MiddlewareState.initial := by
  constructor <;> simp [MiddlewareState.initial]

/-- A call moves to a phase for which the invariant holds; what the schedule
says about the store and the executions is checked apart. -/
theorem RaceInv.setCall (inv : RaceInv config before s) {a : MiddlewareAction} {r : RequestId}
    {phase : CallPhase} {t : MiddlewareState} (hCalls : t.calls = (s.setCall r phase).calls)
    (hExecuted : s.executed ≠ [] → t.executed ≠ [])
    (hLooking : ∀ key, phase = .looking key → (config.request r).storeKey config.service = some key)
    (hExecuting : ∀ key collected, phase = .executing key collected →
      (config.request r).storeKey config.service = key ∧ t.executed ≠ [])
    (hStoring : ∀ key collected, phase = .storing key collected →
      (config.request r).storeKey config.service = some key ∧ t.executed ≠ [])
    (hStored : ∀ key, t.store.get key ≠ none ↔
      ∃ r, .put r ∈ before ++ [a] ∧ (config.request r).storeKey config.service = some key)
    (hPut : ∀ r, a = .put r → t.executed ≠ [])
    (hGet : t.executed ≠ [] ↔ ∃ r, .get r ∈ before ++ [a]) : RaceInv config (before ++ [a]) t := by
  have other {r' : RequestId} (hr : r' ≠ r) : t.calls r' = s.calls r' := by
    rw [hCalls, MiddlewareState.setCall_of_ne s phase hr]
  have self : t.calls r = phase := by
    rw [hCalls, MiddlewareState.setCall_self]
  refine ⟨?_, ?_, ?_, hStored, ?_, hGet⟩
  · intro r' key h
    by_cases hr : r' = r
    · subst hr
      exact hLooking key (self.symm.trans h)
    · exact inv.looking r' key ((other hr).symm.trans h)
  · intro r' key collected h
    by_cases hr : r' = r
    · subst hr
      exact hExecuting key collected (self.symm.trans h)
    · obtain ⟨hKey, hSome⟩ := inv.executing r' key collected ((other hr).symm.trans h)
      exact ⟨hKey, hExecuted hSome⟩
  · intro r' key collected h
    by_cases hr : r' = r
    · subst hr
      exact hStoring key collected (self.symm.trans h)
    · obtain ⟨hKey, hSome⟩ := inv.storing r' key collected ((other hr).symm.trans h)
      exact ⟨hKey, hExecuted hSome⟩
  · intro r' h
    rcases List.mem_append.mp h with h | h
    · exact hExecuted (inv.put r' h)
    · exact hPut r' (List.mem_singleton.mp h).symm

/-- A lookup for which the schedule has a `put` of its operation is replayed. -/
theorem RaceInv.hit_iff (inv : RaceInv config before s) {path key : String}
    (same : SameOperation config path key) {r : RequestId} {storeKey : String}
    (h : s.calls r = .looking storeKey) : s.store.get storeKey ≠ none ↔
      ∃ r', .put r' ∈ before ∧ (config.request r').method = (config.request r).method := by
  rw [inv.stored, ← inv.looking r storeKey h]
  simp only [same.storeKey_iff]

/-- Only a put adds to the store. -/
theorem RaceInv.stored_kept (inv : RaceInv config before s) {a : MiddlewareAction} (hPut : ∀ r, a ≠ .put r)
    (key : String) : s.store.get key ≠ none ↔
      ∃ r, .put r ∈ before ++ [a] ∧ (config.request r).storeKey config.service = some key := by
  rw [inv.stored]
  simp [fun r => (hPut r).symm]

/-- Only a lookup can run the application. -/
theorem RaceInv.get_kept (inv : RaceInv config before s) {a : MiddlewareAction} (hGet : ∀ r, a ≠ .get r) :
    s.executed ≠ [] ↔ ∃ r, .get r ∈ before ++ [a] := by
  rw [inv.get]
  simp [fun r => (hGet r).symm]

/-- A lookup that finds a response ends the call, another runs the application. -/
theorem RaceInv.lookup (inv : RaceInv config before s) {r : RequestId}
    (h : middlewareStep config s (.get r) = some s') : RaceInv config (before ++ [.get r]) s' := by
  simp only [middlewareStep] at h
  split at h
  · next storeKey hPhase =>
      have hKey := inv.looking r storeKey hPhase
      split at h
      · next cached hCached =>
          cases h
          have hTaken : s.store.get storeKey ≠ none := by simp [hCached]
          obtain ⟨r', hPut, -⟩ := (inv.stored storeKey).mp hTaken
          refine inv.setCall rfl id (by simp) (by simp) (by simp) (inv.stored_kept (by simp)) (by simp) ?_
          exact ⟨fun _ => ⟨r, by simp⟩, fun _ => inv.put r' hPut⟩
      · cases h
        refine inv.setCall rfl (fun _ => ?_) (by simp) ?_ (by simp) (inv.stored_kept (by simp)) (by simp) ?_
        · simp [MiddlewareState.enterApp]
        · rintro k collected hExecuting
          cases hExecuting
          exact ⟨hKey, by simp [MiddlewareState.enterApp]⟩
        · exact ⟨fun _ => ⟨r, by simp⟩, fun _ => by simp [MiddlewareState.enterApp]⟩
  · cases h

/-- A message of the application leaves the call where it was, or lets it go on
to the store. -/
theorem RaceInv.message (inv : RaceInv config before s) {r : RequestId} {message : AppMessage}
    (h : middlewareStep config s (.send r message) = some s') :
    RaceInv config (before ++ [.send r message]) s' := by
  simp only [middlewareStep] at h
  split at h
  · next k collected hPhase =>
      cases h
      obtain ⟨hKey, hSome⟩ := inv.executing r k collected hPhase
      refine inv.setCall rfl id ?_ ?_ ?_ (inv.stored_kept (by simp)) (by simp) (inv.get_kept (by simp))
      · intro k' hk
        simp only [afterMessage] at hk
        split at hk <;> cases hk
      · intro k' collected' hk
        simp only [afterMessage] at hk
        split at hk
        · cases hk
        · cases hk
          exact ⟨hKey, hSome⟩
      · intro k' collected' hk
        simp only [afterMessage] at hk
        split at hk
        · cases hk
          exact ⟨hKey, hSome⟩
        · cases hk
  · cases h

/-- A put adds the key of its own request to the store. -/
theorem RaceInv.written (inv : RaceInv config before s) {r : RequestId}
    (h : middlewareStep config s (.put r) = some s') : RaceInv config (before ++ [.put r]) s' := by
  simp only [middlewareStep] at h
  split at h
  · next storeKey collected hPhase =>
      cases h
      obtain ⟨hKey, hSome⟩ := inv.storing r storeKey collected hPhase
      refine inv.setCall rfl id (by simp) ?_ (by simp) ?_ (fun _ _ => hSome) (inv.get_kept (by simp))
      · rintro k collected' hk
        cases hk
        exact ⟨hKey, hSome⟩
      · intro key'
        rw [IdempotencyStore.get_put]
        by_cases hSame : key' = storeKey
        · subst hSame
          simp only [if_true]
          exact ⟨fun _ => ⟨r, by simp, hKey⟩, fun _ => by simp⟩
        · rw [if_neg hSame, inv.stored]
          constructor
          · rintro ⟨r', hr, hk⟩
            exact ⟨r', List.mem_append_left _ hr, hk⟩
          · rintro ⟨r', hr, hk⟩
            rcases List.mem_append.mp hr with hr | hr
            · exact ⟨r', hr, hk⟩
            · cases List.mem_singleton.mp hr
              rw [hKey] at hk
              exact absurd (Option.some.inj hk).symm hSame
  · cases h

theorem RaceInv.step (inv : RaceInv config before s) {path key : String}
    (same : SameOperation config path key) {a : MiddlewareAction}
    (h : middlewareStep config s a = some s') : RaceInv config (before ++ [a]) s' := by
  cases a with
  | arrive r =>
      simp only [middlewareStep, same.storeKey r] at h
      split at h
      · cases h
        exact inv.setCall rfl id (fun k hk => by cases hk; exact same.storeKey r) (by simp) (by simp)
          (inv.stored_kept (by simp)) (by simp) (inv.get_kept (by simp))
      · cases h
  | get r => exact inv.lookup h
  | send r message => exact inv.message h
  | put r => exact inv.written h
  | finish r =>
      simp only [middlewareStep] at h
      split at h
      · cases h
        exact inv.setCall rfl id (by simp) (by simp) (by simp) (inv.stored_kept (by simp)) (by simp)
          (inv.get_kept (by simp))
      · cases h

theorem raceInv_run {path key : String} (same : SameOperation config path key)
    {as : List MiddlewareAction}
    (run : exec (middlewareStep config) MiddlewareState.initial as = some s) :
    RaceInv config as s := by
  induction as using List.reverseRecOn generalizing s with
  | nil =>
      cases run
      exact raceInv_initial
  | append_singleton as a ih =>
      obtain ⟨m, hRun, hStep⟩ := exec_concat.mp run
      exact (ih hRun).step same hStep

/-- Only a lookup that finds nothing runs the application. -/
theorem executed_step {path key : String} (same : SameOperation config path key)
    {a : MiddlewareAction} (h : middlewareStep config s a = some s') :
    s'.executed = s.executed ∨ ∃ r storeKey, a = .get r ∧ s.calls r = .looking storeKey ∧
      s.store.get storeKey = none ∧ s'.executed = s.executed ++ [r] := by
  cases a with
  | arrive r =>
      simp only [middlewareStep, same.storeKey r] at h
      split at h
      · cases h
        exact Or.inl rfl
      · cases h
  | get r =>
      simp only [middlewareStep] at h
      split at h
      · next storeKey hPhase =>
          split at h
          · cases h
            exact Or.inl rfl
          · next hMiss =>
              cases h
              exact Or.inr ⟨r, storeKey, rfl, hPhase, hMiss, rfl⟩
      · cases h
  | send r message | put r | finish r =>
      simp only [middlewareStep] at h
      split at h
      · cases h
        exact Or.inl rfl
      · cases h

/-- A lookup after the first one comes after a response to the same method has
been stored. -/
def AfterStored (config : MiddlewareConfig) (before : List MiddlewareAction) (a : MiddlewareAction) :
    Prop :=
  ∀ r, a = .get r → (∃ r', .get r' ∈ before) →
    ∃ r', .put r' ∈ before ∧ (config.request r').method = (config.request r).method

/-- Requests to one operation with one key run the application at most once
exactly when no lookup falls between the first lookup and the storing of its
response. -/
theorem executed_once_iff {path key : String} (same : SameOperation config path key)
    {as : List MiddlewareAction}
    (run : exec (middlewareStep config) MiddlewareState.initial as = some s) :
    s.executed.length ≤ 1 ↔ Scheduled (AfterStored config) as := by
  induction as using List.reverseRecOn generalizing s with
  | nil =>
      cases run
      exact ⟨fun _ => scheduled_nil _, fun _ => Nat.zero_le 1⟩
  | append_singleton as a ih =>
      obtain ⟨m, hRun, hStep⟩ := exec_concat.mp run
      have inv := raceInv_run same hRun
      rw [scheduled_concat, ← ih hRun]
      rcases executed_step same hStep with hSame | ⟨r, storeKey, rfl, hPhase, hMiss, hMore⟩
      · rw [hSame]
        refine ⟨fun h => ⟨h, ?_⟩, And.left⟩
        rintro r rfl -
        simp only [middlewareStep] at hStep
        split at hStep
        · next storeKey hPhase =>
            split at hStep
            · next cached hCached =>
                exact (inv.hit_iff same hPhase).mp (by simp [hCached])
            · cases hStep
              simp [MiddlewareState.enterApp] at hSame
        · cases hStep
      · have hNoPut := mt (inv.hit_iff same hPhase).mpr (not_not.mpr hMiss)
        rw [hMore, List.length_append, List.length_singleton]
        constructor
        · intro h
          have hNone : m.executed = [] := List.length_eq_zero_iff.mp (by omega)
          refine ⟨by simp [hNone], ?_⟩
          rintro r' - hGet
          exact absurd hNone (inv.get.mpr hGet)
        · rintro ⟨-, hAfter⟩
          have hNone : m.executed = [] := by
            by_contra hSome
            exact hNoPut (hAfter r rfl (inv.get.mp hSome))
          simp [hNone]

/-- Every client posts to `/users` with the key `k-1`. -/
def postUsers : MiddlewareConfig where
  codec := emptyObjectCodec
  service := "svc"
  request := fun _ => ⟨"POST", "/users", [("Idempotency-Key", "k-1")], [], "u", "t", some "/users"⟩

theorem postUsers_same : SameOperation postUsers "/users" "k-1" where
  hasMethod := fun _ => (by decide : "POST" ∈ idempotentMethods)
  hasPath := fun _ => rfl
  hasKey := fun _ => rfl
  nonempty := by decide

/-- The application creates the user and answers in two messages. -/
def respond (r : RequestId) : List MiddlewareAction :=
  [.send r (.start 201 [("content-type", "application/json")]), .send r (.body [123, 125] false),
    .put r, .finish r]

theorem executed_once_retry : ∃ s, exec (middlewareStep postUsers) MiddlewareState.initial
      ([.arrive 0, .get 0] ++ respond 0 ++ [.arrive 1, .get 1]) = some s ∧ s.executed = [0] ∧
      Scheduled (AfterStored postUsers) ([.arrive 0, .get 0] ++ respond 0 ++ [.arrive 1, .get 1]) := by
  have hRun : (exec (middlewareStep postUsers) MiddlewareState.initial
      ([.arrive 0, .get 0] ++ respond 0 ++ [.arrive 1, .get 1])).map MiddlewareState.executed =
        some [0] := rfl
  obtain ⟨s, run, hExecuted⟩ := Option.map_eq_some_iff.mp hRun
  exact ⟨s, run, hExecuted, (executed_once_iff postUsers_same run).mp (by simp [hExecuted])⟩

/-- Two requests that both look before either has been answered. -/
theorem overlapping_posts_execute_twice : ∃ s,
    exec (middlewareStep postUsers) MiddlewareState.initial
      ([.arrive 0, .arrive 1, .get 0, .get 1] ++ respond 0 ++ respond 1) = some s ∧
      s.executed = [0, 1] ∧ SameOperation postUsers "/users" "k-1" ∧ ¬ s.executed.length ≤ 1 := by
  have hRun : (exec (middlewareStep postUsers) MiddlewareState.initial
      ([.arrive 0, .arrive 1, .get 0, .get 1] ++ respond 0 ++ respond 1)).map
        MiddlewareState.executed = some [0, 1] := rfl
  obtain ⟨s, run, hExecuted⟩ := Option.map_eq_some_iff.mp hRun
  exact ⟨s, run, hExecuted, postUsers_same, by simp [hExecuted]⟩

end ServicePlatform
