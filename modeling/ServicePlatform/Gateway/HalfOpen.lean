import ServicePlatform.Gateway.BalancerSystem
import ServicePlatform.Transition.Monitor

/-! The half-open state of an instance. After the cooldown an unhealthy
instance is available to every pick, since nothing marks that a trial of it is
under way. So a second request goes to it whenever the rotation comes by. -/
namespace ServicePlatform.Gateway

open Rotation Transition GatewayState

/-- The trials in flight: calls that were sent to an instance that was not
healthy then. And the requests that were sent to an instance while another
call was on trial there. -/
structure TrialLog where
  trials : List (CallId × String)
  surplus : List (CallId × String)
  deriving DecidableEq

namespace TrialLog

def empty : TrialLog := ⟨[], []⟩

/-- The trials of the other calls. -/
def others (log : TrialLog) (c : CallId) : List (CallId × String) :=
  log.trials.filter fun trial => trial.1 ≠ c

/-- The instances that other calls have on trial. -/
def onTrial (log : TrialLog) (c : CallId) : List String := (log.others c).map Prod.snd

/-- The call has taken a step. Its outcome is recorded, and it may have been
sent to another instance. -/
def moved (log : TrialLog) (c : CallId) (healthy : String → Bool) : RequestPhase → TrialLog
  | .waiting url _ _ =>
      ⟨if healthy url then log.others c else (c, url) :: log.others c,
        if url ∈ log.onTrial c then log.surplus ++ [(c, url)] else log.surplus⟩
  | _ => ⟨log.others c, log.surplus⟩

end TrialLog

/-- What is written down after a step. -/
def noteTrial (_ : GatewayState) (a : GatewayAction) (t : GatewayState) (log : TrialLog) : TrialLog :=
  match a.caller with
  | some c => log.moved c t.balancer.healthy (t.calls c)
  | none => log

/-- The gateway with the record of its trials. -/
def trialStep (config : BalancerConfig) : GatewayState × TrialLog → GatewayAction → Option (GatewayState × TrialLog) :=
  watched (gatewayStep config) noteTrial

/-- From the position on, each available instance of the list comes up after
an available one outside it. -/
def PassesBy (config : BalancerConfig) (clock : Nat → Clock) (b : Balancer) (urls : List String) : Prop :=
  ∀ i url, b.pool.upcoming[i]? = some url → b.isAvailable config (clock i) url = some true → url ∈ urls →
    ∃ j < i, ∃ other, b.pool.upcoming[j]? = some other ∧ other ∉ urls ∧
      b.isAvailable config (clock j) other = some true

/-- The step condition: where the step comes to a pick, the rotation passes by
the instances that other calls have on trial. -/
def AvoidsTrials (config : BalancerConfig) (s : GatewayState × TrialLog) : GatewayAction → Prop
  | .request c clock => PassesBy config clock s.1.balancer (s.2.onTrial c)
  | .answer c outcome now clock =>
      ∀ url tried left error b, s.1.calls c = .waiting url tried left →
        outcome.result url = .error error → s.1.balancer.recordFailure config now url = some b →
        left ≠ 0 → PassesBy config clock b ((s.2.onTrial c).filter (· ∉ tried))
  | _ => True

variable {config : BalancerConfig} {s t : GatewayState} {a : GatewayAction} {c : CallId} {log : TrialLog}

/-- The instances that the rotation passes by are not picked. -/
theorem passesBy_iff {b : Balancer} (hCovers : b.Covers) {clock : Nat → Clock} {urls : List String} :
    PassesBy config clock b urls ↔ ∀ url, (b.next config clock).1 = .picked url → url ∉ urls := by
  have hKnown : ∀ i other, b.pool.upcoming[i]? = some other →
      (b.stopsAt config clock i other = true ↔ b.isAvailable config (clock i) other = some true) := by
    intro i other hAt
    exact Balancer.stopsAt_iff hCovers (Wheel.mem_upcoming.mp (List.mem_of_getElem? hAt))
  have hPicked : (∀ url, (b.next config clock).1 = .picked url → url ∉ urls) ↔
      ∀ url, (b.pool.next (b.stopsAt config clock)).1 = some url → url ∉ urls := by
    simp only [Balancer.next_picked hCovers]
  rw [hPicked, Wheel.next_never_iff (fun url => url ∈ urls)]
  constructor
  · intro hPasses i url hAt hStops hMem
    obtain ⟨j, hj, other, hOther, hOutside, hAvailable⟩ :=
      hPasses i url hAt ((hKnown i url hAt).mp hStops) hMem
    exact ⟨j, hj, other, hOther, hOutside, (hKnown j other hOther).mpr hAvailable⟩
  · intro hStops i url hAt hAvailable hMem
    obtain ⟨j, hj, other, hOther, hOutside, hAccepted⟩ :=
      hStops i url hAt ((hKnown i url hAt).mpr hAvailable) hMem
    exact ⟨j, hj, other, hOther, hOutside, (hKnown j other hOther).mp hAccepted⟩

/-- A step adds a surplus request when it sends one to an instance on trial. -/
theorem moved_surplus (log : TrialLog) (c : CallId) (healthy : String → Bool) (phase : RequestPhase) :
    (log.moved c healthy phase).surplus = [] ↔ log.surplus = [] ∧
      ∀ url tried left, phase = .waiting url tried left → url ∉ log.onTrial c := by
  cases phase with
  | waiting url tried left =>
      unfold TrialLog.moved
      by_cases hTrial : url ∈ log.onTrial c
      · simp [hTrial]
      · simp [hTrial]
  | _ => simp [TrialLog.moved]

/-- The loop head sends no request to the instances on trial exactly when the
rotation passes by those that are untried. -/
theorem turned_avoids (hCovers : s.balancer.Covers) {clock : Nat → Clock} {tried urls : List String}
    {lastError : Option String} {left : Nat} (h : Turned config clock c tried lastError s left t) :
    (∀ url tried' left', t.calls c = .waiting url tried' left' → url ∉ urls) ↔
      (left ≠ 0 → PassesBy config clock s.balancer (urls.filter (· ∉ tried))) := by
  rw [passesBy_iff hCovers]
  cases h with
  | outOfTurns => simp
  | sent hPicked hUntried =>
      simp [send, hPicked, hUntried]
  | repeated hPicked hTried => simp [hPicked, hTried]
  | unavailable hNone => simp [hNone]
  | lookupFailed hLookup => simp [hLookup]

theorem passesBy_of_empty {b : Balancer} (h : b.urls = []) (clock : Nat → Clock) (urls : List String) :
    PassesBy config clock b urls := by
  intro i url hAt
  have hNone : b.pool.upcoming = [] := by
    show b.urls.rotate b.pool.position = []
    rw [h, List.rotate_nil]
  rw [hNone] at hAt
  cases hAt

/-- An outcome is followed by a surplus request only in a step that breaks the
condition. -/
theorem answered_avoids (hCovers : s.balancer.Covers) {now : Clock} {clock : Nat → Clock} {url : String}
    {tried : List String} {left : Nat} {outcome : UpstreamOutcome}
    (hBefore : s.calls c = .waiting url tried left)
    (h : Answered config clock now c url tried left outcome s t) :
    (∀ url tried' left', t.calls c = .waiting url tried' left' → url ∉ log.onTrial c) ↔
      AvoidsTrials config (s, log) (.answer c outcome now clock) := by
  cases h with
  | @retried error b _ hError hRecord hTurned =>
      have hPool := poolKept_observe (Balancer.recordFailure_frame hRecord)
      rw [turned_avoids (hPool.covers hCovers) hTurned]
      constructor
      · intro hPasses url' tried' left' error' b' hWaiting _ hRecord'
        cases hBefore.symm.trans hWaiting
        cases hRecord.symm.trans hRecord'
        exact hPasses
      · intro hAvoids
        exact hAvoids url tried left error b hBefore hError hRecord
  | failureUnknown _ hRecord =>
      refine iff_of_true ?_ ?_
      · intro url' tried' left' hWaiting
        simp at hWaiting
      · intro url' tried' left' error b hWaiting _ hRecord'
        cases hBefore.symm.trans hWaiting
        rw [hRecord] at hRecord'
        cases hRecord'
  | returned hOk _ | successUnknown hOk _ =>
      refine iff_of_true ?_ ?_
      · intro url' tried' left' hWaiting
        simp at hWaiting
      · intro url' tried' left' error b hWaiting hError
        cases hBefore.symm.trans hWaiting
        rw [hOk] at hError
        cases hError

/-- One step sends a surplus request exactly when it breaks the condition. -/
theorem surplus_step {s t : GatewayState × TrialLog} (hCovers : s.1.balancer.Covers)
    (h : trialStep config s a = some t) : t.2.surplus = [] ↔ s.2.surplus = [] ∧ AvoidsTrials config s a := by
  obtain ⟨hStep, hNote⟩ := watched_some.mp h
  rw [hNote]
  cases a with
  | request c clock =>
      rw [noteTrial, GatewayAction.caller, moved_surplus]
      obtain ⟨-, hTurned⟩ := step_request hStep
      have hBegun : (s.1.begin c).balancer.Covers := hCovers
      rw [turned_avoids hBegun hTurned]
      apply and_congr_right
      intro _
      have hAll : (s.2.onTrial c).filter (· ∉ ([] : List String)) = s.2.onTrial c := by simp
      rw [hAll]
      constructor
      · intro hPasses
        by_cases hEmpty : s.1.balancer.urls = []
        · exact passesBy_of_empty hEmpty clock _
        · exact hPasses (by simpa using hEmpty)
      · intro hPasses _
        exact hPasses
  | answer c outcome now clock =>
      rw [noteTrial, GatewayAction.caller, moved_surplus]
      obtain ⟨url, tried, left, hBefore, hAnswered⟩ := step_answer hStep
      rw [answered_avoids hCovers hBefore hAnswered]
  | probe p => exact ⟨fun hNone => ⟨hNone, trivial⟩, fun hNone => hNone.1⟩
  | probeAnswer p outcome now => exact ⟨fun hNone => ⟨hNone, trivial⟩, fun hNone => hNone.1⟩
  | refresh urls => exact ⟨fun hNone => ⟨hNone, trivial⟩, fun hNone => hNone.1⟩

/-- In a run, no request goes to an instance that another call has on trial if
and only if at each pick the rotation passes by these instances. -/
theorem halfOpen_iff {urls : List String} {actions : List GatewayAction} {t : GatewayState × TrialLog}
    (run : exec (trialStep config) (GatewayState.initial urls, .empty) actions = some t) :
    t.2.surplus = [] ↔
      Along (trialStep config) (AvoidsTrials config) (GatewayState.initial urls, .empty) actions := by
  rw [holds_iff_along (A := fun _ => True) (I := fun s => s.1.balancer.Covers)
    (Q := fun s => s.2.surplus = []) _ _ (covers_initial urls) (fun _ _ => trivial) run]
  · exact and_iff_right rfl
  · intro s a t hCovers _ h
    exact step_covers (watched_some.mp h).1 hCovers
  · intro s a t hCovers _ h
    exact surplus_step hCovers h

section Examples

def oneInstance : List String := ["http://a:1"]

/-- One failure takes an instance down for half a minute. -/
def strictConfig : BalancerConfig := ⟨1, 30⟩

/-- The only instance fails; two calls come when its cooldown has passed. -/
def twoTrials : List GatewayAction :=
  [.request 0 fun _ => 0, .answer 0 (.httpError "refused") 0 fun _ => 0, .request 1 fun _ => 30,
    .request 2 fun _ => 30]

/-- The second call comes when the trial has succeeded. -/
def oneTrial : List GatewayAction :=
  [.request 0 fun _ => 0, .answer 0 (.httpError "refused") 0 fun _ => 0, .request 1 fun _ => 30,
    .answer 1 (.response ⟨200, [], []⟩) 31 fun _ => 31, .request 2 fun _ => 32]

theorem halfOpen_iff_oneTrial : ∃ t, exec (trialStep strictConfig)
      (GatewayState.initial oneInstance, .empty) oneTrial = some t ∧
    Along (trialStep strictConfig) (AvoidsTrials strictConfig) (GatewayState.initial oneInstance, .empty)
      oneTrial := by
  have hRun : (exec (trialStep strictConfig) (GatewayState.initial oneInstance, .empty)
      oneTrial).isSome = true := rfl
  obtain ⟨t, ht⟩ := Option.isSome_iff_exists.mp hRun
  refine ⟨t, ht, (halfOpen_iff ht).mp ?_⟩
  cases ht
  rfl

/-- Two requests are under way to an instance that is not healthy, and no
outcome of a trial has been recorded. -/
theorem two_trials_at_once : ∃ t, exec (trialStep strictConfig)
      (GatewayState.initial oneInstance, .empty) twoTrials = some t ∧
    t.1.balancer.healthy "http://a:1" = false ∧ t.2.trials = [(2, "http://a:1"), (1, "http://a:1")] ∧
    t.2.surplus = [(2, "http://a:1")] :=
  ⟨_, rfl, rfl, rfl, rfl⟩

end Examples

end ServicePlatform.Gateway
