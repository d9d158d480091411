import ServicePlatform.Gateway.Proxy
import ServicePlatform.Gateway.BalancerSystem
import ServicePlatform.Kernel.IdempotencyRace
import Mathlib.Data.Nat.Pairing
import Mathlib.Data.Finset.Card

/-! A write that the gateway fails over. The gateway and the instances behind
one idempotency store run side by side, and an attempt is a request of its own
to the middleware of its instance. Nothing ties the outcome the gateway sees
to what the instance did: a response may be lost, and an error may come from
in front of the application or after it ran to its end. -/
namespace ServicePlatform.Gateway

open Transition

/-- The attempts of all calls, numbered as the requests that instances get. -/
def attemptId (c : CallId) (turn : Nat) : RequestId := Nat.pair c turn

def callOf (r : RequestId) : CallId := r.unpair.1

def turnOf (r : RequestId) : Nat := r.unpair.2

structure FailoverConfig where
  balancer : BalancerConfig
  client : HttpClient
  codec : JsonCodec
  service : String
  call : CallId → ProxyCall
  drawn : RequestId → String × String

/-- The gateway, and the middleware of the instances with their store. -/
structure FailoverState where
  gateway : GatewayState
  service : MiddlewareState

inductive FailoverAction where
  | gateway (a : GatewayAction)
  | service (a : MiddlewareAction)

/-- The request a step of the middleware is about. -/
def requestOf : MiddlewareAction → RequestId
  | .arrive r => r
  | .get r => r
  | .send r _ => r
  | .put r => r
  | .finish r => r

/-- The instances behind the gateway: each gets the attempts that contact it. -/
def FailoverConfig.middleware (config : FailoverConfig) (gateway : GatewayState) : MiddlewareConfig where
  codec := config.codec
  service := config.service
  request := fun r => config.client.deliver
    ((config.call (callOf r)).outbound ((gateway.contacts (callOf r)).getD (turnOf r) ""))
    (config.drawn r).1 (config.drawn r).2

namespace FailoverState

def initial (urls : List String) : FailoverState := ⟨.initial urls, .initial⟩

/-- The gateway has sent the attempt. -/
def Sent (s : FailoverState) (r : RequestId) : Prop := turnOf r < (s.gateway.contacts (callOf r)).length

instance (s : FailoverState) (r : RequestId) : Decidable (s.Sent r) := inferInstanceAs (Decidable (_ < _))

/-- How often the application ran for the call. -/
def executions (s : FailoverState) (c : CallId) : Nat :=
  s.service.executed.countP fun r => callOf r = c

end FailoverState

def failoverStep (config : FailoverConfig) (s : FailoverState) : FailoverAction → Option FailoverState
  | .gateway a => (gatewayStep config.balancer s.gateway a).map fun g => { s with gateway := g }
  | .service a =>
      if s.Sent (requestOf a) then
        (middlewareStep (config.middleware s.gateway) s.service a).map fun m => { s with service := m }
      else none

/-- A POST with an `Idempotency-Key`. -/
def ProxyCall.KeyedPost (call : ProxyCall) : Prop :=
  call.method = "POST" ∧ ∃ key, key ≠ "" ∧ call.request.header "idempotency-key" = some key

/-- The application ran at most once for each write with a key. -/
def ExecutesOnce (config : FailoverConfig) (s : FailoverState) : Prop :=
  ∀ c, (config.call c).KeyedPost → s.executions c ≤ 1

/-- Of the attempts for a write with a key, at most one reaches an instance. -/
def ReachesOnce (config : FailoverConfig) (actions : List FailoverAction) : Prop :=
  ∀ r r', .service (.arrive r) ∈ actions → .service (.arrive r') ∈ actions → callOf r = callOf r' →
    (config.call (callOf r)).KeyedPost → r = r'

section PassThrough

variable {config : MiddlewareConfig} {s t : MiddlewareState} {a : MiddlewareAction}

/-- The request has not arrived, or the application has been called without a
key to store its response under. -/
inductive PassedThrough (s : MiddlewareState) (r : RequestId) : Prop where
  | arriving (hPhase : s.calls r = .arriving) (hFresh : r ∉ s.executed)
  | executing {collected : Collected} (hPhase : s.calls r = .executing none collected)
      (hExecuted : r ∈ s.executed)
  | ended (hPhase : s.calls r = .ended) (hExecuted : r ∈ s.executed)

/-- The executions that a step adds. -/
def arrived : MiddlewareAction → List RequestId
  | .arrive r => [r]
  | _ => []

theorem PassedThrough.congr {r : RequestId} (h : PassedThrough s r) (hPhase : t.calls r = s.calls r)
    (hExecuted : r ∈ t.executed ↔ r ∈ s.executed) : PassedThrough t r := by
  cases h with
  | arriving hBefore hFresh => exact .arriving (hPhase.trans hBefore) (hExecuted.not.mpr hFresh)
  | executing hBefore hMem => exact .executing (hPhase.trans hBefore) (hExecuted.mpr hMem)
  | ended hBefore hMem => exact .ended (hPhase.trans hBefore) (hExecuted.mpr hMem)

/-- Such a request never looks into the store or waits for it. -/
theorem PassedThrough.phase {r : RequestId} (h : PassedThrough s r) :
    s.calls r = .arriving ∨ (∃ collected, s.calls r = .executing none collected) ∨ s.calls r = .ended := by
  cases h with
  | arriving hPhase => exact .inl hPhase
  | executing hPhase => exact .inr (.inl ⟨_, hPhase⟩)
  | ended hPhase => exact .inr (.inr hPhase)

/-- A step that moves one request and keeps the executions. -/
theorem passedThrough_setCall (hPassed : ∀ r, PassedThrough s r) {r : RequestId} {phase : CallPhase}
    (hSelf : PassedThrough (s.setCall r phase) r) (r' : RequestId) :
    PassedThrough (s.setCall r phase) r' := by
  by_cases hr : r' = r
  · rw [hr]
    exact hSelf
  · exact (hPassed r').congr (s.setCall_of_ne phase hr) Iff.rfl

/-- A request that arrives without a key is executed, for the first time. -/
theorem passedThrough_arrive {r : RequestId} (hKey : (config.request r).storeKey config.service = none)
    (hPassed : ∀ r, PassedThrough s r) (hNodup : s.executed.Nodup)
    (h : middlewareStep config s (.arrive r) = some t) :
    (∀ r, PassedThrough t r) ∧ t.executed.Nodup ∧ t.executed = s.executed ++ [r] := by
  simp only [middlewareStep, hKey] at h
  split at h
  · next hPhase =>
      cases h
      have hFresh : r ∉ s.executed := by
        cases hPassed r with
        | arriving _ hFresh => exact hFresh
        | executing hOther _ => simp [hPhase] at hOther
        | ended hOther _ => simp [hPhase] at hOther
      refine ⟨?_, ?_, rfl⟩
      · intro r'
        by_cases hr : r' = r
        · rw [hr]
          exact .executing (s.setCall_self r _) (by simp [MiddlewareState.enterApp])
        · have hSame : (s.enterApp r none).calls r' = s.calls r' := s.setCall_of_ne _ hr
          apply (hPassed r').congr hSame
          simp [MiddlewareState.enterApp, hr]
      · apply List.nodup_append.mpr
        refine ⟨hNodup, List.nodup_singleton r, ?_⟩
        intro x hx y hy he
        rw [List.mem_singleton.mp hy] at he
        exact hFresh (he ▸ hx)
  · cases h

/-- A middleware that is given no key calls the application for every request
that arrives. -/
theorem passedThrough_step (hKey : ∀ r, (config.request r).storeKey config.service = none)
    (hPassed : ∀ r, PassedThrough s r) (hNodup : s.executed.Nodup)
    (h : middlewareStep config s a = some t) :
    (∀ r, PassedThrough t r) ∧ t.executed.Nodup ∧ t.executed = s.executed ++ arrived a := by
  cases a with
  | arrive r => exact passedThrough_arrive (hKey r) hPassed hNodup h
  | get r =>
      simp only [middlewareStep] at h
      split at h
      · next key hPhase =>
          have hPasses := (hPassed r).phase
          simp [hPhase] at hPasses
      · cases h
  | send r message =>
      simp only [middlewareStep] at h
      split at h
      · next key collected hPhase =>
          cases h
          refine ⟨passedThrough_setCall hPassed ?_, hNodup, (List.append_nil _).symm⟩
          cases hPassed r with
          | arriving hOther _ => simp [hPhase] at hOther
          | ended hOther _ => simp [hPhase] at hOther
          | executing hOther hExecuted =>
              cases hPhase.symm.trans hOther
              exact .executing (s.setCall_self r _) hExecuted
      · cases h
  | put r =>
      simp only [middlewareStep] at h
      split at h
      · next key collected hPhase =>
          have hPasses := (hPassed r).phase
          simp [hPhase] at hPasses
      · cases h
  | finish r =>
      simp only [middlewareStep] at h
      split at h
      · next key collected hPhase =>
          cases h
          refine ⟨passedThrough_setCall hPassed ?_, hNodup, (List.append_nil _).symm⟩
          cases hPassed r with
          | arriving hOther _ => simp [hPhase] at hOther
          | ended hOther _ => simp [hPhase] at hOther
          | executing _ hExecuted => exact .ended (s.setCall_self r _) hExecuted
      · cases h

end PassThrough

section Run

variable {config : FailoverConfig} {s t : FailoverState} {urls : List String}
  {actions : List FailoverAction}

theorem middleware_key (config : FailoverConfig) (gateway : GatewayState) (r : RequestId) :
    ((config.middleware gateway).request r).storeKey (config.middleware gateway).service = none :=
  deliver_storeKey ..

/-- The executions of the attempts that have reached an instance. -/
structure PassedInv (actions : List FailoverAction) (s : FailoverState) : Prop where
  passed : ∀ r, PassedThrough s.service r
  nodup : s.service.executed.Nodup
  executed : ∀ r, r ∈ s.service.executed ↔ .service (.arrive r) ∈ actions

theorem mem_arrived {r : RequestId} {a : MiddlewareAction} : r ∈ arrived a ↔ a = .arrive r := by
  cases a <;> simp [arrived, eq_comm]

/-- Every attempt that reaches an instance is executed, and nothing else is. -/
theorem passedInv_run
    (hRun : exec (failoverStep config) (FailoverState.initial urls) actions = some s) :
    PassedInv actions s := by
  induction actions using List.reverseRecOn generalizing s with
  | nil =>
      cases hRun
      exact ⟨fun r => .arriving rfl List.not_mem_nil, List.nodup_nil, by simp [FailoverState.initial,
        MiddlewareState.initial]⟩
  | append_singleton actions a ih =>
      obtain ⟨m, hBefore, hStep⟩ := exec_concat.mp hRun
      have inv := ih hBefore
      cases a with
      | gateway a =>
          obtain ⟨g, -, rfl⟩ := Option.map_eq_some_iff.mp hStep
          exact ⟨inv.passed, inv.nodup, by simpa using inv.executed⟩
      | service a =>
          simp only [failoverStep] at hStep
          split at hStep
          · obtain ⟨service, hService, rfl⟩ := Option.map_eq_some_iff.mp hStep
            obtain ⟨hPassed, hNodup, hMore⟩ :=
              passedThrough_step (middleware_key config m.gateway) inv.passed inv.nodup hService
            refine ⟨hPassed, hNodup, ?_⟩
            intro r
            show r ∈ service.executed ↔ _
            rw [hMore, List.mem_append, List.mem_append, inv.executed, mem_arrived]
            simp [eq_comm]
          · cases hStep

/-- At most one element of a list without duplicates satisfies the predicate. -/
theorem countP_le_one_iff {Item : Type*} [DecidableEq Item] {p : Item → Bool} {as : List Item}
    (hNodup : as.Nodup) :
    as.countP p ≤ 1 ↔ ∀ a ∈ as, p a = true → ∀ b ∈ as, p b = true → a = b := by
  rw [List.countP_eq_length_filter, ← List.toFinset_card_of_nodup (hNodup.filter p), Finset.card_le_one]
  simp only [List.mem_toFinset, List.mem_filter, and_imp]

/-- The application runs at most once for every write with a key exactly when
at most one of the attempts for it reaches an instance: the key never does. -/
theorem write_executes_once_iff
    (hRun : exec (failoverStep config) (FailoverState.initial urls) actions = some s) :
    ExecutesOnce config s ↔ ReachesOnce config actions := by
  have inv := passedInv_run hRun
  constructor
  · intro hOnce r r' hArrives hArrives' hCall hKeyed
    have hCount := hOnce (callOf r) hKeyed
    have hHere : decide (callOf r = callOf r) = true := decide_eq_true rfl
    have hThere : decide (callOf r' = callOf r) = true := decide_eq_true hCall.symm
    exact (countP_le_one_iff inv.nodup).mp hCount r ((inv.executed r).mpr hArrives) hHere r'
      ((inv.executed r').mpr hArrives') hThere
  · intro hReaches c hKeyed
    apply (countP_le_one_iff inv.nodup).mpr
    intro r hr hCall r' hr' hCall'
    simp only [decide_eq_true_eq] at hCall hCall'
    apply hReaches r r' ((inv.executed r).mp hr) ((inv.executed r').mp hr') (hCall.trans hCall'.symm)
    rw [hCall]
    exact hKeyed

end Run

section Examples

/-- Every client posts a user with the key `k-1` to two instances. -/
def postThroughGateway : FailoverConfig where
  balancer := .default
  client := plainClient
  codec := emptyObjectCodec
  service := "svc"
  call := fun _ =>
    { method := "POST", path := "/v1/users"
      request := ⟨"POST", "/v1/users", [("Idempotency-Key", "k-1")], [123, 125], "u", "t", some "/v1/users"⟩
      identity := ⟨"dev-user", ["user", "admin"], some "dev-tenant"⟩
      traceparent := none, tracestate := none }
  drawn := fun _ => ("u", "t")

/-- The instance runs the application to its end. -/
def handled (r : RequestId) : List FailoverAction :=
  [.service (.arrive r), .service (.send r (.start 201 [("content-type", "application/json")])),
    .service (.send r (.body [123, 125] false)), .service (.finish r)]

/-- One attempt cannot connect, and the other is handled and answered. -/
def refusedThenHandled : List FailoverAction :=
  [.gateway (.request 0 fun _ => 0), .gateway (.answer 0 (.httpError "refused") 1 fun _ => 1)] ++
    handled (attemptId 0 1) ++
    [.gateway (.answer 0 (.response ⟨201, [("content-type", "application/json")], [123, 125]⟩) 2 fun _ => 2)]

/-- One attempt is handled and its response is lost, and so is the other. -/
def handledThenHandled : List FailoverAction :=
  [.gateway (.request 0 fun _ => 0)] ++ handled (attemptId 0 0) ++
    [.gateway (.answer 0 (.httpError "timed out") 10 fun _ => 10)] ++ handled (attemptId 0 1) ++
    [.gateway (.answer 0 (.response ⟨201, [("content-type", "application/json")], [123, 125]⟩) 11 fun _ => 11)]

theorem write_executes_once_iff_refused :
    ∃ s, exec (failoverStep postThroughGateway) (FailoverState.initial ["http://a:1", "http://b:1"])
        refusedThenHandled = some s ∧
      (ExecutesOnce postThroughGateway s ↔ ReachesOnce postThroughGateway refusedThenHandled) := by
  have hRun : (exec (failoverStep postThroughGateway) (FailoverState.initial ["http://a:1", "http://b:1"])
      refusedThenHandled).isSome = true := rfl
  obtain ⟨s, hs⟩ := Option.isSome_iff_exists.mp hRun
  exact ⟨s, hs, write_executes_once_iff hs⟩

/-- A write whose first response is lost runs twice. -/
theorem lost_response_executes_twice :
    ¬ ∀ (config : FailoverConfig) (urls : List String) (actions : List FailoverAction) (s : FailoverState),
      exec (failoverStep config) (FailoverState.initial urls) actions = some s → ExecutesOnce config s := by
  intro h
  have hRun : ∃ s, exec (failoverStep postThroughGateway)
      (FailoverState.initial ["http://a:1", "http://b:1"]) handledThenHandled = some s ∧
      s.service.executed = [attemptId 0 0, attemptId 0 1] := ⟨_, rfl, rfl⟩
  obtain ⟨s, hs, hExecuted⟩ := hRun
  have hKeyed : (postThroughGateway.call 0).KeyedPost := ⟨rfl, "k-1", by decide, rfl⟩
  have hOnce := h postThroughGateway ["http://a:1", "http://b:1"] handledThenHandled s hs 0 hKeyed
  rw [FailoverState.executions, hExecuted] at hOnce
  exact absurd hOnce (by decide)

end Examples

end ServicePlatform.Gateway
