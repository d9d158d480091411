import ServicePlatform.Gateway.Balancer
import ServicePlatform.Transition.Run

/-! Requests, health probes and pool refreshes that share one balancer. They
run on one event loop, so they interleave only where they await the upstream
client. A step is the code between two awaits. -/
namespace ServicePlatform.Gateway

open Rotation Transition

abbrev CallId := Nat

abbrev ProbeId := Nat

/-- Where a call of `request` stands: it awaits the instance it picked last, or
it is over. A `DownstreamError` is known by its message. -/
inductive RequestPhase where
  | idle
  | waiting (url : String) (tried : List String) (left : Nat)
  | returned (response : HttpResponse)
  | raised (message : String)
  | lookupFailed

/-- Where a pass of `probe_all` stands: it awaits an instance, whose health
record it holds, and the rest of the URL list it walks over. -/
inductive ProbePhase where
  | idle
  | waiting (url : String) (object : Nat) (rest : List String)
  | done
  | lookupFailed

def RequestPhase.inFlight : RequestPhase → Bool
  | .waiting .. => true
  | _ => false

/-- The balancer and its users. For each call there is the record of the
instances it contacted, of those that have been healthy in every state since
it began, and of the responses below 500 it obtained. -/
structure GatewayState where
  balancer : Balancer
  calls : CallId → RequestPhase
  probes : ProbeId → ProbePhase
  contacts : CallId → List String
  steady : CallId → List String
  obtained : CallId → List HttpResponse

/-- Each action carries the clock readings of its step. -/
inductive GatewayAction where
  | request (c : CallId) (clock : Nat → Clock)
  | answer (c : CallId) (outcome : UpstreamOutcome) (now : Clock) (clock : Nat → Clock)
  | probe (p : ProbeId)
  | probeAnswer (p : ProbeId) (outcome : UpstreamOutcome) (now : Clock)
  | refresh (urls : List String)

/-- How `request` takes an outcome: the error it goes on with, or the response
it returns. -/
def UpstreamOutcome.result (url : String) : UpstreamOutcome → Except String HttpResponse
  | .response reply => if 500 ≤ reply.status then .error (answeredWith url reply.status) else .ok reply
  | .httpError text => .error text

namespace Balancer

/-- The loop of `probe_all` up to its next await. -/
def walk (b : Balancer) : List String → ProbePhase
  | [] => .done
  | url :: rest =>
      match b.states url with
      | none => .lookupFailed
      | some object => if (b.objects object).healthy then b.walk rest else .waiting url object rest

/-- What `probe_all` does with an outcome. An error is written to the record it
holds, whatever the state map says by then. -/
def recordProbe (b : Balancer) (outcome : UpstreamOutcome) (now : Clock) (url : String) (object : Nat) :
    Option Balancer :=
  match outcome with
  | .response response => if response.status < 500 then b.recordSuccess url else some b
  | .httpError _ => some (b.write object { b.objects object with downSince := some now })

end Balancer

namespace GatewayState

def initial (urls : List String) : GatewayState :=
  ⟨.new urls, fun _ => .idle, fun _ => .idle, fun _ => [], fun _ => [], fun _ => []⟩

def setCall (s : GatewayState) (c : CallId) (phase : RequestPhase) : GatewayState :=
  { s with calls := Function.update s.calls c phase }

def setProbe (s : GatewayState) (p : ProbeId) (phase : ProbePhase) : GatewayState :=
  { s with probes := Function.update s.probes p phase }

/-- A new balancer state, in which the calls in flight see who is healthy. -/
def observe (s : GatewayState) (b : Balancer) : GatewayState :=
  { s with
    balancer := b
    steady := fun c => if (s.calls c).inFlight then (s.steady c).filter b.healthy else s.steady c }

/-- Send the request to an instance and await its response. -/
def send (s : GatewayState) (c : CallId) (url : String) (tried : List String) (left : Nat) :
    GatewayState :=
  { s.setCall c (.waiting url (tried ++ [url]) left) with
    contacts := Function.update s.contacts c (s.contacts c ++ [url]) }

/-- The loop head of `request`, with the number of turns that are left. -/
def turn (config : BalancerConfig) (clock : Nat → Clock) (c : CallId) (tried : List String)
    (lastError : Option String) (s : GatewayState) : Nat → GatewayState
  | 0 => s.setCall c (.raised (exhausted lastError))
  | left + 1 =>
      let (selection, b) := s.balancer.next config clock
      let s := { s with balancer := b }
      match selection with
      | .picked url =>
          if url ∈ tried then s.setCall c (.raised (exhausted lastError)) else s.send c url tried left
      | .unavailable => s.setCall c (.raised noneAvailable)
      | .lookupFailed => s.setCall c .lookupFailed

/-- The start of a call. -/
def begin (s : GatewayState) (c : CallId) : GatewayState :=
  { s with steady := Function.update s.steady c (s.balancer.urls.filter s.balancer.healthy) }

/-- The attempt failed. -/
def retry (config : BalancerConfig) (clock : Nat → Clock) (now : Clock) (c : CallId) (url : String)
    (tried : List String) (left : Nat) (error : String) (s : GatewayState) : GatewayState :=
  match s.balancer.recordFailure config now url with
  | some b => (s.observe b).turn config clock c tried (some error) left
  | none => s.setCall c .lookupFailed

def receive (s : GatewayState) (c : CallId) (response : HttpResponse) : GatewayState :=
  { s with obtained := Function.update s.obtained c (s.obtained c ++ [response]) }

/-- The attempt succeeded. -/
def conclude (c : CallId) (url : String) (response : HttpResponse) (s : GatewayState) : GatewayState :=
  match s.balancer.recordSuccess url with
  | some b => ((s.receive c response).observe b).setCall c (.returned (withUpstream url response))
  | none => (s.receive c response).setCall c .lookupFailed

end GatewayState

def gatewayStep (config : BalancerConfig) (s : GatewayState) : GatewayAction → Option GatewayState
  | .request c clock =>
      match s.calls c with
      | .idle => some ((s.begin c).turn config clock c [] none s.balancer.urls.length)
      | _ => none
  | .answer c outcome now clock =>
      match s.calls c with
      | .waiting url tried left =>
          match outcome.result url with
          | .error error => some (s.retry config clock now c url tried left error)
          | .ok response => some (s.conclude c url response)
      | _ => none
  | .probe p =>
      match s.probes p with
      | .idle => some (s.setProbe p (s.balancer.walk s.balancer.urls))
      | _ => none
  | .probeAnswer p outcome now =>
      match s.probes p with
      | .waiting url object rest =>
          match s.balancer.recordProbe outcome now url object with
          | some b => some ((s.observe b).setProbe p (b.walk rest))
          | none => some (s.setProbe p .lookupFailed)
      | _ => none
  | .refresh urls => some (s.observe (s.balancer.refresh urls))

namespace GatewayState

variable {config : BalancerConfig} {s t : GatewayState} {c : CallId}

@[simp] theorem setCall_self (s : GatewayState) (c : CallId) (phase : RequestPhase) :
    (s.setCall c phase).calls c = phase := by
  simp [setCall]

theorem setCall_of_ne (s : GatewayState) {c c' : CallId} (phase : RequestPhase) (h : c' ≠ c) :
    (s.setCall c phase).calls c' = s.calls c' := by
  simp [setCall, h]

@[simp] theorem setProbe_self (s : GatewayState) (p : ProbeId) (phase : ProbePhase) :
    (s.setProbe p phase).probes p = phase := by
  simp [setProbe]

theorem setProbe_of_ne (s : GatewayState) {p p' : ProbeId} (phase : ProbePhase) (h : p' ≠ p) :
    (s.setProbe p phase).probes p' = s.probes p' := by
  simp [setProbe, h]

/-- What the loop head of a call does, case by case. -/
inductive Turned (config : BalancerConfig) (clock : Nat → Clock) (c : CallId) (tried : List String)
    (lastError : Option String) (s : GatewayState) : Nat → GatewayState → Prop where
  | outOfTurns : Turned config clock c tried lastError s 0 (s.setCall c (.raised (exhausted lastError)))
  | sent {left : Nat} {url : String} (hPicked : (s.balancer.next config clock).1 = .picked url)
      (hUntried : url ∉ tried) : Turned config clock c tried lastError s (left + 1)
        ({ s with balancer := (s.balancer.next config clock).2 }.send c url tried left)
  | repeated {left : Nat} {url : String} (hPicked : (s.balancer.next config clock).1 = .picked url)
      (hTried : url ∈ tried) : Turned config clock c tried lastError s (left + 1)
        ({ s with balancer := (s.balancer.next config clock).2 }.setCall c (.raised (exhausted lastError)))
  | unavailable {left : Nat} (hNone : (s.balancer.next config clock).1 = .unavailable) :
      Turned config clock c tried lastError s (left + 1)
        ({ s with balancer := (s.balancer.next config clock).2 }.setCall c (.raised noneAvailable))
  | lookupFailed {left : Nat} (hLookup : (s.balancer.next config clock).1 = .lookupFailed) :
      Turned config clock c tried lastError s (left + 1)
        ({ s with balancer := (s.balancer.next config clock).2 }.setCall c .lookupFailed)

theorem turn_turned (config : BalancerConfig) (clock : Nat → Clock) (c : CallId) (tried : List String)
    (lastError : Option String) (s : GatewayState) (left : Nat) :
    Turned config clock c tried lastError s left (s.turn config clock c tried lastError left) := by
  cases left with
  | zero => exact .outOfTurns
  | succ left =>
      unfold turn
      cases hNext : (s.balancer.next config clock).1 with
      | picked url =>
          by_cases hTried : url ∈ tried
          · simpa [hNext, hTried] using Turned.repeated hNext hTried
          · simpa [hNext, hTried] using Turned.sent hNext hTried
      | unavailable => simpa [hNext] using Turned.unavailable hNext
      | lookupFailed => simpa [hNext] using Turned.lookupFailed hNext

/-- What the outcome of an attempt leads to, case by case: the call goes on or
ends with its response, unless the lookup of its instance fails. -/
inductive Answered (config : BalancerConfig) (clock : Nat → Clock) (now : Clock) (c : CallId)
    (url : String) (tried : List String) (left : Nat) (outcome : UpstreamOutcome) (s : GatewayState) :
    GatewayState → Prop where
  | retried {error : String} {b : Balancer} {t : GatewayState} (hError : outcome.result url = .error error)
      (hRecord : s.balancer.recordFailure config now url = some b)
      (hTurned : Turned config clock c tried (some error) (s.observe b) left t) :
      Answered config clock now c url tried left outcome s t
  | failureUnknown {error : String} (hError : outcome.result url = .error error)
      (hRecord : s.balancer.recordFailure config now url = none) :
      Answered config clock now c url tried left outcome s (s.setCall c .lookupFailed)
  | returned {response : HttpResponse} {b : Balancer} (hOk : outcome.result url = .ok response)
      (hRecord : s.balancer.recordSuccess url = some b) :
      Answered config clock now c url tried left outcome s
        (((s.receive c response).observe b).setCall c (.returned (withUpstream url response)))
  | successUnknown {response : HttpResponse} (hOk : outcome.result url = .ok response)
      (hRecord : s.balancer.recordSuccess url = none) :
      Answered config clock now c url tried left outcome s
        ((s.receive c response).setCall c .lookupFailed)

/-- The calls other than the one that runs are as they were. A call in flight
may learn that an instance is not healthy. -/
structure CallsKept (who : Option CallId) (s t : GatewayState) : Prop where
  calls : ∀ c, who ≠ some c → t.calls c = s.calls c
  contacts : ∀ c, who ≠ some c → t.contacts c = s.contacts c
  obtained : ∀ c, who ≠ some c → t.obtained c = s.obtained c
  ended : ∀ c, who ≠ some c → (s.calls c).inFlight = false → t.steady c = s.steady c

/-- The pool has the same instances with the same health records. -/
structure PoolKept (s t : GatewayState) : Prop where
  urls : t.balancer.urls = s.balancer.urls
  states : t.balancer.states = s.balancer.states

theorem CallsKept.trans {who : Option CallId} {s m t : GatewayState} (h : CallsKept who s m)
    (h' : CallsKept who m t) : CallsKept who s t := by
  constructor
  · exact fun c hc => (h'.calls c hc).trans (h.calls c hc)
  · exact fun c hc => (h'.contacts c hc).trans (h.contacts c hc)
  · exact fun c hc => (h'.obtained c hc).trans (h.obtained c hc)
  · intro c hc hEnded
    rw [← h.ended c hc hEnded]
    apply h'.ended c hc
    rw [h.calls c hc]
    exact hEnded

theorem PoolKept.trans {s m t : GatewayState} (h : PoolKept s m) (h' : PoolKept m t) : PoolKept s t :=
  ⟨h'.urls.trans h.urls, h'.states.trans h.states⟩

theorem PoolKept.covers (h : PoolKept s t) (hCovers : s.balancer.Covers) : t.balancer.Covers := by
  intro url
  rw [h.states, h.urls]
  exact hCovers url

theorem callsKept_observe (who : Option CallId) (s : GatewayState) (b : Balancer) :
    CallsKept who s (s.observe b) := by
  constructor <;> intro c _
  · rfl
  · rfl
  · rfl
  · intro hEnded
    simp [observe, hEnded]

theorem callsKept_setCall (s : GatewayState) (c : CallId) (phase : RequestPhase) :
    CallsKept (some c) s (s.setCall c phase) := by
  constructor <;> intro c' hc'
  · exact setCall_of_ne s phase fun he => hc' (congrArg some he.symm)
  · rfl
  · rfl
  · exact fun _ => rfl

theorem callsKept_setProbe (s : GatewayState) (p : ProbeId) (phase : ProbePhase) :
    CallsKept none s (s.setProbe p phase) := by
  constructor <;> intros <;> rfl

theorem callsKept_send (s : GatewayState) (c : CallId) (url : String) (tried : List String) (left : Nat) :
    CallsKept (some c) s (s.send c url tried left) := by
  constructor <;> intro c' hc'
  · exact setCall_of_ne s _ fun he => hc' (congrArg some he.symm)
  · exact Function.update_of_ne (fun he => hc' (congrArg some he.symm)) ..
  · rfl
  · exact fun _ => rfl

theorem callsKept_begin (s : GatewayState) (c : CallId) : CallsKept (some c) s (s.begin c) := by
  constructor <;> intro c' hc'
  · rfl
  · rfl
  · rfl
  · exact fun _ => Function.update_of_ne (fun he => hc' (congrArg some he.symm)) ..

/-- Moving the rotation concerns no call. -/
theorem callsKept_rotate (who : Option CallId) (s : GatewayState) (b : Balancer) :
    CallsKept who s { s with balancer := b } := by
  constructor <;> intros <;> rfl

section Turn

variable {clock : Nat → Clock} {tried : List String} {lastError : Option String} {left : Nat}

theorem Turned.callsKept (h : Turned config clock c tried lastError s left t) :
    CallsKept (some c) s t := by
  cases h with
  | outOfTurns => exact callsKept_setCall ..
  | sent => exact (callsKept_rotate ..).trans (callsKept_send ..)
  | repeated => exact (callsKept_rotate ..).trans (callsKept_setCall ..)
  | unavailable => exact (callsKept_rotate ..).trans (callsKept_setCall ..)
  | lookupFailed => exact (callsKept_rotate ..).trans (callsKept_setCall ..)

theorem Turned.poolKept (h : Turned config clock c tried lastError s left t) : PoolKept s t := by
  cases h with
  | outOfTurns => exact ⟨rfl, rfl⟩
  | sent => exact ⟨Balancer.urls_next .., rfl⟩
  | repeated => exact ⟨Balancer.urls_next .., rfl⟩
  | unavailable => exact ⟨Balancer.urls_next .., rfl⟩
  | lookupFailed => exact ⟨Balancer.urls_next .., rfl⟩

/-- The loop head changes nothing that is known of any instance, and nothing
that was recorded of the call but the instance it contacts. -/
theorem Turned.same (h : Turned config clock c tried lastError s left t) :
    t.balancer.healthy = s.balancer.healthy ∧ t.steady = s.steady ∧ t.obtained = s.obtained ∧
      t.probes = s.probes := by
  cases h <;> exact ⟨rfl, rfl, rfl, rfl⟩

/-- The loop head leaves the call waiting or over. -/
theorem turned_not_idle (h : Turned config clock c tried lastError s left t) : t.calls c ≠ .idle := by
  cases h <;> simp [send]

end Turn

end GatewayState

namespace GatewayAction

/-- The call whose code runs in the step. -/
def caller : GatewayAction → Option CallId
  | .request c _ => some c
  | .answer c _ _ _ => some c
  | _ => none

def prober : GatewayAction → Option ProbeId
  | .probe p => some p
  | .probeAnswer p _ _ => some p
  | _ => none

def refreshes : GatewayAction → Bool
  | .refresh _ => true
  | _ => false

end GatewayAction

section Step

open GatewayState

variable {config : BalancerConfig} {s t : GatewayState} {a : GatewayAction}

/-- A step of a call that had not begun. -/
theorem step_request {c : CallId} {clock : Nat → Clock}
    (h : gatewayStep config s (.request c clock) = some t) :
    s.calls c = .idle ∧
      Turned config clock c [] none (s.begin c) s.balancer.urls.length t := by
  simp only [gatewayStep] at h
  split at h
  · next hIdle =>
      cases h
      exact ⟨hIdle, turn_turned ..⟩
  · cases h

/-- A step of a call that awaited an instance. -/
theorem step_answer {c : CallId} {outcome : UpstreamOutcome} {now : Clock} {clock : Nat → Clock}
    (h : gatewayStep config s (.answer c outcome now clock) = some t) :
    ∃ url tried left, s.calls c = .waiting url tried left ∧
      Answered config clock now c url tried left outcome s t := by
  simp only [gatewayStep] at h
  split at h
  · next url tried left hWaiting =>
      refine ⟨url, tried, left, hWaiting, ?_⟩
      split at h
      · next error hError =>
          cases h
          unfold GatewayState.retry
          split
          · next b hRecord => exact .retried hError hRecord (turn_turned ..)
          · next hRecord => exact .failureUnknown hError hRecord
      · next response hOk =>
          cases h
          unfold GatewayState.conclude
          split
          · next b hRecord => exact .returned hOk hRecord
          · next hRecord => exact .successUnknown hOk hRecord
  · cases h

theorem step_probe {p : ProbeId} (h : gatewayStep config s (.probe p) = some t) :
    s.probes p = .idle ∧ t = s.setProbe p (s.balancer.walk s.balancer.urls) := by
  simp only [gatewayStep] at h
  split at h
  · next hIdle =>
      cases h
      exact ⟨hIdle, rfl⟩
  · cases h

theorem step_probeAnswer {p : ProbeId} {outcome : UpstreamOutcome} {now : Clock}
    (h : gatewayStep config s (.probeAnswer p outcome now) = some t) :
    ∃ url object rest, s.probes p = .waiting url object rest ∧
      ((∃ b, s.balancer.recordProbe outcome now url object = some b ∧
          t = (s.observe b).setProbe p (b.walk rest)) ∨
        s.balancer.recordProbe outcome now url object = none ∧ t = s.setProbe p .lookupFailed) := by
  simp only [gatewayStep] at h
  split at h
  · next url object rest hWaiting =>
      refine ⟨url, object, rest, hWaiting, ?_⟩
      split at h
      · next b hRecord =>
          cases h
          exact .inl ⟨b, hRecord, rfl⟩
      · next hRecord =>
          cases h
          exact .inr ⟨hRecord, rfl⟩
  · cases h

theorem recordProbe_frame {b b' : Balancer} {outcome : UpstreamOutcome} {now : Clock} {url : String}
    {object : Nat} (h : b.recordProbe outcome now url object = some b') :
    b'.pool = b.pool ∧ b'.states = b.states := by
  unfold Balancer.recordProbe at h
  split at h
  · split at h
    · exact Balancer.recordSuccess_frame h
    · cases h
      exact ⟨rfl, rfl⟩
  · cases h
    exact ⟨rfl, rfl⟩

theorem poolKept_observe {b : Balancer} (h : b.pool = s.balancer.pool ∧ b.states = s.balancer.states) :
    PoolKept s (s.observe b) := ⟨congrArg Rotation.Wheel.items h.1, h.2⟩

theorem callsKept_receive (s : GatewayState) (c : CallId) (response : HttpResponse) :
    CallsKept (some c) s (s.receive c response) := by
  constructor <;> intro c' hc'
  · rfl
  · rfl
  · exact Function.update_of_ne (fun he => hc' (congrArg some he.symm)) ..
  · exact fun _ => rfl

section Answered

variable {clock : Nat → Clock} {now : Clock} {c : CallId} {url : String} {tried : List String}
  {left : Nat} {outcome : UpstreamOutcome}

theorem GatewayState.Answered.callsKept (h : Answered config clock now c url tried left outcome s t) :
    CallsKept (some c) s t := by
  cases h with
  | retried _ _ hTurned => exact (callsKept_observe ..).trans hTurned.callsKept
  | failureUnknown => exact callsKept_setCall ..
  | returned =>
      exact (callsKept_receive ..).trans ((callsKept_observe ..).trans (callsKept_setCall ..))
  | successUnknown => exact (callsKept_receive ..).trans (callsKept_setCall ..)

theorem GatewayState.Answered.poolKept (h : Answered config clock now c url tried left outcome s t) :
    PoolKept s t := by
  cases h with
  | retried _ hRecord hTurned =>
      exact (poolKept_observe (Balancer.recordFailure_frame hRecord)).trans hTurned.poolKept
  | failureUnknown => exact ⟨rfl, rfl⟩
  | returned _ hRecord =>
      have hFrame := Balancer.recordSuccess_frame hRecord
      exact ⟨congrArg Rotation.Wheel.items hFrame.1, hFrame.2⟩
  | successUnknown => exact ⟨rfl, rfl⟩

theorem GatewayState.Answered.probes (h : Answered config clock now c url tried left outcome s t) :
    t.probes = s.probes := by
  cases h with
  | retried _ _ hTurned => exact hTurned.same.2.2.2
  | failureUnknown => rfl
  | returned => rfl
  | successUnknown => rfl

theorem GatewayState.Answered.not_idle (h : Answered config clock now c url tried left outcome s t) :
    t.calls c ≠ .idle := by
  cases h with
  | retried _ _ hTurned => exact turned_not_idle hTurned
  | _ => simp

end Answered

/-- A step runs the code of one call at most. -/
theorem step_callsKept (h : gatewayStep config s a = some t) : CallsKept a.caller s t := by
  cases a with
  | request c clock => exact (callsKept_begin s c).trans (step_request h).2.callsKept
  | answer c outcome now clock =>
      obtain ⟨url, tried, left, -, hAnswered⟩ := step_answer h
      exact hAnswered.callsKept
  | probe p =>
      obtain ⟨-, rfl⟩ := step_probe h
      exact callsKept_setProbe ..
  | probeAnswer p outcome now =>
      obtain ⟨url, object, rest, -, ⟨b, -, rfl⟩ | ⟨-, rfl⟩⟩ := step_probeAnswer h
      · exact (callsKept_observe ..).trans (callsKept_setProbe ..)
      · exact callsKept_setProbe ..
  | refresh urls =>
      cases h
      exact callsKept_observe ..

/-- Only a refresh changes the pool. -/
theorem step_poolKept (h : gatewayStep config s a = some t) (hFixed : a.refreshes = false) :
    PoolKept s t := by
  cases a with
  | request c clock =>
      have hTurned := (step_request h).2.poolKept
      exact ⟨hTurned.urls, hTurned.states⟩
  | answer c outcome now clock =>
      obtain ⟨url, tried, left, -, hAnswered⟩ := step_answer h
      exact hAnswered.poolKept
  | probe p =>
      obtain ⟨-, rfl⟩ := step_probe h
      exact ⟨rfl, rfl⟩
  | probeAnswer p outcome now =>
      obtain ⟨url, object, rest, -, ⟨b, hRecord, rfl⟩ | ⟨-, rfl⟩⟩ := step_probeAnswer h
      · have hObserved := poolKept_observe (recordProbe_frame hRecord)
        exact ⟨hObserved.urls, hObserved.states⟩
      · exact ⟨rfl, rfl⟩
  | refresh urls => cases hFixed

/-- The state map covers the pool in every state. -/
theorem step_covers (h : gatewayStep config s a = some t) (hCovers : s.balancer.Covers) :
    t.balancer.Covers := by
  cases hRefresh : a.refreshes with
  | false => exact (step_poolKept h hRefresh).covers hCovers
  | true =>
      cases a with
      | refresh urls =>
          cases h
          exact Balancer.covers_refresh hCovers urls
      | _ => cases hRefresh

/-- What a call has contacted are the instances it has tried, and no instance twice. -/
structure TriesOnce (s : GatewayState) (c : CallId) : Prop where
  idle : s.calls c = .idle → s.contacts c = []
  waiting : ∀ url tried left, s.calls c = .waiting url tried left → s.contacts c = tried
  nodup : (s.contacts c).Nodup

/-- A call that is over stays as it was. -/
theorem TriesOnce.over {c : CallId} (h : TriesOnce s c) {phase : RequestPhase} (hBegun : phase ≠ .idle)
    (hOver : phase.inFlight = false) (hPhase : t.calls c = phase) (hContacts : t.contacts c = s.contacts c) :
    TriesOnce t c := by
  refine ⟨fun hIdle => absurd (hPhase.symm.trans hIdle) hBegun, fun url tried left hWaiting => ?_, ?_⟩
  · rw [← hPhase, hWaiting] at hOver
    cases hOver
  · rw [hContacts]
    exact h.nodup

/-- The loop head sends a call to an instance that it has not tried, if to any. -/
theorem TriesOnce.turned {clock : Nat → Clock} {c : CallId} {tried : List String} {lastError : Option String}
    {left : Nat} (h : TriesOnce s c) (hTried : s.contacts c = tried)
    (hTurned : Turned config clock c tried lastError s left t) :
    TriesOnce t c ∧ s.contacts c <+: t.contacts c := by
  cases hTurned with
  | outOfTurns => exact ⟨h.over (by simp) rfl (setCall_self ..) rfl, List.prefix_rfl⟩
  | repeated => exact ⟨h.over (by simp) rfl (setCall_self ..) rfl, List.prefix_rfl⟩
  | unavailable => exact ⟨h.over (by simp) rfl (setCall_self ..) rfl, List.prefix_rfl⟩
  | lookupFailed => exact ⟨h.over (by simp) rfl (setCall_self ..) rfl, List.prefix_rfl⟩
  | @sent left url hPicked hUntried =>
      have hContacts : ({ s with balancer := (s.balancer.next config clock).2 }.send c url tried left).contacts c =
          s.contacts c ++ [url] := Function.update_self ..
      refine ⟨⟨fun hIdle => ?_, fun url' tried' left' hWaiting => ?_, ?_⟩, hContacts ▸ List.prefix_append ..⟩
      · simp [send] at hIdle
      · simp only [send, setCall_self, RequestPhase.waiting.injEq] at hWaiting
        rw [hContacts, hTried, hWaiting.2.1]
      · rw [hContacts]
        refine List.nodup_append.mpr ⟨h.nodup, List.nodup_singleton url, fun other hOther new hNew hSame => ?_⟩
        rw [List.mem_singleton.mp hNew] at hSame
        exact hUntried (hTried ▸ hSame ▸ hOther)

/-- No step makes a call contact an instance for the second time, and what was
contacted stays on record. -/
theorem triesOnce_step (h : gatewayStep config s a = some t) (c : CallId) (hOnce : TriesOnce s c) :
    TriesOnce t c ∧ s.contacts c <+: t.contacts c := by
  by_cases hCaller : a.caller = some c
  · cases a with
    | request c' clock =>
        cases hCaller
        obtain ⟨hIdle, hTurned⟩ := step_request h
        have hBegun : TriesOnce (s.begin c) c := ⟨hOnce.idle, hOnce.waiting, hOnce.nodup⟩
        exact hBegun.turned (hOnce.idle hIdle) hTurned
    | answer c' outcome now clock =>
        cases hCaller
        obtain ⟨url, tried, left, hWaiting, hAnswered⟩ := step_answer h
        have hTried : s.contacts c = tried := hOnce.waiting url tried left hWaiting
        cases hAnswered with
        | @retried error b t hError hRecord hTurned =>
            have hObserved : TriesOnce (s.observe b) c := ⟨hOnce.idle, hOnce.waiting, hOnce.nodup⟩
            exact hObserved.turned hTried hTurned
        | failureUnknown => exact ⟨hOnce.over (by simp) rfl (setCall_self ..) rfl, List.prefix_rfl⟩
        | returned => exact ⟨hOnce.over (by simp) rfl (setCall_self ..) rfl, List.prefix_rfl⟩
        | successUnknown => exact ⟨hOnce.over (by simp) rfl (setCall_self ..) rfl, List.prefix_rfl⟩
    | _ => cases hCaller
  · have hKept := step_callsKept h
    have hContacts : t.contacts c = s.contacts c := hKept.contacts c hCaller
    refine ⟨⟨fun hIdle => ?_, fun url tried left hWaiting => ?_, ?_⟩, hContacts ▸ List.prefix_rfl⟩
    · rw [hContacts]
      exact hOnce.idle ((hKept.calls c hCaller).symm.trans hIdle)
    · rw [hContacts]
      exact hOnce.waiting url tried left ((hKept.calls c hCaller).symm.trans hWaiting)
    · rw [hContacts]
      exact hOnce.nodup

theorem triesOnce_initial (urls : List String) (c : CallId) : TriesOnce (GatewayState.initial urls) c :=
  ⟨fun _ => rfl, nofun, List.nodup_nil⟩

/-- The loop head sends a call to an instance of the pool, if to any. -/
theorem mem_contacts_turned {clock : Nat → Clock} {c : CallId} {tried : List String} {lastError : Option String}
    {left : Nat} (hCovers : s.balancer.Covers) (hTurned : Turned config clock c tried lastError s left t) {url : String}
    (hMem : url ∈ t.contacts c) : url ∈ s.contacts c ∨ url ∈ s.balancer.urls := by
  cases hTurned with
  | @sent left picked hPicked hUntried =>
      have hContacts : ({ s with balancer := (s.balancer.next config clock).2 }.send c picked tried left).contacts c =
          s.contacts c ++ [picked] := Function.update_self ..
      rw [hContacts, List.mem_append, List.mem_singleton] at hMem
      rcases hMem with hOld | rfl
      · exact Or.inl hOld
      · exact Or.inr (Balancer.next_picked_mem hCovers hPicked)
  | _ => exact Or.inl hMem

/-- A step contacts instances of the pool alone. -/
theorem mem_contacts_step (h : gatewayStep config s a = some t) (hCovers : s.balancer.Covers) {c : CallId} {url : String}
    (hMem : url ∈ t.contacts c) : url ∈ s.contacts c ∨ url ∈ s.balancer.urls := by
  by_cases hCaller : a.caller = some c
  · cases a with
    | request c' clock =>
        cases hCaller
        have hBegun : (s.begin c).balancer.Covers := hCovers
        exact mem_contacts_turned hBegun (step_request h).2 hMem
    | answer c' outcome now clock =>
        cases hCaller
        obtain ⟨asked, tried, left, -, hAnswered⟩ := step_answer h
        cases hAnswered with
        | @retried error b t hError hRecord hTurned =>
            have hKept := poolKept_observe (Balancer.recordFailure_frame hRecord)
            have hSame := mem_contacts_turned (hKept.covers hCovers) hTurned hMem
            rwa [hKept.urls] at hSame
        | _ => exact Or.inl hMem
    | _ => cases hCaller
  · rw [(step_callsKept h).contacts c hCaller] at hMem
    exact Or.inl hMem

theorem covers_initial (urls : List String) : (GatewayState.initial urls).balancer.Covers :=
  Balancer.covers_install (fun _ => none) urls _

end Step

end ServicePlatform.Gateway
