import ServicePlatform.Gateway.BalancerSystem

/-! Refreshing the pool under requests and probes in flight. A refresh drops
the health records of the instances that left. A request records the outcome
of an instance it picked before, and a probe pass walks over the URL list it
began with, so both may look up an instance that is gone. -/
namespace ServicePlatform.Gateway

open Transition GatewayState

variable {config : BalancerConfig} {s t : GatewayState} {a : GatewayAction}

namespace Balancer

/-- Each instance up to the first that is not healthy is in the pool. -/
def Walkable (b : Balancer) (urls : List String) : Prop :=
  ∀ passed url later, urls = passed ++ url :: later →
    (∀ other ∈ passed, b.healthy other = true) → url ∈ b.urls

variable {b : Balancer}

theorem walkable_of_subset {urls : List String} (h : ∀ url ∈ urls, url ∈ b.urls) : b.Walkable urls := by
  rintro passed url later rfl -
  apply h
  simp

theorem walkable_cons (url : String) (urls : List String) :
    b.Walkable (url :: urls) ↔ url ∈ b.urls ∧ (b.healthy url = true → b.Walkable urls) := by
  constructor
  · intro h
    refine ⟨h [] url urls rfl (fun other hOther => absurd hOther List.not_mem_nil), ?_⟩
    intro hHealthy passed other later hSplit hPassed
    apply h (url :: passed) other later (by rw [hSplit]; rfl)
    intro v hv
    rcases List.mem_cons.mp hv with rfl | hv
    · exact hHealthy
    · exact hPassed v hv
  · rintro ⟨hMem, hRest⟩ passed other later hSplit hPassed
    cases passed with
    | nil =>
        cases hSplit
        exact hMem
    | cons v passed =>
        cases hSplit
        apply hRest (hPassed url (List.mem_cons_self ..)) passed other later rfl
        exact fun w hw => hPassed w (List.mem_cons_of_mem _ hw)

/-- A pass of probes looks up the instances it passes and the one it stops at. -/
theorem walk_lookup_iff (hCovers : b.Covers) (urls : List String) :
    b.walk urls ≠ .lookupFailed ↔ b.Walkable urls := by
  induction urls with
  | nil =>
      refine iff_of_true (by simp [walk]) ?_
      intro passed url later hSplit
      cases passed <;> cases hSplit
  | cons url urls ih =>
      rw [walkable_cons, ← hCovers url, ← ih, walk]
      cases hState : b.states url with
      | none => simp
      | some object => cases hHealthy : (b.objects object).healthy <;> simp [healthy, health, hState, hHealthy]

/-- Only an answer of a recovered instance is looked up. -/
theorem recordProbe_none (hCovers : b.Covers) {outcome : UpstreamOutcome} {now : Clock} {url : String}
    {object : Nat} : b.recordProbe outcome now url object = none ↔
      (∃ response, outcome = .response response ∧ response.status < 500) ∧ url ∉ b.urls := by
  cases outcome with
  | response reply =>
      by_cases hLive : reply.status < 500
      · simp [recordProbe, hLive, recordSuccess_none hCovers]
      · simp [recordProbe, hLive]
  | httpError text => simp [recordProbe]

end Balancer

/-- The call did not meet a `KeyError`, and returned what it obtained. -/
structure SafeCall (s : GatewayState) (c : CallId) : Prop where
  found : s.calls c ≠ .lookupFailed
  returned : ∀ response ∈ s.obtained c, ∃ url, s.calls c = .returned (withUpstream url response)

/-- Every request and every probe pass is safe. A request that did not meet a
`KeyError` can only have raised a `DownstreamError`. -/
structure Safe (s : GatewayState) : Prop where
  calls : ∀ c, SafeCall s c
  probes : ∀ p, s.probes p ≠ .lookupFailed

/-- The step condition: the instance whose outcome arrives is in the pool, and
so are those that a probe pass looks up next. -/
def InstancesKnown (s : GatewayState) : GatewayAction → Prop
  | .answer c _ _ _ => ∀ url tried left, s.calls c = .waiting url tried left → url ∈ s.balancer.urls
  | .probeAnswer p outcome now =>
      ∀ url object rest, s.probes p = .waiting url object rest →
        ((∃ response, outcome = .response response ∧ response.status < 500) → url ∈ s.balancer.urls) ∧
        ∀ b, s.balancer.recordProbe outcome now url object = some b → b.Walkable rest
  | _ => True

/-- What is known of every state: a call that is not over has no response. -/
structure PendingInv (s : GatewayState) : Prop where
  covers : s.balancer.Covers
  idle : ∀ c, s.calls c = .idle → s.obtained c = []
  waiting : ∀ c, (s.calls c).inFlight = true → s.obtained c = []

theorem pendingInv_initial (urls : List String) : PendingInv (GatewayState.initial urls) :=
  ⟨covers_initial urls, fun _ _ => rfl, fun _ _ => rfl⟩

/-- A call without a response is safe unless it met a `KeyError`. -/
theorem safeCall_pending {c : CallId} (hFound : s.calls c ≠ .lookupFailed) (hNone : s.obtained c = []) :
    SafeCall s c := by
  refine ⟨hFound, ?_⟩
  intro response hMem
  rw [hNone] at hMem
  cases hMem

theorem turned_found {clock : Nat → Clock} {c : CallId} {tried : List String}
    {lastError : Option String} {left : Nat} (hCovers : s.balancer.Covers)
    (h : Turned config clock c tried lastError s left t) : t.calls c ≠ .lookupFailed := by
  cases h with
  | lookupFailed hLookup => exact absurd hLookup (Balancer.next_lookup hCovers)
  | _ => simp [send]

theorem known_answer_iff {c : CallId} {outcome : UpstreamOutcome} {now : Clock} {clock : Nat → Clock}
    {url : String} {tried : List String} {left : Nat} (hWaiting : s.calls c = .waiting url tried left) :
    InstancesKnown s (.answer c outcome now clock) ↔ url ∈ s.balancer.urls := by
  constructor
  · exact fun h => h url tried left hWaiting
  · intro hMem url' tried' left' hWaiting'
    cases hWaiting.symm.trans hWaiting'
    exact hMem

section Call

variable {c : CallId} {url : String} {tried : List String} {left : Nat}

/-- A call in flight stays safe iff its instance has not left the pool. -/
theorem answered_safeCall (inv : PendingInv s) (hWaiting : s.calls c = .waiting url tried left)
    {now : Clock} {clock : Nat → Clock} {outcome : UpstreamOutcome}
    (h : Answered config clock now c url tried left outcome s t) :
    SafeCall t c ↔ url ∈ s.balancer.urls := by
  have hNone := inv.waiting c (by simp [hWaiting, RequestPhase.inFlight])
  cases h with
  | retried _ hRecord hTurned =>
      have hPool := poolKept_observe (Balancer.recordFailure_frame hRecord)
      have hObtained := congrFun hTurned.same.2.2.1 c
      refine iff_of_true ?_ ?_
      · apply safeCall_pending (turned_found (hPool.covers inv.covers) hTurned)
        exact hObtained.trans hNone
      · by_contra hGone
        rw [(Balancer.recordFailure_none inv.covers).mpr hGone] at hRecord
        cases hRecord
  | failureUnknown _ hRecord =>
      refine iff_of_false ?_ ((Balancer.recordFailure_none inv.covers).mp hRecord)
      exact fun hSafe => hSafe.found (setCall_self ..)
  | @returned response b _ hRecord =>
      refine iff_of_true ⟨by simp, ?_⟩ ?_
      · intro other hMem
        have hOnly : other = response := by simpa [setCall, observe, receive, hNone] using hMem
        rw [hOnly]
        exact ⟨url, setCall_self ..⟩
      · by_contra hGone
        rw [(Balancer.recordSuccess_none inv.covers).mpr hGone] at hRecord
        cases hRecord
  | successUnknown _ hRecord =>
      refine iff_of_false ?_ ((Balancer.recordSuccess_none inv.covers).mp hRecord)
      exact fun hSafe => hSafe.found (setCall_self ..)

/-- A call whose code does not run is safe as before. -/
theorem safeCall_other (h : gatewayStep config s a = some t) (hOther : a.caller ≠ some c) :
    SafeCall t c ↔ SafeCall s c := by
  have hKept := step_callsKept h
  constructor
  · rintro ⟨hFound, hReturned⟩
    rw [hKept.calls c hOther] at hFound hReturned
    rw [hKept.obtained c hOther] at hReturned
    exact ⟨hFound, hReturned⟩
  · rintro ⟨hFound, hReturned⟩
    rw [← hKept.calls c hOther] at hFound hReturned
    rw [← hKept.obtained c hOther] at hReturned
    exact ⟨hFound, hReturned⟩

/-- The call whose code runs stays safe exactly when its instance is known. -/
theorem safeCall_caller (inv : PendingInv s) (h : gatewayStep config s a = some t)
    (hCaller : a.caller = some c) : SafeCall s c ∧ (SafeCall t c ↔ InstancesKnown s a) := by
  cases a with
  | request c' clock =>
      cases hCaller
      obtain ⟨hIdle, hTurned⟩ := step_request h
      have hObtained := congrFun hTurned.same.2.2.1 c
      refine ⟨safeCall_pending (by simp [hIdle]) (inv.idle c hIdle), iff_of_true ?_ trivial⟩
      apply safeCall_pending (turned_found (s := s.begin c) inv.covers hTurned)
      exact hObtained.trans (inv.idle c hIdle)
  | answer c' outcome now clock =>
      cases hCaller
      obtain ⟨url, tried, left, hWaiting, hAnswered⟩ := step_answer h
      rw [known_answer_iff hWaiting]
      constructor
      · apply safeCall_pending (by simp [hWaiting])
        exact inv.waiting c (by simp [hWaiting, RequestPhase.inFlight])
      · exact answered_safeCall inv hWaiting hAnswered
  | _ => cases hCaller

end Call

/-- The call whose code runs has begun, and has no response while it waits. -/
theorem PendingInv.caller {c : CallId} (inv : PendingInv s) (h : gatewayStep config s a = some t)
    (hCaller : a.caller = some c) :
    t.calls c ≠ .idle ∧ ((t.calls c).inFlight = true → t.obtained c = []) := by
  cases a with
  | request c' clock =>
      cases hCaller
      obtain ⟨hIdle, hTurned⟩ := step_request h
      refine ⟨turned_not_idle hTurned, fun _ => ?_⟩
      exact (congrFun hTurned.same.2.2.1 c).trans (inv.idle c hIdle)
  | answer c' outcome now clock =>
      cases hCaller
      obtain ⟨url, tried, left, hWaiting, hAnswered⟩ := step_answer h
      refine ⟨hAnswered.not_idle, fun hFlight => ?_⟩
      cases hAnswered with
      | retried _ _ hTurned =>
          apply (congrFun hTurned.same.2.2.1 c).trans
          exact inv.waiting c (by simp [hWaiting, RequestPhase.inFlight])
      | _ => simp [RequestPhase.inFlight] at hFlight
  | _ => cases hCaller

theorem pendingInv_step (inv : PendingInv s) (h : gatewayStep config s a = some t) : PendingInv t := by
  have hKept := step_callsKept h
  constructor
  · exact step_covers h inv.covers
  · intro c hIdle
    by_cases hCaller : a.caller = some c
    · exact absurd hIdle (inv.caller h hCaller).1
    · rw [hKept.obtained c hCaller]
      exact inv.idle c ((hKept.calls c hCaller).symm.trans hIdle)
  · intro c hFlight
    by_cases hCaller : a.caller = some c
    · exact (inv.caller h hCaller).2 hFlight
    · rw [hKept.obtained c hCaller]
      rw [hKept.calls c hCaller] at hFlight
      exact inv.waiting c hFlight

section Probe

variable {p : ProbeId}

/-- A pass whose code does not run stands where it stood. -/
theorem probes_other (h : gatewayStep config s a = some t) (hOther : a.prober ≠ some p) :
    t.probes p = s.probes p := by
  cases a with
  | request c clock =>
      rw [(step_request h).2.same.2.2.2]
      rfl
  | answer c outcome now clock =>
      obtain ⟨url, tried, left, -, hAnswered⟩ := step_answer h
      rw [hAnswered.probes]
  | probe q =>
      obtain ⟨-, rfl⟩ := step_probe h
      exact setProbe_of_ne s _ fun he => hOther (congrArg some he.symm)
  | probeAnswer q outcome now =>
      have hNe : p ≠ q := fun he => hOther (congrArg some he.symm)
      obtain ⟨url, object, rest, -, ⟨b, -, rfl⟩ | ⟨-, rfl⟩⟩ := step_probeAnswer h
      · exact setProbe_of_ne _ _ hNe
      · exact setProbe_of_ne s _ hNe
  | refresh urls =>
      cases h
      rfl

/-- The pass whose code runs stays safe exactly when its instances are known. -/
theorem probe_prober (hCovers : s.balancer.Covers) (h : gatewayStep config s a = some t)
    (hProber : a.prober = some p) :
    s.probes p ≠ .lookupFailed ∧ (t.probes p ≠ .lookupFailed ↔ InstancesKnown s a) := by
  cases a with
  | probe q =>
      cases hProber
      obtain ⟨hIdle, rfl⟩ := step_probe h
      refine ⟨by simp [hIdle], iff_of_true ?_ trivial⟩
      rw [setProbe_self, Balancer.walk_lookup_iff hCovers]
      exact Balancer.walkable_of_subset fun _ hMem => hMem
  | probeAnswer q outcome now =>
      cases hProber
      obtain ⟨url, object, rest, hWaiting, hAfter⟩ := step_probeAnswer h
      refine ⟨by simp [hWaiting], ?_⟩
      rcases hAfter with ⟨b, hRecord, rfl⟩ | ⟨hRecord, rfl⟩
      · have hCovers' : b.Covers := (poolKept_observe (recordProbe_frame hRecord)).covers hCovers
        rw [setProbe_self, Balancer.walk_lookup_iff hCovers']
        constructor
        · intro hWalk url' object' rest' hWaiting'
          cases hWaiting.symm.trans hWaiting'
          refine ⟨?_, ?_⟩
          · intro hLive
            by_contra hGone
            rw [(Balancer.recordProbe_none hCovers).mpr ⟨hLive, hGone⟩] at hRecord
            cases hRecord
          · intro b' hRecord'
            cases hRecord.symm.trans hRecord'
            exact hWalk
        · exact fun hKnown => (hKnown url object rest hWaiting).2 b hRecord
      · obtain ⟨hLive, hGone⟩ := (Balancer.recordProbe_none hCovers).mp hRecord
        refine iff_of_false (by simp) ?_
        exact fun hKnown => hGone ((hKnown url object rest hWaiting).1 hLive)
  | _ => cases hProber

end Probe

theorem safe_iff (s : GatewayState) :
    Safe s ↔ (∀ c, SafeCall s c) ∧ ∀ p, s.probes p ≠ .lookupFailed :=
  ⟨fun h => ⟨h.calls, h.probes⟩, fun h => ⟨h.1, h.2⟩⟩

/-- A step of one call decides about the calls. -/
theorem safeCalls_step {c : CallId} (inv : PendingInv s) (h : gatewayStep config s a = some t)
    (hCaller : a.caller = some c) :
    (∀ c, SafeCall t c) ↔ (∀ c, SafeCall s c) ∧ InstancesKnown s a := by
  obtain ⟨hBefore, hNow⟩ := safeCall_caller inv h hCaller
  apply forall_iff_moved c _ hBefore hNow
  intro c' hOther
  apply safeCall_other h
  rw [hCaller]
  exact fun hSame => hOther (Option.some.inj hSame).symm

/-- A step of one probe pass decides about the passes. -/
theorem safeProbes_step {p : ProbeId} (inv : PendingInv s) (h : gatewayStep config s a = some t)
    (hProber : a.prober = some p) :
    (∀ p, t.probes p ≠ .lookupFailed) ↔ (∀ p, s.probes p ≠ .lookupFailed) ∧ InstancesKnown s a := by
  obtain ⟨hBefore, hNow⟩ := probe_prober inv.covers h hProber
  apply forall_iff_moved p _ hBefore hNow
  intro p' hOther
  rw [probes_other h]
  rw [hProber]
  exact fun hSame => hOther (Option.some.inj hSame).symm

/-- One step keeps the system safe exactly when the instances it looks up are
in the pool. -/
theorem safe_step (inv : PendingInv s) (h : gatewayStep config s a = some t) :
    Safe t ↔ Safe s ∧ InstancesKnown s a := by
  rw [safe_iff, safe_iff]
  cases hCaller : a.caller with
  | some c =>
      have hProbes : ∀ p, t.probes p = s.probes p := by
        intro p
        apply probes_other h
        cases a <;> simp [GatewayAction.caller, GatewayAction.prober] at hCaller ⊢
      rw [safeCalls_step inv h hCaller]
      simp only [hProbes]
      exact and_right_comm
  | none =>
      have hCalls : ∀ c, SafeCall t c ↔ SafeCall s c :=
        fun c => safeCall_other h (by simp [hCaller])
      simp only [hCalls, and_assoc]
      apply and_congr_right
      intro _
      cases hProber : a.prober with
      | some p => exact safeProbes_step inv h hProber
      | none =>
          have hKnown : InstancesKnown s a := by
            cases a with
            | answer => cases hCaller
            | probeAnswer => cases hProber
            | _ => trivial
          have hProbes : ∀ p, t.probes p = s.probes p := fun p => probes_other h (by simp [hProber])
          simp only [hProbes, hKnown, and_true]

/-- A run is safe exactly when no outcome arrives from, and no probe pass comes
to, an instance that a refresh has dropped. -/
theorem refresh_safe_iff {urls : List String} {actions : List GatewayAction}
    (hRun : exec (gatewayStep config) (GatewayState.initial urls) actions = some t) :
    Safe t ↔ Along (gatewayStep config) InstancesKnown (GatewayState.initial urls) actions := by
  rw [holds_iff_along (I := PendingInv) (A := fun _ => True)
    (fun s a t inv _ h => pendingInv_step inv h)
    (fun s a t inv _ h => safe_step inv h) (pendingInv_initial urls) (fun _ _ => trivial) hRun]
  have hStart : Safe (GatewayState.initial urls) := by
    constructor
    · intro c
      exact safeCall_pending (by simp [GatewayState.initial]) rfl
    · simp [GatewayState.initial]
  simp only [hStart, true_and]

section Examples

/-- A call in flight while an instance joins the pool. -/
def joined : List GatewayAction :=
  [.request 0 fun _ => 0, .refresh ["http://a:1", "http://b:1"],
    .answer 0 (.response ⟨200, [], []⟩) 1 fun _ => 1]

/-- A call in flight while its instance leaves the pool. -/
def departed : List GatewayAction :=
  [.request 0 fun _ => 0, .refresh ["http://b:1"], .answer 0 (.response ⟨200, [], []⟩) 1 fun _ => 1]

theorem refresh_safe_iff_joined :
    ∃ t, exec (gatewayStep .default) (GatewayState.initial ["http://a:1"]) joined = some t ∧
      (Safe t ↔ Along (gatewayStep .default) InstancesKnown (GatewayState.initial ["http://a:1"]) joined) := by
  have hRun : (exec (gatewayStep .default) (GatewayState.initial ["http://a:1"]) joined).isSome = true := rfl
  obtain ⟨t, ht⟩ := Option.isSome_iff_exists.mp hRun
  exact ⟨t, ht, refresh_safe_iff ht⟩

/-- The response of an instance that has left is lost to a `KeyError`. -/
theorem refresh_loses_response :
    ¬ ∀ (config : BalancerConfig) (urls : List String) (actions : List GatewayAction) (t : GatewayState),
      (∀ urls', .refresh urls' ∈ actions → urls' ≠ []) →
      exec (gatewayStep config) (GatewayState.initial urls) actions = some t → Safe t := by
  intro h
  have hRun : ∃ t, exec (gatewayStep .default) (GatewayState.initial ["http://a:1"]) departed = some t ∧
      t.calls 0 = .lookupFailed := ⟨_, rfl, rfl⟩
  obtain ⟨t, ht, hLookup⟩ := hRun
  have hRefresh : ∀ urls', .refresh urls' ∈ departed → urls' ≠ [] := by
    intro urls' hMem
    simp only [departed, List.mem_cons, reduceCtorEq, GatewayAction.refresh.injEq, List.not_mem_nil, or_false,
      false_or] at hMem
    rw [hMem]
    decide
  exact ((h .default ["http://a:1"] departed t hRefresh ht).calls 0).found hLookup

end Examples

end ServicePlatform.Gateway
