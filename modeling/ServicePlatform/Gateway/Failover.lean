import ServicePlatform.Gateway.BalancerSystem
import Mathlib.Data.List.Perm.Subperm

/-! Failover under concurrent requests. All calls share the rotation, and each
gives up when it is handed an instance that it has tried. So a call reaches
every healthy instance exactly when an untried one comes up first at each of
its picks. -/
namespace ServicePlatform.Gateway

open Rotation Transition GatewayState

variable {config : BalancerConfig} {s t : GatewayState} {a : GatewayAction} {c : CallId}

/-- The instances a call has tried, and the turns it has left, make up the pool. -/
structure Attempts (urls tried : List String) (left : Nat) : Prop where
  nodup : tried.Nodup
  known : ∀ url ∈ tried, url ∈ urls
  length : tried.length + left = urls.length

namespace Attempts

variable {urls tried : List String} {left : Nat} {url : String}

theorem nil (urls : List String) : Attempts urls [] urls.length :=
  ⟨List.nodup_nil, fun _ h => absurd h List.not_mem_nil, Nat.zero_add _⟩

theorem concat (h : Attempts urls tried (left + 1)) (hMem : url ∈ urls) (hUntried : url ∉ tried) :
    Attempts urls (tried ++ [url]) left := by
  constructor
  · exact List.nodup_append.mpr ⟨h.nodup, List.nodup_singleton url, by
      intro a ha b hb he
      rw [List.mem_singleton.mp hb] at he
      exact hUntried (he ▸ ha)⟩
  · intro other hOther
    rcases List.mem_append.mp hOther with hOld | hNew
    · exact h.known other hOld
    · rw [List.mem_singleton.mp hNew]
      exact hMem
  · have hLength := h.length
    rw [List.length_append, List.length_singleton]
    omega

/-- A call without turns has tried the whole pool. -/
theorem all (h : Attempts urls tried 0) (hMem : url ∈ urls) : url ∈ tried := by
  have hPerm : tried.Perm urls := by
    apply (List.subperm_of_subset h.nodup h.known).perm_of_length_le
    have hLength := h.length
    omega
  exact hPerm.mem_iff.mpr hMem

end Attempts

/-- From the position on, an available instance that the call has not tried
comes up before every available instance that it has tried. -/
def UntriedFirst (config : BalancerConfig) (clock : Nat → Clock) (b : Balancer) (tried : List String) :
    Prop :=
  ∃ i url, b.pool.upcoming[i]? = some url ∧ url ∉ tried ∧
    b.isAvailable config (clock i) url = some true ∧
    ∀ j < i, ∀ other, b.pool.upcoming[j]? = some other → other ∈ tried →
      b.isAvailable config (clock j) other ≠ some true

/-- `_next` hands out an untried instance exactly when one comes up first. -/
theorem untriedFirst_iff {b : Balancer} (hCovers : b.Covers) {clock : Nat → Clock} {url : String}
    {tried : List String} (hPicked : (b.next config clock).1 = .picked url) :
    UntriedFirst config clock b tried ↔ url ∉ tried := by
  rw [Wheel.next_avoids_iff (fun url => url ∈ tried) ((Balancer.next_picked hCovers).mp hPicked)]
  have hKnown : ∀ i other, b.pool.upcoming[i]? = some other →
      (b.stopsAt config clock i other = true ↔ b.isAvailable config (clock i) other = some true) := by
    intro i other hAt
    exact Balancer.stopsAt_iff hCovers (Wheel.mem_upcoming.mp (List.mem_of_getElem? hAt))
  have hPassed : ∀ i other, b.pool.upcoming[i]? = some other →
      (b.stopsAt config clock i other = false ↔ b.isAvailable config (clock i) other ≠ some true) := by
    intro i other hAt
    rw [← Bool.not_eq_true, hKnown i other hAt]
  constructor
  · rintro ⟨i, other, hAt, hUntried, hAvailable, hFirst⟩
    refine ⟨i, other, hAt, hUntried, (hKnown i other hAt).mpr hAvailable, ?_⟩
    exact fun j hj v hv hTried => (hPassed j v hv).mpr (hFirst j hj v hv hTried)
  · rintro ⟨i, other, hAt, hUntried, hStops, hFirst⟩
    refine ⟨i, other, hAt, hUntried, (hKnown i other hAt).mp hStops, ?_⟩
    exact fun j hj v hv hTried => (hPassed j v hv).mp (hFirst j hj v hv hTried)

/-- The call raises only when it has contacted every instance that stayed
healthy since it began. -/
def ContactsSteady (s : GatewayState) (c : CallId) : Prop :=
  ∀ message, s.calls c = .raised message → ∀ url ∈ s.steady c, url ∈ s.contacts c

/-- The step condition: when an attempt has failed while an instance that
stayed healthy is untried, the next instance to come up is an untried one. -/
def PicksUntried (config : BalancerConfig) (s : GatewayState) : GatewayAction → Prop
  | .answer c outcome now clock =>
      ∀ url tried left error b, s.calls c = .waiting url tried left →
        outcome.result url = .error error → s.balancer.recordFailure config now url = some b →
        left ≠ 0 → (∃ other ∈ s.steady c, b.healthy other = true ∧ other ∉ tried) →
        UntriedFirst config clock b tried
  | _ => True

/-- The pool of a run without refresh, and what is known of each call. -/
structure FixedPool (urls : List String) (s : GatewayState) : Prop where
  pool : s.balancer.urls = urls
  covers : s.balancer.Covers
  idle : ∀ c, s.calls c = .idle → s.contacts c = []
  waiting : ∀ c url tried left, s.calls c = .waiting url tried left →
    s.contacts c = tried ∧ url ∈ tried ∧ Attempts urls tried left

/-- A call at the head of its loop, with the instances that are healthy. -/
structure AtLoopHead (c : CallId) (tried : List String) (left : Nat) (s : GatewayState) : Prop where
  covers : s.balancer.Covers
  attempts : Attempts s.balancer.urls tried left
  contacts : s.contacts c = tried
  healthy : ∀ url ∈ s.steady c, s.balancer.healthy url = true

section Turn

variable {urls tried : List String} {clock : Nat → Clock} {lastError : Option String} {left : Nat}

/-- A call that goes on waits for an instance it had not tried. -/
theorem turned_waiting (hHead : AtLoopHead c tried left s)
    (h : Turned config clock c tried lastError s left t) {url : String} {tried' : List String}
    {left' : Nat} (hWaiting : t.calls c = .waiting url tried' left') :
    t.contacts c = tried' ∧ url ∈ tried' ∧ Attempts s.balancer.urls tried' left' := by
  cases h with
  | sent hPicked hUntried =>
      simp only [send, setCall_self, RequestPhase.waiting.injEq] at hWaiting
      obtain ⟨rfl, rfl, rfl⟩ := hWaiting
      have hMem := Balancer.next_picked_mem hHead.covers hPicked
      refine ⟨?_, List.mem_append_right _ (List.mem_singleton_self _),
        hHead.attempts.concat hMem hUntried⟩
      simp [send, hHead.contacts]
  | _ => simp only [setCall_self, reduceCtorEq] at hWaiting

/-- The loop head keeps the promise exactly when an untried instance comes up. -/
theorem turned_contactsSteady (hHead : AtLoopHead c tried left s)
    (h : Turned config clock c tried lastError s left t) :
    ContactsSteady t c ↔ (left ≠ 0 → (∃ url ∈ s.steady c, url ∉ tried) →
      UntriedFirst config clock s.balancer tried) := by
  cases h with
  | outOfTurns =>
      refine iff_of_true ?_ (fun hLeft => absurd rfl hLeft)
      intro message _ url hMem
      show url ∈ s.contacts c
      rw [hHead.contacts]
      exact hHead.attempts.all (Balancer.healthy_mem hHead.covers (hHead.healthy url hMem))
  | sent hPicked hUntried =>
      refine iff_of_true ?_ fun _ _ => (untriedFirst_iff hHead.covers hPicked).mpr hUntried
      intro message hRaised
      simp [send] at hRaised
  | repeated hPicked hTried =>
      rw [untriedFirst_iff hHead.covers hPicked]
      constructor
      · rintro hSteady - ⟨other, hOther, hUntried⟩ -
        apply hUntried
        rw [← hHead.contacts]
        exact hSteady _ (setCall_self ..) other hOther
      · intro hNone message _ other hOther
        show other ∈ s.contacts c
        rw [hHead.contacts]
        by_contra hUntried
        exact hNone (Nat.succ_ne_zero _) ⟨other, hOther, hUntried⟩ hTried
  | unavailable hNone =>
      have hEmpty : ∀ url, url ∉ s.steady c := by
        intro url hMem
        have hDown := Balancer.next_unavailable hHead.covers hNone url
        rw [hHead.healthy url hMem] at hDown
        cases hDown
      constructor
      · rintro - - ⟨other, hOther, -⟩
        exact absurd hOther (hEmpty other)
      · intro _ message _ other hOther
        exact absurd hOther (hEmpty other)
  | lookupFailed hLookup => exact absurd hLookup (Balancer.next_lookup hHead.covers)

/-- The first pick of a call cannot be one that it has tried. -/
theorem turned_first (hHead : AtLoopHead c [] left s)
    (h : Turned config clock c [] lastError s left t) : ContactsSteady t c := by
  rw [turned_contactsSteady hHead h]
  rintro hLeft ⟨url, hMem, -⟩
  cases h with
  | outOfTurns => exact absurd rfl hLeft
  | sent hPicked hUntried => exact (untriedFirst_iff hHead.covers hPicked).mpr hUntried
  | repeated _ hTried => exact absurd hTried List.not_mem_nil
  | unavailable hNone =>
      have hDown := Balancer.next_unavailable hHead.covers hNone url
      rw [hHead.healthy url hMem] at hDown
      cases hDown
  | lookupFailed hLookup => exact absurd hLookup (Balancer.next_lookup hHead.covers)

end Turn

section FixedPool

variable {urls tried : List String} {url : String} {left : Nat}

theorem fixedPool_initial (urls : List String) : FixedPool urls (GatewayState.initial urls) := by
  constructor
  · exact Balancer.urls_install ..
  · exact covers_initial urls
  · exact fun _ _ => rfl
  · intro c url tried left h
    cases h

theorem FixedPool.begin (inv : FixedPool urls s) (hIdle : s.calls c = .idle) :
    AtLoopHead c [] s.balancer.urls.length (s.begin c) := by
  constructor
  · exact inv.covers
  · exact Attempts.nil _
  · exact inv.idle c hIdle
  · intro url hMem
    simp only [GatewayState.begin, Function.update_self, List.mem_filter] at hMem
    exact hMem.2

theorem FixedPool.retry (inv : FixedPool urls s) (hWaiting : s.calls c = .waiting url tried left)
    {now : Clock} {b : Balancer} (hRecord : s.balancer.recordFailure config now url = some b) :
    AtLoopHead c tried left (s.observe b) := by
  have hPool := poolKept_observe (Balancer.recordFailure_frame hRecord)
  obtain ⟨hContacts, -, hAttempts⟩ := inv.waiting c url tried left hWaiting
  constructor
  · exact hPool.covers inv.covers
  · rw [hPool.urls, inv.pool]
    exact hAttempts
  · exact hContacts
  · intro other hMem
    simp only [observe, hWaiting, RequestPhase.inFlight, if_true, List.mem_filter] at hMem
    exact hMem.2

/-- Without refresh, the instance that a call waits for stays in the pool. -/
theorem FixedPool.recorded (inv : FixedPool urls s) (config : BalancerConfig) (hWaiting : s.calls c = .waiting url tried left)
    (now : Clock) : ∃ b, s.balancer.recordFailure config now url = some b := by
  obtain ⟨-, hTried, hAttempts⟩ := inv.waiting c url tried left hWaiting
  apply Option.ne_none_iff_exists'.mp
  intro hNone
  apply (Balancer.recordFailure_none inv.covers).mp hNone
  rw [inv.pool]
  exact hAttempts.known url hTried

/-- What the call whose code runs looks like after the step. -/
theorem FixedPool.caller (inv : FixedPool urls s) (h : gatewayStep config s a = some t)
    (hCaller : a.caller = some c) :
    t.calls c ≠ .idle ∧ ∀ url tried left, t.calls c = .waiting url tried left →
      t.contacts c = tried ∧ url ∈ tried ∧ Attempts urls tried left := by
  cases a with
  | request c' clock =>
      cases hCaller
      obtain ⟨hIdle, hTurned⟩ := step_request h
      refine ⟨turned_not_idle hTurned, ?_⟩
      intro url tried left hWaiting
      have hNext := turned_waiting (inv.begin hIdle) hTurned hWaiting
      rwa [show (s.begin c).balancer.urls = urls from inv.pool] at hNext
  | answer c' outcome now clock =>
      cases hCaller
      obtain ⟨url, tried, left, hBefore, hAnswered⟩ := step_answer h
      refine ⟨hAnswered.not_idle, ?_⟩
      intro url' tried' left' hWaiting
      cases hAnswered with
      | retried _ hRecord hTurned =>
          have hNext := turned_waiting (inv.retry hBefore hRecord) hTurned hWaiting
          have hPool := poolKept_observe (Balancer.recordFailure_frame hRecord)
          rwa [hPool.urls, inv.pool] at hNext
      | _ => simp at hWaiting
  | _ => cases hCaller

theorem fixedPool_step (inv : FixedPool urls s) (hFixed : a.refreshes = false)
    (h : gatewayStep config s a = some t) : FixedPool urls t := by
  have hPool := step_poolKept h hFixed
  have hKept := step_callsKept h
  constructor
  · exact hPool.urls.trans inv.pool
  · exact hPool.covers inv.covers
  · intro c hIdle
    by_cases hCaller : a.caller = some c
    · exact absurd hIdle (inv.caller h hCaller).1
    · rw [hKept.contacts c hCaller]
      exact inv.idle c ((hKept.calls c hCaller).symm.trans hIdle)
  · intro c url tried left hWaiting
    by_cases hCaller : a.caller = some c
    · exact (inv.caller h hCaller).2 url tried left hWaiting
    · rw [hKept.contacts c hCaller]
      exact inv.waiting c url tried left ((hKept.calls c hCaller).symm.trans hWaiting)

/-- A call whose code does not run keeps or breaks the promise as before. -/
theorem contactsSteady_other (h : gatewayStep config s a = some t) (hOther : a.caller ≠ some c) :
    ContactsSteady t c ↔ ContactsSteady s c := by
  have hKept := step_callsKept h
  unfold ContactsSteady
  rw [hKept.calls c hOther, hKept.contacts c hOther]
  apply forall_congr'
  intro message
  apply imp_congr_right
  intro hRaised
  rw [hKept.ended c hOther (by simp [hRaised, RequestPhase.inFlight])]

/-- An outcome breaks the promise only in a step that breaks the condition. -/
theorem answered_contactsSteady (inv : FixedPool urls s) {now : Clock} {clock : Nat → Clock}
    {outcome : UpstreamOutcome} (hBefore : s.calls c = .waiting url tried left)
    (h : Answered config clock now c url tried left outcome s t) :
    ContactsSteady t c ↔ PicksUntried config s (.answer c outcome now clock) := by
  cases h with
  | @retried error b _ hError hRecord hTurned =>
      rw [turned_contactsSteady (inv.retry hBefore hRecord) hTurned]
      have hSteady : ∀ other, other ∈ (s.observe b).steady c ↔
          other ∈ s.steady c ∧ b.healthy other = true := by
        intro other
        simp [observe, hBefore, RequestPhase.inFlight]
      simp only [hSteady, and_assoc]
      constructor
      · intro hFirst url' tried' left' error' b' hWaiting _ hRecord'
        cases hBefore.symm.trans hWaiting
        cases hRecord.symm.trans hRecord'
        exact hFirst
      · intro hPicks
        exact hPicks url tried left error b hBefore hError hRecord
  | failureUnknown _ hRecord =>
      obtain ⟨b, hKnown⟩ := inv.recorded config hBefore now
      rw [hRecord] at hKnown
      cases hKnown
  | returned hOk _ | successUnknown hOk _ =>
      refine iff_of_true ?_ ?_
      · intro message hRaised
        simp at hRaised
      · intro url' tried' left' error b hWaiting hError
        cases hBefore.symm.trans hWaiting
        rw [hOk] at hError
        cases hError

/-- The call whose code runs breaks the promise only in a step that breaks the
condition. -/
theorem contactsSteady_caller (inv : FixedPool urls s) (h : gatewayStep config s a = some t)
    (hCaller : a.caller = some c) :
    ContactsSteady s c ∧ (ContactsSteady t c ↔ PicksUntried config s a) := by
  cases a with
  | request c' clock =>
      cases hCaller
      obtain ⟨hIdle, hTurned⟩ := step_request h
      constructor
      · intro message hRaised
        rw [hIdle] at hRaised
        cases hRaised
      · exact iff_of_true (turned_first (inv.begin hIdle) hTurned) trivial
  | answer c' outcome now clock =>
      cases hCaller
      obtain ⟨url, tried, left, hBefore, hAnswered⟩ := step_answer h
      constructor
      · intro message hRaised
        rw [hBefore] at hRaised
        cases hRaised
      · exact answered_contactsSteady inv hBefore hAnswered
  | _ => cases hCaller

/-- One step keeps the promise to all calls exactly when it picks untried
instances first. -/
theorem contactsSteady_step (inv : FixedPool urls s) (h : gatewayStep config s a = some t) :
    (∀ c, ContactsSteady t c) ↔ (∀ c, ContactsSteady s c) ∧ PicksUntried config s a := by
  cases hCaller : a.caller with
  | none =>
      have hOther : ∀ c, ContactsSteady t c ↔ ContactsSteady s c :=
        fun c => contactsSteady_other h (by simp [hCaller])
      have hPicks : PicksUntried config s a := by
        cases a with
        | answer => cases hCaller
        | _ => trivial
      simp only [hOther, hPicks, and_true]
  | some c =>
      obtain ⟨hBefore, hNow⟩ := contactsSteady_caller inv h hCaller
      apply forall_iff_moved c _ hBefore hNow
      intro c' hOther
      apply contactsSteady_other h
      rw [hCaller]
      exact fun hSame => hOther (Option.some.inj hSame).symm

end FixedPool

/-- Without refresh, every call that raises has contacted all instances that
stayed healthy while it ran, exactly when at each failure with such an
instance untried the next instance to come up is untried. -/
theorem contacts_steady_iff {urls : List String} {actions : List GatewayAction}
    (hFixed : ∀ a ∈ actions, a.refreshes = false)
    (hRun : exec (gatewayStep config) (GatewayState.initial urls) actions = some t) :
    (∀ c, ContactsSteady t c) ↔
      Along (gatewayStep config) (PicksUntried config) (GatewayState.initial urls) actions := by
  rw [holds_iff_along (I := FixedPool urls) (fun s a t inv hA h => fixedPool_step inv hA h)
    (fun s a t inv _ h => contactsSteady_step inv h) (fixedPool_initial urls) hFixed hRun]
  have hStart : ∀ c, ContactsSteady (GatewayState.initial urls) c := by
    intro c message hRaised
    cases hRaised
  simp only [hStart, implies_true, true_and]

section Examples

def twoInstances : List String := ["http://a:1", "http://b:1"]

/-- One call alone fails over to the second instance. -/
def failedOver : List GatewayAction :=
  [.request 0 fun _ => 0, .answer 0 (.httpError "refused") 1 fun _ => 1,
    .answer 0 (.response ⟨200, [], []⟩) 2 fun _ => 2]

/-- A second call takes the instance that the first one would go on to. -/
def overtaken : List GatewayAction :=
  [.request 0 fun _ => 0, .request 1 fun _ => 0, .answer 0 (.httpError "refused") 1 fun _ => 1]

theorem contacts_steady_iff_failedOver :
    ∃ t, exec (gatewayStep .default) (GatewayState.initial twoInstances) failedOver = some t ∧
      ((∀ c, ContactsSteady t c) ↔ Along (gatewayStep .default) (PicksUntried .default)
        (GatewayState.initial twoInstances) failedOver) := by
  have hRun : (exec (gatewayStep .default) (GatewayState.initial twoInstances) failedOver).isSome =
      true := rfl
  obtain ⟨t, ht⟩ := Option.isSome_iff_exists.mp hRun
  exact ⟨t, ht, contacts_steady_iff (by decide) ht⟩

/-- The first call raises although an instance that was healthy all the time
was not contacted. -/
theorem overtaken_call_misses_healthy :
    ¬ ∀ (config : BalancerConfig) (urls : List String) (actions : List GatewayAction) (t : GatewayState),
      urls.Nodup → (∀ a ∈ actions, a.refreshes = false) →
      exec (gatewayStep config) (GatewayState.initial urls) actions = some t → ∀ c, ContactsSteady t c := by
  intro h
  have hRun : ∃ t, exec (gatewayStep .default) (GatewayState.initial twoInstances) overtaken =
      some t ∧ t.calls 0 = .raised (exhausted (some "refused")) ∧
      t.steady 0 = ["http://a:1", "http://b:1"] ∧ t.contacts 0 = ["http://a:1"] :=
    ⟨_, rfl, rfl, rfl, rfl⟩
  obtain ⟨t, ht, hRaised, hSteady, hContacts⟩ := hRun
  have hMissed := h .default twoInstances overtaken t (by decide) (by decide) ht 0 _ hRaised
  rw [hSteady, hContacts] at hMissed
  exact absurd (hMissed "http://b:1" (by decide)) (by decide)

end Examples

end ServicePlatform.Gateway
