import ServicePlatform.Gateway.Failover
import ServicePlatform.Gateway.HealthLedger
import ServicePlatform.Rotation.Sweep

/-! One call of `request` with no other operation in between: the loop runs
from its first turn to its end on a balancer that nobody else touches. The
records of the instances change only by the failures of the call itself, so the
turns are one sweep of the rotation that takes the instances it contacts. -/
namespace ServicePlatform.Gateway

open Rotation Transition

/-- The clock in one turn of a request: as `_next` looks at each place, and as
the outcome is recorded. -/
structure Reading where
  scan : Nat → Clock
  recorded : Clock

/-- The clock does not go back. -/
structure Ticking (clock : Nat → Reading) : Prop where
  scan : ∀ k i j, i ≤ j → (clock k).scan i ≤ (clock k).scan j
  recorded : ∀ k i, (clock k).scan i ≤ (clock k).recorded
  next : ∀ k i, (clock k).recorded ≤ (clock (k + 1)).scan i

/-- How a request ends. A `DownstreamError` is known by its message. -/
inductive RequestResult where
  | returned (response : HttpResponse)
  | raised (message : String)
  | lookupFailed
  deriving DecidableEq

/-- The balancer after a request, the instances it contacted, in order, and its
result. -/
structure RequestRun where
  balancer : Balancer
  contacts : List String
  result : RequestResult

namespace Balancer

/-- The loop of `request`. A turn contacts an instance that was not tried, so
the turns and the instances tried are numbered alike. -/
def requestLoop (config : BalancerConfig) (outcomes : String → UpstreamOutcome) (clock : Nat → Reading)
    (tried : List String) (lastError : Option String) (b : Balancer) : Nat → RequestRun
  | 0 => ⟨b, tried, .raised (exhausted lastError)⟩
  | left + 1 =>
      let (selection, b) := b.next config (clock tried.length).scan
      match selection with
      | .picked url =>
          if url ∈ tried then ⟨b, tried, .raised (exhausted lastError)⟩
          else
            match (outcomes url).result url with
            | .error error =>
                match b.recordFailure config (clock tried.length).recorded url with
                | some b => requestLoop config outcomes clock (tried ++ [url]) (some error) b left
                | none => ⟨b, tried ++ [url], .lookupFailed⟩
            | .ok response =>
                match b.recordSuccess url with
                | some b => ⟨b, tried ++ [url], .returned (withUpstream url response)⟩
                | none => ⟨b, tried ++ [url], .lookupFailed⟩
      | .unavailable => ⟨b, tried, .raised noneAvailable⟩
      | .lookupFailed => ⟨b, tried, .lookupFailed⟩

/-- `request`, where each instance has the outcome that it would give. -/
def request (config : BalancerConfig) (outcomes : String → UpstreamOutcome) (clock : Nat → Reading)
    (b : Balancer) : RequestRun :=
  requestLoop config outcomes clock [] none b b.urls.length

def availableAt (config : BalancerConfig) (b : Balancer) (now : Clock) (url : String) : Bool :=
  b.isAvailable config now url == some true

/-- What holds of a balancer at all times: each instance of the pool has a
record of its own. -/
structure WellFormed (b : Balancer) : Prop where
  covers : b.Covers
  distinct : Distinct b.states
  bound : ∀ url object, b.states url = some object → object < b.allocated

end Balancer

/-- The instance answers below 500. -/
def Answers (outcomes : String → UpstreamOutcome) (url : String) (reply : HttpResponse) : Prop :=
  outcomes url = .response reply ∧ reply.status < 500

/-- The instance answers with 500 or above, or not at all. -/
def Fails (outcomes : String → UpstreamOutcome) (url : String) : Prop :=
  ∀ reply, ¬ Answers outcomes url reply

section Outcomes

variable {outcomes : String → UpstreamOutcome} {url : String}

theorem result_ok {reply : HttpResponse} :
    (outcomes url).result url = .ok reply ↔ Answers outcomes url reply := by
  unfold UpstreamOutcome.result Answers
  cases hOutcome : outcomes url with
  | response other =>
      by_cases hStatus : 500 ≤ other.status
      · simp only [if_pos hStatus, reduceCtorEq, UpstreamOutcome.response.injEq, false_iff, not_and]
        rintro rfl
        omega
      · simp only [if_neg hStatus, Except.ok.injEq, UpstreamOutcome.response.injEq]
        constructor
        · rintro rfl
          exact ⟨rfl, by omega⟩
        · exact fun h => h.1
  | httpError text => simp

theorem fails_of_error {error : String} (h : (outcomes url).result url = .error error) :
    Fails outcomes url := by
  intro reply hAnswers
  rw [result_ok.mpr hAnswers] at h
  cases h

end Outcomes

namespace InstanceHealth

variable {config : BalancerConfig} {state : InstanceHealth}

/-- An available instance stays available while nobody records a failure. -/
theorem available_mono {now later : Clock} (hLater : now ≤ later) (h : state.available config now = true) :
    state.available config later = true := by
  unfold available at h ⊢
  rw [Bool.or_eq_true] at h ⊢
  rcases h with hHealthy | hCooled
  · exact Or.inl hHealthy
  · obtain ⟨since, hSince, hPassed⟩ := Option.any_eq_true _ _ |>.mp hCooled
    right
    rw [hSince, Option.any_some, decide_eq_true_eq]
    exact Int.le_trans (of_decide_eq_true hPassed) (Int.sub_le_sub_right hLater since)

end InstanceHealth

namespace Balancer

variable {config : BalancerConfig} {b b' : Balancer} {url : String}

theorem availableAt_iff {now : Clock} : b.availableAt config now url = true ↔
    ∃ state, b.health url = some state ∧ state.available config now = true := by
  unfold availableAt isAvailable
  rw [beq_iff_eq, Option.map_eq_some_iff]

theorem availableAt_mono {now later : Clock} (hLater : now ≤ later)
    (h : b.availableAt config now url = true) : b.availableAt config later url = true := by
  obtain ⟨state, hState, hAvailable⟩ := availableAt_iff.mp h
  exact availableAt_iff.mpr ⟨state, hState, InstanceHealth.available_mono hLater hAvailable⟩

/-- Writing the record of one instance leaves the others as they are. -/
theorem health_write (hDistinct : Distinct b.states) {object : Nat} (hObject : b.states url = some object)
    (state : InstanceHealth) (other : String) :
    (b.write object state).health other = if other = url then some state else b.health other := by
  show (b.states other).map (Function.update b.objects object state) = _
  split
  · next hSame =>
      rw [hSame, hObject, Option.map_some, Function.update_self]
  · next hOther =>
      unfold health
      cases hState : b.states other with
      | none => rfl
      | some object' =>
          have hObjects : object' ≠ object := by
            rintro rfl
            exact hOther (hDistinct other url object' hState hObject)
          rw [Option.map_some, Option.map_some, Function.update_of_ne hObjects]

theorem recordFailure_health (hDistinct : Distinct b.states) {now : Clock}
    (h : b.recordFailure config now url = some b') (other : String) :
    b'.health other =
      if other = url then (b.health url).map (InstanceHealth.failed config now) else b.health other := by
  obtain ⟨object, hObject, rfl⟩ := Option.map_eq_some_iff.mp h
  rw [health_write hDistinct hObject]
  unfold health
  rw [hObject]
  rfl

theorem recordSuccess_health (hDistinct : Distinct b.states) (h : b.recordSuccess url = some b')
    (other : String) : b'.health other = if other = url then some .fresh else b.health other := by
  obtain ⟨object, hObject, rfl⟩ := Option.map_eq_some_iff.mp h
  exact health_write hDistinct hObject .fresh other

/-- Same pool, same state map: the operations of a request keep both. -/
theorem WellFormed.of_frame (h : b.WellFormed) (hUrls : b'.urls = b.urls) (hStates : b'.states = b.states)
    (hAllocated : b'.allocated = b.allocated) : b'.WellFormed := by
  constructor
  · intro url
    rw [hStates, hUrls]
    exact h.covers url
  · rw [hStates]
    exact h.distinct
  · rw [hStates, hAllocated]
    exact h.bound

theorem WellFormed.next (h : b.WellFormed) (config : BalancerConfig) (clock : Nat → Clock) :
    (b.next config clock).2.WellFormed := h.of_frame (urls_next b clock) rfl rfl

theorem WellFormed.recordFailure (h : b.WellFormed) {now : Clock}
    (hRecord : b.recordFailure config now url = some b') : b'.WellFormed := by
  obtain ⟨object, -, rfl⟩ := Option.map_eq_some_iff.mp hRecord
  exact h.of_frame rfl rfl rfl

theorem WellFormed.recordSuccess (h : b.WellFormed) (hRecord : b.recordSuccess url = some b') :
    b'.WellFormed := by
  obtain ⟨object, -, rfl⟩ := Option.map_eq_some_iff.mp hRecord
  exact h.of_frame rfl rfl rfl

/-- A pool that is installed over the records of an earlier one. -/
theorem WellFormed.install {old : String → Option Nat}
    (hOld : ∀ url object, old url = some object → object < b.allocated) (hDistinct : Distinct old)
    (urls : List String) : (install old urls b).WellFormed := by
  have hAdopted := adopted_install hOld hDistinct urls
  constructor
  · exact covers_install old urls b
  · exact hAdopted.distinct
  · exact fun url object hObject => (hAdopted.referred url object hObject).1

theorem wellFormed_new (urls : List String) : (new urls).WellFormed := by
  apply WellFormed.install
  · intro url object h
    cases h
  · intro url url' object h
    cases h

theorem WellFormed.refresh (h : b.WellFormed) (urls : List String) : (b.refresh urls).WellFormed := by
  unfold Balancer.refresh
  split
  · exact h
  · exact WellFormed.install h.bound h.distinct urls.eraseDups

/-- The rest of a request, case by case. -/
inductive Tries (config : BalancerConfig) (outcomes : String → UpstreamOutcome) (clock : Nat → Reading) :
    List String → Option String → Nat → Balancer → RequestRun → Prop where
  | outOfTurns {tried : List String} {lastError : Option String} {b : Balancer} :
      Tries config outcomes clock tried lastError 0 b ⟨b, tried, .raised (exhausted lastError)⟩
  | unavailable {tried : List String} {lastError : Option String} {left : Nat} {b : Balancer}
      (hNone : (b.next config (clock tried.length).scan).1 = .unavailable) :
      Tries config outcomes clock tried lastError (left + 1) b
        ⟨(b.next config (clock tried.length).scan).2, tried, .raised noneAvailable⟩
  | repeated {tried : List String} {lastError : Option String} {left : Nat} {b : Balancer} {url : String}
      (hPicked : (b.next config (clock tried.length).scan).1 = .picked url) (hTried : url ∈ tried) :
      Tries config outcomes clock tried lastError (left + 1) b
        ⟨(b.next config (clock tried.length).scan).2, tried, .raised (exhausted lastError)⟩
  | returned {tried : List String} {lastError : Option String} {left : Nat} {b b' : Balancer}
      {url : String} {response : HttpResponse}
      (hPicked : (b.next config (clock tried.length).scan).1 = .picked url) (hUntried : url ∉ tried)
      (hOk : (outcomes url).result url = .ok response)
      (hRecord : (b.next config (clock tried.length).scan).2.recordSuccess url = some b') :
      Tries config outcomes clock tried lastError (left + 1) b
        ⟨b', tried ++ [url], .returned (withUpstream url response)⟩
  | retried {tried : List String} {lastError : Option String} {left : Nat} {b b' : Balancer}
      {url error : String} {run : RequestRun}
      (hPicked : (b.next config (clock tried.length).scan).1 = .picked url) (hUntried : url ∉ tried)
      (hError : (outcomes url).result url = .error error)
      (hRecord : (b.next config (clock tried.length).scan).2.recordFailure config
        (clock tried.length).recorded url = some b')
      (hRest : Tries config outcomes clock (tried ++ [url]) (some error) left b' run) :
      Tries config outcomes clock tried lastError (left + 1) b run

variable {outcomes : String → UpstreamOutcome} {clock : Nat → Reading}

/-- No lookup of a request fails. -/
theorem tries_requestLoop (h : b.WellFormed) (tried : List String) (lastError : Option String) (left : Nat) :
    Tries config outcomes clock tried lastError left b
      (requestLoop config outcomes clock tried lastError b left) := by
  induction left generalizing b tried lastError with
  | zero => exact .outOfTurns
  | succ left ih =>
      have hNext := h.next config (clock tried.length).scan
      unfold requestLoop
      cases hSelection : (b.next config (clock tried.length).scan).1 with
      | unavailable =>
          simp only [hSelection]
          exact .unavailable hSelection
      | lookupFailed => exact absurd hSelection (next_lookup h.covers)
      | picked url =>
          have hMem : url ∈ (b.next config (clock tried.length).scan).2.urls := by
            rw [urls_next]
            exact next_picked_mem h.covers hSelection
          by_cases hTried : url ∈ tried
          · simp only [hSelection, if_pos hTried]
            exact .repeated hSelection hTried
          · simp only [hSelection, if_neg hTried]
            cases hOutcome : (outcomes url).result url with
            | error error =>
                cases hRecord : (b.next config (clock tried.length).scan).2.recordFailure config
                    (clock tried.length).recorded url with
                | none => exact absurd hMem ((recordFailure_none hNext.covers).mp hRecord)
                | some b' =>
                    exact .retried hSelection hTried hOutcome hRecord
                      (ih (hNext.recordFailure hRecord) (tried ++ [url]) (some error))
            | ok response =>
                cases hRecord : (b.next config (clock tried.length).scan).2.recordSuccess url with
                | none => exact absurd hMem ((recordSuccess_none hNext.covers).mp hRecord)
                | some b' => exact .returned hSelection hTried hOutcome hRecord

/-- A request changes neither the pool nor the state map. -/
theorem tries_wellFormed {tried : List String} {lastError : Option String} {left : Nat} {run : RequestRun}
    (h : b.WellFormed) (hTries : Tries config outcomes clock tried lastError left b run) :
    run.balancer.WellFormed ∧ run.balancer.urls = b.urls := by
  induction hTries with
  | outOfTurns => exact ⟨h, rfl⟩
  | unavailable => exact ⟨h.next _ _, urls_next ..⟩
  | repeated => exact ⟨h.next _ _, urls_next ..⟩
  | returned _ _ _ hRecord =>
      refine ⟨(h.next _ _).recordSuccess hRecord, ?_⟩
      exact (congrArg Wheel.items (recordSuccess_frame hRecord).1).trans (urls_next ..)
  | retried _ _ _ hRecord _ ih =>
      obtain ⟨hWellFormed, hUrls⟩ := ih ((h.next _ _).recordFailure hRecord)
      refine ⟨hWellFormed, hUrls.trans ?_⟩
      exact (congrArg Wheel.items (recordFailure_frame hRecord).1).trans (urls_next ..)

theorem request_wellFormed (config : BalancerConfig) (outcomes : String → UpstreamOutcome)
    (clock : Nat → Reading) (h : b.WellFormed) : (b.request config outcomes clock).balancer.WellFormed ∧
      (b.request config outcomes clock).balancer.urls = b.urls :=
  tries_wellFormed h (@tries_requestLoop config b outcomes clock h [] none b.urls.length)

/-- Every instance of a new pool is healthy. -/
theorem health_new {urls : List String} (hMem : url ∈ urls) : (new urls).health url = some .fresh := by
  have hAdopted : Adopted (fun _ => none) ⟨⟨[], 0⟩, fun _ => none, fun _ => .fresh, 0⟩ (new urls) := by
    apply adopted_install
    · intro url object h
      cases h
    · intro url url' object h
      cases h
  have hState := ((wellFormed_new urls).covers url).mpr (by rw [new, urls_install]; exact hMem)
  obtain ⟨object, hObject⟩ := Option.ne_none_iff_exists'.mp hState
  rcases (hAdopted.referred url object hObject).2 with hOld | ⟨-, -, hFresh⟩
  · cases hOld
  · unfold health
    rw [hObject, Option.map_some, hFresh]

end Balancer

variable {config : BalancerConfig} {outcomes : String → UpstreamOutcome} {clock : Nat → Reading}
  {start b : Balancer} {tried : List String} {left : Nat} {url : String}

theorem Ticking.from_start (h : Ticking clock) (k i : Nat) : (clock 0).scan 0 ≤ (clock k).scan i := by
  induction k generalizing i with
  | zero => exact h.scan 0 0 i (Nat.zero_le i)
  | succ k ih => exact Int.le_trans (ih 0) (Int.le_trans (h.recorded k 0) (h.next k i))

/-- The instances that are available as the request begins. -/
def readyAtStart (config : BalancerConfig) (clock : Nat → Reading) (start : Balancer) : String → Bool :=
  start.availableAt config ((clock 0).scan 0)

/-- The instances contacted so far: a sweep of the pool, each of them available
by what was known of it at the start when its turn came. -/
structure Swept (config : BalancerConfig) (clock : Nat → Reading) (start : Balancer) (tried : List String)
    (left : Nat) (pool : Wheel String) : Prop where
  attempts : Attempts start.urls tried left
  sweep : ∃ places, Sweep start.pool (readyAtStart config clock start) tried places pool
  cooled : ∀ k url, tried[k]? = some url →
    ∃ i < start.urls.length, start.availableAt config ((clock k).scan i) url = true

/-- A request between two turns. What it knows of the untried instances is what
was known at the start. -/
structure Underway (config : BalancerConfig) (outcomes : String → UpstreamOutcome) (clock : Nat → Reading)
    (start : Balancer) (tried : List String) (left : Nat) (b : Balancer) : Prop where
  wellFormed : b.WellFormed
  urls : b.urls = start.urls
  swept : Swept config clock start tried left b.pool
  kept : ∀ url, url ∉ tried → b.health url = start.health url
  failing : ∀ url ∈ tried, Fails outcomes url

namespace Swept

theorem nodup {pool : Wheel String} (h : Swept config clock start tried left pool) : tried.Nodup :=
  h.attempts.nodup

theorem ordered {pool : Wheel String} (h : Swept config clock start tried left pool) :
    (tried.filter (readyAtStart config clock start)).Sublist start.pool.upcoming := by
  obtain ⟨places, hSweep⟩ := h.sweep
  exact hSweep.ordered.trans (List.take_sublist ..)

end Swept

namespace Underway

theorem begin (h : b.WellFormed) : Underway config outcomes clock b [] b.urls.length b where
  wellFormed := h
  urls := rfl
  swept := ⟨.nil b.urls, ⟨0, .begin ..⟩, fun _ _ hAt => by cases hAt⟩
  kept := fun _ _ => rfl
  failing := fun _ h => absurd h List.not_mem_nil

theorem availableAt (h : Underway config outcomes clock start tried left b) (hUntried : url ∉ tried)
    (now : Clock) : b.availableAt config now url = start.availableAt config now url := by
  unfold Balancer.availableAt Balancer.isAvailable
  rw [h.kept url hUntried]

/-- `_next` stops at an instance that was available at the start and is untried. -/
theorem accepts (h : Underway config outcomes clock start tried left b) (hClock : Ticking clock) :
    Accepts (b.stopsAt config (clock tried.length).scan) start.pool (readyAtStart config clock start) tried := by
  intro i url hMem hReady hUntried
  have hKnown : url ∈ b.urls := h.urls ▸ hMem
  have hNow := Balancer.availableAt_mono (hClock.from_start tried.length i) hReady
  rw [← h.availableAt hUntried] at hNow
  exact (Balancer.stopsAt_iff h.wellFormed.covers hKnown).mpr (beq_iff_eq.mp hNow)

theorem stops (h : Underway config outcomes clock start tried left b)
    (hPicked : (b.next config (clock tried.length).scan).1 = .picked url) :
    ∃ i, Wheel.Stops (b.stopsAt config (clock tried.length).scan) b.pool i url ∧
      (b.next config (clock tried.length).scan).2.pool = b.pool.advance (i + 1) := by
  obtain ⟨i, hStops⟩ := Wheel.next_some.mp ((Balancer.next_picked h.wellFormed.covers).mp hPicked)
  exact ⟨i, hStops, congrArg Prod.snd hStops.next⟩

/-- A turn that contacts an instance. -/
theorem pick (h : Underway config outcomes clock start tried (left + 1) b) (hClock : Ticking clock)
    (hPicked : (b.next config (clock tried.length).scan).1 = .picked url) (hUntried : url ∉ tried) :
    Swept config clock start (tried ++ [url]) left (b.next config (clock tried.length).scan).2.pool := by
  obtain ⟨i, hStops, hPool⟩ := h.stops hPicked
  obtain ⟨places, hSweep⟩ := h.swept.sweep
  have hKnown : url ∈ b.urls := Balancer.next_picked_mem h.wellFormed.covers hPicked
  constructor
  · exact h.swept.attempts.concat (h.urls ▸ hKnown) hUntried
  · rw [hPool]
    exact ⟨_, hSweep.take (h.accepts hClock) hStops hUntried⟩
  · intro k other hAt
    rcases getElem?_concat_iff.mp hAt with hOld | ⟨rfl, rfl⟩
    · exact h.swept.cooled k other hOld
    · have hLength : b.pool.upcoming.length = start.urls.length := by
        rw [hSweep.length_upcoming]
        exact List.length_rotate ..
      refine ⟨i, hLength ▸ hStops.lt, ?_⟩
      rw [← h.availableAt hUntried]
      exact beq_iff_eq.mpr ((Balancer.stopsAt_iff h.wellFormed.covers hKnown).mp hStops.accepted)

/-- After a failure the request goes on with its next turn. -/
theorem retry (h : Underway config outcomes clock start tried (left + 1) b) (hClock : Ticking clock)
    {b' : Balancer} (hPicked : (b.next config (clock tried.length).scan).1 = .picked url)
    (hUntried : url ∉ tried) (hFails : Fails outcomes url)
    (hRecord : (b.next config (clock tried.length).scan).2.recordFailure config
      (clock tried.length).recorded url = some b') :
    Underway config outcomes clock start (tried ++ [url]) left b' := by
  have hNext := h.wellFormed.next config (clock tried.length).scan
  constructor
  · exact hNext.recordFailure hRecord
  · exact (congrArg Wheel.items (Balancer.recordFailure_frame hRecord).1).trans
      ((Balancer.urls_next ..).trans h.urls)
  · rw [(Balancer.recordFailure_frame hRecord).1]
    exact h.pick hClock hPicked hUntried
  · intro other hOther
    rw [List.mem_append, List.mem_singleton, not_or] at hOther
    rw [Balancer.recordFailure_health hNext.distinct hRecord, if_neg hOther.2]
    exact h.kept other hOther.1
  · intro other hOther
    rcases List.mem_append.mp hOther with hOld | hLast
    · exact h.failing other hOld
    · rw [List.mem_singleton.mp hLast]
      exact hFails

/-- A request that runs out of untried instances has contacted all that were
available at the start. -/
theorem covered (h : Underway config outcomes clock start tried (left + 1) b) (hClock : Ticking clock)
    (hNodup : start.urls.Nodup)
    (hEnd : (b.next config (clock tried.length).scan).1 = .unavailable ∨
      ∃ url ∈ tried, (b.next config (clock tried.length).scan).1 = .picked url) :
    ∀ url ∈ start.urls, readyAtStart config clock start url = true → url ∈ tried := by
  obtain ⟨places, hSweep⟩ := h.swept.sweep
  rcases hEnd with hNone | ⟨url, hTried, hPicked⟩
  · apply hSweep.none (h.accepts hClock)
    rw [Balancer.next_fst h.wellFormed.covers] at hNone
    split at hNone
    · cases hNone
    · next hFound => exact hFound
  · obtain ⟨i, hStops, -⟩ := h.stops hPicked
    exact hSweep.repeated hNodup (h.accepts hClock) hStops hTried

end Underway

/-- What a request has done when it ends. -/
structure FailedOver (config : BalancerConfig) (outcomes : String → UpstreamOutcome) (clock : Nat → Reading)
    (start : Balancer) (run : RequestRun) : Prop where
  swept : ∃ left pool, Swept config clock start run.contacts left pool
  returned : ∀ response, run.result = .returned response → ∃ passed url reply,
    run.contacts = passed ++ [url] ∧ (∀ other ∈ passed, Fails outcomes other) ∧
      Answers outcomes url reply ∧ response = withUpstream url reply ∧
      run.balancer.health url = some .fresh
  raised : ∀ message, run.result = .raised message → (∀ url ∈ run.contacts, Fails outcomes url) ∧
    ∀ url ∈ start.urls, readyAtStart config clock start url = true → url ∈ run.contacts
  found : run.result ≠ .lookupFailed

/-- A request that raises after its last contact. -/
theorem Underway.raised (h : Underway config outcomes clock start tried left b) (b' : Balancer)
    (message : String)
    (hCovered : ∀ url ∈ start.urls, readyAtStart config clock start url = true → url ∈ tried) :
    FailedOver config outcomes clock start ⟨b', tried, .raised message⟩ where
  swept := ⟨left, b.pool, h.swept⟩
  returned := fun _ he => by cases he
  raised := fun _ _ => ⟨h.failing, hCovered⟩
  found := fun he => by cases he

theorem failedOver_of_tries (hNodup : start.urls.Nodup) (hClock : Ticking clock) {lastError : Option String}
    {run : RequestRun} (h : Underway config outcomes clock start tried left b)
    (hTries : Balancer.Tries config outcomes clock tried lastError left b run) :
    FailedOver config outcomes clock start run := by
  induction hTries with
  | outOfTurns => exact h.raised _ _ fun url hMem _ => h.swept.attempts.all hMem
  | unavailable hNone => exact h.raised _ _ (h.covered hClock hNodup (Or.inl hNone))
  | repeated hPicked hTried => exact h.raised _ _ (h.covered hClock hNodup (Or.inr ⟨_, hTried, hPicked⟩))
  | @returned tried lastError left b b' url response hPicked hUntried hOk hRecord =>
      have hNext := h.wellFormed.next config (clock tried.length).scan
      constructor
      · exact ⟨_, _, h.pick hClock hPicked hUntried⟩
      · intro reply hReply
        cases hReply
        refine ⟨tried, url, response, rfl, h.failing, result_ok.mp hOk, rfl, ?_⟩
        rw [Balancer.recordSuccess_health hNext.distinct hRecord, if_pos rfl]
      · intro message he
        cases he
      · intro he
        cases he
  | retried hPicked hUntried hError hRecord _ ih =>
      exact ih (h.retry hClock hPicked hUntried (fails_of_error hError) hRecord)

theorem request_failedOver (h : b.WellFormed) (hNodup : b.urls.Nodup) (hClock : Ticking clock) :
    FailedOver config outcomes clock b (b.request config outcomes clock) :=
  failedOver_of_tries hNodup hClock (.begin h) (Balancer.tries_requestLoop h [] none b.urls.length)

theorem GatewayState.Turned.wellFormed {c : CallId} {places : Nat → Clock} {lastError : Option String}
    {m t : GatewayState} (h : Turned config places c tried lastError m left t)
    (hBefore : m.balancer.WellFormed) : t.balancer.WellFormed := by
  cases h with
  | outOfTurns => exact hBefore
  | _ => exact hBefore.next config places

/-- The steps of the concurrent system keep the records apart as well. -/
theorem step_wellFormed {s t : GatewayState} {a : GatewayAction} (h : s.balancer.WellFormed)
    (hStep : gatewayStep config s a = some t) : t.balancer.WellFormed := by
  cases a with
  | request c places => exact (step_request hStep).2.wellFormed h
  | answer c outcome now places =>
      obtain ⟨url, tried, left, -, hAnswered⟩ := step_answer hStep
      cases hAnswered with
      | retried _ hRecord hTurned => exact hTurned.wellFormed (h.recordFailure hRecord)
      | failureUnknown => exact h
      | returned _ hRecord => exact h.recordSuccess hRecord
      | successUnknown => exact h
  | probe p =>
      obtain ⟨-, rfl⟩ := step_probe hStep
      exact h
  | probeAnswer p outcome now =>
      obtain ⟨url, object, rest, -, ⟨b, hRecord, rfl⟩ | ⟨-, rfl⟩⟩ := step_probeAnswer hStep
      · unfold Balancer.recordProbe at hRecord
        split at hRecord
        · split at hRecord
          · exact h.recordSuccess hRecord
          · cases hRecord
            exact h
        · cases hRecord
          exact h.of_frame rfl rfl rfl
      · exact h
  | refresh urls =>
      cases hStep
      exact h.refresh urls

/-- Requests, probes and refreshes in any order leave a balancer on which the
next request runs as stated below. -/
theorem wellFormed_run {urls : List String} {actions : List GatewayAction} {t : GatewayState}
    (hRun : exec (gatewayStep config) (.initial urls) actions = some t) : t.balancer.WellFormed :=
  invariant (fun _ _ _ h hStep => step_wellFormed h hStep) (Balancer.wellFormed_new urls) hRun

/-- The call of a request that has ended. -/
def RequestResult.phase : RequestResult → RequestPhase
  | .returned response => .returned response
  | .raised message => .raised message
  | .lookupFailed => .lookupFailed

/-- The system is where a request has ended. -/
structure Ended (c : CallId) (run : RequestRun) (t : GatewayState) : Prop where
  balancer : t.balancer = run.balancer
  contacts : t.contacts c = run.contacts
  phase : t.calls c = run.result.phase

section Sent

variable {c : CallId} {outcome : UpstreamOutcome} {now : Clock} {places : Nat → Clock} {m : GatewayState}
  {b' : Balancer}

/-- The outcome that a call waits for is a response that it returns. -/
theorem step_sent_ok {response : HttpResponse} (hOk : outcome.result url = .ok response)
    (hRecord : m.balancer.recordSuccess url = some b') :
    gatewayStep config (m.send c url tried left) (.answer c outcome now places) =
      some ((((m.send c url tried left).receive c response).observe b').setCall c
        (.returned (withUpstream url response))) := by
  have hWaiting : (m.send c url tried left).calls c = .waiting url (tried ++ [url]) left :=
    GatewayState.setCall_self ..
  have hSame : (m.send c url tried left).balancer.recordSuccess url = some b' := hRecord
  simp only [gatewayStep, hWaiting, hOk, GatewayState.conclude, hSame]

/-- The outcome that a call waits for is a failure, after which it goes on. -/
theorem step_sent_error {error : String} (hError : outcome.result url = .error error)
    (hRecord : m.balancer.recordFailure config now url = some b') :
    gatewayStep config (m.send c url tried left) (.answer c outcome now places) =
      some (((m.send c url tried left).observe b').turn config places c (tried ++ [url]) (some error) left) := by
  have hWaiting : (m.send c url tried left).calls c = .waiting url (tried ++ [url]) left :=
    GatewayState.setCall_self ..
  have hSame : (m.send c url tried left).balancer.recordFailure config now url = some b' := hRecord
  simp only [gatewayStep, hWaiting, hError, GatewayState.retry, hSame]

end Sent

/-- The loop of a request is a run of the system in which only its call moves. -/
theorem exec_of_tries {c : CallId} {lastError : Option String} {run : RequestRun}
    (hTries : Balancer.Tries config outcomes clock tried lastError left b run) {s : GatewayState}
    (hBalancer : s.balancer = b) (hContacts : s.contacts c = tried) :
    ∃ actions t, exec (gatewayStep config)
        (s.turn config (clock tried.length).scan c tried lastError left) actions = some t ∧
      (∀ a ∈ actions, a.caller = some c) ∧ Ended c run t := by
  induction hTries generalizing s with
  | outOfTurns =>
      exact ⟨[], _, rfl, by simp, hBalancer, hContacts, GatewayState.setCall_self ..⟩
  | unavailable hNone =>
      cases hBalancer
      refine ⟨[], _, rfl, by simp, ?_⟩
      simp only [GatewayState.turn, hNone]
      exact ⟨rfl, hContacts, GatewayState.setCall_self ..⟩
  | repeated hPicked hTried =>
      cases hBalancer
      refine ⟨[], _, rfl, by simp, ?_⟩
      simp only [GatewayState.turn, hPicked, if_pos hTried]
      exact ⟨rfl, hContacts, GatewayState.setCall_self ..⟩
  | @returned tried lastError left b b' url response hPicked hUntried hOk hRecord =>
      cases hBalancer
      simp only [GatewayState.turn, hPicked, if_neg hUntried]
      refine ⟨[.answer c (outcomes url) (clock tried.length).recorded fun _ => 0], _,
        exec_cons.mpr ⟨_, step_sent_ok hOk hRecord, rfl⟩, by simp [GatewayAction.caller], rfl, ?_,
        GatewayState.setCall_self ..⟩
      show Function.update s.contacts c (s.contacts c ++ [url]) c = tried ++ [url]
      rw [Function.update_self, hContacts]
  | @retried tried lastError left b b' url error run hPicked hUntried hError hRecord _ ih =>
      cases hBalancer
      simp only [GatewayState.turn, hPicked, if_neg hUntried]
      have hNow : Function.update s.contacts c (s.contacts c ++ [url]) c = tried ++ [url] := by
        rw [Function.update_self, hContacts]
      let m : GatewayState := { s with balancer := (s.balancer.next config (clock tried.length).scan).2 }
      have hRest : ((m.send c url tried left).observe b').balancer = b' := rfl
      obtain ⟨actions, t, hRun, hCaller, hEnded⟩ := ih hRest hNow
      refine ⟨.answer c (outcomes url) (clock tried.length).recorded (clock (tried ++ [url]).length).scan :: actions,
        t, exec_cons.mpr ⟨_, step_sent_error hError hRecord, hRun⟩, ?_, hEnded⟩
      intro a ha
      rcases List.mem_cons.mp ha with rfl | ha
      · rfl
      · exact hCaller a ha

/-- After any requests, probes and refreshes, a request with no other operation in
between is a run of the system. -/
theorem exec_request {c : CallId} {urls : List String} {earlier : List GatewayAction} {s : GatewayState}
    (hEarlier : exec (gatewayStep config) (.initial urls) earlier = some s) (hIdle : s.calls c = .idle) :
    ∃ actions t, exec (gatewayStep config) s actions = some t ∧ (∀ a ∈ actions, a.caller = some c) ∧
      Ended c (s.balancer.request config outcomes clock) t := by
  have hOnce : TriesOnce s c :=
    invariant (I := fun s => TriesOnce s c) (fun _ _ _ hOnce hStep => (triesOnce_step hStep c hOnce).1)
      (triesOnce_initial urls c) hEarlier
  have hTries : Balancer.Tries config outcomes clock [] none s.balancer.urls.length s.balancer
      (s.balancer.request config outcomes clock) := Balancer.tries_requestLoop (wellFormed_run hEarlier) [] none _
  obtain ⟨actions, t, hRun, hCaller, hEnded⟩ :=
    exec_of_tries (s := s.begin c) hTries rfl (hOnce.idle hIdle)
  refine ⟨.request c (clock 0).scan :: actions, t, exec_cons.mpr ⟨_, ?_, hRun⟩, ?_, hEnded⟩
  · simp only [gatewayStep, hIdle]
    rfl
  · intro a ha
    rcases List.mem_cons.mp ha with rfl | ha
    · rfl
    · exact hCaller a ha

/-- One request with no other operation in between. It contacts each instance at
most once and only when its health at the start allows it, those available at
the start in cyclic order from the position of the rotation. It returns the
response of the first that answers below 500, which is healthy then, and raises
only if every instance available at the start was contacted and failed. -/
theorem solo_request_failover (h : b.WellFormed) (hNodup : b.urls.Nodup) (hClock : Ticking clock) :
    let run := b.request config outcomes clock
    run.contacts.Nodup ∧
    (run.contacts.filter (b.availableAt config ((clock 0).scan 0))).Sublist b.pool.upcoming ∧
    (∀ k url, run.contacts[k]? = some url →
      url ∈ b.urls ∧ ∃ i < b.urls.length, b.availableAt config ((clock k).scan i) url = true) ∧
    (∀ response, run.result = .returned response → ∃ passed url reply,
      run.contacts = passed ++ [url] ∧ (∀ other ∈ passed, Fails outcomes other) ∧
        Answers outcomes url reply ∧ response = withUpstream url reply ∧
        run.balancer.health url = some ⟨true, 0, none⟩) ∧
    (∀ message, run.result = .raised message → (∀ url ∈ run.contacts, Fails outcomes url) ∧
      ∀ url ∈ b.urls, b.availableAt config ((clock 0).scan 0) url = true → url ∈ run.contacts) ∧
    run.result ≠ .lookupFailed := by
  intro run
  have hDone : FailedOver config outcomes clock b run := request_failedOver h hNodup hClock
  obtain ⟨left, pool, hSwept⟩ := hDone.swept
  refine ⟨hSwept.nodup, hSwept.ordered, ?_, hDone.returned, hDone.raised, hDone.found⟩
  intro k url hAt
  exact ⟨hSwept.attempts.known url (List.mem_of_getElem? hAt), hSwept.cooled k url hAt⟩

/-- The first of two instances is down since 0 and its cooldown is 30. -/
def coolingPair : Balancer := (Balancer.new ["a", "b"]).write 0 ⟨false, 3, some 0⟩

/-- The first turn is at 29, and its failure is recorded at 31. -/
def slowClock (k : Nat) : Reading := ⟨fun _ => 29 + 2 * k, 31 + 2 * k⟩

def unreachable (_ : String) : UpstreamOutcome := .httpError "timeout"

theorem wellFormed_coolingPair : coolingPair.WellFormed :=
  (Balancer.wellFormed_new ["a", "b"]).of_frame rfl rfl rfl

theorem ticking_slowClock : Ticking slowClock where
  scan := fun _ _ _ _ => Int.le_refl _
  recorded := by
    intro k i
    show 29 + 2 * (k : Int) ≤ 31 + 2 * (k : Int)
    omega
  next := by
    intro k i
    show 31 + 2 * (k : Int) ≤ 29 + 2 * ((k + 1 : Nat) : Int)
    omega

theorem solo_request_failover_coolingPair :
    (coolingPair.request .default unreachable slowClock).contacts.Nodup ∧
      (coolingPair.request .default unreachable slowClock).result ≠ .lookupFailed := by
  have hNodup : coolingPair.urls.Nodup := by decide
  obtain ⟨hContacts, -, -, -, -, hFound⟩ :=
    @solo_request_failover .default unreachable slowClock coolingPair wellFormed_coolingPair hNodup
      ticking_slowClock
  exact ⟨hContacts, hFound⟩

/-- The cooldown of the first instance ends while the second is contacted, and
the order of the contacts is not the cyclic one. -/
theorem contacts_not_cyclic :
    coolingPair.WellFormed ∧ coolingPair.urls.Nodup ∧ Ticking slowClock ∧
      (coolingPair.request .default unreachable slowClock).contacts = ["b", "a"] ∧
      coolingPair.pool.upcoming = ["a", "b"] ∧
      ¬ (coolingPair.request .default unreachable slowClock).contacts.Sublist coolingPair.pool.upcoming := by
  have hContacts : (coolingPair.request .default unreachable slowClock).contacts = ["b", "a"] := by
    decide +kernel
  refine ⟨wellFormed_coolingPair, by decide, ticking_slowClock, hContacts, rfl, ?_⟩
  rw [hContacts]
  decide

end ServicePlatform.Gateway
