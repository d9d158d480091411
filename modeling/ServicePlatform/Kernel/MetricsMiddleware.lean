import Mathlib.Algebra.Order.Ring.Rat
import ServicePlatform.Kernel.Metrics
import ServicePlatform.Kernel.ServiceApp
import ServicePlatform.Storage.Histogram
import ServicePlatform.Transition.Monitor

/-! The three metrics of `MetricsMiddleware` while requests run next to each
other. A request is in flight from its arrival on, and however it ends, the
counter, the histogram and the gauge are written together. -/
namespace ServicePlatform

open Storage Transition

/-- The labels of a duration, which has no status. -/
structure DurationLabels where
  service : List Char
  method : List Char
  path : List Char
  deriving DecidableEq

def CountedRequest.durationLabels (service : String) (request : CountedRequest) : DurationLabels where
  service := service.toList
  method := request.method.toList
  path := metricPath request.path

/-- The buckets of `HTTP_REQUEST_DURATION_SECONDS`. -/
def durationBuckets : List ℚ := [5 / 1000, 1 / 100, 25 / 1000, 5 / 100, 1 / 10, 1 / 4, 1 / 2, 1, 5 / 2, 5, 10]

/-- A request that the middleware has taken up, with its `status_holder`. -/
structure MeteredCall where
  request : HttpRequest
  start : ℚ
  status : Option Nat

inductive MeterPhase where
  | waiting
  | running (call : MeteredCall)
  | over

def MeterPhase.isRunning : MeterPhase → Bool
  | .running _ => true
  | _ => false

/-- The calls and the metrics of one process. -/
structure MeterState where
  calls : RequestId → MeterPhase
  inFlight : Int
  requestsTotal : Dict RequestLabels Nat
  durations : Dict DurationLabels (Histogram ℚ)

inductive MeterAction where
  | arrive (r : RequestId) (request : HttpRequest) (now : ℚ)
  | message (r : RequestId) (message : AppMessage)
  | finish (r : RequestId) (now : ℚ)

namespace MeteredCall

/-- `send_wrapper`. -/
def receive (call : MeteredCall) : AppMessage → MeteredCall
  | .start status _ => { call with status := some status }
  | .body _ _ => call

def counts (call : MeteredCall) : CountedRequest := ⟨call.request.method, call.request.path, call.status⟩

end MeteredCall

namespace MeterState

def initial : MeterState := ⟨fun _ => .waiting, 0, [], []⟩

def setCall (s : MeterState) (r : RequestId) (phase : MeterPhase) : MeterState :=
  { s with calls := Function.update s.calls r phase }

/-- The histogram of some labels. One that nothing was observed in is empty. -/
def duration (s : MeterState) (labels : DurationLabels) : Histogram ℚ :=
  s.durations.getD labels (Histogram.empty durationBuckets)

/-- The `finally` block. -/
def finish (service : String) (s : MeterState) (request : CountedRequest) (seconds : ℚ) : MeterState :=
  let labels := request.durationLabels service
  { s with
    requestsTotal := s.requestsTotal.inc (request.labels service)
    durations := s.durations.setItem labels ((s.duration labels).observe durationBuckets seconds)
    inFlight := s.inFlight - 1 }

end MeterState

def meterStep (service : String) (s : MeterState) : MeterAction → Option MeterState
  | .arrive r request now =>
      match s.calls r with
      | .waiting => some { s.setCall r (.running ⟨request, now, none⟩) with inFlight := s.inFlight + 1 }
      | _ => none
  | .message r message =>
      match s.calls r with
      | .running call => some (s.setCall r (.running (call.receive message)))
      | _ => none
  | .finish r now =>
      match s.calls r with
      | .running call => some ((s.setCall r .over).finish service call.counts (now - call.start))
      | _ => none

/-- A request that is over, and how long it took. -/
structure FinishedRequest where
  request : CountedRequest
  seconds : ℚ

/-- What happened so far: the number of arrivals, and the requests that are over. -/
structure MeterHistory where
  arrived : Nat
  finished : List FinishedRequest

/-- The note that is taken of a step. -/
def noteMeter (s : MeterState) (a : MeterAction) (_ : MeterState) (history : MeterHistory) : MeterHistory :=
  match a with
  | .arrive .. => { history with arrived := history.arrived + 1 }
  | .message .. => history
  | .finish r now =>
      match s.calls r with
      | .running call => { history with finished := history.finished ++ [⟨call.counts, now - call.start⟩] }
      | _ => history

/-- The durations of the requests with some labels. -/
def MeterHistory.seconds (history : MeterHistory) (service : String) (labels : DurationLabels) : List ℚ :=
  (history.finished.filter fun done => done.request.durationLabels service = labels).map FinishedRequest.seconds

/-- The metrics say what happened. -/
structure MeterInv (service : String) (s : MeterState) (history : MeterHistory) : Prop where
  counted : s.requestsTotal = httpRequestsTotal service (history.finished.map FinishedRequest.request)
  observed : ∀ labels, s.duration labels =
    (history.seconds service labels).foldl (Histogram.observe durationBuckets) (Histogram.empty durationBuckets)
  running : ∃ running : List RequestId, running.Nodup ∧ (∀ r, r ∈ running ↔ (s.calls r).isRunning = true) ∧
    s.inFlight = running.length
  arrived : (history.arrived : Int) = s.inFlight + history.finished.length

/-- What a step of the middleware does, case by case. -/
inductive MeterMove (service : String) (s : MeterState) (history : MeterHistory) :
    MeterAction → MeterState → MeterHistory → Prop where
  | arrived {r : RequestId} {request : HttpRequest} {now : ℚ} (hCall : s.calls r = .waiting) :
      MeterMove service s history (.arrive r request now)
        { s.setCall r (.running ⟨request, now, none⟩) with inFlight := s.inFlight + 1 }
        { history with arrived := history.arrived + 1 }
  | sent {r : RequestId} {message : AppMessage} {call : MeteredCall} (hCall : s.calls r = .running call) :
      MeterMove service s history (.message r message) (s.setCall r (.running (call.receive message))) history
  | finished {r : RequestId} {now : ℚ} {call : MeteredCall} (hCall : s.calls r = .running call) :
      MeterMove service s history (.finish r now)
        ((s.setCall r .over).finish service call.counts (now - call.start))
        { history with finished := history.finished ++ [⟨call.counts, now - call.start⟩] }

section Meter

variable {service : String} {s t : MeterState} {history noted : MeterHistory} {a : MeterAction}

theorem meterMove_of_step (h : meterStep service s a = some t) :
    MeterMove service s history a t (noteMeter s a t history) := by
  cases a with
  | arrive r request now =>
      simp only [meterStep] at h
      split at h
      · next hCall =>
          cases h
          exact .arrived hCall
      · cases h
  | message r message =>
      simp only [meterStep] at h
      split at h
      · next call hCall =>
          cases h
          exact .sent hCall
      · cases h
  | finish r now =>
      simp only [meterStep] at h
      split at h
      · next call hCall =>
          cases h
          simp only [noteMeter, hCall]
          exact .finished hCall
      · cases h

theorem meterInv_initial : MeterInv service MeterState.initial ⟨0, []⟩ where
  counted := rfl
  observed _ := rfl
  running := ⟨[], List.nodup_nil, fun r => by simp [MeterState.initial, MeterPhase.isRunning], rfl⟩
  arrived := rfl

/-- The calls in progress after one of them has changed. -/
theorem isRunning_setCall (s : MeterState) (r r' : RequestId) (phase : MeterPhase) :
    ((s.setCall r phase).calls r').isRunning = if r' = r then phase.isRunning else (s.calls r').isRunning := by
  by_cases h : r' = r
  · subst h
    simp [MeterState.setCall]
  · simp [MeterState.setCall, h]

/-- The histograms after one more request is over. -/
theorem duration_finish (s : MeterState) (request : CountedRequest) (seconds : ℚ) (labels : DurationLabels) :
    (s.finish service request seconds).duration labels =
      if request.durationLabels service = labels then (s.duration labels).observe durationBuckets seconds
      else s.duration labels := by
  unfold MeterState.finish MeterState.duration
  split
  · next hSame =>
      rw [hSame]
      exact Dict.getD_setItem_self
  · next hOther => exact Dict.getD_setItem_of_ne hOther

theorem seconds_concat (history : MeterHistory) (done : FinishedRequest) (labels : DurationLabels) :
    MeterHistory.seconds { history with finished := history.finished ++ [done] } service labels =
      history.seconds service labels ++ if done.request.durationLabels service = labels then [done.seconds] else [] := by
  unfold MeterHistory.seconds
  rw [List.filter_append, List.map_append]
  congr 1
  split
  · next hSame => simp [hSame]
  · next hOther => simp [hOther]

theorem MeterInv.step (inv : MeterInv service s history) (h : meterStep service s a = some t) :
    MeterInv service t (noteMeter s a t history) := by
  obtain ⟨running, hNodup, hMem, hInFlight⟩ := inv.running
  have hArrived := inv.arrived
  have move : MeterMove service s history a t (noteMeter s a t history) := meterMove_of_step h
  generalize noteMeter s a t history = noted at move ⊢
  cases move with
  | @arrived r request now hCall =>
      have hNew : r ∉ running := by
        rw [hMem, hCall]
        simp [MeterPhase.isRunning]
      refine ⟨inv.counted, inv.observed, ⟨r :: running, List.nodup_cons.mpr ⟨hNew, hNodup⟩, fun r' => ?_, ?_⟩, ?_⟩
      · change r' ∈ r :: running ↔ ((s.setCall r (.running ⟨request, now, none⟩)).calls r').isRunning = true
        rw [isRunning_setCall, List.mem_cons, hMem]
        by_cases hr : r' = r <;> simp [hr, MeterPhase.isRunning]
      · simp [hInFlight]
      · change ((history.arrived + 1 : Nat) : Int) = s.inFlight + 1 + history.finished.length
        omega
  | @sent r message call hCall =>
      refine ⟨inv.counted, inv.observed, ⟨running, hNodup, fun r' => ?_, hInFlight⟩, hArrived⟩
      rw [isRunning_setCall, hMem]
      by_cases hr : r' = r <;> simp [hr, hCall, MeterPhase.isRunning]
  | @finished r now call hCall =>
      have hHere : r ∈ running := by
        rw [hMem, hCall]
        rfl
      refine ⟨?_, fun labels => ?_, ⟨running.erase r, hNodup.erase r, fun r' => ?_, ?_⟩, ?_⟩
      · change s.requestsTotal.inc (call.counts.labels service) = _
        rw [inv.counted]
        simp [httpRequestsTotal, Dict.tally]
      · rw [duration_finish, seconds_concat, List.foldl_append]
        have hObserved : (s.setCall r .over).duration labels = _ := inv.observed labels
        rw [hObserved]
        split
        · rfl
        · rfl
      · change r' ∈ running.erase r ↔ ((s.setCall r .over).calls r').isRunning = true
        rw [isRunning_setCall, hNodup.mem_erase_iff, hMem]
        by_cases hr : r' = r <;> simp [hr, MeterPhase.isRunning]
      · change s.inFlight - 1 = _
        rw [List.length_erase_of_mem hHere, hInFlight]
        have hSome := List.length_pos_of_mem hHere
        omega
      · change (history.arrived : Int) = s.inFlight - 1 + _
        rw [List.length_append, List.length_singleton]
        omega

/-- The labels of the duration of a counted request. -/
def RequestLabels.duration (labels : RequestLabels) : DurationLabels := ⟨labels.service, labels.method, labels.path⟩

/-- As many durations as requests, whatever their statuses. -/
theorem length_seconds (history : MeterHistory) (labels : DurationLabels) :
    (history.seconds service labels).length = Dict.total (fun key => key.duration = labels)
      (httpRequestsTotal service (history.finished.map FinishedRequest.request)) := by
  rw [httpRequestsTotal, Dict.total_tally, List.countP_map, List.countP_map, MeterHistory.seconds, List.length_map,
    ← List.countP_eq_length_filter]
  rfl

theorem sorted_durationBuckets : durationBuckets.Pairwise (· ≤ ·) := by decide +kernel

/-- A scrape at any moment, with any number of requests running next to each
other and ending in any way: the gauge is the number of requests in progress,
and together with the finished ones they are all that arrived; the buckets of
each method and path are the numbers of finished requests within each bound;
their count is the sum of the counters over all statuses. -/
theorem metrics_exact {as : List MeterAction}
    (run : exec (watched (meterStep service) noteMeter) (MeterState.initial, ⟨0, []⟩) as = some (s, history)) :
    (∃ running : List RequestId, running.Nodup ∧ (∀ r, r ∈ running ↔ (s.calls r).isRunning = true) ∧
      s.inFlight = running.length ∧ history.arrived = running.length + history.finished.length) ∧
    (∀ labels, Dict.total (fun key => key = labels) s.requestsTotal =
      history.finished.countP fun done => done.request.labels service = labels) ∧
    ∀ labels, (s.duration labels).sum = (history.seconds service labels).sum ∧
      (s.duration labels).cumulative = durationBuckets.map (fun bound =>
        (history.seconds service labels).countP fun seconds => seconds ≤ bound) ++
          [Dict.total (fun key => key.duration = labels) s.requestsTotal] := by
  have keep : ∀ (m : MeterState × MeterHistory) b m', MeterInv service m.1 m.2 →
      watched (meterStep service) noteMeter m b = some m' → MeterInv service m'.1 m'.2 := by
    intro m b m' inv step
    obtain ⟨hStep, hNote⟩ := watched_some.mp step
    rw [hNote]
    exact inv.step hStep
  have inv : MeterInv service s history := invariant keep meterInv_initial run
  obtain ⟨running, hNodup, hMem, hInFlight⟩ := inv.running
  have hArrived := inv.arrived
  refine ⟨⟨running, hNodup, hMem, hInFlight, by omega⟩, fun labels => ?_, fun labels => ?_⟩
  · rw [inv.counted, httpRequestsTotal, Dict.total_tally, List.countP_map, List.countP_map]
    rfl
  · rw [inv.observed, inv.counted, ← length_seconds, Histogram.sum_foldl, Histogram.cumulative_foldl
      sorted_durationBuckets]
    exact ⟨rfl, rfl⟩

/-- Two requests run next to each other. One is answered, the other one raises
before its response starts, and a third one is still running. -/
theorem metrics_exact_overlapping :
    let usersGet : HttpRequest := ⟨"GET", "/v1/users/7", [], [], "u1", "t1", some "/v1/users/7"⟩
    ∃ s history, exec (watched (meterStep "svc") noteMeter) (MeterState.initial, ⟨0, []⟩)
        [.arrive 0 usersGet 0, .arrive 1 usersGet (1 / 100), .message 0 (.start 200 []), .arrive 2 usersGet (2 / 100),
          .message 0 (.body [] false), .finish 1 (1 / 50), .finish 0 (1 / 20)] = some (s, history) ∧
      (∃ running : List RequestId, running.Nodup ∧ (∀ r, r ∈ running ↔ (s.calls r).isRunning = true) ∧
        s.inFlight = running.length ∧ history.arrived = running.length + history.finished.length) ∧
      (∀ labels, Dict.total (fun key => key = labels) s.requestsTotal =
        history.finished.countP fun done => done.request.labels "svc" = labels) ∧
      ∀ labels, (s.duration labels).sum = (history.seconds "svc" labels).sum ∧
        (s.duration labels).cumulative = durationBuckets.map (fun bound =>
          (history.seconds "svc" labels).countP fun seconds => seconds ≤ bound) ++
            [Dict.total (fun key => key.duration = labels) s.requestsTotal] := by
  intro usersGet
  obtain ⟨s, history, run⟩ : ∃ s history, exec (watched (meterStep "svc") noteMeter) (MeterState.initial, ⟨0, []⟩)
      [.arrive 0 usersGet 0, .arrive 1 usersGet (1 / 100), .message 0 (.start 200 []), .arrive 2 usersGet (2 / 100),
        .message 0 (.body [] false), .finish 1 (1 / 50), .finish 0 (1 / 20)] = some (s, history) := ⟨_, _, rfl⟩
  exact ⟨s, history, run, metrics_exact run⟩

end Meter

end ServicePlatform
