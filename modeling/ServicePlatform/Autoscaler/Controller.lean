import ServicePlatform.Autoscaler.Policy
import ServicePlatform.Transition.Run

/-! The control loop of the autoscaler: scrape all instances, sum up their
counters, compare with the sum of the tick before, and let the policy decide.
An instance that cannot be scraped adds nothing to the sum. -/
namespace ServicePlatform.Autoscaler

open Transition

structure ServiceSample (F : Type*) where
  requestsTotal : F
  errorTotal : F

/-- How the scrape of one instance ends. It fails with another status than 200
or with an `httpx.HTTPError`. A text that the parser cannot take raises out of
the tick. -/
inductive Scrape (F : Type*) where
  | sample (sample : ServiceSample F)
  | failed
  | raised

/-- What a tick meets: the clock, the scrapes of the target URLs, and whether
`set_replicas` raises. -/
structure TickInput (F : Type*) where
  now : F
  scrape : Nat → Scrape F
  scalerFails : Bool

/-- The state of a controller, and the counts it has passed to `set_replicas`. -/
structure ScalingController (F : Type*) where
  prev : Option (ServiceSample F)
  policy : PolicyState F
  replicas : Int
  requested : List Int

variable {F : Type*} [Zero F] [One F] [Add F] [Sub F] [Div F] [IntCast F] [LT F] [LE F] [DecidableLT F]
  [DecidableLE F]

namespace ServiceSample

def zero : ServiceSample F := ⟨0, 0⟩

def add (totals sample : ServiceSample F) : ServiceSample F :=
  ⟨totals.requestsTotal + sample.requestsTotal, totals.errorTotal + sample.errorTotal⟩

/-- The loop over the target URLs. -/
def collect : List (Scrape F) → ServiceSample F → Option (ServiceSample F)
  | [], totals => some totals
  | .sample sample :: scrapes, totals => collect scrapes (totals.add sample)
  | .failed :: scrapes, totals => collect scrapes totals
  | .raised :: _, _ => none

end ServiceSample

/-- `compute_rps`: the request rate and the error rate. -/
def computeRps (prev : Option (ServiceSample F)) (curr : ServiceSample F) (windowSeconds : F) : F × F :=
  match prev with
  | none => (0, 0)
  | some prev =>
      let totalDelta := curr.requestsTotal - prev.requestsTotal
      let errorDelta := curr.errorTotal - prev.errorTotal
      if windowSeconds ≤ 0 ∨ totalDelta < 0 then (0, 0)
      else
        let rps := totalDelta / windowSeconds
        let errorRate := if 0 < totalDelta then errorDelta / totalDelta else 0
        (rps, if 1 < errorRate then 1 else errorRate)

omit [Add F] [IntCast F] in
theorem computeRps_some (prev curr : ServiceSample F) (windowSeconds : F) :
    computeRps (some prev) curr windowSeconds =
      if windowSeconds ≤ 0 ∨ curr.requestsTotal - prev.requestsTotal < 0 then (0, 0)
      else
        let errorRate := if 0 < curr.requestsTotal - prev.requestsTotal then
          (curr.errorTotal - prev.errorTotal) / (curr.requestsTotal - prev.requestsTotal) else 0
        ((curr.requestsTotal - prev.requestsTotal) / windowSeconds, if 1 < errorRate then 1 else errorRate) :=
  rfl

namespace ScalingController

/-- `ScalingController.__init__`. -/
def start (settings : AutoscalerSettings F) : ScalingController F :=
  ⟨none, .initial, max settings.targetUrls.length settings.minReplicas, []⟩

/-- `_apply`. -/
def apply (c : ScalingController F) (scalerFails : Bool) (target : Int) : ScalingController F :=
  { c with
    requested := c.requested ++ [target]
    replicas := if scalerFails then c.replicas else target }

/-- The totals of a tick. -/
def totals (settings : AutoscalerSettings F) (input : TickInput F) : Option (ServiceSample F) :=
  ServiceSample.collect ((List.range settings.targetUrls.length).map input.scrape) .zero

/-- The load of one instance and the error rate. -/
def reading (settings : AutoscalerSettings F) (c : ScalingController F) (totals : ServiceSample F) : F × F :=
  let (rpsTotal, errorRate) := computeRps c.prev totals settings.intervalSeconds
  (if c.replicas = 0 then 0 else rpsTotal / (c.replicas : F), errorRate)

/-- `tick`. -/
def tick (settings : AutoscalerSettings F) (c : ScalingController F) (input : TickInput F) :
    ScalingController F :=
  if settings.targetUrls = [] then c
  else
    match totals settings input with
    | none => c
    | some totals =>
        let (rpsPerInstance, errorRate) := c.reading settings totals
        let (policy, decision) :=
          c.policy.decide settings c.replicas rpsPerInstance errorRate input.now
        let c := { c with prev := some totals, policy := policy }
        match decision.action with
        | .up => c.apply input.scalerFails (min (c.replicas + 1) settings.maxReplicas)
        | .down => c.apply input.scalerFails (max (c.replicas - 1) settings.minReplicas)
        | .hold => c

end ScalingController

/-- Every tick is possible in every state. -/
def tickStep (settings : AutoscalerSettings F) (c : ScalingController F) (input : TickInput F) :
    Option (ScalingController F) :=
  some (c.tick settings input)

namespace ScalingController

/-- What a tick does, case by case. -/
inductive Ticked (settings : AutoscalerSettings F) (c : ScalingController F) (input : TickInput F) :
    ScalingController F → Prop where
  | untargeted (hNone : settings.targetUrls = []) : Ticked settings c input c
  | aborted (hUrls : settings.targetUrls ≠ []) (hScrapes : totals settings input = none) :
      Ticked settings c input c
  | held {sum : ServiceSample F} {policy : PolicyState F} (hUrls : settings.targetUrls ≠ [])
      (hScrapes : totals settings input = some sum)
      (hDecided : c.policy.Decided settings c.replicas (c.reading settings sum).1 (c.reading settings sum).2
        input.now policy .hold) :
      Ticked settings c input { c with prev := some sum, policy := policy }
  | scaledUp {sum : ServiceSample F} {policy : PolicyState F} (hUrls : settings.targetUrls ≠ [])
      (hScrapes : totals settings input = some sum)
      (hDecided : c.policy.Decided settings c.replicas (c.reading settings sum).1 (c.reading settings sum).2
        input.now policy .up) :
      Ticked settings c input (apply { c with prev := some sum, policy := policy } input.scalerFails
        (min (c.replicas + 1) settings.maxReplicas))
  | scaledDown {sum : ServiceSample F} {policy : PolicyState F} (hUrls : settings.targetUrls ≠ [])
      (hScrapes : totals settings input = some sum)
      (hDecided : c.policy.Decided settings c.replicas (c.reading settings sum).1 (c.reading settings sum).2
        input.now policy .down) :
      Ticked settings c input (apply { c with prev := some sum, policy := policy } input.scalerFails
        (max (c.replicas - 1) settings.minReplicas))

theorem tick_ticked (settings : AutoscalerSettings F) (c : ScalingController F) (input : TickInput F) :
    Ticked settings c input (c.tick settings input) := by
  unfold tick
  split
  · next hNone => exact .untargeted hNone
  · next hUrls =>
      split
      · next hScrapes => exact .aborted hUrls hScrapes
      · next sum hScrapes =>
          have hDecided := PolicyState.decide_decided settings c.policy c.replicas
            (c.reading settings sum).1 (c.reading settings sum).2 input.now
          simp only
          split
          · next hUp =>
              rw [hUp] at hDecided
              exact .scaledUp hUrls hScrapes hDecided
          · next hDown =>
              rw [hDown] at hDecided
              exact .scaledDown hUrls hScrapes hDecided
          · next hHold =>
              rw [hHold] at hDecided
              exact .held hUrls hScrapes hDecided

end ScalingController

end ServicePlatform.Autoscaler
