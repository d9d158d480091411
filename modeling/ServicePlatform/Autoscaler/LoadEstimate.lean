import Mathlib.Algebra.BigOperators.Group.List.Basic
import Mathlib.Algebra.Order.BigOperators.Group.List
import Mathlib.Algebra.Order.Field.Basic
import Mathlib.Data.Rat.Cast.Order
import Mathlib.Tactic.Linarith
import ServicePlatform.Autoscaler.Controller

/-! The load that a tick estimates, against the load that the instances had.
The requests that were counted since the tick before are divided by the nominal
interval, not by the time that has passed, and by the replicas that the loop
believes in, not by the instances that were scraped. -/
namespace ServicePlatform.Autoscaler

namespace ScalingController

section Ticks

variable {F : Type*} [Zero F] [One F] [Add F] [Sub F] [Div F] [IntCast F] [LT F] [LE F] [DecidableLT F]
  [DecidableLE F]

/-- The controller before a tick of a sequence. -/
def stateAt (settings : AutoscalerSettings F) (inputs : Nat → TickInput F) : Nat → ScalingController F
  | 0 => start settings
  | k + 1 => (stateAt settings inputs k).tick settings (inputs k)

/-- The `rps_per_instance` that a tick passes to `decide`, if it gets there. -/
def rpsPassed (settings : AutoscalerSettings F) (inputs : Nat → TickInput F) (k : Nat) : Option F :=
  (totals settings (inputs k)).map fun totals => ((stateAt settings inputs k).reading settings totals).1

/-- The requests that the scraped instances have counted between two scrapes. -/
def countedBetween (settings : AutoscalerSettings F) (samples : Nat → Nat → ServiceSample F) (k : Nat) : F :=
  ((List.range settings.targetUrls.length).map fun i =>
    (samples (k + 1) i).requestsTotal - (samples k i).requestsTotal).sum

/-- All scrapes of a sequence of ticks succeed with the given samples, no
counter ever goes back, and each tick is later than the one before. -/
structure Scraped (settings : AutoscalerSettings F) (inputs : Nat → TickInput F)
    (samples : Nat → Nat → ServiceSample F) : Prop where
  targeted : settings.targetUrls ≠ []
  succeeds : ∀ k, ∀ i < settings.targetUrls.length, (inputs k).scrape i = .sample (samples k i)
  counts : ∀ k, ∀ i < settings.targetUrls.length,
    (samples k i).requestsTotal ≤ (samples (k + 1) i).requestsTotal
  later : ∀ k, (inputs k).now < (inputs (k + 1)).now

end Ticks

variable {F : Type*} [Field F] [LinearOrder F] {settings : AutoscalerSettings F} {inputs : Nat → TickInput F}
  {samples : Nat → Nat → ServiceSample F} {k : Nat}

/-- The counters of a tick, added up. -/
def sumAt (settings : AutoscalerSettings F) (samples : Nat → Nat → ServiceSample F) (k : Nat) :
    ServiceSample F where
  requestsTotal := ((List.range settings.targetUrls.length).map fun i => (samples k i).requestsTotal).sum
  errorTotal := ((List.range settings.targetUrls.length).map fun i => (samples k i).errorTotal).sum

omit [LinearOrder F] in
theorem collect_samples (sample : Nat → ServiceSample F) (scrape : Nat → Scrape F) (sum : ServiceSample F)
    (is : List Nat) (hSucceeds : ∀ i ∈ is, scrape i = .sample (sample i)) :
    ServiceSample.collect (is.map scrape) sum =
      some (sum.add ⟨(is.map fun i => (sample i).requestsTotal).sum,
        (is.map fun i => (sample i).errorTotal).sum⟩) := by
  induction is generalizing sum with
  | nil => simp [ServiceSample.collect, ServiceSample.add]
  | cons i is ih =>
      obtain ⟨hHere, hRest⟩ := List.forall_mem_cons.mp hSucceeds
      rw [List.map_cons, hHere, ServiceSample.collect, ih _ hRest]
      simp [ServiceSample.add, add_assoc]

theorem reading_fst (c : ScalingController F) (sum : ServiceSample F) :
    (c.reading settings sum).1 =
      if c.replicas = 0 then 0 else (computeRps c.prev sum settings.intervalSeconds).1 / (c.replicas : F) :=
  rfl

namespace Scraped

theorem totals_eq (hScraped : Scraped settings inputs samples) :
    totals settings (inputs k) = some (sumAt settings samples k) := by
  have hSucceeds : ∀ i ∈ List.range settings.targetUrls.length, (inputs k).scrape i = .sample (samples k i) :=
    fun i hi => hScraped.succeeds k i (List.mem_range.mp hi)
  unfold totals
  rw [collect_samples _ _ _ _ hSucceeds]
  simp [ServiceSample.add, ServiceSample.zero, sumAt]

/-- A tick that gets through all scrapes remembers their sum. -/
theorem prev_eq (hScraped : Scraped settings inputs samples) :
    (stateAt settings inputs (k + 1)).prev = some (sumAt settings samples k) := by
  show ((stateAt settings inputs k).tick settings (inputs k)).prev = _
  have hTotals := hScraped.totals_eq (k := k)
  have hTicked := tick_ticked settings (stateAt settings inputs k) (inputs k)
  generalize (stateAt settings inputs k).tick settings (inputs k) = t at hTicked
  cases hTicked with
  | untargeted hNone => exact absurd hNone hScraped.targeted
  | aborted _ hScrapes => exact absurd (hScrapes.symm.trans hTotals) (by simp)
  | held _ hScrapes => exact hScrapes.symm.trans hTotals
  | scaledUp _ hScrapes => exact hScrapes.symm.trans hTotals
  | scaledDown _ hScrapes => exact hScrapes.symm.trans hTotals

omit [LinearOrder F] in
theorem countedBetween_eq :
    countedBetween settings samples k =
      (sumAt settings samples (k + 1)).requestsTotal - (sumAt settings samples k).requestsTotal := by
  unfold countedBetween sumAt
  induction List.range settings.targetUrls.length with
  | nil => simp
  | cons i is ih =>
      simp only [List.map_cons, List.sum_cons, ih]
      exact (add_sub_add_comm _ _ _ _).symm

variable [IsStrictOrderedRing F]

theorem countedBetween_nonneg (hScraped : Scraped settings inputs samples) :
    0 ≤ countedBetween settings samples k := by
  apply List.sum_nonneg
  intro delta hDelta
  obtain ⟨i, hi, rfl⟩ := List.mem_map.mp hDelta
  exact sub_nonneg.mpr (hScraped.counts k i (List.mem_range.mp hi))

/-- What the second of two ticks passes on. -/
theorem rpsPassed_eq (hScraped : Scraped settings inputs samples) :
    rpsPassed settings inputs (k + 1) =
      some (if 0 < settings.intervalSeconds then
        countedBetween settings samples k / (settings.intervalSeconds * (stateAt settings inputs (k + 1)).replicas)
      else 0) := by
  have hCounted : ¬ countedBetween settings samples k < 0 := not_lt.mpr hScraped.countedBetween_nonneg
  unfold rpsPassed
  rw [hScraped.totals_eq, Option.map_some, reading_fst, hScraped.prev_eq, computeRps_some, ← countedBetween_eq]
  congr 1
  by_cases hInterval : 0 < settings.intervalSeconds
  · rw [if_pos hInterval, if_neg (not_or.mpr ⟨not_le.mpr hInterval, hCounted⟩)]
    by_cases hNone : (stateAt settings inputs (k + 1)).replicas = 0
    · simp [hNone]
    · rw [if_neg hNone, div_div]
  · rw [if_neg hInterval, if_pos (Or.inl (not_lt.mp hInterval))]
    simp

end Scraped

variable [IsStrictOrderedRing F]

/-- The estimate is the load of an instance exactly when nothing was counted, or
the interval and the replicas that the loop believes in come to the same
instance seconds as the time that has passed and the instances scraped. -/
theorem estimate_correct_iff (settings : AutoscalerSettings F) (inputs : Nat → TickInput F)
    (samples : Nat → Nat → ServiceSample F) (hScraped : Scraped settings inputs samples) (k : Nat) :
    rpsPassed settings inputs (k + 1) =
        some (countedBetween settings samples k / ((inputs (k + 1)).now - (inputs k).now) /
          settings.targetUrls.length) ↔
      countedBetween settings samples k = 0 ∨
        0 < settings.intervalSeconds ∧
          settings.intervalSeconds * (stateAt settings inputs (k + 1)).replicas =
            ((inputs (k + 1)).now - (inputs k).now) * settings.targetUrls.length := by
  have hTime : (inputs (k + 1)).now - (inputs k).now ≠ 0 := (sub_pos.mpr (hScraped.later k)).ne'
  have hUrls : (settings.targetUrls.length : F) ≠ 0 :=
    Nat.cast_ne_zero.mpr (mt List.length_eq_zero_iff.mp hScraped.targeted)
  rw [hScraped.rpsPassed_eq, Option.some_inj, div_div]
  by_cases hCounted : countedBetween settings samples k = 0
  · simp [hCounted]
  · rw [or_iff_right hCounted]
    by_cases hInterval : 0 < settings.intervalSeconds
    · rw [if_pos hInterval, and_iff_right hInterval, div_eq_mul_inv, div_eq_mul_inv,
        mul_right_inj' hCounted, inv_inj]
    · rw [if_neg hInterval]
      have hRate : countedBetween settings samples k /
          (((inputs (k + 1)).now - (inputs k).now) * settings.targetUrls.length) ≠ 0 :=
        div_ne_zero hCounted (mul_ne_zero hTime hUrls)
      exact iff_of_false hRate.symm fun h => hInterval h.1

/-- Ticks at even distances, while the one instance serves a hundred requests
between two of them. -/
def evenTicks (distance : ℚ) (k : Nat) : TickInput ℚ :=
  ⟨distance * k, fun _ => .sample ⟨100 * k, 0⟩, false⟩

theorem evenTicks_scraped {distance : ℚ} (hDistance : 0 < distance) :
    Scraped (.preset ["http://user:8100"]) (evenTicks distance) fun k _ => ⟨100 * k, 0⟩ where
  targeted := List.cons_ne_nil _ _
  succeeds _ _ _ := rfl
  counts k _ _ := by
    show (100 * k : ℚ) ≤ 100 * ((k + 1 : Nat) : ℚ)
    rw [Nat.cast_succ]
    linarith
  later k := by
    show distance * k < distance * ((k + 1 : Nat) : ℚ)
    rw [Nat.cast_succ]
    linarith

/-- With ticks five seconds apart, as the preset settings have it, the first
estimate of one instance is right. -/
theorem estimate_correct_iff_onTime :
    rpsPassed (.preset ["http://user:8100"]) (evenTicks 5) 1 =
      some (countedBetween (.preset ["http://user:8100"]) (fun k _ => ⟨100 * k, 0⟩) 0 /
        ((evenTicks 5 1).now - (evenTicks 5 0).now) / (["http://user:8100"].length : Nat)) :=
  (estimate_correct_iff _ _ _ (evenTicks_scraped (by norm_num)) 0).mpr
    (Or.inr ⟨by decide +kernel, by decide +kernel⟩)

/-- Ticks that are twelve seconds apart, as when a scrape takes long: the
estimate is more than twice the load. -/
theorem estimate_too_high :
    Scraped (.preset ["http://user:8100"]) (evenTicks 12) (fun k _ => ⟨100 * k, 0⟩) ∧
    rpsPassed (.preset ["http://user:8100"]) (evenTicks 12) 1 = some 20 ∧
    countedBetween (.preset ["http://user:8100"]) (fun k _ => ⟨100 * k, 0⟩) 0 /
      ((evenTicks 12 1).now - (evenTicks 12 0).now) / 1 = 100 / 12 := by
  exact ⟨evenTicks_scraped (by norm_num), by decide +kernel, by decide +kernel⟩

end ScalingController

end ServicePlatform.Autoscaler
