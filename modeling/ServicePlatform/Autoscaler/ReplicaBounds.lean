import Mathlib.Tactic.Linarith
import ServicePlatform.Autoscaler.Controller

/-! The bounds on the replica count. The policy never leaves them from inside,
and the clamps of a tick each guard the bound that its decision moves towards.
The estimate at the start comes from the target URLs and is not clamped: far
above the maximum, a step down is still above it. -/
namespace ServicePlatform.Autoscaler

open Transition

variable {F : Type*}

/-- A replica count within the bounds. -/
def AutoscalerSettings.Allows (settings : AutoscalerSettings F) (count : Int) : Prop :=
  settings.minReplicas ≤ count ∧ count ≤ settings.maxReplicas

namespace ScalingController

/-- Every requested count is within the bounds, and the estimate is at most one
above them. -/
structure Bounded (settings : AutoscalerSettings F) (c : ScalingController F) : Prop where
  low : settings.minReplicas ≤ c.replicas
  high : c.replicas ≤ settings.maxReplicas + 1
  requested : ∀ count ∈ c.requested, settings.Allows count

variable {settings : AutoscalerSettings F} {c t : ScalingController F} {input : TickInput F}

@[simp] theorem apply_requested (scalerFails : Bool) (target : Int) :
    (c.apply scalerFails target).requested = c.requested ++ [target] := rfl

/-- A count within the bounds may be requested, and may fail to be set. -/
theorem Bounded.apply (hBounded : c.Bounded settings) (scalerFails : Bool) {target : Int}
    (hTarget : settings.Allows target) : (c.apply scalerFails target).Bounded settings := by
  have hRequested : ∀ count ∈ (c.apply scalerFails target).requested, settings.Allows count := by
    intro count hCount
    rw [apply_requested, List.mem_append, List.mem_singleton] at hCount
    rcases hCount with hOld | rfl
    · exact hBounded.requested count hOld
    · exact hTarget
  cases scalerFails with
  | true => exact ⟨hBounded.low, hBounded.high, hRequested⟩
  | false => exact ⟨hTarget.1, Int.le_add_one hTarget.2, hRequested⟩

theorem bounded_start [Zero F] (hBounds : settings.minReplicas ≤ settings.maxReplicas)
    (hNear : (settings.targetUrls.length : Int) ≤ settings.maxReplicas + 1) :
    (start settings).Bounded settings := by
  have hReplicas : (start settings).replicas = max (settings.targetUrls.length : Int) settings.minReplicas :=
    rfl
  have hRequested : (start settings).requested = [] := rfl
  apply Bounded.mk
  · rw [hReplicas]
    exact Int.le_max_right _ _
  · rw [hReplicas]
    exact Int.max_le.mpr ⟨hNear, Int.le_add_one hBounds⟩
  · simp [hRequested]

variable [Zero F] [One F] [Add F] [Sub F] [Div F] [IntCast F] [LT F] [LE F] [DecidableLT F] [DecidableLE F]

/-- The tick confirms a low load: the cooldown is over, the load is low, there
is a replica to remove, and the low load has lasted long enough. -/
def DownConfirmed (settings : AutoscalerSettings F) (c : ScalingController F) (input : TickInput F) : Prop :=
  settings.targetUrls ≠ [] ∧ ∃ sum, totals settings input = some sum ∧
    c.policy.Cooled settings input.now ∧
    settings.Low (c.reading settings sum).1 (c.reading settings sum).2 ∧
    settings.minReplicas < c.replicas ∧ settings.sustainDown ≤ c.policy.downStreak + 1

theorem bounded_tick (hBounded : c.Bounded settings) (hTicked : Ticked settings c input t) :
    t.Bounded settings := by
  obtain ⟨hLow, hHigh, hRequested⟩ := hBounded
  cases hTicked with
  | untargeted => exact ⟨hLow, hHigh, hRequested⟩
  | aborted => exact ⟨hLow, hHigh, hRequested⟩
  | held => exact ⟨hLow, hHigh, hRequested⟩
  | @scaledUp sum policy _ _ hDecided =>
      obtain ⟨-, -, hRoom, -⟩ := hDecided.up_iff.mp rfl
      have hCurrent : Bounded settings { c with prev := some sum, policy := policy } :=
        ⟨hLow, hHigh, hRequested⟩
      apply hCurrent.apply
      show settings.minReplicas ≤ min _ _ ∧ min _ _ ≤ settings.maxReplicas
      omega
  | @scaledDown sum policy _ _ hDecided =>
      obtain ⟨-, -, hRoom, -⟩ := hDecided.down_iff.mp rfl
      have hCurrent : Bounded settings { c with prev := some sum, policy := policy } :=
        ⟨hLow, hHigh, hRequested⟩
      apply hCurrent.apply
      show settings.minReplicas ≤ max _ _ ∧ max _ _ ≤ settings.maxReplicas
      omega

/-- A controller whose estimate is far above the maximum, and that has not
requested anything yet. -/
structure Far (settings : AutoscalerSettings F) (c : ScalingController F) : Prop where
  high : settings.maxReplicas + 1 < c.replicas
  requested : c.requested = []

/-- From far above the maximum, a tick leaves the estimate alone or requests a
count that is above the maximum, and does the latter when it confirms a low
load. -/
theorem far_tick (hBounds : settings.minReplicas ≤ settings.maxReplicas) (hFar : c.Far settings)
    (hTicked : Ticked settings c input t) :
    ¬ c.DownConfirmed settings input ∧ t.Far settings ∨
      c.DownConfirmed settings input ∧ t.requested = [c.replicas - 1] := by
  obtain ⟨hHigh, hRequested⟩ := hFar
  cases hTicked with
  | untargeted hNone =>
      left
      exact ⟨fun hConfirmed => hConfirmed.1 hNone, hHigh, hRequested⟩
  | aborted _ hScrapes =>
      left
      apply And.intro
      · rintro ⟨-, sum, hSum, -⟩
        cases hScrapes.symm.trans hSum
      · exact ⟨hHigh, hRequested⟩
  | @held sum policy _ hScrapes hDecided =>
      left
      apply And.intro
      · rintro ⟨-, sum', hSum, hConfirmed⟩
        cases hScrapes.symm.trans hSum
        cases hDecided.down_iff.mpr hConfirmed
      · exact ⟨hHigh, hRequested⟩
  | scaledUp _ _ hDecided =>
      obtain ⟨-, -, hRoom, -⟩ := hDecided.up_iff.mp rfl
      omega
  | @scaledDown sum policy hUrls hScrapes hDecided =>
      right
      apply And.intro
      · exact ⟨hUrls, sum, hScrapes, hDecided.down_iff.mp rfl⟩
      · rw [apply_requested]
        show c.requested ++ [max (c.replicas - 1) settings.minReplicas] = [c.replicas - 1]
        rw [hRequested, List.nil_append, Int.max_eq_left]
        omega

theorem requested_subset (hTicked : Ticked settings c input t) : c.requested ⊆ t.requested := by
  cases hTicked with
  | scaledUp => exact List.subset_append_left _ _
  | scaledDown => exact List.subset_append_left _ _
  | _ => exact List.Subset.refl _

theorem far_allowed (hBounds : settings.minReplicas ≤ settings.maxReplicas) (hFar : c.Far settings)
    (hTicked : Ticked settings c input t) :
    (∀ count ∈ t.requested, settings.Allows count) ↔ ¬ c.DownConfirmed settings input := by
  rcases far_tick hBounds hFar hTicked with ⟨hQuiet, hStays⟩ | ⟨hConfirmed, hRequested⟩
  · refine iff_of_true ?_ hQuiet
    simp [hStays.requested]
  · refine iff_of_false ?_ (not_not_intro hConfirmed)
    intro hAllowed
    have hAbove := (hAllowed (c.replicas - 1) (by simp [hRequested])).2
    have hHigh := hFar.high
    omega

/-- From far above the maximum, the bounds are kept exactly while no tick
confirms a low load. -/
theorem far_run (hBounds : settings.minReplicas ≤ settings.maxReplicas) (hFar : c.Far settings)
    {inputs : List (TickInput F)} (run : exec (tickStep settings) c inputs = some t) :
    (∀ count ∈ t.requested, settings.Allows count) ↔
      Along (tickStep settings) (fun c input => ¬ c.DownConfirmed settings input) c inputs := by
  have hKeep : ∀ c input t, ((∀ count ∈ c.requested, settings.Allows count) → c.Far settings) → True →
      tickStep settings c input = some t → (∀ count ∈ t.requested, settings.Allows count) →
        t.Far settings := by
    intro c input t hInv _ hStep hAllowed
    cases hStep
    have hTicked := tick_ticked settings c input
    have hFar := hInv fun count hCount => hAllowed count (requested_subset hTicked hCount)
    have hQuiet := (far_allowed hBounds hFar hTicked).mp hAllowed
    rcases far_tick hBounds hFar hTicked with ⟨-, hStays⟩ | ⟨hConfirmed, -⟩
    · exact hStays
    · exact absurd hConfirmed hQuiet
  have hHere : ∀ c input t, ((∀ count ∈ c.requested, settings.Allows count) → c.Far settings) → True →
      tickStep settings c input = some t → ((∀ count ∈ t.requested, settings.Allows count) ↔
        (∀ count ∈ c.requested, settings.Allows count) ∧ ¬ c.DownConfirmed settings input) := by
    intro c input t hInv _ hStep
    cases hStep
    have hTicked := tick_ticked settings c input
    constructor
    · intro hAllowed
      have hEarlier : ∀ count ∈ c.requested, settings.Allows count := fun count hCount =>
        hAllowed count (requested_subset hTicked hCount)
      exact ⟨hEarlier, (far_allowed hBounds (hInv hEarlier) hTicked).mp hAllowed⟩
    · rintro ⟨hEarlier, hQuiet⟩
      exact (far_allowed hBounds (hInv hEarlier) hTicked).mpr hQuiet
  rw [holds_iff_along hKeep hHere (fun _ => hFar) (fun _ _ => trivial) run]
  exact and_iff_right (by simp [hFar.requested])

/-- The bounds are kept on exactly the runs that start at most one above the
maximum, or in which no tick confirms a low load. -/
theorem requests_in_bounds_iff (hBounds : settings.minReplicas ≤ settings.maxReplicas)
    {inputs : List (TickInput F)} (run : exec (tickStep settings) (start settings) inputs = some t) :
    (∀ count ∈ t.requested, settings.Allows count) ↔
      (settings.targetUrls.length : Int) ≤ settings.maxReplicas + 1 ∨
        Along (tickStep settings) (fun c input => ¬ c.DownConfirmed settings input) (start settings) inputs := by
  by_cases hNear : (settings.targetUrls.length : Int) ≤ settings.maxReplicas + 1
  · have hKeep : ∀ c input t, Bounded settings c → tickStep settings c input = some t → t.Bounded settings := by
      intro c input t hBounded hStep
      cases hStep
      exact bounded_tick hBounded (tick_ticked settings c input)
    have hBounded := invariant hKeep (bounded_start hBounds hNear) run
    exact iff_of_true hBounded.requested (Or.inl hNear)
  · have hReplicas : (start settings).replicas =
        max (settings.targetUrls.length : Int) settings.minReplicas := rfl
    have hFar : (start settings).Far settings := by
      apply Far.mk
      · rw [hReplicas]
        omega
      · rfl
    rw [far_run hBounds hFar run, or_iff_right hNear]

/-- The preset bounds, for a number of target URLs. -/
def targets (count : Nat) : AutoscalerSettings ℚ := .preset (.replicate count "http://user:8100")

/-- Ticks that scrape idle instances, one interval after the other. -/
def idleTicks (count : Nat) : List (TickInput ℚ) :=
  (List.range count).map fun i => ⟨100 + 5 * i, fun _ => .sample .zero, false⟩

/-- Seven target URLs are one too many, and the first step down mends that. -/
theorem requests_in_bounds_iff_seven :
    ∃ t, exec (tickStep (targets 7)) (start (targets 7)) (idleTicks 6) = some t ∧ t.requested = [6] ∧
      ∀ count ∈ t.requested, (targets 7).Allows count := by
  refine ⟨_, rfl, by decide +kernel, ?_⟩
  have hNear : ((targets 7).targetUrls.length : Int) ≤ (targets 7).maxReplicas + 1 := by decide
  apply (requests_in_bounds_iff (by decide) ?_).mpr (Or.inl hNear)
  · exact idleTicks 6
  · rfl

/-- With eight target URLs the first step down asks for seven replicas, where
six are the maximum. -/
theorem requests_leave_bounds :
    ∃ t, exec (tickStep (targets 8)) (start (targets 8)) (idleTicks 6) = some t ∧
      1 ≤ (targets 8).minReplicas ∧ (targets 8).minReplicas ≤ (targets 8).maxReplicas ∧
      ¬ ∀ count ∈ t.requested, (targets 8).Allows count := by
  refine ⟨_, rfl, by decide, by decide, ?_⟩
  intro hAllowed
  have hSeven : (targets 8).Allows 7 := hAllowed 7 (by decide +kernel)
  exact absurd hSeven.2 (by decide)

end ScalingController

end ServicePlatform.Autoscaler
