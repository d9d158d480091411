import Mathlib.Algebra.Notation.Defs
import Mathlib.Data.Int.Notation
import Mathlib.Data.Rat.Defs
import Mathlib.Order.Basic

/-! The scaling policy of the autoscaler. The type of its numbers is left open,
with the operations and comparisons that the code uses and no laws, so that
floating-point numbers are covered with all that is odd about them. -/
namespace ServicePlatform.Autoscaler

/-- The settings that the control loop reads. -/
structure AutoscalerSettings (F : Type*) where
  targetUrls : List String
  intervalSeconds : F
  scaleUpRps : F
  scaleDownRps : F
  errorRateThreshold : F
  sustainUp : Int
  sustainDown : Int
  cooldownSeconds : F
  minReplicas : Int
  maxReplicas : Int

/-- The settings that `config.py` presets, for the given target URLs. -/
def AutoscalerSettings.preset (targetUrls : List String) : AutoscalerSettings ℚ where
  targetUrls := targetUrls
  intervalSeconds := 5
  scaleUpRps := 20
  scaleDownRps := 5
  errorRateThreshold := 5 / 100
  sustainUp := 3
  sustainDown := 6
  cooldownSeconds := 60
  minReplicas := 1
  maxReplicas := 6

inductive Action where
  | up
  | down
  | hold
  deriving DecidableEq

/-- What the reason of a decision tells, apart from its wording. -/
inductive Reason (F : Type*) where
  | coolingDown (left : F)
  | atMaximum
  | overloaded (rpsPerInstance errorRate : F)
  | overloadPending (streak sustain : Int)
  | atMinimum
  | underused (rpsPerInstance : F)
  | underusePending (streak sustain : Int)
  | normal (rpsPerInstance : F)

structure Decision (F : Type*) where
  action : Action
  reason : Reason F

structure PolicyState (F : Type*) where
  upStreak : Int
  downStreak : Int
  lastActionAt : F

variable {F : Type*} [Zero F] [Sub F] [LT F] [DecidableLT F]

namespace PolicyState

def initial : PolicyState F := ⟨0, 0, 0⟩

def reset (state : PolicyState F) : PolicyState F := { state with upStreak := 0, downStreak := 0 }

/-- The cooldown after the last action is over. -/
def Cooled (settings : AutoscalerSettings F) (state : PolicyState F) (now : F) : Prop :=
  ¬ 0 < settings.cooldownSeconds - (now - state.lastActionAt)

instance (settings : AutoscalerSettings F) (state : PolicyState F) (now : F) : Decidable (state.Cooled settings now) :=
  inferInstanceAs (Decidable (¬ 0 < settings.cooldownSeconds - (now - state.lastActionAt)))

end PolicyState

namespace AutoscalerSettings

/-- The load is too high. -/
def High (settings : AutoscalerSettings F) (rpsPerInstance errorRate : F) : Prop :=
  settings.scaleUpRps < rpsPerInstance ∨ settings.errorRateThreshold < errorRate

/-- The load is low, and not too high. -/
def Low (settings : AutoscalerSettings F) (rpsPerInstance errorRate : F) : Prop :=
  ¬ settings.High rpsPerInstance errorRate ∧ rpsPerInstance < settings.scaleDownRps

instance (settings : AutoscalerSettings F) (rpsPerInstance errorRate : F) :
    Decidable (settings.High rpsPerInstance errorRate) :=
  inferInstanceAs (Decidable (settings.scaleUpRps < rpsPerInstance ∨ settings.errorRateThreshold < errorRate))

instance (settings : AutoscalerSettings F) (rpsPerInstance errorRate : F) :
    Decidable (settings.Low rpsPerInstance errorRate) :=
  inferInstanceAs (Decidable (¬ settings.High rpsPerInstance errorRate ∧ rpsPerInstance < settings.scaleDownRps))

end AutoscalerSettings

namespace PolicyState

/-- `decide`. -/
def decide (settings : AutoscalerSettings F) (state : PolicyState F) (currentReplicas : Int)
    (rpsPerInstance errorRate now : F) : PolicyState F × Decision F :=
  let cooldownLeft := settings.cooldownSeconds - (now - state.lastActionAt)
  if 0 < cooldownLeft then (state, ⟨.hold, .coolingDown cooldownLeft⟩)
  else if settings.scaleUpRps < rpsPerInstance ∨ settings.errorRateThreshold < errorRate then
    let state := { state with downStreak := 0 }
    if settings.maxReplicas ≤ currentReplicas then
      ({ state with upStreak := 0 }, ⟨.hold, .atMaximum⟩)
    else
      let state := { state with upStreak := state.upStreak + 1 }
      if settings.sustainUp ≤ state.upStreak then
        ({ state with upStreak := 0, lastActionAt := now }, ⟨.up, .overloaded rpsPerInstance errorRate⟩)
      else (state, ⟨.hold, .overloadPending state.upStreak settings.sustainUp⟩)
  else if rpsPerInstance < settings.scaleDownRps then
    let state := { state with upStreak := 0 }
    if currentReplicas ≤ settings.minReplicas then
      ({ state with downStreak := 0 }, ⟨.hold, .atMinimum⟩)
    else
      let state := { state with downStreak := state.downStreak + 1 }
      if settings.sustainDown ≤ state.downStreak then
        ({ state with downStreak := 0, lastActionAt := now }, ⟨.down, .underused rpsPerInstance⟩)
      else (state, ⟨.hold, .underusePending state.downStreak settings.sustainDown⟩)
  else (state.reset, ⟨.hold, .normal rpsPerInstance⟩)

variable {settings : AutoscalerSettings F} {state : PolicyState F} {currentReplicas : Int}
  {rpsPerInstance errorRate now : F}

/-- What the policy decides, case by case. -/
inductive Decided (settings : AutoscalerSettings F) (state : PolicyState F) (currentReplicas : Int)
    (rpsPerInstance errorRate now : F) : PolicyState F → Action → Prop where
  | cooling (hCooled : ¬ Cooled settings state now) :
      Decided settings state currentReplicas rpsPerInstance errorRate now state .hold
  | atMaximum (hCooled : Cooled settings state now) (hHigh : settings.High rpsPerInstance errorRate)
      (hMaximum : settings.maxReplicas ≤ currentReplicas) :
      Decided settings state currentReplicas rpsPerInstance errorRate now state.reset .hold
  | up (hCooled : Cooled settings state now) (hHigh : settings.High rpsPerInstance errorRate)
      (hRoom : currentReplicas < settings.maxReplicas)
      (hSustained : settings.sustainUp ≤ state.upStreak + 1) :
      Decided settings state currentReplicas rpsPerInstance errorRate now ⟨0, 0, now⟩ .up
  | overloadPending (hCooled : Cooled settings state now) (hHigh : settings.High rpsPerInstance errorRate)
      (hRoom : currentReplicas < settings.maxReplicas)
      (hPending : state.upStreak + 1 < settings.sustainUp) :
      Decided settings state currentReplicas rpsPerInstance errorRate now
        ⟨state.upStreak + 1, 0, state.lastActionAt⟩ .hold
  | atMinimum (hCooled : Cooled settings state now) (hLow : settings.Low rpsPerInstance errorRate)
      (hMinimum : currentReplicas ≤ settings.minReplicas) :
      Decided settings state currentReplicas rpsPerInstance errorRate now state.reset .hold
  | down (hCooled : Cooled settings state now) (hLow : settings.Low rpsPerInstance errorRate)
      (hRoom : settings.minReplicas < currentReplicas)
      (hSustained : settings.sustainDown ≤ state.downStreak + 1) :
      Decided settings state currentReplicas rpsPerInstance errorRate now ⟨0, 0, now⟩ .down
  | underusePending (hCooled : Cooled settings state now) (hLow : settings.Low rpsPerInstance errorRate)
      (hRoom : settings.minReplicas < currentReplicas)
      (hPending : state.downStreak + 1 < settings.sustainDown) :
      Decided settings state currentReplicas rpsPerInstance errorRate now
        ⟨0, state.downStreak + 1, state.lastActionAt⟩ .hold
  | normal (hCooled : Cooled settings state now) (hHigh : ¬ settings.High rpsPerInstance errorRate)
      (hLow : ¬ settings.Low rpsPerInstance errorRate) :
      Decided settings state currentReplicas rpsPerInstance errorRate now state.reset .hold

theorem decide_decided (settings : AutoscalerSettings F) (state : PolicyState F) (currentReplicas : Int)
    (rpsPerInstance errorRate now : F) :
    Decided settings state currentReplicas rpsPerInstance errorRate now
      (decide settings state currentReplicas rpsPerInstance errorRate now).1
      (decide settings state currentReplicas rpsPerInstance errorRate now).2.action := by
  unfold decide
  by_cases hCooled : Cooled settings state now
  · simp only [if_neg hCooled]
    by_cases hHigh : settings.High rpsPerInstance errorRate
    · have hOver : settings.scaleUpRps < rpsPerInstance ∨ settings.errorRateThreshold < errorRate := hHigh
      simp only [if_pos hOver]
      split
      · next hMaximum => exact .atMaximum hCooled hHigh hMaximum
      · next hRoom =>
          split
          · next hSustained => exact .up hCooled hHigh (Int.lt_of_not_ge hRoom) hSustained
          · next hPending =>
              exact .overloadPending hCooled hHigh (Int.lt_of_not_ge hRoom) (Int.lt_of_not_ge hPending)
    · have hOver : ¬ (settings.scaleUpRps < rpsPerInstance ∨ settings.errorRateThreshold < errorRate) :=
        hHigh
      simp only [if_neg hOver]
      split
      · next hRps =>
          have hLow : settings.Low rpsPerInstance errorRate := ⟨hHigh, hRps⟩
          split
          · next hMinimum => exact .atMinimum hCooled hLow hMinimum
          · next hRoom =>
              split
              · next hSustained => exact .down hCooled hLow (Int.lt_of_not_ge hRoom) hSustained
              · next hPending =>
                  exact .underusePending hCooled hLow (Int.lt_of_not_ge hRoom) (Int.lt_of_not_ge hPending)
      · next hRps => exact .normal hCooled hHigh fun hLow => hRps hLow.2
  · have hLeft : 0 < settings.cooldownSeconds - (now - state.lastActionAt) := not_not.mp hCooled
    simp only [if_pos hLeft]
    exact .cooling hCooled

namespace Decided

variable {after : PolicyState F} {action : Action}

omit [DecidableLT F] in
theorem up_iff (hDecided : Decided settings state currentReplicas rpsPerInstance errorRate now after action) :
    action = .up ↔ Cooled settings state now ∧ settings.High rpsPerInstance errorRate ∧
      currentReplicas < settings.maxReplicas ∧ settings.sustainUp ≤ state.upStreak + 1 := by
  cases hDecided with
  | cooling hCooled => simp [hCooled]
  | atMaximum _ _ hMaximum => simp [Int.not_lt.mpr hMaximum]
  | up hCooled hHigh hRoom hSustained => simp [hCooled, hHigh, hRoom, hSustained]
  | overloadPending _ _ _ hPending => simp [Int.not_le.mpr hPending]
  | atMinimum _ hLow _ => simp [hLow.1]
  | down _ hLow _ _ => simp [hLow.1]
  | underusePending _ hLow _ _ => simp [hLow.1]
  | normal _ hHigh _ => simp [hHigh]

omit [DecidableLT F] in
theorem down_iff (hDecided : Decided settings state currentReplicas rpsPerInstance errorRate now after action) :
    action = .down ↔ Cooled settings state now ∧ settings.Low rpsPerInstance errorRate ∧
      settings.minReplicas < currentReplicas ∧ settings.sustainDown ≤ state.downStreak + 1 := by
  cases hDecided with
  | cooling hCooled => simp [hCooled]
  | atMaximum _ hHigh _ => simp [AutoscalerSettings.Low, hHigh]
  | up _ hHigh _ _ => simp [AutoscalerSettings.Low, hHigh]
  | overloadPending _ hHigh _ _ => simp [AutoscalerSettings.Low, hHigh]
  | atMinimum _ _ hMinimum => simp [Int.not_lt.mpr hMinimum]
  | down hCooled hLow hRoom hSustained => simp [hCooled, hLow, hRoom, hSustained]
  | underusePending _ _ _ hPending => simp [Int.not_le.mpr hPending]
  | normal _ _ hLow => simp [hLow]

omit [DecidableLT F] in
/-- While the policy holds, the streak of a high load counts it or starts
again, and rests during the cooldown. -/
theorem hold_upStreak (hDecided : Decided settings state currentReplicas rpsPerInstance errorRate now after .hold)
    (hRoom : currentReplicas < settings.maxReplicas) :
    (¬ Cooled settings state now ∧ after.upStreak = state.upStreak) ∨
    (Cooled settings state now ∧ settings.High rpsPerInstance errorRate ∧
      after.upStreak = state.upStreak + 1) ∨
    (Cooled settings state now ∧ ¬ settings.High rpsPerInstance errorRate ∧ after.upStreak = 0) := by
  cases hDecided with
  | cooling hCooled => exact Or.inl ⟨hCooled, rfl⟩
  | atMaximum _ _ hMaximum => exact absurd hRoom (Int.not_lt.mpr hMaximum)
  | overloadPending hCooled hHigh => exact Or.inr (Or.inl ⟨hCooled, hHigh, rfl⟩)
  | atMinimum hCooled hLow => exact Or.inr (Or.inr ⟨hCooled, hLow.1, rfl⟩)
  | underusePending hCooled hLow => exact Or.inr (Or.inr ⟨hCooled, hLow.1, rfl⟩)
  | normal hCooled hHigh => exact Or.inr (Or.inr ⟨hCooled, hHigh, rfl⟩)

omit [DecidableLT F] in
theorem hold_downStreak (hDecided : Decided settings state currentReplicas rpsPerInstance errorRate now after .hold)
    (hRoom : settings.minReplicas < currentReplicas) :
    (¬ Cooled settings state now ∧ after.downStreak = state.downStreak) ∨
    (Cooled settings state now ∧ settings.Low rpsPerInstance errorRate ∧
      after.downStreak = state.downStreak + 1) ∨
    (Cooled settings state now ∧ ¬ settings.Low rpsPerInstance errorRate ∧ after.downStreak = 0) := by
  cases hDecided with
  | cooling hCooled => exact Or.inl ⟨hCooled, rfl⟩
  | atMaximum hCooled hHigh => exact Or.inr (Or.inr ⟨hCooled, fun hLow => hLow.1 hHigh, rfl⟩)
  | overloadPending hCooled hHigh => exact Or.inr (Or.inr ⟨hCooled, fun hLow => hLow.1 hHigh, rfl⟩)
  | atMinimum _ _ hMinimum => exact absurd hRoom (Int.not_lt.mpr hMinimum)
  | underusePending hCooled hLow => exact Or.inr (Or.inl ⟨hCooled, hLow, rfl⟩)
  | normal hCooled _ hLow => exact Or.inr (Or.inr ⟨hCooled, hLow, rfl⟩)

omit [DecidableLT F] in
theorem hold_lastActionAt
    (hDecided : Decided settings state currentReplicas rpsPerInstance errorRate now after .hold) :
    after.lastActionAt = state.lastActionAt := by
  cases hDecided <;> rfl

end Decided

end PolicyState

end ServicePlatform.Autoscaler
