import Mathlib.Algebra.Order.Group.Defs
import Mathlib.Algebra.Order.Group.Unbundled.Basic
import Mathlib.Algebra.Order.Group.Int
import Mathlib.Tactic.Linarith
import ServicePlatform.Autoscaler.Policy
import ServicePlatform.Transition.Streak

/-! The sustain rule over a whole sequence of calls. What a call decides is a
matter of the calls before it: how long ago the last action was, and whether
enough calls in a row found the load out of its bounds. The counters of the
policy are runs of such calls. -/
namespace ServicePlatform.Autoscaler

open Transition

/-- The arguments of one call of `decide`. -/
structure PolicyCall (F : Type*) where
  currentReplicas : Int
  rpsPerInstance : F
  errorRate : F
  now : F

namespace PolicyCall

variable {F : Type*} [Zero F] [Sub F] [LT F] [DecidableLT F]

def decideOn (settings : AutoscalerSettings F) (call : PolicyCall F) (state : PolicyState F) :
    PolicyState F × Decision F :=
  state.decide settings call.currentReplicas call.rpsPerInstance call.errorRate call.now

/-- The state that a fresh policy has before a call. -/
def stateAt (settings : AutoscalerSettings F) (calls : Nat → PolicyCall F) : Nat → PolicyState F
  | 0 => .initial
  | n + 1 => ((calls n).decideOn settings (stateAt settings calls n)).1

/-- What a call returns. -/
def actionAt (settings : AutoscalerSettings F) (calls : Nat → PolicyCall F) (n : Nat) : Action :=
  ((calls n).decideOn settings (stateAt settings calls n)).2.action

/-- The time of the last action before a call, zero if there was none. -/
def lastActionAt (settings : AutoscalerSettings F) (calls : Nat → PolicyCall F) : Nat → F
  | 0 => 0
  | n + 1 => if actionAt settings calls n = .hold then lastActionAt settings calls n else (calls n).now

variable [LE F]

/-- The call is outside the cooldown. -/
def CooledDown (settings : AutoscalerSettings F) (calls : Nat → PolicyCall F) (n : Nat) : Prop :=
  settings.cooldownSeconds ≤ (calls n).now - lastActionAt settings calls n

/-- The call finds too much load, and room for a replica more. -/
def Overloaded (settings : AutoscalerSettings F) (calls : Nat → PolicyCall F) (n : Nat) : Prop :=
  CooledDown settings calls n ∧ settings.High (calls n).rpsPerInstance (calls n).errorRate ∧
    (calls n).currentReplicas < settings.maxReplicas

/-- The call finds too little load, and room for a replica less. -/
def Underused (settings : AutoscalerSettings F) (calls : Nat → PolicyCall F) (n : Nat) : Prop :=
  CooledDown settings calls n ∧ settings.Low (calls n).rpsPerInstance (calls n).errorRate ∧
    settings.minReplicas < (calls n).currentReplicas

/-- The call and the ones right before it, as many as are to sustain, have the
property, and no earlier one of them acted. -/
def Sustains (settings : AutoscalerSettings F) (calls : Nat → PolicyCall F) (P : Nat → Prop) (sustain : Int)
    (n : Nat) : Prop :=
  sustain ≤ n + 1 ∧ P n ∧
    ∀ j < n, (n : Int) < j + sustain → P j ∧ actionAt settings calls j = .hold

end PolicyCall

namespace PolicyState.Decided

variable {F : Type*} [Zero F] [Sub F] [LT F] {settings : AutoscalerSettings F} {state after : PolicyState F}
  {currentReplicas : Int} {rpsPerInstance errorRate now : F} {action : Action}

/-- What a call does to the streak of a high load. -/
theorem counts_up (hDecided : Decided settings state currentReplicas rpsPerInstance errorRate now after action) :
    ((Cooled settings state now ∧ settings.High rpsPerInstance errorRate ∧
        currentReplicas < settings.maxReplicas) ∧ action = .hold ∧ after.upStreak = state.upStreak + 1) ∨
    (¬ ((settings.High rpsPerInstance errorRate ∧ currentReplicas < settings.maxReplicas) ∧ action = .hold) ∧
      after.upStreak = 0) ∨
    (¬ Cooled settings state now ∧ after.upStreak = state.upStreak) := by
  cases hDecided with
  | cooling hCooled => exact Or.inr (Or.inr ⟨hCooled, rfl⟩)
  | atMaximum _ _ hMaximum => exact Or.inr (Or.inl ⟨by simp [Int.not_lt.mpr hMaximum], rfl⟩)
  | up => exact Or.inr (Or.inl ⟨by simp, rfl⟩)
  | overloadPending hCooled hHigh hRoom => exact Or.inl ⟨⟨hCooled, hHigh, hRoom⟩, rfl, rfl⟩
  | atMinimum _ hLow => exact Or.inr (Or.inl ⟨by simp [hLow.1], rfl⟩)
  | down => exact Or.inr (Or.inl ⟨by simp, rfl⟩)
  | underusePending _ hLow => exact Or.inr (Or.inl ⟨by simp [hLow.1], rfl⟩)
  | normal _ hHigh => exact Or.inr (Or.inl ⟨by simp [hHigh], rfl⟩)

/-- What a call does to the streak of a low load. -/
theorem counts_down
    (hDecided : Decided settings state currentReplicas rpsPerInstance errorRate now after action) :
    ((Cooled settings state now ∧ settings.Low rpsPerInstance errorRate ∧
        settings.minReplicas < currentReplicas) ∧ action = .hold ∧ after.downStreak = state.downStreak + 1) ∨
    (¬ ((settings.Low rpsPerInstance errorRate ∧ settings.minReplicas < currentReplicas) ∧ action = .hold) ∧
      after.downStreak = 0) ∨
    (¬ Cooled settings state now ∧ after.downStreak = state.downStreak) := by
  cases hDecided with
  | cooling hCooled => exact Or.inr (Or.inr ⟨hCooled, rfl⟩)
  | atMaximum _ hHigh => exact Or.inr (Or.inl ⟨by simp [AutoscalerSettings.Low, hHigh], rfl⟩)
  | up => exact Or.inr (Or.inl ⟨by simp, rfl⟩)
  | overloadPending _ hHigh => exact Or.inr (Or.inl ⟨by simp [AutoscalerSettings.Low, hHigh], rfl⟩)
  | atMinimum _ _ hMinimum => exact Or.inr (Or.inl ⟨by simp [Int.not_lt.mpr hMinimum], rfl⟩)
  | down => exact Or.inr (Or.inl ⟨by simp, rfl⟩)
  | underusePending hCooled hLow hRoom => exact Or.inl ⟨⟨hCooled, hLow, hRoom⟩, rfl, rfl⟩
  | normal _ _ hLow => exact Or.inr (Or.inl ⟨by simp [hLow], rfl⟩)

/-- An action sets the time of the last action, and nothing else does. -/
theorem lastActionAt_eq [DecidableEq F]
    (hDecided : Decided settings state currentReplicas rpsPerInstance errorRate now after action) :
    after.lastActionAt = if action = .hold then state.lastActionAt else now := by
  cases hDecided <;> rfl

end PolicyState.Decided

namespace PolicyCall

variable {F : Type*} [AddCommGroup F] [LinearOrder F] [IsOrderedAddMonoid F]
  {settings : AutoscalerSettings F} {calls : Nat → PolicyCall F} {n : Nat}

omit [IsOrderedAddMonoid F] in
theorem stateAt_decided (settings : AutoscalerSettings F) (calls : Nat → PolicyCall F) (n : Nat) :
    (stateAt settings calls n).Decided settings (calls n).currentReplicas (calls n).rpsPerInstance
      (calls n).errorRate (calls n).now (stateAt settings calls (n + 1)) (actionAt settings calls n) :=
  PolicyState.decide_decided settings _ _ _ _ _

omit [IsOrderedAddMonoid F] in
theorem stateAt_lastActionAt :
    (stateAt settings calls n).lastActionAt = lastActionAt settings calls n := by
  induction n with
  | zero => rfl
  | succ n ih =>
      rw [(stateAt_decided settings calls n).lastActionAt_eq, ih]
      rfl

theorem cooled_iff :
    PolicyState.Cooled settings (stateAt settings calls n) (calls n).now ↔ CooledDown settings calls n := by
  unfold PolicyState.Cooled CooledDown
  rw [stateAt_lastActionAt, not_lt, sub_nonpos]

/-- A cooldown that is over stays over until the policy acts. -/
theorem CooledDown.next (hCooled : CooledDown settings calls n) (hNow : (calls n).now ≤ (calls (n + 1)).now)
    (hHold : actionAt settings calls n = .hold) : CooledDown settings calls (n + 1) := by
  have hLast : lastActionAt settings calls (n + 1) = lastActionAt settings calls n := if_pos hHold
  unfold CooledDown
  rw [hLast]
  exact le_trans hCooled (sub_le_sub_right hNow _)

section Counter

variable {count : PolicyState F → Int} {Counted Wanted : Nat → Prop}

/-- A streak of the policy is the run of calls that it counts. It rests only
during the cooldown, and then the call before has acted or was cooling as well. -/
theorem streak_eq [DecidablePred fun j => Counted j ∧ actionAt settings calls j = .hold]
    (hCounted : ∀ k, Counted k ↔ CooledDown settings calls k ∧ Wanted k)
    (hNow : ∀ n, (calls n).now ≤ (calls (n + 1)).now) (hStart : count .initial = 0)
    (hCounts : ∀ k,
      (Counted k ∧ actionAt settings calls k = .hold ∧
        count (stateAt settings calls (k + 1)) = count (stateAt settings calls k) + 1) ∨
      (¬ (Wanted k ∧ actionAt settings calls k = .hold) ∧ count (stateAt settings calls (k + 1)) = 0) ∨
      (¬ CooledDown settings calls k ∧
        count (stateAt settings calls (k + 1)) = count (stateAt settings calls k))) :
    count (stateAt settings calls n) = streak (fun j => Counted j ∧ actionAt settings calls j = .hold) n := by
  let counted : Nat → Int := fun k => count (stateAt settings calls k)
  show counted n = _
  apply counter_eq_streak hStart
  intro k
  rcases hCounts k with ⟨hHere, hHold, hRaised⟩ | ⟨hNot, hZero⟩ | ⟨hCooling, hRests⟩
  · exact Or.inl ⟨⟨hHere, hHold⟩, hRaised⟩
  · exact Or.inr (Or.inl ⟨fun h => hNot ⟨((hCounted k).mp h.1).2, h.2⟩, hZero⟩)
  · refine Or.inr (Or.inr ⟨fun h => hCooling ((hCounted k).mp h.1).1, ?_, hRests⟩)
    intro j hj hBefore
    subst hj
    exact hCooling (((hCounted j).mp hBefore.1).1.next (hNow j) hBefore.2)

omit [IsOrderedAddMonoid F] in
/-- Enough calls in a row, in terms of the run that ends before the call. -/
theorem sustains_iff [DecidablePred fun j => Counted j ∧ actionAt settings calls j = .hold] {sustain : Int}
    (hSustain : 1 ≤ sustain) :
    Sustains settings calls Counted sustain n ↔
      Counted n ∧ sustain ≤ streak (fun j => Counted j ∧ actionAt settings calls j = .hold) n + 1 := by
  obtain ⟨width, rfl⟩ : ∃ width : Nat, sustain = width + 1 := ⟨(sustain - 1).toNat, by omega⟩
  have hRun : width ≤ streak (fun j => Counted j ∧ actionAt settings calls j = .hold) n ↔
      width ≤ n ∧ ∀ j < n, n ≤ j + width → Counted j ∧ actionAt settings calls j = .hold := le_streak_iff
  unfold Sustains
  constructor
  · intro ⟨hEnough, hHere, hBefore⟩
    have hLong : width ≤ streak (fun j => Counted j ∧ actionAt settings calls j = .hold) n := by
      apply hRun.mpr
      refine ⟨by omega, ?_⟩
      intro j hj hFrom
      exact hBefore j hj (by omega)
    exact ⟨hHere, by omega⟩
  · intro ⟨hHere, hLong⟩
    obtain ⟨hEnough, hBefore⟩ := hRun.mp (by omega)
    refine ⟨by omega, hHere, ?_⟩
    intro j hj hFrom
    exact hBefore j hj (by omega)

end Counter

theorem overloaded_iff :
    Overloaded settings calls n ↔
      PolicyState.Cooled settings (stateAt settings calls n) (calls n).now ∧
        settings.High (calls n).rpsPerInstance (calls n).errorRate ∧
        (calls n).currentReplicas < settings.maxReplicas := by
  rw [cooled_iff]
  rfl

theorem underused_iff :
    Underused settings calls n ↔
      PolicyState.Cooled settings (stateAt settings calls n) (calls n).now ∧
        settings.Low (calls n).rpsPerInstance (calls n).errorRate ∧
        settings.minReplicas < (calls n).currentReplicas := by
  rw [cooled_iff]
  rfl

theorem up_iff_sustains (hUp : 1 ≤ settings.sustainUp) (hNow : ∀ n, (calls n).now ≤ (calls (n + 1)).now) :
    actionAt settings calls n = .up ↔
      Sustains settings calls (Overloaded settings calls) settings.sustainUp n := by
  classical
  have hStreak : (stateAt settings calls n).upStreak =
      streak (fun j => Overloaded settings calls j ∧ actionAt settings calls j = .hold) n := by
    have hCounted : ∀ k, Overloaded settings calls k ↔ CooledDown settings calls k ∧
        settings.High (calls k).rpsPerInstance (calls k).errorRate ∧ (calls k).currentReplicas < settings.maxReplicas :=
      fun _ => Iff.rfl
    apply streak_eq hCounted hNow rfl
    intro k
    rw [hCounted, ← cooled_iff]
    exact (stateAt_decided settings calls k).counts_up
  rw [(stateAt_decided settings calls n).up_iff, hStreak, sustains_iff hUp, overloaded_iff]
  simp only [and_assoc]

theorem down_iff_sustains (hDown : 1 ≤ settings.sustainDown)
    (hNow : ∀ n, (calls n).now ≤ (calls (n + 1)).now) :
    actionAt settings calls n = .down ↔
      Sustains settings calls (Underused settings calls) settings.sustainDown n := by
  classical
  have hStreak : (stateAt settings calls n).downStreak =
      streak (fun j => Underused settings calls j ∧ actionAt settings calls j = .hold) n := by
    have hCounted : ∀ k, Underused settings calls k ↔ CooledDown settings calls k ∧
        settings.Low (calls k).rpsPerInstance (calls k).errorRate ∧ settings.minReplicas < (calls k).currentReplicas :=
      fun _ => Iff.rfl
    apply streak_eq hCounted hNow rfl
    intro k
    rw [hCounted, ← cooled_iff]
    exact (stateAt_decided settings calls k).counts_down
  rw [(stateAt_decided settings calls n).down_iff, hStreak, sustains_iff hDown, underused_iff]
  simp only [and_assoc]

/-- The sustain rule, exactly. -/
theorem sustain_rule (settings : AutoscalerSettings F) (calls : Nat → PolicyCall F)
    (hUp : 1 ≤ settings.sustainUp) (hDown : 1 ≤ settings.sustainDown)
    (hNow : ∀ n, (calls n).now ≤ (calls (n + 1)).now) (n : Nat) :
    (actionAt settings calls n = .up ↔ CooledDown settings calls n ∧
      Sustains settings calls (Overloaded settings calls) settings.sustainUp n) ∧
    (actionAt settings calls n = .down ↔ CooledDown settings calls n ∧
      Sustains settings calls (Underused settings calls) settings.sustainDown n) := by
  apply And.intro
  · rw [up_iff_sustains hUp hNow]
    exact ⟨fun h => ⟨h.2.1.1, h⟩, fun h => h.2⟩
  · rw [down_iff_sustains hDown hNow]
    exact ⟨fun h => ⟨h.2.1.1, h⟩, fun h => h.2⟩

/-- A call every ten seconds that finds two replicas loaded with 25 requests
per second each: the preset policy cools down until 60, and then adds a replica
at the third call. -/
theorem sustain_rule_busy :
    let settings := AutoscalerSettings.preset ["http://user:8100"]
    let calls : Nat → PolicyCall ℚ := fun n => ⟨2, 25, 0, 10 * n⟩
    (actionAt settings calls 8 = .up ↔ CooledDown settings calls 8 ∧
      Sustains settings calls (Overloaded settings calls) 3 8) ∧ actionAt settings calls 8 = .up := by
  intro settings calls
  have hNow : ∀ n, (calls n).now ≤ (calls (n + 1)).now := by
    intro n
    show (10 * (n : ℚ)) ≤ 10 * ((n + 1 : Nat) : ℚ)
    rw [Nat.cast_succ]
    linarith
  exact ⟨(sustain_rule settings calls (by decide) (by decide) hNow 8).1, by decide +kernel⟩

end PolicyCall

end ServicePlatform.Autoscaler
