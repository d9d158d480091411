import Mathlib.Tactic.Linarith
import ServicePlatform.Autoscaler.Commands

/-! The control loop under a load that stays the same. After a step up, the
load was too high for one replica less, and after a step down it was too low
for one replica more. With the thresholds far enough apart, no later tick finds
a reason to step back. -/
namespace ServicePlatform.Autoscaler

open Transition

namespace ScalingController

variable {F : Type*} [Field F] [LinearOrder F]

/-- The tick measures the given total rate and no high error rate, if it
measures at all, and `set_replicas` returns normally. -/
def Reads (settings : AutoscalerSettings F) (load : F) (c : ScalingController F) (input : TickInput F) : Prop :=
  input.scalerFails = false ∧ (settings.targetUrls ≠ [] → ∀ sum, totals settings input = some sum →
    (computeRps c.prev sum settings.intervalSeconds).1 = load ∧
      (computeRps c.prev sum settings.intervalSeconds).2 ≤ settings.errorRateThreshold)

/-- All calls of a log move the estimate by one and the same step. -/
def Heads (delta : Int) (log : List (TickRecord F)) : Prop :=
  ∀ record ∈ log, ∀ count ∈ record.issued, count = record.before + delta

/-- The estimate before each tick of a log, and the one after it. -/
def replicaCounts (log : List (TickRecord F)) (replicas : Int) : List Int :=
  log.map TickRecord.before ++ [replicas]

/-- The calls of a log and the estimate keep to one direction. -/
def Follows (delta : Int) (log : List (TickRecord F)) (replicas : Int) : Prop :=
  Heads delta log ∧ (replicaCounts log replicas).IsChain fun before after => after = before ∨ after = before + delta

variable {settings : AutoscalerSettings F} {load : F} {c t : ScalingController F} {input : TickInput F}
  {log : List (TickRecord F)} {delta : Int}

theorem reading_of_reads (hReplicas : 1 ≤ c.replicas) {sum : ServiceSample F}
    (hLoad : (computeRps c.prev sum settings.intervalSeconds).1 = load) :
    (c.reading settings sum).1 = load / (c.replicas : F) := by
  have hSome : c.replicas ≠ 0 := by omega
  unfold reading
  rw [← hLoad]
  exact if_neg hSome

variable [IsStrictOrderedRing F]

/-- What a tick does under the load: nothing to the estimate, or one step that
the load of each replica asks for. -/
inductive Stepped (settings : AutoscalerSettings F) (load : F) (c t : ScalingController F) : Prop where
  | quiet (hRequested : t.requested = c.requested) (hReplicas : t.replicas = c.replicas)
  | up (hHigh : settings.scaleUpRps * c.replicas < load) (hRequested : t.requested = c.requested ++ [c.replicas + 1])
      (hReplicas : t.replicas = c.replicas + 1)
  | down (hLow : load < settings.scaleDownRps * c.replicas) (hRoom : settings.minReplicas < c.replicas)
      (hRequested : t.requested = c.requested ++ [c.replicas - 1]) (hReplicas : t.replicas = c.replicas - 1)

theorem Ticked.stepped (hTicked : Ticked settings c input t) (hReplicas : 1 ≤ c.replicas)
    (hReads : c.Reads settings load input) : Stepped settings load c t := by
  have hPositive : (0 : F) < c.replicas := Int.cast_pos.mpr (by omega)
  obtain ⟨hSucceeds, hMeasured⟩ := hReads
  cases hTicked with
  | untargeted => exact .quiet rfl rfl
  | aborted => exact .quiet rfl rfl
  | held => exact .quiet rfl rfl
  | scaledUp hUrls hScrapes hDecided =>
      obtain ⟨hLoad, hErrors⟩ := hMeasured hUrls _ hScrapes
      obtain ⟨-, hHigh, hRoom, -⟩ := hDecided.up_iff.mp rfl
      have hCount : min (c.replicas + 1) settings.maxReplicas = c.replicas + 1 := by omega
      rw [hSucceeds, hCount]
      refine .up ?_ rfl rfl
      rcases hHigh with hRate | hFailing
      · rw [reading_of_reads hReplicas hLoad] at hRate
        exact (lt_div_iff₀ hPositive).mp hRate
      · exact absurd hErrors (not_le.mpr hFailing)
  | scaledDown hUrls hScrapes hDecided =>
      obtain ⟨hLoad, -⟩ := hMeasured hUrls _ hScrapes
      obtain ⟨-, ⟨-, hRate⟩, hRoom, -⟩ := hDecided.down_iff.mp rfl
      have hCount : max (c.replicas - 1) settings.minReplicas = c.replicas - 1 := by omega
      rw [hSucceeds, hCount]
      refine .down ?_ hRoom rfl rfl
      rw [reading_of_reads hReplicas hLoad] at hRate
      exact (div_lt_iff₀ hPositive).mp hRate

omit [Field F] [LinearOrder F] [IsStrictOrderedRing F] in
theorem Follows.tick (hFollows : Follows delta log c.replicas)
    (hIssued : ∀ count ∈ (c.record input t).issued, count = c.replicas + delta)
    (hReplicas : t.replicas = c.replicas ∨ t.replicas = c.replicas + delta) :
    Follows delta (log ++ [c.record input t]) t.replicas := by
  obtain ⟨hHeads, hCounts⟩ := hFollows
  apply And.intro
  · intro record hRecord
    rcases List.mem_append.mp hRecord with hOld | hNew
    · exact hHeads record hOld
    · rw [List.mem_singleton.mp hNew]
      exact hIssued
  · have hSplit : replicaCounts (log ++ [c.record input t]) t.replicas =
        replicaCounts log c.replicas ++ [t.replicas] := by
      unfold replicaCounts
      rw [List.map_append]
      rfl
    rw [hSplit, List.isChain_append]
    refine ⟨hCounts, .singleton _, ?_⟩
    intro before hBefore after hAfter
    rw [replicaCounts, List.getLast?_concat] at hBefore
    cases hBefore
    cases hAfter
    exact hReplicas

/-- Where a run under the load stands. Once it has moved, the load that made it
move bounds what the replicas get now. -/
inductive Course (settings : AutoscalerSettings F) (load : F) (c : ScalingController F)
    (log : List (TickRecord F)) : Prop where
  | untouched (hFollows : ∀ delta, Follows delta log c.replicas)
  | risen (hFollows : Follows 1 log c.replicas) (hSome : 2 ≤ c.replicas)
      (hLoad : settings.scaleUpRps * (c.replicas - 1) < load)
  | fallen (hFollows : Follows (-1) log c.replicas) (hLoad : load < settings.scaleDownRps * (c.replicas + 1))

/-- The load that was too high for one replica less is not too low. -/
theorem not_low_of_risen (hDown : 0 < settings.scaleDownRps)
    (hUp : 2 * settings.scaleDownRps ≤ settings.scaleUpRps) {replicas : F} (hSome : 2 ≤ replicas)
    (hLoad : settings.scaleUpRps * (replicas - 1) < load) : settings.scaleDownRps * replicas < load := by
  have hGap : 2 * settings.scaleDownRps * (replicas - 1) ≤ settings.scaleUpRps * (replicas - 1) :=
    mul_le_mul_of_nonneg_right hUp (by linarith)
  have hSpare : 0 ≤ settings.scaleDownRps * (replicas - 2) := mul_nonneg hDown.le (by linarith)
  linarith

/-- The load that was too low for one replica more is not too high. -/
theorem not_high_of_fallen (hDown : 0 < settings.scaleDownRps)
    (hUp : 2 * settings.scaleDownRps ≤ settings.scaleUpRps) {replicas : F} (hSome : 1 ≤ replicas)
    (hLoad : load < settings.scaleDownRps * (replicas + 1)) : load < settings.scaleUpRps * replicas := by
  have hGap : 2 * settings.scaleDownRps * replicas ≤ settings.scaleUpRps * replicas :=
    mul_le_mul_of_nonneg_right hUp (by linarith)
  have hSpare : 0 ≤ settings.scaleDownRps * (replicas - 1) := mul_nonneg hDown.le (by linarith)
  linarith

omit [IsStrictOrderedRing F] in
theorem Course.quiet (hCourse : Course settings load c log) (hRequested : t.requested = c.requested)
    (hReplicas : t.replicas = c.replicas) : Course settings load t (log ++ [c.record input t]) := by
  have hTick : ∀ {delta : Int}, Follows delta log c.replicas →
      Follows delta (log ++ [c.record input t]) t.replicas := by
    intro delta hFollows
    refine hFollows.tick ?_ (Or.inl hReplicas)
    simp [record, hRequested]
  cases hCourse with
  | untouched hFollows => exact .untouched fun delta => hTick (hFollows delta)
  | risen hFollows hSome hLoad =>
      rw [← hReplicas] at hSome hLoad
      exact .risen (hTick hFollows) hSome hLoad
  | fallen hFollows hLoad =>
      rw [← hReplicas] at hLoad
      exact .fallen (hTick hFollows) hLoad

theorem Course.up (hDown : 0 < settings.scaleDownRps) (hUp : 2 * settings.scaleDownRps ≤ settings.scaleUpRps)
    (hSome : 1 ≤ c.replicas) (hCourse : Course settings load c log)
    (hHigh : settings.scaleUpRps * c.replicas < load) (hRequested : t.requested = c.requested ++ [c.replicas + 1])
    (hReplicas : t.replicas = c.replicas + 1) : Course settings load t (log ++ [c.record input t]) := by
  have hFollows : Follows 1 log c.replicas := by
    cases hCourse with
    | untouched hFollows => exact hFollows 1
    | risen hFollows => exact hFollows
    | fallen _ hLoad =>
        have hLow := not_high_of_fallen hDown hUp (by exact_mod_cast hSome) hLoad
        exact absurd hHigh (lt_asymm hLow)
  refine .risen (hFollows.tick ?_ (Or.inr hReplicas)) (by omega) ?_
  · simp [record, hRequested]
  · rw [hReplicas, Int.cast_add, Int.cast_one, add_sub_cancel_right]
    exact hHigh

theorem Course.down (hDown : 0 < settings.scaleDownRps) (hUp : 2 * settings.scaleDownRps ≤ settings.scaleUpRps)
    (hCourse : Course settings load c log) (hLow : load < settings.scaleDownRps * c.replicas)
    (hRequested : t.requested = c.requested ++ [c.replicas - 1]) (hReplicas : t.replicas = c.replicas - 1) :
    Course settings load t (log ++ [c.record input t]) := by
  have hFollows : Follows (-1) log c.replicas := by
    cases hCourse with
    | untouched hFollows => exact hFollows (-1)
    | risen _ hSome hLoad =>
        have hTwo : (2 : F) ≤ c.replicas := by exact_mod_cast hSome
        exact absurd hLow (lt_asymm (not_low_of_risen hDown hUp hTwo hLoad))
    | fallen hFollows => exact hFollows
  refine .fallen (hFollows.tick ?_ (Or.inr hReplicas)) ?_
  · simp [record, hRequested, sub_eq_add_neg]
  · rw [hReplicas, Int.cast_sub, Int.cast_one, sub_add_cancel]
    exact hLow

/-- Under a constant load the control loop does not oscillate: all its calls go
in one direction, and so does the estimate. -/
theorem constant_load_monotone (hMinimum : 1 ≤ settings.minReplicas) (hDown : 0 < settings.scaleDownRps)
    (hUp : 2 * settings.scaleDownRps ≤ settings.scaleUpRps) {start : ScalingController F}
    (hSome : 1 ≤ start.replicas) {inputs : List (TickInput F)}
    (hReads : Along (tickStep settings) (Reads settings load) start inputs)
    (run : exec (watched (tickStep settings) noteTick) (start, []) inputs = some (t, log)) :
    Heads 1 log ∧ (replicaCounts log t.replicas).IsChain (· ≤ ·) ∨
      Heads (-1) log ∧ (replicaCounts log t.replicas).IsChain (· ≥ ·) := by
  have hStart : Course settings load start [] := by
    apply Course.untouched
    intro delta
    exact ⟨by simp [Heads], .singleton _⟩
  have hKeep : ∀ (s : ScalingController F × List (TickRecord F)) input s',
      1 ≤ s.1.replicas ∧ Course settings load s.1 s.2 → s.1.Reads settings load input →
        watched (tickStep settings) noteTick s input = some s' →
          1 ≤ s'.1.replicas ∧ Course settings load s'.1 s'.2 := by
    rintro s input s' ⟨hSome, hCourse⟩ hReads hStep
    obtain ⟨hTick, hNote⟩ := watched_some.mp hStep
    have hTicked := tick_ticked settings s.1 input
    rw [Option.some.inj hTick] at hTicked
    rw [hNote]
    cases hTicked.stepped hSome hReads with
    | quiet hRequested hReplicas => exact ⟨hReplicas ▸ hSome, hCourse.quiet hRequested hReplicas⟩
    | up hHigh hRequested hReplicas =>
        exact ⟨by omega, hCourse.up hDown hUp hSome hHigh hRequested hReplicas⟩
    | down hLow hRoom hRequested hReplicas =>
        exact ⟨by omega, hCourse.down hDown hUp hLow hRequested hReplicas⟩
  obtain ⟨-, hCourse⟩ := invariant_along hKeep ⟨hSome, hStart⟩ (along_watched hReads) run
  cases hCourse with
  | untouched hFollows =>
      left
      exact ⟨(hFollows 1).1, (hFollows 1).2.imp fun _ _ _ => by omega⟩
  | risen hFollows =>
      left
      exact ⟨hFollows.1, hFollows.2.imp fun _ _ _ => by omega⟩
  | fallen hFollows =>
      right
      exact ⟨hFollows.1, hFollows.2.imp fun _ _ _ => by omega⟩

/-- Settings that wait for nothing. -/
def eager : AutoscalerSettings ℚ :=
  { AutoscalerSettings.preset ["http://user:8100"] with sustainUp := 1, cooldownSeconds := 0 }

/-- A controller that has read its counters once. -/
def settled : ScalingController ℚ := ⟨some ⟨0, 0⟩, .initial, 1, []⟩

/-- Two ticks at one hundred requests a second. -/
def surge : List (TickInput ℚ) :=
  [⟨100, fun _ => .sample ⟨500, 0⟩, false⟩, ⟨105, fun _ => .sample ⟨1000, 0⟩, false⟩]

/-- One hundred requests a second are too much for one replica and for two. -/
theorem constant_load_monotone_surge :
    ∃ t log, exec (watched (tickStep eager) noteTick) (settled, []) surge = some (t, log) ∧
      replicaCounts log t.replicas = [1, 2, 3] ∧
      (Heads 1 log ∧ (replicaCounts log t.replicas).IsChain (· ≤ ·) ∨
        Heads (-1) log ∧ (replicaCounts log t.replicas).IsChain (· ≥ ·)) := by
  have hReads : Along (tickStep eager) (Reads eager 100) settled surge := by
    refine ⟨⟨rfl, fun _ sum hSum => ?_⟩, fun t hStep => ?_⟩
    · cases hSum
      exact ⟨by decide +kernel, by decide +kernel⟩
    · cases hStep
      refine ⟨⟨rfl, fun _ sum hSum => ?_⟩, fun _ _ => trivial⟩
      cases hSum
      exact ⟨by decide +kernel, by decide +kernel⟩
  refine ⟨_, _, rfl, by decide +kernel, ?_⟩
  exact constant_load_monotone (by decide) (by decide +kernel) (by decide +kernel) (by decide) hReads rfl

end ScalingController

end ServicePlatform.Autoscaler
