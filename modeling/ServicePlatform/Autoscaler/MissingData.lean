import Mathlib.Algebra.BigOperators.Ring.Finset
import Mathlib.Algebra.Order.Field.Basic
import ServicePlatform.Autoscaler.Fleet
import ServicePlatform.Transition.Streak

/-! Scaling on missing data. An instance that does not answer counts as one
without requests, so a sum over fewer instances than before reads as no load,
and a sum over more instances reads as a burst of all that the returning ones
have ever served. -/
namespace ServicePlatform.Autoscaler

open Transition ScalingController

namespace Fleet

section Windows

variable {F : Type*} [Zero F] [One F] [Add F] [Sub F] [Div F] [IntCast F] [LT F] [LE F] [DecidableLT F]
  [DecidableLE F] {settings : AutoscalerSettings F} {fleet : Fleet F} {c t : ScalingController F} {k : Nat}

/-- The controller before a tick, as long as nothing has been requested. Each
streak that matters measures the run of ticks that misread the load. -/
structure Waits (settings : AutoscalerSettings F) (fleet : Fleet F) (k : Nat) (c : ScalingController F) : Prop
    extends fleet.Tracks settings k c where
  upStreak : (settings.targetUrls.length : Int) < settings.maxReplicas →
    c.policy.upStreak = lastRun (fleet.Overload settings) (fleet.due settings k)
  downStreak : settings.minReplicas < settings.targetUrls.length →
    c.policy.downStreak = lastRun (fleet.Underuse settings) (fleet.due settings k)
  requested : c.requested = []

/-- The tick completes a run of misread ticks that the policy takes for a load
to react to. -/
def Misled (settings : AutoscalerSettings F) (fleet : Fleet F) (k : Nat) : Prop :=
  (settings.targetUrls.length : Int) < settings.maxReplicas ∧
      max 1 settings.sustainUp.toNat ≤ lastRun (fleet.Overload settings) (fleet.due settings k ++ [k]) ∨
    settings.minReplicas < settings.targetUrls.length ∧
      max 1 settings.sustainDown.toNat ≤ lastRun (fleet.Underuse settings) (fleet.due settings k ++ [k])

/-- Some such run is complete before a tick. -/
def Misread (settings : AutoscalerSettings F) (fleet : Fleet F) (k : Nat) : Prop :=
  (settings.targetUrls.length : Int) < settings.maxReplicas ∧
      Sustained (fleet.Overload settings) (max 1 settings.sustainUp.toNat) (fleet.due settings k) ∨
    settings.minReplicas < settings.targetUrls.length ∧
      Sustained (fleet.Underuse settings) (max 1 settings.sustainDown.toNat) (fleet.due settings k)

theorem misread_succ_iff : fleet.Misread settings (k + 1) ↔
    fleet.Misread settings k ∨ PolicyState.initial.Cooled settings (fleet.clock k) ∧ fleet.Misled settings k := by
  unfold Misread Misled
  by_cases hCooled : PolicyState.initial.Cooled settings (fleet.clock k)
  · rw [due_succ_of hCooled, sustained_concat_iff, sustained_concat_iff, and_or_left, and_or_left,
      and_iff_right hCooled, or_or_or_comm]
  · rw [due_succ_of_not hCooled]
    exact (or_iff_left fun h => hCooled h.1).symm

theorem waits_start (hMinimum : settings.minReplicas ≤ settings.targetUrls.length) (fleet : Fleet F) :
    ¬ fleet.Misread settings 0 ∧ fleet.Waits settings 0 (start settings) := by
  refine ⟨?_, ⟨rfl, Int.max_eq_left hMinimum, rfl⟩, fun _ => rfl, fun _ => rfl, rfl⟩
  rintro (⟨-, hLong⟩ | ⟨-, hLong⟩)
  · exact not_sustained_nil (by omega) hLong
  · exact not_sustained_nil (by omega) hLong

omit [One F] [Add F] [Div F] [IntCast F] [LE F] [DecidableLE F] in
/-- A streak goes on as the policy counts it. -/
theorem streak_next {P : Nat → Prop} [DecidablePred P] {cooled : Prop} {before after : Int}
    (hCooled : cooled ↔ PolicyState.initial.Cooled settings (fleet.clock k))
    (hBefore : before = lastRun P (fleet.due settings k))
    (hCases : ¬ cooled ∧ after = before ∨ cooled ∧ P k ∧ after = before + 1 ∨ cooled ∧ ¬ P k ∧ after = 0) :
    after = lastRun P (fleet.due settings (k + 1)) := by
  rcases hCases with ⟨hCooling, hAfter⟩ | ⟨hDone, hHere, hAfter⟩ | ⟨hDone, hOther, hAfter⟩
  · rw [due_succ_of_not fun h => hCooling (hCooled.mpr h), hAfter, hBefore]
  · rw [due_succ_of (hCooled.mp hDone), lastRun_concat_of hHere, hAfter, hBefore]
    rfl
  · rw [due_succ_of (hCooled.mp hDone), lastRun_concat_of_not hOther, hAfter]
    rfl

/-- The policy decides to scale exactly on a tick that is misled. -/
theorem misled_iff (hUrls : settings.targetUrls ≠ []) (hWaits : fleet.Waits settings k c) {policy : PolicyState F}
    {action : Action}
    (hDecided : c.policy.Decided settings c.replicas (c.reading settings (fleet.sample settings k)).1
      (c.reading settings (fleet.sample settings k)).2 (fleet.clock k) policy action) :
    PolicyState.initial.Cooled settings (fleet.clock k) ∧ fleet.Misled settings k ↔
      action = .up ∨ action = .down := by
  have hReading := reading_eq hUrls hWaits.toTracks
  have hUp : action = .up ↔ PolicyState.initial.Cooled settings (fleet.clock k) ∧ fleet.Overload settings k ∧
      (settings.targetUrls.length : Int) < settings.maxReplicas ∧
      settings.sustainUp ≤ c.policy.upStreak + 1 := by
    rw [hDecided.up_iff, cooled_iff hWaits.toTracks, hReading, hWaits.replicas]
    rfl
  have hDown : action = .down ↔ PolicyState.initial.Cooled settings (fleet.clock k) ∧ fleet.Underuse settings k ∧
      settings.minReplicas < settings.targetUrls.length ∧
      settings.sustainDown ≤ c.policy.downStreak + 1 := by
    rw [hDecided.down_iff, cooled_iff hWaits.toTracks, hReading, hWaits.replicas]
    rfl
  rw [hUp, hDown, ← and_or_left]
  apply and_congr_right
  intro _
  unfold Misled
  rw [max_one_le_lastRun_iff, max_one_le_lastRun_iff]
  constructor
  · rintro (⟨hRoom, hHere, hLong⟩ | ⟨hRoom, hHere, hLong⟩)
    · rw [← hWaits.upStreak hRoom] at hLong
      exact Or.inl ⟨hHere, hRoom, hLong⟩
    · rw [← hWaits.downStreak hRoom] at hLong
      exact Or.inr ⟨hHere, hRoom, hLong⟩
  · rintro (⟨hHere, hRoom, hLong⟩ | ⟨hHere, hRoom, hLong⟩)
    · rw [hWaits.upStreak hRoom] at hLong
      exact Or.inl ⟨hRoom, hHere, hLong⟩
    · rw [hWaits.downStreak hRoom] at hLong
      exact Or.inr ⟨hRoom, hHere, hLong⟩

theorem waits_hold (hUrls : settings.targetUrls ≠ []) (hWaits : fleet.Waits settings k c) {policy : PolicyState F}
    (hDecided : c.policy.Decided settings c.replicas (c.reading settings (fleet.sample settings k)).1
      (c.reading settings (fleet.sample settings k)).2 (fleet.clock k) policy .hold) :
    fleet.Waits settings (k + 1) { c with prev := some (fleet.sample settings k), policy := policy } := by
  have hCooled := cooled_iff hWaits.toTracks
  exact {
    prev := rfl
    replicas := hWaits.replicas
    lastActionAt := hDecided.hold_lastActionAt.trans hWaits.lastActionAt
    requested := hWaits.requested
    upStreak := by
      intro hRoom
      apply streak_next hCooled (hWaits.upStreak hRoom)
      rw [reading_eq hUrls hWaits.toTracks] at hDecided
      rw [← hWaits.replicas] at hRoom
      exact hDecided.hold_upStreak hRoom
    downStreak := by
      intro hRoom
      apply streak_next hCooled (hWaits.downStreak hRoom)
      rw [reading_eq hUrls hWaits.toTracks] at hDecided
      rw [← hWaits.replicas] at hRoom
      exact hDecided.hold_downStreak hRoom }

/-- A tick requests a replica count exactly when it is misled, and the
controller goes on waiting otherwise. -/
theorem waits_tick (hUrls : settings.targetUrls ≠ []) (hNone : ¬ fleet.Misread settings k)
    (hWaits : fleet.Waits settings k c) (hTicked : Ticked settings c (fleet.input k) t) :
    ¬ fleet.Misread settings (k + 1) ∧ fleet.Waits settings (k + 1) t ∨
      fleet.Misread settings (k + 1) ∧ t.requested ≠ [] := by
  rw [misread_succ_iff, or_iff_right hNone]
  cases hTicked with
  | untargeted hNone => exact absurd hNone hUrls
  | aborted _ hScrapes => cases hScrapes.symm.trans (totals_input settings fleet k)
  | held _ hScrapes hDecided =>
      cases hScrapes.symm.trans (totals_input settings fleet k)
      left
      refine ⟨?_, waits_hold hUrls hWaits hDecided⟩
      rw [misled_iff hUrls hWaits hDecided]
      simp
  | scaledUp _ hScrapes hDecided =>
      cases hScrapes.symm.trans (totals_input settings fleet k)
      right
      exact ⟨(misled_iff hUrls hWaits hDecided).mpr (Or.inl rfl), by simp⟩
  | scaledDown _ hScrapes hDecided =>
      cases hScrapes.symm.trans (totals_input settings fleet k)
      right
      exact ⟨(misled_iff hUrls hWaits hDecided).mpr (Or.inr rfl), by simp⟩

/-- A run requests nothing until a tick is misled. -/
theorem waits_run (hUrls : settings.targetUrls ≠ [])
    (hMinimum : settings.minReplicas ≤ settings.targetUrls.length) {n : Nat}
    (run : exec (tickStep settings) (start settings) (fleet.inputs n) = some t) :
    ¬ fleet.Misread settings n ∧ fleet.Waits settings n t ∨ fleet.Misread settings n ∧ t.requested ≠ [] := by
  induction n generalizing t with
  | zero =>
      cases run
      exact Or.inl (waits_start hMinimum fleet)
  | succ n ih =>
      unfold inputs at run
      rw [List.range_succ, List.map_append, List.map_singleton] at run
      obtain ⟨m, hEarlier, hStep⟩ := exec_concat.mp run
      cases hStep
      have hTicked := tick_ticked settings m (fleet.input n)
      rcases ih hEarlier with ⟨hNone, hWaits⟩ | ⟨hMisread, hRequested⟩
      · exact waits_tick hUrls hNone hWaits hTicked
      · right
        refine ⟨misread_succ_iff.mpr (Or.inl hMisread), fun hNothing => ?_⟩
        have hSubset := requested_subset hTicked
        rw [hNothing] at hSubset
        exact hRequested (List.subset_nil.mp hSubset)

/-- With as many replicas as target URLs nothing is requested on exactly the runs
without a misread window: ticks in a row after the cooldown, as many as the
policy waits for, that read an overload where a replica can be added, or too
little load where one can be removed. -/
theorem never_scales_iff (hUrls : settings.targetUrls ≠ [])
    (hMinimum : settings.minReplicas ≤ settings.targetUrls.length) {n : Nat}
    (run : exec (tickStep settings) (start settings) (fleet.inputs n) = some t) :
    t.requested = [] ↔
      ¬ ((settings.targetUrls.length : Int) < settings.maxReplicas ∧
          Sustained (fleet.Overload settings) (max 1 settings.sustainUp.toNat) (fleet.due settings n)) ∧
      ¬ (settings.minReplicas < settings.targetUrls.length ∧
          Sustained (fleet.Underuse settings) (max 1 settings.sustainDown.toNat) (fleet.due settings n)) := by
  rw [← not_or]
  rcases waits_run hUrls hMinimum run with ⟨hNone, hWaits⟩ | ⟨hMisread, hRequested⟩
  · exact iff_of_true hWaits.requested hNone
  · exact iff_of_false hRequested (not_not_intro hMisread)

end Windows

section Steady

variable {F : Type*} [Field F] [LinearOrder F] [IsStrictOrderedRing F] {settings : AutoscalerSettings F}
  {fleet : Fleet F} {served : Nat → Nat → Nat} {restarts : Nat → Nat → Bool} {t : ScalingController F} {k : Nat}

/-- The ticks are one interval apart, in which the rate of each instance is between
the thresholds and no request fails. Its counter goes up by the requests, or starts
again and shows some of them. Errors from before the first tick stay until a restart. -/
structure Steady (settings : AutoscalerSettings F) (fleet : Fleet F) (served : Nat → Nat → Nat)
    (restarts : Nat → Nat → Bool) : Prop where
  clock : ∀ k, fleet.clock (k + 1) = fleet.clock k + settings.intervalSeconds
  above : ∀ k, ∀ i < settings.targetUrls.length,
    settings.scaleDownRps * settings.intervalSeconds < served k i
  below : ∀ k, ∀ i < settings.targetUrls.length,
    served k i < settings.scaleUpRps * settings.intervalSeconds
  kept : ∀ k, ∀ i < settings.targetUrls.length, restarts k i = false →
    fleet.requests (k + 1) i = fleet.requests k i + served k i ∧ fleet.errors (k + 1) i = fleet.errors k i
  restarted : ∀ k, ∀ i < settings.targetUrls.length, restarts k i = true →
    0 ≤ fleet.requests (k + 1) i ∧ fleet.requests (k + 1) i ≤ served k i ∧ fleet.errors (k + 1) i = 0

/-- Instances that get ten requests a second and answer no scrape. -/
def silent : Fleet ℚ where
  clock k := 100 + 5 * k
  requests k _ := 50 * k
  errors _ _ := 0
  answers _ _ := false
  scalerFails _ := false

theorem silent_steady (n : Nat) : silent.Steady (targets n) (fun _ _ => 50) (fun _ _ => false) where
  clock k := by
    show (100 + 5 * ((k + 1 : Nat) : ℚ)) = 100 + 5 * k + 5
    push_cast
    linarith
  above _ _ _ := by norm_num [targets, AutoscalerSettings.preset]
  below _ _ _ := by norm_num [targets, AutoscalerSettings.preset]
  kept k _ _ _ := by
    refine ⟨?_, rfl⟩
    show (50 * ((k + 1 : Nat) : ℚ)) = 50 * k + (50 : Nat)
    push_cast
    linarith
  restarted _ _ _ h := by cases h

/-- Five ticks without an answer are one short of a window. -/
theorem never_scales_iff_five :
    ∃ t, exec (tickStep (targets 2)) (start (targets 2)) (silent.inputs 5) = some t ∧ t.requested = [] := by
  obtain ⟨t, hRun⟩ : ∃ t, exec (tickStep (targets 2)) (start (targets 2)) (silent.inputs 5) = some t := ⟨_, rfl⟩
  refine ⟨t, hRun, (never_scales_iff (by decide) (by decide) hRun).mpr ?_⟩
  constructor
  · rintro ⟨-, window, hInfix, hLong, hAll⟩
    have hCalm : ∀ k ∈ silent.due (targets 2) 5, ¬ silent.Overload (targets 2) k := by decide +kernel
    obtain ⟨k, rest, rfl⟩ := List.exists_cons_of_length_pos (lt_of_lt_of_le (by decide) hLong)
    exact hCalm k (hInfix.subset List.mem_cons_self) (hAll k List.mem_cons_self)
  · rintro ⟨-, window, hInfix, hLong, -⟩
    have hDue : (silent.due (targets 2) 5).length = 5 := by decide +kernel
    have hShort : 6 ≤ (silent.due (targets 2) 5).length := le_trans hLong hInfix.length_le
    omega

/-- Six ticks without an answer end in a request to remove one of two replicas. -/
theorem scales_on_missing_data :
    ∃ t, exec (tickStep (targets 2)) (start (targets 2)) (silent.inputs 6) = some t ∧
      silent.Steady (targets 2) (fun _ _ => 50) (fun _ _ => false) ∧ (targets 2).Allows 2 ∧ t.requested = [1] := by
  exact ⟨_, rfl, silent_steady 2, ⟨by decide, by decide⟩, by decide +kernel⟩

/-- The tick has no tick before it, or an instance does not answer now or did
not at the tick before, or has restarted in between. -/
def Disturbed (settings : AutoscalerSettings F) (fleet : Fleet F) (restarts : Nat → Nat → Bool) (k : Nat) : Prop :=
  ∀ j, k = j + 1 → ∃ i < settings.targetUrls.length,
    fleet.answers j i = false ∨ fleet.answers k i = false ∨ restarts j i = true

/-- The amounts that instances with a rate between the thresholds add up to. -/
theorem sum_between (low high : F) (served : Nat → Nat) (n : Nat)
    (hBetween : ∀ i < n + 1, low < served i ∧ (served i : F) < high) :
    low * (n + 1 : Nat) < (((List.range (n + 1)).map served).sum : Nat) ∧
      ((((List.range (n + 1)).map served).sum : Nat) : F) < high * (n + 1 : Nat) := by
  induction n with
  | zero => simpa using hBetween 0 (Nat.lt_succ_self 0)
  | succ n ih =>
      obtain ⟨hLow, hHigh⟩ := ih fun i hi => hBetween i (Nat.lt_succ_of_lt hi)
      obtain ⟨hAbove, hBelow⟩ := hBetween (n + 1) (Nat.lt_succ_self _)
      rw [List.range_succ, List.map_append, List.sum_append, List.map_singleton, List.sum_singleton]
      push_cast at hLow hHigh ⊢
      constructor <;> linarith

omit [LinearOrder F] [IsStrictOrderedRing F] in
/-- Where all instances answer, their counters are summed up. -/
theorem sumRead_answered (counter : Nat → Nat → F)
    (hAnswers : ∀ i < settings.targetUrls.length, fleet.answers k i = true) :
    fleet.sumRead settings counter k = ((List.range settings.targetUrls.length).map (counter k)).sum := by
  have hAll : (List.range settings.targetUrls.length).filter (fleet.answers k) =
      List.range settings.targetUrls.length :=
    List.filter_eq_self.mpr fun i hi => hAnswers i (List.mem_range.mp hi)
  rw [sumRead, hAll, List.sum_eq_foldl, List.foldl_map]

omit [IsStrictOrderedRing F] in
/-- Without a disturbance the sum rises by what the instances serve, and no
error is added. -/
theorem sumRead_undisturbed {j : Nat} (hSteady : fleet.Steady settings served restarts)
    (hQuiet : ∀ i < settings.targetUrls.length, fleet.answers j i = true ∧ fleet.answers (j + 1) i = true ∧
      restarts j i = false) :
    fleet.sumRead settings fleet.requests (j + 1) = fleet.sumRead settings fleet.requests j +
        (((List.range settings.targetUrls.length).map (served j)).sum : Nat) ∧
      fleet.sumRead settings fleet.errors (j + 1) = fleet.sumRead settings fleet.errors j := by
  have hNow : ∀ i < settings.targetUrls.length, fleet.answers (j + 1) i = true := fun i hi => (hQuiet i hi).2.1
  have hBefore : ∀ i < settings.targetUrls.length, fleet.answers j i = true := fun i hi => (hQuiet i hi).1
  rw [sumRead_answered _ hNow, sumRead_answered _ hBefore, sumRead_answered _ hNow, sumRead_answered _ hBefore,
    Nat.cast_list_sum, List.map_map, ← List.sum_map_add]
  constructor
  · congr 1
    apply List.map_congr_left
    intro i hi
    exact (hSteady.kept j i (List.mem_range.mp hi) (hQuiet i (List.mem_range.mp hi)).2.2).1
  · congr 1
    apply List.map_congr_left
    intro i hi
    exact (hSteady.kept j i (List.mem_range.mp hi) (hQuiet i (List.mem_range.mp hi)).2.2).2

/-- A tick that is not disturbed reads the load as it is. -/
theorem undisturbed (hInterval : 0 < settings.intervalSeconds) (hUrls : settings.targetUrls ≠ [])
    (hSteady : fleet.Steady settings served restarts) (hThreshold : 0 ≤ settings.errorRateThreshold)
    (hQuiet : ¬ fleet.Disturbed settings restarts k) :
    ¬ fleet.Overload settings k ∧ ¬ fleet.Underuse settings k := by
  unfold Disturbed at hQuiet
  push Not at hQuiet
  obtain ⟨j, rfl, hAll⟩ := hQuiet
  obtain ⟨hRequests, hErrors⟩ := sumRead_undisturbed (j := j) hSteady (by simpa using hAll)
  have hSum := sum_between (settings.scaleDownRps * settings.intervalSeconds)
    (settings.scaleUpRps * settings.intervalSeconds) (served j) (settings.targetUrls.length - 1)
  have hLength : settings.targetUrls.length - 1 + 1 = settings.targetUrls.length :=
    Nat.sub_add_cancel (List.length_pos_iff.mpr hUrls)
  rw [hLength] at hSum
  obtain ⟨hLow, hHigh⟩ := hSum fun i hi => ⟨hSteady.above j i hi, hSteady.below j i hi⟩
  have hCount : (0 : F) < settings.targetUrls.length := Nat.cast_pos.mpr (List.length_pos_iff.mpr hUrls)
  have hReading : fleet.reading settings (j + 1) =
      ((((List.range settings.targetUrls.length).map (served j)).sum : Nat) / settings.intervalSeconds /
        settings.targetUrls.length, 0) := by
    unfold reading
    rw [before, computeRps_some]
    simp only [sample, hRequests, hErrors, add_sub_cancel_left, sub_self, zero_div, ite_self]
    rw [if_neg (not_or.mpr ⟨not_le.mpr hInterval, not_lt.mpr (Nat.cast_nonneg _)⟩), if_neg (not_lt.mpr zero_le_one),
      Int.cast_natCast]
  constructor
  · rintro (hMore | hExceeded)
    · rw [hReading, lt_div_iff₀ hCount, lt_div_iff₀ hInterval, mul_right_comm] at hMore
      exact lt_asymm hMore hHigh
    · rw [hReading] at hExceeded
      exact not_lt.mpr hThreshold hExceeded
  · rintro ⟨-, hLess⟩
    rw [hReading, div_lt_iff₀ hCount, div_lt_iff₀ hInterval, mul_right_comm] at hLess
    exact lt_asymm hLess hLow

/-- In exact arithmetic, disturbances that last less than the policy waits lead to
no request. -/
theorem never_scales_of_brief (hInterval : 0 < settings.intervalSeconds) (hUrls : settings.targetUrls ≠ [])
    (hMinimum : settings.minReplicas ≤ settings.targetUrls.length)
    (hSteady : fleet.Steady settings served restarts) (hThreshold : 0 ≤ settings.errorRateThreshold) {n : Nat}
    (hUp : ¬ Sustained (fleet.Disturbed settings restarts) (max 1 settings.sustainUp.toNat) (fleet.due settings n))
    (hDown : ¬ Sustained (fleet.Disturbed settings restarts) (max 1 settings.sustainDown.toNat) (fleet.due settings n))
    (run : exec (tickStep settings) (start settings) (fleet.inputs n) = some t) : t.requested = [] := by
  have hOverload : ∀ k ∈ fleet.due settings n, fleet.Overload settings k → fleet.Disturbed settings restarts k := by
    intro k _ hRead
    by_contra hQuiet
    exact (undisturbed hInterval hUrls hSteady hThreshold hQuiet).1 hRead
  have hUnderuse : ∀ k ∈ fleet.due settings n, fleet.Underuse settings k → fleet.Disturbed settings restarts k := by
    intro k _ hRead
    by_contra hQuiet
    exact (undisturbed hInterval hUrls hSteady hThreshold hQuiet).2 hRead
  rcases waits_run hUrls hMinimum run with ⟨-, hWaits⟩ | ⟨hMisread, -⟩
  · exact hWaits.requested
  · rcases hMisread with ⟨-, hLong⟩ | ⟨-, hLong⟩
    · exact absurd (hLong.mono hOverload) hUp
    · exact absurd (hLong.mono hUnderuse) hDown

end Steady

end Fleet

end ServicePlatform.Autoscaler
