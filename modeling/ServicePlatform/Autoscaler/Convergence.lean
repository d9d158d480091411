import ServicePlatform.Autoscaler.ConstantLoad
import ServicePlatform.Transition.Run

/-! The control loop finds its balance. Under a load that stays the same, and
with ticks that are spaced by the interval, every move comes within the cooldown
and the ticks that are to sustain, until no move is asked for any more. -/
namespace ServicePlatform.Autoscaler

open Transition

/-- The way that the estimate goes. -/
inductive Drift where
  | rising
  | falling

namespace Drift

def delta : Drift → Int
  | .rising => 1
  | .falling => -1

def streak {F : Type*} (d : Drift) (state : PolicyState F) : Int :=
  match d with
  | .rising => state.upStreak
  | .falling => state.downStreak

def sustain {F : Type*} (d : Drift) (settings : AutoscalerSettings F) : Int :=
  match d with
  | .rising => settings.sustainUp
  | .falling => settings.sustainDown

/-- The load asks for a move from so many replicas, and there is room for it. -/
def Urges {F : Type*} [Field F] [LinearOrder F] (d : Drift) (settings : AutoscalerSettings F) (load : F)
    (replicas : Int) : Prop :=
  match d with
  | .rising => settings.scaleUpRps * replicas < load ∧ replicas < settings.maxReplicas
  | .falling => load < settings.scaleDownRps * replicas ∧ settings.minReplicas < replicas

end Drift

/-- The ticks follow one another at the interval or later. -/
def Paced {F : Type*} [Add F] [LE F] (interval : F) : F → List (TickInput F) → Prop
  | _, [] => True
  | since, input :: inputs => since ≤ input.now ∧ Paced interval (input.now + interval) inputs

/-- The ticks of a high or a low load after which a move is made. -/
def AutoscalerSettings.patience {F : Type*} (settings : AutoscalerSettings F) : Nat :=
  max 1 (max settings.sustainUp.toNat settings.sustainDown.toNat)

theorem sustain_le_patience {F : Type*} (settings : AutoscalerSettings F) (d : Drift) : d.sustain settings ≤ settings.patience := by
  unfold AutoscalerSettings.patience
  cases d with
  | rising => simp only [Drift.sustain]; omega
  | falling => simp only [Drift.sustain]; omega

variable {F : Type*} [Field F] [LinearOrder F] {settings : AutoscalerSettings F} {load : F}

/-- No move is asked for. -/
def Balanced (settings : AutoscalerSettings F) (load : F) (replicas : Int) : Prop :=
  ∀ d : Drift, ¬ d.Urges settings load replicas

namespace ScalingController

variable {c t : ScalingController F} {input : TickInput F} {d : Drift}

/-- The tick reads its counters, and they show the load. -/
def Measures (settings : AutoscalerSettings F) (load : F) (c : ScalingController F) (input : TickInput F) : Prop :=
  c.Reads settings load input ∧ totals settings input ≠ none

variable [IsStrictOrderedRing F]

/-- What a tick does when the load asks for a move. -/
inductive Urged (settings : AutoscalerSettings F) (d : Drift) (c : ScalingController F) (input : TickInput F)
    (t : ScalingController F) : Prop where
  | cooling (hCooled : ¬ c.policy.Cooled settings input.now) (hPolicy : t.policy = c.policy)
      (hReplicas : t.replicas = c.replicas)
  | pending (hPending : d.streak c.policy + 1 < d.sustain settings)
      (hStreak : d.streak t.policy = d.streak c.policy + 1)
      (hLast : t.policy.lastActionAt = c.policy.lastActionAt) (hReplicas : t.replicas = c.replicas)
  | moved (hReplicas : t.replicas = c.replicas + d.delta) (hStreak : d.streak t.policy = 0)
      (hLast : t.policy.lastActionAt = input.now)

theorem high_iff (hSome : 1 ≤ c.replicas) {sum : ServiceSample F}
    (hLoad : (computeRps c.prev sum settings.intervalSeconds).1 = load)
    (hErrors : (computeRps c.prev sum settings.intervalSeconds).2 ≤ settings.errorRateThreshold) :
    settings.High (c.reading settings sum).1 (c.reading settings sum).2 ↔ settings.scaleUpRps * c.replicas < load := by
  have hPositive : (0 : F) < c.replicas := Int.cast_pos.mpr (by omega)
  have hRate : ¬ settings.errorRateThreshold < (c.reading settings sum).2 := not_lt.mpr hErrors
  unfold AutoscalerSettings.High
  rw [or_iff_left hRate, reading_of_reads hSome hLoad, lt_div_iff₀ hPositive]

theorem low_iff (hSome : 1 ≤ c.replicas) {sum : ServiceSample F}
    (hLoad : (computeRps c.prev sum settings.intervalSeconds).1 = load)
    (hErrors : (computeRps c.prev sum settings.intervalSeconds).2 ≤ settings.errorRateThreshold) :
    settings.Low (c.reading settings sum).1 (c.reading settings sum).2 ↔
      ¬ settings.scaleUpRps * c.replicas < load ∧ load < settings.scaleDownRps * c.replicas := by
  have hPositive : (0 : F) < c.replicas := Int.cast_pos.mpr (by omega)
  unfold AutoscalerSettings.Low
  rw [high_iff hSome hLoad hErrors, reading_of_reads hSome hLoad, div_lt_iff₀ hPositive]

/-- The load of too few replicas is not the load of too many. -/
theorem not_high_of_low (hDown : 0 < settings.scaleDownRps) (hUp : 2 * settings.scaleDownRps ≤ settings.scaleUpRps)
    {replicas : Int} (hSome : 1 ≤ replicas) (hLow : load < settings.scaleDownRps * replicas) :
    ¬ settings.scaleUpRps * replicas < load := by
  have hPositive : (0 : F) < replicas := Int.cast_pos.mpr (by omega)
  have hLess : settings.scaleDownRps * replicas ≤ settings.scaleUpRps * replicas :=
    mul_le_mul_of_nonneg_right (by linarith) hPositive.le
  exact not_lt.mpr (by linarith)

/-- What the policy does about a load that is high, or low, with room to move. -/
inductive Urging (settings : AutoscalerSettings F) (d : Drift) (state : PolicyState F) (now : F)
    (after : PolicyState F) : Action → Prop where
  | cooling (hCooled : ¬ state.Cooled settings now) (hAfter : after = state) : Urging settings d state now after .hold
  | pending (hPending : d.streak state + 1 < d.sustain settings) (hStreak : d.streak after = d.streak state + 1)
      (hLast : after.lastActionAt = state.lastActionAt) : Urging settings d state now after .hold
  | moved {action : Action} (hAction : action = if d.delta = 1 then .up else .down) (hStreak : d.streak after = 0)
      (hLast : after.lastActionAt = now) : Urging settings d state now after action

omit [IsStrictOrderedRing F] in
theorem urging_of_high {state after : PolicyState F} {replicas : Int} {rpsPerInstance errorRate now : F}
    {action : Action}
    (hDecided : state.Decided settings replicas rpsPerInstance errorRate now after action)
    (hHigh : settings.High rpsPerInstance errorRate) (hRoom : replicas < settings.maxReplicas) :
    Urging settings .rising state now after action := by
  cases hDecided with
  | cooling hCooled => exact .cooling hCooled rfl
  | atMaximum _ _ hMaximum => exact absurd hRoom (Int.not_lt.mpr hMaximum)
  | up => exact .moved rfl rfl rfl
  | overloadPending _ _ _ hPending => exact .pending hPending rfl rfl
  | atMinimum _ hLow => exact absurd hHigh hLow.1
  | down _ hLow => exact absurd hHigh hLow.1
  | underusePending _ hLow => exact absurd hHigh hLow.1
  | normal _ hNone => exact absurd hHigh hNone

omit [IsStrictOrderedRing F] in
theorem urging_of_low {state after : PolicyState F} {replicas : Int} {rpsPerInstance errorRate now : F}
    {action : Action}
    (hDecided : state.Decided settings replicas rpsPerInstance errorRate now after action)
    (hLow : settings.Low rpsPerInstance errorRate) (hRoom : settings.minReplicas < replicas) :
    Urging settings .falling state now after action := by
  cases hDecided with
  | cooling hCooled => exact .cooling hCooled rfl
  | atMaximum _ hHigh => exact absurd hHigh hLow.1
  | up _ hHigh => exact absurd hHigh hLow.1
  | overloadPending _ hHigh => exact absurd hHigh hLow.1
  | atMinimum _ _ hMinimum => exact absurd hRoom (Int.not_lt.mpr hMinimum)
  | down => exact .moved rfl rfl rfl
  | underusePending _ _ _ hPending => exact .pending hPending rfl rfl
  | normal _ _ hNone => exact absurd hLow hNone

theorem Ticked.urged (hTicked : Ticked settings c input t) (hUrls : settings.targetUrls ≠ [])
    (hDown : 0 < settings.scaleDownRps) (hUp : 2 * settings.scaleDownRps ≤ settings.scaleUpRps)
    (hSome : 1 ≤ c.replicas) (hMeasures : c.Measures settings load input)
    (hUrges : d.Urges settings load c.replicas) : Urged settings d c input t := by
  obtain ⟨⟨hSucceeds, hReads⟩, hTotals⟩ := hMeasures
  have hUrging : ∀ {sum : ServiceSample F} {policy : PolicyState F} {action : Action},
      totals settings input = some sum →
        c.policy.Decided settings c.replicas (c.reading settings sum).1 (c.reading settings sum).2 input.now policy
          action → Urging settings d c.policy input.now policy action := by
    intro sum policy action hSum hDecided
    obtain ⟨hLoad, hErrors⟩ := hReads hUrls sum hSum
    cases d with
    | rising => exact urging_of_high hDecided ((high_iff hSome hLoad hErrors).mpr hUrges.1) hUrges.2
    | falling =>
        have hLow := (low_iff hSome hLoad hErrors).mpr ⟨not_high_of_low hDown hUp hSome hUrges.1, hUrges.1⟩
        exact urging_of_low hDecided hLow hUrges.2
  cases hTicked with
  | untargeted hNone => exact absurd hNone hUrls
  | aborted _ hScrapes => exact absurd hScrapes hTotals
  | held _ hScrapes hDecided =>
      cases hUrging hScrapes hDecided with
      | cooling hCooled hAfter => exact .cooling hCooled hAfter rfl
      | pending hPending hStreak hLast => exact .pending hPending hStreak hLast rfl
      | moved hAction =>
          split at hAction
          · cases hAction
          · cases hAction
  | scaledUp _ hScrapes hDecided =>
      obtain ⟨-, -, hRoom, -⟩ := hDecided.up_iff.mp rfl
      cases hUrging hScrapes hDecided with
      | moved hAction hStreak hLast =>
          refine .moved ?_ hStreak hLast
          have hDelta : d.delta = 1 := by
            by_contra hOther
            rw [if_neg hOther] at hAction
            cases hAction
          rw [apply, hSucceeds, hDelta]
          exact min_eq_left (by omega)
  | scaledDown _ hScrapes hDecided =>
      obtain ⟨-, -, hRoom, -⟩ := hDecided.down_iff.mp rfl
      cases hUrging hScrapes hDecided with
      | moved hAction hStreak hLast =>
          refine .moved ?_ hStreak hLast
          have hDelta : d.delta = -1 := by
            cases d with
            | rising => cases hAction
            | falling => rfl
          rw [apply, hSucceeds, hDelta]
          exact max_eq_left (by omega)

/-- A tick leaves a balanced count alone. -/
theorem Ticked.balanced (hTicked : Ticked settings c input t) (hSome : 1 ≤ c.replicas)
    (hMeasures : c.Measures settings load input) (hBalanced : Balanced settings load c.replicas) :
    t.replicas = c.replicas := by
  obtain ⟨⟨-, hReads⟩, -⟩ := hMeasures
  cases hTicked with
  | untargeted => rfl
  | aborted => rfl
  | held => rfl
  | scaledUp hUrls hScrapes hDecided =>
      obtain ⟨hLoad, hErrors⟩ := hReads hUrls _ hScrapes
      obtain ⟨-, hHigh, hRoom, -⟩ := hDecided.up_iff.mp rfl
      exact absurd ⟨(high_iff hSome hLoad hErrors).mp hHigh, hRoom⟩ (hBalanced .rising)
  | scaledDown hUrls hScrapes hDecided =>
      obtain ⟨hLoad, hErrors⟩ := hReads hUrls _ hScrapes
      obtain ⟨-, hLow, hRoom, -⟩ := hDecided.down_iff.mp rfl
      exact absurd ⟨((low_iff hSome hLoad hErrors).mp hLow).2, hRoom⟩ (hBalanced .falling)

/-- Within so many of the ticks the estimate moves one step, and the streak and
the cooldown start over. -/
def MovesIn (settings : AutoscalerSettings F) (d : Drift) (c : ScalingController F) (inputs : List (TickInput F))
    (ticks : Nat) : Prop :=
  ∃ first rest m, inputs = first ++ rest ∧ first.length ≤ ticks ∧ exec (tickStep settings) c first = some m ∧
    m.replicas = c.replicas + d.delta ∧ d.streak m.policy = 0 ∧
    Paced settings.intervalSeconds (m.policy.lastActionAt + settings.intervalSeconds) rest

omit [IsStrictOrderedRing F] in
theorem MovesIn.cons {inputs : List (TickInput F)} {ticks : Nat}
    (h : MovesIn settings d (c.tick settings input) inputs ticks)
    (hReplicas : (c.tick settings input).replicas = c.replicas) : MovesIn settings d c (input :: inputs) (ticks + 1) := by
  obtain ⟨first, rest, m, rfl, hLength, hRun, hMoved, hStreak, hPaced⟩ := h
  exact ⟨input :: first, rest, m, rfl, Nat.succ_le_succ hLength, exec_cons.mpr ⟨_, rfl, hRun⟩, hReplicas ▸ hMoved,
    hStreak, hPaced⟩

/-- A move that is asked for comes when the cooldown has run out and the load has
been seen often enough: `cooling` ticks bound the one, `left` ticks the other. -/
theorem moves_within (hUrls : settings.targetUrls ≠ []) (hDown : 0 < settings.scaleDownRps)
    (hUp : 2 * settings.scaleDownRps ≤ settings.scaleUpRps) (hInterval : 0 < settings.intervalSeconds)
    (cooling left : Nat) {inputs : List (TickInput F)} {since : F} (hSome : 1 ≤ c.replicas)
    (hUrges : d.Urges settings load c.replicas)
    (hCooling : c.policy.lastActionAt + settings.cooldownSeconds ≤ since + cooling * settings.intervalSeconds)
    (hLeft : d.sustain settings ≤ d.streak c.policy + left) (hPositive : 1 ≤ left)
    (hMeasures : Along (tickStep settings) (Measures settings load) c inputs)
    (hPaced : Paced settings.intervalSeconds since inputs) (hTicks : cooling + left ≤ inputs.length) :
    MovesIn settings d c inputs (cooling + left) := by
  induction inputs generalizing c since cooling left with
  | nil =>
      rw [List.length_nil] at hTicks
      omega
  | cons input inputs ih =>
      have hNow := hPaced.1
      have hRest := hMeasures.2 _ rfl
      rw [List.length_cons] at hTicks
      cases (tick_ticked settings c input).urged hUrls hDown hUp hSome hMeasures.1 hUrges with
      | cooling hCooled hPolicy hReplicas =>
          have hLater : input.now < c.policy.lastActionAt + settings.cooldownSeconds := by
            have hLeftOver := not_not.mp hCooled
            linarith
          cases cooling with
          | zero =>
              rw [Nat.cast_zero, zero_mul, add_zero] at hCooling
              linarith
          | succ cooling =>
              rw [Nat.add_right_comm]
              refine (ih _ _ (hReplicas ▸ hSome) (hReplicas ▸ hUrges) ?_ (hPolicy ▸ hLeft) hPositive hRest hPaced.2
                (by omega)).cons hReplicas
              rw [hPolicy]
              push_cast at hCooling
              linarith
      | pending hPending hStreak hLast hReplicas =>
          cases left with
          | zero => omega
          | succ left =>
              refine (ih _ _ (hReplicas ▸ hSome) (hReplicas ▸ hUrges) ?_ (by omega) (by omega) hRest hPaced.2
                (by omega)).cons hReplicas
              rw [hLast]
              linarith
      | moved hReplicas hStreak hLast =>
          refine ⟨[input], inputs, _, rfl, ?_, rfl, hReplicas, hStreak, ?_⟩
          · rw [List.length_singleton]
            omega
          · rw [hLast]
            exact hPaced.2

/-- A load that asks for a number of moves, and then for none, gets them. -/
theorem reaches (hUrls : settings.targetUrls ≠ []) (hDown : 0 < settings.scaleDownRps)
    (hUp : 2 * settings.scaleDownRps ≤ settings.scaleUpRps) (hInterval : 0 < settings.intervalSeconds) {cooling : Nat}
    (hCooldown : settings.cooldownSeconds ≤ cooling * settings.intervalSeconds) {moves : Nat}
    {inputs : List (TickInput F)} {since : F} (hSince : c.policy.lastActionAt ≤ since)
    (hStreak : 0 ≤ d.streak c.policy) (hSome : ∀ i ≤ moves, 1 ≤ c.replicas + d.delta * i)
    (hUrges : ∀ i < moves, d.Urges settings load (c.replicas + d.delta * i))
    (hBalanced : Balanced settings load (c.replicas + d.delta * moves))
    (hMeasures : Along (tickStep settings) (Measures settings load) c inputs)
    (hPaced : Paced settings.intervalSeconds since inputs) (run : exec (tickStep settings) c inputs = some t)
    (hTicks : moves * (cooling + settings.patience) ≤ inputs.length) : t.replicas = c.replicas + d.delta * moves := by
  induction moves generalizing c inputs since with
  | zero =>
      have hKeep : ∀ (s : ScalingController F) input s', s.replicas = c.replicas → s.Measures settings load input →
          tickStep settings s input = some s' → s'.replicas = c.replicas := by
        intro s input s' hSame hHere hStep
        cases hStep
        have hOne : 1 ≤ c.replicas := by simpa using hSome 0 (Nat.le_refl 0)
        rw [(tick_ticked settings s input).balanced (hSame ▸ hOne) hHere (by simpa [hSame] using hBalanced), hSame]
      simpa using invariant_along hKeep rfl hMeasures run
  | succ moves ih =>
      have hFirst : d.Urges settings load c.replicas := by simpa using hUrges 0 (Nat.succ_pos _)
      have hOne : 1 ≤ c.replicas := by simpa using hSome 0 (Nat.zero_le _)
      have hPatience : 1 ≤ settings.patience := le_max_left ..
      have hSustain := sustain_le_patience settings d
      rw [Nat.succ_mul] at hTicks
      obtain ⟨first, rest, m, rfl, hLength, hRun, hReplicas, hFresh, hRestPaced⟩ :=
        moves_within hUrls hDown hUp hInterval cooling settings.patience hOne hFirst (by linarith) (by omega) hPatience
          hMeasures hPaced (by omega)
      obtain ⟨m', hRun', hRest⟩ := exec_append.mp run
      obtain rfl : m = m' := Option.some.inj (hRun.symm.trans hRun')
      have hShift : ∀ i : Nat, m.replicas + d.delta * i = c.replicas + d.delta * ((i + 1 : Nat) : Int) := by
        intro i
        rw [hReplicas]
        rw [Nat.cast_succ, mul_add, mul_one]
        omega
      rw [← hShift moves]
      refine ih (by linarith) hFresh.ge ?_ ?_ ?_ (along_suffix hMeasures hRun) hRestPaced hRest ?_
      · intro i hi
        rw [hShift]
        exact hSome (i + 1) (by omega)
      · intro i hi
        rw [hShift]
        exact hUrges (i + 1) (by omega)
      · rw [hShift]
        exact hBalanced
      · rw [List.length_append] at hTicks
        omega

end ScalingController

/-- The moves that the load asks for come to an end. -/
theorem exists_moves (settings : AutoscalerSettings F) (load : F) (d : Drift) (replicas : Int) :
    ∃ moves : Nat, (∀ i < moves, d.Urges settings load (replicas + d.delta * i)) ∧
      ¬ d.Urges settings load (replicas + d.delta * moves) := by
  classical
  have hEnd : ∃ moves : Nat, ¬ d.Urges settings load (replicas + d.delta * moves) := by
    cases d with
    | rising =>
        refine ⟨(settings.maxReplicas - replicas).toNat, fun hUrges => ?_⟩
        have hRoom := hUrges.2
        simp only [Drift.delta] at hRoom
        omega
    | falling =>
        refine ⟨(replicas - settings.minReplicas).toNat, fun hUrges => ?_⟩
        have hRoom := hUrges.2
        simp only [Drift.delta] at hRoom
        omega
  exact ⟨Nat.find hEnd, fun i hi => not_not.mp (Nat.find_min hEnd hi), Nat.find_spec hEnd⟩

section Balance

variable [IsStrictOrderedRing F] {replicas : Int} {moves : Nat}

/-- After the last move up, the load asks for no move down. -/
theorem balanced_risen (hDown : 0 < settings.scaleDownRps) (hUp : 2 * settings.scaleDownRps ≤ settings.scaleUpRps)
    (hSome : 1 ≤ replicas) (hLast : Drift.rising.Urges settings load replicas)
    (hEnd : ¬ Drift.rising.Urges settings load (replicas + 1)) : Balanced settings load (replicas + 1) := by
  intro d hUrges
  cases d with
  | rising => exact hEnd hUrges
  | falling =>
      have hTwo : (2 : F) ≤ ((replicas + 1 : Int) : F) := by exact_mod_cast (by omega : (2 : Int) ≤ replicas + 1)
      refine lt_asymm hUrges.1 (ScalingController.not_low_of_risen hDown hUp hTwo ?_)
      rw [Int.cast_add, Int.cast_one, add_sub_cancel_right]
      exact hLast.1

/-- After the last move down, the load asks for no move up. -/
theorem balanced_fallen (hDown : 0 < settings.scaleDownRps) (hUp : 2 * settings.scaleDownRps ≤ settings.scaleUpRps)
    (hSome : 1 ≤ replicas - 1) (hLast : Drift.falling.Urges settings load replicas)
    (hEnd : ¬ Drift.falling.Urges settings load (replicas - 1)) : Balanced settings load (replicas - 1) := by
  intro d hUrges
  cases d with
  | rising =>
      have hOne : (1 : F) ≤ ((replicas - 1 : Int) : F) := by exact_mod_cast hSome
      refine lt_asymm hUrges.1 (ScalingController.not_high_of_fallen hDown hUp hOne ?_)
      rw [Int.cast_sub, Int.cast_one, sub_add_cancel]
      exact hLast.1
  | falling => exact hEnd hUrges

/-- All the moves in the direction in which the load urges first. -/
theorem exists_balance (hMinimum : 1 ≤ settings.minReplicas) (hDown : 0 < settings.scaleDownRps)
    (hUp : 2 * settings.scaleDownRps ≤ settings.scaleUpRps) (hSome : 1 ≤ replicas) (load : F) :
    ∃ (d : Drift) (moves : Nat), (∀ i < moves, d.Urges settings load (replicas + d.delta * i)) ∧
      (∀ i ≤ moves, 1 ≤ replicas + d.delta * i) ∧ Balanced settings load (replicas + d.delta * moves) ∧
      min replicas settings.minReplicas ≤ replicas + d.delta * moves ∧
      replicas + d.delta * moves ≤ max replicas settings.maxReplicas := by
  obtain ⟨ups, hUps, hTop⟩ := exists_moves settings load .rising replicas
  obtain ⟨downs, hDowns, hBottom⟩ := exists_moves settings load .falling replicas
  simp only [Drift.delta] at hUps hTop hDowns hBottom
  cases ups with
  | succ ups =>
      have hLast := hUps ups (Nat.lt_succ_self ups)
      have hRoom := hLast.2
      refine ⟨.rising, ups + 1, hUps, fun i _ => by simp only [Drift.delta]; omega, ?_, ?_, ?_⟩
      · have hNext : replicas + 1 * ((ups + 1 : Nat) : Int) = replicas + 1 * ups + 1 := by omega
        rw [hNext] at hTop
        change Balanced settings load (replicas + 1 * ((ups + 1 : Nat) : Int))
        rw [hNext]
        exact balanced_risen hDown hUp (by omega) hLast hTop
      · simp only [Drift.delta]
        omega
      · simp only [Drift.delta]
        omega
  | zero =>
      have hRooms : ∀ i < downs, settings.minReplicas < replicas + -1 * i := fun i hi => (hDowns i hi).2
      refine ⟨.falling, downs, hDowns, fun i hi => ?_, ?_, ?_, ?_⟩
      · simp only [Drift.delta]
        cases i with
        | zero => omega
        | succ i =>
            have hRoom := hRooms i (by omega)
            omega
      · change Balanced settings load (replicas + -1 * (downs : Int))
        cases downs with
        | zero =>
            intro d hUrges
            cases d with
            | rising => exact hTop (by simpa using hUrges)
            | falling => exact hBottom hUrges
        | succ downs =>
            have hRoom := hRooms downs (Nat.lt_succ_self downs)
            have hNext : replicas + -1 * ((downs + 1 : Nat) : Int) = replicas + -1 * downs - 1 := by omega
            rw [hNext] at hBottom ⊢
            exact balanced_fallen hDown hUp (by omega) (hDowns downs (Nat.lt_succ_self downs)) hBottom
      · simp only [Drift.delta]
        cases downs with
        | zero => omega
        | succ downs =>
            have hRoom := hRooms downs (Nat.lt_succ_self downs)
            omega
      · simp only [Drift.delta]
        omega

namespace ScalingController

/-- In exact arithmetic the control loop converges. A constant load and the settings
fix a balanced count; every run gets there within the cooldown and the ticks to sustain
for each replica on the way, whatever its timing, and stays. -/
theorem converges (hUrls : settings.targetUrls ≠ []) (hMinimum : 1 ≤ settings.minReplicas)
    (hDown : 0 < settings.scaleDownRps) (hUp : 2 * settings.scaleDownRps ≤ settings.scaleUpRps)
    (hInterval : 0 < settings.intervalSeconds) (cooling : Nat)
    (hCooldown : settings.cooldownSeconds ≤ cooling * settings.intervalSeconds) (load : F)
    {start : ScalingController F} (hSome : 1 ≤ start.replicas) (hStreaks : ∀ d : Drift, 0 ≤ d.streak start.policy) :
    ∃ final : Int, Balanced settings load final ∧ min start.replicas settings.minReplicas ≤ final ∧
      final ≤ max start.replicas settings.maxReplicas ∧
      ∀ inputs t, Along (tickStep settings) (Measures settings load) start inputs →
        Paced settings.intervalSeconds start.policy.lastActionAt inputs →
        exec (tickStep settings) start inputs = some t →
        (final - start.replicas).natAbs * (cooling + settings.patience) ≤ inputs.length → t.replicas = final := by
  obtain ⟨d, moves, hUrges, hAll, hBalanced, hLow, hHigh⟩ := exists_balance hMinimum hDown hUp hSome load
  refine ⟨_, hBalanced, hLow, hHigh, fun inputs t hMeasures hPaced run hTicks => ?_⟩
  have hDistance : (start.replicas + d.delta * moves - start.replicas).natAbs = moves := by
    cases d with
    | rising => simp only [Drift.delta]; omega
    | falling => simp only [Drift.delta]; omega
  rw [hDistance] at hTicks
  exact reaches hUrls hDown hUp hInterval hCooldown le_rfl (hStreaks d) hAll hUrges hBalanced hMeasures hPaced run hTicks

/-- Two replicas at most, and a short cooldown. -/
def brisk : AutoscalerSettings ℚ :=
  { AutoscalerSettings.preset ["http://user:8100"] with
    sustainUp := 2
    sustainDown := 2
    cooldownSeconds := 5
    maxReplicas := 2 }

/-- Three ticks at one hundred requests a second. -/
def onslaught : List (TickInput ℚ) :=
  [⟨100, fun _ => .sample ⟨500, 0⟩, false⟩, ⟨105, fun _ => .sample ⟨1000, 0⟩, false⟩,
    ⟨110, fun _ => .sample ⟨1500, 0⟩, false⟩]

theorem converges_brisk : ∃ t, exec (tickStep brisk) settled onslaught = some t ∧ Balanced brisk 100 t.replicas := by
  have hMeasures : Along (tickStep brisk) (Measures brisk 100) settled onslaught := by
    refine ⟨⟨⟨rfl, fun _ sum hSum => ?_⟩, nofun⟩, fun t hStep => ?_⟩
    · cases hSum
      exact ⟨by decide +kernel, by decide +kernel⟩
    · cases hStep
      refine ⟨⟨⟨rfl, fun _ sum hSum => ?_⟩, nofun⟩, fun t hStep => ?_⟩
      · cases hSum
        exact ⟨by decide +kernel, by decide +kernel⟩
      · cases hStep
        refine ⟨⟨⟨rfl, fun _ sum hSum => ?_⟩, nofun⟩, fun _ _ => trivial⟩
        cases hSum
        exact ⟨by decide +kernel, by decide +kernel⟩
  have hUrls : brisk.targetUrls ≠ [] := by decide
  have hSome : 1 ≤ settled.replicas := by decide
  have hStreaks : ∀ d : Drift, 0 ≤ d.streak settled.policy := fun d => by cases d <;> exact le_rfl
  obtain ⟨final, hBalanced, hLow, hHigh, hAll⟩ := converges hUrls (by decide) (by decide +kernel) (by decide +kernel)
    (by decide +kernel) 1 (by decide +kernel) 100 hSome hStreaks
  have hOne : 1 ≤ final := hLow
  have hTwo : final ≤ 2 := hHigh
  have hTicks : (final - settled.replicas).natAbs * (1 + brisk.patience) ≤ onslaught.length := by
    have hPatience : brisk.patience = 2 := by decide
    have hStart : settled.replicas = 1 := rfl
    have hLength : onslaught.length = 3 := rfl
    rw [hPatience, hStart, hLength]
    omega
  refine ⟨_, rfl, ?_⟩
  rw [hAll onslaught _ hMeasures ⟨by decide +kernel, by decide +kernel, by decide +kernel, trivial⟩ rfl hTicks]
  exact hBalanced

end ScalingController

end Balance

end ServicePlatform.Autoscaler
