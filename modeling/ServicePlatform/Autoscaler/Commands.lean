import Mathlib.Algebra.Order.Field.Basic
import Mathlib.Data.List.Chain
import Mathlib.Data.Rat.Cast.Order
import ServicePlatform.Autoscaler.Controller
import ServicePlatform.Transition.Monitor

/-! The commands that the control loop gives. A monitor notes what each tick
passes to `set_replicas`. Policy, estimate and scaler live apart, and a failing
scaler leaves the estimate alone after the policy has already started its
cooldown. -/
namespace ServicePlatform.Autoscaler

open Transition

/-- What a tick does as seen from outside: the time, the estimate before it, the
counts passed to `set_replicas`, and whether that raises. -/
structure TickRecord (F : Type*) where
  now : F
  before : Int
  issued : List Int
  failed : Bool

namespace TickRecord

variable {F : Type*}

/-- The tick times of all calls, in order. -/
def callTimes (log : List (TickRecord F)) : List F :=
  log.flatMap fun record => record.issued.map fun _ => record.now

/-- The counts of the calls that returned normally. -/
def succeeded (log : List (TickRecord F)) : List Int :=
  log.flatMap fun record => if record.failed then [] else record.issued

end TickRecord

open TickRecord

namespace ScalingController

variable {F : Type*}

def record (c : ScalingController F) (input : TickInput F) (t : ScalingController F) : TickRecord F :=
  ⟨input.now, c.replicas, t.requested.drop c.requested.length, input.scalerFails⟩

/-- The note that the monitor takes of a tick. -/
def noteTick (c : ScalingController F) (input : TickInput F) (t : ScalingController F)
    (log : List (TickRecord F)) : List (TickRecord F) :=
  log ++ [c.record input t]

variable [Zero F] [Sub F] [LT F]

/-- A tick leaves the estimate and the cooldown alone, or it makes one call with
a count next to the estimate, after the cooldown and with a new one. -/
inductive Commanded (settings : AutoscalerSettings F) (c : ScalingController F) (input : TickInput F)
    (t : ScalingController F) : Prop where
  | quiet (hRequested : t.requested = c.requested) (hReplicas : t.replicas = c.replicas)
      (hLast : t.policy.lastActionAt = c.policy.lastActionAt)
  | called (count : Int) (hCount : count = c.replicas + 1 ∨ count = c.replicas - 1)
      (hRequested : t.requested = c.requested ++ [count])
      (hReplicas : t.replicas = if input.scalerFails then c.replicas else count)
      (hCooled : c.policy.Cooled settings input.now) (hLast : t.policy.lastActionAt = input.now)

variable [One F] [Add F] [Div F] [IntCast F] [LE F] [DecidableLT F] [DecidableLE F]
  {settings : AutoscalerSettings F} {c t : ScalingController F} {input : TickInput F}

theorem Ticked.commanded (hTicked : Ticked settings c input t) : Commanded settings c input t := by
  cases hTicked with
  | untargeted => exact .quiet rfl rfl rfl
  | aborted => exact .quiet rfl rfl rfl
  | held _ _ hDecided => exact .quiet rfl rfl hDecided.hold_lastActionAt
  | scaledUp _ _ hDecided =>
      obtain ⟨hCooled, -, hRoom, -⟩ := hDecided.up_iff.mp rfl
      have hCount : min (c.replicas + 1) settings.maxReplicas = c.replicas + 1 := by omega
      refine .called _ (Or.inl hCount) rfl rfl hCooled ?_
      cases hDecided
      rfl
  | scaledDown _ _ hDecided =>
      obtain ⟨hCooled, -, hRoom, -⟩ := hDecided.down_iff.mp rfl
      have hCount : max (c.replicas - 1) settings.minReplicas = c.replicas - 1 := by omega
      refine .called _ (Or.inr hCount) rfl rfl hCooled ?_
      cases hDecided
      rfl

end ScalingController

namespace ScalingController

variable {F : Type*} [Field F] [LinearOrder F] [IsStrictOrderedRing F]

/-- What the log of a run shows. The cooldown runs from the last call in it,
whether or not that call failed. -/
structure Disciplined (settings : AutoscalerSettings F) (start c : ScalingController F)
    (log : List (TickRecord F)) : Prop where
  requested : c.requested = start.requested ++ log.flatMap TickRecord.issued
  replicas : c.replicas = (succeeded log).getLast?.getD start.replicas
  single : ∀ record ∈ log, record.issued.length ≤ 1
  adjacent : ∀ record ∈ log, ∀ count ∈ record.issued, count = record.before + 1 ∨ count = record.before - 1
  spaced : (callTimes log).IsChain fun earlier later => settings.cooldownSeconds ≤ later - earlier
  last : ∀ time ∈ (callTimes log).getLast?, c.policy.lastActionAt = time

variable {settings : AutoscalerSettings F} {start c t : ScalingController F} {input : TickInput F}
  {log : List (TickRecord F)}

omit [IsStrictOrderedRing F] in
theorem disciplined_start : Disciplined settings start start [] := by
  constructor <;> simp [callTimes, succeeded]

omit [IsStrictOrderedRing F] in
theorem Disciplined.quiet (hLog : Disciplined settings start c log) (hRequested : t.requested = c.requested)
    (hReplicas : t.replicas = c.replicas) (hLast : t.policy.lastActionAt = c.policy.lastActionAt) :
    Disciplined settings start t (log ++ [c.record input t]) := by
  have hIssued : (c.record input t).issued = [] := by simp [record, hRequested]
  have hTimes : callTimes (log ++ [c.record input t]) = callTimes log := by simp [callTimes, hIssued]
  have hSucceeded : succeeded (log ++ [c.record input t]) = succeeded log := by simp [succeeded, hIssued]
  constructor
  · simp [hRequested, hLog.requested, hIssued]
  · rw [hReplicas, hSucceeded, hLog.replicas]
  · intro r hr
    rcases List.mem_append.mp hr with hOld | hNew
    · exact hLog.single r hOld
    · simp [List.mem_singleton.mp hNew, hIssued]
  · intro r hr
    rcases List.mem_append.mp hr with hOld | hNew
    · exact hLog.adjacent r hOld
    · simp [List.mem_singleton.mp hNew, hIssued]
  · rw [hTimes]
    exact hLog.spaced
  · rw [hTimes, hLast]
    exact hLog.last

theorem Disciplined.called (hLog : Disciplined settings start c log) {count : Int}
    (hCount : count = c.replicas + 1 ∨ count = c.replicas - 1)
    (hRequested : t.requested = c.requested ++ [count])
    (hReplicas : t.replicas = if input.scalerFails then c.replicas else count)
    (hCooled : c.policy.Cooled settings input.now) (hLast : t.policy.lastActionAt = input.now) :
    Disciplined settings start t (log ++ [c.record input t]) := by
  have hIssued : (c.record input t).issued = [count] := by simp [record, hRequested]
  have hTimes : callTimes (log ++ [c.record input t]) = callTimes log ++ [input.now] := by
    unfold callTimes
    rw [List.flatMap_append, List.flatMap_singleton, hIssued]
    rfl
  have hSucceeded : succeeded (log ++ [c.record input t]) =
      if input.scalerFails then succeeded log else succeeded log ++ [count] := by
    unfold succeeded
    rw [List.flatMap_append, List.flatMap_singleton, hIssued]
    cases hFails : input.scalerFails <;> simp [record, hFails]
  constructor
  · simp [hRequested, hLog.requested, hIssued]
  · rw [hReplicas, hSucceeded, hLog.replicas]
    cases input.scalerFails with
    | true => rfl
    | false => simp
  · intro r hr
    rcases List.mem_append.mp hr with hOld | hNew
    · exact hLog.single r hOld
    · simp [List.mem_singleton.mp hNew, hIssued]
  · intro r hr
    rcases List.mem_append.mp hr with hOld | hNew
    · exact hLog.adjacent r hOld
    · rw [List.mem_singleton.mp hNew, hIssued]
      intro count' hCount'
      rw [List.mem_singleton.mp hCount']
      exact hCount
  · rw [hTimes, List.isChain_append]
    refine ⟨hLog.spaced, .singleton _, ?_⟩
    intro earlier hEarlier later hLater
    have hWait : settings.cooldownSeconds - (input.now - earlier) ≤ 0 := by
      rw [← hLog.last earlier hEarlier]
      exact not_lt.mp hCooled
    cases hLater
    exact sub_nonpos.mp hWait
  · rw [hTimes, List.getLast?_concat]
    intro time hTime
    cases hTime
    exact hLast

theorem Disciplined.tick (hLog : Disciplined settings start c log) (hTicked : Ticked settings c input t) :
    Disciplined settings start t (log ++ [c.record input t]) := by
  cases hTicked.commanded with
  | quiet hRequested hReplicas hLast => exact hLog.quiet hRequested hReplicas hLast
  | called count hCount hRequested hReplicas hCooled hLast =>
      exact hLog.called hCount hRequested hReplicas hCooled hLast

theorem disciplined_run {inputs : List (TickInput F)}
    (run : exec (watched (tickStep settings) noteTick) (start, []) inputs = some (t, log)) :
    Disciplined settings start t log := by
  have hKeep : ∀ (s : ScalingController F × List (TickRecord F)) input s',
      Disciplined settings start s.1 s.2 → watched (tickStep settings) noteTick s input = some s' →
        Disciplined settings start s'.1 s'.2 := by
    intro s input s' hLog hStep
    obtain ⟨hTick, hNote⟩ := watched_some.mp hStep
    have hTicked := tick_ticked settings s.1 input
    rw [Option.some.inj hTick] at hTicked
    rw [hNote]
    exact hLog.tick hTicked
  exact invariant hKeep disciplined_start run

/-- In every run the estimate is the count of the last call that succeeded, and
each tick makes at most one call, to a count next to the estimate. Calls are at
least the cooldown apart. -/
theorem commands_disciplined {inputs : List (TickInput F)}
    (run : exec (watched (tickStep settings) noteTick) (start, []) inputs = some (t, log)) :
    t.replicas = (succeeded log).getLast?.getD start.replicas ∧
      (∀ record ∈ log, record.issued.length ≤ 1) ∧
      (∀ record ∈ log, ∀ count ∈ record.issued, count = record.before + 1 ∨ count = record.before - 1) ∧
      (callTimes log).IsChain fun earlier later => settings.cooldownSeconds ≤ later - earlier := by
  have hLog := disciplined_run run
  exact ⟨hLog.replicas, hLog.single, hLog.adjacent, hLog.spaced⟩

/-- Ticks under a load that asks for another replica each time. The first call
fails, and the second one succeeds. -/
def busyTicks : List (TickInput ℚ) :=
  [100, 105, 110, 115, 180, 185, 190].mapIdx fun k now =>
    ⟨now, fun _ => .sample ⟨200 * k, 0⟩, k == 3⟩

/-- The controller of the preset, which starts with one replica. -/
def single : ScalingController ℚ := .start (.preset ["http://user:8100"])

theorem commands_disciplined_busy :
    ∃ t log, exec (watched (tickStep (.preset ["http://user:8100"])) noteTick) (single, []) busyTicks =
        some (t, log) ∧
      callTimes log = [115, 190] ∧ t.replicas = 2 ∧
      t.replicas = (succeeded log).getLast?.getD single.replicas ∧
      (∀ record ∈ log, record.issued.length ≤ 1) ∧
      (∀ record ∈ log, ∀ count ∈ record.issued, count = record.before + 1 ∨ count = record.before - 1) ∧
      (callTimes log).IsChain fun earlier later =>
        (AutoscalerSettings.preset ["http://user:8100"]).cooldownSeconds ≤ later - earlier := by
  have hRun : ∃ s, exec (watched (tickStep (.preset ["http://user:8100"])) noteTick) (single, []) busyTicks =
      some s ∧ callTimes s.2 = [115, 190] ∧ s.1.replicas = 2 :=
    ⟨_, rfl, by decide +kernel, by decide +kernel⟩
  obtain ⟨⟨t, log⟩, hRun, hTimes, hReplicas⟩ := hRun
  exact ⟨t, log, hRun, hTimes, hReplicas, commands_disciplined hRun⟩

end ScalingController

end ServicePlatform.Autoscaler
