import ServicePlatform.Autoscaler.ReplicaBounds

/-! What the control loop reads from the instances. The reading of a tick depends
on the sums of the counters that were read at this tick and at the one before,
whichever instances these came from. The numbers obey no laws, and are added and
divided in the order in which the code does it. -/
namespace ServicePlatform.Autoscaler

/-- The instances as the ticks meet them: the clock at a tick, what the counters
show then, who answers, and whether `set_replicas` raises. -/
structure Fleet (F : Type*) where
  clock : Nat → F
  requests : Nat → Nat → F
  errors : Nat → Nat → F
  answers : Nat → Nat → Bool
  scalerFails : Nat → Bool

namespace Fleet

variable {F : Type*}

/-- What a tick meets. -/
def input (fleet : Fleet F) (k : Nat) : TickInput F where
  now := fleet.clock k
  scrape := fun i => if fleet.answers k i then .sample ⟨fleet.requests k i, fleet.errors k i⟩ else .failed
  scalerFails := fleet.scalerFails k

/-- The first ticks of a run. -/
def inputs (fleet : Fleet F) (count : Nat) : List (TickInput F) := (List.range count).map fleet.input

variable {settings : AutoscalerSettings F} {fleet : Fleet F} {c : ScalingController F} {k : Nat}

section Sums

variable [Add F]

theorem collect_map (totals : ServiceSample F) (is : List Nat) :
    ServiceSample.collect (is.map (fleet.input k).scrape) totals = some
      ⟨(is.filter (fleet.answers k)).foldl (fun sum i => sum + fleet.requests k i) totals.requestsTotal,
        (is.filter (fleet.answers k)).foldl (fun sum i => sum + fleet.errors k i) totals.errorTotal⟩ := by
  induction is generalizing totals with
  | nil => rfl
  | cons i is ih =>
      rw [List.map_cons]
      cases hAnswers : fleet.answers k i with
      | true =>
          have hScrape : (fleet.input k).scrape i = .sample ⟨fleet.requests k i, fleet.errors k i⟩ := by
            simp [input, hAnswers]
          rw [hScrape, ServiceSample.collect, ih, List.filter_cons_of_pos hAnswers]
          rfl
      | false =>
          have hScrape : (fleet.input k).scrape i = .failed := by simp [input, hAnswers]
          rw [hScrape, ServiceSample.collect, ih, List.filter_cons_of_neg (by simp [hAnswers])]

variable [Zero F]

/-- The sum of the counters that are read at a tick. -/
def sumRead (settings : AutoscalerSettings F) (fleet : Fleet F) (counter : Nat → Nat → F) (k : Nat) : F :=
  ((List.range settings.targetUrls.length).filter (fleet.answers k)).foldl (fun sum i => sum + counter k i) 0

/-- The totals of a tick. -/
def sample (settings : AutoscalerSettings F) (fleet : Fleet F) (k : Nat) : ServiceSample F :=
  ⟨fleet.sumRead settings fleet.requests k, fleet.sumRead settings fleet.errors k⟩

/-- The totals that are kept from the tick before. -/
def before (settings : AutoscalerSettings F) (fleet : Fleet F) : Nat → Option (ServiceSample F)
  | 0 => none
  | j + 1 => some (fleet.sample settings j)

theorem totals_input (settings : AutoscalerSettings F) (fleet : Fleet F) (k : Nat) :
    ScalingController.totals settings (fleet.input k) = some (fleet.sample settings k) :=
  collect_map ServiceSample.zero (List.range settings.targetUrls.length)

/-- The controller before a tick, when nothing has been requested. -/
structure Tracks (settings : AutoscalerSettings F) (fleet : Fleet F) (k : Nat)
    (c : ScalingController F) : Prop where
  prev : c.prev = fleet.before settings k
  replicas : c.replicas = settings.targetUrls.length
  lastActionAt : c.policy.lastActionAt = 0

end Sums

section Cooldown

variable [Zero F] [Sub F] [LT F] [DecidableLT F]

/-- The first ticks, without those in the cooldown that every controller starts with. -/
def due (settings : AutoscalerSettings F) (fleet : Fleet F) (count : Nat) : List Nat :=
  (List.range count).filter fun k => PolicyState.initial.Cooled settings (fleet.clock k)

theorem due_succ_of (h : PolicyState.initial.Cooled settings (fleet.clock k)) :
    fleet.due settings (k + 1) = fleet.due settings k ++ [k] := by
  simp [due, List.range_succ, h]

theorem due_succ_of_not (h : ¬ PolicyState.initial.Cooled settings (fleet.clock k)) :
    fleet.due settings (k + 1) = fleet.due settings k := by
  simp [due, List.range_succ, h]

end Cooldown

section Reading

variable [Zero F] [One F] [Add F] [Sub F] [Div F] [IntCast F] [LT F] [LE F] [DecidableLT F] [DecidableLE F]

/-- The load of one instance and the error rate as a tick reads them, with as many
replicas as target URLs. -/
def reading (settings : AutoscalerSettings F) (fleet : Fleet F) (k : Nat) : F × F :=
  let rates := computeRps (fleet.before settings k) (fleet.sample settings k) settings.intervalSeconds
  (rates.1 / ((settings.targetUrls.length : Int) : F), rates.2)

/-- The tick reads too much load. -/
def Overload (settings : AutoscalerSettings F) (fleet : Fleet F) (k : Nat) : Prop :=
  settings.High (fleet.reading settings k).1 (fleet.reading settings k).2

/-- The tick reads too little load. -/
def Underuse (settings : AutoscalerSettings F) (fleet : Fleet F) (k : Nat) : Prop :=
  settings.Low (fleet.reading settings k).1 (fleet.reading settings k).2

instance (settings : AutoscalerSettings F) (fleet : Fleet F) : DecidablePred (fleet.Overload settings) := fun k =>
  inferInstanceAs (Decidable (settings.High (fleet.reading settings k).1 (fleet.reading settings k).2))

instance (settings : AutoscalerSettings F) (fleet : Fleet F) : DecidablePred (fleet.Underuse settings) := fun k =>
  inferInstanceAs (Decidable (settings.Low (fleet.reading settings k).1 (fleet.reading settings k).2))

/-- What a tick reads depends on the sums alone. -/
theorem reading_eq (hUrls : settings.targetUrls ≠ []) (hTracks : fleet.Tracks settings k c) :
    c.reading settings (fleet.sample settings k) = fleet.reading settings k := by
  have hSome : (settings.targetUrls.length : Int) ≠ 0 := by simpa using hUrls
  simp only [ScalingController.reading, reading, hTracks.prev, hTracks.replicas, if_neg hSome]

end Reading

theorem cooled_iff [Zero F] [Add F] [Sub F] [LT F] (hTracks : fleet.Tracks settings k c) :
    c.policy.Cooled settings (fleet.clock k) ↔ PolicyState.initial.Cooled settings (fleet.clock k) := by
  unfold PolicyState.Cooled
  rw [hTracks.lastActionAt]
  rfl

end Fleet

end ServicePlatform.Autoscaler
