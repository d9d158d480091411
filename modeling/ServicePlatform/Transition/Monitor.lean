import ServicePlatform.Transition.Run

/-! A monitor that takes notes while a system runs. It sees each step and
changes nothing, so the watched runs are the runs of the system, each with the
notes that it leads to. -/
namespace Transition

variable {State Action Note : Type*}

/-- One step of the system, after which the monitor writes its notes. -/
def watched (step : State → Action → Option State) (note : State → Action → State → Note → Note)
    (s : State × Note) (a : Action) : Option (State × Note) :=
  (step s.1 a).map fun t => (t, note s.1 a t s.2)

variable {step : State → Action → Option State} {note : State → Action → State → Note → Note}

theorem watched_some {s t : State × Note} {a : Action} :
    watched step note s a = some t ↔ step s.1 a = some t.1 ∧ t.2 = note s.1 a t.1 s.2 := by
  unfold watched
  constructor
  · intro h
    obtain ⟨m, hStep, rfl⟩ := Option.map_eq_some_iff.mp h
    exact ⟨hStep, rfl⟩
  · intro h
    rw [h.1, Option.map_some, ← h.2]

/-- A condition on the steps of the system is one on the watched steps. -/
theorem along_watched {P : State → Action → Prop} {s : State} {as : List Action} {note₀ : Note}
    (allowed : Along step P s as) : Along (watched step note) (fun s a => P s.1 a) (s, note₀) as := by
  induction as generalizing s note₀ with
  | nil => trivial
  | cons a as ih =>
      refine ⟨allowed.1, fun t hStep => ?_⟩
      exact ih (allowed.2 t.1 (watched_some.mp hStep).1)

end Transition
