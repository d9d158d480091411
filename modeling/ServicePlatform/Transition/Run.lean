import Mathlib.Data.List.Basic
import Mathlib.Data.Option.Basic

/-! Runs of a partial step function over a schedule of actions.
A schedule fixes every choice, so a run is a computation; quantifying over
schedules quantifies over all interleavings. A step that is not enabled has
no result, and neither has a schedule that contains it. -/
namespace Transition

variable {State Action : Type*}

/-- A place in a list that got one more element. -/
theorem getElem?_concat_iff {α : Type*} {l : List α} {a b : α} {n : Nat} :
    (l ++ [a])[n]? = some b ↔ l[n]? = some b ∨ n = l.length ∧ b = a := by
  rcases Nat.lt_trichotomy n l.length with hLt | rfl | hGt
  · rw [List.getElem?_append_left hLt]
    constructor
    · exact Or.inl
    · rintro (hOld | ⟨rfl, -⟩)
      · exact hOld
      · exact absurd hLt (Nat.lt_irrefl _)
  · simp [eq_comm]
  · have hNone : (l ++ [a])[n]? = none := List.getElem?_eq_none (by simp; omega)
    have hNone' : l[n]? = none := List.getElem?_eq_none (Nat.le_of_lt hGt)
    rw [hNone, hNone']
    constructor
    · intro h
      cases h
    · rintro (h | ⟨rfl, -⟩)
      · cases h
      · exact absurd hGt (Nat.lt_irrefl _)

/-- Take the scheduled steps in order, stopping at one that is not enabled. -/
def exec (step : State → Action → Option State) : State → List Action → Option State
  | s, [] => some s
  | s, a :: as => (step s a).bind fun t => exec step t as

variable {step : State → Action → Option State}

@[simp] theorem exec_nil (s : State) : exec step s [] = some s := rfl

theorem exec_cons {s t : State} {a : Action} {as : List Action} :
    exec step s (a :: as) = some t ↔ ∃ m, step s a = some m ∧ exec step m as = some t := by
  simp [exec, Option.bind_eq_some_iff]

theorem exec_append {s t : State} {as bs : List Action} :
    exec step s (as ++ bs) = some t ↔ ∃ m, exec step s as = some m ∧ exec step m bs = some t := by
  induction as generalizing s with
  | nil => simp
  | cons a as ih =>
      simp only [List.cons_append, exec_cons, ih]
      constructor
      · rintro ⟨m, hm, n, hn, ht⟩
        exact ⟨n, ⟨m, hm, hn⟩, ht⟩
      · rintro ⟨n, ⟨m, hm, hn⟩, ht⟩
        exact ⟨m, hm, n, hn, ht⟩

theorem exec_concat {s t : State} {as : List Action} {a : Action} :
    exec step s (as ++ [a]) = some t ↔ ∃ m, exec step s as = some m ∧ step m a = some t := by
  rw [exec_append]
  simp [exec_cons]

/-- Every step of the schedule is taken in a state where `P` allows it. -/
def Along (step : State → Action → Option State) (P : State → Action → Prop) :
    State → List Action → Prop
  | _, [] => True
  | s, a :: as => P s a ∧ ∀ t, step s a = some t → Along step P t as

/-- A step that is allowed, in front of steps that are. -/
theorem along_cons {P : State → Action → Prop} {s t : State} {a : Action} {as : List Action} (here : P s a)
    (taken : step s a = some t) (rest : Along step P t as) : Along step P s (a :: as) := by
  refine ⟨here, fun m hm => ?_⟩
  cases taken.symm.trans hm
  exact rest

/-- The places in a list that got one more element: the new one, and the old
ones with it after them. -/
theorem concat_eq_iff {α : Type*} {as before after : List α} {a b : α} :
    as ++ [b] = before ++ a :: after ↔
      before = as ∧ a = b ∧ after = [] ∨ ∃ rest, as = before ++ a :: rest ∧ after = rest ++ [b] := by
  constructor
  · intro h
    rcases List.eq_nil_or_concat after with rfl | ⟨rest, c, rfl⟩
    · obtain ⟨rfl, hLast⟩ := List.append_inj' h rfl
      cases hLast
      exact Or.inl ⟨rfl, rfl, rfl⟩
    · rw [List.concat_eq_append, ← List.cons_append, ← List.append_assoc] at h
      obtain ⟨rfl, hLast⟩ := List.append_inj' h rfl
      cases hLast
      exact Or.inr ⟨rest, rfl, List.concat_eq_append⟩
  · rintro (⟨rfl, rfl, rfl⟩ | ⟨rest, rfl, rfl⟩)
    · rfl
    · rw [List.append_assoc, List.cons_append]

/-- Each action of the schedule meets a condition on the actions before it. -/
def Scheduled (P : List Action → Action → Prop) (as : List Action) : Prop :=
  ∀ before a after, as = before ++ a :: after → P before a

theorem scheduled_nil (P : List Action → Action → Prop) : Scheduled P [] := by
  intro before a after h
  cases before <;> cases h

theorem scheduled_concat {P : List Action → Action → Prop} {as : List Action} {b : Action} :
    Scheduled P (as ++ [b]) ↔ Scheduled P as ∧ P as b := by
  constructor
  · intro h
    refine ⟨fun before a after hs => h before a (after ++ [b]) ?_, h as b [] rfl⟩
    rw [hs, List.append_assoc, List.cons_append]
  · rintro ⟨hEarlier, hLast⟩ before a after hs
    rcases concat_eq_iff.mp hs with ⟨rfl, rfl, -⟩ | ⟨rest, rfl, -⟩
    · exact hLast
    · exact hEarlier before a rest rfl

/-- The action is in the schedule, and none after it settles the matter again. -/
def Last (settles : Action → Prop) (as : List Action) (a : Action) : Prop :=
  ∃ before after, as = before ++ a :: after ∧ ∀ b ∈ after, ¬ settles b

theorem not_last_nil {settles : Action → Prop} {a : Action} : ¬ Last settles [] a := by
  rintro ⟨before, after, h, -⟩
  cases before <;> cases h

theorem last_concat {settles : Action → Prop} {as : List Action} {a b : Action} :
    Last settles (as ++ [b]) a ↔ b = a ∨ Last settles as a ∧ ¬ settles b := by
  constructor
  · rintro ⟨before, after, h, hAfter⟩
    rcases concat_eq_iff.mp h with ⟨-, rfl, -⟩ | ⟨rest, hEarlier, rfl⟩
    · exact Or.inl rfl
    · obtain ⟨hRest, hLast⟩ := List.forall_mem_append.mp hAfter
      exact Or.inr ⟨⟨before, rest, hEarlier, hRest⟩, hLast b (List.mem_singleton_self b)⟩
  · rintro (rfl | ⟨⟨before, after, rfl, hAfter⟩, hLast⟩)
    · exact ⟨as, [], rfl, fun c hc => absurd hc List.not_mem_nil⟩
    · refine ⟨before, after ++ [b], by simp, List.forall_mem_append.mpr ⟨hAfter, ?_⟩⟩
      simpa using hLast

/-- The step lemma lifts to runs. A condition on the steps taken may be used. -/
theorem invariant_along {P : State → Action → Prop} {I : State → Prop}
    (keep : ∀ s a t, I s → P s a → step s a = some t → I t)
    {s t : State} {as : List Action} (start : I s) (allowed : Along step P s as)
    (run : exec step s as = some t) : I t := by
  induction as generalizing s with
  | nil =>
      cases run
      exact start
  | cons a as ih =>
      obtain ⟨m, hm, run⟩ := exec_cons.mp run
      exact ih (keep s a m start allowed.1 hm) (allowed.2 m hm) run

/-- What is allowed along a schedule is allowed along the rest of it. -/
theorem along_suffix {P : State → Action → Prop} {s t : State} {as bs : List Action}
    (allowed : Along step P s (as ++ bs)) (run : exec step s as = some t) : Along step P t bs := by
  induction as generalizing s with
  | nil =>
      cases run
      exact allowed
  | cons a as ih =>
      obtain ⟨m, hm, run⟩ := exec_cons.mp run
      exact ih (allowed.2 m hm) run

theorem along_of_forall {P : State → Action → Prop} {as : List Action}
    (h : ∀ a ∈ as, ∀ s, P s a) (s : State) : Along step P s as := by
  induction as generalizing s with
  | nil => trivial
  | cons a as ih =>
      refine ⟨h a (List.mem_cons_self ..) s, fun t _ => ?_⟩
      exact ih (fun b hb => h b (List.mem_cons_of_mem _ hb)) t

/-- What an invariant allows at every state is allowed along every schedule. -/
theorem along_of_invariant {I : State → Prop} {P : State → Action → Prop}
    (keep : ∀ s a t, I s → step s a = some t → I t) (here : ∀ s a, I s → P s a) {s : State} (start : I s)
    (as : List Action) : Along step P s as := by
  induction as generalizing s with
  | nil => trivial
  | cons a as ih => exact ⟨here s a start, fun t hStep => ih (keep s a t start hStep)⟩

theorem invariant {I : State → Prop} (keep : ∀ s a t, I s → step s a = some t → I t)
    {s t : State} {as : List Action} (start : I s) (run : exec step s as = some t) : I t :=
  invariant_along (P := fun _ _ => True) (fun s a t hs _ => keep s a t hs) start
    (along_of_forall (fun _ _ _ => trivial) _) run

/-- A preorder that every step respects relates the ends of a run. An
invariant of the earlier state may be used at each step. -/
theorem monotone {I : State → Prop} {R : State → State → Prop}
    (refl : ∀ s, R s s) (trans : ∀ s t u, R s t → R t u → R s u)
    (keep : ∀ s a t, I s → step s a = some t → I t)
    (respects : ∀ s a t, I s → step s a = some t → R s t)
    {s t : State} {as : List Action} (start : I s) (run : exec step s as = some t) : R s t := by
  induction as generalizing s with
  | nil =>
      cases run
      exact refl _
  | cons a as ih =>
      obtain ⟨m, hm, run⟩ := exec_cons.mp run
      exact trans s m t (respects s a m start hm) (ih (keep s a m start hm) run)

/-- A rank that pays for each counted step, and that no other step raises,
bounds the number of counted steps. -/
theorem count_add_rank_le {A : Action → Prop} {I : State → Prop} {rank : State → Nat}
    {counted : Action → Bool} (keep : ∀ s a t, I s → A a → step s a = some t → I t)
    (pays : ∀ s a t, I s → A a → step s a = some t → (if counted a then 1 else 0) + rank t ≤ rank s)
    {s t : State} {as : List Action} (start : I s) (allowed : ∀ a ∈ as, A a)
    (run : exec step s as = some t) : I t ∧ as.countP counted + rank t ≤ rank s := by
  induction as generalizing s with
  | nil =>
      cases run
      simpa using start
  | cons a as ih =>
      obtain ⟨m, hm, run⟩ := exec_cons.mp run
      have hHead := allowed a (List.mem_cons_self ..)
      have hPays := pays s a m start hHead hm
      obtain ⟨hEnd, hCount⟩ :=
        ih (keep s a m start hHead hm) (fun b hb => allowed b (List.mem_cons_of_mem _ hb)) run
      refine ⟨hEnd, ?_⟩
      rw [List.countP_cons]
      omega

/-- Some state that a run comes through has the property. -/
def Sometime (step : State → Action → Option State) (Q : State → Prop) (s : State) (as : List Action) : Prop :=
  ∃ before after t, as = before ++ after ∧ exec step s before = some t ∧ Q t

theorem sometime_start {Q : State → Prop} {s : State} {as : List Action} (h : Q s) : Sometime step Q s as :=
  ⟨[], as, s, rfl, rfl, h⟩

theorem sometime_cons {Q : State → Prop} {s t : State} {a : Action} {as : List Action}
    (hStep : step s a = some t) (h : Sometime step Q t as) : Sometime step Q s (a :: as) := by
  obtain ⟨before, after, u, rfl, run, hQ⟩ := h
  exact ⟨a :: before, after, u, rfl, exec_cons.mpr ⟨t, hStep, run⟩, hQ⟩

/-- A property that a step keeps exactly when a condition holds at the step is
kept by a run exactly when the condition holds at each step. -/
theorem holds_iff_along {A : Action → Prop} {I Q : State → Prop} {P : State → Action → Prop}
    (keep : ∀ s a t, I s → A a → step s a = some t → I t)
    (here : ∀ s a t, I s → A a → step s a = some t → (Q t ↔ Q s ∧ P s a))
    {s t : State} {as : List Action} (start : I s) (allowed : ∀ a ∈ as, A a)
    (run : exec step s as = some t) : Q t ↔ Q s ∧ Along step P s as := by
  induction as generalizing s with
  | nil =>
      cases run
      simp [Along]
  | cons a as ih =>
      obtain ⟨m, hm, run⟩ := exec_cons.mp run
      have hHead := allowed a (List.mem_cons_self ..)
      rw [ih (keep s a m start hHead hm) (fun b hb => allowed b (List.mem_cons_of_mem _ hb)) run,
        here s a m start hHead hm, and_assoc]
      simp [Along, hm]

/-- A property of every state that a run comes through. -/
def Throughout (step : State → Action → Option State) (Q : State → Prop) (s : State) (as : List Action) : Prop :=
  ∀ before after t, as = before ++ after → exec step s before = some t → Q t

theorem throughout_nil {Q : State → Prop} {s : State} : Throughout step Q s [] ↔ Q s := by
  constructor
  · intro h
    exact h [] [] s rfl rfl
  · intro h before after t hSplit run
    obtain ⟨rfl, -⟩ := List.append_eq_nil_iff.mp hSplit.symm
    cases run
    exact h

theorem throughout_cons {Q : State → Prop} {s : State} {a : Action} {as : List Action} :
    Throughout step Q s (a :: as) ↔ Q s ∧ ∀ t, step s a = some t → Throughout step Q t as := by
  constructor
  · intro h
    refine ⟨h [] (a :: as) s rfl rfl, fun t hStep before after u hSplit run => ?_⟩
    exact h (a :: before) after u (by rw [hSplit, List.cons_append]) (exec_cons.mpr ⟨t, hStep, run⟩)
  · rintro ⟨hHere, hLater⟩ before after u hSplit run
    cases before with
    | nil =>
        cases run
        exact hHere
    | cons b before =>
        obtain ⟨rfl, hRest⟩ := List.cons_eq_cons.mp hSplit
        obtain ⟨m, hStep, hRun⟩ := exec_cons.mp run
        exact hLater m hStep before after u hRest hRun

/-- A property that a step keeps exactly for some actions holds throughout a run
exactly when the run has no other actions. -/
theorem throughout_iff_forall {I Q : State → Prop} {A : Action → Prop}
    (keep : ∀ s a t, I s → step s a = some t → I t)
    (here : ∀ s a t, I s → Q s → step s a = some t → (Q t ↔ A a))
    {s t : State} {as : List Action} (inv : I s) (start : Q s)
    (run : exec step s as = some t) : Throughout step Q s as ↔ ∀ a ∈ as, A a := by
  induction as generalizing s with
  | nil => simpa [throughout_nil] using start
  | cons a as ih =>
      obtain ⟨m, hStep, hRun⟩ := exec_cons.mp run
      have hInv : I m := keep s a m inv hStep
      rw [throughout_cons, and_iff_right start, List.forall_mem_cons]
      constructor
      · intro h
        have hRest := h m hStep
        have hMiddle : Q m := hRest [] as m rfl rfl
        exact ⟨(here s a m inv start hStep).mp hMiddle, (ih hInv hMiddle hRun).mp hRest⟩
      · rintro ⟨hAction, hRest⟩ u hOther
        cases hStep.symm.trans hOther
        exact (ih hInv ((here s a m inv start hStep).mpr hAction) hRun).mpr hRest

/-- One party moves. What holds of all parties after the step is what held of
them before it, and what the step decides for the one. -/
theorem forall_iff_moved {Party : Type*} {Before After : Party → Prop} {Decided : Prop} (i : Party)
    (others : ∀ j, j ≠ i → (After j ↔ Before j)) (before : Before i) (here : After i ↔ Decided) :
    (∀ j, After j) ↔ (∀ j, Before j) ∧ Decided := by
  constructor
  · intro hAll
    refine ⟨?_, here.mp (hAll i)⟩
    intro j
    by_cases he : j = i
    · rw [he]
      exact before
    · exact (others j he).mp (hAll j)
  · rintro ⟨hAll, hDecided⟩ j
    by_cases he : j = i
    · rw [he]
      exact here.mpr hDecided
    · exact (others j he).mpr (hAll j)

section Simulation

variable {Concrete Step : Type*} {cstep : Concrete → Step → Option Concrete}

/-- A concrete step corresponds to a finite piece of abstract schedule, which
is empty for a step the abstraction cannot see. Whole runs then correspond. -/
theorem simulation {I : Concrete → Prop} (view : Concrete → State)
    (keep : ∀ c a d, I c → cstep c a = some d → I d)
    (simulate : ∀ c a d, I c → cstep c a = some d →
      ∃ as, exec step (view c) as = some (view d))
    {c d : Concrete} {schedule : List Step} (start : I c) (run : exec cstep c schedule = some d) :
    ∃ as, exec step (view c) as = some (view d) := by
  induction schedule generalizing c with
  | nil =>
      cases run
      exact ⟨[], rfl⟩
  | cons a schedule ih =>
      obtain ⟨m, hm, run⟩ := exec_cons.mp run
      obtain ⟨first, hFirst⟩ := simulate c a m start hm
      obtain ⟨rest, hRest⟩ := ih (keep c a m start hm) run
      exact ⟨first ++ rest, exec_append.mpr ⟨view m, hFirst, hRest⟩⟩

end Simulation

end Transition
