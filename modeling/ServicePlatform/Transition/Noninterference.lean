import Mathlib.Data.List.Basic

/-! What an observer learns from a machine that answers every action. The
observer sees some of the actions with their answers. Two states are alike for
it when no own action tells them apart, and two histories look the same when
they differ in hidden actions and in secrets only. -/
namespace Transition

variable {State Action Answer : Type*}

/-- The actions that the observer sees, with their answers. -/
def view (step : State → Action → State × Answer) (seen : Action → Bool) :
    State → List Action → List (Action × Answer)
  | _, [] => []
  | s, a :: as =>
      if seen a then (a, (step s a).2) :: view step seen (step s a).1 as
      else view step seen (step s a).1 as

/-- Two histories that differ in hidden actions, and in what matched actions
keep secret. -/
inductive LooksSame (hidden : Action → Prop) (matched : Action → Action → Prop) :
    List Action → List Action → Prop where
  | nil : LooksSame hidden matched [] []
  | left {a : Action} {as bs : List Action} (hHidden : hidden a) (rest : LooksSame hidden matched as bs) :
      LooksSame hidden matched (a :: as) bs
  | right {b : Action} {as bs : List Action} (hHidden : hidden b) (rest : LooksSame hidden matched as bs) :
      LooksSame hidden matched as (b :: bs)
  | both {a b : Action} {as bs : List Action} (hMatched : matched a b)
      (rest : LooksSame hidden matched as bs) : LooksSame hidden matched (a :: as) (b :: bs)

/-- The conditions on single steps under which the views agree. -/
structure Unwinding (step : State → Action → State × Answer) (seen : Action → Bool)
    (alike : State → State → Prop) (hidden : Action → Prop) (matched : Action → Action → Prop) : Prop where
  unseen : ∀ a, hidden a → seen a = false
  silent : ∀ s a, hidden a → (step s a).1 = s
  own : ∀ a b, matched a b → seen a = true ∨ seen b = true → a = b
  answers : ∀ s t a, alike s t → seen a = true → (step s a).2 = (step t a).2
  keeps : ∀ s t a b, alike s t → matched a b → alike (step s a).1 (step t b).1

variable {step : State → Action → State × Answer} {seen : Action → Bool} {alike : State → State → Prop}
  {hidden : Action → Prop} {matched : Action → Action → Prop}

theorem view_cons_seen {s : State} {a : Action} {as : List Action} (h : seen a = true) :
    view step seen s (a :: as) = (a, (step s a).2) :: view step seen (step s a).1 as :=
  if_pos h

theorem view_cons_unseen {s : State} {a : Action} {as : List Action} (h : seen a = false) :
    view step seen s (a :: as) = view step seen (step s a).1 as := by
  rw [view, h]
  rfl

/-- Histories that look the same give the same view from states that are alike. -/
theorem Unwinding.view_eq (unwinding : Unwinding step seen alike hidden matched) {as bs : List Action}
    (h : LooksSame hidden matched as bs) {s t : State} (hAlike : alike s t) :
    view step seen s as = view step seen t bs := by
  induction h generalizing s t with
  | nil => rfl
  | left hHidden rest ih =>
      rw [view_cons_unseen (unwinding.unseen _ hHidden), unwinding.silent s _ hHidden]
      exact ih hAlike
  | right hHidden rest ih =>
      rw [view_cons_unseen (unwinding.unseen _ hHidden), unwinding.silent t _ hHidden]
      exact ih hAlike
  | @both a b as bs hMatched rest ih =>
      have hNext := unwinding.keeps s t a b hAlike hMatched
      by_cases hSeen : seen a = true ∨ seen b = true
      · obtain rfl := unwinding.own a b hMatched hSeen
        have hHere : seen a = true := hSeen.elim id id
        rw [view_cons_seen hHere, view_cons_seen hHere, unwinding.answers s t a hAlike hHere, ih hNext]
      · rw [not_or, Bool.not_eq_true, Bool.not_eq_true] at hSeen
        rw [view_cons_unseen hSeen.1, view_cons_unseen hSeen.2]
        exact ih hNext

end Transition
