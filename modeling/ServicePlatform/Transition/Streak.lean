import Mathlib.Data.List.DropRight
import Mathlib.Data.List.Infix
import Mathlib.Order.Basic

/-! Runs of consecutive moments. A counter that is set back by every moment
without a property measures the run of moments with it that ends now, so it
reaches a number exactly when a window of that length has the property
throughout. The moments are all numbers, or the entries of a list. -/
namespace Transition

section Window

variable {α : Type*} {P Q : α → Prop} {width : Nat} {moments : List α} {a : α}

/-- So many moments in a row have the property. -/
def Sustained (P : α → Prop) (width : Nat) (moments : List α) : Prop :=
  ∃ window, window <:+: moments ∧ width ≤ window.length ∧ ∀ a ∈ window, P a

theorem Sustained.mono (hPQ : ∀ a ∈ moments, P a → Q a) (h : Sustained P width moments) :
    Sustained Q width moments := by
  obtain ⟨window, hInfix, hWidth, hAll⟩ := h
  exact ⟨window, hInfix, hWidth, fun a ha => hPQ a (hInfix.subset ha) (hAll a ha)⟩

theorem not_sustained_nil (hWidth : 0 < width) : ¬ Sustained P width [] := by
  rintro ⟨window, hInfix, hLong, -⟩
  rw [List.infix_nil.mp hInfix] at hLong
  exact absurd hLong (Nat.not_le.mpr hWidth)

variable [DecidablePred P]

/-- The length of the run that ends with the last moment. -/
def lastRun (P : α → Prop) [DecidablePred P] (moments : List α) : Nat := (moments.rtakeWhile P).length

theorem lastRun_concat_of (h : P a) : lastRun P (moments ++ [a]) = lastRun P moments + 1 := by
  simp [lastRun, h]

theorem lastRun_concat_of_not (h : ¬ P a) : lastRun P (moments ++ [a]) = 0 := by
  simp [lastRun, h]

/-- A run is as long as the windows that end with it. -/
theorem le_lastRun_iff :
    width ≤ lastRun P moments ↔ ∃ window, window <:+ moments ∧ width ≤ window.length ∧ ∀ a ∈ window, P a := by
  constructor
  · intro hLong
    exact ⟨_, List.rtakeWhile_suffix _ _, hLong, fun a ha => by simpa using List.mem_rtakeWhile_imp ha⟩
  · rintro ⟨window, hSuffix, hWidth, hAll⟩
    refine hWidth.trans ?_
    clear hWidth
    induction moments using List.reverseRecOn generalizing window with
    | nil => simp [List.suffix_nil.mp hSuffix]
    | append_singleton moments a ih =>
        rcases List.suffix_concat_iff.mp hSuffix with rfl | ⟨front, rfl, hFront⟩
        · exact Nat.zero_le _
        · have hLast : P a := hAll a (List.mem_append_right _ (List.mem_singleton_self a))
          rw [lastRun_concat_of hLast, List.length_append, List.length_singleton]
          exact Nat.succ_le_succ (ih front hFront fun b hb => hAll b (List.mem_append_left _ hb))

/-- One more moment completes a window, or there was one before. -/
theorem sustained_concat_iff :
    Sustained P width (moments ++ [a]) ↔ Sustained P width moments ∨ width ≤ lastRun P (moments ++ [a]) := by
  rw [le_lastRun_iff]
  constructor
  · rintro ⟨window, hInfix, hRest⟩
    rcases List.infix_concat_iff.mp hInfix with hSuffix | hEarlier
    · exact Or.inr ⟨window, hSuffix, hRest⟩
    · exact Or.inl ⟨window, hEarlier, hRest⟩
  · rintro (⟨window, hInfix, hRest⟩ | ⟨window, hSuffix, hRest⟩)
    · exact ⟨window, List.infix_concat_iff.mpr (Or.inr hInfix), hRest⟩
    · exact ⟨window, hSuffix.isInfix, hRest⟩

/-- A counter that is compared right after it was raised has reached the width,
or one when the width is less. -/
theorem max_one_le_lastRun_iff {width : Int} :
    max 1 width.toNat ≤ lastRun P (moments ++ [a]) ↔ P a ∧ width ≤ lastRun P moments + 1 := by
  by_cases hHere : P a
  · rw [lastRun_concat_of hHere, and_iff_right hHere]
    omega
  · rw [lastRun_concat_of_not hHere]
    exact iff_of_false (by omega) fun h => hHere h.1

end Window

/-- The length of the run of numbers that ends right before a number. -/
def streak (P : Nat → Prop) [DecidablePred P] (n : Nat) : Nat := lastRun P (List.range n)

section Streak

variable {P : Nat → Prop} [DecidablePred P] {n width : Nat}

@[simp] theorem streak_zero : streak P 0 = 0 := rfl

theorem streak_succ_of (h : P n) : streak P (n + 1) = streak P n + 1 := by
  rw [streak, List.range_succ, lastRun_concat_of h]
  rfl

theorem streak_succ_of_not (h : ¬ P n) : streak P (n + 1) = 0 := by
  rw [streak, List.range_succ, lastRun_concat_of_not h]

/-- A run is as long as the window before the moment. -/
theorem le_streak_iff : width ≤ streak P n ↔ width ≤ n ∧ ∀ j < n, n ≤ j + width → P j := by
  induction n generalizing width with
  | zero => simp
  | succ n ih =>
      by_cases hHere : P n
      · rw [streak_succ_of hHere]
        cases width with
        | zero =>
            simp only [Nat.zero_le, true_and, true_iff]
            omega
        | succ width =>
            rw [Nat.succ_le_succ_iff, Nat.succ_le_succ_iff, ih]
            apply and_congr_right
            intro _
            constructor
            · intro hBefore j hj hFrom
              rcases Nat.lt_succ_iff_lt_or_eq.mp hj with hLt | rfl
              · exact hBefore j hLt (by omega)
              · exact hHere
            · intro hAll j hj hFrom
              exact hAll j (by omega) (by omega)
      · rw [streak_succ_of_not hHere]
        constructor
        · intro hZero
          obtain rfl : width = 0 := by omega
          exact ⟨Nat.zero_le _, by omega⟩
        · rintro ⟨hWidth, hAll⟩
          cases width with
          | zero => exact Nat.le_refl 0
          | succ width => exact absurd (hAll n (by omega) (by omega)) hHere

/-- A counter that is raised by the property, set back without it, and otherwise
rests only where no run ends, measures the run. -/
theorem counter_eq_streak {count : Nat → Int} (hStart : count 0 = 0)
    (hCounts : ∀ k, (P k ∧ count (k + 1) = count k + 1) ∨ (¬ P k ∧ count (k + 1) = 0) ∨
      (¬ P k ∧ (∀ j, k = j + 1 → ¬ P j) ∧ count (k + 1) = count k)) : count n = streak P n := by
  induction n with
  | zero => exact hStart
  | succ n ih =>
      rcases hCounts n with ⟨hHere, hRaised⟩ | ⟨hNot, hZero⟩ | ⟨hNot, hBefore, hRests⟩
      · rw [hRaised, ih, streak_succ_of hHere]
        rfl
      · rw [hZero, streak_succ_of_not hNot]
        rfl
      · rw [hRests, ih, streak_succ_of_not hNot]
        cases n with
        | zero => rfl
        | succ m => rw [streak_succ_of_not (hBefore m rfl)]

end Streak

end Transition
