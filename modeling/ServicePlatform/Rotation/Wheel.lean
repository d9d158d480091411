import Mathlib.Data.List.Rotate

/-! A list that is walked around and around from a position that everybody
shares. One search looks at each place at most once, in the order in which the
places come up, and moves the position past the place it stops at. -/
namespace Rotation

variable {Item : Type*}

structure Wheel (Item : Type*) where
  items : List Item
  position : Nat
  deriving DecidableEq

/-- The first item that satisfies the predicate, with its distance. The
predicate may depend on the number of places looked at before. -/
def search (p : Nat → Item → Bool) : Nat → List Item → Option (Nat × Item)
  | _, [] => none
  | i, a :: as => if p i a then some (i, a) else search p (i + 1) as

namespace Wheel

/-- The items in the order in which they come up. -/
def upcoming (w : Wheel Item) : List Item := w.items.rotate w.position

def advance (w : Wheel Item) (places : Nat) : Wheel Item :=
  { w with position := (w.position + places) % w.items.length }

/-- One round of the search. Without success the position comes back to where
it was. -/
def next (p : Nat → Item → Bool) (w : Wheel Item) : Option Item × Wheel Item :=
  match search p 0 w.upcoming with
  | some (i, a) => (some a, w.advance (i + 1))
  | none => (none, w.advance w.items.length)

/-- The item comes up at the distance, and the search does not stop before. -/
structure Stops (p : Nat → Item → Bool) (w : Wheel Item) (i : Nat) (a : Item) : Prop where
  comesUp : w.upcoming[i]? = some a
  accepted : p i a = true
  first : ∀ j < i, ∀ b, w.upcoming[j]? = some b → p j b = false

end Wheel

section Search

variable {p : Nat → Item → Bool}

theorem search_nil (k : Nat) : search p k [] = none := rfl

theorem search_cons (k : Nat) (a : Item) (as : List Item) :
    search p k (a :: as) = if p k a then some (k, a) else search p (k + 1) as := rfl

theorem search_none {k : Nat} {as : List Item} :
    search p k as = none ↔ ∀ j a, as[j]? = some a → p (k + j) a = false := by
  induction as generalizing k with
  | nil => simp [search_nil]
  | cons b as ih =>
      constructor
      · intro h j a hAt
        rw [search_cons] at h
        split at h
        · cases h
        · next hHead =>
            cases j with
            | zero =>
                cases hAt
                simpa using hHead
            | succ j =>
                have hLater := ih.mp h j a hAt
                rwa [Nat.add_right_comm] at hLater
      · intro h
        have hHead := h 0 b rfl
        rw [Nat.add_zero] at hHead
        rw [search_cons, if_neg (by simp [hHead])]
        apply ih.mpr
        intro j a hAt
        have hLater := h (j + 1) a hAt
        rwa [Nat.add_right_comm]

theorem search_some {k i : Nat} {a : Item} {as : List Item} :
    search p k as = some (i, a) ↔
      ∃ j, i = k + j ∧ as[j]? = some a ∧ p (k + j) a = true ∧
        ∀ l < j, ∀ b, as[l]? = some b → p (k + l) b = false := by
  induction as generalizing k with
  | nil => simp [search_nil]
  | cons b as ih =>
      rw [search_cons]
      by_cases hHead : p k b = true
      · rw [if_pos hHead, Option.some.injEq, Prod.mk.injEq]
        constructor
        · rintro ⟨rfl, rfl⟩
          exact ⟨0, rfl, rfl, hHead, fun l hl => absurd hl (Nat.not_lt_zero l)⟩
        · rintro ⟨j, rfl, hAt, -, hFirst⟩
          cases j with
          | zero => exact ⟨rfl, by simpa using hAt⟩
          | succ j =>
              have hSkipped := hFirst 0 (Nat.succ_pos j) b rfl
              rw [Nat.add_zero, hHead] at hSkipped
              cases hSkipped
      · rw [if_neg hHead, ih]
        constructor
        · rintro ⟨j, rfl, hAt, hAccepted, hFirst⟩
          have hShift : ∀ l, k + 1 + l = k + (l + 1) := fun l => by omega
          refine ⟨j + 1, hShift j, hAt, hShift j ▸ hAccepted, ?_⟩
          intro l hl c hc
          cases l with
          | zero =>
              cases hc
              simpa using hHead
          | succ l =>
              rw [← hShift l]
              exact hFirst l (by omega) c hc
        · rintro ⟨j, rfl, hAt, hAccepted, hFirst⟩
          have hShift : ∀ l, k + (l + 1) = k + 1 + l := fun l => by omega
          cases j with
          | zero =>
              cases hAt
              exact absurd hAccepted hHead
          | succ j =>
              refine ⟨j, hShift j, hAt, hShift j ▸ hAccepted, ?_⟩
              intro l hl c hc
              rw [← hShift l]
              exact hFirst (l + 1) (by omega) c hc

end Search

namespace Wheel

variable {p : Nat → Item → Bool} {w : Wheel Item} {a : Item}

theorem mem_upcoming : a ∈ w.upcoming ↔ a ∈ w.items := List.mem_rotate

/-- A search changes nothing but the position. -/
@[simp] theorem items_next (p : Nat → Item → Bool) (w : Wheel Item) : (w.next p).2.items = w.items := by
  unfold next
  split <;> rfl

/-- The result of a search that stops. -/
theorem next_some : (w.next p).1 = some a ↔ ∃ i, Stops p w i a := by
  unfold next
  constructor
  · intro h
    split at h
    · next i b hFound =>
        cases h
        obtain ⟨j, -, hAt, hAccepted, hFirst⟩ := search_some.mp hFound
        simp only [Nat.zero_add] at hAccepted hFirst
        exact ⟨j, hAt, hAccepted, hFirst⟩
    · cases h
  · rintro ⟨i, hStops⟩
    have hFound : search p 0 w.upcoming = some (i, a) := by
      apply search_some.mpr
      refine ⟨i, (Nat.zero_add i).symm, hStops.comesUp, ?_⟩
      simp only [Nat.zero_add]
      exact ⟨hStops.accepted, hStops.first⟩
    rw [hFound]

/-- A search without result has looked at every item. -/
theorem next_none (h : (w.next p).1 = none) (hMem : a ∈ w.items) : ∃ i, p i a = false := by
  unfold next at h
  split at h
  · cases h
  · next hFound =>
      obtain ⟨i, hAt⟩ := List.mem_iff_getElem?.mp (mem_upcoming.mpr hMem)
      exact ⟨i, by simpa using search_none.mp hFound i a hAt⟩

theorem mem_of_next (h : (w.next p).1 = some a) : a ∈ w.items := by
  obtain ⟨i, hStops⟩ := next_some.mp h
  exact mem_upcoming.mp (List.mem_of_getElem? hStops.comesUp)

/-- A search has at most one result. -/
theorem Stops.unique {i j : Nat} {b : Item} (h : Stops p w i a) (h' : Stops p w j b) : a = b := by
  rcases Nat.lt_trichotomy i j with hlt | rfl | hlt
  · have hSkipped := h'.first i hlt a h.comesUp
    rw [h.accepted] at hSkipped
    cases hSkipped
  · exact Option.some.inj (h.comesUp.symm.trans h'.comesUp)
  · have hSkipped := h.first j hlt b h'.comesUp
    rw [h'.accepted] at hSkipped
    cases hSkipped

/-- The search avoids a set of items iff an item outside the set is accepted
before every accepted item of the set comes up. -/
theorem next_avoids_iff (bad : Item → Prop) (h : (w.next p).1 = some a) :
    ¬ bad a ↔ ∃ i b, w.upcoming[i]? = some b ∧ ¬ bad b ∧ p i b = true ∧
      ∀ j < i, ∀ b', w.upcoming[j]? = some b' → bad b' → p j b' = false := by
  obtain ⟨i, hStops⟩ := next_some.mp h
  constructor
  · intro hGood
    exact ⟨i, a, hStops.comesUp, hGood, hStops.accepted, fun j hj b' hb' _ => hStops.first j hj b' hb'⟩
  · rintro ⟨k, b, hAt, hGood, hAccepted, hBefore⟩ hBad
    rcases Nat.lt_trichotomy i k with hlt | rfl | hlt
    · have hSkipped := hBefore i hlt a hStops.comesUp hBad
      rw [hStops.accepted] at hSkipped
      cases hSkipped
    · cases hStops.comesUp.symm.trans hAt
      exact hGood hBad
    · have hSkipped := hStops.first k hlt b hAt
      rw [hAccepted] at hSkipped
      cases hSkipped

/-- The search never stops at a set of items iff each accepted item of the set
comes up after an accepted one outside it. -/
theorem next_never_iff (bad : Item → Prop) : (∀ a, (w.next p).1 = some a → ¬ bad a) ↔
    ∀ i a, w.upcoming[i]? = some a → p i a = true → bad a →
      ∃ j < i, ∃ b, w.upcoming[j]? = some b ∧ ¬ bad b ∧ p j b = true := by
  constructor
  · intro hNever i a hAt hAccepted hBad
    cases hFound : (w.next p).1 with
    | none =>
        unfold next at hFound
        split at hFound
        · cases hFound
        · next hNone =>
            have hSkipped := search_none.mp hNone i a hAt
            rw [Nat.zero_add, hAccepted] at hSkipped
            cases hSkipped
    | some b =>
        obtain ⟨j, hStops⟩ := next_some.mp hFound
        have hGood := hNever b hFound
        rcases Nat.lt_trichotomy i j with hlt | rfl | hlt
        · have hSkipped := hStops.first i hlt a hAt
          rw [hAccepted] at hSkipped
          cases hSkipped
        · cases hAt.symm.trans hStops.comesUp
          exact absurd hBad hGood
        · exact ⟨j, hlt, b, hStops.comesUp, hGood, hStops.accepted⟩
  · intro hEarlier a hFound hBad
    obtain ⟨i, hStops⟩ := next_some.mp hFound
    obtain ⟨j, hj, b, hAt, -, hAccepted⟩ := hEarlier i a hStops.comesUp hStops.accepted hBad
    have hSkipped := hStops.first j hj b hAt
    rw [hAccepted] at hSkipped
    cases hSkipped

end Wheel

end Rotation
