import ServicePlatform.Rotation.Wheel

/-! Searches that follow one another on one wheel and take the items that they
stop at, each item once. Some items are ready: each search accepts them as long
as they are not taken. Whatever else the searches accept, and however often
they go around, the ready items are taken in the order in which they come up
from the first position, and a search that stops at a taken item, or nowhere,
finds all of them taken. -/
namespace Rotation

variable {Item : Type*} {p : Nat → Item → Bool} {w start : Wheel Item} {ready : Item → Bool}
  {taken : List Item} {places i : Nat} {a : Item}

namespace Wheel

theorem upcoming_advance (w : Wheel Item) (places : Nat) :
    (w.advance places).upcoming = w.upcoming.rotate places := by
  unfold advance upcoming
  rw [List.rotate_mod, List.rotate_rotate]

/-- A search moves the position past the place it stops at. -/
theorem Stops.next (h : Stops p w i a) : w.next p = (some a, w.advance (i + 1)) := by
  have hFound : search p 0 w.upcoming = some (i, a) := by
    apply search_some.mpr
    refine ⟨i, (Nat.zero_add i).symm, h.comesUp, ?_⟩
    simp only [Nat.zero_add]
    exact ⟨h.accepted, h.first⟩
  unfold Wheel.next
  rw [hFound]

theorem Stops.lt (h : Stops p w i a) : i < w.upcoming.length :=
  (List.getElem?_eq_some_iff.mp h.comesUp).1

end Wheel

open Wheel

/-- The searches from `start` on have gone over a number of places. The ready
items among them are taken, and what is taken is among them. -/
structure Sweep (start : Wheel Item) (ready : Item → Bool) (taken : List Item) (places : Nat)
    (w : Wheel Item) : Prop where
  upcoming : w.upcoming = start.upcoming.rotate places
  passed : ∀ e < places, ∀ a, start.upcoming[e % start.upcoming.length]? = some a →
    ready a = true → a ∈ taken
  placed : ∀ a ∈ taken, ∃ e < places, start.upcoming[e % start.upcoming.length]? = some a
  ordered : (taken.filter ready).Sublist (start.upcoming.take places)

/-- The search accepts the ready items that are not taken. -/
def Accepts (p : Nat → Item → Bool) (start : Wheel Item) (ready : Item → Bool) (taken : List Item) : Prop :=
  ∀ i, ∀ a ∈ start.items, ready a = true → a ∉ taken → p i a = true

namespace Sweep

theorem begin (start : Wheel Item) (ready : Item → Bool) : Sweep start ready [] 0 start where
  upcoming := (List.rotate_zero _).symm
  passed := fun _ he => absurd he (Nat.not_lt_zero _)
  placed := fun _ ha => absurd ha List.not_mem_nil
  ordered := List.nil_sublist _

theorem mem_items (h : Sweep start ready taken places w) : a ∈ w.items ↔ a ∈ start.items := by
  rw [← mem_upcoming, h.upcoming, List.mem_rotate, mem_upcoming]

/-- Where the next places lie, seen from the first position. -/
theorem comesUp_iff (h : Sweep start ready taken places w) (hPlace : i < start.upcoming.length) :
    w.upcoming[i]? = some a ↔ start.upcoming[(places + i) % start.upcoming.length]? = some a := by
  rw [h.upcoming, List.getElem?_rotate hPlace, Nat.add_comm]

theorem length_upcoming (h : Sweep start ready taken places w) :
    w.upcoming.length = start.upcoming.length := by
  rw [h.upcoming, List.length_rotate]

/-- The ready items up to the place of the stop are taken. -/
theorem passed_stop (h : Sweep start ready taken places w) (hReady : Accepts p start ready taken)
    (hStops : Stops p w i a) : ∀ e < places + i, ∀ b,
      start.upcoming[e % start.upcoming.length]? = some b → ready b = true → b ∈ taken := by
  intro e he b hAt hb
  rcases Nat.lt_or_ge e places with hOld | hNew
  · exact h.passed e hOld b hAt hb
  · obtain ⟨j, rfl⟩ := Nat.exists_eq_add_of_le hNew
    have hPlace : j < start.upcoming.length := by
      have hStop := hStops.lt
      rw [h.length_upcoming] at hStop
      omega
    have hSkipped := hStops.first j (by omega) b ((h.comesUp_iff hPlace).mpr hAt)
    by_contra hUntaken
    have hMem : b ∈ start.items := mem_upcoming.mp (List.mem_of_getElem? hAt)
    rw [hReady j b hMem hb hUntaken] at hSkipped
    cases hSkipped

/-- A ready item is taken in the first round. -/
theorem first_round (h : Sweep start ready taken places w) (hReady : Accepts p start ready taken)
    (hStops : Stops p w i a) (ha : ready a = true) (hNew : a ∉ taken) :
    places + i < start.upcoming.length := by
  by_contra hLater
  have hStop := hStops.lt
  rw [h.length_upcoming] at hStop
  have hAt := (h.comesUp_iff hStop).mp hStops.comesUp
  rw [Nat.mod_eq_sub_mod (Nat.le_of_not_lt hLater)] at hAt
  exact hNew (h.passed_stop hReady hStops _ (by omega) a hAt ha)

/-- A search that stops at an item that is not taken takes it. -/
theorem take (h : Sweep start ready taken places w) (hReady : Accepts p start ready taken)
    (hStops : Stops p w i a) (hNew : a ∉ taken) :
    Sweep start ready (taken ++ [a]) (places + (i + 1)) (w.advance (i + 1)) := by
  have hStop := hStops.lt
  rw [h.length_upcoming] at hStop
  have hAt := (h.comesUp_iff hStop).mp hStops.comesUp
  constructor
  · rw [upcoming_advance, h.upcoming, List.rotate_rotate]
  · intro e he b hb hbReady
    rcases Nat.lt_or_eq_of_le (show e ≤ places + i by omega) with hPassed | rfl
    · exact List.mem_append_left _ (h.passed_stop hReady hStops e hPassed b hb hbReady)
    · rw [hAt] at hb
      cases hb
      exact List.mem_append_right _ (List.mem_singleton_self a)
  · intro b hb
    rcases List.mem_append.mp hb with hOld | hLast
    · obtain ⟨e, he, hPlace⟩ := h.placed b hOld
      exact ⟨e, by omega, hPlace⟩
    · rw [List.mem_singleton.mp hLast]
      exact ⟨places + i, by omega, hAt⟩
  · rw [List.filter_append]
    cases ha : ready a with
    | false =>
        have hLast : [a].filter ready = [] := by simp [ha]
        rw [hLast, List.append_nil]
        exact h.ordered.trans (List.take_sublist_take_left (by omega))
    | true =>
        have hFirst := h.first_round hReady hStops ha hNew
        rw [Nat.mod_eq_of_lt hFirst] at hAt
        have hLast : [a].filter ready = [a] := by simp [ha]
        rw [hLast, ← Nat.add_assoc, List.take_add_one, hAt]
        exact (h.ordered.trans (List.take_sublist_take_left (by omega))).append (List.Sublist.refl _)

/-- A search that comes back to a taken item has gone around. -/
theorem repeated (h : Sweep start ready taken places w) (hNodup : start.items.Nodup)
    (hReady : Accepts p start ready taken) (hStops : Stops p w i a) (hTaken : a ∈ taken) :
    ∀ b ∈ start.items, ready b = true → b ∈ taken := by
  intro b hb hbReady
  have hStop := hStops.lt
  rw [h.length_upcoming] at hStop
  have hAt := (h.comesUp_iff hStop).mp hStops.comesUp
  obtain ⟨e, he, hPlace⟩ := h.placed a hTaken
  have hUpcoming : start.upcoming.Nodup := List.nodup_rotate.mpr hNodup
  have hSame : (places + i) % start.upcoming.length = e % start.upcoming.length := by
    have hPositive : 0 < start.upcoming.length := by omega
    exact (List.getElem?_inj (Nat.mod_lt _ hPositive) hUpcoming).mp (hAt.trans hPlace.symm)
  have hRound : start.upcoming.length ≤ places + i := by
    by_contra hShort
    rw [Nat.mod_eq_of_lt (by omega), Nat.mod_eq_of_lt (by omega)] at hSame
    omega
  obtain ⟨j, hj⟩ := List.mem_iff_getElem?.mp (mem_upcoming.mpr hb)
  have hLow := (List.getElem?_eq_some_iff.mp hj).1
  apply h.passed_stop hReady hStops j (by omega) b _ hbReady
  rw [Nat.mod_eq_of_lt hLow]
  exact hj

/-- A search that stops nowhere finds the ready items taken. -/
theorem none (h : Sweep start ready taken places w) (hReady : Accepts p start ready taken)
    (hNone : (w.next p).1 = none) : ∀ b ∈ start.items, ready b = true → b ∈ taken := by
  intro b hb hbReady
  obtain ⟨j, hSkipped⟩ := next_none hNone (h.mem_items.mpr hb)
  by_contra hUntaken
  rw [hReady j b hb hbReady hUntaken] at hSkipped
  cases hSkipped

end Sweep

end Rotation
