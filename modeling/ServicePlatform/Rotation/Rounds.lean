import ServicePlatform.Transition.Run
import Mathlib.Data.Int.CardIntervalMod
import Mathlib.Data.List.Induction
import Mathlib.Logic.Function.Basic

/-! Turns that hand out a number of places one after another, and that may start
over at the first place. Without restarts the places are handed out equally
often, up to one. A restart keeps this exactly when it falls between two rounds,
or when nothing is handed out after it. -/
namespace Rotation

open Transition

/-- The place that comes up is handed out, or the turns start over. -/
inductive Turn where
  | pick
  | reset
  deriving DecidableEq

/-- The place that comes up, and how often each place was handed out. -/
structure Tally where
  place : Nat
  counts : Nat → Nat

def Tally.step (n : Nat) (tally : Tally) : Turn → Tally
  | .pick => ⟨(tally.place + 1) % n,
      Function.update tally.counts tally.place (tally.counts tally.place + 1)⟩
  | .reset => ⟨0, tally.counts⟩

def tally (n : Nat) (turns : List Turn) : Tally := turns.foldl (Tally.step n) ⟨0, fun _ => 0⟩

/-- No place was handed out twice more than another. -/
def Tally.Balanced (n : Nat) (tally : Tally) : Prop :=
  ∀ i < n, ∀ j < n, tally.counts i ≤ tally.counts j + 1

/-- The places are handed out equally often, up to one, at all times. -/
def Fair (n : Nat) (turns : List Turn) : Prop :=
  ∀ before after, turns = before ++ after → (tally n before).Balanced n

/-- The number of places handed out. -/
def picks (turns : List Turn) : Nat := turns.count .pick

/-- Each restart falls between two rounds. -/
def WholeRounds (n : Nat) (turns : List Turn) : Prop :=
  Scheduled (fun before turn => turn = .reset → n ∣ picks before) turns

/-- Each restart after which a place is handed out falls between two rounds. -/
def Even (n : Nat) (turns : List Turn) : Prop :=
  ∀ before after, turns = before ++ .reset :: after → .pick ∈ after → n ∣ picks before

section Turns

variable {n : Nat} {turns : List Turn}

theorem tally_concat (n : Nat) (turns : List Turn) (turn : Turn) :
    tally n (turns ++ [turn]) = (tally n turns).step n turn := by
  simp [tally]

theorem picks_pick (turns : List Turn) : picks (turns ++ [.pick]) = picks turns + 1 := by
  simp [picks]

theorem picks_reset (turns : List Turn) : picks (turns ++ [.reset]) = picks turns := by
  simp [picks]

theorem fair_concat {turn : Turn} :
    Fair n (turns ++ [turn]) ↔ Fair n turns ∧ (tally n (turns ++ [turn])).Balanced n := by
  constructor
  · intro h
    refine ⟨?_, h _ [] (List.append_nil _).symm⟩
    rintro before after rfl
    exact h before (after ++ [turn]) (List.append_assoc ..)
  · rintro ⟨hBefore, hLast⟩ before after hSplit
    cases after with
    | nil =>
        rw [List.append_nil] at hSplit
        exact hSplit ▸ hLast
    | cons next after =>
        rcases concat_eq_iff.mp hSplit with ⟨rfl, -, -⟩ | ⟨rest, rfl, -⟩
        · exact hBefore before [] (List.append_nil _).symm
        · exact hBefore before (next :: rest) rfl

theorem fair_nil (n : Nat) : Fair n [] := by
  intro before after hSplit
  obtain ⟨rfl, -⟩ := List.append_eq_nil_iff.mp hSplit.symm
  exact fun _ _ _ _ => Nat.zero_le 1

theorem even_nil (n : Nat) : Even n [] := by
  intro before after hSplit
  cases before <;> cases hSplit

theorem even_pick : Even n (turns ++ [.pick]) ↔ WholeRounds n turns := by
  constructor
  · rintro h before turn after rfl rfl
    exact h before (after ++ [.pick]) (by simp) (by simp)
  · intro h before after hSplit _
    rcases concat_eq_iff.mp hSplit with ⟨-, hTurn, -⟩ | ⟨rest, rfl, -⟩
    · cases hTurn
    · exact h before .reset rest rfl rfl

theorem WholeRounds.even (h : WholeRounds n turns) : Even n turns :=
  fun before after hSplit _ => h before .reset after hSplit rfl

theorem even_reset : Even n (turns ++ [.reset]) ↔ Even n turns := by
  constructor
  · rintro h before after rfl hLater
    exact h before (after ++ [.reset]) (by simp) (List.mem_append_left _ hLater)
  · intro h before after hSplit hLater
    rcases concat_eq_iff.mp hSplit with ⟨-, -, rfl⟩ | ⟨rest, rfl, rfl⟩
    · cases hLater
    · apply h before rest rfl
      simpa using hLater

/-- Between whole rounds the place that comes up is counted by the picks. -/
theorem place_of_wholeRounds (h : WholeRounds n turns) : (tally n turns).place = picks turns % n := by
  induction turns using List.reverseRecOn with
  | nil => simp [tally, picks]
  | append_singleton turns turn ih =>
      obtain ⟨hBefore, hLast⟩ := scheduled_concat.mp h
      rw [tally_concat]
      cases turn with
      | pick =>
          rw [picks_pick]
          show ((tally n turns).place + 1) % n = _
          rw [ih hBefore, Nat.mod_add_mod]
      | reset =>
          rw [picks_reset, Nat.mod_eq_zero_of_dvd (hLast rfl)]
          rfl

/-- How often a place has come up in a number of picks. -/
theorem share_eq (hn : 0 < n) {i : Nat} (hi : i < n) (total : Nat) :
    total.count (fun k => k % n = i) = total / n + if i < total % n then 1 else 0 := by
  have hShare := Nat.count_modEq_card total hn i
  simp only [Nat.ModEq, Nat.mod_eq_of_lt hi] at hShare
  exact hShare

/-- With even restarts each place has its share of the picks. -/
theorem counts_of_even (h : Even n turns) {i : Nat} :
    (tally n turns).counts i = (picks turns).count fun k => k % n = i := by
  induction turns using List.reverseRecOn with
  | nil => simp [tally, picks]
  | append_singleton turns turn ih =>
      rw [tally_concat]
      cases turn with
      | pick =>
          have hRounds := even_pick.mp h
          have hPlace := place_of_wholeRounds hRounds
          rw [picks_pick, Nat.count_succ, ← ih hRounds.even, ← hPlace]
          show Function.update (tally n turns).counts (tally n turns).place _ i = _
          by_cases hSame : i = (tally n turns).place
          · rw [hSame, Function.update_self, if_pos rfl]
          · rw [Function.update_of_ne hSame, if_neg (Ne.symm hSame), Nat.add_zero]
      | reset =>
          rw [picks_reset]
          exact ih (even_reset.mp h)

theorem balanced_of_even (hn : 0 < n) (h : Even n turns) : (tally n turns).Balanced n := by
  intro i hi j hj
  rw [counts_of_even h, counts_of_even h, share_eq hn hi, share_eq hn hj]
  split <;> split <;> omega

/-- After a restart the first place comes up until the next pick. -/
theorem place_of_reset (n : Nat) (before : List Turn) {after : List Turn} (hNone : .pick ∉ after) :
    (tally n (before ++ .reset :: after)).place = 0 ∧ picks (before ++ .reset :: after) = picks before := by
  induction after using List.reverseRecOn with
  | nil =>
      rw [tally_concat, picks_reset]
      exact ⟨rfl, rfl⟩
  | append_singleton after turn ih =>
      rw [List.mem_append, not_or] at hNone
      rw [← List.cons_append, ← List.append_assoc]
      cases turn with
      | pick => exact absurd (List.mem_singleton_self Turn.pick) hNone.2
      | reset =>
          rw [tally_concat, picks_reset]
          exact ⟨rfl, (ih hNone.1).2⟩

/-- A restart within a round gives the first place one more than its share, and
the last place has not had its own. -/
theorem wholeRounds_of_balanced (hn : 0 < n) (hEven : Even n turns)
    (hBalanced : (tally n (turns ++ [.pick])).Balanced n) : WholeRounds n turns := by
  rintro before turn after hSplit rfl
  by_contra hWithin
  have hNone : .pick ∉ after := fun hLater => hWithin (hEven before after hSplit hLater)
  obtain ⟨hPlace, hPicks⟩ := place_of_reset n before hNone
  rw [← hSplit] at hPlace hPicks
  have hRest : 0 < picks turns % n := by
    rw [hPicks]
    exact Nat.emod_pos_of_not_dvd hWithin
  have hSmall := Nat.mod_lt (picks turns) hn
  have hFirst : (tally n (turns ++ [.pick])).counts 0 = picks turns / n + 2 := by
    rw [tally_concat]
    show Function.update (tally n turns).counts (tally n turns).place _ 0 = _
    rw [hPlace, Function.update_self, counts_of_even hEven, share_eq hn hn, if_pos hRest]
  have hLast : (tally n (turns ++ [.pick])).counts (n - 1) = picks turns / n := by
    rw [tally_concat]
    show Function.update (tally n turns).counts (tally n turns).place _ (n - 1) = _
    rw [hPlace, Function.update_of_ne (by omega), counts_of_even hEven, share_eq hn (by omega),
      if_neg (by omega), Nat.add_zero]
  have hBoth := hBalanced 0 hn (n - 1) (by omega)
  omega

/-- The places are handed out fairly exactly when no restart that matters falls
within a round. -/
theorem fair_iff_even (hn : 0 < n) : Fair n turns ↔ Even n turns := by
  induction turns using List.reverseRecOn with
  | nil => exact iff_of_true (fair_nil n) (even_nil n)
  | append_singleton turns turn ih =>
      rw [fair_concat, ih]
      constructor
      · rintro ⟨hEven, hBalanced⟩
        cases turn with
        | pick => exact even_pick.mpr (wholeRounds_of_balanced hn hEven hBalanced)
        | reset => exact even_reset.mpr hEven
      · intro h
        refine ⟨?_, balanced_of_even hn h⟩
        cases turn with
        | pick => exact (even_pick.mp h).even
        | reset => exact even_reset.mp h

end Turns

end Rotation
