import Mathlib.Algebra.BigOperators.Group.List.Basic
import Mathlib.Algebra.GroupWithZero.Nat
import Mathlib.Data.List.Induction
import Mathlib.Order.Lattice

/-! Histograms with fixed upper bounds. Each observation is counted in one bucket,
and what is exported are the sums over the buckets up to each bound. -/
namespace Storage

variable {F : Type*} [LinearOrder F]

/-- The counts of the buckets, the last one for what is above all bounds, and the
sum of the observations. -/
structure Histogram (F : Type*) where
  counts : List Nat
  sum : F

namespace Histogram

/-- The first bucket whose bound is not exceeded. -/
def bucketOf (bounds : List F) (x : F) : Nat := bounds.findIdx fun bound => decide (x ≤ bound)

def empty [Zero F] (bounds : List F) : Histogram F := ⟨List.replicate (bounds.length + 1) 0, 0⟩

def observe [Add F] (bounds : List F) (h : Histogram F) (x : F) : Histogram F :=
  ⟨h.counts.modify (bucketOf bounds x) (· + 1), h.sum + x⟩

/-- The counts as they are exported. -/
def cumulative (h : Histogram F) : List Nat := (List.range h.counts.length).map fun i => (h.counts.take (i + 1)).sum

variable {bounds : List F} {xs : List F}

theorem bucketOf_le_length (x : F) : bucketOf bounds x ≤ bounds.length := List.findIdx_le_length

/-- An observation is in one of the first buckets when it is within the last bound
of these. -/
theorem bucketOf_lt_succ (hSorted : bounds.Pairwise (· ≤ ·)) (x : F) {i : Nat} (hi : i < bounds.length) :
    bucketOf bounds x < i + 1 ↔ x ≤ bounds[i] := by
  unfold bucketOf
  constructor
  · intro hLt
    have hFound : bounds.findIdx (fun bound => decide (x ≤ bound)) < bounds.length := by omega
    have hHere : x ≤ bounds[bounds.findIdx fun bound => decide (x ≤ bound)] := by
      simpa using List.findIdx_getElem (w := hFound)
    rcases Nat.lt_or_eq_of_le (Nat.le_of_lt_succ hLt) with hBefore | hSame
    · exact hHere.trans (List.pairwise_iff_getElem.mp hSorted _ _ hFound hi hBefore)
    · simpa [hSame] using hHere
  · intro hWithin
    by_contra hLate
    have hBefore : i < bounds.findIdx fun bound => decide (x ≤ bound) := by omega
    have hNot := List.not_of_lt_findIdx hBefore
    simp [hWithin] at hNot

theorem countP_lt_succ {α : Type*} {xs : List α} (g : α → Nat) (m : Nat) :
    xs.countP (fun x => g x < m + 1) = xs.countP (fun x => g x < m) + xs.countP (fun x => g x = m) := by
  induction xs with
  | nil => rfl
  | cons x xs ih =>
      simp only [List.countP_cons, decide_eq_true_eq, ih]
      split_ifs <;> omega

/-- The first buckets together. -/
theorem sum_countP {α : Type*} {xs : List α} (g : α → Nat) (m : Nat) :
    ((List.range m).map fun i => xs.countP fun x => g x = i).sum = xs.countP fun x => g x < m := by
  induction m with
  | zero => simp
  | succ m ih =>
      rw [List.range_succ, List.map_append, List.sum_append, ih, countP_lt_succ, List.map_singleton, List.sum_singleton]

variable [AddMonoid F]

/-- Each bucket counts its observations. -/
theorem counts_foldl (bounds xs : List F) : (xs.foldl (observe bounds) (empty bounds)).counts =
    (List.range (bounds.length + 1)).map fun i => xs.countP fun x => bucketOf bounds x = i := by
  induction xs using List.reverseRecOn with
  | nil =>
      simp only [List.countP_nil, List.map_const', List.length_range]
      rfl
  | append_singleton xs x ih =>
      rw [List.foldl_append, List.foldl_cons, List.foldl_nil, observe, ih]
      refine List.ext_getElem (by simp) fun i hi _ => ?_
      simp only [List.getElem_modify, List.getElem_map, List.getElem_range, List.countP_append, List.countP_singleton,
        decide_eq_true_eq]
      split
      · rfl
      · rfl

theorem sum_foldl (bounds xs : List F) : (xs.foldl (observe bounds) (empty bounds)).sum = xs.sum := by
  induction xs using List.reverseRecOn with
  | nil => rfl
  | append_singleton xs x ih =>
      rw [List.foldl_append, List.foldl_cons, List.foldl_nil, observe, ih, List.sum_append, List.sum_singleton]

/-- The exported counts say how many observations are within each bound, and how
many there are. -/
theorem cumulative_foldl (hSorted : bounds.Pairwise (· ≤ ·)) (xs : List F) :
    (xs.foldl (observe bounds) (empty bounds)).cumulative =
      bounds.map (fun bound => xs.countP fun x => x ≤ bound) ++ [xs.length] := by
  have hSum : ∀ i ≤ bounds.length, (((List.range (bounds.length + 1)).map fun i => xs.countP fun x =>
      bucketOf bounds x = i).take (i + 1)).sum = xs.countP fun x => bucketOf bounds x < i + 1 := by
    intro i hi
    rw [← List.map_take, List.take_range, Nat.min_eq_left (by omega)]
    exact sum_countP (bucketOf bounds) (i + 1)
  unfold cumulative
  rw [counts_foldl]
  refine List.ext_getElem (by simp) fun i hi _ => ?_
  have hPlace : i ≤ bounds.length := by
    rw [List.length_map, List.length_range, List.length_map, List.length_range] at hi
    omega
  rw [List.getElem_map, List.getElem_range, hSum i hPlace]
  rcases Nat.lt_or_eq_of_le hPlace with hBefore | rfl
  · rw [List.getElem_append_left (by simpa using hBefore), List.getElem_map]
    exact List.countP_congr fun x _ => by simpa using bucketOf_lt_succ hSorted x hBefore
  · rw [List.getElem_append_right (by simp)]
    have hAll : ∀ x ∈ xs, decide (bucketOf bounds x < bounds.length + 1) = true :=
      fun x _ => decide_eq_true (Nat.lt_succ_of_le (bucketOf_le_length x))
    simpa using List.countP_eq_length.mpr hAll

end Histogram

end Storage
