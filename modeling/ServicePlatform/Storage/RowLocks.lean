import Mathlib.Data.List.Basic
import Mathlib.Data.List.Lattice

/-! Row locks held by open transactions. A key has at most one owner, and an
owner gives up all its locks together when its transaction ends. -/
namespace Storage

abbrev RowLocks (Key Owner : Type*) := Key → Option Owner

namespace RowLocks

variable {Key Owner : Type*}

def free : RowLocks Key Owner := fun _ => none

def acquire [DecidableEq Key] (locks : RowLocks Key Owner) (k : Key) (owner : Owner) :
    RowLocks Key Owner :=
  fun k' => if k' = k then some owner else locks k'

def release [DecidableEq Owner] (locks : RowLocks Key Owner) (owner : Owner) :
    RowLocks Key Owner :=
  fun k => if locks k = some owner then none else locks k

/-- The owner has the lock of every listed key. -/
def Holds (locks : RowLocks Key Owner) (owner : Owner) (keys : List Key) : Prop :=
  ∀ k ∈ keys, locks k = some owner

variable {locks : RowLocks Key Owner} {owner other : Owner} {keys : List Key} {k : Key}

/-- Two transactions never hold locks on a common row. -/
theorem Holds.disjoint {keys' : List Key} (h : Holds locks owner keys)
    (h' : Holds locks other keys') (ne : owner ≠ other) : keys.Disjoint keys' := by
  intro k hk hk'
  exact ne (Option.some.inj ((h k hk).symm.trans (h' k hk')))

theorem Holds.not_mem_of_free (h : Holds locks owner keys) (hFree : locks k = none) : k ∉ keys := by
  intro hk
  rw [h k hk] at hFree
  cases hFree

section Acquire

variable [DecidableEq Key]

@[simp] theorem acquire_self : acquire locks k owner k = some owner := if_pos rfl

/-- Locking a free row disturbs no lock that is held. -/
theorem acquire_held (h : locks k = some owner) {k' : Key} (hFree : locks k' = none) :
    acquire locks k' other k = some owner := by
  rw [acquire, if_neg, h]
  rintro rfl
  rw [h] at hFree
  cases hFree

theorem acquire_owner {k' : Key} {owner' : Owner} (h : acquire locks k owner k' = some owner') :
    k' = k ∧ owner' = owner ∨ locks k' = some owner' := by
  unfold acquire at h
  split at h
  · next hSame => exact Or.inl ⟨hSame, (Option.some.inj h).symm⟩
  · exact Or.inr h

theorem Holds.acquire (h : Holds locks owner keys) (hFree : locks k = none) :
    Holds (locks.acquire k other) owner keys :=
  fun k' hk' => acquire_held (h k' hk') hFree

end Acquire

section Release

variable [DecidableEq Owner]

theorem release_of_owner (h : locks k = some owner) : locks.release owner k = none := if_pos h

theorem release_held (h : locks k = some owner) (ne : owner ≠ other) :
    locks.release other k = some owner := by
  rw [release, if_neg, h]
  rw [h]
  exact fun he => ne (Option.some.inj he)

theorem release_owner (h : locks.release other k = some owner) : locks k = some owner ∧ owner ≠ other := by
  unfold release at h
  split at h
  · cases h
  · next hOther =>
      refine ⟨h, ?_⟩
      rintro rfl
      exact hOther h

theorem Holds.release (h : Holds locks owner keys) (ne : owner ≠ other) :
    Holds (locks.release other) owner keys :=
  fun k hk => release_held (h k hk) ne

end Release

end RowLocks

end Storage
