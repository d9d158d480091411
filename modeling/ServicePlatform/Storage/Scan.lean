import Mathlib.Data.List.Basic

/-! A walk over keys that come and go while it goes on. Nothing is promised of the
order or of the pages. A key that is there from the first moment to the last is
found, and a key is found only when it is there. -/
namespace Storage

/-- What a walk has found, and what it still has to find: the keys that were there
when it began and have been there since. -/
structure Scan (Key : Type*) where
  found : List Key
  owed : List Key
  deriving DecidableEq

namespace Scan

variable {Key : Type*}

def begin (present : List Key) : Scan Key := ⟨[], present⟩

/-- A key that is gone is not owed any more. -/
def observe (present : Key → Bool) (scan : Scan Key) : Scan Key :=
  { scan with owed := scan.owed.filter present }

/-- The walk comes to some keys. -/
def page [DecidableEq Key] (keys : List Key) (scan : Scan Key) : Scan Key :=
  ⟨scan.found ++ keys, scan.owed.filter fun key => key ∉ keys⟩

/-- The walk may end. -/
def Complete (scan : Scan Key) : Prop := scan.owed = []

instance [DecidableEq Key] (scan : Scan Key) : Decidable scan.Complete :=
  inferInstanceAs (Decidable (scan.owed = []))

/-- The key was found, or it will be. -/
def Catches (scan : Scan Key) (key : Key) : Prop := key ∈ scan.found ∨ key ∈ scan.owed

variable {scan : Scan Key} {key : Key}

theorem catches_begin {present : List Key} (h : key ∈ present) : (begin present).Catches key := Or.inr h

theorem Catches.observe {present : Key → Bool} (h : scan.Catches key) (hThere : present key = true) :
    (scan.observe present).Catches key := by
  rcases h with hFound | hOwed
  · exact Or.inl hFound
  · exact Or.inr (List.mem_filter.mpr ⟨hOwed, hThere⟩)

theorem Catches.page [DecidableEq Key] (h : scan.Catches key) (keys : List Key) :
    (scan.page keys).Catches key := by
  rcases h with hFound | hOwed
  · exact Or.inl (List.mem_append_left keys hFound)
  · by_cases hKey : key ∈ keys
    · exact Or.inl (List.mem_append_right scan.found hKey)
    · exact Or.inr (List.mem_filter.mpr ⟨hOwed, by simpa using hKey⟩)

/-- What a walk has to find is found at its end. -/
theorem Catches.found (h : scan.Catches key) (hComplete : scan.Complete) : key ∈ scan.found := by
  rcases h with hFound | hOwed
  · exact hFound
  · rw [hComplete] at hOwed
    cases hOwed

end Scan

end Storage
