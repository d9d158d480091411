import Mathlib.Logic.Function.Basic
import Mathlib.Order.Defs.LinearOrder
import ServicePlatform.Storage.Dict

/-! Values that are held under a key until some time. A table may forget what
has run out at any moment: while the clock does not go back, no later reader
can tell. What a table shows is compared with leases that nothing forgets. -/
namespace Storage

/-- What each key holds and until when, with nothing forgotten. -/
abbrev Leases (Key Value Time : Type*) := Key → Option (Value × Time)

abbrev LeaseTable (Key Value Time : Type*) := Dict Key (Value × Time)

namespace LeaseTable

variable {Key Value Time : Type*} [LinearOrder Time]

/-- The entries that have not run out. -/
def live (now : Time) (table : LeaseTable Key Value Time) : LeaseTable Key Value Time :=
  table.filter fun entry => now ≤ entry.2.2

theorem mem_live_iff {now : Time} {table : LeaseTable Key Value Time} {entry : Key × Value × Time} :
    entry ∈ live now table ↔ entry ∈ table ∧ now ≤ entry.2.2 := by
  simp [live]

/-- From a time on, a table has what the leases hold. -/
structure Shows (now : Time) (table : LeaseTable Key Value Time) (leases : Leases Key Value Time) : Prop where
  nodup : (table.map Prod.fst).Nodup
  mem_iff : ∀ key value due, now ≤ due → ((key, value, due) ∈ table ↔ leases key = some (value, due))

namespace Shows

variable {now : Time} {table other : LeaseTable Key Value Time} {leases : Leases Key Value Time}

theorem empty (now : Time) : Shows now ([] : LeaseTable Key Value Time) fun _ => none :=
  ⟨List.nodup_nil, by simp⟩

theorem later {time : Time} (h : Shows now table leases) (hLater : now ≤ time) : Shows time table leases :=
  ⟨h.nodup, fun key value due hDue => h.mem_iff key value due (hLater.trans hDue)⟩

/-- Entries that have run out may be dropped. -/
theorem live (h : Shows now table leases) : Shows now (live now table) leases := by
  refine ⟨Dict.nodup_filter h.nodup, fun key value due hDue => ?_⟩
  rw [mem_live_iff, h.mem_iff key value due hDue]
  exact and_iff_left hDue

variable [DecidableEq Key]

theorem grant (h : Shows now table leases) (key : Key) (value : Value) (due : Time) :
    Shows now (Dict.setItem table key (value, due)) (Function.update leases key (some (value, due))) := by
  refine ⟨Dict.nodup_setItem h.nodup, fun key' value' due' hDue => ?_⟩
  rw [Dict.mem_setItem_iff h.nodup, h.mem_iff key' value' due' hDue]
  by_cases hKey : key' = key
  · subst hKey
    rw [Function.update_self]
    simp [eq_comm]
  · rw [Function.update_of_ne hKey]
    simp [hKey]

theorem revoke (h : Shows now table leases) (key : Key) :
    Shows now (Dict.pop table key) (Function.update leases key none) := by
  refine ⟨Dict.nodup_filter h.nodup, fun key' value' due' hDue => ?_⟩
  rw [Dict.mem_pop_iff, h.mem_iff key' value' due' hDue]
  by_cases hKey : key' = key
  · simp [hKey]
  · rw [Function.update_of_ne hKey]
    exact and_iff_left hKey

omit [DecidableEq Key] in
theorem mem_live (h : Shows now table leases) {key : Key} {value : Value} {due : Time} :
    (key, value, due) ∈ LeaseTable.live now table ↔ now ≤ due ∧ leases key = some (value, due) := by
  rw [mem_live_iff, and_comm]
  exact and_congr_right fun hDue => h.mem_iff key value due hDue

end Shows

end LeaseTable

end Storage
