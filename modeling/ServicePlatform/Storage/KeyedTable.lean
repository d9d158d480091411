import Mathlib.Data.List.Nodup

/-! A table whose rows are identified by a primary key. The key is read off
the row, and no two rows share it, so inserting a known key has no result.
Rows keep their insertion order, which a query may depend on. -/
namespace Storage

structure KeyedTable (Row : Type*) {Key : Type*} (key : Row → Key) where
  rows : List Row
  nodup : (rows.map key).Nodup

namespace KeyedTable

variable {Row Key : Type*} {key : Row → Key}

def empty : KeyedTable Row key := ⟨[], List.nodup_nil⟩

instance : Membership Row (KeyedTable Row key) := ⟨fun table row => row ∈ table.rows⟩

theorem mem_def {table : KeyedTable Row key} {row : Row} : row ∈ table ↔ row ∈ table.rows := Iff.rfl

@[simp] theorem not_mem_empty (row : Row) : row ∉ (empty : KeyedTable Row key) := by
  simp [mem_def, empty]

theorem eq_of_key {table : KeyedTable Row key} {a b : Row} (ha : a ∈ table) (hb : b ∈ table)
    (h : key a = key b) : a = b :=
  List.inj_on_of_nodup_map table.nodup ha hb h

section Insert

variable [DecidableEq Key]

/-- The primary key constraint rejects a row whose key is taken. -/
def insert (table : KeyedTable Row key) (row : Row) : Option (KeyedTable Row key) :=
  if fresh : key row ∉ table.rows.map key then
    some ⟨table.rows ++ [row], by
      rw [List.map_append, List.nodup_append]
      refine ⟨table.nodup, by simp, ?_⟩
      intro a ha b hb
      simp only [List.map_cons, List.map_nil, List.mem_singleton] at hb
      rintro rfl
      exact fresh (hb ▸ ha)⟩
  else none

theorem insert_eq_some {table table' : KeyedTable Row key} {row : Row}
    (h : table.insert row = some table') :
    (∀ other ∈ table, key other ≠ key row) ∧ table'.rows = table.rows ++ [row] := by
  unfold insert at h
  split at h
  · next fresh =>
      cases h
      refine ⟨?_, rfl⟩
      intro other ho he
      exact fresh (he ▸ List.mem_map_of_mem ho)
  · cases h

theorem mem_insert {table table' : KeyedTable Row key} {row other : Row}
    (h : table.insert row = some table') : other ∈ table' ↔ other ∈ table ∨ other = row := by
  rw [mem_def, (insert_eq_some h).2, mem_def, List.mem_append, List.mem_singleton]

end Insert

section Find

variable [DecidableEq Key]

def find (table : KeyedTable Row key) (k : Key) : Option Row :=
  table.rows.find? fun row => decide (key row = k)

theorem find_eq_some {table : KeyedTable Row key} {k : Key} {row : Row} :
    table.find k = some row ↔ row ∈ table ∧ key row = k := by
  constructor
  · intro h
    exact ⟨List.mem_of_find?_eq_some h, by simpa using List.find?_some h⟩
  · rintro ⟨hm, hk⟩
    cases hf : table.find k with
    | none =>
        have hn := List.find?_eq_none.mp hf row hm
        simp [hk] at hn
    | some other =>
        have ho : other ∈ table := List.mem_of_find?_eq_some hf
        have hok : key other = k := by simpa using List.find?_some hf
        rw [eq_of_key ho hm (hok.trans hk.symm)]

theorem find_of_mem {table : KeyedTable Row key} {row : Row} (h : row ∈ table) :
    table.find (key row) = some row :=
  find_eq_some.mpr ⟨h, rfl⟩

end Find

/-- Rewrite every row in place. The rewriting keeps each row's key. -/
def mapRows (table : KeyedTable Row key) (f : Row → Row) (keeps : ∀ row, key (f row) = key row) :
    KeyedTable Row key where
  rows := table.rows.map f
  nodup := by
    have same : key ∘ f = key := funext keeps
    rw [List.map_map, same]
    exact table.nodup

theorem mem_mapRows {table : KeyedTable Row key} {f : Row → Row}
    {keeps : ∀ row, key (f row) = key row} {row : Row} :
    row ∈ table.mapRows f keeps ↔ ∃ before ∈ table, f before = row := by
  simp [mem_def, mapRows]

end KeyedTable

end Storage
