import ServicePlatform.Transition.Noninterference
import Mathlib.Data.List.Forall2
import Mathlib.Logic.Function.Basic

/-! Tables with typed columns, the statements on them, and the change of a
schema under a running program. A column that is added with a default, or that
may be NULL, is not noticed by statements that do not name it. -/
namespace Storage

open Transition

/-- A column: the values of its type, the default that the server fills in,
whether it may be NULL, and whether its values are unique. -/
structure Column (Name Value Instant : Type*) where
  name : Name
  admits : Value → Bool
  default : Option (Instant → Value)
  nullable : Bool
  unique : Bool

/-- A row. NULL is `none`, and so is a column that the table does not have. -/
abbrev Record (Name Value : Type*) := Name → Option Value

structure Relation (Name Value Instant : Type*) where
  columns : List (Column Name Value Instant)
  rows : List (Record Name Value)

/-- A condition on some columns, all of which have to hold. -/
abbrev Condition (Name Value : Type*) := List (Name × (Option Value → Bool))

inductive Statement (Name Value : Type*) where
  | insert (values : List (Name × Option Value))
  | select (names : List Name) (condition : Condition Name Value)
  | update (values : List (Name × Option Value)) (condition : Condition Name Value)
  | delete (condition : Condition Name Value)

/-- The rows of a query, or the number of rows that were written. -/
inductive Reply (Value : Type*) where
  | rows (rows : List (List (Option Value)))
  | count (n : Nat)

variable {Name Value Instant : Type*}

namespace Column

def accepts (column : Column Name Value Instant) : Option Value → Bool
  | none => column.nullable
  | some value => column.admits value

/-- The value of a column that an insert does not name. -/
def fill (column : Column Name Value Instant) (now : Instant) : Option Value :=
  column.default.map fun default => default now

/-- Rows that do not name the column can be inserted. -/
def Optional (column : Column Name Value Instant) : Prop := ∀ now, column.accepts (column.fill now) = true

end Column

namespace Condition

def holds (condition : Condition Name Value) (row : Record Name Value) : Bool :=
  condition.all fun test => test.2 (row test.1)

end Condition

section Forget

variable [DecidableEq Name]

/-- The row without the value of a column. -/
def Record.forget (name : Name) (row : Record Name Value) : Record Name Value :=
  fun other => if other = name then none else row other

/-- The row with new values. -/
def Record.assign (values : List (Name × Option Value)) (row : Record Name Value) : Record Name Value :=
  fun name => (values.lookup name).getD (row name)

/-- The values for the other columns. -/
def forgetValue {α : Type*} (name : Name) (values : List (Name × α)) : List (Name × α) :=
  values.filter fun value => value.1 ≠ name

theorem lookup_forgetValue {α : Type*} {name other : Name} (values : List (Name × α)) (h : other ≠ name) :
    (forgetValue name values).lookup other = values.lookup other := by
  induction values with
  | nil => rfl
  | cons value values ih =>
      unfold forgetValue at ih ⊢
      by_cases hHere : value.1 = name
      · have hOther : (other == value.1) = false := by
          rw [hHere]
          simpa using h
        rw [List.filter_cons_of_neg (by simpa using hHere), ih, List.lookup_cons, hOther]
      · rw [List.filter_cons_of_pos (by simpa using hHere), List.lookup_cons, List.lookup_cons, ih]

theorem forget_assign {name : Name} (values : List (Name × Option Value)) (row : Record Name Value) :
    (row.assign values).forget name = ((row.forget name).assign (forgetValue name values)).forget name := by
  funext other
  by_cases h : other = name
  · simp [Record.forget, h]
  · simp [Record.forget, Record.assign, h, lookup_forgetValue values h]

/-- A condition on other columns. -/
theorem holds_forget {name : Name} {condition : Condition Name Value} (h : name ∉ condition.map Prod.fst)
    (row : Record Name Value) : condition.holds (row.forget name) = condition.holds row := by
  unfold Condition.holds
  rw [Bool.eq_iff_iff, List.all_eq_true, List.all_eq_true]
  refine forall₂_congr fun test hTest => ?_
  have hOther : test.1 ≠ name := fun he => h (he ▸ List.mem_map_of_mem hTest)
  simp [Record.forget, hOther]

end Forget

namespace Relation

variable [DecidableEq Name]

def names (r : Relation Name Value Instant) : List Name := r.columns.map Column.name

/-- All the names are columns of the table. -/
def known (r : Relation Name Value Instant) (names : List Name) : Bool := names.all fun name => name ∈ r.names

/-- The row that an insert makes: the values it names, and defaults. -/
def inserted (r : Relation Name Value Instant) (values : List (Name × Option Value)) (now : Instant) :
    Record Name Value :=
  fun name => (values.lookup name).getD
    ((r.columns.find? fun column => column.name = name).bind fun column => column.fill now)

/-- `DROP COLUMN`. -/
def dropColumn (name : Name) (r : Relation Name Value Instant) : Relation Name Value Instant where
  columns := r.columns.filter fun column => column.name ≠ name
  rows := r.rows.map (Record.forget name)

/-- `ADD COLUMN`: the rows that exist get the default. -/
def addColumn (column : Column Name Value Instant) (now : Instant) (r : Relation Name Value Instant) :
    Option (Relation Name Value Instant) :=
  if column.name ∈ r.names then none
  else if r.rows.isEmpty || column.accepts (column.fill now) then
    some ⟨r.columns ++ [column], r.rows.map fun row => Function.update row column.name (column.fill now)⟩
  else none

section Exec

variable [DecidableEq Value]

/-- The rows have values that their columns accept, and no value of a unique
column twice. -/
def admissible (r : Relation Name Value Instant) (rows : List (Record Name Value)) : Bool :=
  (rows.all fun row => r.columns.all fun column => column.accepts (row column.name)) &&
    decide (rows.Pairwise fun row other => ∀ column ∈ r.columns, column.unique = true →
      row column.name = none ∨ row column.name ≠ other column.name)

def write (r : Relation Name Value Instant) (rows : List (Record Name Value)) (n : Nat) :
    Option (Relation Name Value Instant × Reply Value) :=
  if r.admissible rows then some ({ r with rows := rows }, .count n) else none

/-- A statement at some time. It has no result when the server rejects it. -/
def exec (r : Relation Name Value Instant) (now : Instant) :
    Statement Name Value → Option (Relation Name Value Instant × Reply Value)
  | .insert values =>
      if r.known (values.map Prod.fst) then r.write (r.rows ++ [r.inserted values now]) 1 else none
  | .select names condition =>
      if r.known names && r.known (condition.map Prod.fst) then
        some (r, .rows ((r.rows.filter condition.holds).map fun row => names.map row))
      else none
  | .update values condition =>
      if r.known (values.map Prod.fst) && r.known (condition.map Prod.fst) then
        r.write (r.rows.map fun row => if condition.holds row then row.assign values else row)
          (r.rows.countP condition.holds)
      else none
  | .delete condition =>
      if r.known (condition.map Prod.fst) then
        r.write (r.rows.filter fun row => !condition.holds row) (r.rows.countP condition.holds)
      else none

end Exec

end Relation

namespace Statement

variable [DecidableEq Name]

/-- The columns that a statement names. -/
def mentions : Statement Name Value → List Name
  | .insert values => values.map Prod.fst
  | .select names condition => names ++ condition.map Prod.fst
  | .update values condition => values.map Prod.fst ++ condition.map Prod.fst
  | .delete condition => condition.map Prod.fst

/-- The statement of a program that does not know the column. -/
def forget (name : Name) : Statement Name Value → Statement Name Value
  | .insert values => .insert (forgetValue name values)
  | .select names condition => .select (names.filter fun other => other ≠ name) condition
  | .update values condition => .update (forgetValue name values) condition
  | .delete condition => .delete condition

/-- A statement that may write the new column, with values it accepts, and read
it, but looks for no rows by it. -/
def Tame (column : Column Name Value Instant) : Statement Name Value → Prop
  | .insert values => ∀ value, values.lookup column.name = some value → column.accepts value = true
  | .select _ condition => column.name ∉ condition.map Prod.fst
  | .update values condition => column.name ∉ condition.map Prod.fst ∧
      ∀ value, values.lookup column.name = some value → column.accepts value = true
  | .delete condition => column.name ∉ condition.map Prod.fst

/-- A program that does not know the column has only tame statements. -/
theorem tame_of_unmentioned {column : Column Name Value Instant} {statement : Statement Name Value}
    (h : column.name ∉ statement.mentions) : statement.Tame column := by
  have unset : ∀ values : List (Name × Option Value), column.name ∉ values.map Prod.fst →
      ∀ value, values.lookup column.name = some value → column.accepts value = true := by
    intro values hNone value hLookup
    obtain ⟨before, after, hSplit, -⟩ := List.lookup_eq_some_iff.mp hLookup
    rw [hSplit] at hNone
    simp at hNone
  cases statement with
  | insert values => exact unset values h
  | select names condition => exact fun hMem => h (List.mem_append_right _ hMem)
  | update values condition =>
      exact ⟨fun hMem => h (List.mem_append_right _ hMem), unset values fun hMem => h (List.mem_append_left _ hMem)⟩
  | delete condition => exact h

end Statement

/-- The table has the column as its last one, and all rows have a value of it
that it accepts. Rows that do not name it can be inserted. -/
structure Expanded [DecidableEq Name] (column : Column Name Value Instant) (r : Relation Name Value Instant) :
    Prop where
  last : ∃ columns, r.columns = columns ++ [column] ∧ column.name ∉ columns.map Column.name
  plain : column.unique = false
  optional : column.Optional
  filled : ∀ row ∈ r.rows, column.accepts (row column.name) = true

namespace Expanded

variable [DecidableEq Name] {column : Column Name Value Instant} {r : Relation Name Value Instant}

theorem dropColumn_eq {columns : List (Column Name Value Instant)} (hLast : r.columns = columns ++ [column])
    (hNew : column.name ∉ columns.map Column.name) : (r.dropColumn column.name).columns = columns := by
  have hOthers : columns.filter (fun other => other.name ≠ column.name) = columns := by
    refine List.filter_eq_self.mpr fun other hOther => ?_
    simp only [ne_eq, decide_eq_true_eq]
    exact fun he => hNew (he ▸ List.mem_map_of_mem hOther)
  rw [Relation.dropColumn, hLast, List.filter_append, hOthers]
  simp

/-- The names that are known without the column. -/
theorem known_dropColumn (h : Expanded column r) {names : List Name} (hOther : column.name ∉ names) :
    (r.dropColumn column.name).known names = r.known names := by
  obtain ⟨columns, hLast, hNew⟩ := h.last
  unfold Relation.known Relation.names
  rw [dropColumn_eq hLast hNew, hLast, Bool.eq_iff_iff, List.all_eq_true, List.all_eq_true]
  refine forall₂_congr fun name hName => ?_
  have hNe : name ≠ column.name := fun he => hOther (he ▸ hName)
  simp [hNe]

theorem known_forget (h : Expanded column r) (names : List Name) :
    (r.dropColumn column.name).known (names.filter fun name => name ≠ column.name) = r.known names := by
  rw [h.known_dropColumn (by simp)]
  obtain ⟨columns, hLast, -⟩ := h.last
  unfold Relation.known Relation.names
  rw [hLast, Bool.eq_iff_iff, List.all_eq_true, List.all_eq_true]
  constructor
  · intro hAll name hName
    by_cases hSame : name = column.name
    · simp [hSame]
    · exact hAll name (List.mem_filter.mpr ⟨hName, by simpa using hSame⟩)
  · exact fun hAll name hName => hAll name (List.mem_filter.mp hName).1

theorem map_forgetValue {α : Type*} (values : List (Name × α)) (name : Name) :
    (forgetValue name values).map Prod.fst = (values.map Prod.fst).filter fun other => other ≠ name := by
  unfold forgetValue
  rw [List.filter_map]
  rfl

section Rows

variable [DecidableEq Value]

/-- Rows with acceptable values of the column are rows without it. -/
theorem admissible_forget (h : Expanded column r) {rows : List (Record Name Value)}
    (hFilled : ∀ row ∈ rows, column.accepts (row column.name) = true) :
    (r.dropColumn column.name).admissible (rows.map (Record.forget column.name)) = r.admissible rows := by
  obtain ⟨columns, hLast, hNew⟩ := h.last
  have hOther : ∀ other ∈ columns, other.name ≠ column.name :=
    fun other hOther he => hNew (he ▸ List.mem_map_of_mem hOther)
  have hForget : ∀ (row : Record Name Value), ∀ other ∈ columns, row.forget column.name other.name = row other.name := by
    intro row other hMem
    rw [Record.forget, if_neg (hOther other hMem)]
  unfold Relation.admissible
  rw [dropColumn_eq hLast hNew, hLast]
  congr 1
  · rw [Bool.eq_iff_iff]
    simp only [List.all_map, List.all_eq_true, List.all_append, Function.comp_apply, Bool.and_eq_true, List.all_cons,
      List.all_nil, Bool.and_true]
    refine forall₂_congr fun row hRow => ?_
    rw [hFilled row hRow, and_iff_left rfl]
    refine forall₂_congr fun other hMem => ?_
    rw [hForget row other hMem]
  · rw [decide_eq_decide, List.pairwise_map]
    refine ⟨fun hAll => hAll.imp ?_, fun hAll => hAll.imp ?_⟩
    · intro row other hPair found hFound hUnique
      rcases List.mem_append.mp hFound with hMem | hMem
      · have hDistinct := hPair found hMem hUnique
        rw [hForget row found hMem, hForget other found hMem] at hDistinct
        exact hDistinct
      · rw [List.mem_singleton.mp hMem, h.plain] at hUnique
        cases hUnique
    · intro row other hPair found hFound hUnique
      rw [hForget row found hFound, hForget other found hFound]
      exact hPair found (List.mem_append_left _ hFound) hUnique

/-- What a write does without the column. -/
theorem write_forget (h : Expanded column r) {rows : List (Record Name Value)} {n : Nat}
    (hFilled : ∀ row ∈ rows, column.accepts (row column.name) = true) :
    (∀ t reply, r.write rows n = some (t, reply) → Expanded column t) ∧
      (r.dropColumn column.name).write (rows.map (Record.forget column.name)) n =
        (r.write rows n).map fun result => (result.1.dropColumn column.name, result.2) := by
  unfold Relation.write
  rw [h.admissible_forget hFilled]
  split
  · refine ⟨?_, rfl⟩
    rintro t reply hSome
    cases hSome
    exact ⟨h.last, h.plain, h.optional, hFilled⟩
  · exact ⟨by simp, rfl⟩

end Rows

/-- The row that an insert makes has an acceptable value of the column. -/
theorem inserted_filled (h : Expanded column r) {values : List (Name × Option Value)} (now : Instant)
    (hTame : ∀ value, values.lookup column.name = some value → column.accepts value = true) :
    column.accepts (r.inserted values now column.name) = true := by
  obtain ⟨columns, hLast, hNew⟩ := h.last
  unfold Relation.inserted
  cases hLookup : values.lookup column.name with
  | some value => exact hTame value hLookup
  | none =>
      have hFirst : columns.find? (fun other => other.name = column.name) = none := by
        rw [List.find?_eq_none]
        intro other hOther
        simpa using fun he : other.name = column.name => hNew (he ▸ List.mem_map_of_mem hOther)
      have hFind : r.columns.find? (fun other => other.name = column.name) = some column := by
        rw [hLast, List.find?_append, hFirst, Option.none_or]
        simp
      rw [hFind, Option.getD_none, Option.bind_some]
      exact h.optional now

theorem inserted_forget (h : Expanded column r) (values : List (Name × Option Value)) (now : Instant) :
    (r.inserted values now).forget column.name =
      (r.dropColumn column.name).inserted (forgetValue column.name values) now := by
  obtain ⟨columns, hLast, hNew⟩ := h.last
  funext name
  unfold Relation.inserted
  rw [dropColumn_eq hLast hNew, hLast]
  by_cases hSame : name = column.name
  · subst hSame
    have hLookup : (forgetValue column.name values).lookup column.name = none := by
      rw [List.lookup_eq_none_iff]
      intro value hValue
      have hOther := (List.mem_filter.mp hValue).2
      simpa using Ne.symm (by simpa using hOther : value.1 ≠ column.name)
    have hFind : columns.find? (fun other => other.name = column.name) = none := by
      rw [List.find?_eq_none]
      intro other hOther
      simpa using fun he : other.name = column.name => hNew (he ▸ List.mem_map_of_mem hOther)
    rw [Record.forget, if_pos rfl, hLookup, hFind]
    rfl
  · have hFind : [column].find? (fun other => other.name = name) = none := by
      simp [Ne.symm hSame]
    rw [Record.forget, if_neg hSame, lookup_forgetValue values hSame, List.find?_append, hFind, Option.or_none]

/-- What a statement does is what it does without the column, and the reply is
the same when the statement does not name the column. -/
def Unnoticed (column : Column Name Value Instant) (mentions : List Name) :
    Option (Relation Name Value Instant × Reply Value) → Option (Relation Name Value Instant × Reply Value) → Prop :=
  Option.Rel fun result known => known.1 = result.1.dropColumn column.name ∧
    (column.name ∉ mentions → known.2 = result.2)

theorem unnoticed_map {found : Option (Relation Name Value Instant × Reply Value)} {mentions : List Name} :
    Unnoticed column mentions found (found.map fun result => (result.1.dropColumn column.name, result.2)) := by
  cases found with
  | none => exact Option.Rel.none
  | some result => exact Option.Rel.some ⟨rfl, fun _ => rfl⟩

theorem rows_dropColumn (r : Relation Name Value Instant) (name : Name) :
    (r.dropColumn name).rows = r.rows.map (Record.forget name) := rfl

theorem countP_forget {condition : Condition Name Value} (hOther : column.name ∉ condition.map Prod.fst) :
    (r.rows.map (Record.forget column.name)).countP condition.holds = r.rows.countP condition.holds := by
  rw [List.countP_map]
  exact List.countP_congr fun row _ => by rw [Function.comp, holds_forget hOther]

/-- A changed row without the column is the row without it, changed. -/
theorem forget_changed {values : List (Name × Option Value)} (row : Record Name Value) :
    (row.assign values).forget column.name = (row.forget column.name).assign (forgetValue column.name values) := by
  rw [forget_assign]
  funext name
  by_cases hName : name = column.name
  · subst hName
    have hLookup : (forgetValue column.name values).lookup column.name = none := by
      rw [List.lookup_eq_none_iff]
      intro value hValue
      have hNe := (List.mem_filter.mp hValue).2
      simpa using Ne.symm (by simpa using hNe : value.1 ≠ column.name)
    simp [Record.forget, Record.assign, hLookup]
  · simp [Record.forget, hName]

section Statements

variable [DecidableEq Value]

/-- The new table, if there is one, and what happens without the column. -/
theorem insert_forget (h : Expanded column r) {values : List (Name × Option Value)} (now : Instant)
    (hTame : (Statement.insert values).Tame column) :
    (∀ t reply, r.exec now (.insert values) = some (t, reply) → Expanded column t) ∧
      Unnoticed column (values.map Prod.fst) (r.exec now (.insert values))
        ((r.dropColumn column.name).exec now (.insert (forgetValue column.name values))) := by
  have hFilled : ∀ row ∈ r.rows ++ [r.inserted values now], column.accepts (row column.name) = true := by
    intro row hRow
    rcases List.mem_append.mp hRow with hOld | hNew
    · exact h.filled row hOld
    · rw [List.mem_singleton.mp hNew]
      exact h.inserted_filled now hTame
  obtain ⟨hKeeps, hWrite⟩ := h.write_forget (n := 1) hFilled
  rw [List.map_append, List.map_singleton, h.inserted_forget] at hWrite
  simp only [Relation.exec, map_forgetValue, h.known_forget]
  split
  · rw [rows_dropColumn, hWrite]
    exact ⟨hKeeps, unnoticed_map⟩
  · exact ⟨by simp, Option.Rel.none⟩

theorem select_forget (h : Expanded column r) {names : List Name} {condition : Condition Name Value} (now : Instant)
    (hTame : (Statement.select names condition).Tame column) :
    (∀ t reply, r.exec now (.select names condition) = some (t, reply) → Expanded column t) ∧
      Unnoticed column (names ++ condition.map Prod.fst) (r.exec now (.select names condition))
        ((r.dropColumn column.name).exec now (.select (names.filter fun name => name ≠ column.name) condition)) := by
  have hHolds : (r.rows.map (Record.forget column.name)).filter condition.holds =
      (r.rows.filter condition.holds).map (Record.forget column.name) := by
    rw [List.filter_map]
    refine congrArg _ (List.filter_congr fun row _ => ?_)
    exact holds_forget hTame row
  simp only [Relation.exec, h.known_forget, h.known_dropColumn hTame]
  split
  · refine ⟨fun t reply hSome => ?_, Option.Rel.some ⟨rfl, fun hOld => ?_⟩⟩
    · cases hSome
      exact h
    · have hName : ∀ name ∈ names, name ≠ column.name := by
        rintro name hMem rfl
        exact hOld (List.mem_append_left _ hMem)
      have hNames : names.filter (fun name => name ≠ column.name) = names := by
        refine List.filter_eq_self.mpr fun name hMem => ?_
        simpa using hName name hMem
      have hRow : ∀ row : Record Name Value, names.map (row.forget column.name) = names.map row := by
        intro row
        refine List.map_congr_left fun name hMem => ?_
        rw [Record.forget, if_neg (hName name hMem)]
      rw [rows_dropColumn, hHolds, hNames, List.map_map]
      exact congrArg Reply.rows (List.map_congr_left fun row _ => hRow row)
  · exact ⟨by simp, Option.Rel.none⟩

theorem update_forget (h : Expanded column r) {values : List (Name × Option Value)}
    {condition : Condition Name Value} (now : Instant) (hTame : (Statement.update values condition).Tame column) :
    (∀ t reply, r.exec now (.update values condition) = some (t, reply) → Expanded column t) ∧
      Unnoticed column (values.map Prod.fst ++ condition.map Prod.fst) (r.exec now (.update values condition))
        ((r.dropColumn column.name).exec now (.update (forgetValue column.name values) condition)) := by
  obtain ⟨hOther, hValues⟩ := hTame
  have hFilled : ∀ row ∈ r.rows.map (fun row => if condition.holds row then row.assign values else row),
      column.accepts (row column.name) = true := by
    intro row hRow
    obtain ⟨before, hBefore, rfl⟩ := List.mem_map.mp hRow
    split
    · unfold Record.assign
      cases hLookup : values.lookup column.name with
      | none => exact h.filled before hBefore
      | some value => exact hValues value hLookup
    · exact h.filled before hBefore
  obtain ⟨hKeeps, hWrite⟩ := h.write_forget (n := r.rows.countP condition.holds) hFilled
  have hRows : (r.rows.map fun row => if condition.holds row then row.assign values else row).map
      (Record.forget column.name) = (r.rows.map (Record.forget column.name)).map fun row =>
        if condition.holds row then row.assign (forgetValue column.name values) else row := by
    rw [List.map_map, List.map_map]
    refine List.map_congr_left fun row _ => ?_
    simp only [Function.comp_apply, holds_forget hOther]
    split
    · exact forget_changed row
    · rfl
  rw [hRows] at hWrite
  simp only [Relation.exec, map_forgetValue, h.known_forget, h.known_dropColumn hOther]
  split
  · rw [rows_dropColumn, countP_forget hOther, hWrite]
    exact ⟨hKeeps, unnoticed_map⟩
  · exact ⟨by simp, Option.Rel.none⟩

theorem delete_forget (h : Expanded column r) {condition : Condition Name Value} (now : Instant)
    (hTame : (Statement.delete condition).Tame column) :
    (∀ t reply, r.exec now (.delete condition) = some (t, reply) → Expanded column t) ∧
      Unnoticed column (condition.map Prod.fst) (r.exec now (.delete condition))
        ((r.dropColumn column.name).exec now (.delete condition)) := by
  have hFilled : ∀ row ∈ r.rows.filter (fun row => !condition.holds row), column.accepts (row column.name) = true :=
    fun row hRow => h.filled row (List.mem_filter.mp hRow).1
  obtain ⟨hKeeps, hWrite⟩ := h.write_forget (n := r.rows.countP condition.holds) hFilled
  have hRows : (r.rows.filter fun row => !condition.holds row).map (Record.forget column.name) =
      (r.rows.map (Record.forget column.name)).filter fun row => !condition.holds row := by
    rw [List.filter_map]
    refine congrArg _ (List.filter_congr fun row _ => ?_)
    rw [Function.comp, holds_forget hTame]
  rw [hRows] at hWrite
  simp only [Relation.exec, h.known_dropColumn hTame]
  split
  · rw [rows_dropColumn, countP_forget hTame, hWrite]
    exact ⟨hKeeps, unnoticed_map⟩
  · exact ⟨by simp, Option.Rel.none⟩

/-- The table does to a tame statement what the table without the column does
to the statement that does not name it. -/
theorem exec_forget (h : Expanded column r) {statement : Statement Name Value} (now : Instant)
    (hTame : statement.Tame column) :
    (∀ t reply, r.exec now statement = some (t, reply) → Expanded column t) ∧
      Unnoticed column statement.mentions (r.exec now statement)
        ((r.dropColumn column.name).exec now (statement.forget column.name)) := by
  cases statement with
  | insert values => exact h.insert_forget now hTame
  | select names condition => exact h.select_forget now hTame
  | update values condition => exact h.update_forget now hTame
  | delete condition => exact h.delete_forget now hTame

end Statements

/-- A column that rows need not name can be added to any table that does not
have it, and without it the table is as it was. -/
theorem of_addColumn (now : Instant) (hNew : column.name ∉ r.names) (hPlain : column.unique = false)
    (hOptional : column.Optional) (hRows : ∀ row ∈ r.rows, row column.name = none) :
    ∃ t, r.addColumn column now = some t ∧ Expanded column t ∧ t.dropColumn column.name = r := by
  have hFits : (r.rows.isEmpty || column.accepts (column.fill now)) = true := by
    rw [hOptional now, Bool.or_true]
  refine ⟨_, by rw [Relation.addColumn, if_neg hNew, if_pos hFits], ⟨⟨r.columns, rfl, hNew⟩, hPlain, hOptional, ?_⟩, ?_⟩
  · intro row hRow
    obtain ⟨before, -, rfl⟩ := List.mem_map.mp hRow
    rw [Function.update_self]
    exact hOptional now
  · have hColumns := dropColumn_eq (r := ⟨r.columns ++ [column],
      r.rows.map fun row => Function.update row column.name (column.fill now)⟩) rfl hNew
    have hBack : (r.rows.map fun row => Function.update row column.name (column.fill now)).map
        (Record.forget column.name) = r.rows := by
      rw [List.map_map]
      refine (List.map_congr_left fun row hRow => ?_).trans (List.map_id r.rows)
      funext name
      by_cases hName : name = column.name
      · subst hName
        simp [Record.forget, hRows row hRow]
      · simp [Record.forget, hName, Function.update_of_ne]
    exact congrArg₂ Relation.mk hColumns hBack

end Expanded

/-- A table with these columns, and with values of no others. -/
structure Confined (columns : List (Column Name Value Instant)) (r : Relation Name Value Instant) : Prop where
  same : r.columns = columns
  rows : ∀ row ∈ r.rows, ∀ name, name ∉ columns.map Column.name → row name = none

namespace Confined

variable {columns : List (Column Name Value Instant)} {r t : Relation Name Value Instant}

theorem write [DecidableEq Value] (h : Confined columns r) {rows : List (Record Name Value)} {n : Nat} {reply : Reply Value}
    (hRows : ∀ row ∈ rows, ∀ name, name ∉ columns.map Column.name → row name = none)
    (hWrite : r.write rows n = some (t, reply)) : Confined columns t := by
  unfold Relation.write at hWrite
  split at hWrite
  · cases hWrite
    exact ⟨h.same, hRows⟩
  · cases hWrite

variable [DecidableEq Name]

/-- Values that can be written are values of columns. -/
theorem lookup_none (h : Confined columns r) {values : List (Name × Option Value)}
    (hKnown : r.known (values.map Prod.fst) = true) {name : Name} (hOther : name ∉ columns.map Column.name) :
    values.lookup name = none := by
  rw [List.lookup_eq_none_iff]
  intro value hValue
  have hName := List.all_eq_true.mp hKnown value.1 (List.mem_map_of_mem hValue)
  rw [decide_eq_true_eq, Relation.names, h.same] at hName
  have hNe : name ≠ value.1 := fun he => hOther (he ▸ hName)
  simpa using hNe

/-- No statement changes the columns. -/
theorem exec [DecidableEq Value] (h : Confined columns r) {now : Instant} {statement : Statement Name Value} {reply : Reply Value}
    (hExec : r.exec now statement = some (t, reply)) : Confined columns t := by
  cases statement with
  | insert values =>
      simp only [Relation.exec] at hExec
      split at hExec
      · next hKnown =>
          refine h.write (fun row hRow name hOther => ?_) hExec
          rcases List.mem_append.mp hRow with hOld | hNew
          · exact h.rows row hOld name hOther
          · have hFind : r.columns.find? (fun column => column.name = name) = none := by
              rw [h.same, List.find?_eq_none]
              intro column hColumn
              simpa using fun he : column.name = name => hOther (he ▸ List.mem_map_of_mem hColumn)
            rw [List.mem_singleton.mp hNew, Relation.inserted, h.lookup_none hKnown hOther, hFind]
            rfl
      · cases hExec
  | select names condition =>
      simp only [Relation.exec] at hExec
      split at hExec
      · cases hExec
        exact h
      · cases hExec
  | update values condition =>
      simp only [Relation.exec] at hExec
      split at hExec
      · next hKnown =>
          refine h.write (fun row hRow name hOther => ?_) hExec
          obtain ⟨before, hBefore, rfl⟩ := List.mem_map.mp hRow
          split
          · rw [Record.assign, h.lookup_none (Bool.and_eq_true_iff.mp hKnown).1 hOther, Option.getD_none]
            exact h.rows before hBefore name hOther
          · exact h.rows before hBefore name hOther
      · cases hExec
  | delete condition =>
      simp only [Relation.exec] at hExec
      split at hExec
      · exact h.write (fun row hRow => h.rows row (List.mem_filter.mp hRow).1) hExec
      · cases hExec

end Confined

/-- The tables of a database, by name. -/
abbrev Database (Table Name Value Instant : Type*) := Table → Option (Relation Name Value Instant)

structure Query (Table Name Value Instant : Type*) where
  table : Table
  now : Instant
  statement : Statement Name Value

namespace Database

variable {Table : Type*} [DecidableEq Table] [DecidableEq Name] [DecidableEq Value]

/-- The database after a statement, and its reply. A statement that is rejected
changes nothing. -/
def step (db : Database Table Name Value Instant) (query : Query Table Name Value Instant) :
    Database Table Name Value Instant × Option (Reply Value) :=
  match (db query.table).bind fun r => r.exec query.now query.statement with
  | some (t, reply) => (Function.update db query.table (some t), some reply)
  | none => (db, none)

def after (db : Database Table Name Value Instant) (queries : List (Query Table Name Value Instant)) :
    Database Table Name Value Instant :=
  queries.foldl (fun db query => (db.step query).1) db

def dropColumn (table : Table) (name : Name) (db : Database Table Name Value Instant) :
    Database Table Name Value Instant :=
  Function.update db table ((db table).map (Relation.dropColumn name))

variable {table : Table} {column : Column Name Value Instant} {db : Database Table Name Value Instant}

/-- The table of the database has the column. -/
def Has (table : Table) (column : Column Name Value Instant) (db : Database Table Name Value Instant) : Prop :=
  ∃ r, db table = some r ∧ Expanded column r

end Database

namespace Query

variable {Table : Type*} [DecidableEq Table] [DecidableEq Name]

def forget (table : Table) (name : Name) (query : Query Table Name Value Instant) : Query Table Name Value Instant :=
  if query.table = table then { query with statement := query.statement.forget name } else query

/-- The program that sends the query may not know the column. -/
def Old (table : Table) (column : Column Name Value Instant) (query : Query Table Name Value Instant) : Prop :=
  query.table = table → column.name ∉ query.statement.mentions

def Tame (table : Table) (column : Column Name Value Instant) (query : Query Table Name Value Instant) : Prop :=
  query.table = table → query.statement.Tame column

end Query

namespace Database

variable {Table : Type*} [DecidableEq Table] [DecidableEq Name] [DecidableEq Value]
  {table : Table} {column : Column Name Value Instant} {db : Database Table Name Value Instant}
  {query : Query Table Name Value Instant}

/-- One statement, with the column and without it. -/
theorem step_forget (h : db.Has table column) (hTame : query.Tame table column) :
    (db.step query).1.Has table column ∧
      ((db.dropColumn table column.name).step (query.forget table column.name)).1 =
        (db.step query).1.dropColumn table column.name ∧
      (query.Old table column → ((db.dropColumn table column.name).step (query.forget table column.name)).2 =
        (db.step query).2) := by
  obtain ⟨r, hTable, hExpanded⟩ := h
  by_cases hHere : query.table = table
  · obtain ⟨hKeeps, hRel⟩ := hExpanded.exec_forget query.now (hTame hHere)
    have hDropped : db.dropColumn table column.name table = some (r.dropColumn column.name) := by
      rw [dropColumn, Function.update_self, hTable, Option.map_some]
    have hForget : query.forget table column.name = { query with statement := query.statement.forget column.name } :=
      if_pos hHere
    unfold step
    rw [hForget]
    simp only [hHere, hTable, hDropped, Option.bind_some]
    generalize r.exec query.now query.statement = found at hKeeps hRel ⊢
    generalize (r.dropColumn column.name).exec query.now (query.statement.forget column.name) = known at hRel ⊢
    cases hRel with
    | none => exact ⟨⟨r, hTable, hExpanded⟩, rfl, fun _ => rfl⟩
    | @some result known hSame =>
        refine ⟨⟨result.1, Function.update_self .., hKeeps result.1 result.2 rfl⟩, ?_, fun hOld => ?_⟩
        · dsimp only
          rw [hSame.1, dropColumn, dropColumn, Function.update_self, Function.update_idem, Function.update_idem,
            Option.map_some]
        · exact congrArg some (hSame.2 (hOld hHere))
  · have hForget : query.forget table column.name = query := if_neg hHere
    have hOther : db.dropColumn table column.name query.table = db query.table := Function.update_of_ne hHere _ _
    unfold step
    rw [hForget, hOther]
    cases hFound : (db query.table).bind fun r => r.exec query.now query.statement with
    | none => exact ⟨⟨r, hTable, hExpanded⟩, rfl, fun _ => rfl⟩
    | some result =>
        refine ⟨⟨r, (Function.update_of_ne (Ne.symm hHere) _ _).trans hTable, hExpanded⟩, ?_, fun _ => rfl⟩
        dsimp only
        unfold dropColumn
        rw [Function.update_comm hHere, Function.update_of_ne (Ne.symm hHere)]

/-- A table keeps its columns whatever statements are made. -/
theorem confined_after {columns : List (Column Name Value Instant)} {queries : List (Query Table Name Value Instant)}
    {r : Relation Name Value Instant} (hTable : db table = some r) (h : Confined columns r) :
    ∃ t, db.after queries table = some t ∧ Confined columns t := by
  induction queries generalizing db r with
  | nil => exact ⟨r, hTable, h⟩
  | cons query queries ih =>
      have hNext : ∃ t, (db.step query).1 table = some t ∧ Confined columns t := by
        unfold step
        cases hFound : (db query.table).bind fun r => r.exec query.now query.statement with
        | none => exact ⟨r, hTable, h⟩
        | some result =>
            by_cases hHere : query.table = table
            · rw [hHere, hTable, Option.bind_some] at hFound
              refine ⟨result.1, ?_, h.exec hFound⟩
              rw [hHere]
              exact Function.update_self ..
            · exact ⟨r, (Function.update_of_ne (Ne.symm hHere) _ _).trans hTable, h⟩
      obtain ⟨t, hStep, hConfined⟩ := hNext
      exact ih hStep hConfined

/-- No statement makes a table. -/
theorem after_none {queries : List (Query Table Name Value Instant)} (hTable : db table = none) :
    db.after queries table = none := by
  induction queries generalizing db with
  | nil => exact hTable
  | cons query queries ih =>
      refine ih ?_
      change (db.step query).1 table = none
      unfold step
      cases hFound : (db query.table).bind fun r => r.exec query.now query.statement with
      | none => exact hTable
      | some result =>
          have hOther : query.table ≠ table := by
            intro hHere
            rw [hHere, hTable] at hFound
            cases hFound
          exact (Function.update_of_ne (Ne.symm hOther) _ _).trans hTable

/-- Old and new programs side by side: the database with the column stays the
one without it, and every statement that does not name the column gets the
reply it would get there. -/
theorem run_forget (h : db.Has table column) {queries : List (Query Table Name Value Instant)}
    (hTame : ∀ query ∈ queries, query.Tame table column) :
    (db.after queries).Has table column ∧
      (db.dropColumn table column.name).after (queries.map (Query.forget table column.name)) =
        (db.after queries).dropColumn table column.name ∧
      List.Forall₂ (fun known seen => known.1 = seen.1.forget table column.name ∧
          (seen.1.Old table column → known.2 = seen.2))
        (view step (fun _ => true) (db.dropColumn table column.name) (queries.map (Query.forget table column.name)))
        (view step (fun _ => true) db queries) := by
  induction queries generalizing db with
  | nil => exact ⟨h, rfl, List.Forall₂.nil⟩
  | cons query queries ih =>
      obtain ⟨hHas, hStep, hReply⟩ := step_forget h (hTame query (List.mem_cons_self ..))
      obtain ⟨hEnd, hAfter, hViews⟩ := ih hHas fun other hOther => hTame other (List.mem_cons_of_mem _ hOther)
      refine ⟨hEnd, ?_, ?_⟩
      · rw [List.map_cons, after, List.foldl_cons, hStep]
        exact hAfter
      · rw [List.map_cons, view_cons_seen rfl, view_cons_seen rfl, hStep]
        exact List.Forall₂.cons ⟨rfl, hReply⟩ hViews

end Database

end Storage
