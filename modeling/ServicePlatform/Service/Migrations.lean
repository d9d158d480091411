import ServicePlatform.Service.UserService
import ServicePlatform.Storage.Schema

/-! The revisions of the service's database. A new revision is applied while
the program of the revision before it is still running. -/
namespace ServicePlatform

open Storage Transition

inductive SqlValue where
  | text (value : String)
  | integer (value : Int)
  | json (document : String)
  | timestamp (value : DateTime)
  deriving DecidableEq

abbrev SqlColumn := Column String SqlValue DateTime

abbrev SqlTable := Relation String SqlValue DateTime

abbrev SqlQuery := Query String String SqlValue DateTime

namespace SqlValue

def isString (length : Nat) : SqlValue → Bool
  | .text value => decide (value.length ≤ length)
  | _ => false

def isInteger : SqlValue → Bool
  | .integer value => decide (-2 ^ 31 ≤ value ∧ value < 2 ^ 31)
  | _ => false

def isJson : SqlValue → Bool
  | .json _ => true
  | _ => false

def isDateTime : SqlValue → Bool
  | .timestamp _ => true
  | _ => false

end SqlValue

def serverNow (now : DateTime) : SqlValue := .timestamp now

/-- An index on one column. -/
structure SqlIndex where
  name : String
  table : String
  column : String
  unique : Bool
  deriving DecidableEq

/-- The tables and the indexes on them. -/
structure Catalog where
  tables : Database String String SqlValue DateTime
  indexes : List SqlIndex

namespace Catalog

def empty : Catalog := ⟨fun _ => none, []⟩

/-- The catalog after some statements. -/
def after (catalog : Catalog) (queries : List SqlQuery) : Catalog :=
  { catalog with tables := catalog.tables.after queries }

end Catalog

/-- The operations of `alembic.op` that the revisions use. -/
inductive Operation where
  | createTable (table : String) (columns : List SqlColumn)
  | createIndex (index : SqlIndex)
  | addColumn (table : String) (column : SqlColumn)
  | dropIndex (index table : String)
  | dropTable (table : String)
  | dropColumn (table column : String)

namespace Operation

/-- A column whose values a unique index compares, or no longer compares. -/
def setUnique (name : String) (unique : Bool) (r : SqlTable) : SqlTable :=
  { r with columns := r.columns.map fun column =>
      if column.name = name then { column with unique := unique } else column }

/-- An operation at some time. It has no result when the server rejects it. -/
def run (now : DateTime) (catalog : Catalog) : Operation → Option Catalog
  | .createTable table columns =>
      match catalog.tables table with
      | some _ => none
      | none => some { catalog with tables := Function.update catalog.tables table (some ⟨columns, []⟩) }
  | .createIndex index =>
      (catalog.tables index.table).bind fun r =>
        if index.column ∈ r.names ∧ index.name ∉ catalog.indexes.map SqlIndex.name then
          let indexed := if index.unique then setUnique index.column true r else r
          if indexed.admissible r.rows then
            some ⟨Function.update catalog.tables index.table (some indexed), catalog.indexes ++ [index]⟩
          else none
        else none
  | .addColumn table column =>
      (catalog.tables table).bind fun r => (r.addColumn column now).map fun r =>
        { catalog with tables := Function.update catalog.tables table (some r) }
  | .dropIndex name _ =>
      (catalog.indexes.find? fun index => index.name = name).bind fun index =>
        (catalog.tables index.table).map fun r =>
          let plain := if index.unique then setUnique index.column false r else r
          ⟨Function.update catalog.tables index.table (some plain),
            catalog.indexes.filter fun index => index.name ≠ name⟩
  | .dropTable table =>
      (catalog.tables table).map fun _ =>
        ⟨Function.update catalog.tables table none, catalog.indexes.filter fun index => index.table ≠ table⟩
  | .dropColumn table name =>
      (catalog.tables table).bind fun r =>
        if name ∈ r.names then
          some ⟨catalog.tables.dropColumn table name,
            catalog.indexes.filter fun index => ¬(index.table = table ∧ index.column = name)⟩
        else none

/-- A revision is one transaction: either all its operations are made or none. -/
def runAll (now : DateTime) (catalog : Catalog) (operations : List Operation) : Option Catalog :=
  operations.foldlM (run now) catalog

end Operation

structure Revision where
  revision : String
  downRevision : Option String
  upgrade : List Operation
  downgrade : List Operation

/-- The columns of revision `0001_initial`. -/
def initialUserColumns : List SqlColumn := [
  ⟨"id", SqlValue.isString 36, none, false, true⟩,
  ⟨"email", SqlValue.isString 255, none, false, false⟩,
  ⟨"display_name", SqlValue.isString 64, none, false, false⟩,
  ⟨"status", SqlValue.isString 16, some fun _ => .text "active", false, false⟩,
  ⟨"created_at", SqlValue.isDateTime, some serverNow, false, false⟩,
  ⟨"vip_level", SqlValue.isInteger, some fun _ => .integer 0, false, false⟩]

def outboxColumns : List SqlColumn := [
  ⟨"id", SqlValue.isString 36, none, false, true⟩,
  ⟨"event_name", SqlValue.isString 128, none, false, false⟩,
  ⟨"aggregate_type", SqlValue.isString 64, none, false, false⟩,
  ⟨"aggregate_id", SqlValue.isString 64, none, false, false⟩,
  ⟨"payload", SqlValue.isJson, none, false, false⟩,
  ⟨"headers", SqlValue.isJson, none, false, false⟩,
  ⟨"status", SqlValue.isString 16, some fun _ => .text "pending", false, false⟩,
  ⟨"attempts", SqlValue.isInteger, some fun _ => .integer 0, false, false⟩,
  ⟨"next_attempt_at", SqlValue.isDateTime, none, true, false⟩,
  ⟨"created_at", SqlValue.isDateTime, some serverNow, false, false⟩,
  ⟨"sent_at", SqlValue.isDateTime, none, true, false⟩]

def usersEmailIndex : SqlIndex := ⟨"ix_users_email", "users", "email", true⟩

def outboxIndexes : List SqlIndex := [
  ⟨"ix_outbox_messages_event_name", "outbox_messages", "event_name", false⟩,
  ⟨"ix_outbox_messages_aggregate_id", "outbox_messages", "aggregate_id", false⟩,
  ⟨"ix_outbox_messages_status", "outbox_messages", "status", false⟩]

def updatedAtColumn : SqlColumn := ⟨"updated_at", SqlValue.isDateTime, some serverNow, false, false⟩

def initialRevision : Revision where
  revision := "0001_initial"
  downRevision := none
  upgrade := [.createTable "users" initialUserColumns, .createIndex usersEmailIndex,
    .createTable "outbox_messages" outboxColumns] ++ outboxIndexes.map .createIndex
  downgrade := [.dropIndex "ix_outbox_messages_status" "outbox_messages",
    .dropIndex "ix_outbox_messages_aggregate_id" "outbox_messages",
    .dropIndex "ix_outbox_messages_event_name" "outbox_messages", .dropTable "outbox_messages",
    .dropIndex "ix_users_email" "users", .dropTable "users"]

def addUsersUpdatedAt : Revision where
  revision := "0002_add_users_updated_at"
  downRevision := some "0001_initial"
  upgrade := [.addColumn "users" updatedAtColumn]
  downgrade := [.dropColumn "users" "updated_at"]

theorem updatedAt_optional : updatedAtColumn.Optional := fun _ => rfl

/-- The columns of `users` with the unique index on them. -/
def userColumns : List SqlColumn := (Operation.setUnique "email" true ⟨initialUserColumns, []⟩).columns

/-- The tables and indexes of revision `0001_initial`, with any rows. -/
structure Initial (catalog : Catalog) : Prop where
  users : ∃ r, catalog.tables "users" = some r ∧ Confined userColumns r
  outbox : ∃ r, catalog.tables "outbox_messages" = some r ∧ Confined outboxColumns r
  others : ∀ table, table ≠ "users" → table ≠ "outbox_messages" → catalog.tables table = none
  indexes : catalog.indexes = usersEmailIndex :: outboxIndexes

/-- The first revision makes its tables in an empty database. -/
theorem upgrade_initial (now : DateTime) :
    ∃ catalog, Operation.runAll now Catalog.empty initialRevision.upgrade = some catalog ∧ Initial catalog := by
  refine ⟨_, rfl, ⟨⟨_, rfl, ⟨rfl, ?_⟩⟩, ⟨_, rfl, ⟨rfl, by simp⟩⟩, ?_, rfl⟩⟩
  · intro row hRow
    exact absurd hRow List.not_mem_nil
  · intro table hUsers hOutbox
    simp [hUsers, hOutbox, Catalog.empty, usersEmailIndex]

namespace Initial

variable {catalog : Catalog}

/-- No statement changes what the revision made. -/
theorem after (h : Initial catalog) (queries : List SqlQuery) : Initial (catalog.after queries) := by
  obtain ⟨users, hUsers, hUserColumns⟩ := h.users
  obtain ⟨outbox, hOutbox, hOutboxColumns⟩ := h.outbox
  exact ⟨Database.confined_after hUsers hUserColumns, Database.confined_after hOutbox hOutboxColumns,
    fun table hNotUsers hNotOutbox => Database.after_none (h.others table hNotUsers hNotOutbox), h.indexes⟩

/-- The second revision can always be applied: the rows that exist get the
default. Without the column the database is the one before. -/
theorem upgrade (h : Initial catalog) (now : DateTime) :
    ∃ expanded, Operation.runAll now catalog addUsersUpdatedAt.upgrade = some expanded ∧
      expanded.tables.Has "users" updatedAtColumn ∧
      expanded.tables.dropColumn "users" "updated_at" = catalog.tables ∧ expanded.indexes = catalog.indexes := by
  obtain ⟨users, hUsers, hColumns⟩ := h.users
  have hNew : updatedAtColumn.name ∉ users.names := by
    rw [Relation.names, hColumns.same]
    decide
  obtain ⟨grown, hGrown, hExpanded, hBack⟩ := Expanded.of_addColumn now hNew rfl updatedAt_optional
    fun row hRow => hColumns.rows row hRow _ (by decide)
  have hHere : Function.update catalog.tables "users" (some grown) "users" = some grown := Function.update_self ..
  refine ⟨⟨Function.update catalog.tables "users" (some grown), catalog.indexes⟩, ?_, ⟨grown, hHere, hExpanded⟩,
    ?_, rfl⟩
  · simp [Operation.runAll, addUsersUpdatedAt, Operation.run, hUsers, hGrown]
  · change Relation.dropColumn "updated_at" grown = users at hBack
    dsimp only
    rw [Database.dropColumn, hHere, Function.update_idem, Option.map_some, hBack, ← hUsers, Function.update_eq_self]

end Initial

/-- The second revision can be taken back whatever was written since. -/
theorem downgrade_updatedAt {catalog : Catalog} (now : DateTime) (h : catalog.tables.Has "users" updatedAtColumn)
    (hIndexes : catalog.indexes = usersEmailIndex :: outboxIndexes) :
    Operation.runAll now catalog addUsersUpdatedAt.downgrade =
      some { catalog with tables := catalog.tables.dropColumn "users" "updated_at" } := by
  obtain ⟨users, hUsers, hExpanded⟩ := h
  obtain ⟨columns, hLast, -⟩ := hExpanded.last
  have hName : "updated_at" ∈ users.names := by
    rw [Relation.names, hLast]
    simp [updatedAtColumn]
  have hKept : catalog.indexes.filter (fun index => ¬(index.table = "users" ∧ index.column = "updated_at")) =
      catalog.indexes := by
    rw [hIndexes]
    decide
  simp only [Operation.runAll, addUsersUpdatedAt, List.foldlM_cons, List.foldlM_nil, Operation.run, hUsers,
    Option.bind_some, if_pos hName, hKept]
  rfl

/-- The values of the mapped columns. -/
def User.values (user : User) : List (String × Option SqlValue) := [
  ("id", some (.text user.id)),
  ("email", some (.text user.email)),
  ("display_name", some (.text user.displayName)),
  ("status", some (.text user.status)),
  ("created_at", some (.timestamp user.createdAt)),
  ("vip_level", some (.integer user.vipLevel)),
  ("updated_at", some (.timestamp user.updatedAt))]

/-- The `INSERT` of a program whose `User` class maps these columns. -/
def insertUser (now : DateTime) (mapped : List String) (user : User) : SqlQuery :=
  ⟨"users", now, .insert (user.values.filter fun value => value.1 ∈ mapped)⟩

/-- The query for the email that `create_user` makes first. -/
def emailQuery (now : DateTime) (email : String) : SqlQuery :=
  ⟨"users", now, .select ["id"] [("email", fun value => value == some (.text email))]⟩

/-- `session.get`, for the columns that the program maps. -/
def userQuery (now : DateTime) (mapped : List String) (userId : String) : SqlQuery :=
  ⟨"users", now, .select mapped [("id", fun value => value == some (.text userId))]⟩

/-- The statements of `UserService`, with and without the new column. -/
theorem insertUser_tame (now : DateTime) (mapped : List String) (user : User) :
    (insertUser now mapped user).Tame "users" updatedAtColumn := by
  intro _ value hLookup
  obtain ⟨before, rest, hSplit, -⟩ := List.lookup_eq_some_iff.mp hLookup
  have hFiltered : ("updated_at", value) ∈ user.values.filter fun value => value.1 ∈ mapped := by
    rw [hSplit]
    simp [updatedAtColumn]
  have hMem := (List.mem_filter.mp hFiltered).1
  have hValue : value = some (SqlValue.timestamp user.updatedAt) := by simpa [User.values] using hMem
  rw [hValue]
  rfl

theorem emailQuery_tame (now : DateTime) (email : String) : (emailQuery now email).Tame "users" updatedAtColumn :=
  fun _ => Statement.tame_of_unmentioned (by simp [emailQuery, Statement.mentions, updatedAtColumn])

theorem userQuery_tame (now : DateTime) (mapped : List String) (userId : String) :
    (userQuery now mapped userId).Tame "users" updatedAtColumn :=
  fun _ => by simp [userQuery, Statement.Tame, updatedAtColumn]

/-- The program of the first revision runs on beside the new one. The second
revision can be applied to whatever it has written; from then on each statement
that does not name the new column gets the reply that it would have got without
the revision, and taking the revision back leaves the tables that there would
have been. -/
theorem zero_downtime (start applied undone : DateTime) (before during : List SqlQuery)
    (hTame : ∀ query ∈ during, query.Tame "users" updatedAtColumn) :
    ∃ old new, Operation.runAll start Catalog.empty initialRevision.upgrade = some old ∧
      Operation.runAll applied (old.after before) addUsersUpdatedAt.upgrade = some new ∧
      List.Forall₂ (fun known seen => known.1 = seen.1.forget "users" "updated_at" ∧
          (seen.1.Old "users" updatedAtColumn → known.2 = seen.2))
        (view Database.step (fun _ => true) (old.after before).tables (during.map (Query.forget "users" "updated_at")))
        (view Database.step (fun _ => true) new.tables during) ∧
      Operation.runAll undone (new.after during) addUsersUpdatedAt.downgrade =
        some ((old.after before).after (during.map (Query.forget "users" "updated_at"))) := by
  obtain ⟨old, hOld, hInitial⟩ := upgrade_initial start
  obtain ⟨new, hNew, hHas, hBack, hIndexes⟩ := (hInitial.after before).upgrade applied
  obtain ⟨hEnd, hAfter, hViews⟩ := Database.run_forget hHas hTame
  rw [show updatedAtColumn.name = "updated_at" from rfl, hBack] at hAfter hViews
  refine ⟨old, new, hOld, hNew, hViews, ?_⟩
  have hKept : (new.after during).indexes = usersEmailIndex :: outboxIndexes :=
    hIndexes.trans (hInitial.after before).indexes
  rw [downgrade_updatedAt undone hEnd hKept]
  exact congrArg some (congrArg₂ Catalog.mk hAfter.symm (hKept.trans (hInitial.after before).indexes.symm))

/-- Programs of both revisions insert and read users beside each other. The old
program's query gets the reply that it would have got. -/
theorem zero_downtime_mixed :
    let user : User := ⟨"u-1", "a@b.c", "Ada", "active", 3, 0, 3⟩
    let initial := initialUserColumns.map Column.name
    let during := [insertUser 5 initial { user with id := "u-2", email := "b@b.c" }, emailQuery 6 "a@b.c",
      insertUser 7 ("updated_at" :: initial) { user with id := "u-3", email := "c@b.c" }, userQuery 8 initial "u-3"]
    ∃ old new, Operation.runAll 1 Catalog.empty initialRevision.upgrade = some old ∧
      Operation.runAll 4 (old.after [insertUser 3 initial user]) addUsersUpdatedAt.upgrade = some new ∧
      List.Forall₂ (fun known seen => known.1 = seen.1.forget "users" "updated_at" ∧
          (seen.1.Old "users" updatedAtColumn → known.2 = seen.2))
        (view Database.step (fun _ => true) (old.after [insertUser 3 initial user]).tables
          (during.map (Query.forget "users" "updated_at")))
        (view Database.step (fun _ => true) new.tables during) ∧
      Operation.runAll 9 (new.after during) addUsersUpdatedAt.downgrade =
        some ((old.after [insertUser 3 initial user]).after (during.map (Query.forget "users" "updated_at"))) := by
  intro user initial during
  have hTame : ∀ query ∈ during, query.Tame "users" updatedAtColumn := by
    simp only [during, List.forall_mem_cons]
    exact ⟨insertUser_tame _ _ _, emailQuery_tame _ _, insertUser_tame _ _ _, userQuery_tame _ _ _, by simp⟩
  exact zero_downtime 1 4 9 [insertUser 3 initial user] during hTame

end ServicePlatform
