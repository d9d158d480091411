import ServicePlatform.Service.Migrations
import ServicePlatform.Service.UserOutbox
import Mathlib.Data.List.Induction

/-! The rows of the users of the service in the table that the revisions make,
and the statements of `UserService` on them. -/
namespace ServicePlatform

open Storage Transition

namespace User

def row (user : User) : Record String SqlValue := fun name => (user.values.lookup name).getD none

/-- The values are in the ranges of the column types. -/
structure Fits (user : User) : Prop where
  id : user.id.length ≤ 36
  email : user.email.length ≤ 255
  displayName : user.displayName.length ≤ 64
  status : user.status.length ≤ 16
  vipLevel : -2 ^ 31 ≤ user.vipLevel ∧ user.vipLevel < 2 ^ 31

end User

/-- The columns after the last revision. -/
def headUserColumns : List SqlColumn := userColumns ++ [updatedAtColumn]

theorem accepts_iff (user : User) :
    (headUserColumns.all fun column => column.accepts (user.row column.name)) = true ↔ user.Fits := by
  have hRanges : (headUserColumns.all fun column => column.accepts (user.row column.name)) = true ↔
      user.id.length ≤ 36 ∧ user.email.length ≤ 255 ∧ user.displayName.length ≤ 64 ∧ user.status.length ≤ 16 ∧
        -2 ^ 31 ≤ user.vipLevel ∧ user.vipLevel < 2 ^ 31 := by
    simp [headUserColumns, userColumns, Operation.setUnique, initialUserColumns, updatedAtColumn, User.row, User.values,
      Column.accepts, SqlValue.isString, SqlValue.isInteger, SqlValue.isDateTime, List.lookup_cons]
  rw [hRanges]
  exact ⟨fun h => ⟨h.1, h.2.1, h.2.2.1, h.2.2.2.1, h.2.2.2.2⟩,
    fun h => ⟨h.id, h.email, h.displayName, h.status, h.vipLevel⟩⟩

/-- The columns whose values are unique. -/
theorem distinct_iff (user other : User) :
    (∀ column ∈ headUserColumns, column.unique = true →
      user.row column.name = none ∨ user.row column.name ≠ other.row column.name) ↔
        user.id ≠ other.id ∧ user.email ≠ other.email := by
  simp [headUserColumns, userColumns, Operation.setUnique, initialUserColumns, updatedAtColumn, User.row, User.values,
    List.lookup_cons]

/-- Where at most one element passes, the elements that pass are the first. -/
theorem filter_eq_find? {α : Type*} {p : α → Bool} {l : List α} (h : l.Pairwise fun a b => ¬(p a = true ∧ p b = true)) :
    l.filter p = (l.find? p).toList := by
  induction l with
  | nil => rfl
  | cons a l ih =>
      obtain ⟨hHead, hTail⟩ := List.pairwise_cons.mp h
      by_cases hPass : p a = true
      · have hNone : l.filter p = [] := List.filter_eq_nil_iff.mpr fun b hMem hb => hHead b hMem ⟨hPass, hb⟩
        rw [List.filter_cons_of_pos hPass, List.find?_cons_of_pos hPass, hNone]
        rfl
      · rw [List.filter_cons_of_neg hPass, List.find?_cons_of_neg hPass, ih hTail]

/-- The table holds these users, in this order. -/
structure HoldsUsers (users : List User) (r : SqlTable) : Prop where
  columns : r.columns = headUserColumns
  rows : r.rows = users.map User.row

namespace HoldsUsers

variable {users : List User} {r : SqlTable}

/-- The constraints of the table. -/
theorem admissible_iff (h : HoldsUsers users r) (others : List User) :
    r.admissible (others.map User.row) = true ↔ (∀ user ∈ others, user.Fits) ∧
      others.Pairwise fun user other => user.id ≠ other.id ∧ user.email ≠ other.email := by
  unfold Relation.admissible
  rw [h.columns, Bool.and_eq_true, List.all_map, List.all_eq_true, decide_eq_true_eq, List.pairwise_map]
  exact and_congr (forall₂_congr fun user _ => accepts_iff user)
    ⟨fun hAll => hAll.imp fun hPair => (distinct_iff _ _).mp hPair,
      fun hAll => hAll.imp fun hPair => (distinct_iff _ _).mpr hPair⟩

theorem inserted_eq (h : HoldsUsers users r) (user : User) (now : DateTime) :
    r.inserted user.values now = user.row := by
  funext name
  unfold Relation.inserted User.row
  cases hLookup : user.values.lookup name with
  | some value => rfl
  | none =>
      have hNone : r.columns.find? (fun column => column.name = name) = none := by
        rw [h.columns, List.find?_eq_none]
        rintro column hColumn
        rw [List.lookup_eq_none_iff] at hLookup
        have hMem : column.name ∈ user.values.map Prod.fst := by
          have hNames : headUserColumns.map Column.name = user.values.map Prod.fst := rfl
          exact hNames ▸ List.mem_map_of_mem hColumn
        obtain ⟨value, hValue, hName⟩ := List.mem_map.mp hMem
        have hOther := hLookup value hValue
        simp only [decide_eq_true_eq]
        rintro rfl
        simp [hName] at hOther
      rw [Option.getD_none, Option.getD_none, hNone]
      rfl

/-- An `INSERT` is accepted just when the values fit and the id and the email
are new. -/
theorem insert_iff (h : HoldsUsers users r) (hAdmissible : r.admissible r.rows = true) (user : User) (now : DateTime) :
    (∃ t, HoldsUsers (users ++ [user]) t ∧ t.admissible t.rows = true ∧
      r.exec now (.insert user.values) = some (t, .count 1)) ↔
        user.Fits ∧ ∀ other ∈ users, other.id ≠ user.id ∧ other.email ≠ user.email := by
  have hKnown : r.known (user.values.map Prod.fst) = true := by
    rw [Relation.known, Relation.names, h.columns]
    rfl
  have hRows : r.rows ++ [r.inserted user.values now] = (users ++ [user]).map User.row := by
    rw [h.inserted_eq, h.rows, List.map_append]
    rfl
  have hExec : r.exec now (.insert user.values) = if r.admissible ((users ++ [user]).map User.row) then
      some ({ r with rows := (users ++ [user]).map User.row }, .count 1) else none := by
    rw [Relation.exec, if_pos hKnown, hRows]
    rfl
  rw [h.rows, h.admissible_iff] at hAdmissible
  have hNew : r.admissible ((users ++ [user]).map User.row) = true ↔
      user.Fits ∧ ∀ other ∈ users, other.id ≠ user.id ∧ other.email ≠ user.email := by
    rw [h.admissible_iff, List.pairwise_append]
    constructor
    · rintro ⟨hFits, -, -, hPairs⟩
      exact ⟨hFits user (by simp), fun other hOther => hPairs other hOther user (List.mem_singleton_self user)⟩
    · rintro ⟨hFits, hPairs⟩
      refine ⟨fun other hOther => ?_, hAdmissible.2, List.pairwise_singleton .., ?_⟩
      · rcases List.mem_append.mp hOther with hOld | hHere
        · exact hAdmissible.1 other hOld
        · rw [List.mem_singleton.mp hHere]
          exact hFits
      · intro other hOther last hLast
        rw [List.mem_singleton.mp hLast]
        exact hPairs other hOther
  rw [hExec, ← hNew]
  constructor
  · rintro ⟨t, -, -, hSome⟩
    by_contra hNot
    rw [if_neg hNot] at hSome
    cases hSome
  · intro hNow
    exact ⟨{ r with rows := (users ++ [user]).map User.row }, ⟨h.columns, rfl⟩, hNow, if_pos hNow⟩

/-- The rows that a query by a unique value finds. -/
theorem select_exec (h : HoldsUsers users r) {names : List String} (hKnown : ∀ name ∈ names, name ∈ r.names)
    {column : String} (hColumn : column ∈ r.names) {text : String} {key : User → String}
    (hKey : ∀ user : User, user.row column = some (.text (key user)))
    (hUnique : users.Pairwise fun user other => key user ≠ key other) (now : DateTime) :
    r.exec now (.select names [(column, fun value => value == some (.text text))]) =
      some (r, .rows ((users.find? fun user => key user = text).toList.map fun user => names.map user.row)) := by
  have hNames : (r.known names && r.known [column]) = true := by
    simpa [Relation.known, hColumn] using hKnown
  have hHolds : ∀ user : User, Condition.holds [(column, fun value => value == some (.text text))] user.row =
      decide (key user = text) := by
    intro user
    rw [Bool.eq_iff_iff]
    simp [Condition.holds, hKey]
  have hFound : (r.rows.filter (Condition.holds [(column, fun value => value == some (.text text))])) =
      (users.find? fun user => key user = text).toList.map User.row := by
    rw [h.rows, List.filter_map, ← filter_eq_find? (hUnique.imp fun hNe hBoth => hNe ?_)]
    · exact congrArg _ (List.filter_congr fun user _ => hHolds user)
    · simp only [decide_eq_true_eq] at hBoth
      exact hBoth.1.trans hBoth.2.symm
  rw [Relation.exec]
  simp only [List.map_cons, List.map_nil, hNames, if_true, hFound, List.map_map]
  rfl

end HoldsUsers

/-- The table after the `INSERT` of each user. -/
def storeUsers (now : DateTime) (users : List User) : Option SqlTable :=
  users.foldlM (fun r user => (r.exec now (.insert user.values)).map Prod.fst) ⟨headUserColumns, []⟩

/-- Users that fit and have their own ids and emails can be stored. -/
theorem storeUsers_eq_some (now : DateTime) {users : List User} (hFits : ∀ user ∈ users, user.Fits)
    (hNew : users.Pairwise fun user other => user.id ≠ other.id ∧ user.email ≠ other.email) :
    ∃ r, storeUsers now users = some r ∧ HoldsUsers users r ∧ r.admissible r.rows = true := by
  induction users using List.reverseRecOn with
  | nil => exact ⟨⟨headUserColumns, []⟩, rfl, ⟨rfl, rfl⟩, rfl⟩
  | append_singleton users user ih =>
      rw [List.pairwise_append] at hNew
      obtain ⟨r, hStored, hHolds, hAdmissible⟩ := ih (fun other hOther => hFits other (by simp [hOther])) hNew.1
      have hThis : user.Fits ∧ ∀ other ∈ users, other.id ≠ user.id ∧ other.email ≠ user.email :=
        ⟨hFits user (by simp), fun other hOther => hNew.2.2 other hOther user (List.mem_singleton_self user)⟩
      obtain ⟨t, hHoldsNext, hNext, hExec⟩ := (hHolds.insert_iff hAdmissible user now).mpr hThis
      refine ⟨t, ?_, hHoldsNext, hNext⟩
      unfold storeUsers at hStored ⊢
      rw [List.foldlM_append, hStored]
      simp [hExec]

variable {registry : ErrorRegistry} {config : RelayConfig} {s : ServiceState}

/-- In every state that creators and relays reach, the database of the last
revision holds the users: each insert is accepted, the query of `create_user`
for an email finds the one row that the check of the model finds, and so does
the query for an id. -/
theorem users_stored {as : List ServiceAction}
    (run : exec (serviceStep registry config) ServiceState.initial as = some s)
    (hFits : ∀ user ∈ s.users, user.Fits) (now : DateTime) :
    ∃ r, storeUsers now s.users.rows = some r ∧ HoldsUsers s.users.rows r ∧
      (∀ later email, r.exec later (emailQuery later email).statement =
        some (r, .rows ((s.users.rows.find? fun user => user.email = email).toList.map
          fun user => [some (.text user.id)]))) ∧
      ∀ later userId, r.exec later (userQuery later (headUserColumns.map Column.name) userId).statement =
        some (r, .rows ((s.users.find userId).toList.map fun user => user.values.map Prod.snd)) := by
  have inv : ServiceInv s := invariant (fun _ _ _ inv h => ServiceInv.step inv h) serviceInv_initial run
  have hIds : s.users.rows.Pairwise fun user other => user.id ≠ other.id := List.pairwise_map.mp s.users.nodup
  have hEmails : s.users.rows.Pairwise fun user other => user.email ≠ other.email :=
    hIds.imp_of_mem fun hUser hOther hNe hSame => hNe (congrArg User.id (inv.emails _ hUser _ hOther hSame))
  obtain ⟨r, hStored, hHolds, -⟩ := storeUsers_eq_some now hFits (hIds.and hEmails)
  have hNames : r.names = headUserColumns.map Column.name := congrArg (List.map Column.name) hHolds.columns
  have hId : "id" ∈ r.names := by
    rw [hNames]
    decide
  have hEmail : "email" ∈ r.names := by
    rw [hNames]
    decide
  refine ⟨r, hStored, hHolds, fun later email => ?_, fun later userId => ?_⟩
  · exact hHolds.select_exec (by simpa using hId) hEmail (fun user => rfl) hEmails later
  · exact hHolds.select_exec (fun name hName => hNames ▸ hName) hId (fun user => rfl) hIds later

/-- Two calls race for an email; the row of the one that committed is stored. -/
theorem users_stored_duplicateEmail : ∃ s r,
    exec (serviceStep [emailAlreadyExists] ⟨true, 100⟩) ServiceState.initial duplicateEmail = some s ∧
      storeUsers 9 s.users.rows = some r ∧
      r.exec 15 (emailQuery 15 "a@example.com").statement = some (r, .rows [[some (.text "u-1")]]) := by
  have hRun : (exec (serviceStep [emailAlreadyExists] ⟨true, 100⟩) ServiceState.initial duplicateEmail).map
      (fun s => s.users.rows) = some [⟨"u-1", "a@example.com", "Ada", "active", 10, 0, 10⟩] := rfl
  obtain ⟨s, run, hUsers⟩ := Option.map_eq_some_iff.mp hRun
  have hFits : ∀ user ∈ s.users, user.Fits := by
    intro user hUser
    rw [KeyedTable.mem_def, hUsers, List.mem_singleton] at hUser
    subst hUser
    exact ⟨by decide, by decide, by decide, by decide, by decide⟩
  obtain ⟨r, hStored, -, hFound, -⟩ := users_stored run hFits 9
  refine ⟨s, r, run, hStored, ?_⟩
  rw [hFound, hUsers]
  rfl

end ServicePlatform
