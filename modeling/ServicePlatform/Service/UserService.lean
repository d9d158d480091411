import ServicePlatform.Contract.UserEvents
import ServicePlatform.Kernel.Problem
import ServicePlatform.Kernel.RelaySystem

/-! Creating users next to the outbox relays. A call of `create_user` is cut
at its awaits: the query for the email, the flush, the commit and the refresh.
An inserted row holds its entry in the unique index of emails until the
transaction ends, and another insert of that email waits for it. -/
namespace ServicePlatform

open Storage Transition

structure User where
  id : String
  email : String
  displayName : String
  status : String
  createdAt : DateTime
  vipLevel : Int
  updatedAt : DateTime

/-- The databases that the service runs on. -/
inductive Dialect where
  | sqlite
  | postgresql
  deriving DecidableEq

/-- `main.py` turns `use_skip_locked` off for SQLite only. -/
def RelayConfig.dialect (config : RelayConfig) : Dialect :=
  if config.useSkipLocked then .postgresql else .sqlite

namespace Dialect

/-- A text parameter of a statement. -/
def reads : Dialect → String → Bool
  | .sqlite, _ => true
  | .postgresql, text => !text.toList.contains '\x00'

/-- A value for a `String(width)` column. -/
def takesString (dialect : Dialect) (width : Nat) (text : String) : Bool :=
  dialect.reads text && match dialect with
    | .sqlite => true
    | .postgresql => text.length ≤ width

/-- A value for an `Integer` column. -/
def takesInteger : Dialect → Int → Bool
  | .sqlite, n => -2 ^ 63 ≤ n && n < 2 ^ 63
  | .postgresql, n => -2 ^ 31 ≤ n && n < 2 ^ 31

/-- The columns of `User` that the caller of `create_user` fills. -/
def takes (dialect : Dialect) (email displayName : String) (vipLevel : Int) : Bool :=
  dialect.takesString 255 email && dialect.takesString 64 displayName && dialect.takesInteger vipLevel

/-- The values of a row, with the id that is drawn for it. -/
def stores (dialect : Dialect) (id email displayName : String) (vipLevel : Int) : Bool :=
  dialect.takesString 36 id && dialect.takes email displayName vipLevel

variable {dialect : Dialect} {id text email displayName : String} {width : Nat} {vipLevel : Int}

theorem reads_of_takesString (h : dialect.takesString width text = true) : dialect.reads text = true := by
  exact ((Bool.and_eq_true ..).mp h).1

theorem integer_of_takes (h : dialect.takes email displayName vipLevel = true) :
    -2 ^ 63 ≤ vipLevel ∧ vipLevel < 2 ^ 63 := by
  rw [takes, Bool.and_eq_true] at h
  have hInteger := h.2
  cases dialect with
  | sqlite => simpa [takesInteger] using hInteger
  | postgresql =>
      have hRange : -2 ^ 31 ≤ vipLevel ∧ vipLevel < 2 ^ 31 := by simpa [takesInteger] using hInteger
      omega

theorem stores_iff : dialect.stores id email displayName vipLevel = true ↔
    dialect.takesString 36 id = true ∧ dialect.takes email displayName vipLevel = true := by
  rw [stores, Bool.and_eq_true]

end Dialect

abbrev UserTable := KeyedTable User User.id

abbrev CallId := Nat

def emailAlreadyExists : ErrorCode :=
  { code := "EMAIL_ALREADY_EXISTS", httpStatus := 409, title := "Conflict", defaultMessage := "邮箱已存在" }

/-- The values drawn when the row is flushed and the event is built. -/
structure FlushValues where
  id : String
  createdAt : DateTime
  updatedAt : DateTime
  eventId : String
  occurredAt : DateTime
  trace : Option TraceContext

/-- The event of a flushed user. The payload class rejects a long name. -/
def userCreatedEvent (user : User) (values : FlushValues) : Option EventEnvelope :=
  (UserCreatedPayload.make user.id user.email user.displayName user.vipLevel user.createdAt).map
    fun payload => {
      eventId := values.eventId
      eventName := "user.created.v1"
      source := "service-template"
      aggregateType := "user"
      aggregateId := user.id
      occurredAt := values.occurredAt
      payload := payload.modelDump
      trace := values.trace }

/-- A conflict, a violated constraint, a value that the database does not take, an
event that the payload class rejects, and a failure of the database itself. -/
inductive CreateError where
  | conflict (error : AppError)
  | integrity
  | data
  | validation
  | interrupted

inductive CreatePhase where
  | idle
  | checking (email displayName : String) (vipLevel : Int)
  | flushing (email displayName : String) (vipLevel : Int)
  | committing (user : User) (event : EventEnvelope)
  | refreshing (user : User)
  | returned (user : User)
  | raised (error : CreateError)

/-- The committed tables, the entries of open transactions in the index of
emails, and the calls. -/
structure ServiceState where
  users : UserTable
  relay : RelayState
  emails : RowLocks String CallId
  calls : CallId → CreatePhase

namespace ServiceState

def initial : ServiceState := ⟨KeyedTable.empty, RelayState.initial, RowLocks.free, fun _ => .idle⟩

def setCall (s : ServiceState) (c : CallId) (phase : CreatePhase) : ServiceState :=
  { s with calls := Function.update s.calls c phase }

/-- The session ends without a commit. -/
def rollback (s : ServiceState) (c : CallId) (error : CreateError) : ServiceState :=
  { s with emails := s.emails.release c }.setCall c (.raised error)

def emailTaken (s : ServiceState) (email : String) : Bool :=
  s.users.rows.any fun user => user.email = email

end ServiceState

inductive ServiceAction where
  | call (c : CallId) (email displayName : String) (vipLevel : Int)
  | check (c : CallId)
  | flush (c : CallId) (values : FlushValues)
  | commit (c : CallId) (rowId : String) (rowCreatedAt : DateTime)
  | refresh (c : CallId)
  | fail (c : CallId)
  | relay (a : RelayAction)

/-- A business transaction of this service is a call of `create_user`. -/
def RelayAction.isStage : RelayAction → Bool
  | .stage .. => true
  | _ => false

def serviceStep (registry : ErrorRegistry) (config : RelayConfig) (s : ServiceState) :
    ServiceAction → Option ServiceState
  | .call c email displayName vipLevel =>
      match s.calls c with
      | .idle => some (s.setCall c (.checking email displayName vipLevel))
      | _ => none
  | .check c =>
      match s.calls c with
      | .checking email displayName vipLevel =>
          if config.dialect.reads email then
            match s.users.rows.find? fun user => user.email = email with
            | some user =>
                if user.id = "" then some (s.setCall c (.flushing email displayName vipLevel))
                else some (s.rollback c (.conflict
                  (AppError.make registry emailAlreadyExists.code (some "邮箱已存在") none none)))
            | none => some (s.setCall c (.flushing email displayName vipLevel))
          else some (s.rollback c .data)
      | _ => none
  | .flush c values =>
      match s.calls c with
      | .flushing email displayName vipLevel =>
          if config.dialect.stores values.id email displayName vipLevel then
            match s.emails email with
            | some _ => none
            | none =>
                if s.emailTaken email then some (s.rollback c .integrity)
                else
                  let user : User := ⟨values.id, email, displayName, "active", values.createdAt,
                    vipLevel, values.updatedAt⟩
                  match userCreatedEvent user values with
                  | some event =>
                      some ({ s with emails := s.emails.acquire email c }.setCall c
                        (.committing user event))
                  | none => some (s.rollback c .validation)
          else some (s.rollback c .data)
      | _ => none
  | .commit c rowId rowCreatedAt =>
      match s.calls c with
      | .committing user event =>
          (s.users.insert user).bind fun users =>
            (relayStep config s.relay (.stage rowId rowCreatedAt event)).map fun relay =>
              { s with
                users := users
                relay := relay
                emails := s.emails.release c }.setCall c (.refreshing user)
      | _ => none
  | .refresh c =>
      match s.calls c with
      | .refreshing user => some (s.setCall c (.returned user))
      | _ => none
  | .fail c =>
      match s.calls c with
      | .checking .. | .flushing .. | .committing .. | .refreshing .. => some (s.rollback c .interrupted)
      | _ => none
  | .relay a =>
      if a.isStage then none
      else (relayStep config s.relay a).map fun relay => { s with relay := relay }

/-- The error of a call that finds its email in the table. -/
def emailConflict (registry : ErrorRegistry) : CreateError :=
  .conflict (AppError.make registry emailAlreadyExists.code (some "邮箱已存在") none none)

/-- The row that a flush inserts. -/
def FlushValues.user (values : FlushValues) (email displayName : String) (vipLevel : Int) : User :=
  ⟨values.id, email, displayName, "active", values.createdAt, vipLevel, values.updatedAt⟩

@[simp] theorem FlushValues.user_email (values : FlushValues) (email displayName : String) (vipLevel : Int) :
    (values.user email displayName vipLevel).email = email := rfl

/-- What a step of the service does, case by case. -/
inductive ServiceMove (registry : ErrorRegistry) (config : RelayConfig) (s : ServiceState) :
    ServiceAction → ServiceState → Prop where
  | called {c : CallId} {email displayName : String} {vipLevel : Int} (hIdle : s.calls c = .idle) :
      ServiceMove registry config s (.call c email displayName vipLevel)
        (s.setCall c (.checking email displayName vipLevel))
  | passed {c : CallId} {email displayName : String} {vipLevel : Int}
      (hCall : s.calls c = .checking email displayName vipLevel) (hReads : config.dialect.reads email = true) :
      ServiceMove registry config s (.check c) (s.setCall c (.flushing email displayName vipLevel))
  | refused {c : CallId} {email displayName : String} {vipLevel : Int} {user : User}
      (hCall : s.calls c = .checking email displayName vipLevel) (hReads : config.dialect.reads email = true)
      (hUser : user ∈ s.users) (hEmail : user.email = email) :
      ServiceMove registry config s (.check c) (s.rollback c (emailConflict registry))
  | unreadable {c : CallId} {email displayName : String} {vipLevel : Int}
      (hCall : s.calls c = .checking email displayName vipLevel) (hReads : config.dialect.reads email = false) :
      ServiceMove registry config s (.check c) (s.rollback c .data)
  | unstorable {c : CallId} {email displayName : String} {vipLevel : Int} {values : FlushValues}
      (hCall : s.calls c = .flushing email displayName vipLevel)
      (hStores : config.dialect.stores values.id email displayName vipLevel = false) :
      ServiceMove registry config s (.flush c values) (s.rollback c .data)
  | duplicate {c : CallId} {email displayName : String} {vipLevel : Int} {values : FlushValues}
      (hCall : s.calls c = .flushing email displayName vipLevel) (hTaken : s.emailTaken email = true) :
      ServiceMove registry config s (.flush c values) (s.rollback c .integrity)
  | rejected {c : CallId} {email displayName : String} {vipLevel : Int} {values : FlushValues}
      (hCall : s.calls c = .flushing email displayName vipLevel) (hFree : s.emails email = none)
      (hNew : s.emailTaken email = false)
      (hEvent : userCreatedEvent (values.user email displayName vipLevel) values = none) :
      ServiceMove registry config s (.flush c values) (s.rollback c .validation)
  | flushed {c : CallId} {email displayName : String} {vipLevel : Int} {values : FlushValues} {event : EventEnvelope}
      (hCall : s.calls c = .flushing email displayName vipLevel) (hFree : s.emails email = none)
      (hNew : s.emailTaken email = false) (hStores : config.dialect.stores values.id email displayName vipLevel = true)
      (hEvent : userCreatedEvent (values.user email displayName vipLevel) values = some event) :
      ServiceMove registry config s (.flush c values)
        ({ s with emails := s.emails.acquire email c }.setCall c
          (.committing (values.user email displayName vipLevel) event))
  | committed {c : CallId} {user : User} {event : EventEnvelope} {rowId : String} {rowCreatedAt : DateTime}
      {users : UserTable} {relay : RelayState} (hCall : s.calls c = .committing user event)
      (hUsers : s.users.insert user = some users)
      (hRelay : relayStep config s.relay (.stage rowId rowCreatedAt event) = some relay) :
      ServiceMove registry config s (.commit c rowId rowCreatedAt)
        ({ s with
          users := users
          relay := relay
          emails := s.emails.release c }.setCall c (.refreshing user))
  | refreshed {c : CallId} {user : User} (hCall : s.calls c = .refreshing user) :
      ServiceMove registry config s (.refresh c) (s.setCall c (.returned user))
  | failed {c : CallId} : ServiceMove registry config s (.fail c) (s.rollback c .interrupted)
  | relayed {b : RelayAction} {relay : RelayState} (hStage : b.isStage = false)
      (hRelay : relayStep config s.relay b = some relay) :
      ServiceMove registry config s (.relay b) { s with relay := relay }

theorem serviceMove_of_step {registry : ErrorRegistry} {config : RelayConfig} {s s' : ServiceState}
    {a : ServiceAction} (h : serviceStep registry config s a = some s') : ServiceMove registry config s a s' := by
  cases a with
  | call c email displayName vipLevel =>
      simp only [serviceStep] at h
      split at h
      · next hIdle =>
          cases h
          exact .called hIdle
      · cases h
  | check c =>
      simp only [serviceStep] at h
      split at h
      · next email displayName vipLevel hCall =>
          split at h
          · next hReads =>
              split at h
              · next user hFound =>
                  split at h
                  · cases h
                    exact .passed hCall hReads
                  · cases h
                    have hEmail := List.find?_some hFound
                    exact .refused hCall hReads (List.mem_of_find?_eq_some hFound) (by simpa using hEmail)
              · cases h
                exact .passed hCall hReads
          · next hReads =>
              cases h
              exact .unreadable hCall (by simpa using hReads)
      · cases h
  | flush c values =>
      simp only [serviceStep] at h
      split at h
      · next email displayName vipLevel hCall =>
          split at h
          · next hStores =>
              split at h
              · cases h
              · next hFree =>
                  split at h
                  · next hTaken =>
                      cases h
                      exact .duplicate hCall hTaken
                  · next hTaken =>
                      have hNew : s.emailTaken email = false := by simpa using hTaken
                      split at h
                      · next event hEvent =>
                          cases h
                          exact .flushed hCall hFree hNew hStores hEvent
                      · next hEvent =>
                          cases h
                          exact .rejected hCall hFree hNew hEvent
          · next hStores =>
              cases h
              exact .unstorable hCall (by simpa using hStores)
      · cases h
  | commit c rowId rowCreatedAt =>
      simp only [serviceStep] at h
      split at h
      · next user event hCall =>
          obtain ⟨users, hUsers, h⟩ := Option.bind_eq_some_iff.mp h
          obtain ⟨relay, hRelay, rfl⟩ := Option.map_eq_some_iff.mp h
          exact .committed hCall hUsers hRelay
      · cases h
  | refresh c =>
      simp only [serviceStep] at h
      split at h
      · next user hCall =>
          cases h
          exact .refreshed hCall
      · cases h
  | fail c =>
      simp only [serviceStep] at h
      split at h
      · cases h
        exact .failed
      · cases h
        exact .failed
      · cases h
        exact .failed
      · cases h
        exact .failed
      · cases h
  | relay b =>
      simp only [serviceStep] at h
      split at h
      · cases h
      · next hStage =>
          obtain ⟨relay, hRelay, rfl⟩ := Option.map_eq_some_iff.mp h
          exact .relayed (by simpa using hStage) hRelay

end ServicePlatform
