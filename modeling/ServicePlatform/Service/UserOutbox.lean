import ServicePlatform.Kernel.RelayFrame
import ServicePlatform.Kernel.RelayContent
import ServicePlatform.Service.UserService

/-! The users and the events about them. The user row and its outbox row are
committed together, an email stays locked from the insert to the commit, and
the relays neither add nor change the content of an outbox row. -/
namespace ServicePlatform

open Storage Transition

variable {registry : ErrorRegistry} {config : RelayConfig} {s s' : ServiceState} {a : ServiceAction}

/-- The payload of the event about a user. -/
def userPayload (user : User) : StrDict :=
  [("user_id", .str user.id), ("email", .str user.email), ("display_name", .str user.displayName),
    ("vip_level", .int user.vipLevel), ("created_at", .str (DateTime.isoFormat user.createdAt))]

/-- The outbox row is the `user.created.v1` event of the user. -/
structure Announces (row : OutboxMessage) (user : User) : Prop where
  eventName : row.eventName = "user.created.v1"
  aggregateId : row.aggregateId = user.id
  payload : row.payload = userPayload user

theorem Announces.congr {row row' : OutboxMessage} {user : User} (h : Announces row user)
    (hSame : row.content = row'.content) : Announces row' user where
  eventName := (congrArg OutboxMessage.Content.eventName hSame).symm.trans h.eventName
  aggregateId := (congrArg OutboxMessage.Content.aggregateId hSame).symm.trans h.aggregateId
  payload := (congrArg OutboxMessage.Content.payload hSame).symm.trans h.payload

/-- The row staged for the event of a user announces that user. -/
theorem announces_staged {user : User} {values : FlushValues} {event : EventEnvelope}
    (hEvent : userCreatedEvent user values = some event) {rowId : String} {rowCreatedAt : DateTime}
    {row : OutboxMessage} (hRow : (stageOutbox rowId rowCreatedAt event).persist = some row) :
    Announces row user := by
  obtain ⟨payload, hPayload, rfl⟩ := Option.map_eq_some_iff.mp hEvent
  simp only [UserCreatedPayload.make] at hPayload
  split at hPayload
  · cases hPayload
    simp only [OutboxMessage.persist, stageOutbox, UserCreatedPayload.jsonColumn_modelDump,
      Option.bind_some, Option.map_eq_some_iff] at hRow
    obtain ⟨headers, -, rfl⟩ := hRow
    exact ⟨rfl, rfl, rfl⟩
  · cases hPayload

/-- A step of a relay neither adds a row nor changes a content. -/
theorem RelayMove.content_origin {s s' : RelayState} {a : RelayAction}
    (move : RelayMove config s a s') (hStage : a.isStage = false) {row : OutboxMessage}
    (h : row ∈ s'.table) : ∃ before ∈ s.table, before.content = row.content := by
  cases move with
  | stage staged table persisted inserted => cases hStage
  | commit results hPhase =>
      obtain ⟨before, hBefore, rfl⟩ := OutboxTable.mem_applyBatch.mp h
      exact ⟨before, hBefore, (OutboxTable.storeRow_content _ _).symm⟩
  | _ => exact ⟨row, h, rfl⟩

/-- Both tables tell the same story, and an open transaction owns the email
it is about to commit. -/
structure ServiceInv (s : ServiceState) : Prop where
  traceable : Traceable s.relay
  announced : ∀ user ∈ s.users, ∃ row ∈ s.relay.table, Announces row user
  registered : ∀ row ∈ s.relay.table, ∃ user ∈ s.users, Announces row user
  once : ∀ row ∈ s.relay.table, ∀ row' ∈ s.relay.table, row.aggregateId = row'.aggregateId → row = row'
  emails : ∀ user ∈ s.users, ∀ user' ∈ s.users, user.email = user'.email → user = user'
  committing : ∀ c user event, s.calls c = .committing user event →
    s.emails user.email = some c ∧ (∀ other ∈ s.users, other.email ≠ user.email) ∧
      ∃ values, userCreatedEvent user values = some event

theorem serviceInv_initial : ServiceInv ServiceState.initial where
  traceable := traceable_initial
  announced := fun user h => absurd h (KeyedTable.not_mem_empty user)
  registered := fun row h => absurd h (KeyedTable.not_mem_empty row)
  once := fun row h => absurd h (KeyedTable.not_mem_empty row)
  emails := fun user h => absurd h (KeyedTable.not_mem_empty user)
  committing := by
    intro c user event h
    cases h

/-- A call moves on without a commit: the index entries of the others stay. -/
theorem ServiceInv.setCall (inv : ServiceInv s) {c : CallId} {phase : CreatePhase}
    {emails : RowLocks String CallId}
    (hOthers : ∀ c' email, c' ≠ c → s.emails email = some c' → emails email = some c')
    (hPhase : ∀ user event, phase = .committing user event →
      emails user.email = some c ∧ (∀ other ∈ s.users, other.email ≠ user.email) ∧
        ∃ values, userCreatedEvent user values = some event) :
    ServiceInv ({ s with emails := emails }.setCall c phase) where
  traceable := inv.traceable
  announced := inv.announced
  registered := inv.registered
  once := inv.once
  emails := inv.emails
  committing := by
    intro c' user event h
    by_cases hc : c' = c
    · subst hc
      simp only [ServiceState.setCall, Function.update_self] at h
      exact hPhase user event h
    · simp only [ServiceState.setCall, Function.update_of_ne hc] at h
      obtain ⟨hLock, hFresh, hEvent⟩ := inv.committing c' user event h
      exact ⟨hOthers c' user.email hc hLock, hFresh, hEvent⟩

theorem ServiceInv.setPhase (inv : ServiceInv s) {c : CallId} {phase : CreatePhase}
    (hPhase : ∀ user event, phase ≠ .committing user event) : ServiceInv (s.setCall c phase) :=
  inv.setCall (fun _ _ _ h => h) fun user event h => absurd h (hPhase user event)

theorem ServiceInv.rollback (inv : ServiceInv s) (c : CallId) (error : CreateError) :
    ServiceInv (s.rollback c error) := by
  refine inv.setCall ?_ (by simp)
  intro c' email hc hLock
  exact RowLocks.release_held hLock hc

/-- The commit adds the user and the announcing row in one step. -/
theorem ServiceInv.commit (inv : ServiceInv s) {c : CallId} {user : User} {event : EventEnvelope}
    (hCall : s.calls c = .committing user event) {users : UserTable}
    (hUsers : s.users.insert user = some users) {rowId : String} {rowCreatedAt : DateTime}
    {relay : RelayState}
    (hRelay : relayStep config s.relay (.stage rowId rowCreatedAt event) = some relay) :
    ServiceInv ({ s with
      users := users
      relay := relay
      emails := s.emails.release c }.setCall c (.refreshing user)) := by
  obtain ⟨hLock, hEmail, values, hEvent⟩ := inv.committing c user event hCall
  have hFresh := (KeyedTable.insert_eq_some hUsers).1
  have move := relayMove_of_step hRelay
  have hTraceable := inv.traceable.move move
  cases move with
  | stage row table persisted inserted =>
      have hNew := announces_staged hEvent persisted
      have hKept {r : OutboxMessage} (h : r ∈ s.relay.table) : r ∈ table :=
        (KeyedTable.mem_insert inserted).mpr (Or.inl h)
      have hApart {old : OutboxMessage} (h : old ∈ s.relay.table) : old.aggregateId ≠ row.aggregateId := by
        obtain ⟨owner, hOwner, hOld⟩ := inv.registered old h
        rw [hOld.aggregateId, hNew.aggregateId]
        exact hFresh owner hOwner
      constructor
      · exact hTraceable
      · intro other hOther
        rcases (KeyedTable.mem_insert hUsers).mp hOther with hOld | rfl
        · obtain ⟨announcing, hMem, hAnnounces⟩ := inv.announced other hOld
          exact ⟨announcing, hKept hMem, hAnnounces⟩
        · exact ⟨row, (KeyedTable.mem_insert inserted).mpr (Or.inr rfl), hNew⟩
      · intro other hOther
        rcases (KeyedTable.mem_insert inserted).mp hOther with hOld | rfl
        · obtain ⟨owner, hOwner, hAnnounces⟩ := inv.registered other hOld
          exact ⟨owner, (KeyedTable.mem_insert hUsers).mpr (Or.inl hOwner), hAnnounces⟩
        · exact ⟨user, (KeyedTable.mem_insert hUsers).mpr (Or.inr rfl), hNew⟩
      · intro first hFirst second hSecond hSame
        rcases (KeyedTable.mem_insert inserted).mp hFirst with hFirst | rfl
        · rcases (KeyedTable.mem_insert inserted).mp hSecond with hSecond | rfl
          · exact inv.once first hFirst second hSecond hSame
          · exact absurd hSame (hApart hFirst)
        · rcases (KeyedTable.mem_insert inserted).mp hSecond with hSecond | rfl
          · exact absurd hSame.symm (hApart hSecond)
          · rfl
      · intro first hFirst second hSecond hSame
        rcases (KeyedTable.mem_insert hUsers).mp hFirst with hOldFirst | rfl
        · rcases (KeyedTable.mem_insert hUsers).mp hSecond with hOldSecond | rfl
          · exact inv.emails first hOldFirst second hOldSecond hSame
          · exact absurd hSame (hEmail first hOldFirst)
        · rcases (KeyedTable.mem_insert hUsers).mp hSecond with hOldSecond | rfl
          · exact absurd hSame.symm (hEmail second hOldSecond)
          · rfl
      · intro c' other event' h
        by_cases hc : c' = c
        · subst hc
          simp [ServiceState.setCall] at h
        · simp only [ServiceState.setCall, Function.update_of_ne hc] at h
          obtain ⟨hLock', hEmail', hEvent'⟩ := inv.committing c' other event' h
          refine ⟨?_, ?_, hEvent'⟩
          · exact RowLocks.release_held hLock' hc
          · intro stored hStored hSame
            rcases (KeyedTable.mem_insert hUsers).mp hStored with hStored | rfl
            · exact hEmail' stored hStored hSame
            · rw [hSame, hLock'] at hLock
              exact hc (Option.some.inj hLock)

/-- A step of a relay. -/
theorem ServiceInv.relay (inv : ServiceInv s) {b : RelayAction} {relay : RelayState}
    (hStage : b.isStage = false) (hRelay : relayStep config s.relay b = some relay) :
    ServiceInv { s with relay := relay } := by
  have move := relayMove_of_step hRelay
  refine ⟨inv.traceable.move move, ?_, ?_, ?_, inv.emails, inv.committing⟩
  · intro user hUser
    obtain ⟨row, hRow, hAnnounces⟩ := inv.announced user hUser
    obtain ⟨stored, hStored, hSame⟩ := move.retains hRow
    exact ⟨stored, hStored, hAnnounces.congr hSame.symm⟩
  · intro row hRow
    obtain ⟨before, hBefore, hSame⟩ := move.content_origin hStage hRow
    obtain ⟨user, hUser, hAnnounces⟩ := inv.registered before hBefore
    exact ⟨user, hUser, hAnnounces.congr hSame⟩
  · intro row hRow row' hRow' hId
    obtain ⟨before, hBefore, hSame⟩ := move.content_origin hStage hRow
    obtain ⟨before', hBefore', hSame'⟩ := move.content_origin hStage hRow'
    have hAggregate : before.aggregateId = before'.aggregateId :=
      (congrArg OutboxMessage.Content.aggregateId hSame).trans
        (hId.trans (congrArg OutboxMessage.Content.aggregateId hSame').symm)
    obtain rfl := inv.once before hBefore before' hBefore' hAggregate
    exact KeyedTable.eq_of_key hRow hRow' (OutboxMessage.id_of_content (hSame.symm.trans hSame'))

/-- The flush of a transaction takes the lock of its e-mail, and no registered
user has it. -/
theorem ServiceInv.flush (inv : ServiceInv s) {c : CallId} {values : FlushValues} {email displayName : String}
    {vipLevel : Int} {event : EventEnvelope} (hFree : s.emails email = none) (hNew : s.emailTaken email = false)
    (hEvent : userCreatedEvent (values.user email displayName vipLevel) values = some event) :
    ServiceInv ({ s with emails := s.emails.acquire email c }.setCall c
      (.committing (values.user email displayName vipLevel) event)) := by
  refine inv.setCall ?_ ?_
  · intro c' other hc hLock
    exact RowLocks.acquire_held hLock hFree
  · intro user event' hPhase
    cases hPhase
    refine ⟨RowLocks.acquire_self, ?_, values, hEvent⟩
    intro other hOther hSame
    have hTaken : s.emailTaken email = true := List.any_eq_true.mpr ⟨other, hOther, decide_eq_true hSame⟩
    rw [hNew] at hTaken
    cases hTaken

theorem ServiceInv.step (inv : ServiceInv s) (h : serviceStep registry config s a = some s') :
    ServiceInv s' := by
  cases serviceMove_of_step h with
  | called => exact inv.setPhase (by simp)
  | passed => exact inv.setPhase (by simp)
  | refused | unreadable | unstorable | duplicate | rejected => exact inv.rollback _ _
  | flushed _ hFree hNew _ hEvent => exact inv.flush hFree hNew hEvent
  | committed hCall hUsers hRelay => exact inv.commit hCall hUsers hRelay
  | refreshed => exact inv.setPhase (by simp)
  | failed => exact inv.rollback _ _
  | relayed hStage hRelay => exact inv.relay hStage hRelay

/-- Two calls pass the check with one email; the second insert fails, and a
relay publishes the event of the first. -/
def duplicateEmail : List ServiceAction :=
  [.call 0 "a@example.com" "Ada" 0, .call 1 "a@example.com" "Ada" 0, .check 0, .check 1,
    .flush 0 ⟨"u-1", 10, 10, "e-1", 11, none⟩, .commit 0 "m-1" 12, .refresh 0,
    .flush 1 ⟨"u-2", 13, 13, "e-2", 14, none⟩, .relay (.select 0 20 ["m-1"]), .relay (.lock 0),
    .relay (.lock 0), .relay (.publishReturns 0 .ok 21), .relay (.count 0), .relay (.commit 0)]

end ServicePlatform
