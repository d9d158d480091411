import Mathlib.Data.List.Induction
import ServicePlatform.Service.UserService

/-! What the calls of a schedule come to: who asked for which email, which call
created which user, and that a conflict is raised only for an email that some
user has. -/
namespace ServicePlatform

open Storage Transition

namespace CreatePhase

/-- The email that a call is about, until it raises. -/
def email : CreatePhase → Option String
  | .checking email _ _ => some email
  | .flushing email _ _ => some email
  | .committing user _ => some user.email
  | .refreshing user => some user.email
  | .returned user => some user.email
  | .idle => none
  | .raised _ => none

/-- The user that a call has committed. -/
def created : CreatePhase → Option User
  | .refreshing user => some user
  | .returned user => some user
  | _ => none

/-- The call has not begun, or has ended. -/
def Ended : CreatePhase → Prop
  | .idle => True
  | .returned _ => True
  | .raised _ => True
  | _ => False

end CreatePhase

/-- The schedule has the call, for the email. -/
def Called (as : List ServiceAction) (c : CallId) (email : String) : Prop :=
  ∃ displayName vipLevel, ServiceAction.call c email displayName vipLevel ∈ as

def ServiceAction.isFail : ServiceAction → Bool
  | .fail _ => true
  | _ => false

/-- What the calls of a schedule have come to. -/
structure CallsInv (as : List ServiceAction) (s : ServiceState) : Prop where
  called : ∀ c, s.calls c ≠ .idle ↔ ∃ email, Called as c email
  asked : ∀ c email own, Called as c email → (s.calls c).email = some own → own = email
  created : ∀ user ∈ s.users, ∃ c, (s.calls c).created = some user
  stored : ∀ c user, (s.calls c).created = some user → user ∈ s.users
  creator : ∀ c c' user, (s.calls c).created = some user → (s.calls c').created = some user → c = c'
  refused : ∀ c error, s.calls c = .raised (.conflict error) → error.errorCode = "EMAIL_ALREADY_EXISTS" ∧
    ∀ email, Called as c email → ∃ user ∈ s.users, user.email = email

variable {registry : ErrorRegistry} {config : RelayConfig} {s s' : ServiceState} {as : List ServiceAction}
  {a : ServiceAction} {c : CallId} {email : String}

theorem called_concat : Called (as ++ [a]) c email ↔
    Called as c email ∨ ∃ displayName vipLevel, a = .call c email displayName vipLevel := by
  unfold Called
  simp only [List.mem_append, List.mem_singleton, exists_or, eq_comm]

/-- Steps that are no call ask for nothing. -/
theorem called_concat_quiet (hQuiet : ∀ c email displayName vipLevel, a ≠ .call c email displayName vipLevel) :
    Called (as ++ [a]) c email ↔ Called as c email := by
  rw [called_concat]
  apply or_iff_left
  rintro ⟨displayName, vipLevel, h⟩
  exact hQuiet _ _ _ _ h

theorem emailConflict_code (registry : ErrorRegistry) {error : AppError}
    (h : emailConflict registry = .conflict error) : error.errorCode = "EMAIL_ALREADY_EXISTS" := by
  cases h
  unfold AppError.make
  cases hCode : getErrorCode registry emailAlreadyExists.code with
  | none => rfl
  | some ec => exact getErrorCode_code hCode

namespace CallsInv

theorem initial : CallsInv [] ServiceState.initial where
  called c := by simp [ServiceState.initial, Called]
  asked c email own h := by simp [Called] at h
  created user h := absurd h (KeyedTable.not_mem_empty user)
  stored c user h := nomatch h
  creator c c' user h := nomatch h
  refused c error h := nomatch h

theorem created_moved {t : ServiceState} {phase : CreatePhase} (hCalls : t.calls = Function.update s.calls c phase)
    (hCreated : phase.created = (s.calls c).created) (c' : CallId) :
    (t.calls c').created = (s.calls c').created := by
  rw [hCalls]
  by_cases hc : c' = c
  · rw [hc, Function.update_self, hCreated]
  · rw [Function.update_of_ne hc]

/-- A step after which the same calls have created the same users. -/
theorem of_created (inv : CallsInv as s) {t : ServiceState} {bs : List ServiceAction} (hUsers : t.users = s.users)
    (hCreated : ∀ c, (t.calls c).created = (s.calls c).created)
    (called : ∀ c, t.calls c ≠ .idle ↔ ∃ email, Called bs c email)
    (asked : ∀ c email own, Called bs c email → (t.calls c).email = some own → own = email)
    (refused : ∀ c error, t.calls c = .raised (.conflict error) → error.errorCode = "EMAIL_ALREADY_EXISTS" ∧
      ∀ email, Called bs c email → ∃ user ∈ s.users, user.email = email) : CallsInv bs t := by
  refine ⟨called, asked, ?_, ?_, ?_, hUsers ▸ refused⟩
  · intro user hUser
    simp only [hCreated]
    exact inv.created user (hUsers ▸ hUser)
  · intro c user hUser
    rw [hCreated] at hUser
    exact hUsers ▸ inv.stored c user hUser
  · intro c c' user hFirst hSecond
    rw [hCreated] at hFirst hSecond
    exact inv.creator c c' user hFirst hSecond

/-- A call that is under way gets on without a commit. -/
theorem move (inv : CallsInv as s) {emails : RowLocks String CallId} {phase : CreatePhase}
    (hQuiet : ∀ c email displayName vipLevel, a ≠ .call c email displayName vipLevel)
    (hActive : s.calls c ≠ .idle) (hPhase : phase ≠ .idle)
    (hEmail : ∀ own, phase.email = some own → (s.calls c).email = some own)
    (hCreated : phase.created = (s.calls c).created)
    (hRefused : ∀ error, phase = .raised (.conflict error) → error.errorCode = "EMAIL_ALREADY_EXISTS" ∧
      ∃ user ∈ s.users, (s.calls c).email = some user.email) :
    CallsInv (as ++ [a]) ({ s with emails := emails }.setCall c phase) := by
  have hOther : ∀ {c'}, c' ≠ c → ({ s with emails := emails }.setCall c phase).calls c' = s.calls c' :=
    fun hc => Function.update_of_ne hc _ _
  have hSelf : ({ s with emails := emails }.setCall c phase).calls c = phase := Function.update_self _ _ _
  refine inv.of_created rfl (created_moved rfl hCreated) ?_ ?_ ?_
  · intro c'
    simp only [called_concat_quiet hQuiet, ← inv.called]
    by_cases hc : c' = c
    · rw [hc, hSelf]
      exact iff_of_true hPhase hActive
    · rw [hOther hc]
  · intro c' email own hCalled hOwn
    rw [called_concat_quiet hQuiet] at hCalled
    by_cases hc : c' = c
    · rw [hc, hSelf] at hOwn
      exact inv.asked c email own (hc ▸ hCalled) (hEmail own hOwn)
    · rw [hOther hc] at hOwn
      exact inv.asked c' email own hCalled hOwn
  · intro c' error hRaised
    simp only [called_concat_quiet hQuiet]
    by_cases hc : c' = c
    · rw [hc, hSelf] at hRaised
      obtain ⟨hCode, user, hUser, hOwn⟩ := hRefused error hRaised
      exact ⟨hCode, fun email hCalled => ⟨user, hUser, inv.asked c email _ (hc ▸ hCalled) hOwn⟩⟩
    · rw [hOther hc] at hRaised
      exact inv.refused c' error hRaised

/-- A new call asks for an email. -/
theorem begin (inv : CallsInv as s) {displayName : String} {vipLevel : Int} (hIdle : s.calls c = .idle) :
    CallsInv (as ++ [.call c email displayName vipLevel]) (s.setCall c (.checking email displayName vipLevel)) := by
  have hOther : ∀ {c'}, c' ≠ c → (s.setCall c (.checking email displayName vipLevel)).calls c' = s.calls c' :=
    fun hc => Function.update_of_ne hc _ _
  have hSelf : (s.setCall c (.checking email displayName vipLevel)).calls c =
      .checking email displayName vipLevel := Function.update_self _ _ _
  have hNew : ∀ own, ¬ Called as c own := fun own h => (inv.called c).mpr ⟨own, h⟩ hIdle
  have hAgain : ∀ {c' own}, c' ≠ c →
      (Called (as ++ [.call c email displayName vipLevel]) c' own ↔ Called as c' own) := by
    intro c' own hc
    rw [called_concat]
    apply or_iff_left
    rintro ⟨name, level, h⟩
    cases h
    exact hc rfl
  have hCalled : Called (as ++ [.call c email displayName vipLevel]) c email :=
    called_concat.mpr (Or.inr ⟨displayName, vipLevel, rfl⟩)
  refine inv.of_created rfl (created_moved rfl (by rw [hIdle]; rfl)) ?_ ?_ ?_
  · intro c'
    by_cases hc : c' = c
    · rw [hc, hSelf]
      exact iff_of_true (by simp) ⟨email, hCalled⟩
    · rw [hOther hc, inv.called]
      simp only [hAgain hc]
  · intro c' own other hOwn hAsked
    by_cases hc : c' = c
    · rw [hc, hSelf] at hAsked
      rw [hc] at hOwn
      cases hAsked
      rcases called_concat.mp hOwn with hOld | ⟨name, level, h⟩
      · exact absurd hOld (hNew own)
      · cases h
        rfl
    · rw [hOther hc] at hAsked
      exact inv.asked c' own other ((hAgain hc).mp hOwn) hAsked
  · intro c' error hRaised
    by_cases hc : c' = c
    · rw [hc, hSelf] at hRaised
      cases hRaised
    · rw [hOther hc] at hRaised
      simp only [hAgain hc]
      exact inv.refused c' error hRaised

/-- The commit adds the user that the call has created. -/
theorem commit (inv : CallsInv as s) {user : User} {event : EventEnvelope} {users : UserTable} {relay : RelayState}
    {emails : RowLocks String CallId} (hQuiet : ∀ c email displayName vipLevel, a ≠ .call c email displayName vipLevel)
    (hCall : s.calls c = .committing user event) (hUsers : s.users.insert user = some users) :
    CallsInv (as ++ [a])
      ({ s with
        users := users
        relay := relay
        emails := emails }.setCall c (.refreshing user)) := by
  let t := { s with
    users := users
    relay := relay
    emails := emails }.setCall c (.refreshing user)
  have hOther : ∀ {c'}, c' ≠ c → t.calls c' = s.calls c' := fun hc => Function.update_of_ne hc _ _
  have hSelf : t.calls c = .refreshing user := Function.update_self _ _ _
  have hFresh := (KeyedTable.insert_eq_some hUsers).1
  have hNew : user ∉ s.users := fun hUser => hFresh user hUser rfl
  have hMem : ∀ {other}, other ∈ users ↔ other ∈ s.users ∨ other = user := KeyedTable.mem_insert hUsers
  show CallsInv (as ++ [a]) t
  constructor
  · intro c'
    simp only [called_concat_quiet hQuiet, ← inv.called]
    by_cases hc : c' = c
    · rw [hc, hSelf, hCall]
      exact iff_of_true (by simp) (by simp)
    · rw [hOther hc]
  · intro c' email own hCalled hOwn
    rw [called_concat_quiet hQuiet] at hCalled
    by_cases hc : c' = c
    · rw [hc, hSelf] at hOwn
      rw [hc] at hCalled
      apply inv.asked c email own hCalled
      rw [hCall]
      exact hOwn
    · rw [hOther hc] at hOwn
      exact inv.asked c' email own hCalled hOwn
  · intro other hStored
    rcases hMem.mp hStored with hOld | rfl
    · obtain ⟨c', hCreated⟩ := inv.created other hOld
      have hc : c' ≠ c := by
        rintro rfl
        rw [hCall] at hCreated
        cases hCreated
      exact ⟨c', by rw [hOther hc, hCreated]⟩
    · exact ⟨c, by rw [hSelf]; rfl⟩
  · intro c' other hCreated
    by_cases hc : c' = c
    · rw [hc, hSelf] at hCreated
      cases hCreated
      exact hMem.mpr (Or.inr rfl)
    · rw [hOther hc] at hCreated
      exact hMem.mpr (Or.inl (inv.stored c' other hCreated))
  · have hApart : ∀ {c'}, c' ≠ c → (t.calls c').created ≠ some user := by
      intro c' hc hCreated
      rw [hOther hc] at hCreated
      exact hNew (inv.stored c' user hCreated)
    intro c' c'' other hFirst hSecond
    by_cases hc : c' = c
    · by_cases hc' : c'' = c
      · rw [hc, hc']
      · rw [hc, hSelf] at hFirst
        cases hFirst
        exact absurd hSecond (hApart hc')
    · by_cases hc' : c'' = c
      · rw [hc', hSelf] at hSecond
        cases hSecond
        exact absurd hFirst (hApart hc)
      · rw [hOther hc] at hFirst
        rw [hOther hc'] at hSecond
        exact inv.creator c' c'' other hFirst hSecond
  · intro c' error hRaised
    have hc : c' ≠ c := by
      rintro rfl
      rw [hSelf] at hRaised
      cases hRaised
    rw [hOther hc] at hRaised
    obtain ⟨hCode, hStored⟩ := inv.refused c' error hRaised
    refine ⟨hCode, fun email hCalled => ?_⟩
    obtain ⟨other, hOld, hEmail⟩ := hStored email ((called_concat_quiet hQuiet).mp hCalled)
    exact ⟨other, hMem.mpr (Or.inl hOld), hEmail⟩

/-- A call that raises anything but a conflict. -/
theorem raise (inv : CallsInv as s) {error : CreateError}
    (hQuiet : ∀ c email displayName vipLevel, a ≠ .call c email displayName vipLevel)
    (hActive : s.calls c ≠ .idle) (hCreated : (s.calls c).created = none)
    (hRefused : ∀ conflict, error = .conflict conflict → conflict.errorCode = "EMAIL_ALREADY_EXISTS" ∧
      ∃ user ∈ s.users, (s.calls c).email = some user.email) :
    CallsInv (as ++ [a]) (s.rollback c error) := by
  have hSilent : ∀ own, (CreatePhase.raised error).email = some own → (s.calls c).email = some own := by
    intro own hOwn
    cases hOwn
  apply inv.move hQuiet hActive (by simp) hSilent hCreated.symm
  intro conflict hError
  exact hRefused conflict (by simpa using hError)

/-- A call that goes on to its next await. -/
theorem advance (inv : CallsInv as s) {emails : RowLocks String CallId} {phase : CreatePhase}
    (hQuiet : ∀ c email displayName vipLevel, a ≠ .call c email displayName vipLevel)
    (hActive : s.calls c ≠ .idle) (hPhase : phase ≠ .idle) (hRunning : ∀ error, phase ≠ .raised error)
    (hEmail : phase.email = (s.calls c).email) (hCreated : phase.created = (s.calls c).created) :
    CallsInv (as ++ [a]) ({ s with emails := emails }.setCall c phase) := by
  apply inv.move hQuiet hActive hPhase (fun own hOwn => hEmail ▸ hOwn) hCreated
  intro error hRaised
  exact absurd hRaised (hRunning _)

theorem step (inv : CallsInv as s) (hLive : a.isFail = false) (h : serviceStep registry config s a = some s') :
    CallsInv (as ++ [a]) s' := by
  cases serviceMove_of_step h with
  | called hIdle => exact inv.begin hIdle
  | passed hCall =>
      apply inv.advance (by simp) (by simp [hCall]) (by simp) (by simp)
      · simp [hCall, CreatePhase.email]
      · simp [hCall, CreatePhase.created]
  | refused hCall _ hUser hEmail =>
      apply inv.raise (by simp) (by simp [hCall]) (by simp [hCall, CreatePhase.created])
      intro conflict hConflict
      refine ⟨emailConflict_code registry hConflict, _, hUser, ?_⟩
      rw [hCall, hEmail]
      rfl
  | unreadable hCall | unstorable hCall | duplicate hCall | rejected hCall =>
      exact inv.raise (by simp) (by simp [hCall]) (by simp [hCall, CreatePhase.created]) (by simp)
  | flushed hCall =>
      apply inv.advance (by simp) (by simp [hCall]) (by simp) (by simp)
      · simp [hCall, CreatePhase.email]
      · simp [hCall, CreatePhase.created]
  | committed hCall hUsers => exact inv.commit (by simp) hCall hUsers
  | refreshed hCall =>
      apply inv.advance (by simp) (by simp [hCall]) (by simp) (by simp)
      · simp [hCall, CreatePhase.email]
      · simp [hCall, CreatePhase.created]
  | failed => cases hLive
  | relayed =>
      exact ⟨by simpa [called_concat] using inv.called, by simpa [called_concat] using inv.asked, inv.created,
        inv.stored, inv.creator, by simpa [called_concat] using inv.refused⟩

theorem run (hLive : ∀ a ∈ as, a.isFail = false)
    (run : exec (serviceStep registry config) ServiceState.initial as = some s) : CallsInv as s := by
  induction as using List.reverseRecOn generalizing s with
  | nil =>
      cases run
      exact initial
  | append_singleton as a ih =>
      obtain ⟨hEarlier, hLast⟩ := List.forall_mem_append.mp hLive
      obtain ⟨m, hRun, hStep⟩ := exec_concat.mp run
      exact (ih hEarlier hRun).step (hLast a (List.mem_singleton.mpr rfl)) hStep

end CallsInv

end ServicePlatform
