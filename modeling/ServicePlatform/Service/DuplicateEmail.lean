import ServicePlatform.Service.UserCalls
import ServicePlatform.Service.UserOutbox

/-! How the calls for one email end. The check and the insert are apart, so an
email can be taken in between, and then the flush raises what the database
raises. Calls whose email is still new when they flush end in a user, and all
others in a conflict. -/
namespace ServicePlatform

open Storage Transition

variable {registry : ErrorRegistry} {config : RelayConfig} {s s' : ServiceState} {as : List ServiceAction}
  {a : ServiceAction} {c : CallId} {email : String}

/-- What a call raises, if it raises, is a conflict. -/
def CreatePhase.Fine (phase : CreatePhase) : Prop :=
  ∀ error, phase = .raised error → ∃ conflict, error = .conflict conflict

/-- A call that asked and has ended has returned or raised. -/
theorem CallsInv.ended (inv : CallsInv as s) (hEnded : (s.calls c).Ended) (hCalled : Called as c email) :
    (∃ user, s.calls c = .returned user) ∨ ∃ error, s.calls c = .raised error := by
  have hActive : s.calls c ≠ .idle := (inv.called c).mpr ⟨email, hCalled⟩
  cases hPhase : s.calls c with
  | idle => exact absurd hPhase hActive
  | returned user => exact Or.inl ⟨user, rfl⟩
  | raised error => exact Or.inr ⟨error, rfl⟩
  | _ =>
      rw [hPhase] at hEnded
      exact hEnded.elim

/-- A committed user was returned by the call that asked for its email. -/
theorem CallsInv.returned (inv : CallsInv as s) (hEnded : ∀ c, (s.calls c).Ended) {user : User}
    (hUser : user ∈ s.users) : ∃ c, Called as c user.email ∧ s.calls c = .returned user := by
  obtain ⟨c, hCreated⟩ := inv.created user hUser
  have hPhase : s.calls c = .returned user := by
    have hHere := hEnded c
    cases hOwn : s.calls c with
    | returned other =>
        rw [hOwn] at hCreated
        cases hCreated
        rfl
    | refreshing other =>
        rw [hOwn] at hHere
        exact hHere.elim
    | _ =>
        rw [hOwn] at hCreated
        cases hCreated
  obtain ⟨email, hCalled⟩ := (inv.called c).mp (by simp [hPhase])
  have hEmail := inv.asked c email user.email hCalled (by rw [hPhase]; rfl)
  exact ⟨c, hEmail ▸ hCalled, hPhase⟩

end ServicePlatform
