import ServicePlatform.Kernel.DatabaseRouter
import ServicePlatform.Contract.Events

/-! The readiness of a service: every check is made, and one that fails or raises
makes the answer a 503. -/
namespace ServicePlatform

/-- What `/health/ready` has found so far: the text for each check, and whether
all were fine. -/
structure CheckResults where
  results : List (String × String)
  allOk : Bool

namespace CheckResults

/-- One turn of the loop. A check that raises has no outcome. -/
def add (found : CheckResults) (check : String × Option Bool) : CheckResults :=
  let ok := check.2.getD false
  ⟨found.results ++ [(check.1, if ok then "ok" else "unavailable")], found.allOk && ok⟩

end CheckResults

/-- The status code and the body of `/health/ready`. -/
def ready (checks : List (String × Option Bool)) : Nat × PyValue :=
  let found := checks.foldl CheckResults.add ⟨[], true⟩
  (if found.allOk then 200 else 503,
    .dict [(.str "status", .str (if found.allOk then "ok" else "degraded")),
      (.str "checks", .dict (found.results.map fun result => (.str result.1, .str result.2)))])

/-- All the checks before and all the new ones. -/
theorem foldl_add (checks : List (String × Option Bool)) (found : CheckResults) :
    (checks.foldl CheckResults.add found).allOk =
      (found.allOk && checks.all fun check => check.2.getD false) := by
  induction checks generalizing found with
  | nil => simp
  | cons check checks ih =>
      rw [List.foldl_cons, ih, List.all_cons, CheckResults.add, Bool.and_assoc]

/-- Ready means that every check is fine. -/
theorem ready_status (checks : List (String × Option Bool)) :
    (ready checks).1 = 200 ↔ ∀ check ∈ checks, check.2 = some true := by
  rw [ready, foldl_add, Bool.true_and]
  have hAll : (checks.all fun check => check.2.getD false) = true ↔ ∀ check ∈ checks, check.2 = some true := by
    rw [List.all_eq_true]
    refine forall₂_congr fun check _ => ?_
    cases check.2 with
    | none => simp
    | some ok => simp
  rw [← hAll]
  split
  · next hOk => exact iff_of_true rfl hOk
  · next hOk => exact iff_of_false (fun h : (503 : Nat) = 200 => absurd h (by decide)) hOk

namespace DatabaseRouter

variable (router : DatabaseRouter) (reachable : EngineId → Bool)

def checkWrite : Bool := reachable writeEngine

/-- `check_read`: one engine that answers is enough. -/
def checkRead : Bool := router.readEngines.any reachable

/-- The checks of the service. -/
def healthChecks : List (String × Option Bool) :=
  [("db_write", some (checkWrite reachable)), ("db_read", some (router.checkRead reachable))]

theorem ready_healthChecks : (ready (router.healthChecks reachable)).1 = 200 ↔
    reachable writeEngine = true ∧ ∃ e ∈ router.readEngines, reachable e = true := by
  rw [ready_status]
  simp [healthChecks, checkWrite, checkRead]

end DatabaseRouter

end ServicePlatform
