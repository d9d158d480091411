import Mathlib.Data.List.Nodup

/-! The routing of sessions to engines: writes go to the primary, reads take turns
on the replicas. Without a replica the primary takes the reads as well. -/
namespace ServicePlatform

/-- An engine, by its place among those that were built. The first one is
`write_engine`. -/
abbrev EngineId := Nat

def writeEngine : EngineId := 0

structure DatabaseRouter where
  engineUrls : List String
  readEngines : List EngineId

namespace DatabaseRouter

/-- The replica URLs that `build_database_router` goes by. -/
def readUrls (replicaDatabaseUrl : Option String) (replicaDatabaseUrls : List String) : List String :=
  if replicaDatabaseUrls ≠ [] then replicaDatabaseUrls.filter fun url => url ≠ ""
  else replicaDatabaseUrl.toList.filter fun url => url ≠ ""

/-- `build_database_router`. -/
def build (databaseUrl : String) (replicaDatabaseUrl : Option String) (replicaDatabaseUrls : List String) :
    DatabaseRouter :=
  let urls := readUrls replicaDatabaseUrl replicaDatabaseUrls
  if urls = [] then ⟨[databaseUrl], [writeEngine]⟩
  else ⟨databaseUrl :: urls, (List.range urls.length).map (· + 1)⟩

/-- The engine of the next read session, when so many have been opened before. -/
def readEngine (router : DatabaseRouter) (opened : Nat) : Option EngineId :=
  router.readEngines[opened % router.readEngines.length]?

variable {databaseUrl : String} {replicaDatabaseUrl : Option String} {replicaDatabaseUrls : List String}

theorem build_unreplicated (h : readUrls replicaDatabaseUrl replicaDatabaseUrls = []) :
    build databaseUrl replicaDatabaseUrl replicaDatabaseUrls = ⟨[databaseUrl], [writeEngine]⟩ := by
  rw [build, if_pos h]

theorem build_replicated (h : readUrls replicaDatabaseUrl replicaDatabaseUrls ≠ []) :
    (build databaseUrl replicaDatabaseUrl replicaDatabaseUrls).readEngines =
      (List.range (readUrls replicaDatabaseUrl replicaDatabaseUrls).length).map (· + 1) := by
  rw [build, if_neg h]

end DatabaseRouter

end ServicePlatform
