import ServicePlatform.Kernel.Health
import ServicePlatform.Service.QueryLogging
import ServicePlatform.Service.UserApi
import Mathlib.Data.List.Count

/-! The service with its replicas. What the primary commits arrives at a replica
later and in the same order, reads take turns on the replicas, and an engine may
be out of reach. A read that meets such an engine fails; no other one is tried. -/
namespace ServicePlatform

open Storage Transition

/-- A call of `get_user`: the engine of its session, and what it returned or
raised if the engine could be reached. -/
structure ReadRecord where
  userId : String
  engine : EngineId
  answer : Option (Except AppError User)

namespace ReadRecord

def failed (record : ReadRecord) : Bool := record.answer.isNone

def found (record : ReadRecord) : Option User :=
  match record.answer with
  | some (.ok user) => some user
  | _ => none

end ReadRecord

/-- The primary, the number of commits that each replica has applied, the
engines that can be reached, and the reads so far. -/
structure ReplicatedState where
  service : ServiceState
  applied : EngineId → Nat
  reachable : EngineId → Bool
  reads : List ReadRecord

inductive ReplicaAction where
  | service (a : ServiceAction)
  | apply (e : EngineId)
  | reach (e : EngineId) (up : Bool)
  | read (userId : String)

namespace ReplicaAction

def isRead : ReplicaAction → Bool
  | .read _ => true
  | _ => false

def isReach : ReplicaAction → Bool
  | .reach .. => true
  | _ => false

end ReplicaAction

namespace ReplicatedState

def initial : ReplicatedState := ⟨ServiceState.initial, fun _ => 0, fun _ => true, []⟩

/-- The users that a session on the engine sees. -/
def rows (s : ReplicatedState) (e : EngineId) : List User :=
  if e = writeEngine then s.service.users.rows else s.service.users.rows.take (s.applied e)

def sees (s : ReplicatedState) (user : User) (e : EngineId) : Bool := (s.rows e).any fun other => other.id = user.id

/-- What `get_user` does on an engine. -/
def answer (registry : ErrorRegistry) (s : ReplicatedState) (userId : String) (e : EngineId) :
    Option (Except AppError User) :=
  if s.reachable e then some (UserService.getUser registry (s.rows e) userId) else none

end ReplicatedState

def replicaStep (registry : ErrorRegistry) (config : RelayConfig) (router : DatabaseRouter) (s : ReplicatedState) :
    ReplicaAction → Option ReplicatedState
  | .service a => (serviceStep registry config s.service a).map fun service => { s with service := service }
  | .apply e =>
      if s.applied e < s.service.users.rows.length then
        some { s with applied := Function.update s.applied e (s.applied e + 1) }
      else none
  | .reach e up => some { s with reachable := Function.update s.reachable e up }
  | .read userId =>
      (router.readEngine s.reads.length).map fun e =>
        { s with reads := s.reads ++ [⟨userId, e, s.answer registry userId e⟩] }

variable {registry : ErrorRegistry} {config : RelayConfig} {router : DatabaseRouter} {s t : ReplicatedState}
  {a : ReplicaAction} {user : User}

/-- Users are added at the end of the table. -/
theorem users_extends {s s' : ServiceState} {a : ServiceAction} (h : serviceStep registry config s a = some s') :
    s.users.rows <+: s'.users.rows := by
  cases serviceMove_of_step h with
  | @committed c user event rowId rowCreatedAt users relay hCall hUsers hRelay =>
      change s.users.rows <+: users.rows
      rw [(KeyedTable.insert_eq_some hUsers).2]
      exact List.prefix_append _ _
  | _ => exact List.prefix_rfl

namespace ReplicatedState

/-- An engine sees more and more users. -/
theorem rows_step (h : replicaStep registry config router s a = some t) (e : EngineId) : s.rows e <+: t.rows e := by
  unfold rows
  cases a with
  | service a =>
      obtain ⟨service, hStep, rfl⟩ := Option.map_eq_some_iff.mp h
      split
      · exact users_extends hStep
      · exact (users_extends hStep).take _
  | apply e' =>
      simp only [replicaStep] at h
      split at h
      · cases h
        split
        · exact List.prefix_rfl
        · by_cases hHere : e = e'
          · subst hHere
            dsimp only
            rw [Function.update_self]
            exact List.take_prefix_take_left (Nat.le_succ _)
          · dsimp only
            rw [Function.update_of_ne hHere]
      · cases h
  | reach e' up =>
      cases h
      exact List.prefix_rfl
  | read userId =>
      obtain ⟨e', -, rfl⟩ := Option.map_eq_some_iff.mp h
      exact List.prefix_rfl

theorem rows_prefix (s : ReplicatedState) (e : EngineId) : s.rows e <+: s.service.users.rows := by
  unfold rows
  split
  · exact List.prefix_rfl
  · exact List.take_prefix _ _

theorem rows_run {as : List ReplicaAction} (run : exec (replicaStep registry config router) s as = some t)
    (e : EngineId) : s.rows e <+: t.rows e :=
  monotone (I := fun _ => True) (R := fun s t => s.rows e <+: t.rows e) (fun _ => List.prefix_rfl)
    (fun _ _ _ => List.IsPrefix.trans) (fun _ _ _ _ _ => trivial) (fun _ _ _ _ h => rows_step h e) trivial run

theorem sees_mono {e : EngineId} (h : s.rows e <+: t.rows e) (hSees : s.sees user e = true) : t.sees user e = true := by
  rw [sees, List.any_eq_true] at hSees ⊢
  obtain ⟨other, hOther, hId⟩ := hSees
  exact ⟨other, h.subset hOther, hId⟩

/-- What a read of a committed user finds on an engine. -/
theorem found_iff (registry : ErrorRegistry) (hUser : user ∈ s.service.users) (e : EngineId) :
    let record : ReadRecord := ⟨user.id, e, s.answer registry user.id e⟩
    (record.failed = true ↔ s.reachable e = false) ∧ (∀ other, record.found = some other → other = user) ∧
      (record.found.isSome = true ↔ s.reachable e = true ∧ s.sees user e = true) := by
  intro record
  cases hReach : s.reachable e with
  | false =>
      have hAnswer : record.answer = none := by simp [record, answer, hReach]
      simp [ReadRecord.failed, ReadRecord.found, hAnswer]
  | true =>
      have hAnswer : record.answer = some (UserService.getUser registry (s.rows e) user.id) := by
        simp [record, answer, hReach]
      cases hFind : (s.rows e).find? fun other => other.id = user.id with
      | none =>
          have hSees : s.sees user e = false := by
            rw [sees, List.any_eq_false]
            exact fun other hOther => List.find?_eq_none.mp hFind other hOther
          simp [ReadRecord.failed, ReadRecord.found, hAnswer, UserService.getUser, hFind, hSees]
      | some other =>
          have hOther := List.mem_of_find?_eq_some hFind
          have hId : other.id = user.id := by simpa using List.find?_some hFind
          have hSame : other = user :=
            KeyedTable.eq_of_key (KeyedTable.mem_def.mpr ((s.rows_prefix e).subset hOther)) hUser hId
          have hSees : s.sees user e = true := List.any_eq_true.mpr ⟨other, hOther, by simpa using hId⟩
          simp [ReadRecord.failed, ReadRecord.found, hAnswer, UserService.getUser, hFind, hSees, hSame]

theorem found_read {userId : String} {e : EngineId}
    (h : (ReadRecord.mk userId e (s.answer registry userId e)).found = some user) :
    (s.rows e).find? (fun other => other.id = userId) = some user := by
  unfold ReadRecord.found answer UserService.getUser at h
  cases hFind : (s.rows e).find? fun other => other.id = userId with
  | none =>
      simp only [hFind] at h
      split at h
      · next hAnswer =>
          split at hAnswer
          · cases hAnswer
          · cases hAnswer
      · cases h
  | some other =>
      simp only [hFind] at h
      split at h
      · next hAnswer =>
          split at hAnswer
          · cases hAnswer
            exact h
          · cases hAnswer
      · cases h

end ReplicatedState

/-- What a read between two states meets. -/
structure Serves (s t : ReplicatedState) (user : User) (record : ReadRecord) : Prop where
  failed : record.failed = true ↔ s.reachable record.engine = false
  found : ∀ other, record.found = some other → other = user
  early : s.reachable record.engine = true → s.sees user record.engine = true → record.found.isSome = true
  late : record.found.isSome = true → s.reachable record.engine = true ∧ t.sees user record.engine = true

namespace ReplicatedState

/-- A step that is no read. -/
theorem reads_kept (h : replicaStep registry config router s a = some t) (hRead : a.isRead = false) :
    t.reads = s.reads := by
  cases a with
  | service a =>
      obtain ⟨service, -, rfl⟩ := Option.map_eq_some_iff.mp h
      rfl
  | apply e =>
      simp only [replicaStep] at h
      split at h
      · cases h
        rfl
      · cases h
  | reach e up =>
      cases h
      rfl
  | read userId => cases hRead

theorem reachable_kept (h : replicaStep registry config router s a = some t) (hReach : a.isReach = false) :
    t.reachable = s.reachable := by
  cases a with
  | service a =>
      obtain ⟨service, -, rfl⟩ := Option.map_eq_some_iff.mp h
      rfl
  | apply e =>
      simp only [replicaStep] at h
      split at h
      · cases h
        rfl
      · cases h
  | reach e up => cases hReach
  | read userId =>
      obtain ⟨e, -, rfl⟩ := Option.map_eq_some_iff.mp h
      rfl

/-- The reads of a stretch, in their order. -/
theorem reads_along {as : List ReplicaAction} (run : exec (replicaStep registry config router) s as = some t)
    (hStable : ∀ a ∈ as, a.isReach = false) (hReads : ∀ userId, .read userId ∈ as → userId = user.id)
    (hUser : user ∈ s.service.users) :
    ∃ records, t.reads = s.reads ++ records ∧ records.length = as.countP ReplicaAction.isRead ∧
      (∀ j record, records[j]? = some record → router.readEngine (s.reads.length + j) = some record.engine) ∧
      ∀ record ∈ records, Serves s t user record := by
  induction as generalizing s with
  | nil =>
      cases run
      exact ⟨[], by simp, rfl, by simp, by simp⟩
  | cons a as ih =>
      obtain ⟨m, hStep, hRest⟩ := exec_cons.mp run
      have hKept : m.reachable = s.reachable := reachable_kept hStep (hStable a (List.mem_cons_self ..))
      have hGrown : user ∈ m.service.users := (rows_step hStep writeEngine).subset hUser
      obtain ⟨records, hRecords, hLength, hEngines, hServes⟩ := ih hRest
        (fun b hb => hStable b (List.mem_cons_of_mem _ hb))
        (fun userId hMem => hReads userId (List.mem_cons_of_mem _ hMem)) hGrown
      have hLater : ∀ record ∈ records, Serves s t user record := by
        intro record hRecord
        obtain ⟨hFailed, hFound, hEarly, hLate⟩ := hServes record hRecord
        rw [hKept] at hFailed hEarly hLate
        exact ⟨hFailed, hFound, fun hUp hSees => hEarly hUp (sees_mono (rows_step hStep _) hSees), hLate⟩
      cases hRead : a.isRead with
      | false =>
          have hSame := reads_kept hStep hRead
          rw [hSame] at hRecords hEngines
          refine ⟨records, hRecords, ?_, hEngines, hLater⟩
          rw [hLength, List.countP_cons_of_neg (by simp [hRead])]
      | true =>
          cases a with
          | read userId =>
              obtain rfl := hReads userId (List.mem_cons_self ..)
              obtain ⟨e, hEngine, rfl⟩ := Option.map_eq_some_iff.mp hStep
              obtain ⟨hFailed, hFound, hSome⟩ := found_iff registry hUser e
              have hAfter : s.rows e <+: t.rows e := rows_run run e
              refine ⟨⟨user.id, e, s.answer registry user.id e⟩ :: records, ?_, ?_, ?_, ?_⟩
              · rw [hRecords]
                simp
              · rw [List.length_cons, hLength, List.countP_cons_of_pos hRead]
              · intro j record hRecord
                cases j with
                | zero =>
                    cases hRecord
                    exact hEngine
                | succ j =>
                    have hNext := hEngines j record hRecord
                    rw [List.length_append, List.length_singleton, Nat.add_assoc, Nat.add_comm 1 j] at hNext
                    exact hNext
              · rintro record (_ | ⟨_, hRecord⟩)
                · exact ⟨hFailed, hFound, fun hUp hSees => hSome.mpr ⟨hUp, hSees⟩,
                    fun hIs => ⟨(hSome.mp hIs).1, sees_mono hAfter (hSome.mp hIs).2⟩⟩
                · exact hLater record hRecord
          | service a => cases hRead
          | apply e => cases hRead
          | reach e up => cases hRead

/-- As many reads as there are read engines: each engine serves one of them. -/
theorem engines_of_round {records : List ReadRecord} {opened : Nat}
    (hLength : records.length = router.readEngines.length)
    (hEngines : ∀ j record, records[j]? = some record → router.readEngine (opened + j) = some record.engine) :
    (records.map ReadRecord.engine).Perm router.readEngines := by
  have hTurns : records.map ReadRecord.engine = router.readEngines.rotate opened := by
    refine List.ext_getElem (by simp [hLength]) fun j hj hj' => ?_
    rw [List.length_map] at hj
    have hEngine := hEngines j records[j] (List.getElem?_eq_getElem hj)
    obtain ⟨hPlace, hHere⟩ := List.getElem?_eq_some_iff.mp hEngine
    rw [List.getElem_map, List.getElem_rotate, ← hHere]
    simp only [Nat.add_comm]
  rw [hTurns]
  exact List.rotate_perm _ _

/-- A round of reads of a committed user, from any state and with anything else
in between: each read engine serves one read, the reads that fail are as many as
the engines out of reach, and the reads that find the user are no fewer than the
engines that had it before and no more than the ones that have it afterwards.
The service reports itself ready although some reads of each round fail. -/
theorem round_of_reads {as : List ReplicaAction} (run : exec (replicaStep registry config router) s as = some t)
    (hRound : as.countP ReplicaAction.isRead = router.readEngines.length)
    (hStable : ∀ a ∈ as, a.isReach = false) (hReads : ∀ userId, .read userId ∈ as → userId = user.id)
    (hUser : user ∈ s.service.users) :
    ∃ records, t.reads = s.reads ++ records ∧ (records.map ReadRecord.engine).Perm router.readEngines ∧
      records.countP ReadRecord.failed = router.readEngines.countP (fun e => !s.reachable e) ∧
      (∀ record ∈ records, ∀ other, record.found = some other → other = user) ∧
      router.readEngines.countP (fun e => s.reachable e && s.sees user e) ≤
        records.countP (fun record => record.found.isSome) ∧
      records.countP (fun record => record.found.isSome) ≤
        router.readEngines.countP (fun e => s.reachable e && t.sees user e) ∧
      ((ready (router.healthChecks s.reachable)).1 = 200 ↔
        s.reachable writeEngine = true ∧ records.countP ReadRecord.failed < router.readEngines.length) := by
  obtain ⟨records, hRecords, hLength, hEngines, hServes⟩ := reads_along run hStable hReads hUser
  have hPerm := engines_of_round (hLength.trans hRound) hEngines
  have hCount : ∀ p : EngineId → Bool, router.readEngines.countP p = records.countP fun record => p record.engine := by
    intro p
    rw [← hPerm.countP_eq, List.countP_map]
    rfl
  have hFailed : records.countP ReadRecord.failed = router.readEngines.countP fun e => !s.reachable e := by
    rw [hCount]
    refine List.countP_congr fun record hRecord => ?_
    simpa using (hServes record hRecord).failed
  refine ⟨records, hRecords, hPerm, hFailed, fun record hRecord => (hServes record hRecord).found, ?_, ?_, ?_⟩
  · rw [hCount]
    refine List.countP_mono_left fun record hRecord hBoth => ?_
    obtain ⟨hUp, hSees⟩ := Bool.and_eq_true_iff.mp hBoth
    exact (hServes record hRecord).early hUp hSees
  · rw [hCount]
    refine List.countP_mono_left fun record hRecord hFound => ?_
    exact Bool.and_eq_true_iff.mpr ((hServes record hRecord).late hFound)
  · rw [DatabaseRouter.ready_healthChecks, hFailed]
    refine and_congr_right fun _ => ?_
    rw [List.countP_lt_length_iff]
    simp

/-- One user is created. -/
def creation : List ReplicaAction :=
  [.service (.call 0 "a@b.c" "Ada" 0), .service (.check 0), .service (.flush 0 ⟨"u-1", 10, 10, "e-1", 11, none⟩),
    .service (.commit 0 "m-1" 12)]

def ada : User := ⟨"u-1", "a@b.c", "Ada", "active", 10, 0, 10⟩

def twoReplicas : DatabaseRouter := DatabaseRouter.build "primary" none ["replica-1", "replica-2"]

/-- One replica has the user, and the other one is out of reach: the service is
ready, and one of two reads fails. -/
theorem round_of_reads_oneDown : ∃ s t records,
    exec (replicaStep [] ⟨true, 100⟩ twoReplicas) initial (creation ++ [.apply 1, .reach 2 false]) = some s ∧
      exec (replicaStep [] ⟨true, 100⟩ twoReplicas) s [.read "u-1", .read "u-1"] = some t ∧
      t.reads = s.reads ++ records ∧ records.countP ReadRecord.failed = 1 ∧
      1 ≤ records.countP (fun record => record.found.isSome) ∧
      (ready (twoReplicas.healthChecks s.reachable)).1 = 200 := by
  obtain ⟨s, t, hBefore, run, hUser, hDown, hSeen, hUp⟩ : ∃ s t,
      exec (replicaStep [] ⟨true, 100⟩ twoReplicas) initial (creation ++ [.apply 1, .reach 2 false]) = some s ∧
        exec (replicaStep [] ⟨true, 100⟩ twoReplicas) s [.read "u-1", .read "u-1"] = some t ∧
        ada ∈ s.service.users ∧ twoReplicas.readEngines.countP (fun e => !s.reachable e) = 1 ∧
        twoReplicas.readEngines.countP (fun e => s.reachable e && s.sees ada e) = 1 ∧
        s.reachable writeEngine = true :=
    ⟨_, _, rfl, rfl, List.mem_singleton_self _, rfl, rfl, rfl⟩
  obtain ⟨records, hRecords, -, hFailed, -, hFound, -, hReady⟩ := round_of_reads run rfl (by simp [ReplicaAction.isReach])
    (by simp [ada]) hUser
  rw [hDown] at hFailed
  rw [hSeen] at hFound
  exact ⟨s, t, records, hBefore, run, hRecords, hFailed, hFound, hReady.mpr ⟨hUp, by rw [hFailed]; decide⟩⟩

/-- The reads that found a user were on engines that have it. -/
structure ReadsInv (s : ReplicatedState) : Prop where
  seen : ∀ record ∈ s.reads, ∀ user, record.found = some user → user.id = record.userId ∧ user ∈ s.rows record.engine
  again : s.reads.Pairwise fun earlier later => earlier.engine = later.engine → earlier.userId = later.userId →
    ∀ user, earlier.found = some user → later.failed = false → later.found = some user

theorem readsInv_initial : ReadsInv initial := ⟨fun _ h => absurd h List.not_mem_nil, List.Pairwise.nil⟩

theorem ReadsInv.step (inv : ReadsInv s) (h : replicaStep registry config router s a = some t) : ReadsInv t := by
  have hSeen : ∀ record ∈ s.reads, ∀ user, record.found = some user →
      user.id = record.userId ∧ user ∈ t.rows record.engine := by
    intro record hRecord user hFound
    obtain ⟨hId, hMem⟩ := inv.seen record hRecord user hFound
    exact ⟨hId, (rows_step h _).subset hMem⟩
  cases hRead : a.isRead with
  | false =>
      have hSame := reads_kept h hRead
      exact ⟨hSame ▸ hSeen, hSame ▸ inv.again⟩
  | true =>
      cases a with
      | read userId =>
          obtain ⟨e, -, rfl⟩ := Option.map_eq_some_iff.mp h
          refine ⟨fun record hRecord user hFound => ?_, ?_⟩
          · rcases List.mem_append.mp hRecord with hOld | hNew
            · exact hSeen record hOld user hFound
            · obtain rfl := List.mem_singleton.mp hNew
              have hFind := found_read hFound
              exact ⟨by simpa using List.find?_some hFind, List.mem_of_find?_eq_some hFind⟩
          · rw [List.pairwise_append]
            refine ⟨inv.again, List.pairwise_singleton .., fun earlier hEarlier later hLater => ?_⟩
            obtain rfl := List.mem_singleton.mp hLater
            rintro hEngine hUserId user hFound hAnswered
            obtain ⟨hId, hMem⟩ := inv.seen earlier hEarlier user hFound
            have hUser : user ∈ s.service.users := (s.rows_prefix _).subset hMem
            dsimp only at hEngine hUserId
            rw [hEngine] at hMem
            rw [← hUserId, ← hId] at hAnswered ⊢
            obtain ⟨hFailed, hOnly, hSome⟩ := found_iff registry hUser e
            have hUp : s.reachable e = true := by
              by_contra hDown
              rw [hFailed.mpr (by simpa using hDown)] at hAnswered
              cases hAnswered
            have hSees : s.sees user e = true := List.any_eq_true.mpr ⟨user, hMem, by simp⟩
            obtain ⟨other, hOther⟩ := Option.isSome_iff_exists.mp (hSome.mpr ⟨hUp, hSees⟩)
            rw [hOther, hOnly other hOther]
      | service a => cases hRead
      | apply e => cases hRead
      | reach e up => cases hRead

/-- Reads of one user on one engine never go back: once found, the user is found
by every later read that is answered, with the same content. -/
theorem reads_monotone {as : List ReplicaAction} (run : exec (replicaStep registry config router) initial as = some s) :
    s.reads.Pairwise fun earlier later => earlier.engine = later.engine → earlier.userId = later.userId →
      ∀ user, earlier.found = some user → later.failed = false → later.found = some user :=
  (invariant (fun _ _ _ => ReadsInv.step) readsInv_initial run).again

/-- The replica gets the user between two reads of it. -/
theorem reads_monotone_late : ∃ s,
    exec (replicaStep [] ⟨true, 100⟩ (DatabaseRouter.build "primary" (some "replica") [])) initial
      (creation ++ [.read "u-1", .apply 1, .read "u-1", .read "u-1"]) = some s ∧
      s.reads.map ReadRecord.found = [none, some ada, some ada] ∧
      s.reads.Pairwise fun earlier later => earlier.engine = later.engine → earlier.userId = later.userId →
        ∀ user, earlier.found = some user → later.failed = false → later.found = some user := by
  obtain ⟨s, run, hFound⟩ : ∃ s,
      exec (replicaStep [] ⟨true, 100⟩ (DatabaseRouter.build "primary" (some "replica") [])) initial
        (creation ++ [.read "u-1", .apply 1, .read "u-1", .read "u-1"]) = some s ∧
        s.reads.map ReadRecord.found = [none, some ada, some ada] := ⟨_, rfl, rfl⟩
  exact ⟨s, run, hFound, reads_monotone run⟩

/-- A read of a committed user finds it, unless its engine is out of reach. -/
def FindsCommitted (registry : ErrorRegistry) (config : RelayConfig) (router : DatabaseRouter) (s : ReplicatedState)
    (a : ReplicaAction) : Prop :=
  ∀ user ∈ s.service.users, a = .read user.id → ∀ t, replicaStep registry config router s a = some t →
    ∃ record, t.reads = s.reads ++ [record] ∧ (record.failed = true ∨ record.found = some user)

/-- Without a replica every read sees all that is committed. -/
theorem findsCommitted_unreplicated (h : router.readEngines = [writeEngine]) (s : ReplicatedState) (a : ReplicaAction) :
    FindsCommitted registry config router s a := by
  rintro user hUser rfl t hStep
  obtain ⟨e, hEngine, rfl⟩ := Option.map_eq_some_iff.mp hStep
  have hWrite : e = writeEngine := by
    have hMem := List.mem_of_getElem? hEngine
    rw [h] at hMem
    exact List.mem_singleton.mp hMem
  refine ⟨_, rfl, ?_⟩
  obtain ⟨hFailed, hOnly, hSome⟩ := found_iff registry hUser e
  cases hUp : s.reachable e with
  | false => exact Or.inl (hFailed.mpr hUp)
  | true =>
      have hSees : s.sees user e = true := by
        rw [hWrite]
        exact List.any_eq_true.mpr ⟨user, hUser, by simp⟩
      obtain ⟨other, hOther⟩ := Option.isSome_iff_exists.mp (hSome.mpr ⟨hUp, hSees⟩)
      exact Or.inr (hOther.trans (congrArg some (hOnly other hOther)))

/-- The user that is created is in no replica at first. -/
theorem exec_creation (registry : ErrorRegistry) (config : RelayConfig) (router : DatabaseRouter) :
    ∃ t, exec (replicaStep registry config router) initial creation = some t ∧ ada ∈ t.service.users ∧
      t.reads = [] ∧ t.reachable 1 = true ∧ t.sees ada 1 = false := by
  obtain ⟨_ | _, batchSize⟩ := config
  · exact ⟨_, rfl, List.mem_singleton_self _, rfl, rfl, rfl⟩
  · exact ⟨_, rfl, List.mem_singleton_self _, rfl, rfl, rfl⟩

/-- A service reads its writes in all runs exactly when no replica is
configured. -/
theorem read_your_writes_iff (registry : ErrorRegistry) (config : RelayConfig) (settings : DatabaseSettings) :
    (∀ as, Along (replicaStep registry config settings.router) (FindsCommitted registry config settings.router)
      initial as) ↔ settings.readUrls = [] := by
  constructor
  · intro hAll
    by_contra hUrls
    have hEngines : settings.router.readEngines = (List.range settings.readUrls.length).map (· + 1) := by
      rw [DatabaseSettings.router, DatabaseRouter.build_replicated hUrls]
      rfl
    have hFirst : settings.router.readEngine 0 = some 1 := by
      rw [DatabaseRouter.readEngine, Nat.zero_mod, hEngines]
      cases hRead : settings.readUrls with
      | nil => exact absurd hRead hUrls
      | cons url urls => simp [List.range_succ_eq_map]
    obtain ⟨t, run, hUser, hReads, hUp, hUnseen⟩ := exec_creation registry config settings.router
    have hEngine : settings.router.readEngine t.reads.length = some 1 := by
      rw [hReads]
      exact hFirst
    obtain ⟨hRead, -⟩ := along_suffix (hAll (creation ++ [.read ada.id])) run
    obtain ⟨record, hRecord, hFound⟩ := hRead ada hUser rfl _ (Option.map_eq_some_iff.mpr ⟨1, hEngine, rfl⟩)
    obtain rfl : _ = record := List.singleton_inj.mp (List.append_cancel_left hRecord)
    obtain ⟨hFailed, -, hSome⟩ := found_iff registry hUser 1
    rcases hFound with hDown | hSame
    · rw [hFailed.mp hDown] at hUp
      cases hUp
    · have hSees := (hSome.mp (Option.isSome_iff_exists.mpr ⟨ada, hSame⟩)).2
      rw [hUnseen] at hSees
      cases hSees
  · intro hUrls as
    have hEngines : settings.router.readEngines = [writeEngine] := by
      rw [DatabaseSettings.router, DatabaseRouter.build_unreplicated hUrls]
    exact along_of_invariant (I := fun _ => True) (fun _ _ _ _ _ => trivial)
      (fun s a _ => findsCommitted_unreplicated hEngines s a) trivial as

end ReplicatedState

end ServicePlatform
