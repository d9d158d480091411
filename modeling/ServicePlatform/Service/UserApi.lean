import ServicePlatform.Kernel.ServiceApp
import ServicePlatform.Service.StagedContract
import ServicePlatform.Gateway.IdentityTransfer
import ServicePlatform.Transition.Noninterference

/-! The routes of the user service, one request after the other. Users are
created on the primary and read from a replica, which may not have applied the
latest commits. A user is shown to its owner and to an administrator only. -/
namespace ServicePlatform

open Storage Transition

def userNotFound : ErrorCode :=
  { code := "USER_NOT_FOUND", httpStatus := 404, title := "User Not Found", defaultMessage := "用户不存在" }

def userForbidden : ErrorCode :=
  { code := "USER_FORBIDDEN", httpStatus := 403, title := "Forbidden", defaultMessage := "无权访问该用户" }

/-- The codes that `app/error_codes.py` registers. -/
def serviceErrorCodes : ErrorRegistry := [userNotFound, emailAlreadyExists, userForbidden]

/-- `UserOut`. -/
structure UserOut where
  id : String
  email : String
  displayName : String
  status : String
  vipLevel : Int
  createdAt : DateTime

/-- The JSON document of the response model. -/
def UserOut.document (out : UserOut) : PyValue :=
  .dict [(.str "id", .str out.id), (.str "email", .str out.email), (.str "display_name", .str out.displayName),
    (.str "status", .str out.status), (.str "vip_level", .int out.vipLevel),
    (.str "created_at", .str (DateTime.isoFormat out.createdAt))]

/-- The document is made of texts and a level of 64 bits. -/
theorem UserOut.document_flat (out : UserOut) (hLevel : -2 ^ 63 ≤ out.vipLevel ∧ out.vipLevel < 2 ^ 63) :
    ∃ items, out.document = .dict items ∧ PyValue.Flat items := by
  refine ⟨_, rfl, ?_, ?_⟩
  · simp
  · intro item hMem
    simp only [List.mem_cons, List.not_mem_nil, or_false] at hMem
    rcases hMem with rfl | rfl | rfl | rfl | rfl | rfl
    case inr.inr.inr.inr.inl => exact ⟨⟨_, rfl⟩, Or.inr ⟨_, rfl, hLevel⟩⟩
    all_goals exact ⟨⟨_, rfl⟩, Or.inl ⟨_, rfl⟩⟩

/-- `_to_out`. -/
def User.toOut (user : User) : UserOut where
  id := user.id
  email := user.email
  displayName := user.displayName
  status := user.status
  vipLevel := user.vipLevel
  createdAt := user.createdAt

namespace UserService

/-- `create_user`, when no other transaction runs meanwhile. -/
def createUser (registry : ErrorRegistry) (dialect : Dialect) (users : List User) (email displayName : String)
    (vipLevel : Int) (values : FlushValues) : Except CreateError User :=
  if dialect.reads email = false then .error .data
  else
    match users.find? fun user => user.email = email with
    | some user =>
        if user.id ≠ "" then .error (emailConflict registry)
        else if dialect.stores values.id email displayName vipLevel = false then .error .data
        else .error .integrity
    | none =>
        if dialect.stores values.id email displayName vipLevel = false then .error .data
        else if values.id ∈ users.map User.id then .error .integrity
        else match userCreatedEvent (values.user email displayName vipLevel) values with
          | some _ => .ok (values.user email displayName vipLevel)
          | none => .error .validation

/-- `get_user`, from the rows that the replica has. -/
def getUser (registry : ErrorRegistry) (users : List User) (userId : String) : Except AppError User :=
  match users.find? fun user => user.id = userId with
  | some user => .ok user
  | none => .error (AppError.make registry userNotFound.code (some "用户不存在") none none)

end UserService

/-- What a route raises for an error of `create_user`. -/
def CreateError.routeEnd : CreateError → RouteEnd
  | .conflict error => .raisedApp error
  | .integrity | .data | .validation | .interrupted => .raised

/-- The application with the routes and its database, how its models read
integers, and what they report about a body they refuse. -/
structure UserApi where
  app : ServiceApp
  dialect : Dialect
  trustProxyHeaders : Bool
  lax : LaxInt
  invalid : Option PyValue → PyValue

/-- A request for one of the routes. A body that is no JSON is `none`, and a
read finds a replica that has applied so many commits. -/
inductive UserRequest where
  | create (body : Option PyValue) (values : FlushValues)
  | get (userId : String) (applied : Nat)

structure ApiCall where
  request : HttpRequest
  target : UserRequest

def userRoles : List String := ["user", "admin"]

namespace UserApi

variable (api : UserApi)

def identity (call : ApiCall) : Option Identity := identityOf api.trustProxyHeaders call.request

/-- The route `create_user`. -/
def createRoute (users : List User) (identity : Option Identity) (body : Option PyValue) (values : FlushValues) :
    Except RouteEnd User :=
  match body with
  | none => .error (.raisedValidation (api.invalid none))
  | some content =>
      match requireRoles api.app.registry userRoles identity with
      | .error error => .error (.raisedApp error)
      | .ok _ =>
          match UserCreate.modelValidate api.lax content with
          | none => .error (.raisedValidation (api.invalid body))
          | some payload =>
              match UserService.createUser api.app.registry api.dialect users payload.email payload.displayName
                  payload.vipLevel values with
              | .ok user => .ok user
              | .error error => .error error.routeEnd

/-- The route `get_user`. -/
def getRoute (users : List User) (identity : Option Identity) (userId : String) : Except RouteEnd User :=
  match requireRoles api.app.registry userRoles identity with
  | .error error => .error (.raisedApp error)
  | .ok caller =>
      if api.dialect.reads userId = false then .error .raised
      else
        match UserService.getUser api.app.registry users userId with
        | .error error => .error (.raisedApp error)
        | .ok user =>
            match ensureOwner api.app.registry user.id (some caller) with
            | .error error => .error (.raisedApp error)
            | .ok () => .ok user

/-- What the framework does with the result of a route. -/
def run (status : Nat) : Except RouteEnd User → RouteRun
  | .ok user =>
      match jsonResponse api.app.codec status user.toOut.document [] "application/json" with
      | some response => ⟨some response.sent, .returned⟩
      | none => ⟨none, .raised⟩
  | .error ending => ⟨none, ending⟩

/-- What the route of a call does. -/
def routeRun (users : List User) (call : ApiCall) : RouteRun :=
  match call.target with
  | .create body values => api.run 201 (api.createRoute users (api.identity call) body values)
  | .get userId applied => api.run 200 (api.getRoute (users.take applied) (api.identity call) userId)

/-- The users after a call, in the order of their commits, and the answer. -/
def step (users : List User) (call : ApiCall) : List User × Option HttpResponse :=
  (match call.target with
    | .create body values =>
        match api.createRoute users (api.identity call) body values with
        | .ok user => users ++ [user]
        | .error _ => users
    | .get _ _ => users,
    api.app.freshResponse call.request (api.routeRun users call))

/-- What the application sends for a request that is not answered from the store
of the idempotency middleware. -/
theorem serve_step (api : UserApi) (users : List User) (store : HttpStore) {call : ApiCall}
    (h : ∀ key, api.app.storeKey call.request = some key → store.get key = none) :
    (api.app.serve store call.request (api.routeRun users call)).exchange.response = (api.step users call).2 :=
  ServiceApp.serve_called h

/-- The service with the store of its idempotency middleware: a request whose key
is stored does not reach the routes. -/
def serve (state : List User × HttpStore) (call : ApiCall) : (List User × HttpStore) × Option HttpResponse :=
  let served := api.app.serve state.2 call.request (api.routeRun state.1 call)
  ((if served.called then (api.step state.1 call).1 else state.1, served.store), served.exchange.response)

/-- The request of the call has no idempotency key. -/
def Unkeyed (api : UserApi) (call : ApiCall) : Prop := api.app.storeKey call.request = none

/-- Without a key the store has no part in the answer. -/
theorem serve_unkeyed {users : List User} {store : HttpStore} {call : ApiCall} (h : api.Unkeyed call) :
    api.serve (users, store) call = (((api.step users call).1, store), (api.step users call).2) := by
  have hFree : ∀ key, api.app.storeKey call.request = some key → store.get key = none := by
    intro key hKey
    rw [h] at hKey
    cases hKey
  have hCall : api.app.idempotency.call store call.request (api.app.inner call.request (api.routeRun users call)) =
      ⟨store, api.app.inner call.request (api.routeRun users call), true⟩ :=
    IdempotencyMiddleware.call_unguarded h
  have hServed : (api.app.serve store call.request (api.routeRun users call)).store = store ∧
      (api.app.serve store call.request (api.routeRun users call)).called = true := by
    simp only [ServiceApp.serve, hCall, and_self]
  simp only [serve, hServed.1, hServed.2, if_true, api.serve_step users store hFree]

/-- The caller is a user of its own, with no right to see others. -/
def ownedBy (me : String) (call : ApiCall) : Bool :=
  match api.identity call with
  | some caller => decide (caller.userId = me) && decide ("admin" ∉ caller.roles)
  | none => false

end UserApi

/-- What the owner of an id may tell two rows apart by. -/
structure AlikeFor (me : String) (user other : User) : Prop where
  id : user.id = other.id
  email : user.email = other.email
  mine : user.id = me → user = other

/-- Two bodies of valid requests that ask for the same email and draw the same
id, which is not the observer's. The database takes the values of both or of
neither. -/
def SameCreation (api : UserApi) (me : String) : UserRequest → UserRequest → Prop
  | .create (some body) values, .create (some body') values' =>
      ∃ payload payload', UserCreate.modelValidate api.lax body = some payload ∧
        UserCreate.modelValidate api.lax body' = some payload' ∧ payload.email = payload'.email ∧
        values.id = values'.id ∧ values.id ≠ me ∧
        api.dialect.takes payload.email payload.displayName payload.vipLevel =
          api.dialect.takes payload'.email payload'.displayName payload'.vipLevel
  | _, _ => False

/-- The same call, or calls of others that create a user with other data. -/
def SecretlyDiffer (api : UserApi) (me : String) (call other : ApiCall) : Prop :=
  call = other ∨ (api.ownedBy me call = false ∧ api.ownedBy me other = false ∧
    Satisfies userRoles (api.identity call) ∧ Satisfies userRoles (api.identity other) ∧
    SameCreation api me call.target other.target)

/-- A read of somebody else, or a call of somebody who has no role. -/
def HiddenFrom (api : UserApi) (me : String) (call : ApiCall) : Prop :=
  api.ownedBy me call = false ∧
    ((∃ userId applied, call.target = .get userId applied) ∨ ¬ Satisfies userRoles (api.identity call))

section Alone

variable {registry : ErrorRegistry} {config : RelayConfig} {s t : ServiceState} {c : CallId}
  {email displayName : String} {vipLevel : Int} {values : FlushValues}

namespace UserService

/-- An email that is in no row is not found. -/
theorem find?_of_not_taken (h : s.emailTaken email = false) :
    s.users.rows.find? (fun user => user.email = email) = none := by
  rw [List.find?_eq_none]
  unfold ServiceState.emailTaken at h
  rw [List.any_eq_false] at h
  exact h

/-- A call of `create_user` that runs through alone does what `createUser` says. -/
theorem createUser_of_run {rowId : String} {rowCreatedAt : DateTime}
    (run : exec (serviceStep registry config) s [.call c email displayName vipLevel, .check c, .flush c values,
      .commit c rowId rowCreatedAt, .refresh c] = some t) :
    ∃ user, createUser registry config.dialect s.users.rows email displayName vipLevel values = .ok user ∧
      t.users.rows = s.users.rows ++ [user] ∧ t.calls c = .returned user := by
  have phase : ∀ (m : ServiceState) (p : CreatePhase), (m.setCall c p).calls c = p := fun m p => Function.update_self ..
  obtain ⟨m₁, hCall, run⟩ := exec_cons.mp run
  obtain ⟨m₂, hCheck, run⟩ := exec_cons.mp run
  obtain ⟨m₃, hFlush, run⟩ := exec_cons.mp run
  obtain ⟨m₄, hCommit, run⟩ := exec_cons.mp run
  obtain ⟨m₅, hRefresh, run⟩ := exec_cons.mp run
  cases run
  cases serviceMove_of_step hCall with
  | called hIdle =>
  cases serviceMove_of_step hCheck with
  | refused | unreadable =>
      cases serviceMove_of_step hFlush with
      | unstorable hRaised | duplicate hRaised | rejected hRaised | flushed hRaised =>
          cases (phase _ _).symm.trans hRaised
  | passed hHere hReads =>
  cases (phase _ _).symm.trans hHere
  cases serviceMove_of_step hFlush with
  | unstorable | duplicate | rejected =>
      cases serviceMove_of_step hCommit with
      | committed hRaised => cases (phase _ _).symm.trans hRaised
  | flushed hFlushing hFree hNew hStores hEvent =>
  cases (phase _ _).symm.trans hFlushing
  cases serviceMove_of_step hCommit with
  | committed hCommitting hUsers hRelay =>
  cases (phase _ _).symm.trans hCommitting
  cases serviceMove_of_step hRefresh with
  | refreshed hRefreshing =>
  cases (phase _ _).symm.trans hRefreshing
  obtain ⟨hFresh, hRows⟩ := KeyedTable.insert_eq_some hUsers
  have hId : values.id ∉ s.users.rows.map User.id := by
    intro hMem
    obtain ⟨other, hOther, hSame⟩ := List.mem_map.mp hMem
    exact hFresh other hOther hSame
  have hNone : s.users.rows.find? (fun user => user.email = email) = none := find?_of_not_taken hNew
  refine ⟨values.user email displayName vipLevel, ?_, hRows, phase _ _⟩
  have hReads' : config.dialect.reads email ≠ false := by simp [hReads]
  have hStores' : config.dialect.stores values.id email displayName vipLevel ≠ false := by simp [hStores]
  simp only [createUser, if_neg hReads', hNone, if_neg hStores', if_neg hId, hEvent]

/-- A call that meets its email in the table, or whose email cannot be looked for,
is refused by both. -/
theorem createUser_of_refusal {error : CreateError}
    (run : exec (serviceStep registry config) s [.call c email displayName vipLevel, .check c] = some t)
    (hRaised : t.calls c = .raised error) :
    createUser registry config.dialect s.users.rows email displayName vipLevel values = .error error ∧
      t.users = s.users := by
  have phase : ∀ (m : ServiceState) (p : CreatePhase), (m.setCall c p).calls c = p := fun m p => Function.update_self ..
  obtain ⟨m₁, hCall, run⟩ := exec_cons.mp run
  obtain ⟨m₂, hCheck, run⟩ := exec_cons.mp run
  cases run
  cases serviceMove_of_step hCall with
  | called hIdle =>
  simp only [serviceStep, phase] at hCheck
  cases hReads : config.dialect.reads email with
  | false =>
      rw [hReads] at hCheck
      cases hCheck
      cases (phase _ _).symm.trans hRaised
      exact ⟨by rw [createUser, if_pos hReads], rfl⟩
  | true =>
  rw [hReads, if_pos rfl] at hCheck
  have hReads' : config.dialect.reads email ≠ false := by simp [hReads]
  change (match s.users.rows.find? (fun user => user.email = email) with
    | some user => if user.id = "" then some _ else some _
    | none => some _) = some t at hCheck
  cases hFound : s.users.rows.find? (fun user => user.email = email) with
  | none =>
      rw [hFound] at hCheck
      cases hCheck
      cases (phase _ _).symm.trans hRaised
  | some user =>
      rw [hFound] at hCheck
      by_cases hId : user.id = ""
      · simp only [hId, if_true] at hCheck
        cases hCheck
        cases (phase _ _).symm.trans hRaised
      · simp only [hId, if_false] at hCheck
        cases hCheck
        cases (phase _ _).symm.trans hRaised
        exact ⟨by simp only [createUser, if_neg hReads', hFound, ne_eq, hId, not_false_eq_true, if_true, emailConflict],
          rfl⟩

end UserService

end Alone

section Samples

/-- The service with its own error codes, and a JSON module for one document. -/
def sampleApi : UserApi :=
  ⟨⟨emptyObjectCodec, serviceErrorCodes, "service-template"⟩, .postgresql, true, integersOnly, fun _ => .none⟩

/-- A request with the identity that a gateway has injected. -/
def requestAs (userId roles : String) : HttpRequest :=
  ⟨"GET", "/v1/users/u-1", [("x-user-id", userId), ("x-user-roles", roles)], [], "r-1", "t-1", some "/v1/users/u-1"⟩

/-- An administrator creates a user. -/
def creation (id email displayName : String) : ApiCall where
  request := requestAs "root" "admin"
  target := .create (some (.dict [(.str "email", .str email), (.str "display_name", .str displayName)]))
    ⟨id, 0, 0, "e-1", 0, none⟩

def reading (userId roles : String) (applied : Nat) : ApiCall := ⟨requestAs userId roles, .get "u-1" applied⟩

end Samples

section Secrecy

variable {api : UserApi} {me : String} {users others : List User}

/-- Lists that agree on what is searched for find related elements. -/
theorem find?_rel {α : Type} {R : α → α → Prop} {xs ys : List α} {p q : α → Bool} (h : List.Forall₂ R xs ys)
    (agree : ∀ x y, R x y → p x = q y) : Option.Rel R (xs.find? p) (ys.find? q) := by
  induction h with
  | nil => exact Option.Rel.none
  | @cons x y xs ys hxy rest ih =>
      rw [List.find?_cons, List.find?_cons, agree x y hxy]
      cases q y with
      | true => exact Option.Rel.some hxy
      | false => exact ih

namespace UserService

/-- The reason why the database or the check refuses a new user. -/
def refused (registry : ErrorRegistry) (dialect : Dialect) (users : List User) (email displayName : String)
    (vipLevel : Int) (id : String) : Option CreateError :=
  if dialect.reads email = false then some .data
  else
    match users.find? fun user => user.email = email with
    | some user =>
        if user.id ≠ "" then some (emailConflict registry)
        else if dialect.stores id email displayName vipLevel = false then some .data
        else some .integrity
    | none =>
        if dialect.stores id email displayName vipLevel = false then some .data
        else if id ∈ users.map User.id then some .integrity
        else none

/-- A name of the right length is no obstacle. -/
theorem createUser_eq (registry : ErrorRegistry) (dialect : Dialect) (users : List User) {email displayName : String}
    {vipLevel : Int} {values : FlushValues} (hName : displayName.length ≤ 64) :
    createUser registry dialect users email displayName vipLevel values =
      match refused registry dialect users email displayName vipLevel values.id with
      | some error => .error error
      | none => .ok (values.user email displayName vipLevel) := by
  have hEvent : userCreatedEvent (values.user email displayName vipLevel) values ≠ none := by
    have hLength : (values.user email displayName vipLevel).displayName.length ≤ 64 := hName
    simp [userCreatedEvent, UserCreatedPayload.make, hLength]
  unfold createUser refused
  by_cases hReads : dialect.reads email = false
  · rw [if_pos hReads, if_pos hReads]
  rw [if_neg hReads, if_neg hReads]
  cases users.find? fun user => user.email = email with
  | some user => by_cases hId : user.id = "" <;> by_cases hStores : dialect.stores values.id email displayName vipLevel = false <;>
      simp [hId, hStores]
  | none =>
      by_cases hStores : dialect.stores values.id email displayName vipLevel = false
      · simp only [if_pos hStores]
      · by_cases hTaken : values.id ∈ users.map User.id
        · simp only [if_neg hStores, if_pos hTaken]
        · simp only [if_neg hStores, if_neg hTaken]
          cases hMade : userCreatedEvent (values.user email displayName vipLevel) values with
          | none => exact absurd hMade hEvent
          | some event => rfl

/-- The refusal depends on a name and a level through the columns alone. -/
theorem refused_congr (registry : ErrorRegistry) {dialect : Dialect} (users : List User) {email name name' id : String}
    {level level' : Int} (h : dialect.takes email name level = dialect.takes email name' level') :
    refused registry dialect users email name level id = refused registry dialect users email name' level' id := by
  unfold refused Dialect.stores
  rw [h]

theorem refused_alike (registry : ErrorRegistry) (dialect : Dialect) (email displayName : String) (vipLevel : Int)
    (id : String) (h : List.Forall₂ (AlikeFor me) users others) :
    refused registry dialect users email displayName vipLevel id =
      refused registry dialect others email displayName vipLevel id := by
  have hIds : users.map User.id = others.map User.id := by
    induction h with
    | nil => rfl
    | cons hAlike rest ih => rw [List.map_cons, List.map_cons, hAlike.id, ih]
  have hFound := find?_rel (p := fun user => decide (user.email = email)) (q := fun user => decide (user.email = email)) h
    (fun user other hAlike => by rw [hAlike.email])
  unfold refused
  rw [hIds]
  generalize users.find? _ = found at hFound
  generalize others.find? _ = found' at hFound
  cases hFound with
  | none => rfl
  | some hAlike => simp only [hAlike.id]

theorem getUser_alike (registry : ErrorRegistry) (userId : String)
    (h : List.Forall₂ (AlikeFor me) users others) :
    (∃ error, getUser registry users userId = .error error ∧ getUser registry others userId = .error error) ∨
      ∃ user other, AlikeFor me user other ∧ getUser registry users userId = .ok user ∧
        getUser registry others userId = .ok other := by
  have hFound := find?_rel (p := fun user => decide (user.id = userId)) (q := fun user => decide (user.id = userId)) h
    (fun user other hAlike => by rw [hAlike.id])
  unfold getUser
  generalize users.find? _ = found at hFound
  generalize others.find? _ = found' at hFound
  cases hFound with
  | none => exact Or.inl ⟨_, rfl, rfl⟩
  | some hAlike => exact Or.inr ⟨_, _, hAlike, rfl, rfl⟩

end UserService

/-- Only an administrator gets past the check for another owner. -/
theorem owner_of_ensureOwner {registry : ErrorRegistry} {ownerId : String} {caller : Identity}
    (h : ensureOwner registry ownerId (some caller) = .ok ()) (hRoles : "admin" ∉ caller.roles) :
    ownerId = caller.userId := by
  by_contra hOther
  have hRefused : caller.userId ≠ ownerId ∧ "admin" ∉ caller.roles := ⟨fun he => hOther he.symm, hRoles⟩
  rw [ensureOwner, if_pos hRefused] at h
  cases h

namespace UserApi

theorem ownedBy_iff {call : ApiCall} : api.ownedBy me call = true ↔
    ∃ caller, api.identity call = some caller ∧ caller.userId = me ∧ "admin" ∉ caller.roles := by
  unfold ownedBy
  cases api.identity call with
  | none => simp
  | some caller => simp

theorem createRoute_alike (identity : Option Identity) (body : Option PyValue) (values : FlushValues)
    (h : List.Forall₂ (AlikeFor me) users others) :
    api.createRoute users identity body values = api.createRoute others identity body values := by
  unfold createRoute
  cases body with
  | none => rfl
  | some content =>
      cases requireRoles api.app.registry userRoles identity with
      | error error => rfl
      | ok caller =>
          cases hPayload : UserCreate.modelValidate api.lax content with
          | none => simp only [hPayload]
          | some payload =>
              simp only [hPayload, UserService.createUser_eq _ _ _ payload.displayName_max,
                UserService.refused_alike api.app.registry api.dialect payload.email payload.displayName
                  payload.vipLevel values.id h]

/-- The route for a valid body of a caller with a role. -/
theorem createRoute_accepted {identity : Option Identity} {body : PyValue} {values : FlushValues}
    {payload : UserCreate} (hRoles : Satisfies userRoles identity)
    (hPayload : UserCreate.modelValidate api.lax body = some payload) :
    api.createRoute users identity (some body) values =
      match UserService.refused api.app.registry api.dialect users payload.email payload.displayName
          payload.vipLevel values.id with
      | some error => .error error.routeEnd
      | none => .ok (values.user payload.email payload.displayName payload.vipLevel) := by
  obtain ⟨caller, hCaller⟩ := (requireRoles_ok_iff api.app.registry).mpr hRoles
  simp only [createRoute, hCaller, hPayload, UserService.createUser_eq _ _ _ payload.displayName_max]
  cases UserService.refused api.app.registry api.dialect users payload.email payload.displayName payload.vipLevel
    values.id <;> rfl

theorem createRoute_unauthorised {identity : Option Identity} {body : Option PyValue} {values : FlushValues}
    (hRoles : ¬ Satisfies userRoles identity) : ∃ ending, api.createRoute users identity body values = .error ending := by
  unfold createRoute
  cases body with
  | none => exact ⟨_, rfl⟩
  | some content =>
      cases hCaller : requireRoles api.app.registry userRoles identity with
      | error error => exact ⟨_, rfl⟩
      | ok caller => exact absurd ((requireRoles_ok_iff api.app.registry).mp ⟨caller, hCaller⟩) hRoles

/-- A user who is no administrator reads the same from both. -/
theorem getRoute_alike {caller : Identity} (userId : String) (hMe : caller.userId = me)
    (hRoles : "admin" ∉ caller.roles) (h : List.Forall₂ (AlikeFor me) users others) :
    api.getRoute users (some caller) userId = api.getRoute others (some caller) userId := by
  unfold getRoute
  cases hCaller : requireRoles api.app.registry userRoles (some caller) with
  | error error => rfl
  | ok known =>
      have hKnown : known = caller := by
        simp only [requireRoles] at hCaller
        split at hCaller
        · cases hCaller
        · exact (Except.ok.inj hCaller).symm
      subst hKnown
      by_cases hReads : api.dialect.reads userId = false
      · simp only [if_pos hReads]
      simp only [if_neg hReads]
      rcases UserService.getUser_alike api.app.registry userId h with ⟨error, hHere, hThere⟩ |
        ⟨user, other, hAlike, hHere, hThere⟩
      · simp only [hHere, hThere]
      · simp only [hHere, hThere, hAlike.id]
        cases hOwner : ensureOwner api.app.registry other.id (some known) with
        | error error => rfl
        | ok done =>
            have hId : other.id = me := (owner_of_ensureOwner hOwner hRoles).trans hMe
            rw [hAlike.mine (hAlike.id.trans hId)]

theorem alikeFor_refl (user : User) : AlikeFor me user user := ⟨rfl, rfl, fun _ => rfl⟩

theorem concat_alike {user other : User} (h : List.Forall₂ (AlikeFor me) users others) (hNew : AlikeFor me user other) :
    List.Forall₂ (AlikeFor me) (users ++ [user]) (others ++ [other]) :=
  List.rel_append h (List.Forall₂.cons hNew List.Forall₂.nil)

theorem silent_step {call : ApiCall} (h : HiddenFrom api me call) : (api.step users call).1 = users := by
  obtain ⟨-, hGet | hRoles⟩ := h
  · obtain ⟨userId, applied, hTarget⟩ := hGet
    simp only [step, hTarget]
  · cases hTarget : call.target with
    | get userId applied => simp only [step, hTarget]
    | create body values =>
        obtain ⟨ending, hRoute⟩ : ∃ ending, api.createRoute users (api.identity call) body values = .error ending :=
          createRoute_unauthorised hRoles
        simp only [step, hTarget, hRoute]

theorem answers_step {call : ApiCall} (h : List.Forall₂ (AlikeFor me) users others)
    (hOwned : api.ownedBy me call = true) : (api.step users call).2 = (api.step others call).2 := by
  obtain ⟨caller, hCaller, hMe, hRoles⟩ := ownedBy_iff.mp hOwned
  have hRun : api.routeRun users call = api.routeRun others call := by
    unfold routeRun
    cases call.target with
    | create body values => simp only [createRoute_alike _ _ _ h]
    | get userId applied =>
        simp only [hCaller]
        rw [getRoute_alike userId hMe hRoles (List.forall₂_take applied h)]
  simp only [step, hRun]

theorem keeps_step {call other : ApiCall} (h : List.Forall₂ (AlikeFor me) users others)
    (hDiffer : SecretlyDiffer api me call other) :
    List.Forall₂ (AlikeFor me) (api.step users call).1 (api.step others other).1 := by
  rcases hDiffer with rfl | ⟨-, -, hRoles, hRoles', hSame⟩
  · cases hTarget : call.target with
    | get userId applied =>
        simp only [step, hTarget]
        exact h
    | create body values =>
        simp only [step, hTarget, createRoute_alike _ _ _ h]
        cases api.createRoute others (api.identity call) body values with
        | error ending => exact h
        | ok user => exact concat_alike h (alikeFor_refl user)
  · cases hTarget : call.target with
    | get userId applied =>
        rw [hTarget] at hSame
        exact hSame.elim
    | create body values =>
        cases hTarget' : other.target with
        | get userId applied =>
            rw [hTarget, hTarget'] at hSame
            cases body <;> exact hSame.elim
        | create body' values' =>
            rw [hTarget, hTarget'] at hSame
            cases body with
            | none => exact hSame.elim
            | some content =>
                cases body' with
                | none => exact hSame.elim
                | some content' =>
                    obtain ⟨payload, payload', hPayload, hPayload', hEmail, hId, hOther, hTakes⟩ := hSame
                    rw [← hEmail] at hTakes
                    simp only [step, hTarget, hTarget', createRoute_accepted hRoles hPayload,
                      createRoute_accepted hRoles' hPayload', ← hEmail, ← hId,
                      ← UserService.refused_congr api.app.registry others hTakes,
                      UserService.refused_alike api.app.registry api.dialect payload.email payload.displayName
                        payload.vipLevel values.id h]
                    cases UserService.refused api.app.registry api.dialect others payload.email payload.displayName
                      payload.vipLevel values.id with
                    | some error => exact h
                    | none => exact concat_alike h ⟨hId, rfl, fun hMe => absurd hMe hOther⟩

theorem unwinding (api : UserApi) (me : String) : Unwinding api.step (api.ownedBy me)
    (List.Forall₂ (AlikeFor me)) (HiddenFrom api me) (SecretlyDiffer api me) where
  unseen := fun call hHidden => hHidden.1
  silent := fun users call hHidden => silent_step hHidden
  own := by
    rintro call other (rfl | ⟨hCall, hOther, -⟩) hSeen
    · rfl
    · rw [hCall, hOther] at hSeen
      rcases hSeen with hSeen | hSeen <;> cases hSeen
  answers := fun users others call h hOwned => answers_step h hOwned
  keeps := fun users others call other h hDiffer => keeps_step h hDiffer

/-- Without keys the service is seen as its routes are. -/
theorem view_serve {seen : ApiCall → Bool} {store : HttpStore} {calls : List ApiCall}
    (h : ∀ call ∈ calls, api.Unkeyed call) :
    view api.serve seen (users, store) calls = view api.step seen users calls := by
  induction calls generalizing users with
  | nil => rfl
  | cons call calls ih =>
      obtain ⟨hCall, hRest⟩ := List.forall_mem_cons.mp h
      simp only [view, api.serve_unkeyed hCall, ih hRest]

/-- Among requests without an idempotency key, a user who is no administrator
learns nothing of other users but which ids and emails are taken: whatever else
others create, whatever they read, and whatever is stored for requests with keys,
its own requests get the same answers. -/
theorem owner_noninterference (api : UserApi) (me : String) {calls calls' : List ApiCall} (store store' : HttpStore)
    (hUnkeyed : ∀ call ∈ calls ++ calls', api.Unkeyed call)
    (h : LooksSame (HiddenFrom api me) (SecretlyDiffer api me) calls calls')
    (hUsers : List.Forall₂ (AlikeFor me) users others) :
    view api.serve (api.ownedBy me) (users, store) calls = view api.serve (api.ownedBy me) (others, store') calls' := by
  obtain ⟨hCalls, hCalls'⟩ := List.forall_mem_append.mp hUnkeyed
  rw [view_serve hCalls, view_serve hCalls']
  exact (unwinding api me).view_eq h hUsers

/-- Two administrators' histories, seen by a user that asks for the id of another one. -/
theorem owner_noninterference_names :
    view sampleApi.serve (sampleApi.ownedBy "u-2") ([], IdempotencyStore.empty)
        [creation "u-1" "a@b.c" "Ada", reading "u-2" "user" 1] =
      view sampleApi.serve (sampleApi.ownedBy "u-2") ([], IdempotencyStore.empty)
        [creation "u-1" "a@b.c" "Bob", reading "root" "admin" 1, reading "u-2" "user" 1] := by
  have hRole : Satisfies userRoles (some (Identity.mk "root" ["admin"] none)) :=
    ⟨_, rfl, Or.inr ⟨"admin", by decide, by decide⟩⟩
  have hIdentity : ∀ id email name, sampleApi.identity (creation id email name) = some ⟨"root", ["admin"], none⟩ := by
    intro id email name
    have hRead : sampleApi.identity (reading "root" "admin" 0) = some ⟨"root", ["admin"], none⟩ := by decide
    exact hRead
  have hUnkeyed : ∀ call ∈ [creation "u-1" "a@b.c" "Ada", reading "u-2" "user" 1] ++
      [creation "u-1" "a@b.c" "Bob", reading "root" "admin" 1, reading "u-2" "user" 1], sampleApi.Unkeyed call := by
    intro call hCall
    simp only [List.cons_append, List.nil_append, List.mem_cons, List.not_mem_nil, or_false] at hCall
    rcases hCall with rfl | rfl | rfl | rfl | rfl <;> rfl
  refine UserApi.owner_noninterference sampleApi "u-2" _ _ hUnkeyed (.both (Or.inr ⟨by decide, by decide, ?_, ?_, ?_⟩)
    (.right ⟨by decide, Or.inl ⟨_, _, rfl⟩⟩ (.both (Or.inl rfl) .nil))) List.Forall₂.nil
  · rw [hIdentity]
    exact hRole
  · rw [hIdentity]
    exact hRole
  · exact ⟨⟨"a@b.c", "Ada", 0, by decide⟩, ⟨"a@b.c", "Bob", 0, by decide⟩, rfl, rfl, rfl, rfl, by decide, by decide⟩

end UserApi

end Secrecy

section Reading

variable {api : UserApi} {users : List User}

namespace UserApi

/-- The users after a sequence of calls. -/
def after (api : UserApi) (users : List User) (calls : List ApiCall) : List User :=
  calls.foldl (fun users call => (api.step users call).1) users

/-- Users are never changed or removed. -/
theorem grows_step (call : ApiCall) : users <+: (api.step users call).1 := by
  unfold step
  cases call.target with
  | get userId applied => exact List.prefix_rfl
  | create body values =>
      dsimp only
      cases api.createRoute users (api.identity call) body values with
      | ok user => exact List.prefix_append _ _
      | error ending => exact List.prefix_rfl

theorem grows_after (calls : List ApiCall) : users <+: api.after users calls := by
  induction calls generalizing users with
  | nil => exact List.prefix_rfl
  | cons call calls ih => exact (grows_step call).trans ih

/-- What a call of `create_user` that returns has found and stored. -/
theorem createUser_ok {registry : ErrorRegistry} {dialect : Dialect} {email displayName : String} {vipLevel : Int}
    {values : FlushValues} {user : User}
    (h : UserService.createUser registry dialect users email displayName vipLevel values = .ok user) :
    user = values.user email displayName vipLevel ∧ values.id ∉ users.map User.id ∧
      dialect.stores values.id email displayName vipLevel = true := by
  unfold UserService.createUser at h
  split at h
  · cases h
  · split at h
    · split at h
      · cases h
      · split at h <;> cases h
    · split at h
      · cases h
      · next hStores =>
          split at h
          · cases h
          · next hNew =>
              split at h
              · cases h
                exact ⟨rfl, hNew, by simpa using hStores⟩
              · cases h

theorem createRoute_ok {identity : Option Identity} {body : Option PyValue} {values : FlushValues} {user : User}
    (h : api.createRoute users identity body values = .ok user) : ∃ payload : UserCreate,
      UserService.createUser api.app.registry api.dialect users payload.email payload.displayName payload.vipLevel
        values = .ok user := by
  unfold createRoute at h
  split at h
  · cases h
  · split at h
    · cases h
    · split at h
      · cases h
      · next payload _ =>
          split at h
          · next hMade =>
              cases h
              exact ⟨payload, hMade⟩
          · cases h

/-- A user that is created has an id that nobody has. -/
theorem fresh_of_createRoute {identity : Option Identity} {body : Option PyValue} {values : FlushValues}
    {user : User} (h : api.createRoute users identity body values = .ok user) :
    ∀ other ∈ users, other.id ≠ user.id := by
  obtain ⟨payload, hMade⟩ := createRoute_ok h
  obtain ⟨rfl, hNew, -⟩ := createUser_ok hMade
  intro other hOther hSame
  have hId : other.id = values.id := hSame
  exact hNew (hId ▸ List.mem_map_of_mem hOther)

/-- A user that is created has values that the database has taken. -/
theorem stores_of_createRoute {identity : Option Identity} {body : Option PyValue} {values : FlushValues}
    {user : User} (h : api.createRoute users identity body values = .ok user) :
    api.dialect.stores user.id user.email user.displayName user.vipLevel = true := by
  obtain ⟨payload, hMade⟩ := createRoute_ok h
  obtain ⟨rfl, -, hStores⟩ := createUser_ok hMade
  exact hStores

/-- The response to a route that returns a user from the database. -/
theorem freshResponse_run (api : UserApi) (request : HttpRequest) (status : Nat) {user : User}
    (hStored : api.dialect.stores user.id user.email user.displayName user.vipLevel = true) :
    ∃ response, api.app.freshResponse request (api.run status (.ok user)) = some response ∧
      response.status = status ∧ api.app.codec.dumps user.toOut.document = some response.body := by
  obtain ⟨items, hItems, hFlat⟩ :=
    user.toOut.document_flat (Dialect.integer_of_takes (Dialect.stores_iff.mp hStored).2)
  obtain ⟨body, -, hBody, -, -⟩ := api.app.codec.dumps_flat items hFlat
  have hPlain : ∀ header ∈ ([] : Headers), Latin1 header.2 := fun _ hMem => nomatch hMem
  have hRendered : jsonResponse api.app.codec status user.toOut.document [] "application/json" =
      some (bodyResponse status [] "application/json" body) :=
    jsonResponse_eq_some.mpr ⟨hPlain, body, hItems ▸ hBody, rfl⟩
  refine ⟨(bodyResponse status [] "application/json" body).withRequestId (KernelApp.requestId request), ?_, rfl,
    hItems ▸ hBody⟩
  simp only [ServiceApp.freshResponse, run, hRendered, HttpResponse.response_sent]

theorem getRoute_found {caller : Identity} {rows : List User} {user : User}
    (hRole : Satisfies userRoles (some caller)) (hMay : caller.userId = user.id ∨ "admin" ∈ caller.roles)
    (hReads : api.dialect.reads user.id = true) (hFound : rows.find? (fun row => row.id = user.id) = some user) :
    api.getRoute rows (some caller) user.id = .ok user := by
  obtain ⟨known, hKnown⟩ := (requireRoles_ok_iff api.app.registry).mpr hRole
  have hSame : known = caller := by
    simp only [requireRoles] at hKnown
    split at hKnown
    · cases hKnown
    · exact (Except.ok.inj hKnown).symm
  subst hSame
  have hOwner : ensureOwner api.app.registry user.id (some known) = .ok () := by
    refine if_neg ?_
    rintro ⟨hOther, hNoAdmin⟩
    exact hMay.elim hOther hNoAdmin
  have hReads' : api.dialect.reads user.id ≠ false := by simp [hReads]
  simp only [getRoute, hKnown, if_neg hReads', UserService.getUser, hFound, hOwner]

theorem getRoute_missing {caller : Identity} {rows : List User} {userId : String}
    (hRole : Satisfies userRoles (some caller)) (hReads : api.dialect.reads userId = true)
    (hMissing : ∀ row ∈ rows, row.id ≠ userId) :
    api.getRoute rows (some caller) userId =
      .error (.raisedApp (AppError.make api.app.registry userNotFound.code (some "用户不存在") none none)) := by
  obtain ⟨known, hKnown⟩ := (requireRoles_ok_iff api.app.registry).mpr hRole
  have hNone : rows.find? (fun row => row.id = userId) = none := by
    rw [List.find?_eq_none]
    intro row hRow
    simpa using hMissing row hRow
  have hReads' : api.dialect.reads userId ≠ false := by simp [hReads]
  simp only [getRoute, hKnown, if_neg hReads', UserService.getUser, hNone]

/-- A user that was created stays readable. Whatever is called afterwards, its
owner and an administrator read the document of the 201 response from every
replica that has applied the commit, and get the error of a missing user from
the others. -/
theorem created_stays_readable {call read : ApiCall} {body : Option PyValue} {values : FlushValues} {user : User}
    {applied : Nat} {caller : Identity} (hTarget : call.target = .create body values)
    (hCreated : api.createRoute users (api.identity call) body values = .ok user) (later : List ApiCall)
    (hRead : read.target = .get user.id applied) (hCaller : api.identity read = some caller)
    (hRole : Satisfies userRoles (some caller)) (hMay : caller.userId = user.id ∨ "admin" ∈ caller.roles) :
    ∃ posted, (api.step users call).2 = some posted ∧ posted.status = 201 ∧
      (users.length < applied → ∃ got, (api.step (api.after (api.step users call).1 later) read).2 = some got ∧
        got.status = 200 ∧ got.body = posted.body) ∧
      (applied ≤ users.length → (api.step (api.after (api.step users call).1 later) read).2 =
        api.app.freshResponse read.request
          ⟨none, .raisedApp (AppError.make api.app.registry userNotFound.code (some "用户不存在") none none)⟩) := by
  have hUsers : (api.step users call).1 = users ++ [user] := by simp only [step, hTarget, hCreated]
  have hPrefix : users ++ [user] <+: api.after (users ++ [user]) later := grows_after later
  obtain ⟨more, hMore⟩ := hPrefix
  have hFresh := fresh_of_createRoute hCreated
  have hStored := stores_of_createRoute hCreated
  have hReads : api.dialect.reads user.id = true :=
    Dialect.reads_of_takesString (Dialect.stores_iff.mp hStored).1
  obtain ⟨posted, hPosted, hStatus, hBody⟩ := freshResponse_run api call.request 201 hStored
  refine ⟨posted, ?_, hStatus, ?_, ?_⟩
  · simp only [step, routeRun, hTarget, hCreated]
    exact hPosted
  · intro hApplied
    obtain ⟨got, hGot, hGotStatus, hGotBody⟩ := freshResponse_run api read.request 200 hStored
    refine ⟨got, ?_, hGotStatus, Option.some_inj.mp (hGotBody.symm.trans hBody)⟩
    have hFound : ((api.after (users ++ [user]) later).take applied).find? (fun row => row.id = user.id) = some user := by
      have hNone : users.find? (fun row => row.id = user.id) = none := by
        rw [List.find?_eq_none]
        intro row hRow
        simpa using hFresh row hRow
      obtain ⟨extra, hExtra⟩ := Nat.exists_eq_add_of_lt hApplied
      rw [← hMore, List.append_assoc, List.take_append, List.take_of_length_le (Nat.le_of_lt hApplied),
        List.find?_append, hNone, Option.none_or, hExtra]
      have hOne : users.length + extra + 1 - users.length = extra + 1 := by omega
      rw [hOne, List.singleton_append, List.take_succ_cons, List.find?_cons]
      simp
    rw [hUsers]
    simp only [step, routeRun, hRead, hCaller, getRoute_found hRole hMay hReads hFound]
    exact hGot
  · intro hApplied
    have hMissing : ∀ row ∈ (api.after (users ++ [user]) later).take applied, row.id ≠ user.id := by
      rw [← hMore, List.append_assoc, List.take_append_of_le_length hApplied]
      exact fun row hRow => hFresh row (List.mem_of_mem_take hRow)
    rw [hUsers]
    simp only [step, routeRun, hRead, hCaller, getRoute_missing hRole hReads hMissing]
    rfl

theorem created_stays_readable_renamed :
    ∃ posted, (sampleApi.step [] (creation "u-1" "a@b.c" "Ada")).2 = some posted ∧ posted.status = 201 ∧
      ((0 < 1 → ∃ got, (sampleApi.step (sampleApi.after
          (sampleApi.step [] (creation "u-1" "a@b.c" "Ada")).1 [creation "u-2" "a@b.c" "Eve"])
          (reading "u-1" "user" 1)).2 = some got ∧ got.status = 200 ∧ got.body = posted.body)) := by
  have hCreated : sampleApi.createRoute [] (sampleApi.identity (creation "u-1" "a@b.c" "Ada"))
      (some (.dict [(.str "email", .str "a@b.c"), (.str "display_name", .str "Ada")])) ⟨"u-1", 0, 0, "e-1", 0, none⟩ =
        .ok ⟨"u-1", "a@b.c", "Ada", "active", 0, 0, 0⟩ := rfl
  have hCaller : sampleApi.identity (reading "u-1" "user" 1) = some ⟨"u-1", ["user"], none⟩ := by decide
  obtain ⟨posted, hPosted, hStatus, hRead, -⟩ := created_stays_readable rfl hCreated [creation "u-2" "a@b.c" "Eve"]
    rfl hCaller ⟨_, rfl, Or.inr ⟨"user", by decide, by decide⟩⟩ (Or.inl rfl)
  exact ⟨posted, hPosted, hStatus, hRead⟩

end UserApi

end Reading

end ServicePlatform
