import ServicePlatform.Platform.Responses

/-! Reading a user through the gateway after it was created through the gateway,
on any instance, with other clients and failing instances in between. -/
namespace ServicePlatform

open Gateway Text Transition

/-- The status of an error by its code, where its response can be rendered. -/
theorem handleAppError_make {codec : JsonCodec} {registry : ErrorRegistry} {request : HttpRequest} {traceId code : String}
    {message : Option String} {response : HttpResponse}
    (h : handleAppError codec registry request traceId (AppError.make registry code message none none) = some response) :
    response.status = ((getErrorCode registry code).map ErrorCode.httpStatus).getD 500 := by
  unfold handleAppError at h
  rw [problemResponse_status h]
  unfold AppError.make AppError.entry
  cases hCode : getErrorCode registry code with
  | none =>
      dsimp only
      rw [hCode]
      rfl
  | some ec =>
      dsimp only
      rw [getErrorCode_code hCode, hCode]
      rfl

namespace UserApi

variable {api : UserApi} {users : List User} {identity : Option Identity} {body : Option PyValue} {values : FlushValues}

/-- What `create_user` raises is an email conflict or nothing that a handler expects. -/
theorem createUser_error {registry : ErrorRegistry} {dialect : Dialect} {email displayName : String} {vipLevel : Int}
    {error : CreateError}
    (h : UserService.createUser registry dialect users email displayName vipLevel values = .error error) :
    error.routeEnd = .raised ∨ error.routeEnd = .raisedApp (AppError.make registry emailAlreadyExists.code
      (some "邮箱已存在") none none) := by
  unfold UserService.createUser at h
  split at h
  · cases h
    exact Or.inl rfl
  · split at h
    · split at h
      · cases h
        exact Or.inr rfl
      · split at h
        · cases h
          exact Or.inl rfl
        · cases h
          exact Or.inl rfl
    · split at h
      · cases h
        exact Or.inl rfl
      · split at h
        · cases h
          exact Or.inl rfl
        · split at h
          · cases h
          · cases h
            exact Or.inl rfl

/-- What the route raises when it creates no user. -/
theorem createRoute_error {ending : RouteEnd} (h : api.createRoute users identity body values = .error ending) :
    (∃ errors, ending = .raisedValidation errors) ∨ ending = .raised ∨
      ∃ code ∈ ["UNAUTHORIZED", "FORBIDDEN", "EMAIL_ALREADY_EXISTS"], ∃ message,
        ending = .raisedApp (AppError.make api.app.registry code message none none) := by
  unfold createRoute at h
  split at h
  · cases h
    exact Or.inl ⟨_, rfl⟩
  · split at h
    · next error hRole =>
        cases h
        unfold requireRoles at hRole
        split at hRole
        · cases hRole
          exact Or.inr (Or.inr ⟨_, List.mem_cons_self, _, rfl⟩)
        · split at hRole
          · cases hRole
            exact Or.inr (Or.inr ⟨_, List.mem_cons_of_mem _ List.mem_cons_self, _, rfl⟩)
          · cases hRole
    · split at h
      · cases h
        exact Or.inl ⟨_, rfl⟩
      · split at h
        · cases h
        · next error hMade =>
            cases h
            rcases createUser_error hMade with hRaised | hConflict
            · exact Or.inr (Or.inl hRaised)
            · exact Or.inr (Or.inr ⟨emailAlreadyExists.code, by decide, _, hConflict⟩)

/-- Whoever is answered with 201 has created a user. -/
theorem created_of_status (hCodes : api.app.registry = serviceErrorCodes) {request : HttpRequest} {sent : HttpResponse}
    (h : (api.step users ⟨request, .create body values⟩).2 = some sent) (hStatus : sent.status = 201) :
    ∃ user, api.createRoute users (identityOf api.trustProxyHeaders request) body values = .ok user ∧
      api.app.codec.dumps user.toOut.document = some sent.body := by
  have hRun : api.app.freshResponse request (api.run 201
      (api.createRoute users (identityOf api.trustProxyHeaders request) body values)) = some sent := h
  cases hMade : api.createRoute users (identityOf api.trustProxyHeaders request) body values with
  | ok user =>
      rw [hMade] at hRun
      obtain ⟨response, hResponse, -, hBody⟩ := freshResponse_run api request 201 (stores_of_createRoute hMade)
      cases hResponse.symm.trans hRun
      exact ⟨user, rfl, hBody⟩
  | error ending =>
      exfalso
      rw [hMade] at hRun
      have hUnexpected : ∀ {given : HttpResponse}, handleUnexpected api.app.codec request request.traceId = some given →
          given.status ≠ 201 := by
        intro given hGiven
        rw [problemResponse_status hGiven]
        decide
      simp only [ServiceApp.freshResponse, run] at hRun
      split at hRun
      · next given hHandled =>
          cases hRun
          rcases createRoute_error hMade with ⟨errors, rfl⟩ | rfl | ⟨code, hCode, message, rfl⟩
          · exact absurd ((problemResponse_status hHandled).symm.trans hStatus) (by decide)
          · cases hHandled
          · have hKnown : ∀ code ∈ ["UNAUTHORIZED", "FORBIDDEN", "EMAIL_ALREADY_EXISTS"],
                ((getErrorCode serviceErrorCodes code).map ErrorCode.httpStatus).getD 500 ≠ 201 := by decide
            have hError := handleAppError_make hHandled
            rw [hCodes] at hError
            exact hKnown code hCode (hError.symm.trans hStatus)
      · exact hUnexpected (Option.ite_none_right_eq_some.mp hRun).2 hStatus

end UserApi

variable {platform : Platform} {users : List User} {m s t : PlatformState} {a : PlatformAction}

/-- Executions are added at the end. -/
theorem executions_grow_step (h : platformStep platform s a = some t) : s.executions <+: t.executions := by
  cases platformMove_of_step h with
  | executed => exact List.prefix_append _ _
  | _ => exact List.prefix_rfl

theorem executions_grow {as : List PlatformAction} (run : exec (platformStep platform) s as = some t) :
    s.executions <+: t.executions := by
  refine monotone (I := fun _ => True) (R := fun s t : PlatformState => s.executions <+: t.executions)
    (fun _ => List.prefix_rfl) (fun _ _ _ => List.IsPrefix.trans) (fun _ _ _ _ _ => trivial) ?_ trivial run
  exact fun _ _ _ _ h => executions_grow_step h

theorem handle_grow (users : List User) (request : HttpRequest) (chance : Chance) :
    users <+: (platform.handle users request chance).1 := by
  rcases handle_users request chance with hSame | ⟨-, new, hNew⟩
  · rw [hSame]
  · rw [hNew]
    exact List.prefix_append _ _

theorem usersAfter_grow (users : List User) (executions more : List Execution) :
    platform.usersAfter users executions <+: platform.usersAfter users (executions ++ more) := by
  induction more using List.reverseRecOn with
  | nil => rw [List.append_nil]
  | append_singleton more e ih =>
      have hLast : platform.usersAfter users (executions ++ (more ++ [e])) =
          (platform.handle (platform.usersAfter users (executions ++ more)) e.request e.chance).1 := by
        rw [← List.append_assoc, Platform.usersAfter, List.foldl_append]
        rfl
      refine ih.trans ?_
      rw [hLast]
      exact handle_grow _ _ _

section Executions

variable {dots : DotRemoval} {decoder : ByteDecoder} {e : Execution} {user : User} {sent : HttpResponse}

/-- An attempt that was answered with 201 has created a user with a new id. -/
theorem AttemptFor.created (h : AttemptFor platform e .createUser) (hCodes : platform.api.app.registry = serviceErrorCodes)
    {origin : Origin} (hUrl : e.url = origin.url) (hAnswer : e.answer = (platform.handle e.found e.request e.chance).2)
    (hSent : e.answer = some sent) (hStatus : sent.status = 201) :
    ∃ user, (platform.handle e.found e.request e.chance).1 = e.found ++ [user] ∧
      platform.api.dialect.stores user.id user.email user.displayName user.vipLevel = true ∧
      platform.api.app.codec.dumps user.toOut.document = some sent.body ∧ ∀ other ∈ e.found, other.id ≠ user.id := by
  have hRoute := h.path origin hUrl trivial
  have hHandle : platform.handle e.found e.request e.chance = platform.api.step e.found ⟨e.request, .create
      (platform.readBody (Headers.first e.request.headers "content-type") e.request.body) e.chance.values⟩ := by
    simp only [Platform.handle, hRoute]
  rw [hSent, hHandle] at hAnswer
  obtain ⟨user, hMade, hBody⟩ := UserApi.created_of_status hCodes hAnswer.symm hStatus
  refine ⟨user, ?_, UserApi.stores_of_createRoute hMade, hBody, UserApi.fresh_of_createRoute hMade⟩
  rw [hHandle]
  simp only [UserApi.step, UserApi.identity, hMade]

/-- An attempt to read a user finds it where the replica has it. -/
theorem AttemptFor.read (h : AttemptFor platform e (.getUser user.id)) (hTrust : platform.api.trustProxyHeaders = true)
    {origin : Origin} (hUrl : e.url = origin.url) (hPlain : PlainId user.id)
    (hTaken : platform.api.dialect.stores user.id user.email user.displayName user.vipLevel = true) {front : List User}
    (hStored : front ++ [user] <+: e.found) (hFresh : ∀ other ∈ front, other.id ≠ user.id)
    (hApplied : front.length < e.chance.applied) (hAnswer : e.answer = (platform.handle e.found e.request e.chance).2) :
    ∃ got, e.answer = some got ∧ got.status = 200 ∧
      platform.api.app.codec.dumps user.toOut.document = some got.body := by
  have hRoute := h.path origin hUrl hPlain
  have hFound : (e.found.take e.chance.applied).find? (fun row => row.id = user.id) = some user := by
    obtain ⟨more, hMore⟩ := hStored
    have hNone : front.find? (fun row => row.id = user.id) = none := by
      rw [List.find?_eq_none]
      intro row hRow
      simpa using hFresh row hRow
    obtain ⟨extra, hExtra⟩ := Nat.exists_eq_add_of_lt hApplied
    have hOne : front.length + extra + 1 - front.length = extra + 1 := by omega
    rw [← hMore, List.append_assoc, List.take_append, List.take_of_length_le (Nat.le_of_lt hApplied),
      List.find?_append, hNone, Option.none_or, hExtra, hOne, List.singleton_append, List.take_succ_cons, List.find?_cons]
    simp
  have hIdentity : identityOf platform.api.trustProxyHeaders e.request = some devIdentity := by
    rw [hTrust]
    exact h.identity
  have hRole : Satisfies userRoles (some devIdentity) := ⟨_, rfl, Or.inr ⟨"user", by decide, by decide⟩⟩
  have hMay : devIdentity.userId = user.id ∨ "admin" ∈ devIdentity.roles := Or.inr (by decide)
  have hReads : platform.api.dialect.reads user.id = true :=
    Dialect.reads_of_takesString (Dialect.stores_iff.mp hTaken).1
  obtain ⟨got, hGot, hStatus, hBody⟩ := UserApi.freshResponse_run platform.api e.request 200 hTaken
  refine ⟨got, ?_, hStatus, hBody⟩
  rw [hAnswer]
  simp only [Platform.handle, hRoute, UserApi.step, UserApi.routeRun, UserApi.identity, hIdentity,
    UserApi.getRoute_found hRole hMay hReads hFound]
  exact hGot

end Executions

/-- A client that was answered with 201, by an attempt of its own, has created a
user. Whatever clients, instances and balancer do afterwards, whoever begins to
ask for this user then is answered with the same document, or by an error of the
gateway, provided that the replicas that are read have caught up. -/
theorem created_then_read {dots : DotRemoval} {decoder : ByteDecoder}
    (hServed : ∀ url, platform.client.path url = String.ofList (servedPath dots decoder url.toList))
    (hCodes : platform.api.app.registry = serviceErrorCodes) (hTrust : platform.api.trustProxyHeaders = true)
    {urls : List String} {before after : List PlatformAction}
    (first : exec (platformStep platform) (PlatformState.initial urls users) before = some m)
    (second : exec (platformStep platform) m after = some s)
    (hOrigins : ∀ e ∈ s.executions, ∃ origin : Origin, e.url = origin.url) {c : CallId} {posted : HttpResponse}
    (hPost : UserRoute.of (platform.request c) = some .createUser) (hPosted : m.clients c = .answered (some posted))
    (hOwn : ∃ e ∈ m.executions, e.call = c) (hCreated : posted.status = 201) :
    ∃ user ∈ m.users, platform.api.app.codec.dumps user.toOut.document = some posted.body ∧
      ∀ c' got, m.clients c' = .arriving → UserRoute.of (platform.request c') = some (.getUser user.id) →
        PlainId user.id → (∀ e ∈ s.executions, e.call = c' → m.users.length ≤ e.chance.applied) →
        s.clients c' = .answered (some got) →
          OwnError platform c' (some got) ∨ got.status = 200 ∧ got.body = posted.body := by
  obtain ⟨hMediated, hBacked⟩ := backed_run first
  obtain ⟨hMediated', hBacked'⟩ := backed_run (exec_append.mpr ⟨m, first, second⟩)
  obtain ⟨more, hMore⟩ := executions_grow second
  obtain ⟨e, he, sent, hSent, -, hStatus, hSource⟩ := (hBacked.genuine hMediated hPosted (by simp [hPost])).resolve_left
    (not_ownError (by rw [hCreated]; decide))
  obtain ⟨own, hOwn, hCall⟩ := hOwn
  obtain ⟨hCall, hBody⟩ := hSource.resolve_right fun h => h.1 own hOwn hCall
  have he' : e ∈ s.executions := hMore ▸ List.mem_append_left _ he
  obtain ⟨origin, hUrl⟩ := hOrigins e he'
  obtain ⟨route, hAttempt⟩ := hMediated.attempt hServed he
  have hRoute := hAttempt.routed
  rw [hCall, hPost] at hRoute
  cases hRoute
  obtain ⟨front, back, hSplit⟩ := List.append_of_mem he
  obtain ⟨hFound, hAnswer⟩ := hMediated.handled front e back hSplit
  obtain ⟨user, hMade, hTaken, hDocument, hFresh⟩ := hAttempt.created hCodes hUrl hAnswer hSent (hStatus.symm.trans hCreated)
  have hStored : e.found ++ [user] <+: m.users := by
    have hAfter : platform.usersAfter users (front ++ [e]) = e.found ++ [user] := by
      rw [← hMade, hFound, Platform.usersAfter, List.foldl_append]
      rfl
    rw [hMediated.database, hSplit, ← hAfter, List.append_cons front e back]
    exact usersAfter_grow users (front ++ [e]) back
  refine ⟨user, hStored.subset (List.mem_append_right _ (List.mem_singleton_self user)), hBody ▸ hDocument, ?_⟩
  intro c' got hArriving hGet hPlain hApplied hGot
  refine (hBacked'.genuine hMediated' hGot (by simp [hGet])).imp_right ?_
  rintro ⟨e₂, he₂, sent₂, hSent₂, -, hStatus₂, hSource₂⟩
  obtain ⟨hCall₂, hBody₂⟩ := hSource₂.resolve_right fun h => by
    rw [hGet] at h
    cases h.2.1
  have hLate : e₂ ∉ m.executions := by
    intro hEarly
    obtain ⟨call, hProxied, -⟩ := hMediated.sent e₂ hEarly
    rw [hCall₂, hMediated.unbegun c' (Or.inl hArriving)] at hProxied
    cases hProxied
  obtain ⟨route₂, hAttempt₂⟩ := hMediated'.attempt hServed he₂
  have hRoute₂ := hAttempt₂.routed
  rw [hCall₂, hGet] at hRoute₂
  cases hRoute₂
  have hSplit₂ : ∃ front₂ back₂, more = front₂ ++ e₂ :: back₂ := by
    rw [← hMore, List.mem_append] at he₂
    exact List.append_of_mem (he₂.resolve_left hLate)
  obtain ⟨front₂, back₂, rfl⟩ := hSplit₂
  obtain ⟨hFound₂, hAnswer₂⟩ := hMediated'.handled (m.executions ++ front₂) e₂ back₂ (by rw [← hMore, List.append_assoc])
  have hGrown : m.users <+: e₂.found := by
    rw [hFound₂, hMediated.database]
    exact usersAfter_grow users m.executions front₂
  obtain ⟨origin₂, hUrl₂⟩ := hOrigins e₂ he₂
  have hLength : e.found.length < e₂.chance.applied := by
    have hIn := hStored.length_le
    have hCaught := hApplied e₂ he₂ hCall₂
    rw [List.length_append, List.length_singleton] at hIn
    omega
  obtain ⟨read, hRead, hReadStatus, hReadBody⟩ :=
    hAttempt₂.read hTrust hUrl₂ hPlain hTaken (hStored.trans hGrown) hFresh hLength hAnswer₂
  have hSame : read.body = sent.body := Option.some_inj.mp (hReadBody.symm.trans hDocument)
  cases hRead.symm.trans hSent₂
  exact ⟨hStatus₂.trans hReadStatus, (hBody₂.trans hSame).trans hBody.symm⟩

/-- The first client creates a user, and then the third one asks for it. -/
def createdActions : List PlatformAction :=
  creatingActions ++ [.answer 0 (.response ⟨201, [("content-type", "application/json")], [123, 125]⟩) 0 fun _ => 0,
    .finish 0]

def readActions : List PlatformAction :=
  [.arrive 2, .route 2 ⟨3, 3⟩ fun _ => 0, .execute 2 templateUrl (sampleChance 1),
    .answer 2 (.response ⟨200, [("content-type", "application/json")], [123, 125]⟩) 0 fun _ => 0, .finish 2]

theorem created_then_read_template : ∃ m s posted got,
    exec (platformStep samplePlatform) (PlatformState.initial [templateUrl] []) createdActions = some m ∧
      exec (platformStep samplePlatform) m readActions = some s ∧ m.clients 0 = .answered (some posted) ∧
        s.clients 2 = .answered (some got) ∧ got.status = 200 ∧ got.body = posted.body := by
  obtain ⟨m, s, posted, got, first, second, hPosted, hGot, hUsers, hOwn, hUrls, hCreated, hArriving, hApplied, hFine⟩ :
      ∃ m s posted got, exec (platformStep samplePlatform) (PlatformState.initial [templateUrl] []) createdActions = some m ∧
        exec (platformStep samplePlatform) m readActions = some s ∧ m.clients 0 = .answered (some posted) ∧
        s.clients 2 = .answered (some got) ∧ m.users.map User.id = ["u-1"] ∧
        m.executions.map Execution.call = [0] ∧ s.executions.map Execution.url = [templateUrl, templateUrl] ∧
        posted.status = 201 ∧ m.clients 2 = .arriving ∧
        s.executions.map (fun e => (e.call, e.chance.applied)) = [(0, 0), (2, 1)] ∧ got.status = 200 :=
    ⟨_, _, _, _, rfl, rfl, rfl, rfl, rfl, rfl, rfl, rfl, rfl, rfl, rfl⟩
  have hOrigins : ∀ e ∈ s.executions, ∃ origin : Origin, e.url = origin.url := by
    intro e he
    have hUrl : e.url ∈ [templateUrl, templateUrl] := hUrls ▸ List.mem_map_of_mem he
    have hSame : e.url = templateUrl := by simpa using hUrl
    exact ⟨templateOrigin, hSame⟩
  have hOwn : ∃ e ∈ m.executions, e.call = 0 := by
    have hCall : 0 ∈ m.executions.map Execution.call := hOwn ▸ List.mem_cons_self
    exact List.mem_map.mp hCall
  obtain ⟨user, hUser, -, hRead⟩ := created_then_read (fun _ => rfl) rfl rfl first second
    hOrigins (c := 0) rfl hPosted hOwn hCreated
  have hId : user.id = "u-1" := by
    have hListed : user.id ∈ ["u-1"] := hUsers ▸ List.mem_map_of_mem hUser
    simpa using hListed
  have hCaught : ∀ e ∈ s.executions, e.call = 2 → m.users.length ≤ e.chance.applied := by
    intro e he hCall
    have hPair : (e.call, e.chance.applied) ∈ [(0, 0), (2, 1)] := hApplied ▸ List.mem_map_of_mem he
    have hOne : m.users.length = 1 := by
      have hLength := congrArg List.length hUsers
      simpa using hLength
    rw [hCall] at hPair
    have hOnce : e.chance.applied = 1 := by simpa using hPair
    rw [hOne, hOnce]
  have hGet : UserRoute.of (samplePlatform.request 2) = some (.getUser user.id) := by
    rw [hId]
    rfl
  have hPlain : PlainId user.id := by
    rw [hId]
    decide
  obtain ⟨hStatus, hBody⟩ := (hRead 2 got hArriving hGet hPlain hCaught hGot).resolve_left
    (not_ownError (by rw [hFine]; decide))
  exact ⟨m, s, posted, got, first, second, hPosted, hGot, hStatus, hBody⟩

end ServicePlatform
