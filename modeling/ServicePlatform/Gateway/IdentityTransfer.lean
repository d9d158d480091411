import ServicePlatform.Gateway.Proxy
import ServicePlatform.Text.Fields

/-! The identity on its way from the gateway to a service. The roles are joined
with commas on one side and split at commas on the other, where empty names are
dropped, so a role is read back as it was when it is neither empty nor has a
comma of its own. -/
namespace ServicePlatform

open Text

/-- `ensure_owner`. -/
def ensureOwner (registry : ErrorRegistry) (ownerId : String) (identity : Option Identity) : Except AppError Unit :=
  match identity with
  | none => .error (AppError.make registry "UNAUTHORIZED" (some "未认证：缺少可信身份") none none)
  | some identity =>
      if identity.userId ≠ ownerId ∧ "admin" ∉ identity.roles then
        .error (AppError.make registry "FORBIDDEN" (some "无权访问该资源") none none)
      else .ok ()

/-- `ensure_tenant`. -/
def ensureTenant (registry : ErrorRegistry) (identity : Option Identity) : Except AppError String :=
  match identity.bind Identity.tenantId with
  | some tenantId =>
      if tenantId = "" then .error (AppError.make registry "FORBIDDEN" (some "缺少租户上下文") none none)
      else .ok tenantId
  | none => .error (AppError.make registry "FORBIDDEN" (some "缺少租户上下文") none none)

/-- The error of a check that fails. -/
def refusal {α : Type} : Except AppError α → Option AppError
  | .error error => some error
  | .ok _ => none

/-- The second identity is the first for all that the checks look at. -/
structure Identity.Survives (registry : ErrorRegistry) (sent received : Identity) : Prop where
  userId : received.userId = sent.userId
  roles : ∀ role, role ∈ received.roles ↔ role ∈ sent.roles
  tenant : ensureTenant registry (some received) = ensureTenant registry (some sent)
  required : ∀ required, refusal (requireRoles registry required (some received)) =
    refusal (requireRoles registry required (some sent))
  owner : ∀ ownerId, ensureOwner registry ownerId (some received) = ensureOwner registry ownerId (some sent)

/-- Printable ASCII and tabs, with no space at either end. -/
def HeaderText (text : String) : Prop :=
  (∀ c ∈ text.toList, c = '\t' ∨ 32 ≤ c.toNat ∧ c.toNat < 127) ∧ Trimmed text.toList

/-- All strings of the identity are header text. -/
def Identity.Textual (identity : Identity) : Prop :=
  HeaderText identity.userId ∧ (∀ role ∈ identity.roles, HeaderText role) ∧
    ∀ tenantId, identity.tenantId = some tenantId → HeaderText tenantId

section Split

theorem splitComma_eq (text : List Char) : splitComma text = text.splitOn ',' := by
  induction text with
  | nil => rfl
  | cons c rest ih =>
      rw [splitComma, List.splitOn_cons_eq_if_modifyHead, ← ih]
      by_cases hComma : c = ','
      · simp [hComma]
      · cases hParts : splitComma rest with
        | nil =>
            rw [ih] at hParts
            exact absurd hParts (List.splitOn_ne_nil _ _)
        | cons part parts => simp [hComma]

theorem not_mem_splitComma {text part : List Char} (h : part ∈ splitComma text) : ',' ∉ part := by
  induction text generalizing part with
  | nil =>
      rw [List.mem_singleton.mp h]
      exact List.not_mem_nil
  | cons c rest ih =>
      rw [splitComma] at h
      split at h
      · rcases List.mem_cons.mp h with rfl | hRest
        · exact List.not_mem_nil
        · exact ih hRest
      · next hOther =>
          split at h
          · next first parts hParts =>
              rw [hParts] at ih
              rcases List.mem_cons.mp h with rfl | hRest
              · intro hComma
                rcases List.mem_cons.mp hComma with hSame | hTail
                · exact hOther hSame.symm
                · exact ih List.mem_cons_self hTail
              · exact ih (List.mem_cons_of_mem _ hRest)
          · rw [List.mem_singleton.mp h]
            simpa using Ne.symm hOther

/-- A role that is read is neither empty nor has a comma. -/
theorem plain_of_mem_parseRoles {header : Option String} {role : String} (h : role ∈ parseRoles header) :
    role ≠ "" ∧ ',' ∉ role.toList := by
  obtain ⟨hListed, hSome⟩ := List.mem_filter.mp h
  obtain ⟨part, hPart, rfl⟩ := List.mem_map.mp hListed
  refine ⟨by simpa using hSome, ?_⟩
  rw [String.toList_ofList]
  exact not_mem_splitComma hPart

/-- Plain roles are read back. -/
theorem parseRoles_join {roles : List String} (h : ∀ role ∈ roles, role ≠ "" ∧ ',' ∉ role.toList) :
    parseRoles (some (",".intercalate roles)) = roles := by
  by_cases hNone : roles = []
  · subst hNone
    decide
  · have hSplit : splitComma (",".intercalate roles).toList = roles.map String.toList := by
      rw [splitComma_eq, String.toList_intercalate]
      apply List.splitOn_intercalate
      · intro part hPart
        obtain ⟨role, hRole, rfl⟩ := List.mem_map.mp hPart
        exact (h role hRole).2
      · simpa using hNone
    unfold parseRoles
    rw [Option.getD_some, hSplit, List.map_map, List.filter_eq_self.mpr]
    · simp
    · intro role hRole
      obtain ⟨own, hOwn, rfl⟩ := List.mem_map.mp hRole
      simpa using (h own hOwn).1

end Split

section Wire

theorem headerText_append_comma {front back : String} (hFront : HeaderText front) (hBack : HeaderText back) :
    HeaderText (front ++ "," ++ back) := by
  have hText : (front ++ "," ++ back).toList = front.toList ++ ',' :: back.toList := by simp
  unfold HeaderText
  rw [hText]
  refine ⟨?_, ?_, ?_⟩
  · intro c hc
    rcases List.mem_append.mp hc with hMem | hMem
    · exact hFront.1 c hMem
    · rcases List.mem_cons.mp hMem with rfl | hMem
      · decide
      · exact hBack.1 c hMem
  · intro c hc
    cases hOwn : front.toList with
    | nil =>
        rw [hOwn] at hc
        cases hc
        decide
    | cons d rest =>
        rw [hOwn] at hc
        cases hc
        exact hFront.2.1 c (congrArg List.head? hOwn)
  · intro c hc
    rw [List.getLast?_append_cons] at hc
    cases hOwn : back.toList with
    | nil =>
        rw [hOwn] at hc
        cases hc
        decide
    | cons d rest =>
        rw [hOwn, List.getLast?_cons_cons, ← hOwn] at hc
        exact hBack.2.2 c hc

theorem headerText_join {roles : List String} (h : ∀ role ∈ roles, HeaderText role) :
    HeaderText (",".intercalate roles) := by
  induction roles with
  | nil => exact ⟨List.forall_mem_nil _, nofun, nofun⟩
  | cons role roles ih =>
      obtain ⟨hHere, hRest⟩ := List.forall_mem_cons.mp h
      by_cases hLast : roles = []
      · rw [hLast, String.intercalate_singleton]
        exact hHere
      · rw [String.intercalate_cons_of_ne_nil hLast]
        exact headerText_append_comma hHere (ih hRest)

/-- The only value of a name is the last one. -/
theorem Headers.last_eq {headers : Headers} {name value : String}
    (hMem : ∃ header ∈ headers, lowerName header.1 = name)
    (hOnly : ∀ header ∈ headers, lowerName header.1 = name → header.2 = value) :
    Headers.last headers name = some value := by
  have hFound : (headers.reverse.find? fun header => lowerName header.1 = name).isSome = true := by
    obtain ⟨header, hHeader, hName⟩ := hMem
    rw [List.find?_isSome]
    exact ⟨header, List.mem_reverse.mpr hHeader, by simpa using hName⟩
  obtain ⟨header, hHeader⟩ := Option.isSome_iff_exists.mp hFound
  have hName : lowerName header.1 = name := by
    have hHolds := List.find?_some hHeader
    simpa using hHolds
  unfold Headers.last
  rw [hHeader, Option.map_some, hOnly header (List.mem_reverse.mp (List.mem_of_find?_eq_some hHeader)) hName]

end Wire

namespace Gateway

/-- The header values on the wire. Header text arrives as it was sent; other
values may be refused or changed on the way. -/
structure HeaderWire where
  carry : String → String
  carry_text : ∀ text, HeaderText text → carry text = text

/-- The request as the service reads it. -/
def HeaderWire.receive (wire : HeaderWire) (request : HttpRequest) : HttpRequest :=
  { request with headers := request.headers.map fun header => (header.1, wire.carry header.2) }

namespace ProxyCall

variable {client : HttpClient} {wire : HeaderWire} {call : ProxyCall} {url uuid traceId : String}

/-- The request that reaches the service for a call of the gateway. -/
def received (client : HttpClient) (wire : HeaderWire) (call : ProxyCall) (url uuid traceId : String) :
    HttpRequest :=
  wire.receive (client.deliver (call.outbound url) uuid traceId)

/-- The service reads what the gateway sent under a name that nothing else uses. -/
theorem received_header {name value : String} (hText : HeaderText value) (hOwn : name ∉ clientHeaderNames)
    (hMem : ∃ header ∈ call.outHeaders, lowerName header.1 = name)
    (hOnly : ∀ header ∈ call.outHeaders, lowerName header.1 = name → header.2 = value) :
    (call.received client wire url uuid traceId).header name = some value := by
  apply Headers.last_eq
  · obtain ⟨header, hHeader, hName⟩ := hMem
    exact ⟨_, List.mem_map_of_mem (List.mem_append_right _ hHeader), hName⟩
  · intro header hHeader hName
    obtain ⟨sent, hSent, rfl⟩ := List.mem_map.mp hHeader
    rcases List.mem_append.mp hSent with hAdded | hOut
    · exact absurd (hName ▸ client.documented _ sent hAdded) hOwn
    · show wire.carry sent.2 = value
      rw [hOnly sent hOut hName]
      exact wire.carry_text value hText

/-- The headers of the identity, apart from those of the content and the trace. -/
def identityHeaders (identity : Identity) : Headers :=
  [("X-User-Id", identity.userId), ("X-User-Roles", ",".intercalate identity.roles),
    ("X-Tenant-Id", identity.tenantId.getD "")]

theorem outHeaders_cases {header : String × String} (h : header ∈ call.outHeaders) :
    header ∈ identityHeaders call.identity ∨ lowerName header.1 ∈ ["content-type", "traceparent", "tracestate"] := by
  rcases List.mem_append.mp h with hMem | hState
  · rcases List.mem_append.mp hMem with hMem | hParent
    · rcases List.mem_append.mp hMem with hIdentity | hContent
      · exact Or.inl hIdentity
      · split at hContent
        · cases hContent
        · rw [List.mem_singleton.mp hContent]
          exact Or.inr (show lowerName "Content-Type" ∈ _ by decide)
    · obtain ⟨text, -, rfl⟩ := Option.map_eq_some_iff.mp (Option.mem_toList.mp hParent)
      exact Or.inr (show lowerName "traceparent" ∈ _ by decide)
  · obtain ⟨text, -, rfl⟩ := Option.map_eq_some_iff.mp (Option.mem_toList.mp hState)
    exact Or.inr (show lowerName "tracestate" ∈ _ by decide)

/-- Each header of the identity has a name of its own. -/
theorem received_identityHeader (header : String × String) (hHeader : header ∈ identityHeaders call.identity)
    (hText : HeaderText header.2) :
    (call.received client wire url uuid traceId).header (lowerName header.1) = some header.2 := by
  have hNames : (identityHeaders call.identity).map (fun header => lowerName header.1) =
      ["x-user-id", "x-user-roles", "x-tenant-id"] := by
    show [lowerName "X-User-Id", lowerName "X-User-Roles", lowerName "X-Tenant-Id"] = _
    decide
  have hOwn : ∀ name ∈ ["x-user-id", "x-user-roles", "x-tenant-id"],
      name ∉ clientHeaderNames ∧ name ∉ ["content-type", "traceparent", "tracestate"] := by decide
  have hListed : lowerName header.1 ∈ ["x-user-id", "x-user-roles", "x-tenant-id"] := by
    rw [← hNames]
    exact List.mem_map_of_mem hHeader
  have hUnique : ∀ other ∈ identityHeaders call.identity, lowerName other.1 = lowerName header.1 → other = header := by
    have hNodup : ((identityHeaders call.identity).map fun header => lowerName header.1).Nodup := by
      rw [hNames]
      decide
    exact fun other hOther hName => List.inj_on_of_nodup_map hNodup hOther hHeader hName
  apply received_header hText (hOwn _ hListed).1
  · exact ⟨header, List.mem_append_left _ (List.mem_append_left _ (List.mem_append_left _ hHeader)), rfl⟩
  · intro other hOther hName
    rcases outHeaders_cases hOther with hIdentity | hElse
    · exact congrArg Prod.snd (hUnique other hIdentity hName)
    · rw [hName] at hElse
      exact absurd hElse (hOwn _ hListed).2

/-- The identity that the service reads. -/
theorem identityOf_received (hUser : call.identity.userId ≠ "") (hTextual : call.identity.Textual) :
    identityOf true (call.received client wire url uuid traceId) =
      some ⟨call.identity.userId, parseRoles (some (",".intercalate call.identity.roles)),
        some (call.identity.tenantId.getD "")⟩ := by
  obtain ⟨hUserText, hRoleTexts, hTenantText⟩ := hTextual
  have hTenant : HeaderText (call.identity.tenantId.getD "") := by
    cases hGiven : call.identity.tenantId with
    | none => exact ⟨List.forall_mem_nil _, nofun, nofun⟩
    | some tenantId => exact hTenantText tenantId hGiven
  have hUserId : (call.received client wire url uuid traceId).header "x-user-id" = some call.identity.userId := by
    have hName : lowerName "X-User-Id" = "x-user-id" := by decide
    rw [← hName]
    exact received_identityHeader ("X-User-Id", call.identity.userId) List.mem_cons_self hUserText
  have hRoles : (call.received client wire url uuid traceId).header "x-user-roles" =
      some (",".intercalate call.identity.roles) := by
    have hName : lowerName "X-User-Roles" = "x-user-roles" := by decide
    rw [← hName]
    exact received_identityHeader ("X-User-Roles", ",".intercalate call.identity.roles)
      (List.mem_cons_of_mem _ List.mem_cons_self) (headerText_join hRoleTexts)
  have hTenantId : (call.received client wire url uuid traceId).header "x-tenant-id" =
      some (call.identity.tenantId.getD "") := by
    have hName : lowerName "X-Tenant-Id" = "x-tenant-id" := by decide
    rw [← hName]
    exact received_identityHeader ("X-Tenant-Id", call.identity.tenantId.getD "")
      (List.mem_cons_of_mem _ (List.mem_cons_of_mem _ List.mem_cons_self)) hTenant
  unfold identityOf
  simp only [if_true, hUserId, if_neg hUser, hRoles, hTenantId]

end ProxyCall

end Gateway

section Checks

variable {registry : ErrorRegistry} {sent received : Identity}

/-- An absent tenant and an empty one are refused alike. -/
theorem ensureTenant_getD (userId : String) (roles others : List String) (tenantId : Option String) :
    ensureTenant registry (some ⟨userId, roles, some (tenantId.getD "")⟩) =
      ensureTenant registry (some ⟨userId, others, tenantId⟩) := by
  cases tenantId with
  | none => rfl
  | some tenantId => rfl

/-- The checks look at the user, at which roles there are, and at the tenant. -/
theorem Identity.Survives.of_same (hUser : received.userId = sent.userId)
    (hRoles : ∀ role, role ∈ received.roles ↔ role ∈ sent.roles)
    (hTenant : ensureTenant registry (some received) = ensureTenant registry (some sent)) :
    sent.Survives registry received where
  userId := hUser
  roles := hRoles
  tenant := hTenant
  required required := by
    have hDisjoint : (∀ role ∈ received.roles, role ∉ required) ↔ ∀ role ∈ sent.roles, role ∉ required := by
      simp only [hRoles]
    unfold requireRoles
    simp only [hDisjoint]
    split <;> rfl
  owner ownerId := by
    unfold ensureOwner
    simp only [hUser, hRoles]

end Checks

namespace Gateway

/-- The identity survives the way to the service exactly when every role is a
name without a comma. -/
theorem identity_survives_iff (registry : ErrorRegistry) (client : HttpClient) (wire : HeaderWire) (call : ProxyCall)
    (url uuid traceId : String) (hUser : call.identity.userId ≠ "") (hTextual : call.identity.Textual) :
    (∃ received, identityOf true (call.received client wire url uuid traceId) = some received ∧
      call.identity.Survives registry received) ↔
    ∀ role ∈ call.identity.roles, role ≠ "" ∧ ',' ∉ role.toList := by
  rw [ProxyCall.identityOf_received hUser hTextual]
  simp only [Option.some_inj, exists_eq_left']
  constructor
  · intro hSurvives role hRole
    exact plain_of_mem_parseRoles ((hSurvives.roles role).mpr hRole)
  · intro hPlain
    rw [parseRoles_join hPlain]
    exact .of_same rfl (fun _ => Iff.rfl) (ensureTenant_getD _ _ _ _)

/-- A wire that changes nothing. -/
def plainWire : HeaderWire := ⟨id, fun _ _ => rfl⟩

/-- A call for a user with the given roles and no tenant. -/
def callAs (roles : List String) : ProxyCall :=
  ⟨"GET", "/users/u-1", ⟨"GET", "/v1/users/u-1", [], [], "", "", some "/v1/users/u-1"⟩, ⟨"u-1", roles, none⟩, none, none⟩

/-- Header text, as it is decided along the text. -/
theorem headerText_iff (text : String) : HeaderText text ↔
    (text.toList.all fun c => c = '\t' ∨ 32 ≤ c.toNat ∧ c.toNat < 127) = true ∧
      text.toList.head?.all (fun c => c ∉ spaces) = true ∧ text.toList.getLast?.all (fun c => c ∉ spaces) = true := by
  simp [HeaderText, Trimmed, List.all_eq_true, Option.all_eq_true]

instance (text : String) : Decidable (HeaderText text) := decidable_of_iff' _ (headerText_iff text)

theorem identity_survives_iff_admin :
    ∃ received, identityOf true ((callAs ["user", "admin"]).received plainClient plainWire "http://user:8100" "" "") =
      some received ∧ (callAs ["user", "admin"]).identity.Survives [] received :=
  (identity_survives_iff [] plainClient plainWire (callAs ["user", "admin"]) "http://user:8100" "" ""
    (by decide) ⟨by decide, by decide, nofun⟩).mpr (by decide)

/-- Whoever has the one role `guest,admin` is no administrator in the gateway
and is one in the service. -/
theorem role_gained :
    (callAs ["guest,admin"]).identity.userId ≠ "" ∧ (callAs ["guest,admin"]).identity.Textual ∧
    (refusal (requireRoles [] ["admin"] (some (callAs ["guest,admin"]).identity))).isSome = true ∧
    identityOf true ((callAs ["guest,admin"]).received plainClient plainWire "http://user:8100" "" "") =
      some ⟨"u-1", ["guest", "admin"], some ""⟩ ∧
    (refusal (requireRoles [] ["admin"] (some ⟨"u-1", ["guest", "admin"], some ""⟩))).isSome = false := by
  exact ⟨by decide, ⟨by decide, by decide, nofun⟩, by decide, by decide +kernel, by decide⟩

end Gateway

end ServicePlatform
