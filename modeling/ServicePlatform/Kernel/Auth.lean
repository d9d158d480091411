import ServicePlatform.Kernel.Problem

/-! The identity a request carries in the headers the gateway injects, and the
role check a route makes of it. No trusted identity means no access. -/
namespace ServicePlatform

structure Identity where
  userId : String
  roles : List String
  tenantId : Option String
  deriving DecidableEq

/-- `text.split(",")`. -/
def splitComma (text : List Char) : List (List Char) :=
  match text with
  | [] => [[]]
  | c :: rest =>
      if c = ',' then [] :: splitComma rest
      else match splitComma rest with
        | part :: parts => (c :: part) :: parts
        | [] => [[c]]

def parseRoles (header : Option String) : List String :=
  ((splitComma (header.getD "").toList).map String.ofList).filter fun role => role ≠ ""

/-- The identity `IdentityMiddleware` sets. -/
def identityOf (trustProxyHeaders : Bool) (request : HttpRequest) : Option Identity :=
  if trustProxyHeaders then
    match request.header "x-user-id" with
    | some userId =>
        if userId = "" then none
        else some ⟨userId, parseRoles (request.header "x-user-roles"), request.header "x-tenant-id"⟩
    | none => none
  else none

/-- `", ".join(roles)`. -/
def joinRoles : List String → String
  | [] => ""
  | [role] => role
  | role :: rest => role ++ ", " ++ joinRoles rest

/-- `require_roles`, with `get_current_identity` as its dependency. -/
def requireRoles (registry : ErrorRegistry) (roles : List String) (identity : Option Identity) :
    Except AppError Identity :=
  match identity with
  | none => .error (AppError.make registry "UNAUTHORIZED" (some "未认证：缺少可信身份") none none)
  | some identity =>
      if roles ≠ [] ∧ ∀ role ∈ identity.roles, role ∉ roles then
        .error (AppError.make registry "FORBIDDEN" (some ("需要角色: " ++ joinRoles roles)) none none)
      else .ok identity

/-- The identity satisfies `require_roles`. -/
def Satisfies (roles : List String) (identity : Option Identity) : Prop :=
  ∃ user, identity = some user ∧ (roles = [] ∨ ∃ role ∈ user.roles, role ∈ roles)

theorem requireRoles_ok_iff (registry : ErrorRegistry) {roles : List String}
    {identity : Option Identity} :
    (∃ user, requireRoles registry roles identity = .ok user) ↔ Satisfies roles identity := by
  cases identity with
  | none => simp [requireRoles, Satisfies]
  | some user =>
      simp only [requireRoles, Satisfies]
      split
      · next h =>
          obtain ⟨hRoles, hNone⟩ := h
          simp only [reduceCtorEq, exists_false, false_iff]
          rintro ⟨other, hOther, hAllowed⟩
          cases hOther
          rcases hAllowed with hEmpty | ⟨role, hRole, hIn⟩
          · exact hRoles hEmpty
          · exact hNone role hRole hIn
      · next h =>
          refine ⟨fun _ => ⟨user, rfl, ?_⟩, fun _ => ⟨user, rfl⟩⟩
          by_contra hNot
          simp only [not_or, not_exists, not_and] at hNot
          exact h hNot

/-- The error of a refused caller: unauthorized or forbidden. -/
def Refusal (registry : ErrorRegistry) (error : AppError) : Prop :=
  ∃ ec ∈ [ErrorCode.unauthorized, ErrorCode.forbidden], ∃ message,
    error = AppError.make registry ec.code message none none

theorem refusal_of_requireRoles {registry : ErrorRegistry} {roles : List String} {identity : Option Identity}
    {error : AppError} (h : requireRoles registry roles identity = .error error) : Refusal registry error := by
  unfold requireRoles at h
  split at h
  · cases h
    exact ⟨.unauthorized, List.mem_cons_self .., _, rfl⟩
  · split at h
    · cases h
      exact ⟨.forbidden, List.mem_cons_of_mem _ (List.mem_cons_self ..), _, rfl⟩
    · cases h

/-- A refusal has a built-in code and its status. -/
theorem Refusal.entry {registry : ErrorRegistry} {error : AppError} (h : Refusal registry error) :
    ∃ ec ∈ [ErrorCode.unauthorized, ErrorCode.forbidden], ec ∈ ErrorCode.builtin ∧ ∃ message,
      error = ⟨ec.code, ec.httpStatus, ec.title, message, none, none⟩ := by
  obtain ⟨ec, hListed, message, rfl⟩ := h
  have hBuiltin : ∀ ec ∈ [ErrorCode.unauthorized, ErrorCode.forbidden], ec ∈ ErrorCode.builtin := by decide
  refine ⟨ec, hListed, hBuiltin ec hListed, orDefault message ec.defaultMessage, ?_⟩
  simp only [AppError.make, getErrorCode_builtin registry (hBuiltin ec hListed)]

/-- A refusal is rendered as a problem with a built-in code and without details. -/
theorem Refusal.handled {registry : ErrorRegistry} {error : AppError} (h : Refusal registry error) (codec : JsonCodec)
    (request : HttpRequest) (traceId : String) :
    ∃ ec ∈ [ErrorCode.unauthorized, ErrorCode.forbidden], ec ∈ ErrorCode.builtin ∧ ∃ detail,
      handleAppError codec registry request traceId error =
        problemResponse codec request traceId ec detail none none := by
  obtain ⟨ec, hListed, hBuiltin, message, rfl⟩ := h.entry
  refine ⟨ec, hListed, hBuiltin, some message, ?_⟩
  simp only [handleAppError, AppError.entry, getErrorCode_builtin registry hBuiltin, Option.getD_some]

end ServicePlatform
