import ServicePlatform.Gateway.Proxy
import ServicePlatform.Gateway.Whitelist
import ServicePlatform.Text.Url

/-! The path that an instance is asked for. The whitelist approves the decoded
path of a request; the gateway puts it into a URL as it is, the client parses that
URL, and the server decodes the path once more. They agree on an id that means
nothing in a URL. -/
namespace ServicePlatform.Gateway

open Text

/-- `path` in `gateway_get_user`. -/
def userPath (userId : String) : String := "/v1/users/" ++ userId

/-- `gateway_get_user` up to the call of `proxy_request`, with the path it forwards. -/
def gatewayGetUser (registry : ErrorRegistry) (devToken : String) (request : HttpRequest) (userId : String) :
    Except AppError String :=
  match verifyToken registry devToken (request.header "authorization") with
  | .error error => .error error
  | .ok identity =>
      match checkFunctionAccess registry "GET" (userPath userId) identity with
      | .error error => .error error
      | .ok () => .ok (userPath userId)

/-- A request that the middleware and the route let through, with the path that
both have checked. -/
structure AcceptedGet (registry : ErrorRegistry) (devToken : String) (request : HttpRequest) (userId path : String) :
    Prop where
  method : request.method = "GET"
  routed : request.path = userPath userId
  passed : rejection registry devToken request = none
  answered : gatewayGetUser registry devToken request userId = .ok path

/-- The URL of an instance: a scheme and an authority, with or without slashes at the end. -/
structure Origin where
  scheme : List Char
  authority : List Char
  slashes : Nat
  scheme_plain : ∀ c ∈ scheme, c ∉ [':', '?', '#']
  authority_plain : ∀ c ∈ authority, c ∉ ['/', '?', '#']
  authority_nonempty : authority ≠ []

def Origin.url (origin : Origin) : String :=
  String.ofList (origin.scheme ++ ':' :: '/' :: '/' :: origin.authority ++ List.replicate origin.slashes '/')

/-- The path that an instance takes from the URL that the balancer builds. -/
def forwardedPath (dots : DotRemoval) (decoder : ByteDecoder) (origin : Origin) (path : String) : List Char :=
  servedPath dots decoder (upstreamUrl origin.url path).toList

/-- An id whose characters and segment mean nothing in a URL. -/
def PlainId (userId : String) : Prop :=
  ('#' ∉ userId.toList ∧ '?' ∉ userId.toList) ∧ (userId ≠ "." ∧ userId ≠ "..") ∧ ¬ HasEscape userId.toList

instance (userId : String) : Decidable (PlainId userId) :=
  inferInstanceAs (Decidable (('#' ∉ userId.toList ∧ '?' ∉ userId.toList) ∧ (userId ≠ "." ∧ userId ≠ "..") ∧
    ¬ HasEscape userId.toList))

theorem matchParts_segment_iff {text : List Char} :
    matchParts text [.segment] = true ↔ text ≠ [] ∧ '/' ∉ text := by
  induction text with
  | nil => simp [matchParts]
  | cons c rest ih =>
      have hEnd : matchParts rest [] = true → '/' ∉ rest := by
        intro h
        cases rest with
        | nil => exact List.not_mem_nil
        | cons d rest =>
            simp only [matchParts, Bool.and_eq_true, beq_iff_eq, List.isEmpty_iff] at h
            rw [h.1, h.2]
            decide
      have hEmpty : rest = [] → matchParts rest [] = true := by
        rintro rfl
        rfl
      simp only [matchParts, Bool.and_eq_true, Bool.or_eq_true, bne_iff_ne, ne_eq, ih, List.mem_cons, not_or,
        reduceCtorEq, not_false_eq_true, true_and]
      constructor
      · rintro ⟨hc, hRest⟩
        exact ⟨Ne.symm hc, hRest.elim hEnd And.right⟩
      · rintro ⟨hc, hRest⟩
        refine ⟨Ne.symm hc, ?_⟩
        by_cases hNil : rest = []
        · exact Or.inl (hEmpty hNil)
        · exact Or.inr ⟨hNil, hRest⟩

theorem toList_userPath (userId : String) : (userPath userId).toList = "/v1/users/".toList ++ userId.toList := by
  rw [userPath, String.toList_append]

theorem matchParts_append (front text : List Char) (parts : List PatternPart) :
    matchParts (front ++ text) (front.map .char ++ parts) = matchParts text parts := by
  induction front with
  | nil => rfl
  | cons c front ih =>
      rw [List.cons_append, List.map_cons, List.cons_append, matchParts, ih]
      simp

theorem patternParts_user :
    patternParts "/v1/users/\x7buser_id\x7d" = "/v1/users/".toList.map .char ++ [.segment] := by
  decide

/-- The only rule for `GET` asks for an id of one segment. -/
theorem segment_of_access {registry : ErrorRegistry} {userId : String} {identity : Identity}
    (h : checkFunctionAccess registry "GET" (userPath userId) identity = .ok ()) :
    userId.toList ≠ [] ∧ '/' ∉ userId.toList := by
  unfold checkFunctionAccess at h
  split at h
  · cases h
  · next rule hRule =>
      have hMatch := List.find?_some hRule
      have hListed := List.mem_of_find?_eq_some hRule
      rw [Bool.and_eq_true, beq_iff_eq] at hMatch
      simp only [routeWhitelist, List.mem_cons, List.not_mem_nil, or_false] at hListed
      rcases hListed with rfl | rfl
      · exact absurd hMatch.1 (by decide)
      · have hParts := hMatch.2
        rw [matchPath, toList_userPath, patternParts_user, matchParts_append] at hParts
        exact matchParts_segment_iff.mp hParts

theorem AcceptedGet.segment {registry : ErrorRegistry} {devToken userId path : String} {request : HttpRequest}
    (h : AcceptedGet registry devToken request userId path) :
    path = userPath userId ∧ userId.toList ≠ [] ∧ '/' ∉ userId.toList := by
  have hAnswered := h.answered
  unfold gatewayGetUser at hAnswered
  split at hAnswered
  · cases hAnswered
  · split at hAnswered
    · cases hAnswered
    · next hAccess =>
        cases hAnswered
        exact ⟨rfl, segment_of_access hAccess⟩

theorem upstreamUrl_origin (origin : Origin) (userId : String) :
    (upstreamUrl origin.url (userPath userId)).toList =
      origin.scheme ++ ':' :: '/' :: '/' :: (origin.authority ++ (userPath userId).toList) := by
  have hStripped : origin.url.toList.rdropWhile (fun c => c = '/') =
      origin.scheme ++ ':' :: '/' :: '/' :: origin.authority := by
    rw [Origin.url, String.toList_ofList]
    induction origin.slashes with
    | zero =>
        rw [List.replicate_zero, List.append_nil, List.rdropWhile_eq_self_iff]
        intro _ hLast
        have hSlash : origin.authority.getLast origin.authority_nonempty = '/' := by
          simpa [origin.authority_nonempty] using hLast
        exact origin.authority_plain '/' (hSlash ▸ List.getLast_mem _) List.mem_cons_self
    | succ slashes ih =>
        rw [List.replicate_succ', ← List.append_assoc, List.rdropWhile_concat_pos _ _ _ (by simp), ih]
  rw [upstreamUrl, String.toList_append, String.toList_append, String.toList_ofList, String.toList_ofList,
    hStripped, toList_userPath]
  simp

/-- An id of one segment is the last segment of its path. -/
theorem hasDotSegment_userPath_iff {userId : String} (h : '/' ∉ userId.toList) :
    HasDotSegment (userPath userId).toList ↔ userId = "." ∨ userId = ".." := by
  have hSegments : (userPath userId).toList.splitOn '/' = [[], "v1".toList, "users".toList, userId.toList] := by
    rw [toList_userPath]
    show ([] ++ '/' :: ("v1".toList ++ '/' :: ("users".toList ++ '/' :: userId.toList))).splitOn '/' = _
    rw [List.splitOn_append_cons_self_of_not_mem List.not_mem_nil,
      List.splitOn_append_cons_self_of_not_mem (by decide), List.splitOn_append_cons_self_of_not_mem (by decide),
      List.splitOn_eq_singleton h]
  have hId : ∀ text : String, text.toList = userId.toList ↔ userId = text := fun text =>
    String.toList_inj.trans eq_comm
  rw [HasDotSegment, hSegments, ← hId ".", ← hId ".."]
  simp

/-- The path that is asked for is the path that was approved exactly when the id
means nothing in a URL. -/
theorem forwarded_path_iff (registry : ErrorRegistry) (devToken : String) (request : HttpRequest)
    (userId path : String) (dots : DotRemoval) (decoder : ByteDecoder) (origin : Origin)
    (hAccepted : AcceptedGet registry devToken request userId path) :
    forwardedPath dots decoder origin path = path.toList ↔ PlainId userId := by
  obtain ⟨rfl, hNonempty, hSlash⟩ := hAccepted.segment
  have hUrl : urlPath (upstreamUrl origin.url (userPath userId)).toList = beforeQuery (userPath userId).toList := by
    rw [upstreamUrl_origin, toList_userPath]
    exact urlPath_append origin.scheme_plain origin.authority_plain
  rw [forwardedPath, servedPath_eq_iff hUrl, hasDotSegment_userPath_iff hSlash, toList_userPath,
    hasEscape_append_iff (by decide), not_or]
  have hMark : ∀ mark, mark ∉ "/v1/users/".toList → (mark ∉ "/v1/users/".toList ++ userId.toList ↔
      mark ∉ userId.toList) := by
    intro mark hFront
    rw [List.mem_append, or_iff_right hFront]
  rw [hMark '#' (by decide), hMark '?' (by decide)]
  rfl

/-- A request for a user with a valid token. -/
def getUser (userId : String) : HttpRequest where
  method := "GET"
  path := userPath userId
  headers := [("authorization", "Bearer dev-token")]
  body := []
  uuid := "u-1"
  traceId := "t-1"

/-- Bytes below 128 are characters. -/
def ascii : ByteDecoder where
  decode := fun bytes => bytes.map fun byte => if byte < 128 then Char.ofNat byte.toNat else '\ufffd'
  length_le := fun _ => (List.length_map _).le

def templateOrigin : Origin where
  scheme := "http".toList
  authority := "service-template:8100".toList
  slashes := 0
  scheme_plain := by decide
  authority_plain := by decide
  authority_nonempty := by decide

theorem accepted_getUser {userId : String}
    (h : checkFunctionAccess [] "GET" (userPath userId) ⟨"dev-user", ["user", "admin"], some "dev-tenant"⟩ = .ok ()) :
    AcceptedGet [] "dev-token" (getUser userId) userId (userPath userId) := by
  have hToken : verifyToken [] "dev-token" ((getUser userId).header "authorization") =
      .ok ⟨"dev-user", ["user", "admin"], some "dev-tenant"⟩ := rfl
  refine ⟨rfl, rfl, ?_, by simp only [gatewayGetUser, hToken, h]⟩
  have hPrefix : "/v1/".toList.isPrefixOf (userPath userId).toList = true := by
    rw [toList_userPath]
    rfl
  show (if "/v1/".toList.isPrefixOf (userPath userId).toList then _ else none) = none
  rw [if_pos hPrefix, hToken]
  show (match checkFunctionAccess [] "GET" (userPath userId) _ with
    | .error error => some error
    | .ok () => none) = none
  rw [h]

/-- A plain id is served under the path that was approved. -/
theorem forwarded_path_iff_plain :
    forwardedPath segmentwise ascii templateOrigin "/v1/users/u-1" = "/v1/users/u-1".toList :=
  (forwarded_path_iff [] "dev-token" (getUser "u-1") "u-1" "/v1/users/u-1" segmentwise ascii templateOrigin
    (accepted_getUser rfl)).mpr (by decide)

/-- An id with an escaped slash is approved as one segment and served as two. -/
theorem slash_smuggled :
    AcceptedGet [] "dev-token" (getUser "a%2Fb") "a%2Fb" "/v1/users/a%2Fb" ∧
      forwardedPath segmentwise ascii templateOrigin "/v1/users/a%2Fb" = "/v1/users/a/b".toList ∧
      forwardedPath segmentwise ascii templateOrigin "/v1/users/a%2Fb" ≠ "/v1/users/a%2Fb".toList := by
  refine ⟨accepted_getUser rfl, ?_, ?_⟩
  · decide
  · decide

end ServicePlatform.Gateway
