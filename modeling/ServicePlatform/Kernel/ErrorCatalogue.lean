import Mathlib.Data.List.Sort
import Mathlib.Data.Prod.Lex
import Mathlib.Data.String.Basic
import ServicePlatform.Kernel.ServiceApp
import ServicePlatform.Storage.Dict

/-! The catalogue of error codes that `/errors` publishes. It lists what was
registered first for each code, in an order of its own, and describes every error
response whose code is registered. -/
namespace ServicePlatform

open Storage

/-- `register_error_code`. -/
def registerErrorCode (codes : Dict String ErrorCode) (ec : ErrorCode) : Dict String ErrorCode :=
  codes.setDefault ec.code ec

/-- `_REGISTRY`, after the built-in codes and those of a service. -/
def registeredCodes (registry : ErrorRegistry) : Dict String ErrorCode :=
  (ErrorCode.builtin ++ registry).foldl registerErrorCode []

/-- The key by which the catalogue is sorted. -/
def ErrorCode.sortKey (ec : ErrorCode) : Nat ×ₗ String := toLex (ec.httpStatus, ec.code)

/-- `all_error_codes`. -/
def allErrorCodes (codes : Dict String ErrorCode) : List ErrorCode :=
  (codes.map Prod.snd).mergeSort fun ec other => ec.sortKey ≤ other.sortKey

section Registration

variable {registry other : ErrorRegistry} {code : String} {ec : ErrorCode}

/-- Each code has the entry that was registered first. -/
theorem get?_foldl_register (codes : Dict String ErrorCode) (calls : List ErrorCode) :
    (calls.foldl registerErrorCode codes).get? code = (codes.get? code).or (calls.find? fun ec => ec.code = code) := by
  induction calls generalizing codes with
  | nil => exact (Option.or_none ..).symm
  | cons ec calls ih =>
      rw [List.foldl_cons, ih, registerErrorCode, Dict.get?_setDefault, Option.or_assoc]
      congr 1
      by_cases hCode : ec.code = code
      · rw [if_pos hCode, List.find?_cons_of_pos (by simpa using hCode)]
        rfl
      · rw [if_neg hCode, List.find?_cons_of_neg (by simpa using hCode)]
        rfl

/-- The dictionary answers like the list of registrations. -/
theorem get?_registeredCodes : (registeredCodes registry).get? code = getErrorCode registry code := by
  rw [registeredCodes, get?_foldl_register]
  rfl

theorem nodup_registeredCodes : ((registeredCodes registry).map Prod.fst).Nodup := by
  have hFrom : ∀ (calls : List ErrorCode) (codes : Dict String ErrorCode), (codes.map Prod.fst).Nodup →
      ((calls.foldl registerErrorCode codes).map Prod.fst).Nodup := by
    intro calls
    induction calls with
    | nil => exact fun _ h => h
    | cons ec calls ih => exact fun codes h => ih _ (Dict.nodup_setDefault h)
  exact hFrom _ [] List.nodup_nil

theorem mem_allErrorCodes :
    ec ∈ allErrorCodes (registeredCodes registry) ↔ getErrorCode registry ec.code = some ec := by
  rw [allErrorCodes, List.mem_mergeSort, List.mem_map]
  constructor
  · rintro ⟨entry, hEntry, rfl⟩
    have hFound : getErrorCode registry entry.1 = some entry.2 := by
      rw [← get?_registeredCodes]
      exact Dict.get?_of_mem nodup_registeredCodes hEntry
    rw [getErrorCode_code hFound, hFound]
  · intro h
    rw [← get?_registeredCodes] at h
    exact ⟨(ec.code, ec), Dict.mem_of_get? h, rfl⟩

/-- Each code stands in the catalogue once. -/
theorem nodup_codes : ((allErrorCodes (registeredCodes registry)).map ErrorCode.code).Nodup := by
  have hCodes : (registeredCodes registry).map (fun entry => entry.2.code) =
      (registeredCodes registry).map Prod.fst := by
    refine List.map_congr_left fun entry hEntry => ?_
    have hFound := Dict.get?_of_mem nodup_registeredCodes hEntry
    rw [get?_registeredCodes] at hFound
    exact getErrorCode_code hFound
  have hNodup : (((registeredCodes registry).map Prod.snd).map ErrorCode.code).Nodup := by
    rw [List.map_map]
    exact hCodes ▸ nodup_registeredCodes
  exact ((List.mergeSort_perm _ _).map _).nodup_iff.mpr hNodup

theorem sorted_allErrorCodes :
    (allErrorCodes (registeredCodes registry)).Pairwise fun ec other => ec.sortKey < other.sortKey := by
  have hSorted : (allErrorCodes (registeredCodes registry)).Pairwise fun ec other => ec.sortKey ≤ other.sortKey := by
    refine (List.pairwise_mergeSort ?_ ?_ _).imp fun h => of_decide_eq_true h
    · intro a b c hab hbc
      exact decide_eq_true ((of_decide_eq_true hab).trans (of_decide_eq_true hbc))
    · intro a b
      simpa using le_total a.sortKey b.sortKey
  have hDistinct := List.pairwise_map.mp (@nodup_codes registry)
  refine (hSorted.and hDistinct).imp fun h => lt_of_le_of_ne h.1 fun hSame => h.2 ?_
  exact congrArg (fun key => (ofLex key).2) hSame

/-- The catalogue depends only on what is registered under each code. -/
theorem allErrorCodes_congr (h : ∀ code, getErrorCode registry code = getErrorCode other code) :
    allErrorCodes (registeredCodes registry) = allErrorCodes (registeredCodes other) := by
  refine sorted_allErrorCodes.eq_of_mem_iff sorted_allErrorCodes fun ec => ?_
  rw [mem_allErrorCodes, mem_allErrorCodes, h]

/-- Registrations of different codes may be made in any order. -/
theorem getErrorCode_perm (hPerm : registry.Perm other) (hDistinct : (registry.map ErrorCode.code).Nodup)
    (code : String) : getErrorCode registry code = getErrorCode other code := by
  have hFind : registry.find? (fun ec => ec.code = code) = other.find? fun ec => ec.code = code := by
    refine List.find?_eq_find?_of_perm hPerm ?_
    rintro ec ⟨hEc, hCode⟩ ec' ⟨hEc', hCode'⟩
    exact List.inj_on_of_nodup_map hDistinct hEc hEc'
      ((of_decide_eq_true hCode).trans (of_decide_eq_true hCode').symm)
  rw [getErrorCode, getErrorCode, List.find?_append, List.find?_append, hFind]

end Registration

/-- The response has the code and the status of an entry. -/
def Described (codes : List ErrorCode) (response : HttpResponse) : Prop :=
  ∃ ec ∈ codes, response.status = ec.httpStatus ∧ Headers.first response.headers "x-error-code" = some ec.code

variable {registry : ErrorRegistry}

theorem described_problemResponse_iff {codec : JsonCodec} {request : HttpRequest} {traceId : String} {ec : ErrorCode}
    {detail : Option String} {errors : Option PyValue} {retryAfter : Option Nat} {response : HttpResponse}
    (h : problemResponse codec request traceId ec detail errors retryAfter = some response) :
    Described (allErrorCodes (registeredCodes registry)) response ↔
      ∃ known, getErrorCode registry ec.code = some known ∧ known.httpStatus = ec.httpStatus := by
  obtain ⟨-, path, body, -, -, rfl⟩ := problemResponse_eq_some.mp h
  have hFirst : Headers.first (bodyResponse ec.httpStatus [("x-error-code", ec.code)] "application/problem+json"
      body).headers "x-error-code" = some ec.code := by
    have hName : lowerName "x-error-code" = "x-error-code" := by decide
    simp [bodyResponse, Headers.first, hName]
  unfold Described
  rw [hFirst]
  constructor
  · rintro ⟨known, hKnown, hStatus, hCode⟩
    rw [Option.some_inj.mp hCode]
    exact ⟨known, mem_allErrorCodes.mp hKnown, hStatus.symm⟩
  · rintro ⟨known, hKnown, hStatus⟩
    have hCode := getErrorCode_code hKnown
    exact ⟨known, mem_allErrorCodes.mpr (hCode ▸ hKnown), hStatus.symm, congrArg some hCode.symm⟩

/-- For every sequence of registrations: the catalogue is strictly sorted by
status and code, has for each code the entry that was registered first, and does
not depend on the order in which different codes were registered; and the response
of an exception handler is described by it if and only if the exception is no
`AppError` of an unregistered code. -/
theorem catalogue_exact (app : ServiceApp) :
    ((allErrorCodes (registeredCodes app.registry)).Pairwise fun ec other => ec.sortKey < other.sortKey) ∧
    ((allErrorCodes (registeredCodes app.registry)).map ErrorCode.code).Nodup ∧
    (∀ ec, ec ∈ allErrorCodes (registeredCodes app.registry) ↔ getErrorCode app.registry ec.code = some ec) ∧
    (∀ other, app.registry.Perm other → (app.registry.map ErrorCode.code).Nodup →
      allErrorCodes (registeredCodes app.registry) = allErrorCodes (registeredCodes other)) ∧
    ∀ request ending response, app.handler request ending = some response →
      (Described (allErrorCodes (registeredCodes app.registry)) response ↔
        ∀ error, ending = .raisedApp error → getErrorCode app.registry error.errorCode ≠ none) := by
  have hBuiltin : ∀ ec ∈ ErrorCode.builtin, ∃ known, getErrorCode app.registry ec.code = some known ∧
      known.httpStatus = ec.httpStatus := fun ec h => ⟨ec, getErrorCode_builtin app.registry h, rfl⟩
  refine ⟨sorted_allErrorCodes, nodup_codes, fun ec => mem_allErrorCodes,
    fun other hPerm hDistinct => allErrorCodes_congr (getErrorCode_perm hPerm hDistinct), ?_⟩
  intro request ending response hResponse
  cases ending with
  | returned => cases hResponse
  | raised => cases hResponse
  | raisedHttp status detail =>
      exact iff_of_true ((described_problemResponse_iff hResponse).mpr (hBuiltin _ (lookupHttpError_builtin status)))
        nofun
  | raisedValidation errors =>
      exact iff_of_true ((described_problemResponse_iff hResponse).mpr (hBuiltin .validationError (by decide))) nofun
  | raisedApp error =>
      rw [described_problemResponse_iff hResponse, AppError.entry_code]
      cases hCode : getErrorCode app.registry error.errorCode with
      | none =>
          refine iff_of_false ?_ fun h => h error rfl hCode
          rintro ⟨known, hKnown, -⟩
          cases hKnown
      | some ec =>
          refine iff_of_true ⟨ec, rfl, ?_⟩ fun other hOther => ?_
          · rw [AppError.entry, hCode, Option.getD_some]
          · cases hOther
            simp [hCode]

/-- A service registers a code of its own and one that is built in. -/
def sampleCatalogueApp : ServiceApp where
  codec := emptyObjectCodec
  registry := [⟨"USER_NOT_FOUND", 404, "User Not Found", "用户不存在", "warning", false⟩, .conflict]
  service := "service-template"

/-- The order of the two registrations does not matter, and a response with an
unknown code is not described. -/
theorem catalogue_exact_sample :
    allErrorCodes (registeredCodes sampleCatalogueApp.registry) =
      allErrorCodes (registeredCodes sampleCatalogueApp.registry.reverse) ∧
    ∀ request response,
      sampleCatalogueApp.handler request (.raisedApp ⟨"TEAPOT", 418, "Teapot", "", none, none⟩) = some response →
        ¬ Described (allErrorCodes (registeredCodes sampleCatalogueApp.registry)) response := by
  refine ⟨(catalogue_exact sampleCatalogueApp).2.2.2.1 _ (List.reverse_perm _).symm (by decide), ?_⟩
  intro request response hResponse hDescribed
  exact ((catalogue_exact sampleCatalogueApp).2.2.2.2 _ _ _ hResponse).mp hDescribed _ rfl (by decide)

end ServicePlatform
