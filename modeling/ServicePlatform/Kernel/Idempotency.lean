import Mathlib.Algebra.Group.Nat.Defs
import Mathlib.Algebra.Ring.Int.Defs
import ServicePlatform.Http.Message
import ServicePlatform.Contract.JsonColumn
import ServicePlatform.Kernel.IdempotencyStore

/-! The HTTP idempotency middleware: which requests it guards, the key it
stores a response under, what it keeps of a response while the application
sends it, and the response it builds from a stored one. -/
namespace ServicePlatform

/-- A dictionary of texts and of integers of 64 bits, under names. -/
def PyValue.Flat (items : List (PyKey × PyValue)) : Prop :=
  (items.map Prod.fst).Nodup ∧ ∀ item ∈ items, (∃ name, item.1 = .str name) ∧
    ((∃ text, item.2 = .str text) ∨ ∃ n : Int, item.2 = .int n ∧ -2 ^ 63 ≤ n ∧ n < 2 ^ 63)

/-- The JSON module and the text codec, as far as a body meets them. Writing a
value raises where it is not JSON (`NaN` is not). A flat dictionary is written,
and what is read back of it is written in the same way. -/
structure JsonCodec where
  dumps : PyValue → Option Bytes
  loads : String → Option PyValue
  decode : Bytes → String
  dumps_flat : ∀ items, PyValue.Flat items → ∃ body content,
    dumps (.dict items) = some body ∧ loads (decode body) = some content ∧ dumps content = some body

/-- The JSON module on the one document `{}`. -/
def emptyObjectCodec : JsonCodec where
  dumps := fun _ => some [123, 125]
  loads := fun text => if text = "{}" then some (.dict []) else none
  decode := fun body => if body = [123, 125] then "{}" else ""
  dumps_flat := fun _ _ => ⟨[123, 125], .dict [], rfl, rfl, rfl⟩

/-- A text that a header value can hold. -/
def Latin1 (text : String) : Prop := ∀ c ∈ text.toList, c.toNat < 256

instance (text : String) : Decidable (Latin1 text) := List.decidableBAll (fun c : Char => c.toNat < 256) text.toList

/-- The JSON object the middleware stores. -/
structure CachedResponse where
  status : Nat
  body : String
  contentType : String
  deriving DecidableEq

def idempotentMethods : List String := ["POST", "PUT", "PATCH"]

def makeIdempotencyKey (service method path key : String) : String :=
  "idem:" ++ service ++ ":" ++ method ++ ":" ++ path ++ ":" ++ key

/-- Requests to one path with one key are told apart by their method. -/
theorem makeIdempotencyKey_method {service method method' path key : String}
    (h : makeIdempotencyKey service method path key = makeIdempotencyKey service method' path key) :
    method = method' := by
  have hList := congrArg String.toList h
  simp only [makeIdempotencyKey, String.toList_append, List.append_assoc, List.append_cancel_left_eq]
    at hList
  exact String.toList_injective (List.append_cancel_right hList)

/-- The key of a guarded request. A request without an `Idempotency-Key`, or
with another method, is passed through. -/
def HttpRequest.storeKey (service : String) (request : HttpRequest) : Option String :=
  if request.method ∈ idempotentMethods then
    match request.header "idempotency-key" with
    | some key => if key = "" then none else some (makeIdempotencyKey service request.method request.path key)
    | none => none
  else none

/-- `_content_type`. -/
def contentType (headers : Headers) : String :=
  (Headers.first headers "content-type").getD "application/json"

/-- A message the application sends. -/
inductive AppMessage where
  | start (status : Nat) (headers : Headers)
  | body (chunk : Bytes) (moreBody : Bool)

/-- `status_holder` and `body_holder`. -/
structure Collected where
  started : Option (Nat × Headers)
  body : Bytes
  deriving DecidableEq

namespace Collected

def empty : Collected := ⟨none, []⟩

def receive (collected : Collected) : AppMessage → Collected
  | .start status headers => { collected with started := some (status, headers) }
  | .body chunk _ => { collected with body := collected.body ++ chunk }

/-- What is stored when the last body message arrives. -/
def entry (codec : JsonCodec) (collected : Collected) : CachedResponse where
  status := (collected.started.map Prod.fst).getD 200
  body := codec.decode collected.body
  contentType := contentType ((collected.started.map Prod.snd).getD [])

end Collected

/-- The `content-type` a response class writes for its media type: text types
get a charset unless they name one. -/
def mediaTypeHeader (mediaType : String) : String :=
  if "text/".toList.isPrefixOf mediaType.toList &&
      !(lowerName mediaType).toList.tails.any "charset=".toList.isPrefixOf then
    mediaType ++ "; charset=utf-8"
  else mediaType

/-- `Response` with a body: the given headers, its length where the status
allows a body, and its media type. -/
def bodyResponse (status : Nat) (headers : Headers) (mediaType : String) (body : Bytes) : HttpResponse where
  status := status
  headers := headers ++
    (if status < 200 ∨ status = 204 ∨ status = 304 then [] else [("content-length", toString body.length)]) ++
    [("content-type", mediaTypeHeader mediaType)]
  body := body

/-- `JSONResponse`, which raises for a document that is not JSON and for a given
header value outside latin-1. A media type comes from a header or is a constant. -/
def jsonResponse (codec : JsonCodec) (status : Nat) (content : PyValue) (headers : Headers)
    (mediaType : String) : Option HttpResponse :=
  (codec.dumps content).bind fun body =>
    if ∀ header ∈ headers, Latin1 header.2 then some (bodyResponse status headers mediaType body) else none

theorem jsonResponse_eq_some {codec : JsonCodec} {status : Nat} {content : PyValue} {headers : Headers}
    {mediaType : String} {response : HttpResponse} :
    jsonResponse codec status content headers mediaType = some response ↔
      (∀ header ∈ headers, Latin1 header.2) ∧
        ∃ body, codec.dumps content = some body ∧ bodyResponse status headers mediaType body = response := by
  unfold jsonResponse
  by_cases hLatin : ∀ header ∈ headers, Latin1 header.2
  · simp only [if_pos hLatin, Option.bind_eq_some_iff, Option.some.injEq, and_iff_right hLatin]
  · refine iff_of_false (fun hSome => ?_) (fun hBoth => hLatin hBoth.1)
    obtain ⟨body, -, hBody⟩ := Option.bind_eq_some_iff.mp hSome
    rw [if_neg hLatin] at hBody
    cases hBody

theorem bodyResponse_contentType (status : Nat) (mediaType : String) (body : Bytes) :
    Headers.first (bodyResponse status [] mediaType body).headers "content-type" =
      some (mediaTypeHeader mediaType) := by
  have hLength : lowerName "content-length" ≠ "content-type" := by decide
  have hType : lowerName "content-type" = "content-type" := by decide
  unfold Headers.first bodyResponse
  split <;> simp [hLength, hType]

theorem mem_bodyResponse_headers {status : Nat} {headers : Headers} {mediaType : String} {body : Bytes}
    {header : String × String} (h : header ∈ (bodyResponse status headers mediaType body).headers) :
    header ∈ headers ∨ header.1 = "content-length" ∨ header.1 = "content-type" := by
  simp only [bodyResponse, List.mem_append, List.mem_singleton] at h
  rcases h with (h | h) | rfl
  · exact Or.inl h
  · split at h
    · cases h
    · rw [List.mem_singleton.mp h]
      exact Or.inr (Or.inl rfl)
  · exact Or.inr (Or.inr rfl)

/-- `_json_response` of a stored response, whose body may be no JSON, or JSON
that is not written again. -/
def CachedResponse.replay (codec : JsonCodec) (cached : CachedResponse) : Option HttpResponse :=
  (codec.loads cached.body).bind fun content => jsonResponse codec cached.status content [] cached.contentType

theorem CachedResponse.replay_eq_some {codec : JsonCodec} {cached : CachedResponse} {response : HttpResponse} :
    cached.replay codec = some response ↔ ∃ content body, codec.loads cached.body = some content ∧
      codec.dumps content = some body ∧ bodyResponse cached.status [] cached.contentType body = response := by
  simp only [replay, Option.bind_eq_some_iff, jsonResponse_eq_some, List.not_mem_nil, IsEmpty.forall_iff,
    implies_true, true_and]
  constructor
  · rintro ⟨content, hLoads, body, hBody, hResponse⟩
    exact ⟨content, body, hLoads, hBody, hResponse⟩
  · rintro ⟨content, body, hLoads, hBody, hResponse⟩
    exact ⟨content, hLoads, body, hBody, hResponse⟩

theorem CachedResponse.replay_eq_none {codec : JsonCodec} {cached : CachedResponse} : cached.replay codec = none ↔
    ∀ content, codec.loads cached.body = some content → codec.dumps content = none := by
  rw [Option.eq_none_iff_forall_ne_some]
  constructor
  · intro hNever content hLoads
    rw [Option.eq_none_iff_forall_ne_some]
    exact fun body hBody => hNever _ (replay_eq_some.mpr ⟨content, body, hLoads, hBody, rfl⟩)
  · intro hNever response hReplay
    obtain ⟨content, body, hLoads, hBody, -⟩ := replay_eq_some.mp hReplay
    rw [hNever content hLoads] at hBody
    cases hBody

/-- What is stored of a response that the application completes. -/
def HttpResponse.cached (codec : JsonCodec) (response : HttpResponse) : CachedResponse :=
  Collected.entry codec ⟨some (response.status, response.headers), response.body⟩

theorem CachedResponse.replay_status {codec : JsonCodec} {cached : CachedResponse}
    {response : HttpResponse} (h : cached.replay codec = some response) :
    response.status = cached.status := by
  obtain ⟨content, body, -, -, rfl⟩ := replay_eq_some.mp h
  rfl

end ServicePlatform
