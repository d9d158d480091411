import ServicePlatform.Kernel.ReplayFidelity
import ServicePlatform.Transition.Run

/-! Whose responses a request can be answered with. The key of the store joins
the path and the client's key with a colon that both may contain, so that a
piece of text between two colons belongs to either of them. -/
namespace ServicePlatform

/-- Two texts that are joined by a separator come from the same pair, or a
piece with a separator at its end moves from one side to the other. -/
theorem append_separator_eq_iff {α : Type*} {c : α} {front front' back back' : List α} :
    front ++ c :: back = front' ++ c :: back' ↔ (front = front' ∧ back = back') ∨
      (∃ piece, front = front' ++ c :: piece ∧ back' = piece ++ c :: back) ∨
        ∃ piece, front' = front ++ c :: piece ∧ back = piece ++ c :: back' := by
  rw [List.append_eq_append_iff]
  constructor
  · rintro (⟨rest, rfl, hBack⟩ | ⟨rest, rfl, hBack⟩)
    · cases rest with
      | nil =>
          left
          simpa using hBack
      | cons d piece =>
          obtain ⟨rfl, hPiece⟩ := List.cons.inj hBack
          exact Or.inr (Or.inr ⟨piece, rfl, hPiece⟩)
    · cases rest with
      | nil =>
          left
          simpa [eq_comm] using hBack
      | cons d piece =>
          obtain ⟨rfl, hPiece⟩ := List.cons.inj hBack
          exact Or.inr (Or.inl ⟨piece, rfl, hPiece⟩)
  · rintro (⟨rfl, rfl⟩ | ⟨piece, rfl, rfl⟩ | ⟨piece, rfl, rfl⟩)
    · exact Or.inl ⟨[], by simp⟩
    · exact Or.inr ⟨c :: piece, by simp⟩
    · exact Or.inl ⟨c :: piece, by simp⟩

/-- The guarded methods are told apart by their first letters. -/
theorem append_method_eq_iff {method method' : String} (h : method ∈ idempotentMethods)
    (h' : method' ∈ idempotentMethods) {rest rest' : List Char} :
    method.toList ++ ':' :: rest = method'.toList ++ ':' :: rest' ↔ method = method' ∧ rest = rest' := by
  simp only [idempotentMethods, List.mem_cons, List.not_mem_nil, or_false] at h h'
  rcases h with rfl | rfl | rfl <;> rcases h' with rfl | rfl | rfl <;> simp

/-- A piece of text with a colon belongs to the key in one pair of path and
key, and to the path in the other. -/
def Shifted (path key path' key' : String) : Prop :=
  ∃ piece, path' = path ++ ":" ++ piece ∧ key = piece ++ ":" ++ key'

theorem toList_joined (front back : String) : (front ++ ":" ++ back).toList = front.toList ++ ':' :: back.toList := by
  rw [String.toList_append, String.toList_append, List.append_assoc]
  rfl

theorem shifted_iff {path key path' key' : String} : Shifted path key path' key' ↔
    ∃ piece, path'.toList = path.toList ++ ':' :: piece ∧ key.toList = piece ++ ':' :: key'.toList := by
  constructor
  · rintro ⟨piece, rfl, rfl⟩
    exact ⟨piece.toList, toList_joined _ _, toList_joined _ _⟩
  · rintro ⟨piece, hPath, hKey⟩
    refine ⟨String.ofList piece, ?_, ?_⟩
    · rw [← String.toList_inj, toList_joined, String.toList_ofList, hPath]
    · rw [← String.toList_inj, toList_joined, String.toList_ofList, hKey]

theorem toList_makeIdempotencyKey (service method path key : String) :
    (makeIdempotencyKey service method path key).toList =
      "idem:".toList ++ service.toList ++ ":".toList ++ (method.toList ++ ':' :: (path.toList ++ ':' :: key.toList)) := by
  unfold makeIdempotencyKey
  rw [toList_joined, String.toList_append, String.toList_append, String.toList_append, String.toList_append,
    String.toList_append]
  simp only [List.append_assoc]
  rfl

theorem makeIdempotencyKey_eq_iff (service : String) {method method' path path' key key' : String}
    (h : method ∈ idempotentMethods) (h' : method' ∈ idempotentMethods) :
    makeIdempotencyKey service method path key = makeIdempotencyKey service method' path' key' ↔
      method = method' ∧ (path = path' ∧ key = key' ∨ Shifted path key path' key' ∨ Shifted path' key' path key) := by
  rw [← String.toList_inj, toList_makeIdempotencyKey, toList_makeIdempotencyKey, List.append_cancel_left_eq,
    append_method_eq_iff h h', append_separator_eq_iff, String.toList_inj, String.toList_inj, shifted_iff,
    shifted_iff]
  constructor
  · rintro ⟨hMethod, hSame | hLonger | hShorter⟩
    · exact ⟨hMethod, Or.inl hSame⟩
    · exact ⟨hMethod, Or.inr (Or.inr hLonger)⟩
    · exact ⟨hMethod, Or.inr (Or.inl hShorter)⟩
  · rintro ⟨hMethod, hSame | hShorter | hLonger⟩
    · exact ⟨hMethod, Or.inl hSame⟩
    · exact ⟨hMethod, Or.inr (Or.inr hShorter)⟩
    · exact ⟨hMethod, Or.inr (Or.inl hLonger)⟩

/-- The two requests are one operation. -/
def HttpRequest.SameOperation (q r : HttpRequest) : Prop :=
  q.method = r.method ∧ q.path = r.path ∧ q.header "idempotency-key" = r.header "idempotency-key"

namespace IdempotencyMiddleware

open Transition

variable {m : IdempotencyMiddleware} {events : List Event}

/-- An earlier request was the same operation. -/
def Asked (before : List Event) (r : HttpRequest) : Prop :=
  ∃ q inner, .request q inner ∈ before ∧ q.SameOperation r

/-- A request is answered from the store only when it was asked before. -/
def AnswersRepeat (m : IdempotencyMiddleware) (before : List Event) : Event → Prop
  | .request r inner => (m.call (m.after before) r inner).called = false → Asked before r
  | .expire _ => True

/-- A response is stored for another operation with the same method, from which
a piece of text with a colon is shifted between path and key. -/
def StoredShifted (m : IdempotencyMiddleware) (before : List Event) (r : HttpRequest) : Prop :=
  ∃ earlier q inner rest key key', before = earlier ++ .request q inner :: rest ∧ q.Guarded key ∧ r.Guarded key' ∧
    q.method = r.method ∧ (Shifted q.path key r.path key' ∨ Shifted r.path key' q.path key) ∧
      inner.Completed ∧ .expire (makeIdempotencyKey m.service q.method q.path key) ∉ rest

/-- What is stored under another path and key finds only those who asked for
their own before. -/
def NoneShifted (m : IdempotencyMiddleware) (before : List Event) : Event → Prop
  | .request r _ => m.StoredShifted before r → Asked before r
  | .expire _ => True

theorem not_called_iff {before : List Event} {r : HttpRequest} {key : String} (hGuarded : r.Guarded key)
    (inner : Exchange) : (m.call (m.after before) r inner).called = false ↔
      m.Held (makeIdempotencyKey m.service r.method r.path key) before := by
  rw [← stored_iff, ← Bool.not_eq_true, called_iff, hGuarded.storeKey m.service]
  simp

theorem held_of_storedShifted {before : List Event} {r : HttpRequest} {key : String} (hGuarded : r.Guarded key)
    (hShifted : m.StoredShifted before r) : m.Held (makeIdempotencyKey m.service r.method r.path key) before := by
  obtain ⟨earlier, q, inner, rest, keyOther, key', hSplit, hOther, hOwn, hMethod, hMoved, hCompleted, hLive⟩ := hShifted
  cases hGuarded.2.1.symm.trans hOwn.2.1
  have hSame := (makeIdempotencyKey_eq_iff m.service hOther.1 hGuarded.1).mpr ⟨hMethod, Or.inr hMoved⟩
  refine ⟨earlier, q, inner, rest, hSplit, ?_, hCompleted, ?_⟩
  · rw [hOther.storeKey, hSame]
  · rw [← hSame]
    exact hLive

/-- A stored response belongs to the operation, or to a shifted one. -/
theorem asked_or_shifted_of_held {before : List Event} {r : HttpRequest} {key : String}
    (hAll : ∀ q inner, .request q inner ∈ before → ∃ key, q.Guarded key) (hGuarded : r.Guarded key)
    (hHeld : m.Held (makeIdempotencyKey m.service r.method r.path key) before) :
    Asked before r ∨ m.StoredShifted before r := by
  obtain ⟨earlier, q, inner, rest, hSplit, hStoreKey, hCompleted, hLive⟩ := hHeld
  have hMem : .request q inner ∈ before := by simp [hSplit]
  obtain ⟨keyOther, hOther⟩ := hAll q inner hMem
  rw [hOther.storeKey, Option.some.injEq] at hStoreKey
  obtain ⟨hMethod, ⟨hPath, rfl⟩ | hMoved⟩ := (makeIdempotencyKey_eq_iff m.service hOther.1 hGuarded.1).mp hStoreKey
  · exact Or.inl ⟨q, inner, hMem, hMethod, hPath, hOther.2.1.trans hGuarded.2.1.symm⟩
  · rw [← hStoreKey] at hLive
    exact Or.inr ⟨earlier, q, inner, rest, keyOther, key, hSplit, hOther, hGuarded, hMethod, hMoved, hCompleted, hLive⟩

/-- Only the same operation is replayed, in exactly the sequences in which no
response that is stored for a shifted path and key finds a new operation. -/
theorem only_repeats_iff (hAll : ∀ q inner, .request q inner ∈ events → ∃ key, q.Guarded key) :
    Scheduled m.AnswersRepeat events ↔ Scheduled m.NoneShifted events := by
  have hPoint : ∀ before event after, events = before ++ event :: after →
      (m.AnswersRepeat before event ↔ m.NoneShifted before event) := by
    rintro before event after rfl
    cases event with
    | expire key => exact Iff.rfl
    | request r inner =>
        obtain ⟨key, hGuarded⟩ := hAll r inner (by simp)
        have hEarlier : ∀ q inner, .request q inner ∈ before → ∃ key, q.Guarded key := fun q inner hMem =>
          hAll q inner (List.mem_append_left _ hMem)
        show ((m.call (m.after before) r inner).called = false → Asked before r) ↔
          (m.StoredShifted before r → Asked before r)
        rw [not_called_iff hGuarded]
        constructor
        · intro hAnswers hShifted
          exact hAnswers (held_of_storedShifted hGuarded hShifted)
        · intro hNone hHeld
          rcases asked_or_shifted_of_held hEarlier hGuarded hHeld with hAsked | hShifted
          · exact hAsked
          · exact hNone hShifted
  constructor
  · intro hAnswers before event after hSplit
    exact (hPoint before event after hSplit).mp (hAnswers before event after hSplit)
  · intro hNone before event after hSplit
    exact (hPoint before event after hSplit).mpr (hNone before event after hSplit)

/-- One operation twice, of which the second is answered from the store. -/
theorem only_repeats_iff_twice :
    Scheduled jsonMiddleware.AnswersRepeat
      ([] ++ [.request keyedPost ⟨emptyObject.messages, false⟩] ++ [.request keyedPost ⟨[], false⟩]) := by
  have hGuarded : keyedPost.Guarded "k-1" := ⟨by decide, by decide, by decide⟩
  refine (only_repeats_iff ?_).mpr ?_
  · intro q inner hMem
    simp only [List.nil_append, List.singleton_append, List.mem_cons, List.not_mem_nil, or_false,
      Event.request.injEq] at hMem
    rcases hMem with ⟨rfl, -⟩ | ⟨rfl, -⟩
    · exact ⟨"k-1", hGuarded⟩
    · exact ⟨"k-1", hGuarded⟩
  · rw [scheduled_concat, scheduled_concat]
    refine ⟨⟨scheduled_nil _, ?_⟩, ?_⟩
    · rintro ⟨earlier, q, inner, rest, key, key', hSplit, -⟩
      simp at hSplit
    · intro hShifted
      exact ⟨keyedPost, ⟨emptyObject.messages, false⟩, by simp, rfl, rfl, rfl⟩

/-- A request whose key goes on with a colon, and the one that is shifted. -/
def keyedWithColon : HttpRequest := { keyedPost with headers := [("idempotency-key", "1:k-1")] }

def pathWithColon : HttpRequest := { keyedPost with path := "/users:1" }

/-- A request to another path with another key is answered from the store. -/
theorem shifted_answered_from_store :
    (∀ q inner, .request q inner ∈ ([.request keyedWithColon ⟨emptyObject.messages, false⟩,
        .request pathWithColon ⟨[], false⟩] : List Event) → ∃ key, q.Guarded key) ∧
      ¬ Scheduled jsonMiddleware.AnswersRepeat [.request keyedWithColon ⟨emptyObject.messages, false⟩,
        .request pathWithColon ⟨[], false⟩] := by
  constructor
  · intro q inner hMem
    simp only [List.mem_cons, List.not_mem_nil, or_false, Event.request.injEq] at hMem
    rcases hMem with ⟨rfl, -⟩ | ⟨rfl, -⟩
    · exact ⟨"1:k-1", by decide, by decide, by decide⟩
    · exact ⟨"k-1", by decide, by decide, by decide⟩
  · intro hAnswers
    have hLast := hAnswers [.request keyedWithColon ⟨emptyObject.messages, false⟩]
      (.request pathWithColon ⟨[], false⟩) [] rfl
    obtain ⟨q, inner, hMem, -, hPath, -⟩ := hLast (by rfl)
    simp only [List.mem_singleton, Event.request.injEq] at hMem
    rw [hMem.1] at hPath
    revert hPath
    decide

end IdempotencyMiddleware

end ServicePlatform
