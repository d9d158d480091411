import Mathlib.Data.List.Forall2
import ServicePlatform.Kernel.Metrics

/-! The path labels of a route. The metric path replaces what looks like an
identifier at the beginning of a segment, so two requests of one route have the
same label only when the values of its parameters look alike. -/
namespace ServicePlatform

open Storage Text

/-- The text of a segment. -/
structure SegmentText where
  text : List Char
  no_slash : '/' ∉ text

/-- The value of a parameter in a path. -/
structure ParamValue extends SegmentText where
  nonempty : text ≠ []

inductive RouteSegment where
  | literal (segment : SegmentText)
  | param (name : String)

/-- The text of a segment in a path. -/
def RouteSegment.fill (values : String → ParamValue) : RouteSegment → SegmentText
  | literal segment => segment
  | param name => (values name).toSegmentText

/-- Each segment stands behind a slash. -/
def slashed (segments : List (List Char)) : List Char := segments.flatMap fun segment => '/' :: segment

/-- The path of a route with these values for its parameters. -/
def routePath (template : List RouteSegment) (values : String → ParamValue) : String :=
  String.ofList (slashed (template.map fun segment => (segment.fill values).text))

/-- The text begins like an identifier: with eight characters of one or more. -/
def IdLike (text : List Char) : Prop := 8 ≤ (text.takeWhile isIdChar).length

instance : DecidablePred IdLike := fun text => inferInstanceAs (Decidable (8 ≤ (text.takeWhile isIdChar).length))

/-- What stands behind the characters of an identifier. -/
def afterId (text : List Char) : List Char := text.dropWhile isIdChar

def idLabel : List Char := "\x7bid\x7d".toList

/-- Two segments that have the same label. -/
inductive Alike : List Char → List Char → Prop where
  | same (text : List Char) : Alike text text
  | ids {text other : List Char} (hText : IdLike text) (hOther : IdLike other) (hAfter : afterId text = afterId other) :
      Alike text other
  | label {text : List Char} (hText : IdLike text) : Alike text (idLabel ++ afterId text)
  | labelled {text : List Char} (hText : IdLike text) : Alike (idLabel ++ afterId text) text

/-- What the metric path has for a segment. -/
def segmentLabel (text : List Char) : List Char := if IdLike text then idLabel ++ afterId text else text

theorem alike_iff {text other : List Char} : Alike text other ↔ segmentLabel text = segmentLabel other := by
  have hLabel (after : List Char) : ¬ IdLike (idLabel ++ after) := by
    intro h
    have hNone : (idLabel ++ after).takeWhile isIdChar = [] := rfl
    rw [IdLike, hNone] at h
    exact absurd h (by decide)
  unfold segmentLabel
  constructor
  · intro h
    cases h with
    | same => rfl
    | ids hText hOther hAfter => rw [if_pos hText, if_pos hOther, hAfter]
    | label hText => rw [if_pos hText, if_neg (hLabel _)]
    | labelled hText => rw [if_pos hText, if_neg (hLabel _)]
  · intro h
    split at h
    · next hText =>
        split at h
        · next hOther => exact .ids hText hOther (List.append_cancel_left h)
        · exact h ▸ .label hText
    · split at h
      · next hOther => exact h ▸ .labelled hOther
      · exact h ▸ .same text

section Labels

variable {text rest : List Char}

theorem metricPathFrom_eq_drop (skipped : Nat) (text : List Char) :
    metricPathFrom skipped text = metricPathFrom 0 (text.drop skipped) := by
  induction text generalizing skipped with
  | nil => simp [metricPathFrom]
  | cons c text ih =>
      cases skipped with
      | zero => rfl
      | succ skipped => rw [metricPathFrom, ih, List.drop_succ_cons]

/-- Without a slash nothing is replaced. -/
theorem metricPathFrom_plain (h : '/' ∉ text) : metricPathFrom 0 (text ++ rest) = text ++ metricPathFrom 0 rest := by
  induction text with
  | nil => rfl
  | cons c text ih =>
      rw [List.mem_cons, not_or] at h
      rw [List.cons_append, metricPathFrom, if_neg fun hc => h.1 hc.1.symm, ih h.2, List.cons_append]

/-- The metric path of a segment. -/
theorem metricPathFrom_segment (h : '/' ∉ text) (hRest : rest = [] ∨ rest.head? = some '/') :
    metricPathFrom 0 ('/' :: (text ++ rest)) = '/' :: (segmentLabel text ++ metricPathFrom 0 rest) := by
  have hEnd : rest.takeWhile isIdChar = [] := by
    rcases hRest with rfl | hSlash
    · rfl
    · obtain ⟨more, rfl⟩ := List.head?_eq_some_iff.mp hSlash
      rfl
  have hTake : (text ++ rest).takeWhile isIdChar = text.takeWhile isIdChar := by
    rw [List.takeWhile_append, hEnd, List.append_nil]
    split
    · next hAll => exact ((List.takeWhile_prefix isIdChar).eq_of_length hAll).symm
    · rfl
  have hSplit : text ++ rest = text.takeWhile isIdChar ++ (afterId text ++ rest) := by
    rw [← List.append_assoc, afterId, List.takeWhile_append_dropWhile]
  have hAfter : '/' ∉ afterId text := fun hMem => h (List.dropWhile_subset _ hMem)
  rw [metricPathFrom, hTake, segmentLabel]
  by_cases hId : IdLike text
  · rw [if_pos ⟨rfl, hId⟩, if_pos hId, metricPathFrom_eq_drop, hSplit, List.drop_left, metricPathFrom_plain hAfter,
      List.append_assoc]
    rfl
  · rw [if_neg fun hBoth => hId hBoth.2, if_neg hId, metricPathFrom_plain h]

theorem metricPathFrom_slashed {segments : List (List Char)} (h : ∀ segment ∈ segments, '/' ∉ segment) :
    metricPathFrom 0 (slashed segments) = slashed (segments.map segmentLabel) := by
  induction segments with
  | nil => rfl
  | cons segment segments ih =>
      rw [List.forall_mem_cons] at h
      have hRest : slashed segments = [] ∨ (slashed segments).head? = some '/' := by
        cases segments with
        | nil => exact Or.inl rfl
        | cons => exact Or.inr rfl
      have hCons (first : List Char) (others : List (List Char)) :
          slashed (first :: others) = '/' :: (first ++ slashed others) := List.flatMap_cons
      rw [hCons, metricPathFrom_segment h.1 hRest, ih h.2, List.map_cons, hCons]

theorem slash_not_mem_segmentLabel (h : '/' ∉ text) : '/' ∉ segmentLabel text := by
  unfold segmentLabel
  split
  · rw [List.mem_append, not_or]
    exact ⟨by decide, fun hMem => h (List.dropWhile_subset _ hMem)⟩
  · exact h

theorem slashed_eq_intercalate (segments : List (List Char)) :
    slashed segments = ['/'].intercalate ([] :: segments) := by
  induction segments with
  | nil => rfl
  | cons segment segments ih =>
      have hCons : slashed (segment :: segments) = '/' :: (segment ++ slashed segments) := List.flatMap_cons
      rw [List.intercalate_cons_cons, hCons, ih]
      cases segments with
      | nil => simp
      | cons => simp

/-- The segments of a path are known from it. -/
theorem slashed_inj {segments others : List (List Char)} (h : ∀ segment ∈ segments, '/' ∉ segment)
    (hOthers : ∀ segment ∈ others, '/' ∉ segment) : slashed segments = slashed others ↔ segments = others := by
  constructor
  · intro hSame
    have hSplit := congrArg (List.splitOn '/') hSame
    rw [slashed_eq_intercalate, slashed_eq_intercalate, List.splitOn_intercalate, List.splitOn_intercalate] at hSplit
    · exact List.tail_eq_of_cons_eq hSplit
    · exact List.forall_mem_cons.mpr ⟨List.not_mem_nil, hOthers⟩
    · exact List.cons_ne_nil _ _
    · exact List.forall_mem_cons.mpr ⟨List.not_mem_nil, h⟩
    · exact List.cons_ne_nil _ _
  · exact congrArg slashed

end Labels

section Routes

variable {template : List RouteSegment} {values others : String → ParamValue}

theorem metricPath_routePath (template : List RouteSegment) (values : String → ParamValue) :
    metricPath (routePath template values) =
      slashed (template.map fun segment => segmentLabel (segment.fill values).text) := by
  have hSegments : ∀ segment ∈ template.map fun segment => (segment.fill values).text, '/' ∉ segment := by
    rw [List.forall_mem_map]
    exact fun segment _ => (segment.fill values).no_slash
  rw [metricPath, routePath, String.toList_ofList, metricPathFrom_slashed hSegments, List.map_map]
  rfl

/-- Two requests of a route have one label exactly when their parameters look alike. -/
theorem metricPath_eq_iff :
    metricPath (routePath template values) = metricPath (routePath template others) ↔
      ∀ name, .param name ∈ template → Alike (values name).text (others name).text := by
  have hLabels (values : String → ParamValue) :
      ∀ label ∈ template.map fun segment => segmentLabel (segment.fill values).text, '/' ∉ label := by
    rw [List.forall_mem_map]
    exact fun segment _ => slash_not_mem_segmentLabel (segment.fill values).no_slash
  rw [metricPath_routePath, metricPath_routePath, slashed_inj (hLabels values) (hLabels others), List.map_inj_left]
  constructor
  · intro h name hName
    exact alike_iff.mpr (h (.param name) hName)
  · intro h segment hSegment
    cases segment with
    | literal => rfl
    | param name => exact alike_iff.mp (h name hSegment)

end Routes

/-- A request of a route. -/
structure RouteCall where
  method : String
  values : String → ParamValue
  status : Option Nat

def RouteCall.counted (template : List RouteSegment) (call : RouteCall) : CountedRequest :=
  ⟨call.method, routePath template call.values, call.status⟩

/-- The path labels that the counter has for some requests of a route. -/
def pathLabels (service : String) (template : List RouteSegment) (calls : List RouteCall) : List (List Char) :=
  (httpRequestsTotal service (calls.map (RouteCall.counted template))).map fun entry => entry.1.path

theorem mem_pathLabels_iff {service : String} {template : List RouteSegment} {calls : List RouteCall}
    {label : List Char} :
    label ∈ pathLabels service template calls ↔ ∃ call ∈ calls, metricPath (routePath template call.values) = label := by
  have hKeys : pathLabels service template calls =
      ((httpRequestsTotal service (calls.map (RouteCall.counted template))).map Prod.fst).map RequestLabels.path := by
    rw [pathLabels, List.map_map]
    rfl
  rw [hKeys, List.mem_map]
  constructor
  · rintro ⟨labels, hLabels, rfl⟩
    obtain ⟨request, hRequest, rfl⟩ := List.mem_map.mp (Dict.mem_tally.mp hLabels)
    obtain ⟨call, hCall, rfl⟩ := List.mem_map.mp hRequest
    exact ⟨call, hCall, rfl⟩
  · rintro ⟨call, hCall, rfl⟩
    have hRequest := List.mem_map_of_mem (f := RouteCall.counted template) hCall
    exact ⟨_, Dict.mem_tally.mpr (List.mem_map_of_mem hRequest), rfl⟩

/-- Two requests of a route have one label, and all of them are counted under one,
exactly when the values of each parameter look alike. -/
theorem one_pathLabel_iff (service : String) (template : List RouteSegment) (calls : List RouteCall) :
    (∀ call ∈ calls, ∀ other ∈ calls,
      (metricPath (routePath template call.values) = metricPath (routePath template other.values) ↔
        ∀ name, .param name ∈ template → Alike (call.values name).text (other.values name).text)) ∧
    ((∀ label ∈ pathLabels service template calls, ∀ other ∈ pathLabels service template calls, label = other) ↔
      ∀ call ∈ calls, ∀ other ∈ calls, ∀ name, .param name ∈ template →
        Alike (call.values name).text (other.values name).text) := by
  refine ⟨fun call _ other _ => metricPath_eq_iff, ?_⟩
  simp only [mem_pathLabels_iff, ← metricPath_eq_iff]
  constructor
  · intro h call hCall other hOther
    exact h _ ⟨call, hCall, rfl⟩ _ ⟨other, hOther, rfl⟩
  · rintro h _ ⟨call, hCall, rfl⟩ _ ⟨other, hOther, rfl⟩
    exact h call hCall other hOther

/-- `/v1/users/{user_id}`. -/
def userRoute : List RouteSegment :=
  [.literal ⟨"v1".toList, by decide⟩, .literal ⟨"users".toList, by decide⟩, .param "user_id"]

/-- One value for all parameters. -/
def sameValue (text : List Char) (no_slash : '/' ∉ text) (nonempty : text ≠ []) : String → ParamValue :=
  fun _ => ⟨⟨text, no_slash⟩, nonempty⟩

theorem one_pathLabel_iff_hex :
    metricPath (routePath userRoute (sameValue "0123456789abcdef".toList (by decide) (by decide))) =
      metricPath (routePath userRoute (sameValue "00000000-0000".toList (by decide) (by decide))) := by
  have h := one_pathLabel_iff "user" userRoute
    [⟨"GET", sameValue "0123456789abcdef".toList (by decide) (by decide), some 200⟩,
      ⟨"GET", sameValue "00000000-0000".toList (by decide) (by decide), some 404⟩]
  have hAlike : Alike "0123456789abcdef".toList "00000000-0000".toList :=
    .ids (by decide) (by decide) (by decide)
  exact (h.1 _ List.mem_cons_self _ (List.mem_cons_of_mem _ (List.mem_singleton_self _))).mpr fun _ _ => hAlike

/-- Names of users give as many labels as there are users. -/
theorem userRoute_two_labels :
    metricPath (routePath userRoute (sameValue "alice".toList (by decide) (by decide))) ≠
      metricPath (routePath userRoute (sameValue "bob".toList (by decide) (by decide))) := by
  decide

end ServicePlatform
