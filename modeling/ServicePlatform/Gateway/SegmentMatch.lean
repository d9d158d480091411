import ServicePlatform.Gateway.Whitelist
import ServicePlatform.Text.RegexReader

/-! Whitelist patterns segment by segment. A pattern becomes a regular expression
with its placeholders replaced and everything else as it is, so it asks for its
segments only when they mean nothing to a regular expression. -/
namespace ServicePlatform.Gateway

open Text

/-- `re.match`, as far as the syntax of an expression is read: `none` when it raises. -/
structure RegexEngine where
  matches? : List Char → List Char → Option Bool
  reads : ∀ regex, Regex.Standard regex →
    ∀ path, matches? regex path = (Regex.parse regex).map fun parsed => decide (parsed.Matches path)

/-- A character of a pattern or a placeholder, in the expression. -/
def PatternPart.text : PatternPart → List Char
  | .char c => [c]
  | .segment => negatedPlus '/'

/-- `regex` in `_match`. -/
def matchRegex (pattern : String) : List Char :=
  '^' :: ((patternParts pattern).flatMap PatternPart.text ++ ['$'])

/-- `_match`. -/
def RegexEngine.matchPath (engine : RegexEngine) (pattern path : String) : Option Bool :=
  engine.matches? (matchRegex pattern) path.toList

/-- A text that stands in a pattern as it is. -/
structure PatternText where
  text : List Char
  no_slash : '/' ∉ text
  no_brace : '\x7b' ∉ text ∧ '\x7d' ∉ text

inductive PatternSegment where
  | literal (text : PatternText)
  | param (name : PatternText) (nonempty : name.text ≠ [])

namespace PatternSegment

def text : PatternSegment → List Char
  | literal text => text.text
  | param name _ => '\x7b' :: (name.text ++ ['\x7d'])

/-- The segment of a path that a segment of a pattern stands for. -/
def Fits : PatternSegment → List Char → Prop
  | literal text, piece => piece = text.text
  | param _ _, piece => piece ≠ []

instance (segment : PatternSegment) (piece : List Char) : Decidable (segment.Fits piece) := by
  cases segment with
  | literal text => exact inferInstanceAs (Decidable (piece = text.text))
  | param name nonempty => exact inferInstanceAs (Decidable (piece ≠ []))

def IsParam : PatternSegment → Prop
  | literal _ => False
  | param _ _ => True

/-- The segment has none of these characters as its own. -/
def Avoids (chars : List Char) : PatternSegment → Prop
  | literal text => ∀ c ∈ text.text, c ∉ chars
  | param _ _ => True

instance (segment : PatternSegment) (chars : List Char) : Decidable (segment.Avoids chars) := by
  cases segment with
  | literal text => exact inferInstanceAs (Decidable (∀ c ∈ text.text, c ∉ chars))
  | param name nonempty => exact inferInstanceAs (Decidable True)

end PatternSegment

/-- A pattern made of segments. -/
structure RoutePattern where
  segments : List PatternSegment
  nonempty : segments ≠ []

namespace RoutePattern

def text (pattern : RoutePattern) : String :=
  String.ofList (['/'].intercalate (pattern.segments.map PatternSegment.text))

/-- The path has the segments that the pattern asks for. -/
def SegmentExact (pattern : RoutePattern) (path : String) : Prop :=
  List.Forall₂ PatternSegment.Fits pattern.segments (path.toList.splitOn '/')

instance (pattern : RoutePattern) (path : String) : Decidable (pattern.SegmentExact path) :=
  inferInstanceAs (Decidable (List.Forall₂ _ _ _))

/-- The literal segments mean nothing to a regular expression. -/
def Plain (pattern : RoutePattern) : Prop := ∀ segment ∈ pattern.segments, segment.Avoids ('.' :: operators)

instance (pattern : RoutePattern) : Decidable pattern.Plain :=
  inferInstanceAs (Decidable (∀ segment ∈ pattern.segments, segment.Avoids ('.' :: operators)))

def EndsInParam (pattern : RoutePattern) : Prop := (pattern.segments.getLast pattern.nonempty).IsParam

end RoutePattern

section Parts

/-- What stands in the expression for a segment. -/
def PatternSegment.parts : PatternSegment → List PatternPart
  | literal text => text.text.map .char
  | param _ _ => [.segment]

def segmentParts (segments : List PatternSegment) : List PatternPart :=
  [.char '/'].intercalate (segments.map PatternSegment.parts)

theorem segmentParts_singleton (segment : PatternSegment) : segmentParts [segment] = segment.parts :=
  List.intercalate_singleton

theorem segmentParts_cons_cons (segment next : PatternSegment) (segments : List PatternSegment) :
    segmentParts (segment :: next :: segments) = segment.parts ++ (.char '/' :: segmentParts (next :: segments)) := by
  rw [segmentParts, List.map_cons, List.map_cons, List.intercalate_cons_cons, List.append_assoc]
  rfl

variable {text rest : List Char}

theorem patternPartsFrom_eq_drop (skipped : Nat) (text : List Char) :
    patternPartsFrom skipped text = patternPartsFrom 0 (text.drop skipped) := by
  induction text generalizing skipped with
  | nil => simp [patternPartsFrom]
  | cons c text ih =>
      cases skipped with
      | zero => rfl
      | succ skipped => rw [patternPartsFrom, ih, List.drop_succ_cons]

theorem patternPartsFrom_literal (h : '\x7b' ∉ text) :
    patternPartsFrom 0 (text ++ rest) = text.map .char ++ patternPartsFrom 0 rest := by
  induction text with
  | nil => rfl
  | cons c text ih =>
      rw [List.mem_cons, not_or] at h
      rw [List.cons_append, patternPartsFrom, if_neg fun hc => h.1 hc.1.symm, ih h.2, List.map_cons, List.cons_append]

theorem patternPartsFrom_param {name : List Char} (hNonempty : name ≠ []) (hName : '\x7d' ∉ name) :
    patternPartsFrom 0 ('\x7b' :: (name ++ '\x7d' :: rest)) = .segment :: patternPartsFrom 0 rest := by
  have hTake : (name ++ '\x7d' :: rest).takeWhile (fun d => d ≠ '\x7d') = name := by
    have hInside : ∀ c ∈ name, decide (c ≠ '\x7d') = true := fun c hc => decide_eq_true fun h => hName (h ▸ hc)
    rw [List.takeWhile_append_of_pos hInside]
    simp
  have hLength : name.length < (name ++ '\x7d' :: rest).length := by
    rw [List.length_append, List.length_cons]
    omega
  have hDrop : (name ++ '\x7d' :: rest).drop (name.length + 1) = rest := by
    rw [List.append_cons]
    exact List.drop_left' (by simp)
  rw [patternPartsFrom, hTake, if_pos ⟨rfl, hNonempty, hLength⟩, patternPartsFrom_eq_drop, hDrop]

theorem patternPartsFrom_segment (segment : PatternSegment) :
    patternPartsFrom 0 (segment.text ++ rest) = segment.parts ++ patternPartsFrom 0 rest := by
  cases segment with
  | literal text => exact patternPartsFrom_literal text.no_brace.1
  | param name nonempty =>
      rw [PatternSegment.text, List.cons_append, List.append_assoc]
      exact patternPartsFrom_param nonempty name.no_brace.2

theorem patternPartsFrom_segments (segments : List PatternSegment) :
    patternPartsFrom 0 (['/'].intercalate (segments.map PatternSegment.text)) = segmentParts segments := by
  induction segments with
  | nil => rfl
  | cons segment segments ih =>
      cases segments with
      | nil =>
          have hSegment : patternPartsFrom 0 (segment.text ++ []) = segment.parts ++ [] :=
            patternPartsFrom_segment segment
          rw [List.append_nil, List.append_nil] at hSegment
          rw [List.map_singleton, List.intercalate_singleton, segmentParts_singleton, hSegment]
      | cons next segments =>
          have hSlash : patternPartsFrom 0 (['/'] ++ ['/'].intercalate ((next :: segments).map PatternSegment.text)) =
              [.char '/'] ++ segmentParts (next :: segments) := by
            rw [patternPartsFrom_literal (by decide), ih]
            rfl
          rw [List.map_cons] at hSlash
          rw [List.map_cons, List.map_cons, List.intercalate_cons_cons, List.append_assoc, patternPartsFrom_segment,
            hSlash, segmentParts_cons_cons]
          rfl

theorem patternParts_text (pattern : RoutePattern) : patternParts pattern.text = segmentParts pattern.segments := by
  rw [patternParts, RoutePattern.text, String.toList_ofList, patternPartsFrom_segments]

end Parts

section Reading

/-- An expression for a part. -/
def PatternPart.regex : PatternPart → Regex
  | .char c => RegexReader.plainItem c
  | .segment => .plus (.char fun c => c != '/')

/-- The part is none of these characters. -/
def PatternPart.Avoids (chars : List Char) : PatternPart → Prop
  | .char c => c ∉ chars
  | .segment => True

instance (chars : List Char) : DecidablePred (PatternPart.Avoids chars) := by
  intro part
  cases part with
  | char c => exact inferInstanceAs (Decidable (c ∉ chars))
  | segment => exact inferInstanceAs (Decidable True)

theorem PatternPart.Avoids.mono {part : PatternPart} {chars chars' : List Char} (h : part.Avoids chars)
    (hSub : chars' ⊆ chars) : part.Avoids chars' := by
  cases part with
  | char c => exact fun hc => h (hSub hc)
  | segment => trivial

variable {engine : RegexEngine} {part : PatternPart} {parts : List PatternPart} {pattern path : String}

theorem readsAs_part (h : part.Avoids operators) : ReadsAs part.text [part.regex] := by
  cases part with
  | char c => exact readsAs_plain h
  | segment => exact readsAs_negatedPlus (by decide) (by decide)

theorem readsAs_parts (h : ∀ part ∈ parts, part.Avoids operators) :
    ReadsAs (parts.flatMap PatternPart.text) (parts.map PatternPart.regex) := by
  induction parts with
  | nil => exact readsAs_nil
  | cons part parts ih =>
      rw [List.forall_mem_cons] at h
      exact (readsAs_part h.1).append (ih h.2)

theorem readsAs_matchRegex (h : ∀ part ∈ patternParts pattern, part.Avoids operators) :
    ReadsAs (matchRegex pattern) (.start :: ((patternParts pattern).map PatternPart.regex ++ [.stop])) :=
  readsAs_start.append ((readsAs_parts h).append readsAs_stop)

theorem standard_part (h : part.Avoids ('\x7b' :: operators)) :
    Regex.Standard part.text ∧ ∀ c ∈ part.text.head?, c ∉ ['+', '?'] := by
  cases part with
  | char c =>
      refine ⟨⟨fun d hd => ?_, List.isChain_singleton c⟩, fun d hd => ?_⟩
      · obtain rfl := List.mem_singleton.mp hd
        constructor
        · rintro rfl
          exact h (by decide)
        · rintro rfl
          exact h (by decide)
      · obtain rfl : c = d := by simpa [PatternPart.text] using hd
        intro hc
        simp only [List.mem_cons, List.not_mem_nil, or_false] at hc
        rcases hc with rfl | rfl
        · exact h (by decide)
        · exact h (by decide)
  | segment =>
      refine ⟨by decide, fun c hc => ?_⟩
      cases hc
      decide

theorem standard_parts (h : ∀ part ∈ parts, part.Avoids ('\x7b' :: operators)) :
    Regex.Standard (parts.flatMap PatternPart.text ++ ['$']) ∧
      ∀ c ∈ (parts.flatMap PatternPart.text ++ ['$']).head?, c ∉ ['+', '?'] := by
  induction parts with
  | nil =>
      refine ⟨by decide, fun c hc => ?_⟩
      cases hc
      decide
  | cons part parts ih =>
      rw [List.forall_mem_cons] at h
      obtain ⟨hPart, hPartHead⟩ := standard_part h.1
      obtain ⟨hRest, hRestHead⟩ := ih h.2
      rw [List.flatMap_cons, List.append_assoc]
      refine ⟨hPart.append hRest hRestHead, fun c hc => ?_⟩
      rw [List.head?_append, Option.mem_def, Option.or_eq_some_iff] at hc
      rcases hc with hc | ⟨-, hc⟩
      · exact hPartHead c hc
      · exact hRestHead c hc

theorem standard_matchRegex (h : ∀ part ∈ patternParts pattern, part.Avoids ('\x7b' :: operators)) :
    Regex.Standard (matchRegex pattern) := by
  obtain ⟨hParts, hHead⟩ := standard_parts h
  have hStart : Regex.Standard ['^'] := by decide
  exact hStart.append hParts hHead

theorem RegexEngine.matchPath_eq (engine : RegexEngine) (path : String) (hStandard : Regex.Standard (matchRegex pattern))
    (h : ∀ part ∈ patternParts pattern, part.Avoids operators) :
    ∃ result, engine.matchPath pattern path = some result ∧ (result = true ↔ ∃ left,
      left ∈ (Regex.concat ((patternParts pattern).map PatternPart.regex)).remainders path.toList path.toList ∧
        (left = [] ∨ left = ['\n'])) := by
  obtain ⟨regex, hParse, hMatches⟩ := (readsAs_matchRegex h).parse
  refine ⟨decide (regex.Matches path.toList), ?_, ?_⟩
  · rw [matchPath, engine.reads _ hStandard, hParse]
    rfl
  · rw [decide_eq_true_iff, hMatches, Regex.matches_anchored_iff]

theorem mem_regex_char_iff {c : Char} {whole rest left : List Char} :
    left ∈ (PatternPart.char c).regex.remainders whole rest ↔
      ∃ d, rest = d :: left ∧ (if c = '.' then d ≠ '\n' else d = c) := by
  rw [PatternPart.regex, RegexReader.plainItem]
  split
  · simp only [Regex.mem_char_iff, bne_iff_ne]
  · simp only [Regex.mem_char_iff, beq_iff_eq]

/-- Without operators the characters of the pattern are compared one by one. -/
theorem matchParts_iff {whole text : List Char} (h : ∀ part ∈ parts, part.Avoids ['.']) :
    matchParts text parts = true ↔
      ∃ left, left ∈ (Regex.concat (parts.map PatternPart.regex)).remainders whole text ∧ (left = [] ∨ left = ['\n']) := by
  fun_induction matchParts text parts with
  | case1 parts =>
      cases parts with
      | nil => simp [Regex.mem_concat_nil_iff]
      | cons part parts =>
          refine iff_of_false (by simp) ?_
          rintro ⟨left, hLeft, -⟩
          obtain ⟨middle, hPart, -⟩ := Regex.mem_concat_cons_iff.mp hLeft
          cases part with
          | char c =>
              obtain ⟨d, hd, -⟩ := mem_regex_char_iff.mp hPart
              cases hd
          | segment =>
              obtain ⟨taken, hTaken, hNonempty, -⟩ := Regex.mem_plus_char_iff.mp hPart
              exact hNonempty (List.append_eq_nil_iff.mp hTaken.symm).1
  | case2 c rest => simp [Regex.mem_concat_nil_iff]
  | case3 c rest d parts ih =>
      rw [List.forall_mem_cons] at h
      have hDot : d ≠ '.' := fun hd => h.1 (List.mem_singleton.mpr hd)
      simp only [List.map_cons, Regex.mem_concat_cons_iff, mem_regex_char_iff, if_neg hDot]
      rw [Bool.and_eq_true, beq_iff_eq, ih h.2]
      constructor
      · rintro ⟨rfl, left, hLeft, hEnd⟩
        exact ⟨left, ⟨rest, ⟨c, rfl, rfl⟩, hLeft⟩, hEnd⟩
      · rintro ⟨left, ⟨middle, ⟨e, he, rfl⟩, hLeft⟩, hEnd⟩
        obtain ⟨rfl, rfl⟩ := List.cons.inj he
        exact ⟨rfl, left, hLeft, hEnd⟩
  | case4 c rest parts ihParts ihMore =>
      rw [Bool.and_eq_true, Bool.or_eq_true, bne_iff_ne, ihParts (List.forall_mem_cons.mp h).2, ihMore h]
      simp only [List.map_cons, Regex.mem_concat_cons_iff, PatternPart.regex, Regex.mem_plus_char_cons_iff, bne_iff_ne]
      constructor
      · rintro ⟨hc, ⟨left, hLeft, hEnd⟩ | ⟨left, ⟨middle, hPlus, hLeft⟩, hEnd⟩⟩
        · exact ⟨left, ⟨rest, ⟨hc, Or.inl rfl⟩, hLeft⟩, hEnd⟩
        · exact ⟨left, ⟨middle, ⟨hc, Or.inr hPlus⟩, hLeft⟩, hEnd⟩
      · rintro ⟨left, ⟨middle, ⟨hc, rfl | hPlus⟩, hLeft⟩, hEnd⟩
        · exact ⟨hc, Or.inl ⟨left, hLeft, hEnd⟩⟩
        · exact ⟨hc, Or.inr ⟨left, ⟨middle, hPlus, hLeft⟩, hEnd⟩⟩

/-- The whitelist matches like the regular expression when its pattern has no
operators of its own. -/
theorem RegexEngine.matchPath_of_plain (engine : RegexEngine) (path : String)
    (h : ∀ part ∈ patternParts pattern, part.Avoids ('.' :: '\x7b' :: operators)) :
    engine.matchPath pattern path = some (Gateway.matchPath pattern path) := by
  have hStandard : ∀ part ∈ patternParts pattern, part.Avoids ('\x7b' :: operators) :=
    fun part hPart => (h part hPart).mono (List.subset_cons_self _ _)
  have hOperators : ∀ part ∈ patternParts pattern, part.Avoids operators :=
    fun part hPart => (hStandard part hPart).mono (List.subset_cons_self _ _)
  have hDot : ∀ part ∈ patternParts pattern, part.Avoids ['.'] :=
    fun part hPart => (h part hPart).mono (by simp)
  obtain ⟨result, hResult, hMatch⟩ := engine.matchPath_eq path (standard_matchRegex hStandard) hOperators
  rw [hResult, Gateway.matchPath]
  exact congrArg some (Bool.eq_iff_iff.mpr (hMatch.trans (matchParts_iff hDot).symm))

/-- The rules of the whitelist are such patterns. -/
theorem RegexEngine.matchPath_whitelist (engine : RegexEngine) (path : String) {rule : RouteRule}
    (h : rule ∈ routeWhitelist) : engine.matchPath rule.path path = some (Gateway.matchPath rule.path path) := by
  refine engine.matchPath_of_plain path ?_
  have hRules : ∀ rule ∈ routeWhitelist, ∀ part ∈ patternParts rule.path, part.Avoids ('.' :: '\x7b' :: operators) := by
    decide
  exact hRules rule h

end Reading

section Pieces

/-- What an expression accepts for a literal text in which only dots are operators. -/
def AcceptsChar (c d : Char) : Prop := if c = '.' then d ≠ '\n' else d = c

/-- What an expression accepts for a segment. -/
def PatternSegment.Accepts : PatternSegment → List Char → Prop
  | literal text, piece => List.Forall₂ AcceptsChar text.text piece
  | param _ _, piece => piece ≠ [] ∧ '/' ∉ piece

variable {segments : List PatternSegment} {segment : PatternSegment} {whole rest left piece text : List Char}

theorem mem_literal_iff :
    left ∈ (Regex.concat ((text.map PatternPart.char).map PatternPart.regex)).remainders whole rest ↔
      ∃ piece, List.Forall₂ AcceptsChar text piece ∧ rest = piece ++ left := by
  induction text generalizing rest with
  | nil => simp [Regex.mem_concat_nil_iff, eq_comm]
  | cons c text ih =>
      simp only [List.map_cons, Regex.mem_concat_cons_iff, mem_regex_char_iff, ih]
      constructor
      · rintro ⟨middle, ⟨d, rfl, hd⟩, piece, hPiece, rfl⟩
        exact ⟨d :: piece, .cons hd hPiece, rfl⟩
      · rintro ⟨piece, hPiece, rfl⟩
        cases hPiece with
        | cons hd hPiece => exact ⟨_, ⟨_, rfl, hd⟩, _, hPiece, rfl⟩

theorem mem_segment_iff :
    left ∈ (Regex.concat (segment.parts.map PatternPart.regex)).remainders whole rest ↔
      ∃ piece, segment.Accepts piece ∧ rest = piece ++ left := by
  cases segment with
  | literal text => exact mem_literal_iff
  | param name nonempty =>
      simp only [PatternSegment.parts, List.map_cons, List.map_nil, Regex.mem_concat_cons_iff,
        Regex.mem_concat_nil_iff, exists_eq_right', PatternPart.regex, Regex.mem_plus_char_iff, bne_iff_ne,
        PatternSegment.Accepts]
      constructor
      · rintro ⟨taken, rfl, hNonempty, hAll⟩
        exact ⟨taken, ⟨hNonempty, fun h => hAll '/' h rfl⟩, rfl⟩
      · rintro ⟨piece, ⟨hNonempty, hSlash⟩, rfl⟩
        exact ⟨piece, rfl, hNonempty, fun c hc h => hSlash (h ▸ hc)⟩

/-- The texts that the parts of some segments take. -/
theorem mem_segments_iff :
    left ∈ (Regex.concat ((segmentParts segments).map PatternPart.regex)).remainders whole rest ↔
      ∃ pieces, List.Forall₂ PatternSegment.Accepts segments pieces ∧ rest = ['/'].intercalate pieces ++ left := by
  induction segments generalizing rest with
  | nil => simp [segmentParts, Regex.mem_concat_nil_iff, eq_comm]
  | cons segment segments ih =>
      cases segments with
      | nil =>
          rw [segmentParts_singleton, mem_segment_iff]
          constructor
          · rintro ⟨piece, hPiece, rfl⟩
            exact ⟨[piece], .cons hPiece .nil, by rw [List.intercalate_singleton]⟩
          · rintro ⟨pieces, hPieces, rfl⟩
            cases hPieces with
            | cons hPiece hNil =>
                cases hNil
                exact ⟨_, hPiece, by rw [List.intercalate_singleton]⟩
      | cons next segments =>
          rw [segmentParts_cons_cons, List.map_append, List.map_cons, Regex.mem_concat_append_iff]
          simp only [mem_segment_iff, Regex.mem_concat_cons_iff, mem_regex_char_iff, ih]
          constructor
          · rintro ⟨behind, ⟨piece, hPiece, rfl⟩, middle, ⟨slash, rfl, rfl⟩, pieces, hPieces, rfl⟩
            refine ⟨piece :: pieces, .cons hPiece hPieces, ?_⟩
            cases hPieces with
            | cons hNext hPieces => rw [List.intercalate_cons_cons]; simp
          · rintro ⟨pieces, hPieces, rfl⟩
            cases hPieces with
            | cons hPiece hPieces =>
                refine ⟨_, ⟨_, hPiece, ?_⟩, _, ⟨'/', rfl, rfl⟩, _, hPieces, rfl⟩
                cases hPieces with
                | cons hNext hPieces => rw [List.intercalate_cons_cons]; simp

theorem acceptsChar_iff {c d : Char} (h : c ≠ '.') : AcceptsChar c d ↔ d = c := by
  rw [AcceptsChar, if_neg h]

theorem accepts_iff (h : segment.Avoids ['.']) : segment.Accepts piece ↔ segment.Fits piece ∧ '/' ∉ piece := by
  cases segment with
  | param name nonempty => exact Iff.rfl
  | literal text =>
      have hChars : List.Forall₂ AcceptsChar text.text piece ↔ text.text = piece := by
        rw [← List.forall₂_eq_eq_eq, List.forall₂_iff_zip, List.forall₂_iff_zip]
        refine and_congr_right fun _ => forall_congr' fun c => forall_congr' fun d => ?_
        refine imp_congr_right fun hZip => ?_
        have hDot : c ≠ '.' := fun hc => h c (List.of_mem_zip hZip).1 (List.mem_singleton.mpr hc)
        rw [acceptsChar_iff hDot, eq_comm]
      rw [PatternSegment.Accepts, hChars, PatternSegment.Fits]
      constructor
      · rintro rfl
        exact ⟨rfl, text.no_slash⟩
      · rintro ⟨rfl, -⟩
        rfl

/-- The segments of a path are the pieces between its slashes. -/
theorem segmentExact_iff {pattern : RoutePattern} {path : String} : pattern.SegmentExact path ↔
    ∃ pieces, List.Forall₂ (fun segment piece => segment.Fits piece ∧ '/' ∉ piece) pattern.segments pieces ∧
      path.toList = ['/'].intercalate pieces := by
  constructor
  · intro h
    refine ⟨path.toList.splitOn '/', ?_, (List.intercalate_splitOn '/').symm⟩
    exact forall₂_and_right.mpr ⟨h, fun piece hPiece => not_mem_of_mem_splitOn hPiece⟩
  · rintro ⟨pieces, hPieces, hPath⟩
    obtain ⟨hFits, hSlash⟩ := forall₂_and_right.mp hPieces
    have hNonempty : pieces ≠ [] := by
      rintro rfl
      exact pattern.nonempty (List.forall₂_nil_right_iff.mp hFits)
    rw [RoutePattern.SegmentExact, hPath, List.splitOn_intercalate '/' hSlash hNonempty]
    exact hFits

end Pieces

section Plain

variable {engine : RegexEngine} {pattern : RoutePattern} {segment : PatternSegment}
  {segments : List PatternSegment} {chars : List Char} {path : String}

theorem PatternSegment.Avoids.mono {chars' : List Char} (h : segment.Avoids chars) (hSub : chars' ⊆ chars) :
    segment.Avoids chars' := by
  cases segment with
  | literal text => exact fun c hc hMem => h c hc (hSub hMem)
  | param name nonempty => trivial

theorem PatternSegment.Avoids.brace (h : segment.Avoids chars) : segment.Avoids ('\x7b' :: chars) := by
  cases segment with
  | literal text =>
      intro c hc hMem
      rcases List.mem_cons.mp hMem with rfl | hMem
      · exact text.no_brace.1 hc
      · exact h c hc hMem
  | param name nonempty => trivial

theorem avoids_parts_iff : (∀ part ∈ segment.parts, part.Avoids chars) ↔ segment.Avoids chars := by
  cases segment with
  | literal text => exact List.forall_mem_map
  | param name nonempty => exact iff_of_true (List.forall_mem_singleton.mpr trivial) trivial

theorem avoids_segmentParts_iff (h : '/' ∉ chars) :
    (∀ part ∈ segmentParts segments, part.Avoids chars) ↔ ∀ segment ∈ segments, segment.Avoids chars := by
  have hSlash : ∀ part ∈ [PatternPart.char '/'], part.Avoids chars := List.forall_mem_singleton.mpr h
  rw [segmentParts, forall_mem_intercalate hSlash, List.forall_mem_map]
  exact forall₂_congr fun segment _ => avoids_parts_iff

theorem RoutePattern.Plain.avoids (h : pattern.Plain) :
    ∀ part ∈ patternParts pattern.text, part.Avoids ('\x7b' :: '.' :: operators) := by
  rw [patternParts_text, avoids_segmentParts_iff (by decide)]
  exact fun segment hSegment => (h segment hSegment).brace

/-- What a plain pattern matches. -/
theorem RegexEngine.matchPath_text (engine : RegexEngine) (pattern : RoutePattern) (path : String)
    (hStandard : Regex.Standard (matchRegex pattern.text))
    (h : ∀ part ∈ patternParts pattern.text, part.Avoids operators) :
    engine.matchPath pattern.text path = some true ↔
      ∃ pieces, List.Forall₂ PatternSegment.Accepts pattern.segments pieces ∧
        ∃ left, path.toList = ['/'].intercalate pieces ++ left ∧ (left = [] ∨ left = ['\n']) := by
  obtain ⟨result, hResult, hMatch⟩ := engine.matchPath_eq path hStandard h
  rw [hResult, Option.some_inj, hMatch, patternParts_text]
  simp only [mem_segments_iff]
  constructor
  · rintro ⟨left, ⟨pieces, hPieces, hPath⟩, hEnd⟩
    exact ⟨pieces, hPieces, left, hPath, hEnd⟩
  · rintro ⟨pieces, hPieces, left, hPath, hEnd⟩
    exact ⟨left, ⟨pieces, hPieces, hPath⟩, hEnd⟩

/-- A plain pattern matches its exact paths, also with a line feed behind them. -/
theorem matchPath_plain_iff (h : pattern.Plain) : engine.matchPath pattern.text path = some true ↔
    pattern.SegmentExact path ∨ ∃ front, path = front ++ "\n" ∧ pattern.SegmentExact front := by
  have hStandard : Regex.Standard (matchRegex pattern.text) :=
    standard_matchRegex fun part hPart => (h.avoids part hPart).mono (by decide)
  have hPieces : ∀ pieces, List.Forall₂ PatternSegment.Accepts pattern.segments pieces ↔
      List.Forall₂ (fun segment piece => segment.Fits piece ∧ '/' ∉ piece) pattern.segments pieces := by
    intro pieces
    rw [List.forall₂_iff_zip, List.forall₂_iff_zip]
    refine and_congr_right fun _ => forall_congr' fun segment => forall_congr' fun piece => ?_
    refine imp_congr_right fun hZip => accepts_iff ?_
    exact (h segment (List.of_mem_zip hZip).1).mono (by decide)
  rw [engine.matchPath_text pattern path hStandard fun part hPart => (h.avoids part hPart).mono (by decide)]
  simp only [hPieces, segmentExact_iff]
  constructor
  · rintro ⟨pieces, hFits, left, hPath, rfl | rfl⟩
    · exact Or.inl ⟨pieces, hFits, by rw [hPath, List.append_nil]⟩
    · refine Or.inr ⟨String.ofList (['/'].intercalate pieces), String.toList_injective ?_, pieces, hFits,
        String.toList_ofList⟩
      rw [hPath, String.toList_append, String.toList_ofList]
      rfl
  · rintro (⟨pieces, hFits, hPath⟩ | ⟨front, rfl, pieces, hFits, hFront⟩)
    · exact ⟨pieces, hFits, [], by rw [hPath, List.append_nil], Or.inl rfl⟩
    · refine ⟨pieces, hFits, ['\n'], ?_, Or.inr rfl⟩
      rw [String.toList_append, hFront]
      rfl

/-- Behind an exact path a line feed belongs to the last segment. -/
theorem segmentExact_newline_iff {front : String} (h : pattern.SegmentExact front) :
    pattern.SegmentExact (front ++ "\n") ↔ pattern.EndsInParam := by
  obtain ⟨pieces, hPieces, hFront⟩ := segmentExact_iff.mp h
  obtain ⟨hFits, hSlash⟩ := forall₂_and_right.mp hPieces
  have hNonempty : pieces ≠ [] := by
    rintro rfl
    exact pattern.nonempty (List.forall₂_nil_right_iff.mp hFits)
  obtain ⟨init, last, rfl⟩ : ∃ init last, pieces = init ++ [last] :=
    ⟨_, _, (List.dropLast_append_getLast hNonempty).symm⟩
  have hSplit : (front ++ "\n").toList.splitOn '/' = init ++ [last ++ ['\n']] := by
    rw [String.toList_append, hFront]
    show (['/'].intercalate (init ++ [last]) ++ ['\n']).splitOn '/' = _
    rw [← intercalate_concat_append]
    refine List.splitOn_intercalate '/' (fun piece hPiece => ?_) (by simp)
    rcases List.mem_append.mp hPiece with hInit | hLast
    · exact hSlash piece (List.mem_append_left _ hInit)
    · rw [List.mem_singleton.mp hLast, List.mem_append, not_or]
      exact ⟨hSlash last (List.mem_append_right _ (List.mem_singleton_self _)), by decide⟩
  have hSegments := (List.dropLast_append_getLast pattern.nonempty).symm
  rw [RoutePattern.SegmentExact, hSplit, hSegments, forall₂_concat_iff]
  rw [hSegments, forall₂_concat_iff] at hFits
  rw [and_iff_right hFits.1, RoutePattern.EndsInParam]
  have hLast := hFits.2
  revert hLast
  cases pattern.segments.getLast pattern.nonempty with
  | literal text =>
      intro hLast
      rw [PatternSegment.Fits] at hLast
      refine iff_of_false ?_ not_false
      rw [PatternSegment.Fits, hLast]
      simp
  | param name nonempty => exact fun _ => iff_of_true (by simp [PatternSegment.Fits]) trivial

end Plain

section Operators

variable {engine : RegexEngine} {pattern : RoutePattern} {segment : PatternSegment} {path : String}
  {parts : List PatternPart}

/-- The parts of a pattern that are operators. -/
def operatorCount (parts : List PatternPart) : Nat := parts.countP fun part => ¬ part.Avoids operators

theorem atoms_parts {reader reader' : RegexReader}
    (h : (parts.flatMap PatternPart.text).foldlM RegexReader.step reader = some reader') :
    reader'.atoms + operatorCount parts ≤ reader.atoms + parts.length := by
  induction parts generalizing reader with
  | nil =>
      cases h
      exact Nat.le_refl _
  | cons part parts ih =>
      rw [List.flatMap_cons, List.foldlM_append] at h
      obtain ⟨middle, hPart, hParts⟩ := Option.bind_eq_some_iff.mp h
      have hRest := ih hParts
      have hCount : middle.atoms + (if part.Avoids operators then 0 else 1) ≤ reader.atoms + 1 := by
        cases part with
        | char c =>
            rw [PatternPart.text, List.foldlM_cons] at hPart
            obtain ⟨next, hStep, hNext⟩ := Option.bind_eq_some_iff.mp hPart
            cases hNext
            by_cases hc : (PatternPart.char c).Avoids operators
            · rw [if_pos hc]
              rcases RegexReader.atoms_step hStep with hSame | ⟨-, hMore⟩ <;> omega
            · rw [if_neg hc]
              rcases RegexReader.atoms_step hStep with hSame | ⟨hPlain, -⟩
              · omega
              · exact absurd hPlain hc
        | segment => exact RegexReader.atoms_negatedPlus (by decide) hPart
      rw [operatorCount, List.countP_cons]
      rw [operatorCount] at hRest
      simp only [List.length_cons, decide_eq_true_eq, ite_not]
      omega

/-- An expression needs one character for each part of its pattern at most, and none
for an operator. -/
theorem atoms_matchRegex {pattern : String} {regex : Regex} (h : Regex.parse (matchRegex pattern) = some regex) :
    regex.atoms + operatorCount (patternParts pattern) ≤ (patternParts pattern).length := by
  rw [Regex.parse, matchRegex, List.foldlM_cons] at h
  obtain ⟨last, hRead, hFinish⟩ := Option.bind_eq_some_iff.mp h
  obtain ⟨begun, hBegun, hRead⟩ := Option.bind_eq_some_iff.mp hRead
  rw [List.foldlM_append] at hRead
  obtain ⟨middle, hParts, hRead⟩ := Option.bind_eq_some_iff.mp hRead
  rw [List.foldlM_cons] at hRead
  obtain ⟨ended, hEnded, hSame⟩ := Option.bind_eq_some_iff.mp hRead
  cases hSame
  have hBegunAtoms : begun.atoms = 0 := by
    cases hBegun
    rfl
  have hPartsAtoms := atoms_parts hParts
  have hLast : last.atoms ≤ middle.atoms := by
    rcases RegexReader.atoms_step hEnded with hSame | ⟨hOperator, -⟩
    · exact hSame
    · exact absurd (by decide) hOperator
  have hRegex : regex.atoms = last.atoms := by
    unfold RegexReader.finish at hFinish
    split at hFinish
    · cases hFinish
      rfl
    · cases hFinish
  omega

/-- A path for the pattern, with its literal characters written so. -/
def PatternSegment.sample (write : Char → Char) : PatternSegment → List Char
  | literal text => text.text.map write
  | param _ _ => ['x']

def RoutePattern.sample (write : Char → Char) (pattern : RoutePattern) : String :=
  String.ofList (['/'].intercalate (pattern.segments.map (PatternSegment.sample write)))

theorem not_mem_sample {write : Char → Char} (h : ∀ c, c ≠ '/' → write c ≠ '/') : '/' ∉ segment.sample write := by
  cases segment with
  | literal text =>
      intro hMem
      obtain ⟨c, hc, hWrite⟩ := List.mem_map.mp hMem
      exact h c (fun hSlash => text.no_slash (hSlash ▸ hc)) hWrite
  | param name nonempty =>
      show '/' ∉ ['x']
      decide

theorem exact_sample_iff {write : Char → Char} (h : ∀ c, c ≠ '/' → write c ≠ '/') :
    pattern.SegmentExact (pattern.sample write) ↔
      ∀ segment ∈ pattern.segments, segment.Fits (segment.sample write) := by
  have hSlash : ∀ piece ∈ pattern.segments.map (PatternSegment.sample write), '/' ∉ piece := by
    intro piece hPiece
    obtain ⟨segment, -, rfl⟩ := List.mem_map.mp hPiece
    exact not_mem_sample h
  rw [RoutePattern.SegmentExact, RoutePattern.sample, String.toList_ofList,
    List.splitOn_intercalate '/' hSlash (by simpa using pattern.nonempty), List.forall₂_map_right_iff,
    List.forall₂_same]

theorem exact_sample (pattern : RoutePattern) : pattern.SegmentExact (pattern.sample id) := by
  refine (exact_sample_iff fun c hc => hc).mpr fun segment _ => ?_
  cases segment with
  | literal text => exact List.map_id _
  | param name nonempty => exact List.cons_ne_nil _ _

theorem length_parts_le {segments : List PatternSegment} {pieces : List (List Char)}
    (h : List.Forall₂ PatternSegment.Fits segments pieces) :
    (segmentParts segments).length ≤ (['/'].intercalate pieces).length := by
  have hOne : ∀ {segment : PatternSegment} {piece : List Char}, segment.Fits piece →
      segment.parts.length ≤ piece.length := by
    intro segment piece hFits
    cases segment with
    | literal text => rw [hFits]; exact (List.length_map _).le
    | param name nonempty => exact List.length_pos_iff.mpr hFits
  induction h with
  | nil => exact Nat.le_refl 0
  | @cons segment piece segments pieces hFits hRest ih =>
      have hFirst := hOne hFits
      cases hRest with
      | nil =>
          rw [segmentParts_singleton, List.intercalate_singleton]
          exact hFirst
      | cons hNext hRest =>
          simp only [segmentParts_cons_cons, List.intercalate_cons_cons, List.length_append, List.length_cons]
          omega

/-- An exact path has a character for each part of the pattern. -/
theorem length_le_of_exact (h : pattern.SegmentExact path) :
    (patternParts pattern.text).length ≤ path.toList.length := by
  have hJoined : ['/'].intercalate (path.toList.splitOn '/') = path.toList := List.intercalate_splitOn '/'
  rw [patternParts_text, ← hJoined]
  exact length_parts_le h

/-- A pattern that is exact has no operators. -/
theorem avoids_of_exact (hStandard : Regex.Standard (matchRegex pattern.text))
    (h : ∀ path, engine.matchPath pattern.text path = some true ↔ pattern.SegmentExact path) :
    ∀ part ∈ patternParts pattern.text, part.Avoids operators := by
  have hSample := (h (pattern.sample id)).mpr (exact_sample pattern)
  rw [RegexEngine.matchPath, engine.reads _ hStandard, Option.map_eq_some_iff] at hSample
  obtain ⟨regex, hParse, hMatches⟩ := hSample
  -- The shortest match is an exact path, so no character is left for an operator.
  obtain ⟨short, hShort, hLength⟩ := (decide_eq_true_iff.mp hMatches).exists_short
  have hShortExact : pattern.SegmentExact (String.ofList short) := by
    refine (h _).mp ?_
    rw [RegexEngine.matchPath, engine.reads _ hStandard, hParse, String.toList_ofList, Option.map_some,
      decide_eq_true hShort]
  have hParts := length_le_of_exact hShortExact
  rw [String.toList_ofList] at hParts
  have hAtoms := atoms_matchRegex hParse
  have hNone : operatorCount (patternParts pattern.text) = 0 := by omega
  intro part hPart
  simpa using List.countP_eq_zero.mp hNone part hPart

/-- A character that a dot matches and that is no dot. -/
def undot (c : Char) : Char := if c = '.' then 'x' else c

theorem undot_ne_slash (c : Char) (h : c ≠ '/') : undot c ≠ '/' := by
  unfold undot
  split
  · decide
  · exact h

theorem acceptsChar_undot (c : Char) : AcceptsChar c (undot c) := by
  unfold AcceptsChar undot
  split
  · decide
  · rfl

theorem dot_not_mem_of_undot {text : List Char} (h : text.map undot = text) : '.' ∉ text := by
  intro hMem
  rw [← h] at hMem
  obtain ⟨d, -, hd⟩ := List.mem_map.mp hMem
  revert hd
  unfold undot
  split
  · decide
  · next hNot => exact hNot

theorem accepts_undot (segment : PatternSegment) : segment.Accepts (segment.sample undot) := by
  cases segment with
  | param name nonempty => exact ⟨List.cons_ne_nil _ _, not_mem_sample undot_ne_slash⟩
  | literal text =>
      rw [PatternSegment.Accepts, PatternSegment.sample, List.forall₂_map_right_iff, List.forall₂_same]
      exact fun c _ => acceptsChar_undot c

/-- A pattern that is exact has no dots. -/
theorem plain_of_exact (hStandard : Regex.Standard (matchRegex pattern.text))
    (h : ∀ path, engine.matchPath pattern.text path = some true ↔ pattern.SegmentExact path) : pattern.Plain := by
  have hOperators := avoids_of_exact hStandard h
  have hAccepts : List.Forall₂ PatternSegment.Accepts pattern.segments
      (pattern.segments.map (PatternSegment.sample undot)) :=
    List.forall₂_map_right_iff.mpr (List.forall₂_same.mpr fun segment _ => accepts_undot segment)
  have hMatch : engine.matchPath pattern.text (pattern.sample undot) = some true :=
    (engine.matchPath_text pattern _ hStandard hOperators).mpr
      ⟨_, hAccepts, [], by rw [List.append_nil, RoutePattern.sample, String.toList_ofList], Or.inl rfl⟩
  have hFits := (exact_sample_iff undot_ne_slash).mp ((h _).mp hMatch)
  intro segment hSegment
  rw [patternParts_text, avoids_segmentParts_iff (by decide)] at hOperators
  have hAvoids := hOperators segment hSegment
  have hSame := hFits segment hSegment
  cases segment with
  | param name nonempty => trivial
  | literal text =>
      intro c hc hMem
      rcases List.mem_cons.mp hMem with rfl | hMem
      · exact dot_not_mem_of_undot hSame hc
      · exact hAvoids c hc hMem

end Operators

/-- A pattern whose literal segments mean nothing to a regular expression is exact for
every path that is no exact path with a line feed behind its last literal segment;
a pattern is exact for all paths exactly when it is so and ends in a placeholder. -/
theorem segment_exact_iff (engine : RegexEngine) (pattern : RoutePattern) :
    (pattern.Plain → ∀ path, (engine.matchPath pattern.text path = some true ↔ pattern.SegmentExact path) ↔
      pattern.EndsInParam ∨ ¬ ∃ front, path = front ++ "\n" ∧ pattern.SegmentExact front) ∧
    (Regex.Standard (matchRegex pattern.text) →
      ((∀ path, engine.matchPath pattern.text path = some true ↔ pattern.SegmentExact path) ↔
        pattern.Plain ∧ pattern.EndsInParam)) := by
  have hPath : pattern.Plain → ∀ path,
      (engine.matchPath pattern.text path = some true ↔ pattern.SegmentExact path) ↔
        pattern.EndsInParam ∨ ¬ ∃ front, path = front ++ "\n" ∧ pattern.SegmentExact front := by
    intro hPlain path
    rw [matchPath_plain_iff hPlain, or_iff_left_iff_imp]
    by_cases hEnd : ∃ front, path = front ++ "\n" ∧ pattern.SegmentExact front
    · obtain ⟨front, rfl, hFront⟩ := hEnd
      have hBehind : ∃ front', front ++ "\n" = front' ++ "\n" ∧ pattern.SegmentExact front' := ⟨front, rfl, hFront⟩
      rw [segmentExact_newline_iff hFront]
      exact ⟨fun h => Or.inl (h hBehind), fun h _ => h.resolve_right fun hNot => hNot hBehind⟩
    · exact iff_of_true (fun h => absurd h hEnd) (Or.inr hEnd)
  refine ⟨hPath, fun hStandard => ⟨fun h => ?_, fun ⟨hPlain, hParam⟩ path => ?_⟩⟩
  · have hPlain := plain_of_exact hStandard h
    refine ⟨hPlain, ?_⟩
    rcases (hPath hPlain (pattern.sample id ++ "\n")).mp (h _) with hParam | hNot
    · exact hParam
    · exact absurd ⟨_, rfl, exact_sample pattern⟩ hNot
  · exact (hPath hPlain path).mpr (Or.inl hParam)

/-- An engine that reads the standard syntax and no other. -/
def standardEngine : RegexEngine where
  matches? := fun regex path => (Regex.parse regex).map fun parsed => decide (parsed.Matches path)
  reads := fun _ _ _ => rfl

def literalSegment (text : String) (h : '/' ∉ text.toList ∧ '\x7b' ∉ text.toList ∧ '\x7d' ∉ text.toList) :
    PatternSegment :=
  .literal ⟨text.toList, h.1, h.2⟩

/-- The pattern of `POST /v1/users`. -/
def usersPattern : RoutePattern where
  segments := [literalSegment "" (by decide), literalSegment "v1" (by decide), literalSegment "users" (by decide)]
  nonempty := List.cons_ne_nil _ _

/-- The pattern of `GET /v1/users/{user_id}`. -/
def userPattern : RoutePattern where
  segments := usersPattern.segments ++ [.param ⟨"user_id".toList, by decide, by decide⟩ (by decide)]
  nonempty := List.cons_ne_nil _ _

theorem segment_exact_iff_user :
    (Regex.Standard (matchRegex userPattern.text) ∧ userPattern.Plain ∧ userPattern.EndsInParam) ∧
      (standardEngine.matchPath userPattern.text "/v1/users/42" = some true ↔
        userPattern.SegmentExact "/v1/users/42") := by
  have hPlain : userPattern.Plain := by decide
  have hStandard : Regex.Standard (matchRegex userPattern.text) := by decide
  exact ⟨⟨hStandard, hPlain, trivial⟩,
    ((segment_exact_iff standardEngine userPattern).2 hStandard).mpr ⟨hPlain, trivial⟩ "/v1/users/42"⟩

/-- A line feed behind a path of the whitelist is let through. -/
theorem users_line_feed_matched : usersPattern.text = "/v1/users" ∧
    ¬ (standardEngine.matchPath usersPattern.text "/v1/users\n" = some true ↔
      usersPattern.SegmentExact "/v1/users\n") := by
  decide

end ServicePlatform.Gateway
