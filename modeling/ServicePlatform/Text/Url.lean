import ServicePlatform.Text.Fields

/-! Paths of URLs: where the path of a URL ends, the removal of dot segments, and
the decoding of percent escapes. Each of these only takes characters away, and
the last two take none exactly when there is nothing to do. -/
namespace Text

/-- The part of a URL before its fragment and its query. -/
def beforeQuery (url : List Char) : List Char := (url.takeWhile (· ≠ '#')).takeWhile (· ≠ '?')

/-- The text after a scheme and its colon. -/
def afterScheme (url : List Char) : List Char := ((splitOnce ':' url).map Prod.snd).getD url

/-- The text after an authority, if there is one. -/
def afterAuthority : List Char → List Char
  | '/' :: '/' :: rest => rest.dropWhile (· ≠ '/')
  | text => text

/-- The path component of a URL. -/
def urlPath (url : List Char) : List Char := afterAuthority (afterScheme (beforeQuery url))

/-- A segment of a path that is `.` or `..`. -/
def HasDotSegment (path : List Char) : Prop := ['.'] ∈ path.splitOn '/' ∨ ['.', '.'] ∈ path.splitOn '/'

instance (path : List Char) : Decidable (HasDotSegment path) :=
  inferInstanceAs (Decidable (['.'] ∈ path.splitOn '/' ∨ ['.', '.'] ∈ path.splitOn '/'))

/-- The removal of dot segments: it makes a path shorter that has any, and leaves
all other paths as they are. -/
structure DotRemoval where
  remove : List Char → List Char
  plain : ∀ path, ¬ HasDotSegment path → remove path = path
  shorter : ∀ path, HasDotSegment path → (remove path).length < path.length

/-- The value of a hexadecimal digit in either case. -/
def hexDigit (c : Char) : Option Nat :=
  if '0' ≤ c ∧ c ≤ '9' then some (c.toNat - '0'.toNat)
  else if 'a' ≤ c ∧ c ≤ 'f' then some (c.toNat - 'a'.toNat + 10)
  else if 'A' ≤ c ∧ c ≤ 'F' then some (c.toNat - 'A'.toNat + 10)
  else none

/-- The byte of an escape that starts with a character. -/
def escapedByte (c : Char) (rest : List Char) : Option UInt8 :=
  match rest with
  | first :: second :: _ =>
      if c = '%' then
        (hexDigit first).bind fun high => (hexDigit second).map fun low => UInt8.ofNat (16 * high + low)
      else none
  | _ => none

/-- The text of some bytes, with a replacement for those that are none. -/
structure ByteDecoder where
  decode : List UInt8 → List Char
  length_le : ∀ bytes, (decode bytes).length ≤ bytes.length

/-- Decode the escapes of a text. An escape that follows another one belongs to
the same run of bytes; the count says how many characters are still its own. -/
def unquoteFrom (decoder : ByteDecoder) : Nat → List UInt8 → List Char → List Char
  | _, run, [] => decoder.decode run
  | skipped + 1, run, _ :: rest => unquoteFrom decoder skipped run rest
  | 0, run, c :: rest =>
      match escapedByte c rest with
      | some byte => unquoteFrom decoder 2 (run ++ [byte]) rest
      | none => decoder.decode run ++ c :: unquoteFrom decoder 0 [] rest

/-- `unquote`. -/
def unquote (decoder : ByteDecoder) (text : List Char) : List Char := unquoteFrom decoder 0 [] text

/-- A percent sign and two hexadecimal digits after it. -/
def HasEscape (text : List Char) : Prop :=
  ∃ first second, ((hexDigit first).isSome ∧ (hexDigit second).isSome) ∧ ['%', first, second] <:+: text

section Escapes

variable {decoder : ByteDecoder} {c : Char} {rest text : List Char}

theorem decode_nil : decoder.decode [] = [] :=
  List.eq_nil_of_length_eq_zero (Nat.le_zero.mp (decoder.length_le []))

theorem escapedByte_isSome_iff : (escapedByte c rest).isSome = true ↔
    ∃ first second, ((hexDigit first).isSome ∧ (hexDigit second).isSome) ∧ ['%', first, second] <+: c :: rest := by
  constructor
  · intro h
    unfold escapedByte at h
    split at h
    · next first second tail =>
        split at h
        · next hPercent =>
            rw [Option.isSome_bind, Option.any_eq_true] at h
            obtain ⟨high, hHigh, hLow⟩ := h
            rw [Option.isSome_map] at hLow
            exact ⟨first, second, ⟨by rw [hHigh]; rfl, hLow⟩, by rw [hPercent]; exact ⟨tail, rfl⟩⟩
        · cases h
    · cases h
  · rintro ⟨first, second, ⟨hFirst, hSecond⟩, tail, hTail⟩
    cases hTail
    obtain ⟨high, hHigh⟩ := Option.isSome_iff_exists.mp hFirst
    obtain ⟨low, hLow⟩ := Option.isSome_iff_exists.mp hSecond
    simp [escapedByte, hHigh, hLow]

theorem hasEscape_cons_iff : HasEscape (c :: rest) ↔ (escapedByte c rest).isSome = true ∨ HasEscape rest := by
  unfold HasEscape
  rw [escapedByte_isSome_iff, ← exists_or]
  refine exists_congr fun first => ?_
  rw [← exists_or]
  refine exists_congr fun second => ?_
  rw [List.infix_cons_iff, and_or_left]

theorem not_hasEscape_nil : ¬ HasEscape [] := by
  rintro ⟨first, second, -, h⟩
  cases List.infix_nil.mp h

def findsEscape : List Char → Bool
  | [] => false
  | c :: rest => (escapedByte c rest).isSome || findsEscape rest

theorem hasEscape_iff : HasEscape text ↔ findsEscape text = true := by
  induction text with
  | nil => simp [not_hasEscape_nil, findsEscape]
  | cons c rest ih => rw [hasEscape_cons_iff, findsEscape, Bool.or_eq_true, ih]

instance (text : List Char) : Decidable (HasEscape text) := decidable_of_iff' _ hasEscape_iff

/-- Decoding makes no text longer, and loses what the last escape still owns. -/
theorem length_unquoteFrom_le (decoder : ByteDecoder) (skipped : Nat) (run : List UInt8) (text : List Char) :
    (unquoteFrom decoder skipped run text).length + min skipped text.length ≤ run.length + text.length := by
  induction text generalizing skipped run with
  | nil =>
      have hRun := decoder.length_le run
      simp only [unquoteFrom, List.length_nil]
      omega
  | cons c rest ih =>
      cases skipped with
      | succ skipped =>
          have hRest := ih skipped run
          rw [unquoteFrom, List.length_cons]
          omega
      | zero =>
          rw [unquoteFrom]
          split
          · next byte hByte =>
              have hRest := ih 2 (run ++ [byte])
              rw [List.length_append, List.length_singleton] at hRest
              rw [List.length_cons]
              omega
          · have hRest := ih 0 []
            have hRun := decoder.length_le run
            rw [List.length_nil] at hRest
            rw [List.length_append, List.length_cons, List.length_cons]
            omega

theorem two_le_length_of_escape {byte : UInt8} (h : escapedByte c rest = some byte) : 2 ≤ rest.length := by
  unfold escapedByte at h
  split at h
  · simp
  · cases h

theorem length_unquoteFrom_lt (decoder : ByteDecoder) (h : HasEscape text) (run : List UInt8) :
    (unquoteFrom decoder 0 run text).length < run.length + text.length := by
  induction text generalizing run with
  | nil => exact absurd h not_hasEscape_nil
  | cons c rest ih =>
      rw [unquoteFrom]
      split
      · next byte hByte =>
          have hRest := length_unquoteFrom_le decoder 2 (run ++ [byte]) rest
          have hTwo := two_le_length_of_escape hByte
          rw [List.length_append, List.length_singleton] at hRest
          rw [List.length_cons]
          omega
      · next hNone =>
          have hEscape : HasEscape rest := by
            refine (hasEscape_cons_iff.mp h).resolve_left fun hSome => ?_
            rw [hNone] at hSome
            cases hSome
          have hRest := ih hEscape []
          have hRun := decoder.length_le run
          rw [List.length_nil] at hRest
          rw [List.length_append, List.length_cons, List.length_cons]
          omega

theorem unquoteFrom_plain (h : ¬ HasEscape text) (run : List UInt8) :
    unquoteFrom decoder 0 run text = decoder.decode run ++ text := by
  induction text generalizing run with
  | nil => rw [unquoteFrom, List.append_nil]
  | cons c rest ih =>
      rw [hasEscape_cons_iff, not_or, Option.not_isSome_iff_eq_none] at h
      simp only [unquoteFrom, h.1]
      rw [ih h.2, decode_nil, List.nil_append]

theorem length_unquote_le (text : List Char) : (unquote decoder text).length ≤ text.length := by
  have h := length_unquoteFrom_le decoder 0 [] text
  rw [List.length_nil] at h
  unfold unquote
  omega

/-- Decoding changes a text exactly when there is an escape in it. -/
theorem unquote_eq_self_iff : unquote decoder text = text ↔ ¬ HasEscape text := by
  constructor
  · intro hSame hEscape
    have hShorter := length_unquoteFrom_lt decoder hEscape []
    rw [List.length_nil, Nat.zero_add] at hShorter
    exact hShorter.ne (congrArg List.length hSame)
  · intro h
    rw [unquote, unquoteFrom_plain h, decode_nil, List.nil_append]

/-- A text without percent signs before it neither has nor makes an escape. -/
theorem hasEscape_append_iff {front : List Char} (h : '%' ∉ front) : HasEscape (front ++ text) ↔ HasEscape text := by
  induction front with
  | nil => exact Iff.rfl
  | cons c front ih =>
      rw [List.mem_cons, not_or] at h
      rw [List.cons_append, hasEscape_cons_iff, ih h.2]
      refine or_iff_right fun hSome => ?_
      obtain ⟨first, second, -, tail, hTail⟩ := escapedByte_isSome_iff.mp hSome
      exact h.1 (List.cons.inj hTail).1

end Escapes

section Components

variable {dots : DotRemoval} {path : List Char}

theorem length_remove_le : (dots.remove path).length ≤ path.length := by
  by_cases h : HasDotSegment path
  · exact (dots.shorter path h).le
  · rw [dots.plain path h]

theorem prefix_beforeQuery (url : List Char) : beforeQuery url <+: url :=
  (List.takeWhile_prefix _).trans (List.takeWhile_prefix _)

theorem beforeQuery_eq_self_iff {url : List Char} : beforeQuery url = url ↔ '#' ∉ url ∧ '?' ∉ url := by
  have hKeeps : ∀ mark, url.takeWhile (· ≠ mark) = url ↔ mark ∉ url := by
    intro mark
    rw [List.takeWhile_eq_self_iff]
    simp only [decide_eq_true_eq]
    exact ⟨fun h hMark => h mark hMark rfl, fun h c hc hSame => h (hSame ▸ hc)⟩
  constructor
  · intro hSame
    have hFragment : url.takeWhile (· ≠ '#') = url := by
      refine (List.takeWhile_prefix _).eq_of_length_le ?_
      calc url.length = (beforeQuery url).length := (congrArg List.length hSame).symm
        _ ≤ (url.takeWhile (· ≠ '#')).length := (List.takeWhile_prefix _).length_le
    rw [beforeQuery, hFragment] at hSame
    exact ⟨(hKeeps '#').mp hFragment, (hKeeps '?').mp hSame⟩
  · rintro ⟨hHash, hQuestion⟩
    rw [beforeQuery, (hKeeps '#').mpr hHash, (hKeeps '?').mpr hQuestion]

/-- An authority is followed by a path. -/
theorem urlPath_append {scheme authority rest : List Char} (hScheme : ∀ c ∈ scheme, c ∉ [':', '?', '#'])
    (hAuthority : ∀ c ∈ authority, c ∉ ['/', '?', '#']) :
    urlPath (scheme ++ ':' :: '/' :: '/' :: (authority ++ '/' :: rest)) = beforeQuery ('/' :: rest) := by
  have hFront : ∀ c ∈ scheme ++ ':' :: '/' :: '/' :: authority, c ≠ '#' ∧ c ≠ '?' := by
    intro c hc
    simp only [List.mem_append, List.mem_cons] at hc
    rcases hc with hc | rfl | rfl | rfl | hc
    · have hPlain := hScheme c hc
      simp only [List.mem_cons, not_or] at hPlain
      exact ⟨hPlain.2.2.1, hPlain.2.1⟩
    · decide
    · decide
    · decide
    · have hPlain := hAuthority c hc
      simp only [List.mem_cons, not_or] at hPlain
      exact ⟨hPlain.2.2.1, hPlain.2.1⟩
  have hBefore : beforeQuery (scheme ++ ':' :: '/' :: '/' :: (authority ++ '/' :: rest)) =
      scheme ++ ':' :: '/' :: '/' :: (authority ++ beforeQuery ('/' :: rest)) := by
    have hKept : ∀ text, beforeQuery ((scheme ++ ':' :: '/' :: '/' :: authority) ++ text) =
        (scheme ++ ':' :: '/' :: '/' :: authority) ++ beforeQuery text := by
      intro text
      rw [beforeQuery, List.takeWhile_append_of_pos fun c hc => decide_eq_true (hFront c hc).1,
        List.takeWhile_append_of_pos fun c hc => decide_eq_true (hFront c hc).2, beforeQuery]
    have hRest := hKept ('/' :: rest)
    simpa using hRest
  have hColon : ':' ∉ scheme := fun h => hScheme ':' h List.mem_cons_self
  obtain ⟨tail, hTail⟩ : ∃ tail, beforeQuery ('/' :: rest) = '/' :: tail := ⟨_, rfl⟩
  rw [urlPath, hBefore, afterScheme, splitOnce_append hColon, hTail]
  show (authority ++ '/' :: tail).dropWhile (· ≠ '/') = '/' :: tail
  rw [List.dropWhile_append_of_pos]
  · rfl
  · intro c hc
    have hPlain := hAuthority c hc
    simp only [List.mem_cons, not_or] at hPlain
    exact decide_eq_true hPlain.1

/-- The path that a server takes from a URL whose dot segments the client removes. -/
def servedPath (dots : DotRemoval) (decoder : ByteDecoder) (url : List Char) : List Char :=
  unquote decoder (dots.remove (urlPath url))

/-- A path that was put into a URL is served as it is exactly when it has neither
marks, dot segments nor escapes. -/
theorem servedPath_eq_iff {decoder : ByteDecoder} {url : List Char} (hUrl : urlPath url = beforeQuery path) :
    servedPath dots decoder url = path ↔
      ('#' ∉ path ∧ '?' ∉ path) ∧ ¬ HasDotSegment path ∧ ¬ HasEscape path := by
  rw [← beforeQuery_eq_self_iff, servedPath, hUrl]
  constructor
  · intro hSame
    have hDecoded : path.length ≤ (dots.remove (beforeQuery path)).length := by
      calc path.length = (unquote decoder (dots.remove (beforeQuery path))).length :=
            (congrArg List.length hSame).symm
        _ ≤ (dots.remove (beforeQuery path)).length := length_unquote_le _
    have hQuery : beforeQuery path = path :=
      (prefix_beforeQuery path).eq_of_length_le (hDecoded.trans length_remove_le)
    rw [hQuery] at hDecoded
    have hDot : ¬ HasDotSegment path := fun h => absurd (dots.shorter path h) (not_lt.mpr hDecoded)
    rw [hQuery, dots.plain path hDot, unquote_eq_self_iff] at hSame
    exact ⟨hQuery, hDot, hSame⟩
  · rintro ⟨hQuery, hDot, hEscape⟩
    rw [hQuery, dots.plain path hDot, unquote_eq_self_iff.mpr hEscape]

end Components

section Segments

/-- Go through the segments of a path: `.` is left out, and `..` takes back the
segment before it. -/
def keptSegments : List (List Char) → List (List Char) → List (List Char)
  | kept, [] => kept
  | kept, segment :: rest =>
      if segment = ['.'] then keptSegments kept rest
      else if segment = ['.', '.'] then keptSegments (if kept = [[]] then kept else kept.dropLast) rest
      else keptSegments (kept ++ [segment]) rest

def normalizePath (path : List Char) : List Char :=
  if HasDotSegment path then List.intercalate ['/'] (keptSegments [] (path.splitOn '/')) else path

/-- The characters of some segments, with a slash for each. -/
def segmentsLength (segments : List (List Char)) : Nat := textsLength segments + segments.length

@[simp] theorem segmentsLength_cons (segment : List Char) (segments : List (List Char)) :
    segmentsLength (segment :: segments) = segment.length + 1 + segmentsLength segments := by
  simp only [segmentsLength, textsLength, List.map_cons, List.sum_cons, List.length_cons]
  omega

theorem segmentsLength_concat (segments : List (List Char)) (segment : List Char) :
    segmentsLength (segments ++ [segment]) = segmentsLength segments + segment.length + 1 := by
  simp only [segmentsLength, textsLength, List.map_append, List.map_cons, List.map_nil, List.sum_append,
    List.sum_cons, List.sum_nil, List.length_append, List.length_singleton]
  omega

theorem segmentsLength_dropLast_le (segments : List (List Char)) :
    segmentsLength segments.dropLast ≤ segmentsLength segments := by
  induction segments using List.reverseRecOn with
  | nil => exact Nat.le_refl _
  | append_singleton segments segment ih =>
      rw [List.dropLast_concat, segmentsLength_concat]
      omega

theorem length_joined (segments : List (List Char)) :
    (List.intercalate ['/'] segments).length = segmentsLength segments - 1 := by
  rw [length_intercalate, segmentsLength, List.length_singleton]
  cases segments with
  | nil => rfl
  | cons segment segments =>
      rw [List.length_cons]
      omega

theorem segmentsLength_taken_le (kept : List (List Char)) :
    segmentsLength (if kept = [[]] then kept else kept.dropLast) ≤ segmentsLength kept := by
  split
  · exact Nat.le_refl _
  · exact segmentsLength_dropLast_le kept

theorem segmentsLength_kept_le (kept segments : List (List Char)) :
    segmentsLength (keptSegments kept segments) ≤ segmentsLength kept + segmentsLength segments := by
  induction segments generalizing kept with
  | nil => exact Nat.le_add_right _ _
  | cons segment rest ih =>
      rw [keptSegments, segmentsLength_cons]
      split
      · have hRest := ih kept
        omega
      · split
        · have hRest := ih (if kept = [[]] then kept else kept.dropLast)
          have hTaken := segmentsLength_taken_le kept
          omega
        · have hRest := ih (kept ++ [segment])
          rw [segmentsLength_concat] at hRest
          omega

theorem segmentsLength_kept_lt (kept : List (List Char)) {segments : List (List Char)}
    (h : ['.'] ∈ segments ∨ ['.', '.'] ∈ segments) :
    segmentsLength (keptSegments kept segments) < segmentsLength kept + segmentsLength segments := by
  induction segments generalizing kept with
  | nil => simp at h
  | cons segment rest ih =>
      rw [keptSegments, segmentsLength_cons]
      split
      · have hRest := segmentsLength_kept_le kept rest
        omega
      · next hOne =>
          split
          · have hRest := segmentsLength_kept_le (if kept = [[]] then kept else kept.dropLast) rest
            have hTaken := segmentsLength_taken_le kept
            omega
          · next hTwo =>
              rw [List.mem_cons, List.mem_cons] at h
              have hLater := h.imp (fun hDot => hDot.resolve_left (Ne.symm hOne))
                (fun hDots => hDots.resolve_left (Ne.symm hTwo))
              have hRest := ih (kept ++ [segment]) hLater
              rw [segmentsLength_concat] at hRest
              omega

/-- Dot segments are removed as by going through the segments. -/
def segmentwise : DotRemoval where
  remove := normalizePath
  plain := fun _ h => if_neg h
  shorter := by
    intro path h
    have hKept := segmentsLength_kept_lt [] h
    have hJoined : List.intercalate ['/'] (path.splitOn '/') = path := List.intercalate_splitOn '/'
    have hPath := congrArg List.length hJoined
    have hNone : segmentsLength [] = 0 := rfl
    have hNonempty : 0 < path.length := by
      refine List.length_pos_iff.mpr fun hEmpty => ?_
      rw [hEmpty] at h
      revert h
      decide
    rw [length_joined] at hPath
    rw [normalizePath, if_pos h, length_joined]
    omega

end Segments

end Text
