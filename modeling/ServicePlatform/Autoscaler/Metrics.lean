import ServicePlatform.Autoscaler.Controller
import ServicePlatform.Kernel.Metrics

/-! How the autoscaler reads `/metrics`: line by line into a dictionary of
dictionaries, and from that the counts of one service. A line without the
separator that it needs raises out of the parser. -/
namespace ServicePlatform.Autoscaler

open Storage Text

/-- `float` on a text, and the decimal digits of the `re` module. -/
structure PythonText (V : Type*) where
  float : List Char → Option V
  decimal : Char → Bool
  decimal_ascii : ∀ c : Char, c.toNat < 128 → decimal c = c.isDigit

variable {V : Type*}

/-- Metric names, and the values under each label text. -/
abbrev ParsedMetrics (V : Type*) := Dict (List Char) (Dict (List Char) V)

/-- The name, the labels and the value of a line. -/
def metricFields (line : List Char) : Option (List Char × List Char × List Char) :=
  match splitOnce '\x7b' line with
  | some (name, rest) => (rsplitOnce '\x7d' rest).map fun parts => (name, parts.1, parts.2)
  | none => (rsplitOnce ' ' line).map fun parts => (parts.1, [], parts.2)

/-- `result.setdefault(name, {})[labels] = value`. -/
def ParsedMetrics.put (result : ParsedMetrics V) (name labels : List Char) (value : V) : ParsedMetrics V :=
  Dict.setItem result name (Dict.setItem (Dict.getD result name []) labels value)

/-- The loop body of `parse_prometheus_text`. -/
def parseLine (py : PythonText V) (result : ParsedMetrics V) (raw : List Char) : Option (ParsedMetrics V) :=
  let line := strip raw
  if line = [] ∨ line.head? = some '#' then some result
  else (metricFields line).map fun fields =>
    match py.float (strip fields.2.2) with
    | some value => result.put (strip fields.1) (strip fields.2.1) value
    | none => result

/-- `parse_prometheus_text`. -/
def parsePrometheusText (py : PythonText V) (text : List Char) : Option (ParsedMetrics V) :=
  (splitlines text).foldlM (parseLine py) []

/-- `status="5\d\d"` at the beginning of the text. -/
def startsServerError (py : PythonText V) (text : List Char) : Bool :=
  "status=\"5".toList.isPrefixOf text &&
    match text.drop 9 with
    | c :: d :: e :: _ => py.decimal c && py.decimal d && e = '"'
    | _ => false

/-- `re.search`. -/
def hasServerError (py : PythonText V) : List Char → Bool
  | [] => false
  | c :: rest => startsServerError py (c :: rest) || hasServerError py rest

/-- `service_label`. -/
def serviceLabel (service : String) : List Char := "service=\"".toList ++ (service.toList ++ ['"'])

/-- `extract_sample`. -/
def extractSample [Zero V] [Add V] (py : PythonText V) (parsed : ParsedMetrics V) (service : String) :
    ServiceSample V :=
  (Dict.getD parsed requestsMetric []).foldl (fun sample entry =>
    if serviceLabel service <:+: entry.1 then
      ⟨sample.requestsTotal + entry.2,
        if hasServerError py entry.1 then sample.errorTotal + entry.2 else sample.errorTotal⟩
    else sample) .zero

section Lines

variable {py : PythonText V} {result result' : ParsedMetrics V} {name labels value front piece : List Char}

/-- The beginning of a line with labels is kept. -/
theorem strip_labelled (hName : PlainWord name) (front : List Char) :
    strip (name ++ '\x7b' :: front) = name ++ '\x7b' :: front.rdropWhile (· ∈ spaces) := by
  obtain ⟨c, name, rfl⟩ := List.exists_cons_of_ne_nil hName.1
  rw [List.cons_append, strip_cons (hName.not_space List.mem_cons_self), rdropWhile_append_cons (by decide)]
  rfl

/-- A line that begins with a name is not skipped. -/
theorem not_skipped (hName : PlainWord name) (rest : List Char) :
    ¬ (name ++ rest = [] ∨ (name ++ rest).head? = some '#') := by
  obtain ⟨c, name, rfl⟩ := List.exists_cons_of_ne_nil hName.1
  have hSign : '#' ∉ c :: name := hName.not_sign (by simp)
  rintro (hEmpty | hHash)
  · cases hEmpty
  · cases hHash
    exact hSign List.mem_cons_self

theorem metricFields_labelled (hName : PlainWord name) (front : List Char) :
    metricFields (name ++ '\x7b' :: front) =
      (rsplitOnce '\x7d' front).map fun parts => (name, parts.1, parts.2) := by
  unfold metricFields
  rw [splitOnce_append (hName.not_sign (by simp))]

theorem parseLine_labelled (hName : PlainWord name) (front : List Char) :
    parseLine py result (name ++ '\x7b' :: front) =
      ((rsplitOnce '\x7d' (front.rdropWhile (· ∈ spaces))).map fun parts =>
        match py.float (strip parts.2) with
        | some value => result.put name (strip parts.1) value
        | none => result) := by
  unfold parseLine
  rw [strip_labelled hName, if_neg (not_skipped hName _), metricFields_labelled hName, Option.map_map]
  simp only [Function.comp_def, strip_trimmed hName.trimmed]

/-- A line that is cut between the braces raises. -/
theorem parseLine_open (hName : PlainWord name) (hOpen : '\x7d' ∉ front) :
    parseLine py result (name ++ '\x7b' :: front) = none := by
  have hRest : '\x7d' ∉ front.rdropWhile (· ∈ spaces) :=
    fun h => hOpen ((List.rdropWhile_prefix _ _).subset h)
  rw [parseLine_labelled hName, rsplitOnce_eq_none hRest]
  rfl

/-- A whole line with labels. -/
theorem parseLine_sample (hName : PlainWord name) (labels : List Char) (hValue : PlainWord value) :
    parseLine py result (name ++ '\x7b' :: (labels ++ '\x7d' :: ' ' :: value)) =
      some (match py.float value with
        | some number => result.put name (strip labels) number
        | none => result) := by
  have hBack : (' ' :: value).rdropWhile (· ∈ spaces) = ' ' :: value :=
    rdropWhile_append_trimmed hValue.trimmed hValue.1 [' ']
  have hStrip : strip (' ' :: value) = value := by
    rw [strip_space_cons (by decide), strip_trimmed hValue.trimmed]
  have hBrace : '\x7d' ∉ ' ' :: value := by
    intro h
    rcases List.mem_cons.mp h with hSpace | hMem
    · revert hSpace
      decide
    · exact hValue.not_sign (by simp) hMem
  rw [parseLine_labelled hName, rdropWhile_append_cons (by decide), hBack, rsplitOnce_append hBrace,
    Option.map_some]
  simp only [hStrip]

/-- A whole line without labels. -/
theorem parseLine_unlabelled (hName : PlainWord name) (hValue : PlainWord value) :
    parseLine py result (name ++ ' ' :: value) =
      some (match py.float value with
        | some number => result.put name [] number
        | none => result) := by
  have hBrace : '\x7b' ∉ name ++ ' ' :: value := by
    intro h
    rcases List.mem_append.mp h with hMem | hMem
    · exact hName.not_sign (by simp) hMem
    · rcases List.mem_cons.mp hMem with hSpace | hMem
      · revert hSpace
        decide
      · exact hValue.not_sign (by simp) hMem
  have hSpace : ' ' ∉ value := fun h => hValue.not_space h (by decide)
  have hFields : metricFields (name ++ ' ' :: value) = some (name, [], value) := by
    unfold metricFields
    rw [splitOnce_eq_none hBrace, rsplitOnce_append hSpace]
    rfl
  have hLine : strip (name ++ ' ' :: value) = name ++ ' ' :: value := by
    obtain ⟨c, name, rfl⟩ := List.exists_cons_of_ne_nil hName.1
    have hc : c ∉ spaces := hName.not_space List.mem_cons_self
    have hBack := rdropWhile_append_trimmed hValue.trimmed hValue.1 (name ++ [' '])
    rw [List.append_assoc, List.singleton_append] at hBack
    rw [List.cons_append, strip_cons hc, hBack]
  unfold parseLine
  simp only [hLine, if_neg (not_skipped hName _), hFields, Option.map_some, strip_trimmed hName.trimmed,
    strip_trimmed hValue.trimmed]
  rfl

theorem parseLine_comment (text : List Char) : parseLine py result ('#' :: text) = some result := by
  unfold parseLine
  rw [strip_cons (by decide)]
  exact if_pos (Or.inr rfl)

end Lines

end ServicePlatform.Autoscaler
