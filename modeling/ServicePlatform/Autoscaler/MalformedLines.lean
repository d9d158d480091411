import ServicePlatform.Autoscaler.MetricsReadBack

/-! What each line of a text gives to the parsed metrics. A line whose value is
no number is left out, as any other line without a sample, but a line that
lacks a separator ends the parser, and all other lines are lost with it. -/
namespace ServicePlatform.Autoscaler

open Storage Text

variable {V : Type*}

/-- A value with the name and the labels it stands under. -/
structure MetricSample (V : Type*) where
  name : List Char
  labels : List Char
  value : V
  deriving DecidableEq

/-- What a line gives by itself: nothing if it is blank, a comment or malformed. -/
def lineSample (py : PythonText V) (raw : List Char) : Option (MetricSample V) :=
  let line := strip raw
  if line = [] ∨ line.head? = some '#' then none
  else (metricFields line).bind fun fields =>
    (py.float (strip fields.2.2)).map fun value => ⟨strip fields.1, strip fields.2.1, value⟩

/-- The samples put together in order. -/
def merge (samples : List (MetricSample V)) : ParsedMetrics V :=
  samples.foldl (fun result sample => result.put sample.name sample.labels sample.value) []

/-- The line is blank or a comment, or has the separators that it is cut at: a
brace that opens and one that closes after it, or no brace that opens and a space. -/
def Separated (raw : List Char) : Prop :=
  strip raw = [] ∨ (strip raw).head? = some '#' ∨
    '\x7d' ∈ (strip raw).dropWhile (· ≠ '\x7b') ∨ '\x7b' ∉ strip raw ∧ ' ' ∈ strip raw

instance (raw : List Char) : Decidable (Separated raw) := inferInstanceAs (Decidable (_ ∨ _ ∨ _ ∨ _))

section Lines

variable {py : PythonText V} {result : ParsedMetrics V} {raw line : List Char}

/-- Which lines can be cut into fields. -/
theorem metricFields_isSome_iff :
    (metricFields line).isSome = true ↔
      '\x7d' ∈ line.dropWhile (· ≠ '\x7b') ∨ '\x7b' ∉ line ∧ ' ' ∈ line := by
  unfold metricFields
  by_cases hOpen : '\x7b' ∈ line
  · have hCut : line.dropWhile (· ≠ '\x7b') ≠ [] := by
      simpa using hOpen
    obtain ⟨c, rest, hRest⟩ := List.exists_cons_of_ne_nil hCut
    have hFirst : c = '\x7b' := by
      have hHead := List.head_dropWhile_not (p := (· ≠ '\x7b')) hCut
      simp only [hRest, List.head_cons] at hHead
      simpa using hHead
    rw [splitOnce_of_mem hOpen, hRest, hFirst]
    simp [rsplitOnce_isSome_iff, hOpen]
  · have hAll : line.dropWhile (· ≠ '\x7b') = [] := by
      rw [List.dropWhile_eq_nil_iff]
      intro c hc
      have hOther : c ≠ '\x7b' := ne_of_mem_of_not_mem hc hOpen
      simpa using hOther
    rw [splitOnce_eq_none hOpen, hAll]
    simp [rsplitOnce_isSome_iff, hOpen]

theorem separated_iff :
    Separated raw ↔
      (strip raw = [] ∨ (strip raw).head? = some '#') ∨ (metricFields (strip raw)).isSome = true := by
  rw [metricFields_isSome_iff, or_assoc]
  rfl

/-- A line adds its own sample to the result, or raises. -/
theorem parseLine_eq :
    parseLine py result raw =
      if Separated raw then
        some ((lineSample py raw).elim result fun sample => result.put sample.name sample.labels sample.value)
      else none := by
  unfold parseLine lineSample
  by_cases hSkipped : strip raw = [] ∨ (strip raw).head? = some '#'
  · rw [if_pos hSkipped, if_pos hSkipped, if_pos (separated_iff.mpr (Or.inl hSkipped))]
    rfl
  · have hFields : Separated raw ↔ (metricFields (strip raw)).isSome = true :=
      separated_iff.trans (or_iff_right hSkipped)
    simp only [if_neg hSkipped, hFields]
    cases metricFields (strip raw) with
    | none => rfl
    | some fields =>
        rw [Option.isSome_some, if_pos rfl, Option.map_some, Option.bind_some]
        cases py.float (strip fields.2.2) with
        | none => rfl
        | some value => rfl

/-- The parser gives the samples of all lines, unless one of the lines raises. -/
theorem parsePrometheusText_eq (py : PythonText V) (text : List Char) :
    parsePrometheusText py text =
      if ∀ raw ∈ splitlines text, Separated raw then
        some (merge ((splitlines text).filterMap (lineSample py)))
      else none := by
  unfold parsePrometheusText merge
  generalize ([] : ParsedMetrics V) = result
  induction splitlines text generalizing result with
  | nil => simp
  | cons raw lines ih =>
      rw [List.foldlM_cons, parseLine_eq]
      by_cases hHere : Separated raw
      · rw [if_pos hHere]
        simp only [Option.bind_eq_bind, Option.bind_some, List.forall_mem_cons, hHere, true_and]
        rw [ih]
        cases hSample : lineSample py raw with
        | none => rw [List.filterMap_cons_none hSample, Option.elim_none]
        | some sample => rw [List.filterMap_cons_some hSample, Option.elim_some, List.foldl_cons]
      · rw [if_neg hHere, if_neg fun h => hHere (h raw List.mem_cons_self)]
        rfl

end Lines

/-- Malformed lines are skipped, and the parser returns, exactly when every line
that is no blank or comment has its separators. -/
theorem malformed_skipped_iff (py : PythonText V) (text : List Char) :
    parsePrometheusText py text = some (merge ((splitlines text).filterMap (lineSample py))) ↔
      ∀ raw ∈ splitlines text, Separated raw := by
  rw [parsePrometheusText_eq]
  split
  · next hAll => exact iff_of_true rfl hAll
  · next hSome => exact iff_of_false (by simp) hSome

/-- A text whose last line was cut off: the parser raises, and the sample of the
line before is lost. -/
theorem cut_line_raises :
    parsePrometheusText decimalText "requests\x7bservice=\"user\"\x7d 5.0\nrequests\x7bserv".toList = none ∧
    lineSample decimalText "requests\x7bservice=\"user\"\x7d 5.0".toList =
      some ⟨"requests".toList, "service=\"user\"".toList, 5⟩ ∧
    lineSample decimalText "requests\x7bserv".toList = none := by
  decide +kernel

end ServicePlatform.Autoscaler
