import Mathlib.Data.Nat.Cast.Basic
import ServicePlatform.Autoscaler.LabelSearch

/-! The part of the parsed metrics that `extract_sample` counts for a service,
and what one line of the text does to it. -/
namespace ServicePlatform.Autoscaler

open Storage Text

variable {V : Type*} {py : PythonText V} {service : String}

/-- The entries that are counted for a service. -/
def counted (service : String) (parsed : ParsedMetrics V) : Dict (List Char) V :=
  (Dict.getD parsed requestsMetric []).filter fun entry => serviceLabel service <:+: entry.1

/-- A line that does not change what is counted. -/
def Inert (py : PythonText V) (service : String) (piece : List Char) : Prop :=
  ∀ result result', parseLine py result piece = some result' → counted service result' = counted service result

section Lines

variable {result result' : ParsedMetrics V} {name labels value line piece front text : List Char} {number : V}

theorem counted_put (h : serviceLabel service <:+: labels) :
    counted service (result.put requestsMetric labels number) =
      Dict.setItem (counted service result) labels number := by
  unfold counted ParsedMetrics.put
  rw [Dict.getD_setItem_self]
  exact Dict.filter_setItem_of h

theorem counted_put_foreign (h : name ≠ requestsMetric) :
    counted service (result.put name labels number) = counted service result := by
  unfold counted ParsedMetrics.put
  rw [Dict.getD_setItem_of_ne h]

theorem counted_put_unlabelled (h : ¬ serviceLabel service <:+: labels) :
    counted service (result.put name labels number) = counted service result := by
  by_cases hName : name = requestsMetric
  · unfold counted ParsedMetrics.put
    rw [hName, Dict.getD_setItem_self]
    exact Dict.filter_setItem h
  · exact counted_put_foreign hName

/-- A line that does not raise is skipped, or sets the value of its labels. -/
theorem parseLine_cases (h : parseLine py result piece = some result') :
    result' = result ∨ ∃ name labels value number, metricFields (strip piece) = some (name, labels, value) ∧
      result' = result.put (strip name) (strip labels) number := by
  simp only [parseLine] at h
  split at h
  · exact Or.inl (Option.some.inj h).symm
  · obtain ⟨⟨name, labels, value⟩, hFields, hResult⟩ := Option.map_eq_some_iff.mp h
    cases hNumber : py.float (strip value) with
    | none =>
        simp only [hNumber] at hResult
        exact Or.inl hResult.symm
    | some number =>
        simp only [hNumber] at hResult
        exact Or.inr ⟨name, labels, value, number, hFields, hResult.symm⟩

/-- The labels are a part of the line behind its first brace. -/
theorem metricFields_cases (h : metricFields line = some (name, labels, value)) :
    labels = [] ∨ ∃ rest, splitOnce '\x7b' line = some (name, rest) ∧ rest = labels ++ '\x7d' :: value := by
  unfold metricFields at h
  split at h
  · next name' rest hSplit =>
      obtain ⟨⟨labels', value'⟩, hParts, hSame⟩ := Option.map_eq_some_iff.mp h
      cases hSame
      exact Or.inr ⟨rest, hSplit, eq_of_rsplitOnce hParts⟩
  · obtain ⟨parts, -, hSame⟩ := Option.map_eq_some_iff.mp h
    cases hSame
    exact Or.inl rfl

theorem serviceLabel_ne_nil : serviceLabel service ≠ [] := List.cons_ne_nil _ _

/-- A line is counted only for labels in which the service is found. -/
theorem inert_of_labels (h : ∀ name labels value, metricFields (strip piece) = some (name, labels, value) →
    strip name = requestsMetric → ¬ serviceLabel service <:+: strip labels) : Inert py service piece := by
  intro result result' hParsed
  rcases parseLine_cases hParsed with rfl | ⟨name, labels, value, number, hFields, rfl⟩
  · rfl
  · by_cases hName : strip name = requestsMetric
    · exact counted_put_unlabelled (h name labels value hFields hName)
    · exact counted_put_foreign hName

theorem inert_of_absent (h : ¬ serviceLabel service <:+: piece) : Inert py service piece := by
  apply inert_of_labels
  intro name labels value hFields _ hFound
  have hLabels := hFound.trans (strip_within labels)
  rcases metricFields_cases hFields with rfl | ⟨rest, hSplit, rfl⟩
  · exact serviceLabel_ne_nil (List.infix_nil.mp hLabels)
  · have hInside : labels <:+: strip piece := by
      rw [eq_of_splitOnce hSplit]
      exact (List.prefix_append labels _).isInfix.trans
        ((List.suffix_cons _ _).trans (List.suffix_append name _)).isInfix
    exact h (hLabels.trans (hInside.trans (strip_within piece)))

/-- The beginning of a line, up to where the service is found. -/
theorem inert_front (hName : PlainWord name) (h : ¬ serviceLabel service <:+: front) :
    Inert py service (name ++ '\x7b' :: front) := by
  apply inert_of_labels
  intro name' labels value hFields _ hFound
  have hLabels := hFound.trans (strip_within labels)
  rcases metricFields_cases hFields with rfl | ⟨rest, hSplit, hRest⟩
  · exact serviceLabel_ne_nil (List.infix_nil.mp hLabels)
  · rw [strip_labelled hName, splitOnce_append (hName.not_sign (by simp))] at hSplit
    cases hSplit
    have hPrefix : labels <+: front.rdropWhile (· ∈ spaces) := hRest ▸ List.prefix_append labels _
    exact h (hLabels.trans (hPrefix.trans (List.rdropWhile_prefix _ _)).isInfix)

/-- What is left of a line behind its last break is counted for the part behind
its first brace. -/
theorem metricFields_tail {tail : List Char} (hName : '\x7b' ∉ name) (hValue : PlainWord value)
    (hTail : tail.dropWhile (· ∈ spaces) = name ++ '\x7b' :: labels) :
    metricFields (strip (tail ++ '\x7d' :: ' ' :: value)) = some (name, labels, ' ' :: value) := by
  have hBack : (' ' :: value).rdropWhile (· ∈ spaces) = ' ' :: value :=
    rdropWhile_append_trimmed hValue.trimmed hValue.1 [' ']
  have hBrace : '\x7d' ∉ ' ' :: value := by
    rw [List.mem_cons, not_or]
    exact ⟨by decide, hValue.not_sign (by simp)⟩
  rw [strip_append_cons (by decide), hBack, hTail, List.append_assoc, List.cons_append]
  unfold metricFields
  rw [splitOnce_append hName]
  simp only [rsplitOnce_append hBrace, Option.map_some]

/-- Such a rest of a line sets a value of the counter. -/
theorem parseLine_tail {tail : List Char} (hName : '\x7b' ∉ name) (hValue : PlainWord value)
    (hTail : tail.dropWhile (· ∈ spaces) = name ++ '\x7b' :: labels) (hMetric : strip name = requestsMetric) :
    parseLine py result (tail ++ '\x7d' :: ' ' :: value) =
      some (match py.float value with
        | some number => result.put requestsMetric (strip labels) number
        | none => result) := by
  have hStart : ¬ (strip (tail ++ '\x7d' :: ' ' :: value) = [] ∨
      (strip (tail ++ '\x7d' :: ' ' :: value)).head? = some '#') := by
    rw [strip_append_cons (by decide), hTail]
    cases name with
    | nil => exact absurd hMetric (by decide)
    | cons d name =>
        rintro (hEmpty | hHash)
        · cases hEmpty
        · cases hHash
          rw [strip_cons (by decide)] at hMetric
          exact absurd (List.cons.inj hMetric).1 (by decide)
  have hBack : strip (' ' :: value) = value := by
    rw [strip_space_cons (by decide), strip_trimmed hValue.trimmed]
  unfold parseLine
  rw [if_neg hStart, metricFields_tail hName hValue hTail, Option.map_some]
  cases hNumber : py.float value with
  | none => simp only [hBack, hNumber]
  | some number => simp only [hBack, hMetric, hNumber]

/-- The rest of a line is not counted, unless the name of the metric is in it. -/
theorem inert_tail {tail : List Char} (hValue : PlainWord value)
    (h : ∀ name labels, tail.dropWhile (· ∈ spaces) = name ++ '\x7b' :: labels → '\x7b' ∉ name →
      strip name = requestsMetric → ¬ serviceLabel service <:+: strip labels) :
    Inert py service (tail ++ '\x7d' :: ' ' :: value) := by
  apply inert_of_labels
  intro name labels value' hFields hName
  by_cases hBrace : '\x7b' ∈ tail.dropWhile (· ∈ spaces)
  · obtain ⟨name', labels', hTail, hFirst⟩ := List.eq_append_cons_of_mem hBrace
    rw [metricFields_tail hFirst hValue hTail] at hFields
    cases hFields
    exact h name labels hTail hFirst hName
  · have hNone : '\x7b' ∉ strip (tail ++ '\x7d' :: ' ' :: value) := by
      intro hMem
      rw [strip_append_cons (by decide)] at hMem
      rcases List.mem_append.mp hMem with hFront | hBack
      · exact hBrace hFront
      · rcases List.mem_cons.mp hBack with hSign | hBack
        · revert hSign
          decide
        · rcases List.mem_cons.mp ((List.rdropWhile_prefix _ _).subset hBack) with hSpace | hMem
          · revert hSpace
            decide
          · exact hValue.not_sign (by simp) hMem
    rcases metricFields_cases hFields with rfl | ⟨rest, hSplit, -⟩
    · exact fun hFound => serviceLabel_ne_nil (List.infix_nil.mp hFound)
    · rw [splitOnce_eq_none hNone] at hSplit
      cases hSplit

theorem inert_comment (text : List Char) : Inert py service ('#' :: text) := by
  intro result result' hParsed
  rw [parseLine_comment] at hParsed
  cases hParsed
  rfl

/-- A whole line of another metric. -/
theorem inert_foreign (hName : PlainWord name) (hOther : name ≠ requestsMetric) (labels : List Char)
    (hValue : PlainWord value) : Inert py service (name ++ '\x7b' :: (labels ++ '\x7d' :: ' ' :: value)) := by
  intro result result' hParsed
  rw [parseLine_sample hName labels hValue] at hParsed
  have hResult := Option.some.inj hParsed
  cases hNumber : py.float value with
  | none =>
      simp only [hNumber] at hResult
      rw [hResult]
  | some number =>
      simp only [hNumber] at hResult
      rw [← hResult, counted_put_foreign hOther]

theorem inert_unlabelled (hName : PlainWord name) (hValue : PlainWord value) :
    Inert py service (name ++ ' ' :: value) := by
  intro result result' hParsed
  rw [parseLine_unlabelled hName hValue] at hParsed
  have hResult := Option.some.inj hParsed
  cases hNumber : py.float value with
  | none =>
      simp only [hNumber] at hResult
      rw [hResult]
  | some number =>
      simp only [hNumber] at hResult
      rw [← hResult, counted_put_unlabelled (fun h => serviceLabel_ne_nil (List.infix_nil.mp h))]

/-- Lines that change nothing, one after the other. -/
theorem counted_foldlM {pieces : List (List Char)} (hInert : ∀ piece ∈ pieces, Inert py service piece)
    (hParsed : pieces.foldlM (parseLine py) result = some result') :
    counted service result' = counted service result := by
  induction pieces generalizing result with
  | nil =>
      cases hParsed
      rfl
  | cons piece pieces ih =>
      obtain ⟨hHere, hRest⟩ := List.forall_mem_cons.mp hInert
      rw [List.foldlM_cons] at hParsed
      obtain ⟨between, hFirst, hLater⟩ := Option.bind_eq_some_iff.mp hParsed
      rw [ih hRest hLater, hHere result between hFirst]

end Lines

section Sums

variable [AddMonoidWithOne V] {parsed : ParsedMetrics V}

theorem extractSample_counted : extractSample py parsed service =
    (counted service parsed).foldl (fun sample entry =>
      ⟨sample.requestsTotal + entry.2,
        if hasServerError py entry.1 then sample.errorTotal + entry.2 else sample.errorTotal⟩) .zero := by
  unfold extractSample counted
  rw [List.foldl_filter]
  simp only [decide_eq_true_eq]

theorem requestsTotal_eq :
    (extractSample py parsed service).requestsTotal = ((counted service parsed).map Prod.snd).sum := by
  have hFrom : ∀ (entries : Dict (List Char) V) (sample : ServiceSample V),
      (entries.foldl (fun sample entry => (⟨sample.requestsTotal + entry.2,
        if hasServerError py entry.1 then sample.errorTotal + entry.2 else sample.errorTotal⟩ : ServiceSample V))
        sample).requestsTotal = sample.requestsTotal + (entries.map Prod.snd).sum := by
    intro entries
    induction entries with
    | nil => exact fun sample => (add_zero _).symm
    | cons entry entries ih =>
        intro sample
        rw [List.foldl_cons, ih, List.map_cons, List.sum_cons, add_assoc]
  rw [extractSample_counted, hFrom]
  exact zero_add _

/-- The sums over the samples of a counter. -/
theorem extractSample_of_counts {counts : Dict RequestLabels Nat}
    (h : counted service parsed = counts.map fun entry => (entry.1.text, (entry.2 : V))) :
    extractSample py parsed service =
      ⟨(Dict.total (fun _ => True) counts : Nat),
        (Dict.total (fun labels => hasServerError py labels.text = true) counts : Nat)⟩ := by
  have hFrom : ∀ n m : Nat, (counts.map fun entry => (entry.1.text, (entry.2 : V))).foldl
      (fun sample entry => (⟨sample.requestsTotal + entry.2,
        if hasServerError py entry.1 then sample.errorTotal + entry.2 else sample.errorTotal⟩ : ServiceSample V))
      ⟨n, m⟩ = ⟨(n + Dict.total (fun _ => True) counts : Nat),
        (m + Dict.total (fun labels => hasServerError py labels.text = true) counts : Nat)⟩ := by
    clear h
    induction counts with
    | nil => exact fun _ _ => rfl
    | cons entry counts ih =>
        intro n m
        have hNext : (⟨(n : V) + entry.2, if hasServerError py entry.1.text then (m : V) + entry.2 else m⟩ :
            ServiceSample V) = ⟨((n + entry.2 : Nat) : V),
              ((m + if hasServerError py entry.1.text then entry.2 else 0 : Nat) : V)⟩ := by
          split <;> simp
        rw [List.map_cons, List.foldl_cons, hNext, ih]
        simp only [Dict.total, List.map_cons, List.sum_cons, if_true, Nat.add_assoc]
  rw [extractSample_counted, h]
  have hZero : (ServiceSample.zero : ServiceSample V) = ⟨(0 : Nat), (0 : Nat)⟩ := by
    simp [ServiceSample.zero]
  rw [hZero, hFrom, Nat.zero_add, Nat.zero_add]

end Sums

end ServicePlatform.Autoscaler
