import Mathlib.Algebra.Order.Field.Rat
import ServicePlatform.Autoscaler.ParsedCounts

/-! Whether the autoscaler reads from `/metrics` what the middleware has
counted. The text format separates lines by line feeds alone, but
`str.splitlines` cuts at every line break, also inside a label value. -/
namespace ServicePlatform.Autoscaler

open Storage Text

variable {V : Type*} {py : PythonText V} {write : Nat → List Char} {service : String}
  {requests : List CountedRequest}

/-- No value in the labels has a line break that is written as it is. -/
def Legible (service : String) (requests : List CountedRequest) : Prop :=
  Unbroken service.toList ∧
    ∀ request ∈ requests, Unbroken request.method.toList ∧ Unbroken request.path.toList

/-- A line that belongs to another metric of the service. Its label values have
no unusual line break, unless they are those of the counted requests. -/
def Foreign (service : String) (requests : List CountedRequest) : MetricLine → Prop
  | .comment text => OneLine text
  | .sample sample => PlainWord sample.name ∧ sample.name ≠ requestsMetric ∧ PlainWord sample.value ∧
      ∀ label ∈ sample.labels, OneLine label.1 ∧ (Unbroken label.2 ∨ label.2 = service.toList ∨
        ∃ request ∈ requests, label.2 = request.method.toList ∨ label.2 = metricPath request.path)

/-- Whatever else `/metrics` exports, it is parsed, and the sample of the service
has the numbers of counted and of failed requests. -/
def ReadBack [AddMonoidWithOne V] (py : PythonText V) (write : Nat → List Char) (service : String)
    (requests : List CountedRequest) : Prop :=
  ∀ before after, (∀ line ∈ before ++ after, Foreign service requests line) →
    ∃ parsed, parsePrometheusText py
        (generateLatest write before after (httpRequestsTotal service requests)) = some parsed ∧
      extractSample py parsed service =
        ⟨(requests.length : V), (requests.countP fun request => request.Failed : V)⟩

/-- The line of a sample of the counter. -/
def countLine (write : Nat → List Char) (entry : RequestLabels × Nat) : List Char :=
  (entry.1.sample (write entry.2)).text

/-- The lines that the parser makes of a written line. -/
def pieces (line : List Char) : List (List Char) := splitlines (line ++ ['\n'])

/-- A line that never raises. -/
def Accepted (py : PythonText V) (piece : List Char) : Prop :=
  ∀ result, ∃ result', parseLine py result piece = some result'

section Lines

theorem splitlines_generateLatest (before after : List MetricLine) (counter : Dict RequestLabels Nat) :
    splitlines (generateLatest write before after counter) =
      (before.flatMap fun line => pieces line.text) ++
        (counter.flatMap fun entry => pieces (countLine write entry)) ++ after.flatMap fun line => pieces line.text := by
  unfold generateLatest
  rw [splitlines_flatMap, List.flatMap_append, List.flatMap_append, List.flatMap_map, List.flatMap_map,
    List.flatMap_map]
  rfl

theorem accepted_foldlM {lines : List (List Char)} (h : ∀ piece ∈ lines, Accepted py piece)
    (result : ParsedMetrics V) : ∃ result', lines.foldlM (parseLine py) result = some result' := by
  induction lines generalizing result with
  | nil => exact ⟨result, rfl⟩
  | cons piece lines ih =>
      obtain ⟨hHere, hRest⟩ := List.forall_mem_cons.mp h
      obtain ⟨between, hFirst⟩ := hHere result
      obtain ⟨result', hLater⟩ := ih hRest between
      exact ⟨result', by rw [List.foldlM_cons, hFirst]; exact hLater⟩

theorem pieces_oneLine {line : List Char} (h : OneLine line) : pieces line = [line] := splitlines_line h

/-- A legible line of another metric is one line, is accepted and changes nothing. -/
theorem foreign_line {line : MetricLine} (hLegible : Legible service requests)
    (h : Foreign service requests line) :
    OneLine line.text ∧ Accepted py line.text ∧ Inert py service line.text := by
  cases line with
  | comment text =>
      have hLine : OneLine ('#' :: text) := oneLine_cons.mpr ⟨by decide, h⟩
      exact ⟨hLine, fun result => ⟨result, parseLine_comment text⟩, inert_comment text⟩
  | sample sample =>
      obtain ⟨hName, hOther, hValue, hLabels⟩ := h
      have hLabelTexts : ∀ label ∈ sample.labels, OneLine (labelText label.1 label.2) := by
        intro label hLabel
        have hUnbroken : Unbroken label.2 := by
          rcases (hLabels label hLabel).2 with hPlain | hService | ⟨request, hRequest, hMethod | hPath⟩
          · exact hPlain
          · exact hService ▸ hLegible.1
          · exact hMethod ▸ (hLegible.2 request hRequest).1
          · exact hPath ▸ (unbroken_metricPath request.path).mpr (hLegible.2 request hRequest).2
        have hSigns : OneLine ['=', '"'] ∧ OneLine ['"'] := by decide
        simp only [labelText, oneLine_append]
        exact ⟨⟨⟨(hLabels label hLabel).1, hSigns.1⟩, oneLine_escapeLabel.mpr hUnbroken⟩, hSigns.2⟩
      have hText : OneLine sample.labelsText :=
        oneLine_intercalate (by decide) (List.forall_mem_map.mpr hLabelTexts)
      have hSigns : '\x7b' ∉ lineBreaks ∧ '\x7d' ∉ lineBreaks ∧ ' ' ∉ lineBreaks := by decide
      obtain ⟨hOpen, hClose, hSpace⟩ := hSigns
      show OneLine sample.text ∧ Accepted py sample.text ∧ Inert py service sample.text
      unfold MetricSample.text
      split
      · refine ⟨?_, fun result => ⟨_, parseLine_unlabelled hName hValue⟩, inert_unlabelled hName hValue⟩
        exact oneLine_append.mpr ⟨hName.oneLine, oneLine_cons.mpr ⟨hSpace, hValue.oneLine⟩⟩
      · refine ⟨?_, fun result => ⟨_, parseLine_sample hName sample.labelsText hValue⟩,
          inert_foreign hName hOther sample.labelsText hValue⟩
        simp only [oneLine_append, oneLine_cons]
        exact ⟨hName.oneLine, hOpen, hText, hClose, hSpace, hValue.oneLine⟩

theorem foreign_pieces {lines : List MetricLine} (hLegible : Legible service requests)
    (h : ∀ line ∈ lines, Foreign service requests line) {piece : List Char}
    (hPiece : piece ∈ lines.flatMap fun line => pieces line.text) :
    Accepted py piece ∧ Inert py service piece := by
  obtain ⟨line, hLine, hPiece⟩ := List.mem_flatMap.mp hPiece
  have hForeign : OneLine line.text ∧ Accepted py line.text ∧ Inert py service line.text :=
    foreign_line hLegible (h line hLine)
  obtain ⟨hOneLine, hAccepted, hInert⟩ := hForeign
  rw [pieces_oneLine hOneLine, List.mem_singleton] at hPiece
  rw [hPiece]
  exact ⟨hAccepted, hInert⟩

end Lines

section Counter

variable [AddMonoidWithOne V] {result result' parsed : ParsedMetrics V} {counts : Dict RequestLabels Nat}

/-- Numbers are written as plain words, and `float` reads them back. -/
def Exact (py : PythonText V) (write : Nat → List Char) : Prop :=
  ∀ n, PlainWord (write n) ∧ py.float (write n) = some (n : V)

/-- The label text of a request has no spaces around it. -/
theorem strip_text (labels : RequestLabels) : strip labels.text = labels.text := by
  apply strip_trimmed
  rw [text_eq]
  constructor
  · intro c hc
    cases hc
    decide
  · intro c hc
    simp only [List.getLast?_append, List.getLast?_cons] at hc
    have hQuote : c = '"' := by
      simpa using hc.symm
    rw [hQuote]
    decide

theorem oneLine_countLine (hWrite : Exact py write) {entry : RequestLabels × Nat} (h : OneLine entry.1.text) :
    OneLine (countLine write entry) := by
  have hSigns : '\x7b' ∉ lineBreaks ∧ '\x7d' ∉ lineBreaks ∧ ' ' ∉ lineBreaks := by decide
  obtain ⟨hOpen, hClose, hSpace⟩ := hSigns
  unfold countLine
  rw [sample_text]
  simp only [oneLine_append, oneLine_cons]
  exact ⟨plainWord_requestsMetric.oneLine, hOpen, h, hClose, hSpace, (hWrite entry.2).1.oneLine⟩

theorem parseLine_countLine (hWrite : Exact py write) (entry : RequestLabels × Nat) :
    parseLine py result (countLine write entry) = some (result.put requestsMetric entry.1.text (entry.2 : V)) := by
  unfold countLine
  rw [sample_text, parseLine_sample plainWord_requestsMetric entry.1.text (hWrite entry.2).1, (hWrite entry.2).2,
    strip_text]

/-- The counted entries after the lines of the counter: those on one line, if
the pieces of the others change nothing. -/
theorem counted_counts (hWrite : Exact py write)
    (hLabel : ∀ entry ∈ counts, serviceLabel service <:+: entry.1.text)
    (hBroken : ∀ entry ∈ counts, ¬ OneLine entry.1.text →
      ∀ piece ∈ pieces (countLine write entry), Inert py service piece)
    (hParsed : (counts.flatMap fun entry => pieces (countLine write entry)).foldlM (parseLine py) result =
      some result') :
    counted service result' = (counts.filter fun entry => OneLine entry.1.text).foldl
      (fun d entry => Dict.setItem d entry.1.text (entry.2 : V)) (counted service result) := by
  induction counts generalizing result with
  | nil =>
      cases hParsed
      rfl
  | cons entry counts ih =>
      obtain ⟨hHere, hLabels⟩ := List.forall_mem_cons.mp hLabel
      obtain ⟨hInert, hOthers⟩ := List.forall_mem_cons.mp hBroken
      rw [List.flatMap_cons, List.foldlM_append] at hParsed
      obtain ⟨between, hFirst, hLater⟩ := Option.bind_eq_some_iff.mp hParsed
      rw [ih hLabels hOthers hLater]
      by_cases hLine : OneLine entry.1.text
      · rw [pieces_oneLine (oneLine_countLine hWrite hLine), List.foldlM_cons,
          parseLine_countLine hWrite] at hFirst
        cases hFirst
        rw [List.filter_cons_of_pos (by simpa using hLine), List.foldl_cons, counted_put hHere]
      · rw [List.filter_cons_of_neg (by simpa using hLine), counted_foldlM (hInert hLine) hFirst]

/-- The sample of the service when all requests on one line are counted. -/
theorem extractSample_of_counted
    (h : counted service parsed =
      ((httpRequestsTotal service requests).filter fun entry => OneLine entry.1.text).foldl
        (fun d entry => Dict.setItem d entry.1.text (entry.2 : V)) []) :
    extractSample py parsed service =
      ⟨(requests.countP fun request => OneLine (request.labels service).text : Nat),
        (requests.countP fun request => OneLine (request.labels service).text ∧ request.Failed : Nat)⟩ := by
  have hKeys : (((httpRequestsTotal service requests).filter fun entry => OneLine entry.1.text).map
      fun entry => entry.1.text).Nodup := by
    have hNodup := Dict.nodup_tally (requests.map (CountedRequest.labels service))
    have hKept := hNodup.sublist ((List.filter_sublist (p := fun entry => OneLine entry.1.text)).map Prod.fst)
    have hTexts := hKept.map (f := RequestLabels.text) fun a b hSame => text_inj.mp hSame
    rw [List.map_map] at hTexts
    exact hTexts
  rw [Dict.foldl_setItem _ _ hKeys (fun _ _ => by simp), List.nil_append] at h
  rw [extractSample_of_counts h]
  unfold httpRequestsTotal
  have hFailed : ∀ request : CountedRequest,
      hasServerError py (request.labels service).text = true ↔ request.Failed := hasServerError_text py service
  rw [Dict.total_filter fun labels : RequestLabels => OneLine labels.text,
    Dict.total_filter fun labels : RequestLabels => OneLine labels.text, Dict.total_tally, Dict.total_tally,
    List.countP_map, List.countP_map]
  simp only [Function.comp_def, and_true, hFailed]

theorem labels_of_mem {entry : RequestLabels × Nat} (h : entry ∈ httpRequestsTotal service requests) :
    ∃ request ∈ requests, request.labels service = entry.1 := by
  have hKey := Dict.mem_tally.mp (List.mem_map_of_mem (f := Prod.fst) h)
  exact List.mem_map.mp hKey

/-- Without unusual line breaks the sample of the service is exact. -/
theorem readBack_of_legible (hWrite : Exact py write) (hService : Unescaped service.toList)
    (hLegible : Legible service requests) : ReadBack py write service requests := by
  intro before after hForeign
  have hLines : ∀ request ∈ requests, OneLine (request.labels service).text := by
    intro request hRequest
    obtain ⟨hMethod, hPath⟩ := hLegible.2 request hRequest
    exact oneLine_text_iff.mpr ⟨hLegible.1, hMethod, (unbroken_metricPath request.path).mpr hPath⟩
  have hEntries : ∀ entry ∈ httpRequestsTotal service requests,
      OneLine entry.1.text ∧ serviceLabel service <:+: entry.1.text := by
    intro entry hEntry
    obtain ⟨request, hRequest, hLabels⟩ := labels_of_mem hEntry
    rw [← hLabels]
    exact ⟨hLines request hRequest, serviceLabel_found hService request⟩
  have hBefore : ∀ piece ∈ before.flatMap fun line => pieces line.text,
      Accepted py piece ∧ Inert py service piece :=
    fun piece => foreign_pieces hLegible fun line hLine => hForeign line (List.mem_append_left after hLine)
  have hAfter : ∀ piece ∈ after.flatMap fun line => pieces line.text,
      Accepted py piece ∧ Inert py service piece :=
    fun piece => foreign_pieces hLegible fun line hLine => hForeign line (List.mem_append_right before hLine)
  have hCounts : ∀ piece ∈ (httpRequestsTotal service requests).flatMap
      fun entry => pieces (countLine write entry), Accepted py piece := by
    intro piece hPiece
    obtain ⟨entry, hEntry, hPiece⟩ := List.mem_flatMap.mp hPiece
    rw [pieces_oneLine (oneLine_countLine hWrite (hEntries entry hEntry).1), List.mem_singleton] at hPiece
    rw [hPiece]
    exact fun result => ⟨_, parseLine_countLine hWrite entry⟩
  obtain ⟨first, hFirst⟩ := accepted_foldlM (fun piece hPiece => (hBefore piece hPiece).1) []
  obtain ⟨second, hSecond⟩ := accepted_foldlM hCounts first
  obtain ⟨parsed, hLast⟩ := accepted_foldlM (fun piece hPiece => (hAfter piece hPiece).1) second
  refine ⟨parsed, ?_, ?_⟩
  · unfold parsePrometheusText
    rw [splitlines_generateLatest, List.foldlM_append, List.foldlM_append, hFirst]
    simp only [Option.bind_eq_bind, Option.bind_some, hSecond, hLast]
  · have hCounted := counted_counts hWrite (fun entry hEntry => (hEntries entry hEntry).2)
      (fun entry hEntry hBroken => absurd (hEntries entry hEntry).1 hBroken) hSecond
    rw [counted_foldlM (fun piece hPiece => (hBefore piece hPiece).2) hFirst] at hCounted
    rw [← counted_foldlM (fun piece hPiece => (hAfter piece hPiece).2) hLast] at hCounted
    rw [extractSample_of_counted hCounted]
    have hAll : (requests.countP fun request => OneLine (request.labels service).text) = requests.length := by
      rw [List.countP_eq_length]
      exact fun request hRequest => decide_eq_true (hLines request hRequest)
    have hErrors : (requests.countP fun request => OneLine (request.labels service).text ∧ request.Failed) =
        requests.countP fun request => request.Failed := by
      apply List.countP_congr
      intro request hRequest
      simp [hLines request hRequest]
    rw [hAll, hErrors]

end Counter

section Broken

variable {request : CountedRequest} {n : Nat}

/-- What is left of the labels behind their last line break reads like the
beginning of a line of the counter. -/
def Recounted (service : String) (labels : RequestLabels) : Prop :=
  ∃ front c tail name rest, labels.text = front ++ c :: tail ∧ c ∈ lineBreaks ∧ OneLine tail ∧
    tail.dropWhile (· ∈ spaces) = name ++ '\x7b' :: rest ∧ '\x7b' ∉ name ∧ strip name = requestsMetric ∧
    serviceLabel service <:+: strip rest

/-- The last piece of a written line. -/
theorem pieces_last {name front tail value : List Char} {c : Char} (hc : c ∈ lineBreaks) (hTail : OneLine tail)
    (hValue : PlainWord value) :
    pieces (name ++ '\x7b' :: (front ++ c :: (tail ++ '\x7d' :: ' ' :: value))) =
      splitlines (name ++ '\x7b' :: (front ++ [c])) ++ [tail ++ '\x7d' :: ' ' :: value] := by
  have hLast : OneLine (tail ++ '\x7d' :: ' ' :: value) := by
    simp only [oneLine_append, oneLine_cons]
    exact ⟨hTail, by decide, by decide, hValue.oneLine⟩
  have hWhole := splitlinesFrom_last hc hLast (by simp) false [] (name ++ '\x7b' :: front)
  unfold pieces splitlines
  rw [List.append_assoc, List.cons_append] at hWhole
  simpa using hWhole

/-- The labels in front of the service, and the others, which have no break. -/
theorem text_split (hLegible : Unbroken service.toList) (request : CountedRequest) :
    ∃ back, OneLine back ∧ (request.labels service).text =
      "method=\"".toList ++ (escapeLabel request.method.toList ++ '"' :: (",path=\"".toList ++
        (escapeLabel (metricPath request.path) ++ '"' :: []))) ++ back := by
  refine ⟨",service=\"".toList ++ (escapeLabel service.toList ++ '"' ::
    (",status=\"".toList ++ (escapeLabel (request.labels service).status ++ '"' :: []))), ?_, ?_⟩
  · have hSigns : OneLine ",service=\"".toList ∧ OneLine ",status=\"".toList ∧ '"' ∉ lineBreaks ∧
        OneLine [] := by decide
    simp only [oneLine_append, oneLine_cons]
    exact ⟨hSigns.1, oneLine_escapeLabel.mpr hLegible, hSigns.2.2.1, hSigns.2.1, oneLine_status, hSigns.2.2.1,
      hSigns.2.2.2⟩
  · rw [text_eq]
    simp only [List.append_assoc, List.cons_append, List.nil_append]
    rfl

theorem foldlM_raises {lines : List (List Char)} {piece : List Char} (hPiece : piece ∈ lines)
    (hRaises : ∀ result, parseLine py result piece = none) (result : ParsedMetrics V) :
    lines.foldlM (parseLine py) result = none := by
  induction lines generalizing result with
  | nil => cases hPiece
  | cons first lines ih =>
      rw [List.foldlM_cons]
      rcases List.mem_cons.mp hPiece with rfl | hLater
      · rw [hRaises]
        rfl
      · cases parseLine py result first with
        | none => rfl
        | some between => exact ih hLater between

/-- One request with a break in front of the first closing brace is enough to
stop the parser. -/
theorem parse_raises (hRequest : request ∈ requests) {front rest : List Char} {c : Char}
    (hText : (request.labels service).text = front ++ c :: rest) (hFront : OneLine front) (hOpen : '\x7d' ∉ front)
    (hc : c ∈ lineBreaks) (before after : List MetricLine) :
    parsePrometheusText py (generateLatest write before after (httpRequestsTotal service requests)) = none := by
  have hKey : request.labels service ∈ (httpRequestsTotal service requests).map Prod.fst :=
    Dict.mem_tally.mpr (List.mem_map_of_mem hRequest)
  obtain ⟨⟨_, n⟩, hEntry, rfl⟩ := List.mem_map.mp hKey
  have hStart : OneLine (requestsMetric ++ '\x7b' :: front) :=
    oneLine_append.mpr ⟨plainWord_requestsMetric.oneLine, oneLine_cons.mpr ⟨by decide, hFront⟩⟩
  have hPiece : requestsMetric ++ '\x7b' :: front ∈ pieces (countLine write (request.labels service, n)) := by
    have hMem := mem_splitlines_of_break hStart hc (rest ++ '\x7d' :: ' ' :: write n ++ ['\n'])
    unfold pieces countLine
    rw [sample_text, hText]
    simpa using hMem
  unfold parsePrometheusText
  apply foldlM_raises _ fun result => parseLine_open plainWord_requestsMetric hOpen
  rw [splitlines_generateLatest]
  exact List.mem_append_left _ (List.mem_append_right _ (List.mem_flatMap.mpr ⟨_, hEntry, hPiece⟩))

/-- A service name with a break is found in no line that is read. -/
theorem inert_broken_service (hBroken : ¬ Unbroken service.toList) {line piece : List Char}
    (hPiece : piece ∈ pieces line) : Inert py service piece := by
  apply inert_of_absent
  intro hFound
  have hPieceLine : OneLine piece := oneLine_of_mem (List.forall_mem_nil _) hPiece
  have hLabelLine : OneLine (serviceLabel service) := fun c hc => hPieceLine c (hFound.subset hc)
  unfold serviceLabel at hLabelLine
  have hServiceLine : OneLine service.toList := (oneLine_append.mp (oneLine_append.mp hLabelLine).2).1
  exact hBroken fun c hc hBreak => absurd hBreak (hServiceLine c hc)

/-- With a break in front of the service, only the last piece can be counted. -/
theorem inert_broken_request (hLegible : Unbroken service.toList) (hService : Unescaped service.toList)
    (hName : service ≠ ",path=") (hBroken : ¬ OneLine (request.labels service).text)
    (hNone : ¬ Recounted service (request.labels service)) (hValue : PlainWord (write n)) {piece : List Char}
    (hPiece : piece ∈ pieces (countLine write (request.labels service, n))) : Inert py service piece := by
  obtain ⟨back, hBack, hText⟩ := text_split hLegible request
  have hNotFound := serviceLabel_absent request.method.toList (metricPath request.path) hService hName
  have hFront : ¬ OneLine ("method=\"".toList ++ (escapeLabel request.method.toList ++ '"' :: (",path=\"".toList ++
      (escapeLabel (metricPath request.path) ++ '"' :: [])))) := by
    intro hFront
    rw [hText] at hBroken
    exact hBroken (oneLine_append.mpr ⟨hFront, hBack⟩)
  obtain ⟨front, c, tail, hCut, hc, hTail⟩ := exists_last_break hFront
  rw [hCut] at hNotFound hText
  rw [List.append_assoc, List.cons_append] at hText
  have hRest : OneLine (tail ++ back) := oneLine_append.mpr ⟨hTail, hBack⟩
  have hHead : ¬ serviceLabel service <:+: front ++ [c] := by
    intro hFound
    exact hNotFound (hFound.trans ⟨[], tail, by simp⟩)
  have hLine : countLine write (request.labels service, n) =
      requestsMetric ++ '\x7b' :: (front ++ c :: ((tail ++ back) ++ '\x7d' :: ' ' :: write n)) := by
    unfold countLine
    rw [sample_text, hText, List.append_assoc, List.cons_append]
  rw [hLine, pieces_last hc hRest hValue] at hPiece
  rcases List.mem_append.mp hPiece with hEarlier | hLast
  · have hStart : OneLine (requestsMetric ++ ['\x7b']) := by decide
    rw [List.append_cons, splitlines, splitlinesFrom_oneLine hStart] at hEarlier
    rcases piece_of_mem hEarlier with ⟨begun, hBegun, rfl⟩ | hInside
    · rw [List.nil_append, List.append_assoc, List.singleton_append]
      apply inert_front plainWord_requestsMetric
      exact fun hFound => hHead (hFound.trans hBegun.isInfix)
    · exact inert_of_absent fun hFound => hHead (hFound.trans hInside)
  · rw [List.mem_singleton.mp hLast]
    apply inert_tail hValue
    intro name rest hSame hFirst hMetric hFound
    exact hNone ⟨front, c, tail ++ back, name, rest, hText, hc, hRest, hSame, hFirst, hMetric, hFound⟩

/-- The pieces of a broken line are not counted, unless the last one reads like
a line of the counter. -/
theorem inert_broken (hService : Unescaped service.toList) (hName : service ≠ ",path=")
    (hBroken : ¬ OneLine (request.labels service).text) (hNone : ¬ Recounted service (request.labels service))
    (hValue : PlainWord (write n)) :
    ∀ piece ∈ pieces (countLine write (request.labels service, n)), Inert py service piece := by
  intro piece hPiece
  by_cases hLegible : Unbroken service.toList
  · exact inert_broken_request hLegible hService hName hBroken hNone hValue hPiece
  · exact inert_broken_service hLegible hPiece

/-- `http_requests_created`. -/
def createdMetric : List Char := "http_requests_created".toList

/-- A sample of another metric with the labels of a counted request. -/
def createdSample (labels : RequestLabels) (value : List Char) : MetricSample where
  name := createdMetric
  labels := (labels.sample []).labels
  value := value

theorem text_createdSample (labels : RequestLabels) (value : List Char) :
    (createdSample labels value).text =
      createdMetric ++ '\x7b' :: (labels.text ++ '\x7d' :: ' ' :: value) := by
  have hLabels : (createdSample labels value).labelsText = labels.text := by
    unfold RequestLabels.text MetricSample.labelsText
    simp only [createdSample]
  have hSome : (createdSample labels value).labels ≠ [] := List.cons_ne_nil _ _
  rw [MetricSample.text, if_neg hSome, hLabels]
  rfl

theorem plainWord_created : PlainWord createdMetric ∧ createdMetric ≠ requestsMetric := by
  unfold PlainWord
  decide

theorem foreign_createdSample (hRequest : request ∈ requests) {value : List Char} (hValue : PlainWord value) :
    Foreign service requests (.sample (createdSample (request.labels service) value)) := by
  refine ⟨plainWord_created.1, plainWord_created.2, hValue, ?_⟩
  have hState : Unbroken (request.labels service).status := oneLine_escapeLabel.mp oneLine_status
  have hWords : OneLine "method".toList ∧ OneLine "path".toList ∧ OneLine "service".toList ∧
      OneLine "status".toList := by decide
  obtain ⟨hMethod, hPath, hService, hStatus⟩ := hWords
  show ∀ label ∈ [("method".toList, request.method.toList), ("path".toList, metricPath request.path),
    ("service".toList, service.toList), ("status".toList, (request.labels service).status)], _
  rw [List.forall_mem_cons, List.forall_mem_cons, List.forall_mem_cons, List.forall_mem_cons]
  exact ⟨⟨hMethod, Or.inr (Or.inr ⟨request, hRequest, Or.inl rfl⟩)⟩,
    ⟨hPath, Or.inr (Or.inr ⟨request, hRequest, Or.inr rfl⟩)⟩, ⟨hService, Or.inr (Or.inl rfl)⟩,
    ⟨hStatus, Or.inl hState⟩, List.forall_mem_nil _⟩

end Broken

section Exact

variable [AddCommGroupWithOne V] [CharZero V] {request : CountedRequest}

/-- Labels that read like a line of the counter let the value of another sample
count for the service. -/
theorem not_recounted_of_readBack (hWrite : Exact py write) (hRead : ReadBack py write service requests)
    (hRequest : request ∈ requests) : ¬ Recounted service (request.labels service) := by
  rintro ⟨front, c, tail, name, rest, hText, hc, hTail, hSame, hFirst, hMetric, hFound⟩
  have hSum : ∀ n : Nat, ∃ parsed, ((httpRequestsTotal service requests).flatMap
      (fun entry => pieces (countLine write entry)) ++
        splitlines (createdMetric ++ '\x7b' :: (front ++ [c]))).foldlM (parseLine py) [] =
          some parsed ∧
      ((Dict.setItem (counted service parsed) (strip rest) (n : V)).map Prod.snd).sum = requests.length := by
    intro n
    have hValue := (hWrite n).1
    obtain ⟨parsed, hParsed, hSample⟩ := hRead [] [.sample (createdSample (request.labels service) (write n))]
      (by simpa using foreign_createdSample hRequest hValue)
    have hLine : (MetricLine.sample (createdSample (request.labels service) (write n))).text =
        createdMetric ++ '\x7b' :: (front ++ c :: (tail ++ '\x7d' :: ' ' :: write n)) := by
      rw [MetricLine.text, text_createdSample, hText, List.append_assoc, List.cons_append]
    unfold parsePrometheusText at hParsed
    rw [splitlines_generateLatest, List.flatMap_cons, List.flatMap_nil, List.append_nil, hLine,
      pieces_last hc hTail hValue, List.nil_append, ← List.append_assoc, List.foldlM_append] at hParsed
    obtain ⟨between, hEarlier, hLast⟩ := Option.bind_eq_some_iff.mp hParsed
    refine ⟨between, hEarlier, ?_⟩
    rw [List.foldlM_cons, parseLine_tail hFirst hValue hSame hMetric, (hWrite n).2] at hLast
    have hTotal : (extractSample py parsed service).requestsTotal = ((counted service parsed).map Prod.snd).sum :=
      requestsTotal_eq
    rw [hSample, ← Option.some.inj hLast, counted_put hFound] at hTotal
    exact hTotal.symm
  obtain ⟨parsed, hParsed, hZero⟩ := hSum 0
  obtain ⟨parsed', hParsed', hOne⟩ := hSum 1
  rw [hParsed] at hParsed'
  cases hParsed'
  obtain ⟨others, hOthers⟩ := Dict.sum_setItem (counted service parsed) (strip rest)
  rw [hOthers] at hZero hOne
  have hSame := hZero.trans hOne.symm
  have hEqual : ((0 : Nat) : V) = ((1 : Nat) : V) := add_left_cancel hSame
  exact absurd (Nat.cast_injective hEqual) (by decide)

/-- The sample of the service is exact, whatever other lines are exported, when no
method, path or service name has an unusual line break. With one in the labels of a
counted request it is not. This leaves out a service of the name `,path=`, which reads
like the text between two labels. -/
theorem read_back_iff (hWrite : Exact py write) (hService : Unescaped service.toList) :
    (Legible service requests → ReadBack py write service requests) ∧
      (service ≠ ",path=" → ReadBack py write service requests →
        ∀ request ∈ requests, Legible service [request]) := by
  refine ⟨readBack_of_legible hWrite hService, fun hName hRead request hRequest => ?_⟩
  obtain ⟨parsed, hParsed, hSample⟩ := hRead [] [] (by simp)
  unfold parsePrometheusText at hParsed
  rw [splitlines_generateLatest, List.flatMap_nil, List.nil_append, List.append_nil] at hParsed
  have hCounted := counted_counts hWrite
    (fun entry hEntry => by
      obtain ⟨request, -, hLabels⟩ := labels_of_mem hEntry
      exact hLabels ▸ serviceLabel_found hService request)
    (fun entry hEntry hBroken => by
      obtain ⟨request, hRequest, hLabels⟩ := labels_of_mem hEntry
      obtain ⟨labels, n⟩ := entry
      cases hLabels
      exact inert_broken hService hName hBroken (not_recounted_of_readBack hWrite hRead hRequest) (hWrite n).1)
    hParsed
  rw [extractSample_of_counted hCounted] at hSample
  have hCount : (requests.countP fun request => OneLine (request.labels service).text) = requests.length :=
    Nat.cast_injective (ServiceSample.mk.inj hSample).1
  rw [List.countP_eq_length] at hCount
  have hLine : OneLine (request.labels service).text := of_decide_eq_true (hCount request hRequest)
  obtain ⟨hLegible, hMethod, hPath⟩ := oneLine_text_iff.mp hLine
  refine ⟨hLegible, fun other hOther => ?_⟩
  rw [List.mem_singleton.mp hOther]
  exact ⟨hMethod, (unbroken_metricPath request.path).mp hPath⟩

/-- Counts are written with a fraction, as floats are. -/
def writeDecimal (n : Nat) : List Char := Nat.toDigits 10 n ++ ['.', '0']

/-- A reader of such numbers. -/
def decimalText : PythonText ℚ where
  float text :=
    let digits := text.takeWhile Char.isDigit
    if digits ≠ [] ∧ text.drop digits.length = ['.', '0'] then some (Nat.ofDigitChars 10 digits 0 : Nat)
    else none
  decimal := Char.isDigit
  decimal_ascii _ _ := rfl

theorem exact_writeDecimal : Exact decimalText writeDecimal := by
  intro n
  have hDigits : ∀ c ∈ Nat.toDigits 10 n, c.isDigit = true :=
    fun _ hc => Nat.isDigit_of_mem_toDigits (by decide) (by decide) hc
  have hNonempty : Nat.toDigits 10 n ≠ [] := Nat.toDigits_ne_nil
  refine ⟨⟨by simp [writeDecimal], ?_⟩, ?_⟩
  · intro c hc
    have hOthers : ∀ d ∈ spaces ++ ['\x7b', '\x7d', '#'], d.isDigit = false := by decide
    have hFraction : ∀ d ∈ ['.', '0'], d ∉ spaces ∧ d ∉ ['\x7b', '\x7d', '#'] := by decide
    rcases List.mem_append.mp hc with hDigit | hEnd
    · have hNone : c ∉ spaces ++ ['\x7b', '\x7d', '#'] :=
        fun hMem => not_mem_of_digits hDigits (hOthers c hMem) hDigit
      exact not_or.mp fun hMem => hNone (List.mem_append.mpr hMem)
    · exact hFraction c hEnd
  · have hTake : (writeDecimal n).takeWhile Char.isDigit = Nat.toDigits 10 n := by
      rw [writeDecimal, List.takeWhile_append_of_pos hDigits]
      simp
    show (if (writeDecimal n).takeWhile Char.isDigit ≠ [] ∧
      (writeDecimal n).drop ((writeDecimal n).takeWhile Char.isDigit).length = ['.', '0'] then _ else _) = _
    rw [hTake, if_pos ⟨hNonempty, List.drop_left⟩, Nat.ofDigitChars_ten_toDigits]

/-- A path with line feeds, quotes, braces and spaces is read back. -/
theorem read_back_iff_quoted :
    ReadBack decimalText writeDecimal "users" [⟨"GET", "/a\n\x7bb=\"c\" \x7d,status=\"500\"", some 503⟩] ∧
      Legible "users" [⟨"GET", "/a\n\x7bb=\"c\" \x7d,status=\"500\"", some 503⟩] := by
  have hService : Unescaped "users".toList := by
    unfold Unescaped
    decide
  have hLegible : Legible "users" [⟨"GET", "/a\n\x7bb=\"c\" \x7d,status=\"500\"", some 503⟩] := by
    unfold Legible Unbroken
    decide
  have hRead := (read_back_iff exact_writeDecimal hService).1 hLegible
  exact ⟨hRead, (read_back_iff exact_writeDecimal hService).2 (by decide) hRead _ (List.mem_singleton_self _)⟩

/-- After one request with a carriage return in its path, `/metrics` cannot be
parsed: the line of the counter is cut between its braces. -/
theorem path_breaks_line :
    Unescaped "users".toList ∧
      parsePrometheusText decimalText
        (generateLatest writeDecimal [] [] (httpRequestsTotal "users" [⟨"GET", "/a\rb", some 404⟩])) = none ∧
      ¬ ReadBack decimalText writeDecimal "users" [⟨"GET", "/a\rb", some 404⟩] := by
  have hNone : parsePrometheusText decimalText
      (generateLatest writeDecimal [] [] (httpRequestsTotal "users" [⟨"GET", "/a\rb", some 404⟩])) = none := by
    decide +kernel
  refine ⟨?_, hNone, fun hRead => ?_⟩
  · unfold Unescaped
    decide
  · obtain ⟨parsed, hParsed, -⟩ := hRead [] [] (by simp)
    rw [hNone] at hParsed
    cases hParsed

end Exact

end ServicePlatform.Autoscaler
