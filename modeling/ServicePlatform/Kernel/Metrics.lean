import ServicePlatform.Storage.Dict
import ServicePlatform.Text.Fields

/-! The request counter of `MetricsMiddleware` and the text of `/metrics`. The
exporter writes one line for each sample, with the labels in alphabetical
order, and escapes backslash, line feed and double quote in their values. -/
namespace ServicePlatform

open Storage Text

/-- A request that `MetricsMiddleware` counts. Without a response start there
is no status. -/
structure CountedRequest where
  method : String
  path : String
  status : Option Nat

/-- A character of `[0-9a-fA-F-]`. -/
def isIdChar (c : Char) : Bool :=
  ('0' ≤ c && c ≤ '9') || ('a' ≤ c && c ≤ 'f') || ('A' ≤ c && c ≤ 'F') || c = '-'

/-- The rest of the path, of which the first characters belong to an id that
is replaced. -/
def metricPathFrom : Nat → List Char → List Char
  | _, [] => []
  | skipped + 1, _ :: rest => metricPathFrom skipped rest
  | 0, c :: rest =>
      if c = '/' ∧ 8 ≤ (rest.takeWhile isIdChar).length then
        ['/', '\x7b', 'i', 'd', '\x7d'] ++ metricPathFrom (rest.takeWhile isIdChar).length rest
      else c :: metricPathFrom 0 rest

/-- `_metric_path`. -/
def metricPath (path : String) : List Char := metricPathFrom 0 path.toList

structure RequestLabels where
  service : List Char
  method : List Char
  path : List Char
  status : List Char
  deriving DecidableEq

/-- The labels under which a request is counted. -/
def CountedRequest.labels (service : String) (request : CountedRequest) : RequestLabels where
  service := service.toList
  method := request.method.toList
  path := metricPath request.path
  status := Nat.toDigits 10 (request.status.getD 500)

/-- `HTTP_REQUESTS_TOTAL`. -/
def httpRequestsTotal (service : String) (requests : List CountedRequest) : Dict RequestLabels Nat :=
  Dict.tally (requests.map (CountedRequest.labels service))

def escapeChar (c : Char) : List Char :=
  if c = '\\' then ['\\', '\\'] else if c = '\n' then ['\\', 'n'] else if c = '"' then ['\\', '"'] else [c]

def escapeLabel (value : List Char) : List Char := value.flatMap escapeChar

def labelText (name value : List Char) : List Char := name ++ ['=', '"'] ++ escapeLabel value ++ ['"']

/-- A sample, with the text of its value. -/
structure MetricSample where
  name : List Char
  labels : List (List Char × List Char)
  value : List Char

namespace MetricSample

def labelsText (sample : MetricSample) : List Char :=
  [','].intercalate (sample.labels.map fun label => labelText label.1 label.2)

def text (sample : MetricSample) : List Char :=
  if sample.labels = [] then sample.name ++ ' ' :: sample.value
  else sample.name ++ '\x7b' :: (sample.labelsText ++ '\x7d' :: ' ' :: sample.value)

end MetricSample

inductive MetricLine where
  | comment (text : List Char)
  | sample (sample : MetricSample)

def MetricLine.text : MetricLine → List Char
  | .comment text => '#' :: text
  | .sample written => written.text

/-- `http_requests_total`. -/
def requestsMetric : List Char := "http_requests_total".toList

namespace RequestLabels

/-- The sample of the counter for these labels. -/
def sample (labels : RequestLabels) (value : List Char) : MetricSample where
  name := requestsMetric
  labels := [("method".toList, labels.method), ("path".toList, labels.path), ("service".toList, labels.service),
    ("status".toList, labels.status)]
  value := value

end RequestLabels

/-- The text of the labels in a line. -/
def RequestLabels.text (labels : RequestLabels) : List Char := (labels.sample []).labelsText

/-- `generate_latest`: the samples of the counter, with the other lines of the
registry around them. -/
def generateLatest (write : Nat → List Char) (before after : List MetricLine)
    (counter : Dict RequestLabels Nat) : List Char :=
  (before.map MetricLine.text ++ counter.map (fun entry => (entry.1.sample (write entry.2)).text) ++
    after.map MetricLine.text).flatMap (· ++ ['\n'])

/-- The only line break of a label value is the line feed, which is escaped. -/
def Unbroken (value : List Char) : Prop := ∀ c ∈ value, c ∈ lineBreaks → c = '\n'

/-- The value has nothing to escape. -/
def Unescaped (value : List Char) : Prop := ∀ c ∈ value, c ≠ '\\' ∧ c ≠ '\n' ∧ c ≠ '"'

/-- A metric name or a number: no spaces and none of the signs that the text
format uses. -/
def PlainWord (text : List Char) : Prop :=
  text ≠ [] ∧ ∀ c ∈ text, c ∉ spaces ∧ c ∉ ['\x7b', '\x7d', '#']

namespace PlainWord

variable {word : List Char}

theorem not_space (h : PlainWord word) {c : Char} (hc : c ∈ word) : c ∉ spaces := (h.2 c hc).1

theorem not_sign (h : PlainWord word) {c : Char} (hc : c ∈ ['\x7b', '\x7d', '#']) : c ∉ word :=
  fun hMem => (h.2 c hMem).2 hc

theorem trimmed (h : PlainWord word) : Trimmed word :=
  ⟨fun _ hHead => h.not_space (List.mem_of_head? hHead),
    fun _ hLast => h.not_space (List.mem_of_getLast? hLast)⟩

theorem oneLine (h : PlainWord word) : OneLine word := by
  have hBreaks : ∀ c ∈ lineBreaks, c ∈ spaces := by decide
  exact fun c hc hBreak => h.not_space hc (hBreaks c hBreak)

end PlainWord

theorem plainWord_requestsMetric : PlainWord requestsMetric := by
  unfold PlainWord
  decide

section Labels

variable {value value' rest rest' : List Char}

/-- A character is escaped by a backslash, or stands for itself. -/
theorem escapeChar_cases (c : Char) :
    (∃ d ∈ ['\\', 'n', '"'], escapeChar c = ['\\', d]) ∨
      (c ≠ '\\' ∧ c ≠ '\n' ∧ c ≠ '"') ∧ escapeChar c = [c] := by
  unfold escapeChar
  split_ifs with hBackslash hFeed hQuote
  · exact Or.inl ⟨'\\', by simp, rfl⟩
  · exact Or.inl ⟨'n', by simp, rfl⟩
  · exact Or.inl ⟨'"', by simp, rfl⟩
  · exact Or.inr ⟨⟨hBackslash, hFeed, hQuote⟩, rfl⟩

theorem escapeLabel_cons (c : Char) : escapeLabel (c :: value) = escapeChar c ++ escapeLabel value := rfl

theorem escapeLabel_unescaped (h : Unescaped value) : escapeLabel value = value := by
  induction value with
  | nil => rfl
  | cons c value ih =>
      obtain ⟨⟨hBackslash, hFeed, hQuote⟩, hRest⟩ := List.forall_mem_cons.mp h
      rw [escapeLabel_cons, ih hRest, escapeChar, if_neg hBackslash, if_neg hFeed, if_neg hQuote]
      rfl

theorem oneLine_escapeChar (c : Char) : OneLine (escapeChar c) ↔ (c ∈ lineBreaks → c = '\n') := by
  unfold escapeChar
  split_ifs with hBackslash hFeed hQuote
  · rw [hBackslash]
    decide
  · rw [hFeed]
    decide
  · rw [hQuote]
    decide
  · simp [OneLine, hFeed]

theorem oneLine_escapeLabel : OneLine (escapeLabel value) ↔ Unbroken value := by
  induction value with
  | nil => simp [escapeLabel, OneLine, Unbroken]
  | cons c value ih =>
      have hUnbroken : Unbroken (c :: value) ↔ (c ∈ lineBreaks → c = '\n') ∧ Unbroken value :=
        List.forall_mem_cons
      rw [escapeLabel_cons, oneLine_append, oneLine_escapeChar, ih, hUnbroken]

theorem escapeChar_inj {c c' : Char} (h : escapeChar c ++ rest = escapeChar c' ++ rest') :
    c = c' ∧ rest = rest' := by
  unfold escapeChar at h
  split_ifs at h <;> grind

theorem suffix_value (value rest : List Char) : rest <:+ escapeLabel value ++ '"' :: rest :=
  (List.suffix_cons _ _).trans (List.suffix_append _ _)

/-- No escaped character begins with a quote. -/
theorem escapeChar_ne_quote (c : Char) : escapeChar c ++ rest ≠ '"' :: rest' := by
  rcases escapeChar_cases c with ⟨d, -, hEscaped⟩ | ⟨⟨-, -, hQuote⟩, hPlain⟩
  · simp [hEscaped]
  · simp [hPlain, hQuote]

/-- An escaped value ends at the first quote that is not escaped. -/
theorem escapeLabel_inj (h : escapeLabel value ++ '"' :: rest = escapeLabel value' ++ '"' :: rest') :
    value = value' ∧ rest = rest' := by
  induction value generalizing value' with
  | nil =>
      cases value' with
      | nil => exact ⟨rfl, List.cons_inj_right _ |>.mp h⟩
      | cons c' value' =>
          rw [escapeLabel_cons, List.append_assoc] at h
          exact absurd h.symm (escapeChar_ne_quote c')
  | cons c value ih =>
      cases value' with
      | nil =>
          rw [escapeLabel_cons, List.append_assoc] at h
          exact absurd h (escapeChar_ne_quote c)
      | cons c' value' =>
          rw [escapeLabel_cons, escapeLabel_cons, List.append_assoc, List.append_assoc] at h
          obtain ⟨rfl, hTail⟩ := escapeChar_inj h
          obtain ⟨rfl, hRest⟩ := ih hTail
          exact ⟨rfl, hRest⟩

end Labels

section Counted

variable {a b : RequestLabels} {n : Nat} {service : String} {request : CountedRequest}

/-- The status that a request is counted with. -/
def CountedRequest.code (request : CountedRequest) : Nat := request.status.getD 500

/-- The request is counted with a status from 500 to 599. -/
def CountedRequest.Failed (request : CountedRequest) : Prop := 500 ≤ request.code ∧ request.code ≤ 599

instance (request : CountedRequest) : Decidable request.Failed := inferInstanceAs (Decidable (_ ∧ _))

theorem sample_text (labels : RequestLabels) (value : List Char) :
    (labels.sample value).text = requestsMetric ++ '\x7b' :: (labels.text ++ '\x7d' :: ' ' :: value) :=
  if_neg (List.cons_ne_nil _ _)

theorem text_eq (labels : RequestLabels) :
    labels.text =
      "method=\"".toList ++ (escapeLabel labels.method ++ '"' :: (",path=\"".toList ++
        (escapeLabel labels.path ++ '"' :: (",service=\"".toList ++ (escapeLabel labels.service ++ '"' ::
          (",status=\"".toList ++ (escapeLabel labels.status ++ '"' :: []))))))) := by
  simp [RequestLabels.text, MetricSample.labelsText, RequestLabels.sample, labelText, List.intercalate]

/-- Different labels are written differently. -/
theorem text_inj : a.text = b.text ↔ a = b := by
  constructor
  · intro h
    rw [text_eq, text_eq, List.append_cancel_left_eq] at h
    obtain ⟨hMethod, h⟩ := escapeLabel_inj h
    rw [List.append_cancel_left_eq] at h
    obtain ⟨hPath, h⟩ := escapeLabel_inj h
    rw [List.append_cancel_left_eq] at h
    obtain ⟨hService, h⟩ := escapeLabel_inj h
    rw [List.append_cancel_left_eq] at h
    obtain ⟨hStatus, -⟩ := escapeLabel_inj h
    cases a
    cases b
    simp_all
  · intro h
    rw [h]

/-- Three digits, of which the first is a five. -/
theorem toDigits_serverError :
    (∃ d e, Nat.toDigits 10 n = ['5', d, e]) ↔ 500 ≤ n ∧ n ≤ 599 := by
  have hThree : 100 ≤ n → n < 1000 → Nat.toDigits 10 n =
      [Nat.digitChar (n / 10 / 10), Nat.digitChar (n / 10 % 10), Nat.digitChar (n % 10)] := by
    intro hLow hHigh
    rw [Nat.toDigits_of_base_le (by decide) (by omega), Nat.toDigits_of_base_le (by decide) (by omega),
      Nat.toDigits_of_lt_base (by omega)]
    rfl
  constructor
  · rintro ⟨d, e, hDigits⟩
    have hHigh : n < 10 ^ 3 := by
      rw [← Nat.length_toDigits_le_iff (by decide) (by decide), hDigits]
      exact Nat.le_refl 3
    have hLow : ¬ n < 10 ^ 2 := by
      rw [← Nat.length_toDigits_le_iff (by decide) (by decide), hDigits]
      exact Nat.not_succ_le_self 2
    rw [hThree (by omega) (by omega)] at hDigits
    have hFive : n / 10 / 10 = 5 := Nat.digitChar_eq_five.mp (List.cons.inj hDigits).1
    omega
  · rintro ⟨hLow, hHigh⟩
    refine ⟨Nat.digitChar (n / 10 % 10), Nat.digitChar (n % 10), ?_⟩
    have hFive : n / 10 / 10 = 5 := by omega
    rw [hThree (by omega) (by omega), hFive]
    rfl

theorem isDigit_of_mem_status {c : Char} (h : c ∈ (request.labels service).status) : c.isDigit = true :=
  Nat.isDigit_of_mem_toDigits (by decide) (by decide) h

/-- A character that is no digit is not among digits. -/
theorem not_mem_of_digits {text : List Char} (h : ∀ c ∈ text, c.isDigit = true) {c : Char}
    (hc : c.isDigit = false) : c ∉ text := by
  intro hMem
  rw [h c hMem] at hc
  cases hc

theorem unescaped_of_digits {text : List Char} (h : ∀ c ∈ text, c.isDigit = true) : Unescaped text := by
  have hSigns : ∀ d ∈ ['\\', '\n', '"'], d.isDigit = false := by decide
  intro c hc
  have hOther : c ∉ ['\\', '\n', '"'] := fun hSign => not_mem_of_digits h (hSigns c hSign) hc
  simpa using hOther

theorem unescaped_status : Unescaped (request.labels service).status :=
  unescaped_of_digits fun _ h => isDigit_of_mem_status h

theorem oneLine_status : OneLine (escapeLabel (request.labels service).status) := by
  rw [oneLine_escapeLabel]
  intro c hc hBreak
  have hNone : ∀ d ∈ lineBreaks, d.isDigit = false := by decide
  exact absurd hc (not_mem_of_digits (fun _ h => isDigit_of_mem_status h) (hNone c hBreak))

/-- The labels of a request are on one line exactly when none of the values
that come from outside has a break. -/
theorem oneLine_text_iff : OneLine (request.labels service).text ↔
    Unbroken service.toList ∧ Unbroken request.method.toList ∧ Unbroken (metricPath request.path) := by
  have hStatus : OneLine (escapeLabel (request.labels service).status) := oneLine_status
  have hSigns : OneLine "method=\"".toList ∧ OneLine ",path=\"".toList ∧ OneLine ",service=\"".toList ∧
      OneLine ",status=\"".toList ∧ '"' ∉ lineBreaks ∧ OneLine [] := by decide
  obtain ⟨hMethod, hPath, hService, hState, hQuote, hNil⟩ := hSigns
  rw [text_eq]
  simp only [oneLine_append, oneLine_cons, oneLine_escapeLabel.symm, hStatus, hMethod, hPath, hService, hState,
    hQuote, hNil, true_and, and_true, not_false_eq_true]
  constructor
  · rintro ⟨hM, hP, hS⟩
    exact ⟨hS, hM, hP⟩
  · rintro ⟨hS, hM, hP⟩
    exact ⟨hM, hP, hS⟩

theorem metricPathFrom_mem {skipped : Nat} {path : List Char} {c : Char} (h : c ∈ metricPathFrom skipped path) :
    c ∈ path ∨ c ∈ ['/', '\x7b', 'i', 'd', '\x7d'] := by
  induction path generalizing skipped with
  | nil =>
      cases skipped <;> cases h
  | cons d path ih =>
      cases skipped with
      | succ skipped => exact (ih h).imp_left (List.mem_cons_of_mem d)
      | zero =>
          rw [metricPathFrom] at h
          split at h
          · rcases List.mem_append.mp h with hId | hRest
            · exact Or.inr hId
            · exact (ih hRest).imp_left (List.mem_cons_of_mem d)
          · rcases List.mem_cons.mp h with rfl | hRest
            · exact Or.inl List.mem_cons_self
            · exact (ih hRest).imp_left (List.mem_cons_of_mem d)

/-- Only characters of ids are replaced. -/
theorem mem_metricPathFrom {skipped : Nat} {path : List Char} {c : Char}
    (hSkipped : ∀ d ∈ path.take skipped, isIdChar d = true) (hc : c ∈ path) (hOther : isIdChar c = false)
    (hSlash : c ≠ '/') : c ∈ metricPathFrom skipped path := by
  induction path generalizing skipped with
  | nil => cases hc
  | cons d path ih =>
      cases skipped with
      | succ skipped =>
          rw [List.take_succ_cons] at hSkipped
          obtain ⟨hHere, hRest⟩ := List.forall_mem_cons.mp hSkipped
          rcases List.mem_cons.mp hc with rfl | hc
          · rw [hOther] at hHere
            cases hHere
          · exact ih hRest hc
      | zero =>
          rw [metricPathFrom]
          split
          · next hId =>
              apply List.mem_append_right
              rcases List.mem_cons.mp hc with rfl | hc
              · exact absurd hId.1 hSlash
              · apply ih _ hc
                intro e he
                rw [← List.prefix_iff_eq_take.mp (List.takeWhile_prefix isIdChar)] at he
                exact List.mem_takeWhile_imp he
          · rcases List.mem_cons.mp hc with rfl | hc
            · exact List.mem_cons_self
            · exact List.mem_cons_of_mem _ (ih (by simp) hc)

/-- Line breaks of a path stay in its metric path. -/
theorem unbroken_metricPath (path : String) : Unbroken (metricPath path) ↔ Unbroken path.toList := by
  constructor
  · intro h c hc hBreak
    have hPlain : ∀ d ∈ lineBreaks, isIdChar d = false ∧ d ≠ '/' := by decide
    obtain ⟨hOther, hSlash⟩ := hPlain c hBreak
    exact h c (mem_metricPathFrom (by simp) hc hOther hSlash) hBreak
  · intro h c hc hBreak
    rcases metricPathFrom_mem hc with hPath | hId
    · exact h c hPath hBreak
    · have hNone : ∀ d ∈ ['/', '\x7b', 'i', 'd', '\x7d'], d ∉ lineBreaks := by decide
      exact absurd hBreak (hNone c hId)

end Counted

end ServicePlatform
