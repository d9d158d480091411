import ServicePlatform.Autoscaler.Metrics

/-! What a search finds in the labels of the request counter. A quote inside a
value has a backslash before it, so a pattern with a quote after an equals sign
can only match where a label begins or a value ends. -/
namespace ServicePlatform.Autoscaler

open Text

section Search

variable {word pattern value rest : List Char}

/-- A pattern that begins inside a value and has a quote goes on behind the value. -/
theorem prefix_escapeLabel (hWord : ∀ c ∈ word, c ≠ '"' ∧ c ≠ '\\')
    (h : word ++ '"' :: pattern <+: escapeLabel value ++ '"' :: rest) : pattern <+: rest := by
  induction word generalizing value with
  | nil =>
      cases value with
      | nil => exact (List.cons_prefix_cons.mp h).2
      | cons c value =>
          rw [escapeLabel_cons] at h
          rcases escapeChar_cases c with ⟨d, -, hEscaped⟩ | ⟨⟨-, -, hQuote⟩, hPlain⟩
          · rw [hEscaped] at h
            exact absurd (List.cons_prefix_cons.mp h).1 (by decide)
          · rw [hPlain] at h
            exact absurd (List.cons_prefix_cons.mp h).1 (Ne.symm hQuote)
  | cons a word ih =>
      obtain ⟨⟨hQuote, hBackslash⟩, hRest⟩ := List.forall_mem_cons.mp hWord
      cases value with
      | nil => exact absurd (List.cons_prefix_cons.mp h).1 hQuote
      | cons c value =>
          rw [escapeLabel_cons] at h
          rcases escapeChar_cases c with ⟨d, -, hEscaped⟩ | ⟨-, hPlain⟩
          · rw [hEscaped] at h
            exact absurd (List.cons_prefix_cons.mp h).1 hBackslash
          · rw [hPlain] at h
            exact ih hRest (List.cons_prefix_cons.mp h).2

/-- A pattern is not found where none of the characters begins it. -/
theorem infix_skip {s : Char} (front : List Char) (hs : s ∉ front) (h : s :: pattern <:+: front ++ rest) :
    s :: pattern <:+: rest := by
  induction front with
  | nil => exact h
  | cons c front ih =>
      obtain ⟨hNe, hFront⟩ := not_or.mp (fun hMem => hs (List.mem_cons.mpr hMem))
      rcases List.infix_cons_iff.mp h with hHere | hLater
      · exact absurd (List.cons_prefix_cons.mp hHere).1 hNe
      · exact ih hFront hLater

/-- A pattern with a quote is found in a value only so that it goes on behind
the value, or else it is found later. -/
theorem infix_escapeLabel {s : Char} (hs : s ∉ ['\\', 'n', '"'])
    (hWord : ∀ c ∈ s :: word, c ≠ '"' ∧ c ≠ '\\')
    (h : s :: word ++ '"' :: pattern <:+: escapeLabel value ++ '"' :: rest) :
    pattern <+: rest ∨ s :: word ++ '"' :: pattern <:+: '"' :: rest := by
  induction value with
  | nil => exact Or.inr h
  | cons c value ih =>
      have hHere : s :: word ++ '"' :: pattern <+: escapeLabel (c :: value) ++ '"' :: rest → pattern <+: rest :=
        prefix_escapeLabel hWord
      rw [escapeLabel_cons, List.append_assoc] at h hHere
      rcases escapeChar_cases c with ⟨d, hd, hEscaped⟩ | ⟨-, hPlain⟩
      · rw [hEscaped] at h hHere
        rcases List.infix_cons_iff.mp h with hFirst | h
        · exact Or.inl (hHere hFirst)
        · rcases List.infix_cons_iff.mp h with hSecond | hLater
          · rw [(List.cons_prefix_cons.mp hSecond).1] at hs
            exact absurd hd hs
          · exact ih hLater
      · rw [hPlain] at h hHere
        rcases List.infix_cons_iff.mp h with hFirst | hLater
        · exact Or.inl (hHere hFirst)
        · exact ih hLater

end Search

section Status

variable {V : Type*} {py : PythonText V} {text : List Char} {labels : RequestLabels} {d e : Char}

/-- What `status="5\d\d"` matches, for two given digits. -/
def serverErrorLabel (d e : Char) : List Char := 's' :: "tatus=".toList ++ '"' :: ['5', d, e, '"']

theorem startsServerError_iff : startsServerError py text = true ↔
    ∃ d e, py.decimal d = true ∧ py.decimal e = true ∧ serverErrorLabel d e <+: text := by
  unfold startsServerError
  rw [Bool.and_eq_true, List.isPrefixOf_iff_prefix]
  constructor
  · rintro ⟨⟨rest, rfl⟩, hDigits⟩
    rw [List.drop_left' (by rfl)] at hDigits
    match rest, hDigits with
    | d :: e :: q :: rest, hDigits =>
        simp only [Bool.and_eq_true, decide_eq_true_eq] at hDigits
        obtain ⟨⟨hd, he⟩, rfl⟩ := hDigits
        exact ⟨d, e, hd, he, rest, rfl⟩
  · rintro ⟨d, e, hd, he, rest, rfl⟩
    refine ⟨⟨d :: e :: '"' :: rest, rfl⟩, ?_⟩
    show (py.decimal d && py.decimal e && decide ('"' = '"')) = true
    rw [hd, he]
    rfl

theorem hasServerError_iff : hasServerError py text = true ↔
    ∃ d e, py.decimal d = true ∧ py.decimal e = true ∧ serverErrorLabel d e <:+: text := by
  induction text with
  | nil =>
      refine iff_of_false (by simp [hasServerError]) ?_
      rintro ⟨d, e, -, -, hInfix⟩
      cases List.infix_nil.mp hInfix
  | cons c text ih =>
      rw [hasServerError, Bool.or_eq_true, startsServerError_iff, ih]
      simp only [List.infix_cons_iff]
      constructor
      · rintro (⟨d, e, hd, he, hHere⟩ | ⟨d, e, hd, he, hLater⟩)
        · exact ⟨d, e, hd, he, Or.inl hHere⟩
        · exact ⟨d, e, hd, he, Or.inr hLater⟩
      · rintro ⟨d, e, hd, he, hHere | hLater⟩
        · exact Or.inl ⟨d, e, hd, he, hHere⟩
        · exact Or.inr ⟨d, e, hd, he, hLater⟩

/-- The pattern is found in the labels only at the status. -/
theorem status_of_found (hDigits : ∀ c ∈ labels.status, c.isDigit = true)
    (h : serverErrorLabel d e <:+: labels.text) : ['5', d, e, '"'] <+: labels.status ++ ['"'] := by
  have hs : 's' ∉ ['\\', 'n', '"'] := by decide
  have hWord : ∀ c ∈ 's' :: "tatus=".toList, c ≠ '"' ∧ c ≠ '\\' := by decide
  have hStatus : escapeLabel labels.status = labels.status :=
    escapeLabel_unescaped (unescaped_of_digits hDigits)
  have hNone : 's' ∉ labels.status := not_mem_of_digits hDigits (by decide)
  have hLast : serverErrorLabel d e <:+: ",status=\"".toList ++ (labels.status ++ '"' :: []) →
      ['5', d, e, '"'] <+: labels.status ++ ['"'] := by
    intro h
    have h := infix_skip [','] (by decide) h
    rcases List.infix_cons_iff.mp h with hHere | hLater
    · exact (List.prefix_append_right_inj "status=\"".toList).mp hHere
    · have hLater := infix_skip "tatu".toList (by decide) hLater
      rcases List.infix_cons_iff.mp hLater with hHere | hLater
      · exact absurd (List.cons_prefix_cons.mp (List.cons_prefix_cons.mp hHere).2).1 (by decide)
      · have hOut : 's' ∉ "=\"".toList ++ (labels.status ++ ['"']) := by
          simp [hNone]
        exact absurd (hLater.subset List.mem_cons_self) hOut
  have hService : serverErrorLabel d e <:+: ",service=\"".toList ++ (escapeLabel labels.service ++ '"' ::
      (",status=\"".toList ++ (labels.status ++ '"' :: []))) → ['5', d, e, '"'] <+: labels.status ++ ['"'] := by
    intro h
    have h := infix_skip [','] (by decide) h
    rcases List.infix_cons_iff.mp h with hHere | hLater
    · exact absurd (List.cons_prefix_cons.mp (List.cons_prefix_cons.mp hHere).2).1 (by decide)
    · have hLater := infix_skip "ervice=\"".toList (by decide) hLater
      rcases infix_escapeLabel hs hWord hLater with hBehind | hLater
      · exact absurd (List.cons_prefix_cons.mp hBehind).1 (by decide)
      · exact hLast (infix_skip ['"'] (by decide) hLater)
  rw [text_eq, hStatus] at h
  have h := infix_skip "method=\"".toList (by decide) h
  rcases infix_escapeLabel hs hWord h with hBehind | h
  · exact absurd (List.cons_prefix_cons.mp hBehind).1 (by decide)
  · have h := infix_skip ('"' :: ",path=\"".toList) (by decide) h
    rcases infix_escapeLabel hs hWord h with hBehind | h
    · exact absurd (List.cons_prefix_cons.mp hBehind).1 (by decide)
    · exact hService (infix_skip ['"'] (by decide) h)

/-- The labels end with the service and the status. -/
theorem service_suffix (labels : RequestLabels) :
    ",service=\"".toList ++ (escapeLabel labels.service ++ '"' ::
      (",status=\"".toList ++ (escapeLabel labels.status ++ '"' :: []))) <:+ labels.text := by
  rw [text_eq]
  have hPath := (suffix_value labels.path (",service=\"".toList ++ (escapeLabel labels.service ++ '"' ::
    (",status=\"".toList ++ (escapeLabel labels.status ++ '"' :: []))))).trans
      (List.suffix_append ",path=\"".toList _)
  exact (hPath.trans (suffix_value labels.method _)).trans (List.suffix_append "method=\"".toList _)

theorem decimal_of_isDigit (py : PythonText V) {c : Char} (h : c.isDigit = true) : py.decimal c = true := by
  have hSmall : c.toNat < 128 := by
    simp only [Char.isDigit, Bool.and_eq_true, decide_eq_true_eq] at h
    have hNine := UInt32.le_iff_toNat_le.mp h.2
    have hValue : c.toNat ≤ 57 := hNine
    omega
  rw [py.decimal_ascii c hSmall, h]

theorem not_decimal_quote (py : PythonText V) : py.decimal '"' = false := by
  rw [py.decimal_ascii '"' (by decide)]
  decide

/-- A status text that the pattern matches consists of its three digits. -/
theorem eq_of_matched {status : List Char} (hDigits : ∀ c ∈ status, c.isDigit = true)
    (hd : py.decimal d = true) (he : py.decimal e = true) (h : ['5', d, e, '"'] <+: status ++ ['"']) :
    status = ['5', d, e] := by
  have hQuote := not_decimal_quote py
  have hNone : '"' ∉ status := not_mem_of_digits hDigits (by decide)
  have hFront : ['5', d, e] <+: status := by
    have hWord : '"' ∉ ['5', d, e] := by
      simp only [List.mem_cons, List.not_mem_nil, or_false, not_or]
      refine ⟨by decide, ?_, ?_⟩
      · rintro rfl
        rw [hQuote] at hd
        cases hd
      · rintro rfl
        rw [hQuote] at he
        cases he
    exact prefix_append_cons hWord ((List.prefix_append ['5', d, e] ['"']).trans h)
  obtain ⟨rest, rfl⟩ := hFront
  cases rest with
  | nil => exact List.append_nil _
  | cons f rest =>
      have hEnd : '"' :: [] <+: (f :: rest) ++ ['"'] := by
        rw [List.append_assoc] at h
        exact (List.prefix_append_right_inj ['5', d, e]).mp h
      rw [← (List.cons_prefix_cons.mp hEnd).1] at hNone
      exact absurd (by simp) hNone

/-- The pattern finds exactly the labels of failed requests. -/
theorem hasServerError_text (py : PythonText V) (service : String) (request : CountedRequest) :
    hasServerError py (request.labels service).text = true ↔ request.Failed := by
  have hDigits : ∀ c ∈ (request.labels service).status, c.isDigit = true := fun _ h => isDigit_of_mem_status h
  have hFailed : (∃ d e, (request.labels service).status = ['5', d, e]) ↔ request.Failed := toDigits_serverError
  rw [hasServerError_iff, ← hFailed]
  constructor
  · rintro ⟨d, e, hd, he, hInfix⟩
    exact ⟨d, e, eq_of_matched hDigits hd he (status_of_found hDigits hInfix)⟩
  · rintro ⟨d, e, hStatus⟩
    refine ⟨d, e, decimal_of_isDigit py (hDigits d (by simp [hStatus])),
      decimal_of_isDigit py (hDigits e (by simp [hStatus])), ?_⟩
    have hText : escapeLabel (request.labels service).status = ['5', d, e] := by
      rw [escapeLabel_unescaped unescaped_status, hStatus]
    have hHere : serverErrorLabel d e <:+ ",status=\"".toList ++ (['5', d, e] ++ '"' :: []) := ⟨[','], rfl⟩
    have hEnd := service_suffix (request.labels service)
    rw [hText] at hEnd
    have hStatusEnd := (hHere.trans (suffix_value (request.labels service).service _)).trans
      (List.suffix_append ",service=\"".toList _)
    exact (hStatusEnd.trans hEnd).isInfix

end Status

section Service

variable {service : String}

/-- The label of the service, in front of what follows it. -/
theorem serviceLabel_leads (service : String) (rest : List Char) :
    serviceLabel service <+: "service=\"".toList ++ (service.toList ++ '"' :: rest) := by
  refine ⟨rest, ?_⟩
  unfold serviceLabel
  rw [List.append_assoc, List.append_assoc, List.singleton_append]

/-- A service name with nothing to escape is found in its labels. -/
theorem serviceLabel_found (hService : Unescaped service.toList) (request : CountedRequest) :
    serviceLabel service <:+: (request.labels service).text := by
  have hText : escapeLabel (request.labels service).service = service.toList := escapeLabel_unescaped hService
  have hEnd := service_suffix (request.labels service)
  rw [hText] at hEnd
  have hHere : ∀ rest, serviceLabel service <:+: ",service=\"".toList ++ (service.toList ++ '"' :: rest) :=
    fun rest => List.infix_cons (serviceLabel_leads service rest).isInfix
  exact (hHere _).trans hEnd.isInfix

/-- The label of the service is not found before it begins, but for a name that
reads like the labels in between. -/
theorem serviceLabel_absent (method path : List Char) (hService : Unescaped service.toList)
    (hName : service ≠ ",path=") :
    ¬ serviceLabel service <:+: "method=\"".toList ++ (escapeLabel method ++ '"' ::
      (",path=\"".toList ++ (escapeLabel path ++ '"' :: []))) := by
  have hs : 's' ∉ ['\\', 'n', '"'] := by decide
  have hWord : ∀ c ∈ 's' :: "ervice=".toList, c ≠ '"' ∧ c ≠ '\\' := by decide
  intro h
  have h : 's' :: "ervice=".toList ++ '"' :: (service.toList ++ ['"']) <:+: _ := infix_skip _ (by decide) h
  rcases infix_escapeLabel hs hWord h with hBehind | h
  · obtain ⟨after, hSame⟩ := hBehind
    have hQuote : '"' ∉ service.toList := fun hMem => (hService '"' hMem).2.2 rfl
    have hFront : splitOnce '"' (service.toList ++ '"' :: after) = some (service.toList, after) :=
      splitOnce_append hQuote after
    have hPath : splitOnce '"' (",path=".toList ++ '"' :: (escapeLabel path ++ '"' :: [])) =
        some (",path=".toList, escapeLabel path ++ '"' :: []) := splitOnce_append (by decide) _
    have hLine : service.toList ++ '"' :: after = ",path=".toList ++ '"' :: (escapeLabel path ++ '"' :: []) := by
      rw [← List.singleton_append, ← List.append_assoc, hSame]
      rfl
    rw [hLine, hPath] at hFront
    exact hName (String.toList_inj.mp (Prod.mk.inj (Option.some.inj hFront)).1.symm)
  · have h := infix_skip ('"' :: ",path=\"".toList) (by decide) h
    rcases infix_escapeLabel hs hWord h with hBehind | h
    · simp at hBehind
    · exact absurd (h.subset List.mem_cons_self) (by decide)

end Service

end ServicePlatform.Autoscaler
