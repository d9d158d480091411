import Mathlib.Algebra.Order.BigOperators.Group.List
import ServicePlatform.Kernel.MaskedValues

/-! What a log line tells of the secrets in its context. The line is the same for
all secrets exactly when each field that is written hides what is under its
sensitive keys and can be written at all. A tuple hides nothing. -/
namespace ServicePlatform

open Storage Text LogValue

/-- A formatter writes one line for all contexts that differ in secrets only. -/
def JsonFormatter.SecretsHidden (formatter : JsonFormatter) (limits : RuntimeLimits) (ts : String)
    (record : LogRecord) (ctx : LogContext) : Prop :=
  ∀ ctx' : LogContext, SameMembers ctx.items ctx'.items → ∃ line,
    formatter.format limits ts { record with ctx := some ctx } = some line ∧
    formatter.format limits ts { record with ctx := some ctx' } = some line

/-- The text of an exception takes the place of a field with its name. -/
def LogRecord.Replaces (record : LogRecord) (key : String) : Prop := key = "exc_info" ∧ record.excInfo.isSome = true

/-- A field hides its secrets and can be written. -/
def FieldSafe (limits : RuntimeLimits) (field : String × LogValue) : Prop :=
  SensitiveKey field.1 ∨
    ¬ field.2.Exposes true ∧ field.2.maskable limits.maskCalls = true ∧
      field.2.encodable limits.intDigits true limits.containers = true

/-- A field that neither the mask nor the encoder gives up on. -/
def FieldFits (limits : RuntimeLimits) (field : String × LogValue) : Prop :=
  SensitiveKey field.1 ∨ field.2.maskable limits.maskCalls = true ∧
    field.2.encodable limits.intDigits true limits.containers = true

theorem fieldFits_str (limits : RuntimeLimits) (key text : String) : FieldFits limits (key, .str text) :=
  Or.inr ⟨rfl, rfl⟩

section Lines

variable {limits : RuntimeLimits} {fields others : Dict String LogValue}

theorem maskMembers_eq_map (fields : Dict String LogValue) :
    maskMembers fields = fields.map fun field => (field.1, shownMember true field.1 field.2) := by
  induction fields with
  | nil => rfl
  | cons field fields ih =>
      have hHead : shownMembers true (field :: fields) =
          (field.1, shownMember true field.1 field.2) :: shownMembers true fields := shownMembers_cons
      rw [List.map_cons, ← ih]
      exact hHead

/-- The line of the fields under the mask. -/
def maskedLine (fields : Dict String LogValue) : List Char := (LogValue.dict (maskMembers fields)).jsonText

theorem shownMember_encodable_iff {intDigits containers : Nat} {key : String} {value : LogValue} :
    (shownMember true key value).encodable intDigits false containers = true ↔
      SensitiveKey key ∨ value.encodable intDigits true containers = true := by
  by_cases hKey : SensitiveKey key
  · rw [shownMember_secret hKey]
    exact iff_of_true rfl (Or.inl hKey)
  · rw [shownMember_plain hKey, LogValue.shown, if_pos rfl, encodable_mask]
    exact (or_iff_right hKey).symm

/-- Masked fields are written as a line exactly when each of them fits. -/
theorem masked_line_iff {line : List Char} :
    (maskFields limits fields).bind (dumpFields limits) = some line ↔
      (∀ field ∈ fields, FieldFits limits field) ∧ line = maskedLine fields := by
  have hDump : (∀ field ∈ maskMembers fields, field.2.encodable limits.intDigits false limits.containers = true) ↔
      ∀ field ∈ fields, SensitiveKey field.1 ∨ field.2.encodable limits.intDigits true limits.containers = true := by
    rw [maskMembers_eq_map]
    simp only [List.forall_mem_map, shownMember_encodable_iff]
  have hFits : (∀ field ∈ fields, FieldFits limits field) ↔
      (∀ field ∈ fields, SensitiveKey field.1 ∨ field.2.maskable limits.maskCalls = true) ∧
        ∀ field ∈ fields, SensitiveKey field.1 ∨
          field.2.encodable limits.intDigits true limits.containers = true := by
    rw [← forall₂_and]
    exact forall₂_congr fun field _ => or_and_left
  rw [hFits, ← hDump, Option.bind_eq_some_iff]
  constructor
  · rintro ⟨masked, hMasked, hLine⟩
    obtain ⟨hMask, hSame⟩ := Option.ite_none_right_eq_some.mp hMasked
    cases hSame
    obtain ⟨hEncode, hSame⟩ := Option.ite_none_right_eq_some.mp hLine
    cases hSame
    exact ⟨⟨hMask, hEncode⟩, rfl⟩
  · rintro ⟨⟨hMask, hEncode⟩, rfl⟩
    exact ⟨maskMembers fields, if_pos hMask, if_pos hEncode⟩

/-- Fields that are shown alike under each key make the same line. -/
theorem maskedLine_eq (hFields : (fields.map Prod.fst).Nodup) (hOthers : (others.map Prod.fst).Nodup)
    (h : Dict.Related (fun key value other => shownMember true key value = shownMember true key other)
      LogValue.none fields others) :
    maskedLine fields = maskedLine others := by
  have hMasked : maskMembers fields = maskMembers others := by
    rw [maskMembers_eq_map, maskMembers_eq_map, Dict.map_eq_map_getD _ hFields LogValue.none,
      Dict.map_eq_map_getD _ hOthers LogValue.none, h.1]
    exact List.map_congr_left fun key _ => congrArg (Prod.mk key) (h.2 key)
  rw [maskedLine, hMasked, maskedLine]

/-- The characters of a member in a masked line. -/
def memberLength (key : String) (value : LogValue) : Nat :=
  (quoted key ++ ": ".toList ++ (shownMember true key value).jsonText).length

theorem memberTexts_eq_map (members : List (String × LogValue)) :
    memberTexts members = members.map fun member => quoted member.1 ++ ": ".toList ++ member.2.jsonText := by
  induction members with
  | nil => rfl
  | cons member members ih => rw [List.map_cons, ← ih, memberTexts]

theorem textsLength_masked (fields : Dict String LogValue) :
    textsLength (memberTexts (maskMembers fields)) =
      (fields.map fun field => memberLength field.1 field.2).sum := by
  rw [textsLength, memberTexts_eq_map, maskMembers_eq_map, List.map_map, List.map_map]
  rfl

/-- A line is longer when no field gets shorter and one gets longer. -/
theorem maskedLine_ne (hFields : (fields.map Prod.fst).Nodup) (hOthers : (others.map Prod.fst).Nodup)
    (h : Dict.Related (fun key value other => memberLength key value ≤ memberLength key other)
      LogValue.none fields others)
    {key : String} {value other : LogValue} (hValue : (key, value) ∈ fields) (hOther : (key, other) ∈ others)
    (hLonger : memberLength key value < memberLength key other) :
    maskedLine fields ≠ maskedLine others := by
  have hSum : textsLength (memberTexts (maskMembers fields)) < textsLength (memberTexts (maskMembers others)) := by
    rw [textsLength_masked, textsLength_masked,
      Dict.map_eq_map_getD _ hFields LogValue.none, Dict.map_eq_map_getD _ hOthers LogValue.none, ← h.1]
    refine List.sum_lt_sum _ _ (fun key _ => h.2 key) ⟨key, List.mem_map_of_mem hValue, ?_⟩
    rwa [Dict.getD_of_mem hFields hValue, Dict.getD_of_mem hOthers hOther]
  have hCount : (memberTexts (maskMembers fields)).length = (memberTexts (maskMembers others)).length := by
    have hKeys := congrArg List.length h.1
    simpa [memberTexts_eq_map, maskMembers_eq_map] using hKeys
  intro hEqual
  exact (length_bracketed_lt ⟨hCount, hSum⟩ '\x7b' '\x7d').ne (congrArg List.length hEqual)

end Lines

section Payload

variable {fields others items : Dict String LogValue} {entry : String × LogValue}

theorem addContext_eq_merge (fields items : Dict String LogValue) :
    addContext fields items = Dict.merge (fun item => item.2.Filled) fields items :=
  rfl

theorem nodup_addContext (h : (fields.map Prod.fst).Nodup) : ((addContext fields items).map Prod.fst).Nodup :=
  Dict.nodup_merge h

theorem related_addContext {r : String → LogValue → LogValue → Prop} {items' : Dict String LogValue}
    (h : Dict.Related r LogValue.none fields others)
    (hItems : List.Forall₂ (fun item item' => item.1 = item'.1 ∧ (item.2.Filled ↔ item'.2.Filled) ∧
      r item.1 item.2 item'.2) items items') :
    Dict.Related r LogValue.none (addContext fields items) (addContext others items') := by
  induction hItems generalizing fields others with
  | nil => exact h
  | cons hHead hRest ih =>
      obtain ⟨hKey, hFilled, hValue⟩ := hHead
      rw [addContext, addContext, List.foldl_cons, List.foldl_cons]
      split
      · next hf =>
          rw [if_pos (hFilled.mp hf), ← hKey]
          exact ih (Dict.related_setItem h.1 (fun key _ => h.2 key) hValue)
      · next hf =>
          rw [if_neg fun hf' => hf (hFilled.mpr hf')]
          exact ih h

variable {formatter : JsonFormatter} {ts : String} {record : LogRecord} {ctx ctx' : LogContext}

theorem nodup_fixedFields : ((formatter.fixedFields ts record).map Prod.fst).Nodup := by
  show ["ts", "level", "logger", "service", "env", "message"].Nodup
  decide

theorem payload_eq : formatter.payload ts { record with ctx := some ctx } = match record.excInfo with
    | some text => Dict.setItem (addContext (formatter.fixedFields ts record) ctx.items) "exc_info" (.str text)
    | Option.none => addContext (formatter.fixedFields ts record) ctx.items :=
  rfl

theorem nodup_payload : ((formatter.payload ts { record with ctx := some ctx }).map Prod.fst).Nodup := by
  rw [payload_eq]
  split
  · exact Dict.nodup_setItem (nodup_addContext nodup_fixedFields)
  · exact nodup_addContext nodup_fixedFields

/-- A field of a line is fixed text, or comes from the context. -/
theorem mem_of_mem_payload (hEntry : entry ∈ formatter.payload ts { record with ctx := some ctx }) :
    (∃ text, entry.2 = .str text) ∨ entry ∈ ctx.items ∧ entry.2.Filled ∧ ¬ record.Replaces entry.1 := by
  have hAdded : entry ∈ addContext (formatter.fixedFields ts record) ctx.items →
      (∃ text, entry.2 = .str text) ∨ entry ∈ ctx.items ∧ entry.2.Filled := by
    intro h
    rw [addContext_eq_merge] at h
    refine (Dict.mem_of_mem_merge nodup_fixedFields h).imp_left fun hFixed => ?_
    simp only [JsonFormatter.fixedFields, List.mem_cons, List.not_mem_nil, or_false] at hFixed
    rcases hFixed with rfl | rfl | rfl | rfl | rfl | rfl <;> exact ⟨_, rfl⟩
  rw [payload_eq] at hEntry
  split at hEntry
  · rcases (Dict.mem_setItem_iff (nodup_addContext nodup_fixedFields)).mp hEntry with rfl | ⟨hOld, hKey⟩
    · exact Or.inl ⟨_, rfl⟩
    · exact (hAdded hOld).imp_right fun h => ⟨h.1, h.2, fun hReplaces => hKey hReplaces.1⟩
  · next hNone =>
      refine (hAdded hEntry).imp_right fun h => ⟨h.1, h.2, fun hReplaces => ?_⟩
      have hSome := hReplaces.2
      rw [hNone] at hSome
      cases hSome

theorem mem_payload (hEntry : entry ∈ ctx.items) (hFilled : entry.2.Filled) (hWritten : ¬ record.Replaces entry.1) :
    entry ∈ formatter.payload ts { record with ctx := some ctx } := by
  have hAdded : entry ∈ addContext (formatter.fixedFields ts record) ctx.items := by
    rw [addContext_eq_merge]
    exact Dict.mem_merge nodup_fixedFields ctx.nodup hEntry hFilled
  rw [payload_eq]
  split
  · next hText =>
      refine (Dict.mem_setItem_iff (nodup_addContext nodup_fixedFields)).mpr (Or.inr ⟨hAdded, fun hKey => ?_⟩)
      exact hWritten ⟨hKey, by rw [hText]; rfl⟩
  · exact hAdded

/-- The text of an exception is the same in both lines, whatever it takes the place of. -/
theorem related_payload {r : String → LogValue → LogValue → Prop} (hRefl : ∀ key value, r key value value)
    (hItems : List.Forall₂ (fun item item' => item.1 = item'.1 ∧ (item.2.Filled ↔ item'.2.Filled) ∧
      (record.Replaces item.1 ∨ r item.1 item.2 item'.2)) ctx.items ctx'.items) :
    Dict.Related r LogValue.none (formatter.payload ts { record with ctx := some ctx })
      (formatter.payload ts { record with ctx := some ctx' }) := by
  have hAdded : Dict.Related (fun key value other => record.Replaces key ∨ r key value other) LogValue.none
      (addContext (formatter.fixedFields ts record) ctx.items)
      (addContext (formatter.fixedFields ts record) ctx'.items) :=
    related_addContext ⟨rfl, fun key => Or.inr (hRefl key _)⟩ hItems
  rw [payload_eq, payload_eq]
  cases hText : record.excInfo with
  | some text =>
      refine Dict.related_setItem hAdded.1 (fun key hKey => ?_) (hRefl _ _)
      exact (hAdded.2 key).resolve_left fun hReplaces => hKey hReplaces.1.symm
  | none =>
      refine ⟨hAdded.1, fun key => (hAdded.2 key).resolve_left fun hReplaces => ?_⟩
      have hSome := hReplaces.2
      rw [hText] at hSome
      cases hSome

end Payload

/-- One entry of two contexts that differ in secrets only. -/
def SameMember (item other : String × LogValue) : Prop :=
  item.1 = other.1 ∧ (SameValue item.2 other.2 ∨ SensitiveKey item.1 ∧ item.2.Filled ∧ other.2.Filled)

theorem sameMembers_iff {items others : List (String × LogValue)} :
    SameMembers items others ↔ List.Forall₂ SameMember items others := by
  constructor
  · intro h
    induction items generalizing others with
    | nil =>
        cases h
        exact List.Forall₂.nil
    | cons item items ih =>
        cases h with
        | same key hHead hRest => exact List.Forall₂.cons ⟨rfl, Or.inl hHead⟩ (ih hRest)
        | secret hKey hValue hOther hRest => exact List.Forall₂.cons ⟨rfl, Or.inr ⟨hKey, hValue, hOther⟩⟩ (ih hRest)
  · intro h
    induction h with
    | nil => exact .nil
    | @cons item other items others hHead hRest ih =>
        obtain ⟨key, value⟩ := item
        obtain ⟨key', value'⟩ := other
        obtain ⟨hKey, hSame⟩ := hHead
        cases hKey
        rcases hSame with hSame | ⟨hKey, hValue, hOther⟩
        · exact .same key hSame ih
        · exact .secret hKey hValue hOther ih

section Secrets

variable {limits : RuntimeLimits} {item other : String × LogValue}

theorem SameMember.filled_iff (h : SameMember item other) : item.2.Filled ↔ other.2.Filled := by
  rcases h.2 with hSame | ⟨-, hValue, hOther⟩
  · exact hSame.filled_iff
  · exact iff_of_true hValue hOther

/-- A safe field is shown alike whatever its secrets are. -/
theorem SameMember.shown_eq (h : SameMember item other) (hSafe : item.2.Filled → FieldSafe limits item) :
    shownMember true item.1 item.2 = shownMember true item.1 other.2 := by
  by_cases hKey : SensitiveKey item.1
  · rw [shownMember_secret hKey, shownMember_secret hKey]
  · have hSame : SameValue item.2 other.2 := h.2.resolve_right fun hSecret => hKey hSecret.1
    by_cases hFilled : item.2.Filled
    · have hHidden := ((hSafe hFilled).resolve_left hKey).1
      rw [shownMember_plain hKey, shownMember_plain hKey, hSame.shown_eq true hHidden]
    · rw [hSame.eq_of_not_filled hFilled]

theorem SameMember.fits (h : SameMember item other) (hSafe : FieldSafe limits item) : FieldFits limits other := by
  by_cases hKey : SensitiveKey item.1
  · exact Or.inl (h.1 ▸ hKey)
  · have hSame : SameValue item.2 other.2 := h.2.resolve_right fun hSecret => hKey hSecret.1
    obtain ⟨hHidden, hMask, hEncode⟩ := hSafe.resolve_left hKey
    have hShown : item.2.mask = other.2.mask := hSame.shown_eq true hHidden
    refine Or.inr ⟨by rwa [← hSame.maskable_eq], ?_⟩
    rwa [← encodable_mask, ← hShown, encodable_mask]

theorem forall_of_forall₂ {Item : Type*} {r : Item → Item → Prop} {p : Item → Prop} {items others : List Item}
    (h : List.Forall₂ r items others) (hItems : ∀ item ∈ items, ∀ other, r item other → p other) :
    ∀ other ∈ others, p other := by
  induction h with
  | nil => exact fun _ hOther => absurd hOther List.not_mem_nil
  | cons hHead hRest ih =>
      rw [List.forall_mem_cons] at hItems ⊢
      exact ⟨hItems.1 _ hHead, ih hItems.2⟩

variable {serviceName appEnv ts : String} {record : LogRecord} {ctx : LogContext}

/-- What is true of texts is true of all fields of a line when it is true of those
of the context that are written. -/
theorem forall_payload_iff (formatter : JsonFormatter) (ts : String) {p : String × LogValue → Prop}
    (hText : ∀ key text, p (key, .str text)) :
    (∀ field ∈ formatter.payload ts { record with ctx := some ctx }, p field) ↔
      ∀ item ∈ ctx.items, item.2.Filled → ¬ record.Replaces item.1 → p item := by
  constructor
  · intro h item hItem hFilled hWritten
    exact h item (mem_payload hItem hFilled hWritten)
  · intro h field hField
    rcases mem_of_mem_payload hField with ⟨text, hIs⟩ | ⟨hItem, hFilled, hWritten⟩
    · obtain ⟨key, value⟩ := field
      cases hIs
      exact hText key text
    · exact h field hItem hFilled hWritten

theorem format_masked_iff {line : List Char} :
    (⟨serviceName, appEnv, true⟩ : JsonFormatter).format limits ts { record with ctx := some ctx } = some line ↔
      (∀ item ∈ ctx.items, item.2.Filled → ¬ record.Replaces item.1 → FieldFits limits item) ∧
        line = maskedLine ((⟨serviceName, appEnv, true⟩ : JsonFormatter).payload ts { record with ctx := some ctx }) := by
  rw [← forall_payload_iff ⟨serviceName, appEnv, true⟩ ts (fieldFits_str limits), ← masked_line_iff]
  rfl

/-- Contexts whose written fields are safe are written alike. -/
theorem secretsHidden_of_safe
    (hSafe : ∀ item ∈ ctx.items, item.2.Filled → ¬ record.Replaces item.1 → FieldSafe limits item) :
    (⟨serviceName, appEnv, true⟩ : JsonFormatter).SecretsHidden limits ts record ctx := by
  intro ctx' hSame
  have hMembers := sameMembers_iff.mp hSame
  refine ⟨_, format_masked_iff.mpr ⟨fun item hItem hFilled hWritten => ?_, rfl⟩, format_masked_iff.mpr ⟨?_, ?_⟩⟩
  · exact SameMember.fits ⟨rfl, Or.inl (.refl item.2)⟩ (hSafe item hItem hFilled hWritten)
  · refine forall_of_forall₂ hMembers fun item hItem other hMember hFilled hWritten => ?_
    rw [← hMember.1] at hWritten
    exact hMember.fits (hSafe item hItem (hMember.filled_iff.mpr hFilled) hWritten)
  · refine maskedLine_eq nodup_payload nodup_payload (related_payload (fun _ _ => rfl) ?_)
    refine ((List.forall₂_and_left _ _).mpr ⟨hSafe, hMembers⟩).imp fun item other h => ?_
    refine ⟨h.2.1, h.2.filled_iff, or_iff_not_imp_left.mpr fun hWritten => ?_⟩
    exact h.2.shown_eq fun hFilled => h.1 hFilled hWritten

/-- The context with another value under one key. -/
def LogContext.replaceValue (ctx : LogContext) (key : String) (value : LogValue) : LogContext where
  items := ctx.items.map fun item => (item.1, if item.1 = key then value else item.2)
  nodup := by
    rw [List.map_map]
    exact ctx.nodup

theorem LogContext.forall₂_replaceValue {r : String × LogValue → String × LogValue → Prop} {key : String}
    {value value' : LogValue} (hItem : (key, value) ∈ ctx.items) (hRefl : ∀ item, r item item)
    (hValue : r (key, value) (key, value')) :
    List.Forall₂ r ctx.items (ctx.replaceValue key value').items := by
  unfold LogContext.replaceValue
  rw [List.forall₂_map_right_iff, List.forall₂_same]
  rintro ⟨key', other⟩ hOther
  by_cases hKey : key' = key
  · subst hKey
    have hOtherIs : Dict.getD ctx.items key' .none = other := Dict.getD_of_mem ctx.nodup hOther
    rwa [if_pos rfl, ← hOtherIs, Dict.getD_of_mem ctx.nodup hItem]
  · rw [if_neg hKey]
    exact hRefl _

theorem secrets_shown {key : String} {value : LogValue} (hItem : (key, value) ∈ ctx.items)
    (hWritten : ¬ record.Replaces key) (hKey : ¬ SensitiveKey key) (hExposed : value.Exposes true) :
    ¬ (⟨serviceName, appEnv, true⟩ : JsonFormatter).SecretsHidden limits ts record ctx := by
  intro hHidden
  obtain ⟨value', hSame, hLonger⟩ := exists_longer true value hExposed
  have hFilled : value.Filled := by
    cases value <;> first | exact trivial | exact absurd hExposed (by simp [Exposes])
  have hFilled' : value'.Filled := hSame.filled_iff.mp hFilled
  have hLength : memberLength key value < memberLength key value' := by
    rw [memberLength, memberLength, shownMember_plain hKey, shownMember_plain hKey]
    simp only [List.length_append]
    omega
  have hMembers : SameMembers ctx.items (ctx.replaceValue key value').items :=
    sameMembers_iff.mpr (LogContext.forall₂_replaceValue hItem (fun item => ⟨rfl, Or.inl (.refl item.2)⟩)
      ⟨rfl, Or.inl hSame⟩)
  have hItem' : (key, value') ∈ (ctx.replaceValue key value').items :=
    List.mem_map.mpr ⟨(key, value), hItem, by simp⟩
  obtain ⟨line, hLine, hLine'⟩ := hHidden (ctx.replaceValue key value') hMembers
  have hEqual := (format_masked_iff.mp hLine).2.symm.trans (format_masked_iff.mp hLine').2
  refine maskedLine_ne nodup_payload nodup_payload ?_ (mem_payload hItem hFilled hWritten)
    (mem_payload hItem' hFilled' hWritten) hLength hEqual
  refine related_payload (fun _ _ => Nat.le_refl _) (LogContext.forall₂_replaceValue hItem ?_ ?_)
  · exact fun item => ⟨rfl, Iff.rfl, Or.inr (Nat.le_refl _)⟩
  · exact ⟨rfl, hSame.filled_iff, Or.inr hLength.le⟩

end Secrets

/-- A line does not depend on secrets, and can be written, exactly when each field
of the context that is written is safe. -/
theorem JsonFormatter.secretsHidden_iff (serviceName appEnv : String) (limits : RuntimeLimits) (ts : String)
    (record : LogRecord) (ctx : LogContext) :
    (⟨serviceName, appEnv, true⟩ : JsonFormatter).SecretsHidden limits ts record ctx ↔
      ∀ item ∈ ctx.items, item.2.Filled → ¬ record.Replaces item.1 → FieldSafe limits item := by
  constructor
  · intro hHidden item hItem hFilled hWritten
    obtain ⟨line, hLine, -⟩ := hHidden ctx (sameMembers_refl ctx.items)
    have hFits := (format_masked_iff.mp hLine).1 item hItem hFilled hWritten
    by_cases hKey : SensitiveKey item.1
    · exact Or.inl hKey
    · have hShown := fun hExposed => secrets_shown hItem hWritten hKey hExposed hHidden
      exact Or.inr ⟨hShown, hFits.resolve_left hKey⟩
  · exact secretsHidden_of_safe

/-- A record with nothing but a message. -/
def plainRecord : LogRecord := ⟨"INFO", "app", "created", none, none⟩

/-- A tuple with a password in it. -/
def tupleContext (password : String) : LogContext where
  items := [("items", .tuple [.dict [("password", .str password)]])]
  nodup := List.nodup_singleton _

/-- Inside a tuple a password is written as it is. -/
theorem JsonFormatter.tuple_not_masked :
    ¬ (⟨"user", "test", true⟩ : JsonFormatter).SecretsHidden ⟨100, 100, 4300⟩ "t" plainRecord (tupleContext "a") := by
  have hPassword : SensitiveKey "password" := by decide
  have hExposed : (LogValue.tuple [.dict [("password", .str "a")]]).Exposes true := by
    simp [Exposes, ItemsExpose, MembersExpose, hPassword, Filled]
  have hWritten : ¬ plainRecord.Replaces "items" := fun h => absurd h.1 (by decide)
  exact secrets_shown (List.mem_singleton_self _) hWritten (by decide) hExposed

end ServicePlatform
