import ServicePlatform.Kernel.LineReading
import ServicePlatform.Kernel.SecretMasking

/-! The fields that every log line has, against what business code passes as the
context of a record. The filter guards the five fields of the request. The
formatter then lets the rest of the context take the place of its own fields. -/
namespace ServicePlatform

open Storage Text

/-- The identity in the context of a request, as far as the filter reads it. -/
structure LogIdentity where
  userId : Option String
  tenantId : Option String

/-- The context variables of a request. -/
structure LoggingContext where
  requestId : String
  traceId : String
  spanId : String
  identity : Option LogIdentity

/-- What business code passes as `ctx`. -/
structure BusinessContext extends LogContext where
  floats : ∀ item ∈ items, item.2.FloatsWritten

def builtinCtxKeys : List String := ["request_id", "trace_id", "span_id", "user_id", "tenant_id"]

namespace LoggingContext

def optional (text : Option String) : LogValue := (text.map LogValue.str).getD .none

/-- The fields of the request. -/
def builtin (context : LoggingContext) : Dict String LogValue :=
  [("request_id", .str context.requestId), ("trace_id", .str context.traceId), ("span_id", .str context.spanId),
    ("user_id", optional (context.identity.bind LogIdentity.userId)),
    ("tenant_id", optional (context.identity.bind LogIdentity.tenantId))]

theorem nodup_builtin (context : LoggingContext) : (context.builtin.map Prod.fst).Nodup := by
  show builtinCtxKeys.Nodup
  decide

/-- `ContextFilter.filter`: business fields join those of the request. -/
def filter (context : LoggingContext) (record : LogRecord) : LogRecord where
  levelname := record.levelname
  name := record.name
  message := record.message
  ctx := some {
    items := Dict.merge (fun item => item.1 ∉ builtinCtxKeys) context.builtin
      (match record.ctx with
        | some business => business.items
        | none => [])
    nodup := Dict.nodup_merge context.nodup_builtin }
  excInfo := record.excInfo

end LoggingContext

namespace JsonFormatter

/-- The line is that of the system in all unified fields. A field of the request
that is not known is left out. -/
structure UnifiedLine (formatter : JsonFormatter) (ts : String) (record : LogRecord) (context : LoggingContext)
    (line : List Char) : Prop where
  fixed : ∀ field ∈ formatter.fixedFields ts record,
    (readJson line).bind (Json.member field.1) = some field.2.json
  builtin : ∀ field ∈ context.builtin,
    (readJson line).bind (Json.member field.1) = if field.2.Filled then some field.2.json else none

/-- A field that the formatter can write. -/
def Writable (formatter : JsonFormatter) (limits : RuntimeLimits) (field : String × LogValue) : Prop :=
  if formatter.maskSecrets then FieldFits limits field
  else field.2.encodable limits.intDigits false limits.containers = true

/-- What is written for the fields. -/
def shownFields (formatter : JsonFormatter) (fields : Dict String LogValue) : Dict String LogValue :=
  if formatter.maskSecrets then LogValue.maskMembers fields else fields

variable {formatter : JsonFormatter} {limits : RuntimeLimits} {ts : String} {record : LogRecord}

theorem format_eq_some_iff {line : List Char} :
    formatter.format limits ts record = some line ↔
      (∀ field ∈ formatter.payload ts record, formatter.Writable limits field) ∧
        line = (LogValue.dict (formatter.shownFields (formatter.payload ts record))).jsonText := by
  unfold format Writable shownFields
  split
  · exact masked_line_iff
  · rw [dumpFields, Option.ite_none_right_eq_some]
    exact and_congr_right fun _ => Option.some_inj.trans eq_comm

variable {context : LoggingContext} {business : LogContext} {key : String} {fields : Dict String LogValue}

theorem floatsWritten_shownFields (h : ∀ field ∈ fields, field.2.FloatsWritten) :
    ∀ field ∈ formatter.shownFields fields, field.2.FloatsWritten := by
  unfold shownFields
  split
  · rw [← LogValue.memberFloatsWritten_iff] at h ⊢
    exact LogValue.memberFloatsWritten_mask fields h
  · exact h

theorem get?_shownFields (hKey : ¬ SensitiveKey key) :
    Dict.get? (formatter.shownFields fields) key =
      (Dict.get? fields key).map (LogValue.shown formatter.maskSecrets) := by
  unfold shownFields
  split
  · next hMask =>
      rw [maskMembers_eq_map, Dict.get?_map (fun key value => LogValue.shownMember true key value), hMask]
      exact congrArg (Option.map · _) (funext fun value => LogValue.shownMember_plain hKey)
  · next hMask =>
      have hShown : LogValue.shown formatter.maskSecrets = id := funext fun value => if_neg hMask
      rw [hShown, Option.map_id, id]

theorem json_shown_eq_str_iff {masked : Bool} {value : LogValue} {text : String} :
    (value.shown masked).json = .str text ↔ value = .str text := by
  rw [LogValue.json_eq_str_iff]
  cases masked with
  | false => rfl
  | true => cases value <;> simp [LogValue.shown, LogValue.mask]

/-- What a reader finds in a line under a key that is not masked. -/
theorem member_of_format {line : List Char} (hFloats : ∀ field ∈ formatter.payload ts record, field.2.FloatsWritten)
    (h : formatter.format limits ts record = some line) (hKey : ¬ SensitiveKey key) :
    (readJson line).bind (Json.member key) = (Dict.get? (formatter.payload ts record) key).map
      fun value => (value.shown formatter.maskSecrets).json := by
  rw [(format_eq_some_iff.mp h).2, LogValue.member_of_line (floatsWritten_shownFields hFloats),
    get?_shownFields hKey, Option.map_map]
  rfl

theorem member_eq_str_iff {line : List Char} (hFloats : ∀ field ∈ formatter.payload ts record, field.2.FloatsWritten)
    (h : formatter.format limits ts record = some line) (hKey : ¬ SensitiveKey key) {text : String} :
    (readJson line).bind (Json.member key) = some (.str text) ↔
      Dict.get? (formatter.payload ts record) key = some (.str text) := by
  rw [member_of_format hFloats h hKey]
  simp only [Option.map_eq_some_iff, json_shown_eq_str_iff, exists_eq_right]

theorem fixed_text {field : String × LogValue} (h : field ∈ formatter.fixedFields ts record) :
    ∃ text, field.2 = .str text := by
  simp only [fixedFields, List.mem_cons, List.not_mem_nil, or_false] at h
  rcases h with rfl | rfl | rfl | rfl | rfl | rfl <;> exact ⟨_, rfl⟩

theorem fixed_not_sensitive {field : String × LogValue} (h : field ∈ formatter.fixedFields ts record) :
    ¬ SensitiveKey field.1 := by
  have hKey : field.1 ∈ ["ts", "level", "logger", "service", "env", "message"] := List.mem_map_of_mem h
  have hPlain : ∀ key ∈ ["ts", "level", "logger", "service", "env", "message"], ¬ SensitiveKey key := by decide
  exact hPlain _ hKey

/-- Under another key than that of an exception, a line has what the context
holds, or else the field of the formatter. -/
theorem get?_payload {ctx : LogContext} (hKey : "exc_info" ≠ key) :
    Dict.get? (formatter.payload ts { record with ctx := some ctx }) key =
      ((Dict.get? ctx.items key).filter fun value => value.Filled).or
        (Dict.get? (formatter.fixedFields ts record) key) := by
  have hAdded : Dict.get? (addContext (formatter.fixedFields ts record) ctx.items) key =
      ((Dict.get? ctx.items key).filter fun value => value.Filled).or
        (Dict.get? (formatter.fixedFields ts record) key) := by
    rw [addContext_eq_merge]
    exact Dict.get?_merge ctx.nodup
  rw [payload_eq, ← hAdded]
  split
  · rw [Dict.get?_setItem_of_ne hKey]
  · rfl

theorem writable_str (formatter : JsonFormatter) (limits : RuntimeLimits) (key text : String) :
    formatter.Writable limits (key, .str text) := by
  unfold Writable
  split
  · exact fieldFits_str limits key text
  · rfl

end JsonFormatter

section Filtered

variable {formatter : JsonFormatter} {limits : RuntimeLimits} {ts : String} {record : LogRecord}
  {context : LoggingContext} {business : BusinessContext} {ctx : LogContext}

/-- The fields of the request are texts, where they are known. -/
theorem LoggingContext.builtin_text {field : String × LogValue} (h : field ∈ context.builtin) :
    field.1 ∈ builtinCtxKeys ∧ ((∃ text, field.2 = .str text) ∨ field.2 = .none) := by
  have hOptional : ∀ text, (∃ other, optional text = .str other) ∨ optional text = .none := by
    intro text
    cases text with
    | none => exact Or.inr rfl
    | some text => exact Or.inl ⟨text, rfl⟩
  refine ⟨List.mem_map_of_mem h, ?_⟩
  simp only [builtin, List.mem_cons, List.not_mem_nil, or_false] at h
  rcases h with rfl | rfl | rfl | rfl | rfl
  · exact Or.inl ⟨_, rfl⟩
  · exact Or.inl ⟨_, rfl⟩
  · exact Or.inl ⟨_, rfl⟩
  · exact hOptional _
  · exact hOptional _

/-- What is true of texts is true of all filled fields of a filtered context when
it is true of the business fields that pass. -/
theorem forall_filtered_iff {p : String × LogValue → Prop} (hText : ∀ key text, p (key, .str text))
    (hItems : ctx.items = Dict.merge (fun item => item.1 ∉ builtinCtxKeys) context.builtin business.items) :
    (∀ item ∈ ctx.items, item.2.Filled → ¬ record.Replaces item.1 → p item) ↔
      ∀ item ∈ business.items, item.2.Filled → item.1 ∉ builtinCtxKeys → ¬ record.Replaces item.1 → p item := by
  rw [hItems]
  constructor
  · intro h item hItem hFilled hPasses
    exact h item (Dict.mem_merge context.nodup_builtin business.nodup hItem hPasses) hFilled
  · intro h item hItem hFilled hWritten
    rcases Dict.mem_of_mem_merge context.nodup_builtin hItem with hBuiltin | ⟨hBusiness, hPasses⟩
    · obtain ⟨key, value⟩ := item
      rcases (LoggingContext.builtin_text hBuiltin).2 with ⟨text, hValue⟩ | hNone
      · cases hValue
        exact hText key text
      · cases hNone
        exact hFilled.elim
    · exact h item hBusiness hFilled hPasses hWritten

/-- A field of the request is in the line as the system has it. -/
theorem get?_payload_builtin {field : String × LogValue} (h : field ∈ context.builtin)
    (hItems : ctx.items = Dict.merge (fun item => item.1 ∉ builtinCtxKeys) context.builtin business.items) :
    Dict.get? (formatter.payload ts { record with ctx := some ctx }) field.1 =
      if field.2.Filled then some field.2 else none := by
  have hKey := (LoggingContext.builtin_text h).1
  have hOther : ∀ key ∈ builtinCtxKeys, "exc_info" ≠ key := by decide
  have hApart : ∀ key ∈ builtinCtxKeys, key ∉ ["ts", "level", "logger", "service", "env", "message"] := by decide
  have hNotFixed : field.1 ∉ (formatter.fixedFields ts record).map Prod.fst := hApart _ hKey
  have hBlocked : ((Dict.get? business.items field.1).filter fun _ => field.1 ∉ builtinCtxKeys) = none := by
    simp [hKey]
  rw [JsonFormatter.get?_payload (hOther _ hKey), hItems, Dict.get?_merge business.nodup, hBlocked,
    Dict.get?_of_mem context.nodup_builtin h, Dict.get?_eq_none hNotFixed, Option.or_none, Option.none_or,
    Option.filter_some]
  simp

/-- A field of the formatter is in the line as the system has it, unless a business
field takes its place. -/
theorem get?_payload_fixed_iff {field : String × LogValue} (h : field ∈ formatter.fixedFields ts record)
    (hItems : ctx.items = Dict.merge (fun item => item.1 ∉ builtinCtxKeys) context.builtin business.items) :
    Dict.get? (formatter.payload ts { record with ctx := some ctx }) field.1 = some field.2 ↔
      ∀ item ∈ business.items, item.1 = field.1 → item.2.Filled → item.2 = field.2 := by
  have hKey : field.1 ∈ ["ts", "level", "logger", "service", "env", "message"] := List.mem_map_of_mem h
  have hOther : ∀ key ∈ ["ts", "level", "logger", "service", "env", "message"],
    "exc_info" ≠ key ∧ key ∉ builtinCtxKeys := by decide
  obtain ⟨hExc, hPasses⟩ := hOther _ hKey
  have hNotBuiltin : field.1 ∉ context.builtin.map Prod.fst := hPasses
  rw [JsonFormatter.get?_payload hExc, hItems, Dict.get?_merge business.nodup,
    Dict.get?_of_mem nodup_fixedFields h, Dict.get?_eq_none hNotBuiltin, Option.or_none]
  have hAll : ((Dict.get? business.items field.1).filter fun _ => field.1 ∉ builtinCtxKeys) =
      Dict.get? business.items field.1 := by
    cases Dict.get? business.items field.1 <;> simp [hPasses, Option.filter_some]
  rw [hAll]
  cases hFound : Dict.get? business.items field.1 with
  | none =>
      refine iff_of_true rfl fun item hItem hSame => ?_
      rw [← hSame, Dict.get?_of_mem business.nodup hItem] at hFound
      cases hFound
  | some value =>
      have hOnly : (∀ item ∈ business.items, item.1 = field.1 → item.2.Filled → item.2 = field.2) ↔
          (value.Filled → value = field.2) := by
        constructor
        · exact fun hItems => hItems (field.1, value) (Dict.mem_of_get? hFound) rfl
        · intro hValue item hItem hSame
          rw [← hSame, Dict.get?_of_mem business.nodup hItem] at hFound
          cases hFound
          exact hValue
      rw [hOnly, Option.filter_some]
      by_cases hFilled : value.Filled <;> simp [hFilled]

variable (formatter limits ts record context business)

theorem exists_filtered : ∃ ctx : LogContext,
    context.filter { record with ctx := some business.toLogContext } = { record with ctx := some ctx } ∧
      ctx.items = Dict.merge (fun item => item.1 ∉ builtinCtxKeys) context.builtin business.items :=
  ⟨_, rfl, rfl⟩

theorem exists_line_iff :
    (∃ line, formatter.format limits ts (context.filter { record with ctx := some business.toLogContext }) =
        some line) ↔
      ∀ item ∈ business.items, item.2.Filled → item.1 ∉ builtinCtxKeys → ¬ record.Replaces item.1 →
        formatter.Writable limits item := by
  obtain ⟨ctx, hFilter, hItems⟩ := exists_filtered record context business
  have hTexts := formatter.writable_str limits
  rw [hFilter, ← forall_filtered_iff hTexts hItems, ← forall_payload_iff formatter ts hTexts]
  constructor
  · rintro ⟨line, hLine⟩
    exact (JsonFormatter.format_eq_some_iff.mp hLine).1
  · intro hWritable
    exact ⟨_, JsonFormatter.format_eq_some_iff.mpr ⟨hWritable, rfl⟩⟩

theorem unifiedLine_iff {line : List Char}
    (hLine : formatter.format limits ts (context.filter { record with ctx := some business.toLogContext }) =
      some line) :
    formatter.UnifiedLine ts record context line ↔
      ∀ item ∈ business.items, ∀ field ∈ formatter.fixedFields ts record, item.1 = field.1 → item.2.Filled →
        item.2 = field.2 := by
  obtain ⟨ctx, hFilter, hItems⟩ := exists_filtered record context business
  rw [hFilter] at hLine
  have hFloats : ∀ field ∈ formatter.payload ts { record with ctx := some ctx }, field.2.FloatsWritten := by
    rw [forall_payload_iff formatter ts (p := fun field => field.2.FloatsWritten) fun _ _ => trivial,
      forall_filtered_iff (p := fun field => field.2.FloatsWritten) (fun _ _ => trivial) hItems]
    exact fun item hItem _ _ _ => business.floats item hItem
  have hFixed : (∀ field ∈ formatter.fixedFields ts record,
      (readJson line).bind (Json.member field.1) = some field.2.json) ↔
      ∀ field ∈ formatter.fixedFields ts record, ∀ item ∈ business.items, item.1 = field.1 → item.2.Filled →
        item.2 = field.2 := by
    refine forall₂_congr fun field hField => ?_
    obtain ⟨text, hText⟩ := JsonFormatter.fixed_text hField
    rw [← get?_payload_fixed_iff hField hItems, hText]
    exact JsonFormatter.member_eq_str_iff hFloats hLine (JsonFormatter.fixed_not_sensitive hField)
  have hBuiltin : ∀ field ∈ context.builtin,
      (readJson line).bind (Json.member field.1) = if field.2.Filled then some field.2.json else none := by
    intro field hField
    obtain ⟨hKey, hText⟩ := LoggingContext.builtin_text hField
    have hPlain : ∀ key ∈ builtinCtxKeys, ¬ SensitiveKey key := by decide
    rw [JsonFormatter.member_of_format hFloats hLine (hPlain _ hKey), get?_payload_builtin hField hItems]
    split
    · next hFilled =>
        rcases hText with ⟨text, hText⟩ | hNone
        · rw [hText]
          exact congrArg some (JsonFormatter.json_shown_eq_str_iff.mpr rfl)
        · rw [hNone] at hFilled
          exact hFilled.elim
    · rfl
  constructor
  · rintro ⟨hSystem, -⟩ item hItem field hField
    exact hFixed.mp hSystem field hField item hItem
  · intro hLeft
    exact ⟨hFixed.mpr fun field hField item hItem => hLeft item hItem field hField, hBuiltin⟩

end Filtered

/-- A line is produced exactly when every field can be written, and it is that of
the system in all unified fields exactly when the business fields leave those of
the formatter alone. -/
theorem JsonFormatter.unified_iff (formatter : JsonFormatter) (limits : RuntimeLimits) (ts : String)
    (record : LogRecord) (context : LoggingContext) (business : BusinessContext) :
    ((∃ line, formatter.format limits ts (context.filter { record with ctx := some business.toLogContext }) =
        some line) ↔
      ∀ item ∈ business.items, item.2.Filled → item.1 ∉ builtinCtxKeys → ¬ record.Replaces item.1 →
        formatter.Writable limits item) ∧
    ∀ line, formatter.format limits ts (context.filter { record with ctx := some business.toLogContext }) =
        some line →
      (formatter.UnifiedLine ts record context line ↔
        ∀ item ∈ business.items, ∀ field ∈ formatter.fixedFields ts record, item.1 = field.1 → item.2.Filled →
          item.2 = field.2) :=
  ⟨exists_line_iff formatter limits ts record context business,
    fun _ => unifiedLine_iff formatter limits ts record context business⟩

/-- A request of a known user. -/
def userRequest : LoggingContext := ⟨"r-1", "t-1", "s-1", some ⟨some "u-1", none⟩⟩

/-- One business field with a text. -/
def BusinessContext.single (key text : String) : BusinessContext where
  items := [(key, .str text)]
  nodup := List.nodup_singleton _
  floats := by simp [LogValue.FloatsWritten]

theorem JsonFormatter.unified_iff_order :
    ∃ line, (⟨"user", "test", true⟩ : JsonFormatter).format ⟨100, 100, 4300⟩ "t"
        (userRequest.filter { plainRecord with ctx := some (BusinessContext.single "order_id" "o-1").toLogContext }) =
          some line ∧
      (⟨"user", "test", true⟩ : JsonFormatter).UnifiedLine "t" plainRecord userRequest line := by
  have h := JsonFormatter.unified_iff ⟨"user", "test", true⟩ ⟨100, 100, 4300⟩ "t" plainRecord userRequest
    (.single "order_id" "o-1")
  obtain ⟨line, hLine⟩ := h.1.mpr fun item hItem _ _ _ => by
    cases List.mem_singleton.mp hItem
    exact writable_str _ _ _ _
  refine ⟨line, hLine, (h.2 line hLine).mpr fun item hItem field hField hSame => ?_⟩
  have hKey : field.1 ∈ ["ts", "level", "logger", "service", "env", "message"] := List.mem_map_of_mem hField
  cases List.mem_singleton.mp hItem
  exact absurd (hSame ▸ hKey) (by decide)

/-- A business field named `level` is written as the level of the line. -/
theorem JsonFormatter.level_forged :
    ∃ line, (⟨"user", "test", true⟩ : JsonFormatter).format ⟨100, 100, 4300⟩ "t"
        (userRequest.filter { plainRecord with ctx := some (BusinessContext.single "level" "DEBUG").toLogContext }) =
          some line ∧
      ¬ (⟨"user", "test", true⟩ : JsonFormatter).UnifiedLine "t" plainRecord userRequest line := by
  obtain ⟨line, hLine⟩ := (exists_line_iff ⟨"user", "test", true⟩ ⟨100, 100, 4300⟩ "t" plainRecord userRequest
    (.single "level" "DEBUG")).mpr fun item hItem _ _ _ => by
      cases List.mem_singleton.mp hItem
      exact writable_str _ _ _ _
  refine ⟨line, hLine, fun hUnified => ?_⟩
  have hSame := (unifiedLine_iff _ _ _ _ _ _ hLine).mp hUnified ("level", .str "DEBUG") (List.mem_singleton_self _)
    ("level", .str "INFO") (by simp [fixedFields, plainRecord]) rfl (by decide)
  exact absurd (LogValue.str.inj hSame) (by decide)

end ServicePlatform
