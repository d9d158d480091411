import ServicePlatform.Contract.Events
import ServicePlatform.Kernel.App
import ServicePlatform.Text.Hex

/-! Trace identifiers: the W3C header that carries them, the tracer and the
propagator as they are documented, and the request context that takes its
trace id from a span. -/
namespace ServicePlatform

open Text

/-- `format(n, "0{width}x")` of a number that fits the width. -/
def hexText (width n : Nat) : String := String.ofList (hexDigits width n)

structure SpanContext where
  traceId : Nat
  spanId : Nat
  deriving DecidableEq

/-- `is_valid`. -/
def SpanContext.IsValid (span : SpanContext) : Prop :=
  (0 < span.traceId ∧ span.traceId < 16 ^ 32) ∧ 0 < span.spanId ∧ span.spanId < 16 ^ 16

instance (span : SpanContext) : Decidable span.IsValid :=
  inferInstanceAs (Decidable (_ ∧ _))

/-- A valid `traceparent` header. Only versions after the first may have more
behind the flags. -/
structure Traceparent where
  version : Nat
  parent : SpanContext
  flags : Nat
  more : List Char
  version_lt : version < 255
  parent_valid : parent.IsValid
  flags_lt : flags < 256
  more_form : more = [] ∨ version ≠ 0 ∧ more.head? = some '-'

def Traceparent.text (header : Traceparent) : String :=
  String.ofList (hexDigits 2 header.version ++ '-' :: (hexDigits 32 header.parent.traceId ++ '-' ::
    (hexDigits 16 header.parent.spanId ++ '-' :: (hexDigits 2 header.flags ++ header.more))))

/-- The trace id that the header shows. -/
def Traceparent.traceId (header : Traceparent) : String := hexText 32 header.parent.traceId

/-- The tracer and the propagator. A span is started where another is current
or where none is, with identifiers that are drawn for it. A context without a
valid header has no span. -/
structure OpenTelemetry where
  startSpan : Option SpanContext → SpanContext → SpanContext
  extract : Headers → Option SpanContext
  injectedParent : SpanContext → Option String
  injectedState : SpanContext → Option String
  started : ∀ current drawn, (∀ span, current = some span → span.IsValid) → drawn.IsValid →
    (startSpan current drawn).IsValid ∧ (startSpan current drawn).traceId = (current.getD drawn).traceId
  extract_valid : ∀ carrier span, extract carrier = some span → span.IsValid
  extracted : ∀ carrier (header : Traceparent), Headers.last carrier "traceparent" = some header.text →
    ∃ span, extract carrier = some span ∧ span.traceId = header.parent.traceId
  injected : ∀ span, span.IsValid →
    ∃ header : Traceparent, injectedParent span = some header.text ∧ header.parent.traceId = span.traceId

/-- Where a span is started: the current span, and the identifiers drawn. -/
structure SpanSite where
  current : Option SpanContext
  drawn : SpanContext
  current_valid : ∀ span, current = some span → span.IsValid
  drawn_valid : drawn.IsValid

/-- The trace that a span started here belongs to: the one under way, or a
new one. -/
def SpanSite.traceId (site : SpanSite) : Nat := (site.current.getD site.drawn).traceId

structure RequestContext where
  requestId : String
  traceId : String
  spanId : String
  deriving DecidableEq

namespace OpenTelemetry

/-- The context that `RequestContextMiddleware` sets. -/
def requestContext (otel : OpenTelemetry) (site : SpanSite) (request : HttpRequest) : RequestContext :=
  let span := otel.startSpan site.current site.drawn
  if span.IsValid then ⟨KernelApp.requestId request, hexText 32 span.traceId, hexText 16 span.spanId⟩
  else ⟨KernelApp.requestId request, "", ""⟩

end OpenTelemetry

/-- `envelope_trace_from_context`. Without a trace id there is no trace, and an
id of another form fails validation. -/
def envelopeTraceFromContext (context : RequestContext) : Option (Option TraceContext) :=
  if context.traceId = "" then some none
  else
    (TraceContext.modelValidate [(.str "trace_id", .str context.traceId),
      (.str "span_id", .str "0000000000000000")]).map some

theorem isLowerHex_hexText (width n : Nat) : isLowerHex width (hexText width n) = true := by
  have hDigit : ∀ c ∈ hexDigits width n,
      ((decide ('0' ≤ c) && decide (c ≤ '9')) || (decide ('a' ≤ c) && decide (c ≤ 'f'))) = true := by
    intro c hc
    have hForm := isHexDigit_of_mem hc
    simpa [IsHexDigit] using hForm
  unfold isLowerHex hexText
  rw [String.length_ofList, length_hexDigits, String.toList_ofList, List.all_eq_true.mpr hDigit]
  simp

theorem hexText_inj {width m n : Nat} (hm : m < 16 ^ width) (hn : n < 16 ^ width) :
    hexText width m = hexText width n ↔ m = n := by
  rw [← hexDigits_inj hm hn]
  exact String.ofList_inj

theorem SpanSite.traceId_lt (site : SpanSite) : site.traceId < 16 ^ 32 := by
  unfold SpanSite.traceId
  cases hCurrent : site.current with
  | none => exact site.drawn_valid.1.2
  | some span => exact (site.current_valid span hCurrent).1.2

/-- The context shows the trace of its site, whatever the headers say. -/
theorem requestContext_traceId (otel : OpenTelemetry) (site : SpanSite) (request : HttpRequest) :
    (otel.requestContext site request).traceId = hexText 32 site.traceId := by
  obtain ⟨hValid, hTrace⟩ := otel.started site.current site.drawn site.current_valid site.drawn_valid
  unfold OpenTelemetry.requestContext
  rw [if_pos hValid, hTrace]
  rfl

/-- The context continues the trace of a header exactly when its site is
already in it. -/
theorem requestContext_continues (otel : OpenTelemetry) (site : SpanSite) (request : HttpRequest)
    (header : Traceparent) :
    (otel.requestContext site request).traceId = header.traceId ↔ site.traceId = header.parent.traceId := by
  rw [requestContext_traceId]
  exact hexText_inj site.traceId_lt header.parent_valid.1.2

/-- An event staged in a context shows its trace id. -/
theorem envelopeTraceFromContext_requestContext (otel : OpenTelemetry) (site : SpanSite) (request : HttpRequest) :
    ∃ trace, envelopeTraceFromContext (otel.requestContext site request) = some (some trace) ∧
      trace.traceId = (otel.requestContext site request).traceId := by
  have hText := requestContext_traceId otel site request
  generalize otel.requestContext site request = context at hText ⊢
  have hHex : isLowerHex 32 context.traceId = true := hText ▸ isLowerHex_hexText 32 site.traceId
  have hNonempty : context.traceId ≠ "" := by
    intro hEmpty
    rw [hEmpty] at hHex
    cases hHex
  have hTrace : TraceContext.stringField [(.str "trace_id", .str context.traceId),
      (.str "span_id", .str "0000000000000000")] "trace_id" none = some context.traceId := rfl
  have hSpan : TraceContext.stringField [(.str "trace_id", .str context.traceId),
      (.str "span_id", .str "0000000000000000")] "span_id" none = some "0000000000000000" := rfl
  have hFlags : TraceContext.stringField [(.str "trace_id", .str context.traceId),
      (.str "span_id", .str "0000000000000000")] "trace_flags" (some "01") = some "01" := rfl
  have hSpanHex : isLowerHex 16 "0000000000000000" = true := by decide
  have hFlagsHex : isLowerHex 2 "01" = true := by decide
  refine ⟨⟨context.traceId, "0000000000000000", "01", hHex, hSpanHex, hFlagsHex⟩, ?_, rfl⟩
  unfold envelopeTraceFromContext TraceContext.modelValidate
  simp only [if_neg hNonempty, hTrace, hSpan, hFlags, dif_pos (And.intro hHex (And.intro hSpanHex hFlagsHex)),
    Option.map_some]

end ServicePlatform
