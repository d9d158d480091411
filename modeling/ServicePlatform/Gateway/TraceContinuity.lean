import ServicePlatform.Gateway.Proxy
import ServicePlatform.Kernel.Telemetry

/-! A trace that goes through the gateway. The proxy reads the header of the
client and sends on one of the same trace. But no application reads the header
when a request enters, so each context shows a trace of its own. -/
namespace ServicePlatform.Gateway

/-- The call of `proxy_request`: the span is started under the extracted
context, with the drawn identifiers, and injected. -/
def tracedCall (otel : OpenTelemetry) (method path : String) (request : HttpRequest) (identity : Identity)
    (drawn : SpanContext) : ProxyCall where
  method := method
  path := path
  request := request
  identity := identity
  traceparent := otel.injectedParent (otel.startSpan (otel.extract request.headers) drawn)
  tracestate := otel.injectedState (otel.startSpan (otel.extract request.headers) drawn)

/-- The request that an instance receives from an attempt of the call. -/
def HttpClient.relayed (client : HttpClient) (call : ProxyCall) (url uuid : String) (site : SpanSite) :
    HttpRequest :=
  client.deliver (call.outbound url) uuid (hexText 32 site.traceId)

/-- The instance sees the trace header that the gateway injected. -/
theorem relayed_traceparent (client : HttpClient) (call : ProxyCall) (url uuid : String) (site : SpanSite)
    {text : String} (hInjected : call.traceparent = some text) :
    (client.relayed call url uuid site).header "traceparent" = some text := by
  have hParent : lowerName "traceparent" = "traceparent" := by decide
  have hState : lowerName "tracestate" ≠ "traceparent" := by decide
  have hLast : ∀ front : Headers, Headers.last (front ++ [("traceparent", text)] ++
      (call.tracestate.map fun value => ("tracestate", value)).toList) "traceparent" = some text := by
    intro front
    unfold Headers.last
    cases call.tracestate with
    | none => simp [hParent]
    | some state => simp [hParent, hState]
  unfold HttpRequest.header HttpClient.relayed HttpClient.deliver ProxyCall.outbound ProxyCall.outHeaders
  rw [hInjected]
  simp only [← List.append_assoc]
  exact hLast _

/-- The proxy sends a header of the client's trace. -/
theorem tracedCall_traceparent (otel : OpenTelemetry) (method path : String) {request : HttpRequest}
    (identity : Identity) {drawn : SpanContext} (hDrawn : drawn.IsValid) {header : Traceparent}
    (hHeader : request.header "traceparent" = some header.text) :
    ∃ sent : Traceparent, (tracedCall otel method path request identity drawn).traceparent = some sent.text ∧
      sent.parent.traceId = header.parent.traceId := by
  obtain ⟨remote, hExtract, hRemote⟩ := otel.extracted request.headers header hHeader
  have hCurrent : ∀ span, otel.extract request.headers = some span → span.IsValid :=
    otel.extract_valid request.headers
  obtain ⟨hValid, hTrace⟩ := otel.started (otel.extract request.headers) drawn hCurrent hDrawn
  obtain ⟨sent, hSent, hSame⟩ := otel.injected _ hValid
  refine ⟨sent, hSent, ?_⟩
  rw [hSame, hTrace, hExtract, Option.getD_some, hRemote]

/-- A request with a trace header enters the gateway, and attempts of the call
relay it. Each attempt carries the client's trace, and the context of the
gateway, that of the instance and an event staged there continue it on exactly
those requests for which both are already in it when their contexts are set. -/
theorem trace_continuity_iff (otel : OpenTelemetry) (client : HttpClient) (method path : String)
    {request : HttpRequest} (identity : Identity) {drawn : SpanContext} (hDrawn : drawn.IsValid)
    {header : Traceparent} (hHeader : request.header "traceparent" = some header.text)
    (url uuid : String) (gateway service : SpanSite) :
    let relayed := client.relayed (tracedCall otel method path request identity drawn) url uuid service
    (∃ sent : Traceparent, relayed.header "traceparent" = some sent.text ∧ sent.traceId = header.traceId) ∧
    ((otel.requestContext gateway request).traceId = header.traceId ↔
      gateway.traceId = header.parent.traceId) ∧
    ((otel.requestContext gateway request).traceId = header.traceId ∧
        (otel.requestContext service relayed).traceId = header.traceId ∧
        (∃ trace, envelopeTraceFromContext (otel.requestContext service relayed) = some (some trace) ∧
          trace.traceId = header.traceId) ↔
      gateway.traceId = header.parent.traceId ∧ service.traceId = header.parent.traceId) := by
  intro relayed
  have hGateway := requestContext_continues otel gateway request header
  have hService := requestContext_continues otel service relayed header
  obtain ⟨sent, hSent, hSame⟩ := tracedCall_traceparent otel method path identity hDrawn hHeader
  obtain ⟨trace, hTrace, hStaged⟩ := envelopeTraceFromContext_requestContext otel service relayed
  refine ⟨⟨sent, relayed_traceparent client _ url uuid service hSent, ?_⟩, hGateway, ?_⟩
  · show hexText 32 _ = hexText 32 _
    rw [hSame]
  · rw [hGateway, hService]
    constructor
    · rintro ⟨hHere, hThere, -⟩
      exact ⟨hHere, hThere⟩
    · rintro ⟨hHere, hThere⟩
      exact ⟨hHere, hThere, trace, hTrace, hStaged.trans (hService.mpr hThere)⟩

/-- The span of a header, read by position. -/
def parseTraceparent (text : String) : Option SpanContext :=
  let span : SpanContext := ⟨Text.hexValue ((text.toList.drop 3).take 32), Text.hexValue ((text.toList.drop 36).take 16)⟩
  if span.IsValid then some span else none

theorem parseTraceparent_text (header : Traceparent) : parseTraceparent header.text = some header.parent := by
  obtain ⟨⟨-, hTrace⟩, -, hSpan⟩ := header.parent_valid
  have hFirst : (header.text.toList.drop 3).take 32 = Text.hexDigits 32 header.parent.traceId := by
    simp [Traceparent.text, List.drop_append, List.take_append]
  have hVersion : (Text.hexDigits 2 header.version).drop 36 = [] := List.drop_eq_nil_of_le (by simp)
  have hPassed : (Text.hexDigits 32 header.parent.traceId).drop 33 = [] := List.drop_eq_nil_of_le (by simp)
  have hSecond : (header.text.toList.drop 36).take 16 = Text.hexDigits 16 header.parent.spanId := by
    simp [Traceparent.text, List.drop_append, hVersion, hPassed]
  unfold parseTraceparent
  simp only [hFirst, hSecond, Text.hexValue_hexDigits hTrace, Text.hexValue_hexDigits hSpan]
  exact if_pos header.parent_valid

/-- A tracer and a propagator that work on valid headers as documented. -/
def sampleTelemetry : OpenTelemetry where
  startSpan
    | none, drawn => drawn
    | some span, drawn => ⟨span.traceId, drawn.spanId⟩
  extract carrier := (Headers.last carrier "traceparent").bind parseTraceparent
  injectedParent span :=
    if h : span.IsValid then some (Traceparent.text ⟨0, span, 1, [], by decide, h, by decide, Or.inl rfl⟩) else none
  injectedState _ := none
  started current drawn hCurrent hDrawn := by
    cases current with
    | none => exact ⟨hDrawn, rfl⟩
    | some span =>
        have hTrace := (hCurrent span rfl).1
        exact ⟨⟨hTrace, hDrawn.2⟩, rfl⟩
  extract_valid carrier span h := by
    obtain ⟨text, -, hParsed⟩ := Option.bind_eq_some_iff.mp h
    obtain ⟨hValid, hSpan⟩ := Option.ite_none_right_eq_some.mp hParsed
    rw [← Option.some_inj.mp hSpan]
    exact hValid
  extracted carrier header h := by
    refine ⟨header.parent, ?_, rfl⟩
    rw [h, Option.bind_some]
    exact parseTraceparent_text header
  injected span h := ⟨⟨0, span, 1, [], by decide, h, by decide, Or.inl rfl⟩, dif_pos h, rfl⟩

/-- The header that the tests of the repository send. -/
def sampleHeader : Traceparent where
  version := 0
  parent := ⟨0x4bf92f3577b34da6a3ce929d0e0e4736, 0x00f067aa0ba902b7⟩
  flags := 1
  more := []
  version_lt := by decide
  parent_valid := by decide
  flags_lt := by decide
  more_form := Or.inl rfl

/-- A site in a task without a span. -/
def rootSite (drawn : SpanContext) (hDrawn : drawn.IsValid) : SpanSite := ⟨none, drawn, by simp, hDrawn⟩

/-- A site in a task that runs in the client's span. -/
def clientSite : SpanSite where
  current := some sampleHeader.parent
  drawn := ⟨1, 1⟩
  current_valid span h := by
    cases h
    exact sampleHeader.parent_valid
  drawn_valid := by decide

def tracedRequest : HttpRequest where
  method := "POST"
  path := "/v1/users"
  headers := [("traceparent", sampleHeader.text)]
  body := []
  uuid := "r-1"
  traceId := hexText 32 1

theorem tracedRequest_header : tracedRequest.header "traceparent" = some sampleHeader.text := by
  have hName : lowerName "traceparent" = "traceparent" := by decide
  simp [HttpRequest.header, Headers.last, tracedRequest, hName]

/-- What an instance receives when the request is relayed. -/
def relayedSample (service : SpanSite) : HttpRequest :=
  plainClient.relayed (tracedCall sampleTelemetry "POST" "/v1/users" tracedRequest ⟨"dev-user", [], none⟩ ⟨2, 2⟩)
    "http://upstream-a:8100" "r-2" service

/-- Where both applications run in the client's span already, the trace goes on. -/
theorem trace_continuity_iff_instrumented :
    (sampleTelemetry.requestContext clientSite tracedRequest).traceId = sampleHeader.traceId ∧
      (sampleTelemetry.requestContext clientSite (relayedSample clientSite)).traceId = sampleHeader.traceId ∧
      ∃ trace, envelopeTraceFromContext (sampleTelemetry.requestContext clientSite (relayedSample clientSite)) =
        some (some trace) ∧ trace.traceId = sampleHeader.traceId :=
  (trace_continuity_iff sampleTelemetry plainClient "POST" "/v1/users" ⟨"dev-user", [], none⟩ (by decide)
    tracedRequest_header "http://upstream-a:8100" "r-2" clientSite clientSite).2.2.mpr ⟨rfl, rfl⟩

/-- Served by tasks of their own, gateway and instance show the trace ids that
they draw, although each receives a header of the client's trace. -/
theorem trace_breaks :
    tracedRequest.header "traceparent" = some sampleHeader.text ∧
      (sampleTelemetry.requestContext (rootSite ⟨1, 1⟩ (by decide)) tracedRequest).traceId ≠ sampleHeader.traceId ∧
      (relayedSample (rootSite ⟨3, 3⟩ (by decide))).header "traceparent" =
        some "00-4bf92f3577b34da6a3ce929d0e0e4736-0000000000000002-01" ∧
      (sampleTelemetry.requestContext (rootSite ⟨3, 3⟩ (by decide))
        (relayedSample (rootSite ⟨3, 3⟩ (by decide)))).traceId ≠ sampleHeader.traceId := by
  refine ⟨tracedRequest_header, ?_, ?_, ?_⟩
  · rw [requestContext_traceId]
    decide +kernel
  · decide +kernel
  · rw [requestContext_traceId]
    decide +kernel

end ServicePlatform.Gateway
