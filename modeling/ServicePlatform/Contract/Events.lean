import ServicePlatform.Contract.JsonColumn

/-! The event envelope of the contract SDK and the trace context it carries.
A `TraceContext` that exists has passed its field patterns, so the patterns
are part of the type and a value read back needs no further check. -/
namespace ServicePlatform

/-- An instant, in microseconds; `datetime` has no finer resolution. -/
abbrev DateTime := Int

/-- The pattern `^[0-9a-f]{n}$`. -/
def isLowerHex (n : Nat) (text : String) : Bool :=
  text.length = n && text.toList.all fun c =>
    (decide ('0' ≤ c) && decide (c ≤ '9')) || (decide ('a' ≤ c) && decide (c ≤ 'f'))

structure TraceContext where
  traceId : String
  spanId : String
  traceFlags : String
  traceId_hex : isLowerHex 32 traceId = true
  spanId_hex : isLowerHex 16 spanId = true
  traceFlags_hex : isLowerHex 2 traceFlags = true
  deriving DecidableEq

namespace TraceContext

def traceparent (t : TraceContext) : String :=
  "00-" ++ t.traceId ++ "-" ++ t.spanId ++ "-" ++ t.traceFlags

def modelDump (t : TraceContext) : PyValue :=
  .dict [(.str "trace_id", .str t.traceId), (.str "span_id", .str t.spanId),
    (.str "trace_flags", .str t.traceFlags)]

/-- A string field read from a dictionary. A missing field takes its default;
a value of another type fails validation. -/
def stringField (items : List (PyKey × PyValue)) (name : String) (default : Option String) :
    Option String :=
  match items.lookup (.str name) with
  | some (.str text) => some text
  | some _ => none
  | none => default

def modelValidate (items : List (PyKey × PyValue)) : Option TraceContext :=
  match stringField items "trace_id" none, stringField items "span_id" none,
      stringField items "trace_flags" (some "01") with
  | some traceId, some spanId, some traceFlags =>
      if h : isLowerHex 32 traceId = true ∧ isLowerHex 16 spanId = true ∧
          isLowerHex 2 traceFlags = true then
        some ⟨traceId, spanId, traceFlags, h.1, h.2.1, h.2.2⟩
      else none
  | _, _, _ => none

end TraceContext

structure EventEnvelope where
  eventId : String
  eventName : String
  source : String
  aggregateType : String
  aggregateId : String
  occurredAt : DateTime
  payload : StrDict
  trace : Option TraceContext

end ServicePlatform
