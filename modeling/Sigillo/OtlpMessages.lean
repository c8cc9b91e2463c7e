import Sigillo.Otlp

/-!
# Trace exports as protocol messages

The messages of a trace export as a body writes them, the objects that stand for them (`toObject`),
and what the server is to read in one (`ExportTraceServiceRequest.meaning`). Fields the server does
not read are left out. A field at its default may be written or not; only of the two times does it
matter which, so only they say. -/

namespace Otlp

open DoubleArith Utf16Text JsonText HexBase64 EcmaText

-- ── Messages ─────────────────────────────────────────────────────────────────────

mutual
/-- One member of the union, or none. A double that is no number is none. -/
inductive AnyValue where
  | unset
  | stringValue (s : JsString)
  | boolValue (b : Bool)
  | intValue (n : Int64)
  | doubleValue (x : Option JsNumber)
  | arrayValue (values : List AnyValue)
  | kvlistValue (values : List KeyValue)
  | bytesValue (bytes : Bytes)

/-- A key with its value. -/
inductive KeyValue where
  | mk (key : JsString) (value : Option AnyValue)
end

/-- An event of a span. -/
structure SpanEvent where
  name : JsString
  attributes : List KeyValue

/-- The status of a span. -/
structure Status where
  code : Int32

/-- A time is `none` where the body does not write it: it is zero then. -/
structure Span where
  traceId : Bytes
  spanId : Bytes
  name : JsString
  startTimeUnixNano : Option UInt64
  endTimeUnixNano : Option UInt64
  attributes : List KeyValue
  events : List SpanEvent
  status : Option Status

/-- The spans of one scope. -/
structure ScopeSpans where
  spans : List Span

/-- What the spans come from. -/
structure Resource where
  attributes : List KeyValue

/-- The spans of one resource. -/
structure ResourceSpans where
  resource : Option Resource
  scopeSpans : List ScopeSpans

/-- A request of the exporter. -/
structure ExportTraceServiceRequest where
  resourceSpans : List ResourceSpans

-- ── Objects ──────────────────────────────────────────────────────────────────────

/-- The members of an object, less those left out. -/
def present (fields : List (JsString × Option Plain)) : Members :=
  fields.filterMap fun f => f.2.map fun v => (f.1, v)

/-- A list, left out where it is empty. -/
def repeatedField : List Plain → Option Plain
  | [] => none
  | items => some (.arr items)

/-- A string, left out where it is empty. -/
def stringField (s : JsString) : Option Plain := if s = [] then none else some (.str s)

/-- `bytes: String`, in base64. -/
def bytesField (bytes : Bytes) : Option Plain :=
  if bytes = [] then none else some (.str (base64Encode bytes))

/-- `longs: String`: a time that is written is there, zero or not. -/
def fixed64Field (time : Option UInt64) : Option Plain := time.map fun n => .str (decimal n.toNat)

/-- `enums: String`, a number where the enumeration has no name for it. -/
def statusCodeField (code : Int32) : Option Plain :=
  if code = 0 then none
  else if code = 1 then some (.str (js "STATUS_CODE_OK"))
  else if code = 2 then some (.str (js "STATUS_CODE_ERROR"))
  else some (.num (.ofRat code.toInt))

/-- A double; what is no number has no JSON of its own. -/
def doubleField : Option JsNumber → Plain
  | some x => .num x
  | none => .nan

mutual
/-- A member of a union is there even where it holds the default. -/
def AnyValue.toObject : AnyValue → Plain
  | .unset => .obj []
  | .stringValue s => .obj [(js "stringValue", .str s)]
  | .boolValue b => .obj [(js "boolValue", .bool b)]
  | .intValue n => .obj [(js "intValue", .str (intText n.toInt))]
  | .doubleValue x => .obj [(js "doubleValue", doubleField x)]
  | .arrayValue values =>
      .obj [(js "arrayValue", .obj (present [(js "values", repeatedField (toObjects values))]))]
  | .kvlistValue values =>
      .obj [(js "kvlistValue", .obj (present [(js "values", repeatedField (toPairObjects values))]))]
  | .bytesValue bytes => .obj [(js "bytesValue", .str (base64Encode bytes))]

/-- The objects of values. -/
def toObjects : List AnyValue → List Plain
  | [] => []
  | v :: vs => v.toObject :: toObjects vs

/-- The objects of key-value pairs. -/
def toPairObjects : List KeyValue → List Plain
  | [] => []
  | .mk key none :: rest => .obj (present [(js "key", stringField key)]) :: toPairObjects rest
  | .mk key (some v) :: rest =>
      .obj (present [(js "key", stringField key), (js "value", some v.toObject)])
        :: toPairObjects rest
end

/-- An event as an object. -/
def SpanEvent.toObject (e : SpanEvent) : Plain :=
  .obj (present [(js "name", stringField e.name),
    (js "attributes", repeatedField (toPairObjects e.attributes))])

/-- A status as an object. -/
def Status.toObject (s : Status) : Plain := .obj (present [(js "code", statusCodeField s.code)])

/-- The members of a span's object. -/
def Span.members (s : Span) : Members :=
  present [(js "traceId", bytesField s.traceId), (js "spanId", bytesField s.spanId),
    (js "name", stringField s.name),
    (js "startTimeUnixNano", fixed64Field s.startTimeUnixNano),
    (js "endTimeUnixNano", fixed64Field s.endTimeUnixNano),
    (js "attributes", repeatedField (toPairObjects s.attributes)),
    (js "events", repeatedField (s.events.map SpanEvent.toObject)),
    (js "status", s.status.map Status.toObject)]

/-- A span as an object. -/
def Span.toObject (s : Span) : Plain := .obj s.members

/-- The members of a scope's object. -/
def ScopeSpans.members (s : ScopeSpans) : Members :=
  present [(js "spans", repeatedField (s.spans.map Span.toObject))]

/-- The spans of a scope as an object. -/
def ScopeSpans.toObject (s : ScopeSpans) : Plain := .obj s.members

/-- A resource as an object. -/
def Resource.toObject (r : Resource) : Plain :=
  .obj (present [(js "attributes", repeatedField (toPairObjects r.attributes))])

/-- The members of the object of a resource's spans. -/
def ResourceSpans.members (r : ResourceSpans) : Members :=
  present [(js "resource", r.resource.map Resource.toObject),
    (js "scopeSpans", repeatedField (r.scopeSpans.map ScopeSpans.toObject))]

/-- The spans of a resource as an object. -/
def ResourceSpans.toObject (r : ResourceSpans) : Plain := .obj r.members

/-- The members of a request's object. -/
def ExportTraceServiceRequest.members (r : ExportTraceServiceRequest) : Members :=
  present [(js "resourceSpans", repeatedField (r.resourceSpans.map ResourceSpans.toObject))]

/-- The object of a request, for a body that writes no field at its default but the times. -/
def ExportTraceServiceRequest.toObject (r : ExportTraceServiceRequest) : Plain := .obj r.members

/-- `protobufjs` is `type.toObject(type.decode(body), …)` with the options of the source, or the
    message of its error. -/
def decodeProtobufTraces (protobufjs : Bytes → Except JsString Plain) (body : Bytes) :
    Except DecodeError (List OtlpSpan) :=
  match protobufjs body with
  | .error message => .error (.otlp (js "not a valid OTLP protobuf " ++ js "trace export: " ++ message))
  | .ok decoded => normalizeExportRequest decoded

-- ── What a message says ──────────────────────────────────────────────────────────

mutual
/-- What a value means: an integer from 2⁵³ on is its text, bytes their base64, pairs the text of an object. -/
def AnyValue.attribute : AnyValue → AttributeValue
  | .unset => .null
  | .stringValue s => .string s
  | .boolValue b => .boolean b
  | .intValue n =>
      if |n.toInt| < 2 ^ 53 then .number (.ofRat n.toInt) else .string (intText n.toInt)
  | .doubleValue (some x) => .number x
  | .doubleValue none => .nan
  | .arrayValue values => .array (attributes values)
  | .kvlistValue values => .string (stringify (.arr (pairs values)))
  | .bytesValue bytes => .string (base64Encode bytes)

/-- What the values of a list mean. -/
def attributes : List AnyValue → List AttributeValue
  | [] => []
  | v :: vs => v.attribute :: attributes vs

/-- What the pairs of a list mean, as the entries of an object. -/
def pairs : List KeyValue → List Json
  | [] => []
  | .mk key none :: rest => .arr [.str key, .null] :: pairs rest
  | .mk key (some v) :: rest => .arr [.str key, v.attribute.toJson] :: pairs rest
end

/-- The key. -/
def KeyValue.key : KeyValue → JsString
  | .mk key _ => key

/-- What its value means. -/
def KeyValue.attribute : KeyValue → AttributeValue
  | .mk _ none => .null
  | .mk _ (some v) => v.attribute

/-- A name that is empty names nothing; one that comes twice means its last value. -/
def attributeMap (entries : List KeyValue) : AttributeMap :=
  entries.foldl (fun map e => if e.key = [] then map else AssocList.set map e.key e.attribute) []

/-- What an event means; none without a time. -/
def SpanEvent.meaning (e : SpanEvent) : Option OtlpSpanEvent :=
  if e.name = [] then none else some ⟨e.name, attributeMap e.attributes⟩

/-- What a status means. -/
def Status.meaning (s : Status) : SpanStatus :=
  if s.code = 1 then .ok else if s.code = 2 then .error else .unset

/-- Identifiers of 16 and 8 bytes. -/
structure Span.Sized (s : Span) : Prop where
  traceId : s.traceId.length = 16
  spanId : s.spanId.length = 8

instance (s : Span) : Decidable s.Sized :=
  decidable_of_iff (s.traceId.length = 16 ∧ s.spanId.length = 8)
    ⟨fun h => ⟨h.1, h.2⟩, fun h => ⟨h.traceId, h.spanId⟩⟩

/-- **What a span means**: none where an id has not its length. -/
def Span.meaning (resource : AttributeMap) (s : Span) : Option OtlpSpan :=
  if h : s.Sized then
    some {
      traceId := ⟨toHex s.traceId, by have := isHex_toHex s.traceId; rwa [h.traceId] at this⟩
      spanId := ⟨toHex s.spanId, by have := isHex_toHex s.spanId; rwa [h.spanId] at this⟩
      name := s.name
      startUnixNano := (s.startTimeUnixNano.getD 0).toNat
      endUnixNano := (s.endTimeUnixNano.getD 0).toNat
      status := (s.status.map Status.meaning).getD .unset
      attributes := attributeMap s.attributes
      resource := resource
      events := (s.events.map SpanEvent.meaning).reduceOption }
  else none

/-- What the resource's attributes mean. -/
def ResourceSpans.attributes (r : ResourceSpans) : AttributeMap :=
  attributeMap ((r.resource.map fun x => x.attributes).getD [])

/-- What the spans of a resource mean, if each of them means anything. -/
def ResourceSpans.meaning (r : ResourceSpans) : Option (List OtlpSpan) :=
  (r.scopeSpans.mapM fun s : ScopeSpans => s.spans.mapM (Span.meaning r.attributes)).map List.flatten

/-- The spans of a request, in order, with the resource each came under. -/
def ExportTraceServiceRequest.meaning (r : ExportTraceServiceRequest) : Option (List OtlpSpan) :=
  (r.resourceSpans.mapM ResourceSpans.meaning).map List.flatten

/-- The spans of a request, as they are written. -/
def ExportTraceServiceRequest.spans (r : ExportTraceServiceRequest) : List Span :=
  r.resourceSpans.flatMap fun x => x.scopeSpans.flatMap fun s => s.spans

-- ── One request, written in two ways ─────────────────────────────────────────────

/-- The span with both its times written. -/
def Span.filled (s : Span) : Span :=
  { s with
    startTimeUnixNano := some (s.startTimeUnixNano.getD 0)
    endTimeUnixNano := some (s.endTimeUnixNano.getD 0) }

/-- The spans of a scope, their times filled in. -/
def ScopeSpans.filled (s : ScopeSpans) : ScopeSpans := ⟨s.spans.map Span.filled⟩

/-- The spans of a resource, their times filled in. -/
def ResourceSpans.filled (r : ResourceSpans) : ResourceSpans :=
  { r with scopeSpans := r.scopeSpans.map ScopeSpans.filled }

/-- **The request itself**, whichever of its times a body writes. -/
def ExportTraceServiceRequest.filled (r : ExportTraceServiceRequest) : ExportTraceServiceRequest :=
  ⟨r.resourceSpans.map ResourceSpans.filled⟩

/-- Filling in the times leaves the ids. -/
theorem Span.sized_filled {s : Span} : s.filled.Sized ↔ s.Sized :=
  ⟨fun h => ⟨h.traceId, h.spanId⟩, fun h => ⟨h.traceId, h.spanId⟩⟩

/-- A time that is missing means zero. -/
theorem Span.meaning_filled (resource : AttributeMap) (s : Span) :
    s.filled.meaning resource = s.meaning resource := by
  rw [Span.meaning, Span.meaning]
  by_cases h : s.Sized
  · rw [dif_pos h, dif_pos (Span.sized_filled.mpr h)]
    rfl
  · rw [dif_neg h, dif_neg fun hfilled => h (Span.sized_filled.mp hfilled)]

/-- Times that are missing mean zero. -/
theorem ResourceSpans.meaning_filled (r : ResourceSpans) : r.filled.meaning = r.meaning := by
  have hscope : ∀ s : ScopeSpans, s.filled.spans.mapM (Span.meaning r.attributes)
      = s.spans.mapM (Span.meaning r.attributes) := by
    intro s
    rw [ScopeSpans.filled, List.mapM_map]
    exact congrArg (fun f => s.spans.mapM f) (funext fun x => x.meaning_filled _)
  rw [ResourceSpans.meaning, ResourceSpans.filled, List.mapM_map]
  exact congrArg (fun f => (r.scopeSpans.mapM f).map List.flatten) (funext hscope)

/-- **A request says what it says**, whichever of its times are written. -/
theorem ExportTraceServiceRequest.meaning_filled (r : ExportTraceServiceRequest) :
    r.filled.meaning = r.meaning := by
  rw [ExportTraceServiceRequest.meaning, ExportTraceServiceRequest.filled, List.mapM_map]
  exact congrArg (fun f => (r.resourceSpans.mapM f).map List.flatten)
    (funext ResourceSpans.meaning_filled)

end Otlp
