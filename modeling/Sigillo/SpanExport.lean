import Sigillo.SpanFilter

/-!
# What the exporters send

`SigilloSpanExporter.send` of the TypeScript SDK rewrites a span of the Vercel AI SDK into the
GenAI vocabulary, filters it and writes the batch as OTLP/JSON. The exporter of the Python SDK
filters, and leaves the writing to OpenTelemetry's. -/

namespace Sdk

open DoubleArith Utf16Text JsonText HexBase64 Sigillo
open Otlp (SpanStatus)

def Scalar.json : Scalar → Json
  | .string s => .str s
  | .number x => .num x
  -- `JSON.stringify(NaN)`
  | .nan => .null
  | .boolean b => .bool b

def AttributeValue.json : AttributeValue → Json
  | .scalar v => v.json
  | .list items => .arr (items.map Scalar.json)

-- ── The dialect of the Vercel AI SDK ─────────────────────────────────────────────

namespace VercelAi

def text : AttributeValue → Option JsString
  | .scalar (.string s) => if s.length > 0 then some s else none
  | value => some (stringify value.json)

def first (attributes : Attributes) (names : List JsString) : Option JsString :=
  names.findSome? fun name => (attributes.get name).bind text

/-- `out[key] = value`, where there is a value. -/
def assign (out : Attributes) (key : JsString) (value : Option JsString) : Attributes :=
  match value with
  | some s => out.set key (.scalar (.string s))
  | none => out

def OPERATION : JsString := js "gen_ai.operation.name"

/-- The model and the provider, under their own names or the AI SDK's. -/
def assignModel (a out : Attributes) : Attributes :=
  assign (assign out (js "gen_ai.request.model") (first a [js "gen_ai.request.model", js "ai.model.id"]))
    (js "gen_ai.provider.name")
    (first a [js "gen_ai.provider.name", js "ai.model.provider", js "gen_ai.system"])

def assignContents (a out : Attributes) (input output : List JsString) : Attributes :=
  assign (assign out (js "gen_ai.input.messages") (first a input))
    (js "gen_ai.output.messages") (first a output)

/-- The branch for a span's name. -/
def translated (name : JsString) (a out : Attributes) : Attributes :=
  if name = js "ai.toolCall" then
    let out := out.set OPERATION (.scalar (.string (js "execute_tool")))
    assignContents a (assign out (js "gen_ai.tool.name") (first a [js "ai.toolCall.name"]))
      [js "ai.toolCall.args"] [js "ai.toolCall.result"]
  else if (js ".doGenerate").isSuffixOf name ∨ (js ".doStream").isSuffixOf name then
    assignContents a (assignModel a (out.set OPERATION (.scalar (.string (js "chat")))))
      [js "ai.prompt.messages", js "ai.prompt"]
      [js "ai.response.text", js "ai.response.object", js "ai.response.toolCalls"]
  else if (js ".doEmbed").isSuffixOf name then
    assignModel a (out.set OPERATION (.scalar (.string (js "embeddings"))))
  else
    assignContents a (out.set OPERATION (.scalar (.string (js "invoke_agent"))))
      [js "ai.prompt"] [js "ai.response.text", js "ai.response.object"]

end VercelAi

/-- A span in the AI SDK's dialect in the standard names; any other as it is. -/
def translateVercelAi (span : FinishedSpan) : FinishedSpan :=
  let a := span.attributes
  if (js "ai.").isPrefixOf span.name = false ∨ (a.get VercelAi.OPERATION).isSome then span
  else
    let agent := (VercelAi.first a [js "ai.telemetry.functionId"]).or
      (VercelAi.first span.resource [js "service.name"])
    { span with attributes :=
        VercelAi.translated span.name a (VercelAi.assign a (js "gen_ai.agent.name") agent) }

-- ── OTLP/JSON ────────────────────────────────────────────────────────────────────

/-- A number of the request, as `JSON.stringify` will have it. -/
def Scalar.anyValue : Scalar → Json
  | .string s => .obj [(js "stringValue", .str s)]
  | .boolean b => .obj [(js "boolValue", .bool b)]
  | .nan => .obj [(js "doubleValue", .null)]
  | .number (.infinity _) => .obj [(js "doubleValue", .null)]
  | .number (.fin q h) =>
      if q.den = 1 then .obj [(js "intValue", .str (numberToString (.fin q h)))]
      else .obj [(js "doubleValue", .num (.fin q h))]

def AttributeValue.anyValue : AttributeValue → Json
  | .scalar v => v.anyValue
  | .list items => .obj [(js "arrayValue", .obj [(js "values", .arr (items.map Scalar.anyValue))])]

def keyValue (entry : JsString × AttributeValue) : Json :=
  .obj [(js "key", .str entry.1), (js "value", entry.2.anyValue)]

def keyValues (attributes : Attributes) : Json := .arr (attributes.1.map keyValue)

/-- `n.toString()` of a BigInt. -/
def bigintText (n : ℤ) : JsString := if n < 0 then 0x2D :: decimal n.natAbs else decimal n.natAbs

def statusNumber : SpanStatus → ℕ
  | .unset => 0
  | .ok => 1
  | .error => 2

def eventJson (event : SpanEventData) : Json :=
  .obj [(js "name", .str event.name), (js "timeUnixNano", .str (bigintText event.timeUnixNano)),
    (js "attributes", keyValues event.attributes)]

def spanJson (span : FinishedSpan) : Json :=
  .obj ([(js "traceId", .str span.traceId.1), (js "spanId", .str span.spanId.1)]
    ++ (span.parentSpanId.map fun id => (js "parentSpanId", Json.str id.1)).toList
    ++ [(js "name", .str span.name), (js "kind", .num (.ofNat 1)),
      (js "startTimeUnixNano", .str (bigintText span.startUnixNano)),
      (js "endTimeUnixNano", .str (bigintText span.endUnixNano)),
      (js "attributes", keyValues span.attributes),
      (js "events", .arr (span.events.map eventJson)),
      (js "status", .obj [(js "code", .num (.ofNat (statusNumber span.statusCode)))])])

/-- `JSON.stringify(resource)`. -/
def resourceText (resource : Attributes) : JsString :=
  stringify (.obj (resource.1.map fun entry => (entry.1, entry.2.json)))

/-- The spans of one resource. -/
def resourceSpansJson (group : List FinishedSpan) : Json :=
  .obj [(js "resource", .obj [(js "attributes",
      keyValues ((group.head?.map FinishedSpan.resource).getD .empty))]),
    (js "scopeSpans", .arr [.obj [(js "scope", .obj [(js "name", .str (js "@sigillo/sdk"))]),
      (js "spans", .arr (group.map spanJson))]])]

def toOtlpJson (spans : List FinishedSpan) : Json :=
  let byResource := AssocList.groupBy (fun span => resourceText span.resource) spans
  .obj [(js "resourceSpans", .arr (byResource.map fun group => resourceSpansJson group.2))]

variable (c : Crypto)

/-- The body of the request that carries a batch, with redaction on and the nonces each span would
    draw; an empty batch is not sent. -/
def send (options : FilterOptions) (fresh : ℕ → ArtifactRole → Nonce) (spans : List FinishedSpan) :
    Option Json :=
  if spans.isEmpty then none
  else some (toOtlpJson (spans.mapIdx fun i span => filterSpan c (translateVercelAi span) options (fresh i)))

-- ── In Python ────────────────────────────────────────────────────────────────────

/-- OpenTelemetry's span in Python: with what its filter only hands on (the parent's context, the
    links, the kind, the instrumentation scope). -/
structure ReadableSpan (Rest : Type) where
  span : FinishedSpan
  statusDescription : Option JsString
  rest : Rest

/-- The spans `_ContentFilteringExporter.export` hands to the OTLP exporter. -/
def exported {Rest : Type} (options : FilterOptions) (fresh : ℕ → ArtifactRole → Nonce)
    (spans : List (ReadableSpan Rest)) : Except UnicodeEncodeError (List (ReadableSpan Rest)) :=
  spans.zipIdx.mapM fun numbered =>
    (filteredSpan c numbered.1.span options (fresh numbered.2)).map fun span =>
      ⟨span, none, numbered.1.rest⟩

end Sdk
