import Sigillo.ChainEvents
import Sigillo.DateText
import Sigillo.Otlp

/-!
# Spans as actions

What the server makes of a batch of spans, in two dialects: which of them are actions, what each
records, and in which order. The receipt's own checks come later (`checkEvent`); here the only
thing that throws is a time that is no date. -/

namespace Sigillo

open DoubleArith Utf16Text JsonText HexBase64 IsoTime EcmaText
open Otlp (AttributeMap AttributeValue OtlpSpan OtlpSpanEvent)

-- ── Actions ──────────────────────────────────────────────────────────────────────

/-- The material of a receipt. A value received in the clear is the string under `value`. -/
structure AdaptedAction where
  action : ActionInput
  actor : ActorInput
  outcome : Outcome
  inputHash : Option JsString
  outputHash : Option JsString
  inputNonce : Option JsString
  outputNonce : Option JsString
  rawInput : Option JsString
  rawOutput : Option JsString
  source : SourceInput
  tsEvent : JsString
  artifacts : Option (List ArtifactInput)
  model : Option ModelInput
deriving DecidableEq

/-- An action with what orders it in its batch. -/
structure OrderedAction extends AdaptedAction where
  startUnixNano : ℤ
  spanId : JsString
deriving DecidableEq

/-- What a batch is adapted to. -/
structure AdaptedBatch where
  actions : List AdaptedAction
  ignored : ℕ
  unknown : List JsString
  rawContentHashed : ℕ
deriving DecidableEq

/-- What `toISOString` throws. -/
inductive RangeError where
  | invalidTimeValue
deriving DecidableEq

/-- What the names of one dialect start with. -/
def GENAI_PREFIX : JsString := js "gen_ai."

/-- The attribute that tells the other. -/
def OPENINFERENCE_KIND : JsString := js "openinference.span.kind"

/-- The event that declares a document. -/
def ARTIFACT_EVENT_NAME : JsString := js "sigillo.artifact"

/-- Where a model's name is looked for. -/
def MODEL_NAME_ATTRIBUTES : List JsString :=
  [js "gen_ai.request.model", js "gen_ai.response.model", js "llm.model_name"]

/-- Where its provider is. -/
def MODEL_PROVIDER_ATTRIBUTES : List JsString :=
  [js "gen_ai.provider.name", js "gen_ai.system", js "llm.provider", js "llm.system"]

-- ── Reading attributes ───────────────────────────────────────────────────────────

/-- A string that is not blank. -/
def nonBlank : AttributeValue → Option JsString
  | .string s => if isBlank s then none else some s
  | _ => none

/-- The first of some names that holds text. -/
def text (attributes : AttributeMap) (names : List JsString) : Option JsString :=
  names.findSome? fun name => (attributes.lookup name).bind nonBlank

/-- Text as a receipt can hold it: well-formed, and cut to a length, never inside a pair. -/
def cap (value : JsString) (limit : ℕ) : JsString :=
  let whole := toWellFormed value
  if whole.length ≤ limit then whole else dropHalf (whole.take limit)

/-- `outcomeOf`: how a span says it ended. -/
def outcomeOf (span : OtlpSpan) : Outcome :=
  match span.status with
  | .ok => .ok
  | .error => .error
  | .unset =>
      if (text span.attributes [js "error.type"]).isSome then .error
      -- it may have been caught, and the source did not say
      else if span.events.any fun event => event.name == js "exception" then .unknown
      else .ok

/-- The whole milliseconds of a time, its fraction dropped towards zero. -/
def millisOf (nanos : ℤ) : ℤ := nanos.tdiv 1000000

/-- `isoFromUnixNano`: an error where the date is out of range. -/
def isoFromUnixNano (nanos : ℤ) : Except RangeError JsString :=
  match toISOString (.ofRat (millisOf nanos)) with
  | some iso => .ok iso
  | none => .error .invalidTimeValue

/-- An input or an output: a digest with the nonce it was salted under, or the value itself. -/
structure Payload where
  hash : Option JsString
  nonce : Option JsString
  raw : Option JsString
deriving DecidableEq

/-- The attribute of a role's digest. -/
def sha256Name (role : ArtifactRole) : JsString := js "sigillo." ++ role.name ++ js ".sha256"

/-- The attribute of a role's nonce. -/
def nonceName (role : ArtifactRole) : JsString := js "sigillo." ++ role.name ++ js ".nonce"

/-- A digest the caller computed, else the first of some names that holds text. A nonce that is
    none leaves the digest out. -/
def payloadOf (attributes : AttributeMap) (role : ArtifactRole) (names : List JsString) : Payload :=
  match (text attributes [sha256Name role]).filter fun s => decide (IsHex 64 s) with
  | some hash =>
      match text attributes [nonceName role] with
      | none => ⟨some hash, none, none⟩
      | some nonce =>
          if IsHex 64 nonce ∨ nonce = NONCE_KEPT_BY_CUSTOMER then ⟨some hash, some nonce, none⟩
          else ⟨none, none, none⟩
  | none => ⟨none, none, text attributes names⟩

/-- The role of a name. -/
def roleNamed (s : JsString) : Option ArtifactRole :=
  if s = js "input" then some .input else if s = js "output" then some .output else none

/-- The document an event names, where it names one whole. -/
def artifactOf (event : OtlpSpanEvent) : Option ArtifactInput := do
  guard (event.name = ARTIFACT_EVENT_NAME)
  let role ← (text event.attributes [js "sigillo.artifact.role"]).bind roleNamed
  let label ← text event.attributes [js "sigillo.artifact.label"]
  let mediaType ← text event.attributes [js "sigillo.artifact." ++ js "media_type"]
  let sha256 ← text event.attributes [js "sigillo.artifact.sha256"]
  guard (IsHex 64 sha256)
  let canon := text event.attributes [js "sigillo.artifact." ++ js "text_canon"]
  let digest := text event.attributes [js "sigillo.artifact." ++ js "text_sha256"]
  return ⟨role, cap label 256, cap mediaType 128, sha256,
    if canon = some (js "sigillo-text/1") then digest.filter fun s => decide (IsHex 64 s) else none⟩

/-- `artifactsOf`: the documents a span declares. -/
def artifactsOf (span : OtlpSpan) : Option (List ArtifactInput) :=
  match span.events.filterMap artifactOf with
  | [] => none
  | artifacts => some artifacts

/-- `modelOf`: the model a span names. -/
def modelOf (attributes : AttributeMap) : Option ModelInput :=
  (text attributes MODEL_NAME_ATTRIBUTES).map fun name =>
    ⟨cap name 256, (text attributes MODEL_PROVIDER_ATTRIBUTES).map fun s => cap s 256,
      (text attributes [js "sigillo.model.digest"]).map fun s => cap s 256⟩

/-- The agent, or else the service, and for whom it acted. -/
def buildActor (span : OtlpSpan) (agent : Option JsString) : ActorInput :=
  ⟨cap ((agent.or (text span.resource [js "service.name"])).getD (js "unknown")) 256,
    (text span.attributes [js "user.id", js "enduser.id"]).map fun s => cap s 256⟩

-- ── The two dialects ─────────────────────────────────────────────────────────────

/-- The kinds of the operations. -/
def GENAI_OPERATIONS : List (JsString × ActionKind) :=
  [(js "chat", .llmCall), (js "text_completion", .llmCall), (js "generate_content", .llmCall),
   (js "embeddings", .llmCall), (js "execute_tool", .toolCall), (js "invoke_agent", .agentStep),
   (js "create_agent", .agentStep), (js "invoke_workflow", .agentStep), (js "agent_step", .agentStep),
   (js "retrieval", .agentStep), (js "rerank", .agentStep), (js "decide", .decision)]

/-- The kinds of the span kinds. -/
def OPENINFERENCE_KINDS : List (JsString × ActionKind) :=
  [(js "LLM", .llmCall), (js "TOOL", .toolCall), (js "AGENT", .agentStep), (js "CHAIN", .agentStep),
   (js "RERANKER", .agentStep), (js "RETRIEVER", .agentStep), (js "EMBEDDING", .llmCall),
   (js "GUARDRAIL", .decision), (js "EVALUATOR", .decision)]

/-- What a span says it did: the kind, and what a report names as unknown. -/
structure DeclaredKind where
  kind : ActionKind
  unknown : List JsString

/-- An operation not known is an agent's step, and one not named a call of a model. -/
def genAiKind (operation : Option JsString) : DeclaredKind :=
  match operation with
  | some operation =>
      match GENAI_OPERATIONS.lookup operation with
      | some kind => ⟨kind, []⟩
      | none => ⟨.agentStep, [js "gen_ai.operation.name=" ++ operation]⟩
  | none => ⟨.llmCall, [js "gen_ai.operation.name=" ++ js "<absent>"]⟩

/-- What an action of the dialect is called. -/
def genAiName (attributes : AttributeMap) : ActionKind → Option JsString
  | .toolCall => text attributes [js "gen_ai.tool.name", js "gen_ai.tool.type"]
  | .llmCall => text attributes [js "gen_ai.request.model", js "gen_ai.response.model"]
  | _ => text attributes [js "gen_ai.agent.name"]

/-- Where its input is looked for. -/
def genAiInputNames : List JsString := [js "gen_ai.input.messages", js "gen_ai.prompt"]

/-- Where its output is. -/
def genAiOutputNames : List JsString := [js "gen_ai.output.messages", js "gen_ai.completion"]

/-- The kind a span declares, in whatever case. -/
def openInferenceKind (u : Unicode) (declared : JsString) : DeclaredKind :=
  match OPENINFERENCE_KINDS.lookup (u.toUpperCase declared) with
  | some kind => ⟨kind, []⟩
  | none => ⟨.agentStep, [OPENINFERENCE_KIND ++ 0x3D :: declared]⟩

/-- What an action of the dialect is called. -/
def openInferenceName (attributes : AttributeMap) : ActionKind → Option JsString
  | .toolCall => text attributes [js "tool.name"]
  | .llmCall => text attributes [js "llm.model_name"]
  | _ => none

/-- Where its input is looked for. -/
def openInferenceInputNames : List JsString := [js "input.value"]

/-- Where its output is. -/
def openInferenceOutputNames : List JsString := [js "output.value"]

/-- The record both dialects make, each with what it read. -/
def orderedAction (span : OtlpSpan) (kind : ActionKind) (name agent : Option JsString)
    (inputNames outputNames : List JsString) (tsEvent : JsString) : OrderedAction :=
  let input := payloadOf span.attributes .input inputNames
  let output := payloadOf span.attributes .output outputNames
  { action := ⟨kind, cap (name.getD span.name) 256⟩
    actor := buildActor span agent
    outcome := outcomeOf span
    inputHash := input.hash
    outputHash := output.hash
    inputNonce := input.nonce
    outputNonce := output.nonce
    rawInput := input.raw
    rawOutput := output.raw
    source := ⟨.otlp, some span.traceId.1, some span.spanId.1⟩
    tsEvent
    artifacts := artifactsOf span
    model := if kind = .llmCall then modelOf span.attributes else none
    startUnixNano := span.startUnixNano
    spanId := span.spanId.1 }

/-- An action, where there is one, and what its span added to the reports. -/
structure AdaptedSpan where
  action : Option OrderedAction
  unknown : List JsString

/-- `adaptGenAi`. -/
def adaptGenAi (span : OtlpSpan) : Except RangeError AdaptedSpan :=
  let declared := genAiKind (text span.attributes [js "gen_ai.operation.name"])
  let agent := text span.attributes
    [js "gen_ai.agent.name", js "gen_ai.provider.name", js "gen_ai.system"]
  (isoFromUnixNano span.startUnixNano).map fun tsEvent =>
    ⟨some (orderedAction span declared.kind (genAiName span.attributes declared.kind) agent
      genAiInputNames genAiOutputNames tsEvent), declared.unknown⟩

/-- `adaptOpenInference`. -/
def adaptOpenInference (u : Unicode) (span : OtlpSpan) : Except RangeError AdaptedSpan :=
  match text span.attributes [OPENINFERENCE_KIND] with
  | none => .ok ⟨none, []⟩
  | some declaredText =>
      let declared := openInferenceKind u declaredText
      (isoFromUnixNano span.startUnixNano).map fun tsEvent =>
        ⟨some (orderedAction span declared.kind (openInferenceName span.attributes declared.kind)
          (text span.attributes [js "llm.system"]) openInferenceInputNames openInferenceOutputNames
          tsEvent), declared.unknown⟩

/-- A span of the dialect. -/
def hasGenAiAttributes (span : OtlpSpan) : Bool :=
  span.attributes.any fun entry => GENAI_PREFIX.isPrefixOf entry.1

/-- A span that declares its kind is read so, and else one with any GenAI name. -/
def adaptSpan (u : Unicode) (span : OtlpSpan) : Except RangeError AdaptedSpan :=
  if (span.attributes.lookup OPENINFERENCE_KIND).isSome then adaptOpenInference u span
  else if hasGenAiAttributes span then adaptGenAi span
  else .ok ⟨none, []⟩

-- ── Batches ──────────────────────────────────────────────────────────────────────

/-- The action recorded: none that passes itself off as the server's own. -/
def recorded (adapted : AdaptedSpan) : Option OrderedAction :=
  adapted.action.filter fun action => !CONNECTION_PREFIX.isPrefixOf action.action.name

/-- By start, then by identifier; identifiers are lower-case hexadecimal, which
    `localeCompare` orders as their code units. -/
def OrderedAction.le (left right : OrderedAction) : Bool :=
  if left.startUnixNano ≠ right.startUnixNano then decide (left.startUnixNano < right.startUnixNano)
  else lexLe left.spanId right.spanId

/-- How many contents of an action were hashed here. -/
def rawCount (action : OrderedAction) : ℕ :=
  (if action.rawInput.isSome then 1 else 0) + if action.rawOutput.isSome then 1 else 0

/-- **What a batch of spans is recorded as.** -/
def adaptSpans (u : Unicode) (spans : List OtlpSpan) : Except RangeError AdaptedBatch := do
  let adapted ← spans.mapM (adaptSpan u)
  let ordered := (adapted.filterMap recorded).mergeSort OrderedAction.le
  return {
    actions := ordered.map OrderedAction.toAdaptedAction
    ignored := (adapted.filter fun a => (recorded a).isNone).length
    unknown := (adapted.flatMap AdaptedSpan.unknown).dedup.mergeSort lexLe
    rawContentHashed := ((adapted.filterMap AdaptedSpan.action).map rawCount).sum }

/-- The event `POST /v1/traces` makes of an action. -/
def AdaptedAction.toEvent (a : AdaptedAction) (systemId : SystemId) (receivedAt : Timestamp) :
    ChainEvent where
  systemId
  tsEvent := a.tsEvent
  tsReceived := receivedAt
  actor := a.actor
  action := a.action
  inputHash := a.inputHash
  outputHash := a.outputHash
  rawInput := a.rawInput.map .str
  rawOutput := a.rawOutput.map .str
  inputNonce := a.inputNonce
  outputNonce := a.outputNonce
  outcome := a.outcome
  source := a.source
  artifacts := a.artifacts
  model := a.model

end Sigillo
