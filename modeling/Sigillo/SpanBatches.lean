import Sigillo.SpanExport

/-!
# Batches of spans

The tracer of the TypeScript SDK queues the spans an agent ends, and hands them to
`SigilloSpanExporter.send` in batches, one after the other on a chain of promises. A span's
attributes may be arrays of anything, of which `JSON.stringify` has nothing to say for some: where
the exporter asks it before it is inside its `try`, the batch is rejected, and with it every batch
after it.

* **`send_returns`** — a batch is not rejected exactly if JSON can say of each span the attributes a
  translation takes, and those that are printed;
* **`Provider.orderly_iff`** — no batch is rejected or lost, and no operation throws, exactly if
  each step of the run is one the SDK is ready for. -/

namespace Sdk.Tracer

open DoubleArith Utf16Text JsonText HexBase64 Sigillo
open Otlp (SpanStatus)

-- ── Values of the agent's ────────────────────────────────────────────────────────

/-- A value as it comes from the agent's code. -/
inductive JsValue where
  /-- A function or a symbol too: JSON leaves it out. -/
  | undefined
  | null
  | scalar (v : Scalar)
  | bigint (n : ℤ)
  | array (items : List JsValue)
  | object (members : List (JsString × JsValue))
  /-- One of the arrays and objects it is in. -/
  | circular
  /-- One with a say in its JSON (`toJSON`, a getter), which may throw. -/
  | custom (json : Option Json)

/-- What is thrown. -/
inductive JsError where
  | typeError | rangeError
  /-- What the agent's own code threw. -/
  | own
deriving DecidableEq

mutual
/-- What `JSON.stringify` makes of a value. -/
def readJson : JsValue → Except JsError (Option Json)
  | .undefined => .ok none
  | .null => .ok (some .null)
  | .scalar v => .ok (some v.json)
  | .bigint _ => .error .typeError
  | .array items => (readItems items).map fun list => some (.arr list)
  | .object members => (readMembers members).map fun list => some (.obj list)
  | .circular => .error .typeError
  | .custom (some json) => .ok (some json)
  | .custom none => .error .own

/-- The items of an array; what has no JSON is null there. -/
def readItems : List JsValue → Except JsError (List Json)
  | [] => .ok []
  | v :: vs => (readJson v).bind fun json => (readItems vs).map fun list => json.getD .null :: list

/-- The members of an object; what has no JSON is left out there. -/
def readMembers : List (JsString × JsValue) → Except JsError (List (JsString × Json))
  | [] => .ok []
  | (k, v) :: ms => (readJson v).bind fun json =>
      (readMembers ms).map fun list => (json.map fun j => (k, j)).toList ++ list
end

mutual
/-- Nothing in it is a bigint, a cycle, or throws. -/
def Serializable : JsValue → Prop
  | .bigint _ => False
  | .array items => SerializableItems items
  | .object members => SerializableMembers members
  | .circular => False
  | .custom json => json ≠ none
  | _ => True

/-- Nothing in the items is in the way. -/
def SerializableItems : List JsValue → Prop
  | [] => True
  | v :: vs => Serializable v ∧ SerializableItems vs

/-- Nothing in the members is in the way. -/
def SerializableMembers : List (JsString × JsValue) → Prop
  | [] => True
  | (_, v) :: ms => Serializable v ∧ SerializableMembers ms
end

/-- It did not throw. -/
def Returns {α : Type} (x : Except JsError α) : Prop := ∃ a, x = .ok a

@[simp] theorem returns_ok {α : Type} (a : α) : Returns (.ok a) := ⟨a, rfl⟩

@[simp] theorem not_returns_error {α : Type} (e : JsError) : ¬ Returns (.error e : Except JsError α) := by
  rintro ⟨a, h⟩
  cases h

@[simp] theorem returns_map {α β : Type} (f : α → β) (x : Except JsError α) : Returns (x.map f) ↔ Returns x := by
  cases x with
  | error e => exact iff_of_false (not_returns_error e) (not_returns_error e)
  | ok a => exact iff_of_true ⟨f a, rfl⟩ ⟨a, rfl⟩

/-- Two steps return exactly if the first does and the second does with what it gave. -/
theorem returns_bind {α β : Type} {f : α → Except JsError β} {x : Except JsError α} :
    Returns (x.bind f) ↔ ∃ a, x = .ok a ∧ Returns (f a) := by
  cases x with
  | error e => exact iff_of_false (not_returns_error e) fun ⟨a, h, _⟩ => nomatch h
  | ok a => exact ⟨fun h => ⟨a, rfl, h⟩, fun ⟨b, hb, h⟩ => Except.ok.inj hb ▸ h⟩

/-- Of two steps of which the second's return does not depend on the first's value. -/
theorem returns_bind_map {α β γ : Type} {x : Except JsError α} {y : Except JsError β} (f : α → β → γ) :
    Returns (x.bind fun a => y.map (f a)) ↔ Returns x ∧ Returns y := by
  rw [returns_bind]
  constructor
  · rintro ⟨a, ha, h⟩
    exact ⟨⟨a, ha⟩, (returns_map _ _).mp h⟩
  · rintro ⟨⟨a, ha⟩, h⟩
    exact ⟨a, ha, (returns_map _ _).mpr h⟩

mutual
/-- **`JSON.stringify` has its text** exactly if nothing in the value is in the way. -/
theorem readJson_returns (v : JsValue) : Returns (readJson v) ↔ Serializable v := by
  match v with
  | .undefined => exact iff_of_true ⟨_, rfl⟩ trivial
  | .null => exact iff_of_true ⟨_, rfl⟩ trivial
  | .scalar v => exact iff_of_true ⟨_, rfl⟩ trivial
  | .bigint n => exact iff_of_false (not_returns_error _) id
  | .array items =>
      rw [readJson, returns_map, Serializable]
      exact readItems_returns items
  | .object members =>
      rw [readJson, returns_map, Serializable]
      exact readMembers_returns members
  | .circular => exact iff_of_false (not_returns_error _) id
  | .custom (some json) => exact iff_of_true ⟨_, rfl⟩ (Option.some_ne_none json)
  | .custom none => exact iff_of_false (not_returns_error _) fun h => h rfl

/-- An array has its text exactly if nothing in the items is in the way. -/
theorem readItems_returns (items : List JsValue) : Returns (readItems items) ↔ SerializableItems items := by
  match items with
  | [] => exact iff_of_true ⟨_, rfl⟩ trivial
  | v :: vs =>
      rw [readItems, returns_bind_map, SerializableItems, readJson_returns v, readItems_returns vs]

/-- An object has its text exactly if nothing in the members is in the way. -/
theorem readMembers_returns (members : List (JsString × JsValue)) :
    Returns (readMembers members) ↔ SerializableMembers members := by
  match members with
  | [] => exact iff_of_true ⟨_, rfl⟩ trivial
  | (k, v) :: ms =>
      rw [readMembers, returns_bind_map, SerializableMembers, readJson_returns v, readMembers_returns ms]
end

-- ── Times ────────────────────────────────────────────────────────────────────────

/-- What is given for a time; a number that is missing is `NaN`. -/
inductive TimeInput where
  | hrTime (seconds nanoseconds : Option JsNumber)
  | number (x : Option JsNumber)
  /-- A `Date`, in milliseconds, or an invalid one. -/
  | date (time : Option ℤ)
  | other

/-- `BigInt(Math.trunc(x))`. -/
def bigTrunc : Option JsNumber → Except JsError ℤ
  | some (.fin q _) => .ok (if q < 0 then ⌈q⌉ else ⌊q⌋)
  | _ => .error .rangeError

/-- `BigInt(Math.round(x))`. -/
def bigRound : JsNumber → Except JsError ℤ
  | .fin q _ => .ok ⌊q + 1 / 2⌋
  | .infinity _ => .error .rangeError

/-- **`toUnixNano`**: a time of whichever form in nanoseconds. -/
def toUnixNano (time : TimeInput) (fallback : ℤ) : Except JsError ℤ :=
  match time with
  | .hrTime seconds nanoseconds =>
      (bigTrunc seconds).bind fun s => (bigTrunc nanoseconds).map fun n => s * 1000000000 + n
  | .number (some (.fin q _)) => bigRound (.ofRat (q * 1000000))
  | .date (some time) => .ok (time * 1000000)
  | .date none => .error .rangeError
  | _ => .ok fallback

/-- A number, and a finite one. -/
def IsFinite (x : Option JsNumber) : Prop := ∃ q h, x = some (.fin q h)

/-- A pair of finite numbers, a number that is finite in nanoseconds too or not finite at all, a date there
    is, or nothing that is read as a time. -/
def TimeInput.Valid : TimeInput → Prop
  | .hrTime seconds nanoseconds => IsFinite seconds ∧ IsFinite nanoseconds
  | .number (some (.fin q _)) => IsFinite (some (.ofRat (q * 1000000)))
  | .date time => time ≠ none
  | _ => True

/-- A `BigInt` is made of a finite number alone. -/
theorem bigTrunc_returns (x : Option JsNumber) : Returns (bigTrunc x) ↔ IsFinite x := by
  match x with
  | some (.fin q h) => exact iff_of_true ⟨_, rfl⟩ ⟨q, h, rfl⟩
  | some (.infinity negative) => exact iff_of_false (not_returns_error _) fun ⟨_, _, h⟩ => nomatch h
  | none => exact iff_of_false (not_returns_error _) fun ⟨_, _, h⟩ => nomatch h

/-- **A time is read** exactly if it is a valid one. -/
theorem toUnixNano_returns (time : TimeInput) (fallback : ℤ) : Returns (toUnixNano time fallback) ↔ time.Valid := by
  match time with
  | .hrTime seconds nanoseconds =>
      rw [toUnixNano, returns_bind_map, bigTrunc_returns, bigTrunc_returns, TimeInput.Valid]
  | .number (some (.fin q h)) =>
      rw [toUnixNano, TimeInput.Valid]
      cases JsNumber.ofRat (q * 1000000) with
      | fin r hr => exact iff_of_true ⟨_, rfl⟩ ⟨r, hr, rfl⟩
      | infinity negative => exact iff_of_false (not_returns_error _) fun ⟨_, _, h⟩ => nomatch h
  | .number (some (.infinity negative)) => exact iff_of_true ⟨_, rfl⟩ trivial
  | .number none => exact iff_of_true ⟨_, rfl⟩ trivial
  | .date (some time) => exact iff_of_true ⟨_, rfl⟩ (Option.some_ne_none time)
  | .date none => exact iff_of_false (not_returns_error _) fun h => h rfl
  | .other => exact iff_of_true ⟨_, rfl⟩ trivial

-- ── Spans ────────────────────────────────────────────────────────────────────────

/-- What `setAttribute` keeps. -/
inductive SpanValue where
  | scalar (v : Scalar)
  | array (items : List JsValue)

/-- The attributes of a span, in the order they were set. -/
abbrev SpanAttributes := List (JsString × SpanValue)

/-- `JSON.stringify` of an attribute's value. -/
def SpanValue.json : SpanValue → Except JsError Json
  | .scalar v => .ok v.json
  | .array items => (readItems items).map .arr

/-- Nothing in the value is in the way. -/
def SpanValue.Serializable : SpanValue → Prop
  | .scalar _ => True
  | .array items => SerializableItems items

/-- A value has its text exactly if nothing in it is in the way. -/
theorem SpanValue.json_returns (v : SpanValue) : Returns v.json ↔ v.Serializable := by
  match v with
  | .scalar v => exact iff_of_true ⟨_, rfl⟩ trivial
  | .array items => exact (returns_map _ _).trans (readItems_returns items)

/-- Strings, numbers, booleans and arrays. -/
def cleanValue : JsValue → Option SpanValue
  | .scalar v => some (.scalar v)
  | .array items => some (.array items)
  | _ => none

/-- Setting `__proto__` on an object makes no entry of it. -/
def cleanAttributes (input : List (JsString × JsValue)) : SpanAttributes :=
  input.filterMap fun (key, value) => if key = js "__proto__" then none else (cleanValue value).map fun v => (key, v)

/-- `Object.assign(attributes, more)`. -/
def assignAll (attributes more : SpanAttributes) : SpanAttributes :=
  more.foldl (fun out (key, value) => AssocList.set out key value) attributes

/-- An event of a span. -/
structure SpanEvent where
  name : JsString
  attributes : SpanAttributes
  timeUnixNano : ℤ

/-- A span that has ended. -/
structure Span where
  traceId : Hex 32
  spanId : Hex 16
  parentSpanId : Option (Hex 16)
  name : JsString
  startUnixNano : ℤ
  endUnixNano : ℤ
  statusCode : SpanStatus
  attributes : SpanAttributes
  events : List SpanEvent
  /-- The `service.name` of its resource. -/
  systemId : JsString

-- ── The dialect of the Vercel AI SDK ─────────────────────────────────────────────

/-- The text of an attribute: none for the empty string. -/
def text : SpanValue → Except JsError (Option JsString)
  | .scalar (.string s) => .ok (if s.length > 0 then some s else none)
  | value => value.json.map fun json => some (stringify json)

/-- The text of the first attribute that has one; those after it are not read. -/
def first (a : SpanAttributes) : List JsString → Except JsError (Option JsString)
  | [] => .ok none
  | name :: names =>
      match a.lookup name with
      | none => first a names
      | some value => (text value).bind fun
          | some found => .ok (some found)
          | none => first a names

/-- A text is set under a key, and nothing where there is none. -/
def assign (out : SpanAttributes) (key : JsString) : Option JsString → SpanAttributes
  | some s => AssocList.set out key (.scalar (.string s))
  | none => out

/-- The model and the provider, under their own names or the AI SDK's. -/
def MODEL_MOVES : List (JsString × List JsString) :=
  [(js "gen_ai.request.model", [js "gen_ai.request.model", js "ai.model.id"]),
    (js "gen_ai.provider.name", [js "gen_ai.provider.name", js "ai.model.provider", js "gen_ai.system"])]

/-- The branch for a span's name: the operation, and what is written under which name, from the first of
    which attributes. -/
def branch (name : JsString) : JsString × List (JsString × List JsString) :=
  if name = js "ai.toolCall" then
    (js "execute_tool",
      [(js "gen_ai.tool.name", [js "ai.toolCall.name"]), (js "gen_ai.input.messages", [js "ai.toolCall.args"]),
        (js "gen_ai.output.messages", [js "ai.toolCall.result"])])
  else if (js ".doGenerate").isSuffixOf name ∨ (js ".doStream").isSuffixOf name then
    (js "chat", MODEL_MOVES ++
      [(js "gen_ai.input.messages", [js "ai.prompt.messages", js "ai.prompt"]),
        (js "gen_ai.output.messages", [js "ai.response.text", js "ai.response.object", js "ai.response.toolCalls"])])
  else if (js ".doEmbed").isSuffixOf name then (js "embeddings", MODEL_MOVES)
  else
    (js "invoke_agent",
      [(js "gen_ai.input.messages", [js "ai.prompt"]),
        (js "gen_ai.output.messages", [js "ai.response.text", js "ai.response.object"])])

/-- The attributes moved one after the other, each read of those the span had. -/
def move (a : SpanAttributes) : SpanAttributes → List (JsString × List JsString) → Except JsError SpanAttributes
  | out, [] => .ok out
  | out, (key, names) :: rest => (first a names).bind fun found => move a (assign out key found) rest

/-- It is in the AI SDK's dialect, and does not name its operation. -/
def IsVercelAi (span : Span) : Prop :=
  (js "ai.").isPrefixOf span.name = true ∧ span.attributes.lookup VercelAi.OPERATION = none

instance : DecidablePred IsVercelAi := fun span =>
  decidable_of_iff ((js "ai.").isPrefixOf span.name = true ∧
    (span.attributes.lookup VercelAi.OPERATION).isNone = true) (by rw [IsVercelAi, Option.isNone_iff_eq_none])

/-- **`translateVercelAi`.** -/
def translateVercelAi (span : Span) : Except JsError Span :=
  if IsVercelAi span then
    (first span.attributes [js "ai.telemetry.functionId"]).bind fun functionId =>
      let agent := functionId.or (if span.systemId.length > 0 then some span.systemId else none)
      let out := assign (assign span.attributes (js "gen_ai.agent.name") agent) VercelAi.OPERATION
        (some (branch span.name).1)
      (move span.attributes out (branch span.name).2).map fun attributes => { span with attributes }
  else .ok span

-- ── What may leave ───────────────────────────────────────────────────────────────

variable (c : Crypto)

/-- The digest of a content, and its nonce where it has one. -/
def setDigest (kept : SpanAttributes) (role : ArtifactRole) (digest : ContentDigest) : SpanAttributes :=
  assign (assign kept (DIGEST_ATTRIBUTE role) (some digest.sha256.1)) (NONCE_ATTRIBUTE role) digest.nonce

/-- One attribute more: of a role's contents the first that is a string. -/
def filterAttribute (digest : ArtifactRole → JsString → ContentDigest) (kept : SpanAttributes)
    (entry : JsString × SpanValue) : SpanAttributes :=
  match CONTENT_ATTRIBUTES.lookup entry.1 with
  | some role =>
      match entry.2 with
      | .scalar (.string value) =>
          if (kept.lookup (DIGEST_ATTRIBUTE role)).isSome then kept else setDigest kept role (digest role value)
      | _ => kept
  | none => if entry.1 ∈ KEEP_ATTRIBUTES then AssocList.set kept entry.1 entry.2 else kept

/-- An exception keeps its name and its class; any other event goes as it is. -/
def filterEvent (event : SpanEvent) : SpanEvent :=
  if event.name = js "exception" then
    { event with attributes := ((event.attributes.lookup (js "exception.type")).map fun type =>
        (js "exception.type", type)).toList }
  else event

/-- **`filterSpan`.** -/
def filterSpan (span : Span) (options : FilterOptions) (fresh : ArtifactRole → Nonce) : Span :=
  { span with
    attributes := span.attributes.foldl (filterAttribute (contentDigest c options fresh span.traceId span.spanId)) []
    events := span.events.map filterEvent }

/-- The options of the exporter. -/
structure ExporterOptions where
  redactContent : Bool
  filter : FilterOptions
  showSent : Bool

/-- A span as it is to be sent. -/
def prepare (options : ExporterOptions) (fresh : ArtifactRole → Nonce) (span : Span) : Except JsError Span :=
  (translateVercelAi span).map fun translated =>
    if options.redactContent then filterSpan c translated options.filter fresh else translated

/-- `JSON.stringify` of a span's attributes. -/
def attributesJson : SpanAttributes → Except JsError (List (JsString × Json))
  | [] => .ok []
  | (key, value) :: rest => value.json.bind fun json => (attributesJson rest).map fun list => (key, json) :: list

/-- `JSON.stringify` of a span's events. -/
def eventsJson : List SpanEvent → Except JsError (List Json)
  | [] => .ok []
  | event :: rest => (attributesJson event.attributes).bind fun attributes =>
      (eventsJson rest).map fun list =>
        .obj [(js "name", .str event.name), (js "attributes", .obj attributes)] :: list

/-- The line `showSent` prints of a span. -/
def shownText (span : Span) : Except JsError JsString :=
  (attributesJson span.attributes).bind fun attributes =>
    (eventsJson span.events).map fun events =>
      js "[sigillo sends] action " ++ stringify (.obj (
        [(js "name", .str span.name), (js "attributes", .obj attributes)]
          ++ (match span.statusCode with
            | .unset => []
            | .ok => [(js "status", .str (js "OK"))]
            | .error => [(js "status", .str (js "ERROR"))])
          ++ (if events.isEmpty then [] else [(js "events", .arr events)]))) ++ [0x0A]

/-- Each in turn, until one throws. -/
def each {α β : Type} (f : α → Except JsError β) : List α → Except JsError (List β)
  | [] => .ok []
  | a :: rest => (f a).bind fun b => (each f rest).map fun bs => b :: bs

/-- **`send`**: an error is a rejection. From the `try` on everything that throws, the body's making too,
    is a batch that was not taken. -/
def send (options : ExporterOptions) (fresh : ℕ → ArtifactRole → Nonce) (taken : Bool) (spans : List Span) :
    Except JsError Bool :=
  if spans.isEmpty then .ok true
  else
    (each (fun entry => prepare c options (fresh entry.2) entry.1) spans.zipIdx).bind fun ready =>
      if options.showSent then (each shownText ready).map fun _ => taken else .ok taken

-- ── What is in the way of a batch ────────────────────────────────────────────────

/-- The empty string. -/
def isEmptyText : SpanValue → Bool
  | .scalar (.string s) => s.isEmpty
  | _ => false

/-- The attribute whose text is taken: the first there is that is not the empty string. -/
def picked (a : SpanAttributes) (names : List JsString) : Option SpanValue :=
  names.findSome? fun name => (a.lookup name).filter fun value => !isEmptyText value

/-- What the branch of a span's name reads. -/
def namesRead (name : JsString) : List (List JsString) :=
  [js "ai.telemetry.functionId"] :: (branch name).2.map Prod.snd

/-- Of the attributes a translation takes, none is an array JSON cannot say. -/
def Translatable (span : Span) : Prop :=
  IsVercelAi span → ∀ names ∈ namesRead span.name, ∀ value, picked span.attributes names = some value →
    value.Serializable

/-- Nothing in any of the values is in the way. -/
def SerializableAttributes (a : SpanAttributes) : Prop := ∀ entry ∈ a, entry.2.Serializable

/-- Nor is any of those that are printed. -/
def Printable (span : Span) : Prop :=
  SerializableAttributes span.attributes ∧ ∀ event ∈ span.events, SerializableAttributes event.attributes

/-- A span that is translated, filtered and, where it is shown, printed. -/
def Sendable (options : ExporterOptions) (fresh : ArtifactRole → Nonce) (span : Span) : Prop :=
  Translatable span ∧
    (options.showSent = true → ∀ ready, prepare c options fresh span = .ok ready → Printable ready)

/-- The spans of a batch, each with the nonces it would draw. -/
def SendableBatch (options : ExporterOptions) (fresh : ℕ → ArtifactRole → Nonce) (spans : List Span) : Prop :=
  ∀ entry ∈ spans.zipIdx, Sendable c options (fresh entry.2) entry.1

/-- A value's text: none of the empty string, and else there exactly if nothing is in the way. -/
theorem text_cases (value : SpanValue) :
    (isEmptyText value = true ∧ text value = .ok none) ∨
      isEmptyText value = false ∧ ((∃ found, text value = .ok (some found)) ∨ ¬ Returns (text value)) ∧
        (Returns (text value) ↔ value.Serializable) := by
  match value with
  | .scalar (.string []) => exact .inl ⟨rfl, rfl⟩
  | .scalar (.string (u :: s)) =>
      exact .inr ⟨rfl, .inl ⟨_, rfl⟩, iff_of_true ⟨_, rfl⟩ trivial⟩
  | .scalar (.number x) => exact .inr ⟨rfl, .inl ⟨_, rfl⟩, iff_of_true ⟨_, rfl⟩ trivial⟩
  | .scalar .nan => exact .inr ⟨rfl, .inl ⟨_, rfl⟩, iff_of_true ⟨_, rfl⟩ trivial⟩
  | .scalar (.boolean b) => exact .inr ⟨rfl, .inl ⟨_, rfl⟩, iff_of_true ⟨_, rfl⟩ trivial⟩
  | .array items =>
      refine .inr ⟨rfl, ?_, (returns_map _ _).trans (SpanValue.json_returns (.array items))⟩
      by_cases h : Returns (SpanValue.json (.array items))
      · obtain ⟨json, hjson⟩ := h
        refine .inl ⟨stringify json, ?_⟩
        show (SpanValue.json (.array items)).map (fun json => some (stringify json)) = _
        rw [hjson]
        rfl
      · exact .inr fun htext => h ((returns_map _ _).mp htext)

/-- **The first text is read** exactly if JSON can say the attribute that is taken. -/
theorem first_returns (a : SpanAttributes) (names : List JsString) :
    Returns (first a names) ↔ ∀ value, picked a names = some value → value.Serializable := by
  induction names with
  | nil => exact iff_of_true ⟨_, rfl⟩ fun value h => nomatch h
  | cons name names ih =>
      rw [first, picked, List.findSome?_cons]
      cases a.lookup name with
      | none => exact ih
      | some value =>
          dsimp only
          rw [Option.filter_some]
          rcases text_cases value with ⟨hempty, htext⟩ | ⟨hsome, htext, hreturns⟩
          · rw [hempty, htext]
            exact ih
          · rw [hsome]
            have htaken : (∀ v, some value = some v → v.Serializable) ↔ value.Serializable :=
              ⟨fun h => h value rfl, fun h v hv => Option.some.inj hv ▸ h⟩
            refine Iff.trans ?_ (hreturns.trans htaken.symm)
            rcases htext with ⟨found, hfound⟩ | hthrows
            · rw [hfound]
              exact iff_of_true ⟨_, rfl⟩ ⟨_, rfl⟩
            · refine iff_of_false (fun h => ?_) hthrows
              obtain ⟨found, hfound, -⟩ := returns_bind.mp h
              exact hthrows ⟨found, hfound⟩

/-- The moves return exactly if the first value of each group does. -/
theorem move_returns (a out : SpanAttributes) (moves : List (JsString × List JsString)) :
    Returns (move a out moves) ↔ ∀ m ∈ moves, Returns (first a m.2) := by
  induction moves generalizing out with
  | nil => exact iff_of_true ⟨_, rfl⟩ fun m h => nomatch h
  | cons m moves ih =>
      rw [move, returns_bind, List.forall_mem_cons]
      constructor
      · rintro ⟨found, hfound, hrest⟩
        exact ⟨⟨found, hfound⟩, (ih _).mp hrest⟩
      · rintro ⟨⟨found, hfound⟩, hrest⟩
        exact ⟨found, hfound, (ih _).mpr hrest⟩

/-- **A span is translated** exactly if JSON can say the attributes its branch takes. -/
theorem translateVercelAi_returns (span : Span) : Returns (translateVercelAi span) ↔ Translatable span := by
  rw [translateVercelAi, Translatable]
  by_cases hdialect : IsVercelAi span
  · have hnames : (∀ names ∈ namesRead span.name, ∀ value, picked span.attributes names = some value →
        value.Serializable) ↔ Returns (first span.attributes [js "ai.telemetry.functionId"]) ∧
          ∀ m ∈ (branch span.name).2, Returns (first span.attributes m.2) := by
      rw [namesRead, List.forall_mem_cons, List.forall_mem_map, first_returns]
      exact and_congr Iff.rfl (forall₂_congr fun m _ => (first_returns _ _).symm)
    rw [if_pos hdialect, forall_prop_of_true hdialect, hnames, returns_bind]
    constructor
    · rintro ⟨functionId, hfunctionId, hmoved⟩
      exact ⟨⟨functionId, hfunctionId⟩, (move_returns _ _ _).mp ((returns_map _ _).mp hmoved)⟩
    · rintro ⟨⟨functionId, hfunctionId⟩, hmoves⟩
      exact ⟨functionId, hfunctionId, (returns_map _ _).mpr ((move_returns _ _ _).mpr hmoves)⟩
  · rw [if_neg hdialect]
    exact iff_of_true ⟨_, rfl⟩ fun h => absurd h hdialect

/-- A span is prepared exactly if it can be translated. -/
theorem prepare_returns (options : ExporterOptions) (fresh : ArtifactRole → Nonce) (span : Span) :
    Returns (prepare c options fresh span) ↔ Translatable span :=
  (returns_map _ _).trans (translateVercelAi_returns span)

/-- Attributes are printed exactly if nothing in them is in the way. -/
theorem attributesJson_returns (a : SpanAttributes) : Returns (attributesJson a) ↔ SerializableAttributes a := by
  induction a with
  | nil => exact iff_of_true ⟨_, rfl⟩ fun entry h => nomatch h
  | cons entry rest ih =>
      obtain ⟨key, value⟩ := entry
      rw [attributesJson, returns_bind_map, SpanValue.json_returns, ih, SerializableAttributes, SerializableAttributes,
        List.forall_mem_cons]

/-- Events are printed exactly if nothing in their attributes is in the way. -/
theorem eventsJson_returns (events : List SpanEvent) :
    Returns (eventsJson events) ↔ ∀ event ∈ events, SerializableAttributes event.attributes := by
  induction events with
  | nil => exact iff_of_true ⟨_, rfl⟩ fun event h => nomatch h
  | cons event rest ih =>
      rw [eventsJson, returns_bind_map, attributesJson_returns, ih, List.forall_mem_cons]

/-- A span is shown exactly if nothing in it is in the way. -/
theorem shownText_returns (span : Span) : Returns (shownText span) ↔ Printable span := by
  rw [shownText, returns_bind_map, attributesJson_returns, eventsJson_returns, Printable]

/-- All succeed exactly if each does. -/
theorem each_eq_ok {α β : Type} {f : α → Except JsError β} {l : List α} {bs : List β} :
    each f l = .ok bs ↔ List.Forall₂ (fun a b => f a = .ok b) l bs := by
  induction l generalizing bs with
  | nil =>
      constructor
      · intro h
        cases Except.ok.inj h
        exact .nil
      · rintro ⟨⟩
        rfl
  | cons a l ih =>
      rw [each]
      constructor
      · intro h
        cases hb : f a with
        | error e =>
            rw [hb] at h
            cases h
        | ok b =>
            rw [hb] at h
            cases hrest : each f l with
            | error e =>
                rw [Except.bind, hrest] at h
                cases h
            | ok rest =>
                rw [Except.bind, hrest] at h
                cases Except.ok.inj h
                exact .cons hb (ih.mp hrest)
      · rintro (_ | ⟨hb, hrest⟩)
        rw [hb, Except.bind, ih.mpr hrest]
        rfl

/-- Each of the list has its result. -/
theorem mem_of_each {α β : Type} {f : α → Except JsError β} {l : List α} {bs : List β} (h : each f l = .ok bs)
    {a : α} (ha : a ∈ l) : ∃ b ∈ bs, f a = .ok b := by
  induction each_eq_ok.mp h with
  | nil => cases ha
  | cons hb _ ih =>
      rcases List.mem_cons.mp ha with rfl | ha
      · exact ⟨_, List.mem_cons_self, hb⟩
      · obtain ⟨b, hmem, hfb⟩ := ih (each_eq_ok.mpr ‹_›) ha
        exact ⟨b, List.mem_cons_of_mem _ hmem, hfb⟩

/-- Each result is that of one of the list. -/
theorem each_of_mem {α β : Type} {f : α → Except JsError β} {l : List α} {bs : List β} (h : each f l = .ok bs)
    {b : β} (hb : b ∈ bs) : ∃ a ∈ l, f a = .ok b := by
  induction each_eq_ok.mp h with
  | nil => cases hb
  | cons hfa _ ih =>
      rcases List.mem_cons.mp hb with rfl | hb
      · exact ⟨_, List.mem_cons_self, hfa⟩
      · obtain ⟨a, hmem, hfa⟩ := ih (each_eq_ok.mpr ‹_›) hb
        exact ⟨a, List.mem_cons_of_mem _ hmem, hfa⟩

/-- All return exactly if each does. -/
theorem each_returns {α β : Type} (f : α → Except JsError β) (l : List α) :
    Returns (each f l) ↔ ∀ a ∈ l, Returns (f a) := by
  induction l with
  | nil => exact iff_of_true ⟨_, rfl⟩ fun a h => nomatch h
  | cons a l ih => rw [each, returns_bind_map, ih, List.forall_mem_cons]

/-- **A batch is not rejected** exactly if each of its spans can be sent. -/
theorem send_returns (options : ExporterOptions) (fresh : ℕ → ArtifactRole → Nonce) (taken : Bool) (spans : List Span) :
    Returns (send c options fresh taken spans) ↔ SendableBatch c options fresh spans := by
  rw [send, SendableBatch]
  cases spans with
  | nil => exact iff_of_true ⟨true, rfl⟩ fun entry h => nomatch h
  | cons span rest =>
      rw [List.isEmpty_cons, if_neg Bool.false_ne_true]
      generalize span :: rest = all
      rw [returns_bind]
      constructor
      · rintro ⟨ready, hready, hsent⟩ entry hentry
        refine ⟨(prepare_returns c options _ _).mp ((each_returns _ _).mp ⟨ready, hready⟩ entry hentry), ?_⟩
        intro hshow r hr
        rw [if_pos hshow, returns_map, each_returns] at hsent
        obtain ⟨r', hr', hprepared⟩ := mem_of_each hready hentry
        obtain rfl := Except.ok.inj (hr.symm.trans hprepared)
        exact (shownText_returns r).mp (hsent r hr')
      · intro h
        obtain ⟨ready, hready⟩ := (each_returns _ _).mpr fun entry hentry =>
          (prepare_returns c options (fresh entry.2) entry.1).mpr (h entry hentry).1
        refine ⟨ready, hready, ?_⟩
        by_cases hshow : options.showSent = true
        · rw [if_pos hshow, returns_map, each_returns]
          intro r hr
          obtain ⟨entry, hentry, hprepared⟩ := each_of_mem hready hr
          exact (shownText_returns r).mpr ((h entry hentry).2 hshow r hprepared)
        · rw [if_neg hshow]
          exact ⟨taken, rfl⟩

-- ── The provider ─────────────────────────────────────────────────────────────────

/-- A span that was started. -/
structure LiveSpan where
  data : Span
  ended : Bool

/-- What the agent's code does with a span; `recordException` is an event of the exception's class. -/
inductive SpanOp where
  | setAttributes (attributes : List (JsString × JsValue))
  | addEvent (name : JsString) (attributes : List (JsString × JsValue)) (time : TimeInput)
  | setStatus (code : SpanStatus)
  | updateName (name : JsString)
  | finish (endTime : TimeInput)

/-- The span afterwards, and whether the operation threw. -/
def LiveSpan.apply (live : LiveSpan) (now : ℤ) : SpanOp → LiveSpan × Except JsError Unit
  | .setAttributes attributes =>
      ({ live with data.attributes := assignAll live.data.attributes (cleanAttributes attributes) }, .ok ())
  | .addEvent name attributes time =>
      match toUnixNano time now with
      | .ok timeUnixNano =>
          ({ live with data.events := live.data.events ++ [⟨name, cleanAttributes attributes, timeUnixNano⟩] }, .ok ())
      | .error e => (live, .error e)
  | .setStatus code =>
      -- an OK is not overwritten
      ({ live with data.statusCode := if live.data.statusCode = .ok then .ok else code }, .ok ())
  | .updateName name => ({ live with data.name := name }, .ok ())
  | .finish endTime =>
      match toUnixNano endTime now with
      | .ok endUnixNano => (⟨{ live.data with endUnixNano }, true⟩, .ok ())
      | .error e => ({ live with ended := true }, .error e)

/-- The provider and the exporter behind it: what was handed to `send` and how that ended, the batches
    flushed after a rejection, whose `send` is never called, and all the spans that ended. -/
structure Provider where
  spans : List LiveSpan
  queue : List Span
  waiting : List (List Span)
  handed : List (List Span × Except JsError Bool)
  lost : List (List Span)
  ended : List Span
  threw : Bool

/-- What an agent, the timers and the server do. -/
inductive Step where
  /-- With the ids that are drawn, and the span that is current, if it is to be the parent. -/
  | startSpan (name : JsString) (parent : Option ℕ) (attributes : List (JsString × JsValue)) (startTime : TimeInput)
      (now : ℤ) (traceId : Hex 32) (spanId : Hex 16)
  | op (i : ℕ) (op : SpanOp) (now : ℤ)
  /-- By the timer, or by `flush()`. -/
  | forceFlush
  /-- The next batch's turn on the chain, with the nonces it draws, and whether the server takes it. -/
  | next (fresh : ℕ → ArtifactRole → Nonce) (taken : Bool)

namespace Provider

/-- A provider nothing was done with. -/
def fresh : Provider := ⟨[], [], [], [], [], [], false⟩

variable (options : ExporterOptions) (systemId : JsString) (maxBatch : ℕ) (w : Provider)

/-- `forceFlush`. -/
def flush : Provider := { w with waiting := w.waiting ++ [w.queue], queue := [] }

/-- `onEnd`. -/
def onEnd (span : Span) : Provider :=
  let queued := { w with queue := w.queue ++ [span], ended := w.ended ++ [span] }
  if maxBatch ≤ queued.queue.length then queued.flush else queued

/-- A span as it is started. -/
def opened (name : JsString) (parent : Option ℕ) (attributes : List (JsString × JsValue)) (start : ℤ)
    (traceId : Hex 32) (spanId : Hex 16) : LiveSpan :=
  let above := parent.bind fun i => w.spans[i]?.map LiveSpan.data
  ⟨{ traceId := (above.map Span.traceId).getD traceId
     spanId
     parentSpanId := above.map Span.spanId
     name
     startUnixNano := start
     endUnixNano := start
     statusCode := .unset
     attributes := cleanAttributes attributes
     events := []
     systemId }, false⟩

/-- A batch was rejected, and the chain with it. -/
def IsBroken : Prop := ∃ sent ∈ w.handed, ¬ Returns sent.2

instance : Decidable w.IsBroken :=
  decidable_of_iff (w.handed.any (fun sent => match sent.2 with | .ok _ => false | .error _ => true) = true) <| by
    rw [IsBroken, List.any_eq_true]
    refine exists_congr fun sent => and_congr_right fun _ => ?_
    cases sent.2 with
    | ok b => exact iff_of_false Bool.false_ne_true fun h => h ⟨b, rfl⟩
    | error e => exact iff_of_true rfl (not_returns_error e)

/-- **One step.** -/
def step : Step → Provider
  | .startSpan name parent attributes startTime now traceId spanId =>
      match toUnixNano startTime now with
      | .ok start => { w with spans := w.spans ++ [opened systemId w name parent attributes start traceId spanId] }
      | .error _ => { w with threw := true }
  | .op i op now =>
      match w.spans[i]? with
      | none => w
      | some live =>
          if live.ended then w
          else
            let (live', result) := live.apply now op
            let w' := { w with spans := w.spans.set i live' }
            match result with
            | .error _ => { w' with threw := true }
            | .ok () => if live'.ended then onEnd maxBatch w' live'.data else w'
  | .forceFlush => w.flush
  | .next nonces taken =>
      match w.waiting with
      | [] => w
      | batch :: rest =>
          if w.IsBroken then { w with waiting := rest, lost := w.lost ++ [batch] }
          else { w with waiting := rest, handed := w.handed ++ [(batch, send c options nonces taken batch)] }

/-- A run of the provider. -/
def run (steps : List Step) : Provider := steps.foldl (step c options systemId maxBatch) w

/-- **No batch stops the next one**: none was rejected or lost, no operation threw, and the spans handed over
    are the spans that ended, each once and in their order, but for those that still wait for their turn. -/
structure Orderly : Prop where
  returned : ¬ w.IsBroken
  notLost : w.lost = []
  quiet : w.threw = false
  inOrder : (w.handed.map Prod.fst).flatten ++ w.waiting.flatten ++ w.queue = w.ended

/-- A time that is read is a valid one, and a batch whose turn it is can be sent. -/
def IsReady (w : Provider) : Step → Prop
  | .startSpan _ _ _ startTime _ _ _ => startTime.Valid
  | .op i (.addEvent _ _ time) _ => ∀ live, w.spans[i]? = some live → live.ended = false → time.Valid
  | .op i (.finish time) _ => ∀ live, w.spans[i]? = some live → live.ended = false → time.Valid
  | .next nonces _ => ∀ batch rest, w.waiting = batch :: rest → SendableBatch c options nonces batch
  | _ => True

/-- Each step of the run is ready where it is made. -/
def ReadyRun (w : Provider) : List Step → Prop
  | [] => True
  | s :: rest => IsReady c options w s ∧ ReadyRun (step c options systemId maxBatch w s) rest

variable {w}

-- ── One step ─────────────────────────────────────────────────────────────────────

/-- The spans in the order in which they were, are and will be handed over. -/
def inLine (w : Provider) : List Span := (w.handed.map Prod.fst).flatten ++ w.waiting.flatten ++ w.queue

/-- A flush leaves the spans in their line. -/
theorem inLine_flush (w : Provider) : w.flush.inLine = w.inLine := by
  rw [inLine, inLine, flush]
  dsimp only
  rw [List.flatten_append, List.append_nil, List.flatten_singleton, List.append_assoc]

/-- A span that ends stands last in line; nothing else changes. -/
theorem onEnd_spec (w : Provider) (span : Span) :
    (onEnd maxBatch w span).inLine = w.inLine ++ [span] ∧ (onEnd maxBatch w span).ended = w.ended ++ [span] ∧
      (onEnd maxBatch w span).handed = w.handed ∧ (onEnd maxBatch w span).lost = w.lost ∧
      (onEnd maxBatch w span).threw = w.threw := by
  have hqueued : ({ w with queue := w.queue ++ [span], ended := w.ended ++ [span] } : Provider).inLine =
      w.inLine ++ [span] := (List.append_assoc _ _ _).symm
  rw [onEnd]
  dsimp only
  split
  · exact ⟨(inLine_flush _).trans hqueued, rfl, rfl, rfl, rfl⟩
  · exact ⟨hqueued, rfl, rfl, rfl, rfl⟩

/-- What is asked of a provider, the line in one equation. -/
theorem orderly_iff_inLine : w.Orderly ↔ ¬ w.IsBroken ∧ w.lost = [] ∧ w.threw = false ∧ w.inLine = w.ended :=
  ⟨fun h => ⟨h.returned, h.notLost, h.quiet, h.inOrder⟩, fun ⟨h₁, h₂, h₃, h₄⟩ => ⟨h₁, h₂, h₃, h₄⟩⟩

/-- Only what is handed over and what throws tells whether a provider whose line is in order is orderly. -/
theorem Orderly.same (h : w.Orderly) {w' : Provider} (hhanded : w'.handed = w.handed) (hlost : w'.lost = w.lost)
    (hthrew : w'.threw = w.threw) (hline : w'.inLine = w'.ended) : w'.Orderly := by
  refine orderly_iff_inLine.mpr ⟨?_, hlost.trans h.notLost, hthrew.trans h.quiet, hline⟩
  rw [IsBroken, hhanded]
  exact h.returned

/-- Whether an operation throws is a matter of its time. -/
theorem apply_returns (live : LiveSpan) (now : ℤ) (op : SpanOp) :
    Returns (live.apply now op).2 ↔ match op with
      | .addEvent _ _ time => time.Valid
      | .finish time => time.Valid
      | _ => True := by
  cases op with
  | setAttributes attributes => exact iff_of_true ⟨_, rfl⟩ trivial
  | setStatus code => exact iff_of_true ⟨_, rfl⟩ trivial
  | updateName name => exact iff_of_true ⟨_, rfl⟩ trivial
  | addEvent name attributes time =>
      refine Iff.trans ?_ (toUnixNano_returns time now)
      rw [LiveSpan.apply]
      cases toUnixNano time now with
      | ok t => exact iff_of_true ⟨_, rfl⟩ ⟨_, rfl⟩
      | error e => exact iff_of_false (not_returns_error e) (not_returns_error e)
  | finish time =>
      refine Iff.trans ?_ (toUnixNano_returns time now)
      rw [LiveSpan.apply]
      cases toUnixNano time now with
      | ok t => exact iff_of_true ⟨_, rfl⟩ ⟨_, rfl⟩
      | error e => exact iff_of_false (not_returns_error e) (not_returns_error e)

/-- A rejection, or an operation that throws, is never undone. -/
def Spoilt (w : Provider) : Prop := w.IsBroken ∨ w.threw = true

/-- What was spoilt is not as it should be. -/
theorem Spoilt.not_orderly (h : w.Spoilt) : ¬ w.Orderly := by
  intro ho
  rcases h with hbroken | hthrew
  · exact ho.returned hbroken
  · exact Bool.false_ne_true (ho.quiet.symm.trans hthrew)

/-- What was spoilt stays so while what was handed over only grows. -/
theorem Spoilt.grow (h : w.Spoilt) {w' : Provider} (hhanded : w.handed <+: w'.handed)
    (hthrew : w.threw = true → w'.threw = true) : w'.Spoilt := by
  rcases h with ⟨sent, hsent, hrejected⟩ | h
  · exact .inl ⟨sent, hhanded.subset hsent, hrejected⟩
  · exact .inr (hthrew h)

variable {c options systemId maxBatch} in
/-- No step mends what was spoilt. -/
theorem Spoilt.step (h : w.Spoilt) (s : Step) : (w.step c options systemId maxBatch s).Spoilt := by
  cases s with
  | startSpan name parent attributes startTime now traceId spanId =>
      rw [Provider.step]
      split
      · exact h.grow (List.prefix_refl _) id
      · exact .inr rfl
  | op i op now =>
      rw [Provider.step]
      split
      · exact h
      · split
        · exact h
        · dsimp only
          split
          · exact .inr rfl
          · split
            · obtain ⟨-, -, hhanded, -, hthrew⟩ := onEnd_spec maxBatch _ _
              refine h.grow ?_ fun ht => ?_
              · rw [hhanded]
              · rw [hthrew]
                exact ht
            · exact h.grow (List.prefix_refl _) id
  | forceFlush => exact h.grow (List.prefix_refl _) id
  | next nonces taken =>
      rw [Provider.step]
      split
      · exact h
      · split
        · exact h.grow (List.prefix_refl _) id
        · exact h.grow (List.prefix_append _ _) id

variable {c options systemId maxBatch} in
/-- **An orderly provider stays orderly** in a step it is ready for, and is spoilt by any other. -/
theorem Orderly.step_cases (h : w.Orderly) (s : Step) :
    IsReady c options w s ∧ (w.step c options systemId maxBatch s).Orderly ∨
      ¬ IsReady c options w s ∧ (w.step c options systemId maxBatch s).Spoilt := by
  have hsame := orderly_iff_inLine.mp h
  cases s with
  | startSpan name parent attributes startTime now traceId spanId =>
      rw [step, IsReady, ← toUnixNano_returns startTime now]
      cases toUnixNano startTime now with
      | ok start => exact .inl ⟨⟨start, rfl⟩, h.same rfl rfl rfl hsame.2.2.2⟩
      | error e => exact .inr ⟨not_returns_error e, .inr rfl⟩
  | op i op now =>
      rw [step]
      cases hlive : w.spans[i]? with
      | none =>
          refine .inl ⟨?_, h⟩
          cases op <;> first | trivial | exact fun live hlive' => absurd (hlive.symm.trans hlive') (by simp)
      | some live =>
          dsimp only
          by_cases hended : live.ended = true
          · rw [if_pos hended]
            refine .inl ⟨?_, h⟩
            have hopen : ∀ live', w.spans[i]? = some live' → live'.ended ≠ false := by
              intro live' hlive'
              rw [← Option.some.inj (hlive.symm.trans hlive'), hended]
              exact fun h => Bool.false_ne_true h.symm
            cases op with
            | addEvent name attributes time => exact fun live' hlive' hnot => absurd hnot (hopen live' hlive')
            | finish time => exact fun live' hlive' hnot => absurd hnot (hopen live' hlive')
            | setAttributes attributes => trivial
            | setStatus code => trivial
            | updateName name => trivial
          · rw [if_neg hended]
            have hready : IsReady c options w (.op i op now) ↔ Returns (live.apply now op).2 := by
              have hone : ∀ P : Prop, (∀ live', w.spans[i]? = some live' → live'.ended = false → P) ↔ P :=
                fun P => ⟨fun hP => hP live hlive (Bool.eq_false_iff.mpr hended), fun hP _ _ _ => hP⟩
              rw [apply_returns]
              cases op with
              | addEvent name attributes time => exact hone time.Valid
              | finish time => exact hone time.Valid
              | setAttributes attributes => exact Iff.rfl
              | setStatus code => exact Iff.rfl
              | updateName name => exact Iff.rfl
            rw [hready]
            cases (live.apply now op).2 with
            | error e => exact .inr ⟨not_returns_error e, .inr rfl⟩
            | ok done =>
                refine .inl ⟨⟨done, rfl⟩, ?_⟩
                dsimp only
                have hset : ({ w with spans := w.spans.set i (live.apply now op).1 } : Provider).Orderly :=
                  h.same rfl rfl rfl hsame.2.2.2
                split
                · obtain ⟨hline, hends, hhanded, hlost, hthrew⟩ := onEnd_spec maxBatch
                    { w with spans := w.spans.set i (live.apply now op).1 } (live.apply now op).1.data
                  refine hset.same hhanded hlost hthrew ?_
                  rw [hline, hends]
                  exact congrArg (· ++ [(live.apply now op).1.data]) hset.inOrder
                · exact hset
  | forceFlush => exact .inl ⟨trivial, h.same rfl rfl rfl ((inLine_flush w).trans hsame.2.2.2)⟩
  | next nonces taken =>
      rw [step, IsReady]
      cases hwaiting : w.waiting with
      | nil => exact .inl ⟨fun batch rest hcons => (nomatch hcons), h⟩
      | cons batch rest =>
          dsimp only
          rw [if_neg h.returned]
          have hbatch : (∀ batch' rest', batch :: rest = batch' :: rest' → SendableBatch c options nonces batch') ↔
              Returns (send c options nonces taken batch) := by
            rw [send_returns]
            refine ⟨fun hall => hall batch rest rfl, fun hone batch' rest' hcons => ?_⟩
            rwa [← (List.cons.inj hcons).1]
          rw [hbatch]
          by_cases hsent : Returns (send c options nonces taken batch)
          · refine .inl ⟨hsent, ⟨?_, h.notLost, h.quiet, ?_⟩⟩
            · rintro ⟨sent, hmem, hrejected⟩
              rcases List.mem_append.mp hmem with hmem | hmem
              · exact h.returned ⟨sent, hmem, hrejected⟩
              · rw [List.mem_singleton.mp hmem] at hrejected
                exact hrejected hsent
            · have hline := h.inOrder
              rw [hwaiting, List.flatten_cons] at hline
              dsimp only
              rw [List.map_append, List.flatten_append, List.map_singleton, List.flatten_singleton, ← hline,
                List.append_assoc, List.append_assoc, List.append_assoc, List.append_assoc]
          · exact .inr ⟨hsent, .inl ⟨_, List.mem_append_right _ (List.mem_singleton.mpr rfl), hsent⟩⟩

variable {c options systemId maxBatch} in
/-- No run mends what was spoilt. -/
theorem Spoilt.run (h : w.Spoilt) (steps : List Step) : (w.run c options systemId maxBatch steps).Spoilt := by
  induction steps generalizing w with
  | nil => exact h
  | cons s rest ih => exact ih (h.step s)

variable {c options systemId maxBatch} in
/-- A run leaves a provider as it should be exactly if each of its steps is ready. -/
theorem orderly_run_iff (steps : List Step) (h : w.Orderly) :
    (w.run c options systemId maxBatch steps).Orderly ↔ ReadyRun c options systemId maxBatch w steps := by
  induction steps generalizing w with
  | nil => exact iff_of_true h trivial
  | cons s rest ih =>
      rw [ReadyRun]
      show ((w.step c options systemId maxBatch s).run c options systemId maxBatch rest).Orderly ↔ _
      have hcases : _ ∧ (w.step c options systemId maxBatch s).Orderly ∨
          _ ∧ (w.step c options systemId maxBatch s).Spoilt := h.step_cases s
      rcases hcases with ⟨hready, hnext⟩ | ⟨hready, hspoilt⟩
      · rw [and_iff_right hready]
        exact ih hnext
      · exact iff_of_false (hspoilt.run rest).not_orderly fun hrun => hready hrun.1

/-- A fresh provider is as it should be. -/
theorem orderly_fresh : fresh.Orderly where
  returned := fun ⟨_, h, _⟩ => nomatch h
  notLost := rfl
  quiet := rfl
  inOrder := rfl

/-- **A batch that fails does not stop the next one** in the runs in which each time that is read is valid, and
    each span of a batch whose turn it is can be sent: JSON has a text for the attributes its translation
    takes, and for those that are printed. -/
theorem orderly_iff (steps : List Step) : (fresh.run c options systemId maxBatch steps).Orderly ↔
    ReadyRun c options systemId maxBatch fresh steps := orderly_run_iff steps orderly_fresh

-- ── A bigint among the arguments ─────────────────────────────────────────────────

/-- The trace id of zeros. -/
def zeroTraceId : Hex 32 := ⟨List.replicate 32 0x30, by decide⟩

/-- The span id of zeros. -/
def zeroSpanId : Hex 16 := ⟨List.replicate 16 0x30, isHex_zeros16⟩

/-- A span that starts and ends, and is flushed in its turn. -/
def spanSent (i : ℕ) (name : JsString) (attributes : List (JsString × JsValue)) : List Step :=
  [.startSpan name none attributes .other 0 zeroTraceId zeroSpanId, .op i (.finish .other) 0, .forceFlush,
    .next (fun _ _ => ⟨List.replicate 32 0, length_zeros⟩) true]

/-- A call of a tool with a bigint in the array of its arguments, and a span like any other after it. -/
def bigintSteps : List Step :=
  spanSent 0 (js "ai.toolCall") [(js "ai.toolCall.args", .array [.bigint 1])] ++ spanSent 1 (js "work") []

/-- A span with a `BigInt` in an array, and a span after it. -/
def bigintRun : Provider := fresh.run toyCrypto ⟨true, ⟨true, none⟩, false⟩ (js "agent") 256 bigintSteps

/-- **One bigint stops every batch after it**: the first is rejected, and the second never handed over. -/
theorem bigint_stops :
    bigintRun.handed.map (fun sent => (sent.1.map Span.name, sent.2)) = [([js "ai.toolCall"], .error .typeError)] ∧
      bigintRun.lost.map (fun batch => batch.map Span.name) = [[js "work"]] ∧ ¬ bigintRun.Orderly := by
  have hlost : bigintRun.lost.map (fun batch => batch.map Span.name) = [[js "work"]] := rfl
  refine ⟨rfl, hlost, fun h => ?_⟩
  rw [h.notLost] at hlost
  cases hlost

end Provider

end Sdk.Tracer
