import Sigillo.ToolRequests

/-!
# The answers of the providers

One answer with its tool calls, told twice: as a body (`BodyOf`), and as a server-sent stream whose
events tell the calls in pieces (`StreamOf`). What a stream has told so far is a list of `Opened`
calls: a call opens in its turn, with its name, and fragments of its arguments follow, of any opened
call at any time (`Delivery`). Nothing here is read off the program, except `String(v)` for the
number or id that marks the pieces of one call. -/

namespace Sigillo

open DoubleArith Utf16Text JsonText JsonParse EcmaText

namespace ToolRequests

/-- The shapes of an answer; `legacy` is the `function_call` of the older chat answers. -/
inductive Shape where
  | chat
  | legacy
  | responses
  | anthropic
  | gemini
deriving DecidableEq

/-- A tool call: what stands under its name and its arguments. A call without a name is of a tool
    that is no function. -/
structure Call where
  name : Option JsString
  args : Option Json

-- ── Bodies ───────────────────────────────────────────────────────────────────────

def IsNull (value : Option Json) : Prop := value = none ∨ value = some .null

/-- A list under a member, which may be left out where it is empty. -/
def IsList (value : Option Json) (items : List Json) : Prop :=
  value = some (.arr items) ∨ items = [] ∧ IsNull value

def Lacks (told : Record) (names : List String) : Prop := ∀ name ∈ names, told.lookup (js name) = none

/-- The members `name` and `argsName` of what tells a call. -/
def Holds (argsName : String) (told : Record) (call : Call) : Prop :=
  ∃ name, call.name = some name ∧ told.lookup (js "name") = some (.str name) ∧
    told.lookup (js argsName) = call.args

/-- A list in which calls stand between other things. -/
inductive Listed (entry : Json → Call → Prop) (other : Json → Prop) : List Json → List Call → Prop
  | nil : Listed entry other [] []
  | call {item : Json} {call : Call} {items : List Json} {calls : List Call} (h : entry item call)
      (rest : Listed entry other items calls) : Listed entry other (item :: items) (call :: calls)
  | other {item : Json} {items : List Json} {calls : List Call} (h : other item)
      (rest : Listed entry other items calls) : Listed entry other (item :: items) calls

/-- One of the `tool_calls`: of a function, or of another tool. -/
def ChatEntry (item : Json) (call : Call) : Prop :=
  ∃ members, item = .obj members ∧
    ((∃ fn, members.lookup (js "function") = some (.obj fn) ∧ Holds "arguments" fn call) ∨
      (members.lookup (js "function") = none ∧ call.name = none))

/-- An object of a type, with a call in it. -/
def TypedEntry (type argsName : String) (item : Json) (call : Call) : Prop :=
  ∃ members, item = .obj members ∧ members.lookup (js "type") = some (.str (js type)) ∧
    Holds argsName members call

def NotTyped (type : String) (item : Json) : Prop :=
  ∀ members, item = .obj members → members.lookup (js "type") ≠ some (.str (js type))

def PartEntry (part : Json) (call : Call) : Prop :=
  ∃ members fn, part = .obj members ∧ members.lookup (js "functionCall") = some (.obj fn) ∧
    Holds "args" fn call

def OtherPart (part : Json) : Prop :=
  ∀ members, part = .obj members → members.lookup (js "functionCall") = none

/-- What a Gemini answer, or one event of its stream, says in its one candidate. -/
inductive CandidateOf : Record → List Call → Prop
  | parts {told candidate content : Record} {items : List Json} {calls : List Call}
      (hcandidates : told.lookup (js "candidates") = some (.arr [.obj candidate]))
      (hcontent : candidate.lookup (js "content") = some (.obj content))
      (hparts : IsList (content.lookup (js "parts")) items)
      (hcalls : Listed PartEntry OtherPart items calls) : CandidateOf told calls
  | empty {told candidate : Record}
      (hcandidates : told.lookup (js "candidates") = some (.arr [.obj candidate]))
      (hcontent : candidate.lookup (js "content") = none) : CandidateOf told []
  | none {told : Record} (hcandidates : IsList (told.lookup (js "candidates")) []) :
      CandidateOf told []

/-- A body of one choice with its tool calls. -/
inductive BodyOf : Shape → Record → List Call → Prop
  | chat {body choice message : Record} {items : List Json} {calls : List Call}
      (hlacks : Lacks body ["output", "content", "candidates"])
      (hchoices : body.lookup (js "choices") = some (.arr [.obj choice]))
      (hmessage : choice.lookup (js "message") = some (.obj message))
      (hlegacy : IsNull (message.lookup (js "function_call")))
      (hitems : IsList (message.lookup (js "tool_calls")) items)
      (hcalls : List.Forall₂ ChatEntry items calls) : BodyOf .chat body calls
  | legacy {body choice message fn : Record} {call : Call}
      (hlacks : Lacks body ["output", "content", "candidates"])
      (hchoices : body.lookup (js "choices") = some (.arr [.obj choice]))
      (hmessage : choice.lookup (js "message") = some (.obj message))
      (hitems : IsList (message.lookup (js "tool_calls")) [])
      (hlegacy : message.lookup (js "function_call") = some (.obj fn))
      (hcall : Holds "arguments" fn call) : BodyOf .legacy body [call]
  | responses {body : Record} {items : List Json} {calls : List Call}
      (hlacks : Lacks body ["choices", "content", "candidates"])
      (hitems : IsList (body.lookup (js "output")) items)
      (hcalls : Listed (TypedEntry "function_call" "arguments") (NotTyped "function_call") items calls) :
      BodyOf .responses body calls
  | anthropic {body : Record} {items : List Json} {calls : List Call}
      (hlacks : Lacks body ["choices", "output", "candidates"])
      (hitems : IsList (body.lookup (js "content")) items)
      (hcalls : Listed (TypedEntry "tool_use" "input") (NotTyped "tool_use") items calls) :
      BodyOf .anthropic body calls
  | gemini {body : Record} {calls : List Call} (hlacks : Lacks body ["choices", "output", "content"])
      (hcandidate : CandidateOf body calls) : BodyOf .gemini body calls

-- ── What a stream tells ──────────────────────────────────────────────────────────

/-- One piece of one call, which is known by its place among the calls. -/
inductive Piece where
  /-- The call opens with its name, with arguments that are whole, and with a text of them. -/
  | opens (n : ℕ) (name : Option JsString) (whole : Option Json) (text : JsString)
  /-- More of the text of its arguments. -/
  | continues (n : ℕ) (fragment : JsString)
  /-- The call told once more, with its arguments whole. -/
  | finishes (n : ℕ) (name : Option JsString) (whole : Option Json)

/-- What has been told of a call. -/
structure Opened where
  name : Option JsString
  whole : Option Json
  text : JsString

/-- Pieces told one after the other, from what had been told to what has been told then. -/
inductive Delivery : List Opened → List Piece → List Opened → Prop
  | done {told : List Opened} : Delivery told [] told
  | opens {told final : List Opened} {name : Option JsString} {whole : Option Json} {text : JsString}
      {rest : List Piece} (h : Delivery (told ++ [⟨name, whole, text⟩]) rest final) :
      Delivery told (.opens told.length name whole text :: rest) final
  | continues {told final : List Opened} {n : ℕ} {call : Opened} {fragment : JsString}
      {rest : List Piece} (hn : told[n]? = some call)
      (h : Delivery (told.set n { call with text := call.text ++ fragment }) rest final) :
      Delivery told (.continues n fragment :: rest) final
  | finishes {told final : List Opened} {n : ℕ} {call : Opened} {whole : Option Json}
      {rest : List Piece} (hn : told[n]? = some call) (hwhole : call.whole = none)
      (h : Delivery (told.set n { call with whole := whole }) rest final) :
      Delivery told (.finishes n call.name whole :: rest) final

/-- What was told of the arguments is what the body has: a text in fragments, or a value told whole.
    Anthropic's input is told as a JSON text of it; where that is the empty object, it needs none. -/
def Written (told : Opened) (args : Option Json) : Shape → Prop
  | .chat | .legacy =>
      (told.whole = none ∧ args = some (.str told.text)) ∨
        (told.text = [] ∧ args = told.whole ∧ ∀ s, args ≠ some (.str s))
  | .anthropic =>
      ((told.whole = none ∨ told.whole = some (.obj [])) ∧
        ((told.text = [] ∧ (args = none ∨ args = some (.obj []))) ∨
          ∃ v, args = some v ∧ jsonParse told.text = some v)) ∨
        (told.text = [] ∧ args = told.whole ∧ ∃ m members, args = some (.obj (m :: members)))
  | .responses | .gemini => told.text = [] ∧ args = told.whole

-- ── Events ───────────────────────────────────────────────────────────────────────

/-- The types of the events that tell a piece. -/
def toldTypes : List String :=
  ["content_block_start", "content_block_delta", "response.output_item.added",
    "response.output_item.done"]

/-- The function of a piece: its name and arguments as it opens, fragments later. -/
def FunctionPiece (fn : Record) : Piece → Prop
  | .opens _ name whole text =>
      (∃ s, name = some s ∧ fn.lookup (js "name") = some (.str s)) ∧
        ((fn.lookup (js "arguments") = some (.str text) ∧ whole = none) ∨
          (fn.lookup (js "arguments") = whole ∧ text = [] ∧ ∀ s, whole ≠ some (.str s)))
  | .continues _ fragment =>
      (IsNull (fn.lookup (js "name")) ∨ fn.lookup (js "name") = some (.str [])) ∧
        (fn.lookup (js "arguments") = some (.str fragment) ∨
          (fragment = [] ∧ IsNull (fn.lookup (js "arguments"))))
  | .finishes .. => False

/-- A piece of a tool that is no function. -/
def NoFunction : Piece → Prop
  | .opens _ name whole text => name = none ∧ whole = none ∧ text = []
  | .continues _ fragment => fragment = []
  | .finishes .. => False

def Piece.number : Piece → ℕ
  | .opens n .. => n
  | .continues n _ => n
  | .finishes n .. => n

/-- One of the `tool_calls` of a delta. -/
def ChatPiece (key : ℕ → JsString) (item : Json) (piece : Piece) : Prop :=
  ∃ members, item = .obj members ∧ numberText members = some (key piece.number) ∧
    ((∃ fn, members.lookup (js "function") = some (.obj fn) ∧ FunctionPiece fn piece) ∨
      (members.lookup (js "function") = none ∧ NoFunction piece))

/-- The delta of a chunk, in which pieces stand. -/
def DeltaOf (key : ℕ → JsString) (delta : Record) (pieces : List Piece) : Prop :=
  IsNull (delta.lookup (js "function_call")) ∧
    ∃ items, IsList (delta.lookup (js "tool_calls")) items ∧ List.Forall₂ (ChatPiece key) items pieces

def LegacyDelta (delta : Record) (pieces : List Piece) : Prop :=
  IsList (delta.lookup (js "tool_calls")) [] ∧
    ((IsNull (delta.lookup (js "function_call")) ∧ pieces = []) ∨
      ∃ fn piece, delta.lookup (js "function_call") = some (.obj fn) ∧ FunctionPiece fn piece ∧
        piece.number = 0 ∧ pieces = [piece])

/-- A chunk of a chat completion: its one choice, where it has one, is the first. -/
inductive ChunkOf (tells : Record → List Piece → Prop) : Record → List Piece → Prop
  | delta {event choice delta : Record} {pieces : List Piece}
      (hlacks : Lacks event ["candidates", "type"])
      (hchoices : event.lookup (js "choices") = some (.arr [.obj choice]))
      (hindex : numberText choice = some (js "0"))
      (hdelta : choice.lookup (js "delta") = some (.obj delta)) (h : tells delta pieces) :
      ChunkOf tells event pieces
  | still {event choice : Record} (hlacks : Lacks event ["candidates", "type"])
      (hchoices : event.lookup (js "choices") = some (.arr [.obj choice]))
      (hdelta : choice.lookup (js "delta") = none) : ChunkOf tells event []
  | none {event : Record} (hlacks : Lacks event ["candidates", "type"])
      (hchoices : IsList (event.lookup (js "choices")) []) : ChunkOf tells event []

/-- An event of the Responses API. -/
inductive ResponsesEvent (key : ℕ → JsString) : Record → List Piece → Prop
  | added {event item : Record} {n : ℕ} {name : JsString} (hlacks : Lacks event ["candidates", "choices"])
      (htype : event.lookup (js "type") = some (.str (js "response.output_item.added")))
      (hitem : event.lookup (js "item") = some (.obj item))
      (hcall : item.lookup (js "type") = some (.str (js "function_call")))
      (hkey : itemText event item = some (key n)) (hname : item.lookup (js "name") = some (.str name)) :
      ResponsesEvent key event [.opens n (some name) none []]
  | finished {event item : Record} {n : ℕ} {name : JsString}
      (hlacks : Lacks event ["candidates", "choices"])
      (htype : event.lookup (js "type") = some (.str (js "response.output_item.done")))
      (hitem : event.lookup (js "item") = some (.obj item))
      (hcall : item.lookup (js "type") = some (.str (js "function_call")))
      (hkey : itemText event item = some (key n)) (hname : item.lookup (js "name") = some (.str name)) :
      ResponsesEvent key event [.finishes n (some name) (item.lookup (js "arguments"))]
  | otherItem {event : Record} {item : Json} (hlacks : Lacks event ["candidates", "choices"])
      (htype : ∀ type ∈ ["content_block_start", "content_block_delta"],
        event.lookup (js "type") ≠ some (.str (js type)))
      (hitem : event.lookup (js "item") = some item) (hcall : NotTyped "function_call" item) :
      ResponsesEvent key event []
  | other {event : Record} (hlacks : Lacks event ["candidates", "choices"])
      (htype : ∀ type ∈ toldTypes, event.lookup (js "type") ≠ some (.str (js type))) :
      ResponsesEvent key event []

/-- An event of Anthropic's. A block opens with the empty object, with nothing, or with its whole
    input. -/
inductive AnthropicEvent (key : ℕ → JsString) : Record → List Piece → Prop
  | start {event block : Record} {n : ℕ} {name : JsString} (hlacks : Lacks event ["candidates", "choices"])
      (htype : event.lookup (js "type") = some (.str (js "content_block_start")))
      (hblock : event.lookup (js "content_block") = some (.obj block))
      (hcall : block.lookup (js "type") = some (.str (js "tool_use")))
      (hkey : optionText (event.lookup (js "index")) = some (key n))
      (hname : block.lookup (js "name") = some (.str name)) :
      AnthropicEvent key event [.opens n (some name) (block.lookup (js "input")) []]
  | delta {event delta : Record} {n : ℕ} {json : JsString} (hlacks : Lacks event ["candidates", "choices"])
      (htype : event.lookup (js "type") = some (.str (js "content_block_delta")))
      (hdelta : event.lookup (js "delta") = some (.obj delta))
      (hcall : delta.lookup (js "type") = some (.str (js "input_json_delta")))
      (hkey : optionText (event.lookup (js "index")) = some (key n))
      (hjson : delta.lookup (js "partial_json") = some (.str json)) :
      AnthropicEvent key event [.continues n json]
  | otherStart {event : Record} {block : Json} (hlacks : Lacks event ["candidates", "choices"])
      (htype : event.lookup (js "type") = some (.str (js "content_block_start")))
      (hblock : event.lookup (js "content_block") = some block) (hcall : NotTyped "tool_use" block) :
      AnthropicEvent key event []
  | otherDelta {event : Record} {delta : Json} (hlacks : Lacks event ["candidates", "choices"])
      (htype : event.lookup (js "type") = some (.str (js "content_block_delta")))
      (hdelta : event.lookup (js "delta") = some delta) (hcall : NotTyped "input_json_delta" delta) :
      AnthropicEvent key event []
  | other {event : Record} (hlacks : Lacks event ["candidates", "choices"])
      (htype : ∀ type ∈ toldTypes, event.lookup (js "type") ≠ some (.str (js type))) :
      AnthropicEvent key event []

/-- An event of Gemini's: its calls are whole. -/
inductive GeminiEvent : Record → List Piece → Prop
  | candidate {event : Record} {calls : List Call} {first : ℕ}
      (hlacks : Lacks event ["choices", "output", "content", "type"]) (h : CandidateOf event calls) :
      GeminiEvent event (calls.mapIdx fun i call => .opens (first + i) call.name call.args [])

/-- The pieces an event tells; `key n` is the number or the id that marks those of the n-th call. -/
def EventOf (key : ℕ → JsString) : Shape → Record → List Piece → Prop
  | .chat => ChunkOf (DeltaOf key)
  | .legacy => ChunkOf LegacyDelta
  | .responses => ResponsesEvent key
  | .anthropic => AnthropicEvent key
  | .gemini => GeminiEvent

-- ── Streams ──────────────────────────────────────────────────────────────────────

/-- A line of a server-sent stream: the JSON text of an event, from brace to brace, or a line that
    holds none. -/
inductive LineOf : JsString → Option Record → Prop
  | event {before inside after : JsString} {event : Record}
      (hbefore : ∀ u ∈ before, u = 0x20 ∨ u = 0x09) (hafter : ∀ u ∈ after, u = 0x20 ∨ u = 0x09)
      (hparse : jsonParse (0x7B :: (inside ++ [0x7D])) = some (.obj event)) :
      LineOf (js "data:" ++ (before ++ 0x7B :: (inside ++ 0x7D :: after))) (some event)
  | other {line : JsString}
      (h : ∀ rest event, line = js "data:" ++ rest → jsonParse (trim rest) ≠ some (.obj event)) :
      LineOf line none

/-- Lines, each ended by a line feed or a carriage return and a line feed; the last may not be. -/
inductive LinesOf : JsString → List Record → Prop
  | last {line : JsString} {told : Option Record} (hends : ∀ u ∈ line, u ≠ 0x0A ∧ u ≠ 0x0D)
      (h : LineOf line told) : LinesOf line told.toList
  | line {line eol rest : JsString} {told : Option Record} {events : List Record}
      (hends : ∀ u ∈ line, u ≠ 0x0A ∧ u ≠ 0x0D) (h : LineOf line told)
      (heol : eol = [0x0A] ∨ eol = [0x0D, 0x0A]) (hrest : LinesOf rest events) :
      LinesOf (line ++ (eol ++ rest)) (told.toList ++ events)

/-- A stream that tells the calls, in the order of the body. -/
def StreamOf (shape : Shape) (stream : JsString) (calls : List Call) : Prop :=
  ∃ (events : List Record) (pieces : List (List Piece)) (told : List Opened) (key : ℕ → JsString),
    LinesOf stream events ∧ List.Forall₂ (EventOf key shape) events pieces ∧
    Delivery [] pieces.flatten told ∧
    List.Forall₂ (fun o call => o.name = call.name ∧ Written o call.args shape) told calls ∧
    ∀ i j, i < calls.length → j < calls.length → key i = key j → i = j

end ToolRequests

end Sigillo
