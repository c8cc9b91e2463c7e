import Sigillo.AssocList
import Sigillo.EcmaText
import Sigillo.JoinedLines
import Sigillo.JsonBytes
import Sigillo.JsonParse

/-!
# What a model asked its agent to do

`toolRequestsOf`: the tools a model requested, read out of its answer. A body is walked once, each
provider's members in turn (`fromBody`); a stream is cut into its events (`eventsOf`), and each event
updates the slots that collect the pieces of a request under a key (`readEvent`).

`String(v)` throws on an object with a member `toString` of its own; where it does, the reading of
the stream is `none`. -/

namespace Sigillo

open DoubleArith Utf16Text JsonText JsonParse EcmaText

/-- A requested tool. `args` is `none` where the program has `undefined`. -/
structure ToolRequest where
  name : JsString
  args : Option Json

namespace ToolRequests

/-- More requests than this in one answer are not recorded. -/
def MAX_TOOL_REQUESTS : ℕ := 32

/-- `Record<string, unknown>`. -/
abbrev Record := List (JsString × Json)

-- ── Values ───────────────────────────────────────────────────────────────────────

/-- `isObject`, with the members. -/
def asObject : Option Json → Option Record
  | some (.obj members) => some members
  | _ => none

/-- An array's items, or none. -/
def asArray : Option Json → List Json
  | some (.arr items) => items
  | _ => []

/-- A name that is not empty. -/
def asName : Option Json → Option JsString
  | some (.str name) => if name = [] then none else some name
  | _ => none

/-- `value ?? other`. -/
def coalesce (value other : Option Json) : Option Json :=
  match value with
  | none => other
  | some .null => other
  | some v => some v

/-- `value ?? other`, where the other is no `undefined`. -/
def nullish (value : Option Json) (other : Json) : Json := (coalesce value none).getD other

/-- `value === text`. -/
def isText (value : Option Json) (text : String) : Bool :=
  match value with
  | some (.str s) => s == js text
  | _ => false

mutual
/-- `String(value)`, `none` where it throws. -/
def toText : Json → Option JsString
  | .null => some (js "null")
  | .bool true => some (js "true")
  | .bool false => some (js "false")
  | .num x => some (numberToString x)
  | .str s => some s
  | .arr items => (itemTexts items).map (JoinedLines.joined 0x2C)
  -- `toString` and `valueOf` of the prototype are reached only past the object's own
  | .obj members =>
      if members.any fun m => m.1 == js "toString" then none else some (js "[object Object]")

/-- What `join` puts together: nothing for `null`. -/
def itemTexts : List Json → Option (List JsString)
  | [] => some []
  | .null :: rest => (itemTexts rest).map ([] :: ·)
  | item :: rest => (toText item).bind fun text => (itemTexts rest).map (text :: ·)
end

/-- `String(value)`, of what may be `undefined`. -/
def optionText : Option Json → Option JsString
  | none => some (js "undefined")
  | some v => toText v

/-- Arguments that arrive as a JSON text are parsed; whatever else is passed on as it is. -/
def argumentsOf : Option Json → Option Json
  | some (.str s) => some (if s = [] then .obj [] else nullish (jsonParse s) (.str s))
  | v => v

-- ── A whole answer ───────────────────────────────────────────────────────────────

/-- A function and its `arguments`, as OpenAI's shapes have them. -/
def fromFunction (fn : Option Json) : Option ToolRequest := do
  let fn ← asObject fn
  let name ← asName (fn.lookup (js "name"))
  return ⟨name, argumentsOf (fn.lookup (js "arguments"))⟩

/-- The calls of a choice. -/
def fromChoice (choice : Json) : List ToolRequest :=
  match (asObject (some choice)).bind fun c => asObject (c.lookup (js "message")) with
  | none => []
  | some message =>
      ((asArray (message.lookup (js "tool_calls"))).filterMap fun call =>
        (asObject (some call)).bind fun c => fromFunction (c.lookup (js "function"))) ++
      (fromFunction (message.lookup (js "function_call"))).toList

/-- The call of an item. -/
def fromItem (item : Json) : Option ToolRequest := do
  let members ← asObject (some item)
  if isText (members.lookup (js "type")) "function_call" then fromFunction (some item) else none

/-- The call of a block. -/
def fromBlock (block : Json) : Option ToolRequest := do
  let members ← asObject (some block)
  if isText (members.lookup (js "type")) "tool_use" then
    let name ← asName (members.lookup (js "name"))
    return ⟨name, some (nullish (members.lookup (js "input")) (.obj []))⟩
  else none

/-- The call of a part. -/
def fromPart (part : Json) : Option ToolRequest := do
  let members ← asObject (some part)
  let call ← asObject (members.lookup (js "functionCall"))
  let name ← asName (call.lookup (js "name"))
  return ⟨name, some (nullish (call.lookup (js "args")) (.obj []))⟩

/-- The calls of a candidate. -/
def fromCandidate (candidate : Json) : List ToolRequest :=
  match (asObject (some candidate)).bind fun c => asObject (c.lookup (js "content")) with
  | none => []
  | some content => (asArray (content.lookup (js "parts"))).filterMap fromPart

/-- `fromBody`, of an object. -/
def fromRecord (body : Record) : List ToolRequest :=
  (asArray (body.lookup (js "choices"))).flatMap fromChoice ++
  (asArray (body.lookup (js "output"))).filterMap fromItem ++
  (asArray (body.lookup (js "content"))).filterMap fromBlock ++
  (asArray (body.lookup (js "candidates"))).flatMap fromCandidate

mutual
/-- A whole answer: a body, or an array of them. -/
def fromBody : Json → List ToolRequest
  | .arr bodies => fromBodies bodies
  | .obj body => fromRecord body
  | _ => []

/-- The calls of each body. -/
def fromBodies : List Json → List ToolRequest
  | [] => []
  | body :: rest => fromBody body ++ fromBodies rest
end

-- ── A stream ─────────────────────────────────────────────────────────────────────

/-- `stream.split(/\r?\n/)`. -/
def splitLineEnds : JsString → List JsString
  | [] => [[]]
  | u :: rest =>
      if u = 0x0A then [] :: splitLineEnds rest
      else if u = 0x0D ∧ rest.head? = some 0x0A then splitLineEnds rest
      else match splitLineEnds rest with
        | [] => [[u]]
        | line :: lines => (u :: line) :: lines

/-- The event of a `data:` line that is JSON, and an object. -/
def eventOf (line : JsString) : Option Record :=
  if line.take 5 = js "data:" then asObject (jsonParse (trim (line.drop 5))) else none

/-- The events of a server-sent stream, in order. -/
def eventsOf (stream : JsString) : List Record := (splitLineEnds stream).filterMap eventOf

/-- What is collected of one request. -/
structure Pending where
  name : Option JsString
  text : JsString
  args : Option Json

/-- What one event does to the slot of `key`: `name ??= …`, `text += …`, and `args = …` where it is
    given. -/
structure Update where
  key : JsString
  name : Option JsString
  text : JsString
  args : Option Json

/-- `typeof value === "string"`, and the text; nothing is added otherwise. -/
def fragment : Option Json → JsString
  | some (.str s) => s
  | _ => []

/-- A function whose arguments arrive in fragments, under a key. -/
def functionUpdate (key : JsString) (fn : Option Json) : Update :=
  match asObject fn with
  | none => ⟨key, none, [], none⟩
  | some fn => ⟨key, asName (fn.lookup (js "name")), fragment (fn.lookup (js "arguments")), none⟩

/-- The number a choice or a call stands under, `0` where none is given. -/
def numberText (members : Record) : Option JsString :=
  toText (nullish (members.lookup (js "index")) (.num (.ofNat 0)))

/-- One of the tool calls of a delta. -/
def callUpdate (index : JsString) (call : Json) : Option (List Update) :=
  match asObject (some call) with
  | none => some []
  | some members => (numberText members).map fun number =>
      [functionUpdate (js "chat:" ++ index ++ js ":" ++ number) (members.lookup (js "function"))]

/-- What a choice updates. -/
def choiceUpdates (choice : Json) : Option (List Update) :=
  match asObject (some choice) with
  | none => some []
  | some members =>
      match asObject (members.lookup (js "delta")) with
      | none => some []
      | some delta => do
          let index ← numberText members
          let calls ← (asArray (delta.lookup (js "tool_calls"))).mapM (callUpdate index)
          let legacy := delta.lookup (js "function_call")
          return calls.flatten ++
            (if (asObject legacy).isSome then [functionUpdate (js "chat:" ++ index ++ js ":legacy") legacy]
             else [])

/-- The arguments of a block, where it opens with some. -/
def openingInput : Option Json → Option Json
  | some (.obj []) => none
  | some (.obj members) => some (.obj members)
  | _ => none

/-- What an event of a block updates. -/
def blockUpdates (event : Record) : Option (List Update) :=
  let key := (optionText (event.lookup (js "index"))).map (js "block:" ++ ·)
  if isText (event.lookup (js "type")) "content_block_start" then
    match asObject (event.lookup (js "content_block")) with
    | none => some []
    | some block =>
        if isText (block.lookup (js "type")) "tool_use" then
          key.map fun k =>
            [⟨k, asName (block.lookup (js "name")), [], openingInput (block.lookup (js "input"))⟩]
        else some []
  else if isText (event.lookup (js "type")) "content_block_delta" then
    match asObject (event.lookup (js "delta")) with
    | none => some []
    | some delta =>
        match isText (delta.lookup (js "type")) "input_json_delta", delta.lookup (js "partial_json") with
        | true, some (.str json) => key.map fun k => [⟨k, none, json, none⟩]
        | _, _ => some []
  else some []

/-- What an item is known by: `item["id"] ?? item["call_id"] ?? event["output_index"]`. -/
def itemText (event item : Record) : Option JsString :=
  optionText (coalesce (coalesce (item.lookup (js "id")) (item.lookup (js "call_id")))
    (event.lookup (js "output_index")))

/-- What an event of an item updates. -/
def itemUpdates (event : Record) : Option (List Update) :=
  let done := isText (event.lookup (js "type")) "response.output_item.done"
  if isText (event.lookup (js "type")) "response.output_item.added" || done then
    match asObject (event.lookup (js "item")) with
    | none => some []
    | some item =>
        if isText (item.lookup (js "type")) "function_call" then
          (itemText event item).map fun key =>
            [⟨js "item:" ++ key, asName (item.lookup (js "name")), [],
              if done then argumentsOf (item.lookup (js "arguments")) else none⟩]
        else some []
  else some []

/-- Everything an event does to the slots, in order. -/
def updatesOf (event : Record) : Option (List Update) := do
  let choices ← (asArray (event.lookup (js "choices"))).mapM choiceUpdates
  let blocks ← blockUpdates event
  let items ← itemUpdates event
  return choices.flatten ++ blocks ++ items

/-- `slot(key)`, and the update made to it. -/
def Update.apply (slots : List (JsString × Pending)) (u : Update) : List (JsString × Pending) :=
  let slot := (slots.lookup u.key).getD ⟨none, [], none⟩
  AssocList.set slots u.key ⟨slot.name.or u.name, slot.text ++ u.text, u.args.or slot.args⟩

/-- `pending` and `whole`. -/
structure Streamed where
  pending : List (JsString × Pending)
  whole : List ToolRequest

/-- One event of a stream. -/
def readEvent (state : Streamed) (event : Record) : Option Streamed :=
  (updatesOf event).map fun updates =>
    { pending := updates.foldl Update.apply state.pending
      whole := state.whole ++ if (event.lookup (js "candidates")).isSome then fromRecord event else [] }

/-- The request of a slot, where it has a name. -/
def Pending.request (slot : Pending) : Option ToolRequest :=
  slot.name.map fun name =>
    ⟨name, coalesce slot.args
      (if slot.text = [] then some (.obj []) else argumentsOf (some (.str slot.text)))⟩

/-- **The calls of a stream.** -/
def fromStream (stream : JsString) : Option (List ToolRequest) :=
  ((eventsOf stream).foldlM readEvent ⟨[], []⟩).map fun state =>
    (state.pending.filterMap fun slot => slot.2.request) ++ state.whole

/-- The tools an answer requests, `none` where the reading throws. -/
def toolRequestsOf (answer : JsString) (streamed : Bool) : Option (List ToolRequest) :=
  (if streamed then fromStream answer
   else some (match jsonParse answer with
     | none => []
     | some body => fromBody body)).map (List.take MAX_TOOL_REQUESTS)

end ToolRequests

end Sigillo
