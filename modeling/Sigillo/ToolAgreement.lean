import Sigillo.ToolReading

/-!
# A stream and a body request the same tools

**`toolRequestsOf_agree_iff`**: the requests of a stream are those of the body exactly when the
arguments of every request recorded are of the kind that both sides read alike. They are not where
the arguments are `null`: a body then has the empty object and a stream has the text `null`, since
`parseJson(text) ?? text` takes what it parsed for a failure. -/

namespace Sigillo

open DoubleArith Utf16Text JsonText JsonParse EcmaText AssocList

namespace ToolRequests

-- ── When the two agree ───────────────────────────────────────────────────────────

/-- The arguments a stream yields. -/
def streamArgs (o : Opened) (shape : Shape) : Option Json :=
  coalesce (heldArgs o.whole shape)
    (if o.text = [] then some (.obj []) else argumentsOf (some (.str o.text)))

/-- The arguments that a body and a stream yield alike: a text, of the chat shapes, or the empty
    object; some that are there, of the Responses API; all but `null`, of Anthropic. -/
def Fits (args : Option Json) : Shape → Prop
  | .chat | .legacy => (∃ s, args = some (.str s)) ∨ args = some (.obj [])
  | .responses => args ≠ none ∧ args ≠ some .null
  | .anthropic => args ≠ some .null
  | .gemini => True

/-- Text that is JSON, but not `null`, or that is no JSON. -/
theorem nullish_text_ne_null (v : Option Json) (s : JsString) : nullish v (.str s) ≠ .null := by
  match v with
  | none | some .null | some (.bool _) | some (.num _) | some (.str _) | some (.arr _)
  | some (.obj _) => exact Json.noConfusion

/-- Arguments given as text are not null. -/
theorem argumentsOf_text_ne_null (s : JsString) : argumentsOf (some (.str s)) ≠ some .null := by
  intro h
  have hvalue := Option.some.inj h
  by_cases hs : s = []
  · rw [if_pos hs] at hvalue
    cases hvalue
  · rw [if_neg hs] at hvalue
    exact nullish_text_ne_null _ _ hvalue

/-- What is not null is taken. -/
theorem coalesce_of_ne_null {v : Json} (h : v ≠ .null) (other : Option Json) :
    coalesce (some v) other = some v := by
  cases v with
  | null => exact absurd rfl h
  | bool _ | num _ | str _ | arr _ | obj _ => rfl

/-- What is not null is taken. -/
theorem nullish_of_ne_null {v : Json} (h : v ≠ .null) (other : Json) : nullish (some v) other = v := by
  rw [nullish, coalesce_of_ne_null h]
  rfl

/-- Arguments that are no text are taken as they are. -/
theorem argumentsOf_of_not_text {args : Option Json} (h : ∀ s, args ≠ some (.str s)) :
    argumentsOf args = args := by
  match args with
  | none | some .null | some (.bool _) | some (.num _) | some (.arr _) | some (.obj _) => rfl
  | some (.str s) => exact absurd rfl (h s)

/-- The text of a slot, where nothing is held whole. -/
theorem streamArgs_of_text {o : Opened} {shape : Shape} (h : heldArgs o.whole shape = none) :
    streamArgs o shape = argumentsOf (some (.str o.text)) := by
  rw [streamArgs, h]
  by_cases htext : o.text = []
  · show (if o.text = [] then _ else _) = _
    rw [if_pos htext, htext]
    rfl
  · show (if o.text = [] then _ else _) = _
    rw [if_neg htext]

/-- The arguments agree in the Chat format exactly if they fit it. -/
theorem args_agree_chat {o : Opened} {args : Option Json} (h : Written o args .chat) :
    streamArgs o .chat = argumentsOf args ↔ Fits args .chat := by
  rw [streamArgs_of_text rfl]
  rcases h with ⟨-, rfl⟩ | ⟨htext, -, hargs⟩
  · exact ⟨fun _ => .inl ⟨_, rfl⟩, fun _ => rfl⟩
  · rw [htext, argumentsOf_of_not_text hargs]
    constructor
    · intro heq
      exact .inr heq.symm
    · rintro (⟨s, hs⟩ | hs)
      · exact absurd hs (hargs s)
      · exact hs.symm

/-- The arguments agree in the Responses format exactly if they fit it. -/
theorem args_agree_responses {o : Opened} {args : Option Json} (h : Written o args .responses) :
    streamArgs o .responses = argumentsOf args ↔ Fits args .responses := by
  obtain ⟨htext, rfl⟩ := h
  rw [streamArgs, htext]
  show coalesce (argumentsOf o.whole) (some (.obj [])) = argumentsOf o.whole ↔ _
  match o.whole with
  | none => exact ⟨fun h => (nomatch h), fun h => absurd rfl h.1⟩
  | some .null => exact ⟨fun h => (nomatch h), fun h => absurd rfl h.2⟩
  | some (.str s) =>
      refine ⟨fun _ => ⟨Option.some_ne_none _, fun h => (nomatch h)⟩, fun _ => ?_⟩
      exact coalesce_of_ne_null (fun h => argumentsOf_text_ne_null s (congrArg some h)) _
  | some (.bool _) | some (.num _) | some (.arr _) | some (.obj _) =>
      exact ⟨fun _ => ⟨Option.some_ne_none _, fun h => (nomatch h)⟩, fun _ => rfl⟩

/-- The arguments agree in the Messages format exactly if they fit it. -/
theorem args_agree_anthropic {o : Opened} {args : Option Json} (h : Written o args .anthropic) :
    streamArgs o .anthropic = some (nullish args (.obj [])) ↔ Fits args .anthropic := by
  rcases h with ⟨hwhole, htold⟩ | ⟨htext, hwhole, m, members, rfl⟩
  · have hheld : heldArgs o.whole .anthropic = none := by
      rcases hwhole with h | h
      · rw [h]; rfl
      · rw [h]; rfl
    rw [streamArgs_of_text hheld]
    rcases htold with ⟨htext, hargs⟩ | ⟨v, rfl, hparse⟩
    · rw [htext]
      rcases hargs with rfl | rfl
      · exact ⟨fun _ h => (nomatch h), fun _ => rfl⟩
      · exact ⟨fun _ h => (nomatch h), fun _ => rfl⟩
    · have hne : o.text ≠ [] := by
        intro h
        rw [h] at hparse
        cases hparse
      show some (if o.text = [] then .obj [] else nullish (jsonParse o.text) (.str o.text)) = _ ↔ _
      rw [if_neg hne, hparse]
      by_cases hv : v = .null
      · subst hv
        exact ⟨fun h => (nomatch h), fun h => absurd rfl h⟩
      · rw [nullish_of_ne_null hv, nullish_of_ne_null hv]
        exact ⟨fun _ h => hv (Option.some.inj h), fun _ => rfl⟩
  · rw [streamArgs, ← hwhole]
    exact ⟨fun _ h => (nomatch h), fun _ => rfl⟩

/-- **When the arguments agree.** -/
theorem args_agree_iff {shape : Shape} {o : Opened} {args : Option Json} (h : Written o args shape) :
    streamArgs o shape = bodyArgs args shape ↔ Fits args shape := by
  cases shape with
  | chat => exact args_agree_chat h
  | legacy => exact args_agree_chat h
  | responses => exact args_agree_responses h
  | anthropic => exact args_agree_anthropic h
  | gemini =>
      obtain ⟨htext, rfl⟩ := h
      rw [streamArgs, htext]
      exact ⟨fun _ => trivial, fun _ => coalesce_some _ _⟩

/-- The calls that are requests of a function. -/
def Call.named (call : Call) : Bool := (callName call.name).isSome

/-- **When as many requests, taken from the front, agree.** -/
theorem take_requests_iff {shape : Shape} {told : List Opened} {calls : List Call}
    (h : List.Forall₂ (fun o call => o.name = call.name ∧ Written o call.args shape) told calls)
    (n : ℕ) :
    (told.filterMap (streamRequest shape)).take n = (calls.filterMap (bodyRequest shape)).take n ↔
      ∀ call ∈ (calls.filter Call.named).take n, Fits call.args shape := by
  induction h generalizing n with
  | nil => simp
  | @cons o call told calls hcall _ ih =>
      obtain ⟨hname, hwritten⟩ := hcall
      have hstream : streamRequest shape o =
          (callName call.name).map fun name => ⟨name, streamArgs o shape⟩ := by
        rw [← hname]
        rfl
      rw [List.filterMap_cons, List.filterMap_cons, List.filter_cons, hstream, bodyRequest, Call.named]
      cases callName call.name with
      | none => exact ih n
      | some name =>
          cases n with
          | zero => simp
          | succ n =>
              show (⟨name, streamArgs o shape⟩ :: (told.filterMap (streamRequest shape)).take n :
                  List ToolRequest) =
                ⟨name, bodyArgs call.args shape⟩ :: (calls.filterMap (bodyRequest shape)).take n ↔
                  ∀ c ∈ call :: (calls.filter Call.named).take n, Fits c.args shape
              rw [List.cons_eq_cons, ih n, List.forall_mem_cons, ToolRequest.mk.injEq,
                args_agree_iff hwritten]
              exact and_congr_left' (and_iff_right rfl)

/-- Slots have keys of their own. -/
theorem distinct_slotKey {shape : Shape} {body : Record} {calls : List Call} (h : BodyOf shape body calls)
    {key : ℕ → JsString} (hkey : Distinct key calls.length) :
    Distinct (slotKey key shape) calls.length := by
  cases shape with
  | chat | responses | anthropic =>
      exact fun i j hi hj heq => hkey i j hi hj (List.append_cancel_left heq)
  | gemini => exact hkey
  | legacy =>
      cases h with
      | legacy =>
          intro i j hi hj _
          rw [List.length_singleton] at hi hj
          rw [Nat.lt_one_iff.mp hi, Nat.lt_one_iff.mp hj]

/-- The requests of a body. -/
theorem toolRequestsOf_body {shape : Shape} {body : JsString} {told : Record} {calls : List Call}
    (hparse : jsonParse body = some (.obj told)) (hbody : BodyOf shape told calls) :
    toolRequestsOf body false =
      some ((calls.filterMap (bodyRequest shape)).take MAX_TOOL_REQUESTS) := by
  rw [toolRequestsOf, hparse]
  show some ((fromBody (.obj told)).take MAX_TOOL_REQUESTS) = _
  rw [fromBody, fromRecord_of_body hbody]

/-- **A stream and a body request the same tools** exactly when the arguments of every request
    recorded are of the kind that is read alike. -/
theorem toolRequestsOf_agree_iff {shape : Shape} {body stream : JsString} {told : Record}
    {calls : List Call} (hparse : jsonParse body = some (.obj told)) (hbody : BodyOf shape told calls)
    (hstream : StreamOf shape stream calls) :
    toolRequestsOf stream true = toolRequestsOf body false ↔
      ∀ call ∈ (calls.filter Call.named).take MAX_TOOL_REQUESTS, Fits call.args shape := by
  obtain ⟨events, pieces, opened, key, hlines, hevents, hdelivery, hcalls, hkey⟩ := hstream
  have hread : fromStream stream = some (opened.filterMap (streamRequest shape)) :=
    fromStream_of_events hlines hevents hdelivery (distinct_slotKey hbody hkey) (Nat.le_of_eq hcalls.length_eq)
  rw [toolRequestsOf_body hparse hbody, ← take_requests_iff hcalls]
  show (fromStream stream).map (List.take MAX_TOOL_REQUESTS) = _ ↔ _
  rw [hread, Option.map_some, Option.some.injEq]

-- ── Streams as they are written ──────────────────────────────────────────────────

/-- Events, each on a line of its own with an empty one after it. -/
def sse (events : List Record) : JsString :=
  events.flatMap fun event => js "data:" ++ (0x20 :: (stringify (.obj event) ++ [0x0A, 0x0A]))

/-- An object is written between braces. -/
theorem stringify_braces (event : Record) :
    ∃ inside, stringify (.obj event) = 0x7B :: (inside ++ [0x7D]) := by
  cases event with
  | nil => exact ⟨[], by decide⟩
  | cons m ms =>
      obtain ⟨k, v⟩ := m
      exact ⟨_, rfl⟩

/-- An empty line tells nothing. -/
theorem lineOf_nil : LineOf [] none :=
  .other fun _ _ h => absurd (List.append_eq_nil_iff.mp h.symm).1 (by decide)

/-- A line that is written has no end of a line in it. -/
theorem ends_of_data (event : Record) :
    ∀ u ∈ js "data:" ++ 0x20 :: stringify (.obj event), u ≠ 0x0A ∧ u ≠ 0x0D := by
  intro u hu
  have hprintable : 0x20 ≤ u.toNat := by
    rcases List.mem_append.mp hu with h | h
    · exact (show ∀ u ∈ js "data:", 0x20 ≤ u.toNat by decide) u h
    · rcases List.mem_cons.mp h with rfl | h
      · decide
      · exact control_property.stringifyAt _ 0 u h
  constructor
  · rintro rfl
    exact absurd hprintable (by decide)
  · rintro rfl
    exact absurd hprintable (by decide)

/-- **Events written as JSON are read as they are.** -/
theorem linesOf_sse {events : List Record} (h : ∀ event ∈ events, Regular (.obj event)) :
    LinesOf (sse events) events := by
  induction events with
  | nil => exact .last (fun u hu => absurd hu List.not_mem_nil) lineOf_nil
  | cons event events ih =>
      obtain ⟨hevent, hrest⟩ := List.forall_mem_cons.mp h
      obtain ⟨inside, htext⟩ := stringify_braces event
      have hline : LineOf (js "data:" ++ 0x20 :: stringify (.obj event)) (some event) := by
        have hdata : LineOf (js "data:" ++ ([0x20] ++ 0x7B :: (inside ++ 0x7D :: []))) (some event) :=
          .event (by simp) (by simp) (by rw [← htext]; exact jsonParse_stringify hevent)
        rw [htext]
        exact hdata
      have hsse : sse (event :: events) = (js "data:" ++ 0x20 :: stringify (.obj event)) ++
          ([0x0A] ++ ([] ++ ([0x0A] ++ sse events))) := by
        rw [sse, List.flatMap_cons]
        simp [sse]
      rw [hsse]
      exact .line (ends_of_data event) hline (.inl rfl)
        (.line (fun u hu => absurd hu List.not_mem_nil) lineOf_nil (.inl rfl) (ih hrest))

-- ── A block and its fragments ────────────────────────────────────────────────────

/-- The number of the first block. -/
def firstIndex : Json := .num (.fin ((0 : ℕ) : ℚ) (isDouble_natCast (Nat.zero_le _)))

/-- A call of the tool `now` opens. -/
def blockStart : Record :=
  [(js "type", .str (js "content_block_start")), (js "index", firstIndex),
    (js "content_block", .obj [(js "type", .str (js "tool_use")), (js "name", .str (js "now")),
      (js "input", .obj [])])]

/-- An event with a piece of the input. -/
def blockDelta (json : JsString) : Record :=
  [(js "type", .str (js "content_block_delta")), (js "index", firstIndex),
    (js "delta", .obj [(js "type", .str (js "input_json_delta")), (js "partial_json", .str json)])]

/-- A call's events: its start, then the pieces. -/
def blockEvents (fragments : List JsString) : List Record := blockStart :: fragments.map blockDelta

/-- A body with one call of the tool `now`. -/
def blockBody (input : Json) : Record :=
  [(js "content", .arr [.obj [(js "type", .str (js "tool_use")), (js "name", .str (js "now")),
    (js "input", input)]])]

/-- The body is regular JSON. -/
theorem regular_blockBody {input : Json} (h : Regular input) : Regular (.obj (blockBody input)) := by
  refine .obj _ (fun m hm => ?_) (show [js "content"].Nodup by decide)
  obtain rfl := List.mem_singleton.mp hm
  refine .arr _ fun v hv => ?_
  obtain rfl := List.mem_singleton.mp hv
  refine .obj _ (fun m hm => ?_) (show [js "type", js "name", js "input"].Nodup by decide)
  simp only [List.mem_cons, List.not_mem_nil, or_false] at hm
  rcases hm with rfl | rfl | rfl
  · exact .str _
  · exact .str _
  · exact h

/-- So is the start. -/
theorem regular_blockStart : Regular (.obj blockStart) := by
  refine .obj _ (fun m hm => ?_) (show [js "type", js "index", js "content_block"].Nodup by decide)
  simp only [blockStart, List.mem_cons, List.not_mem_nil, or_false] at hm
  rcases hm with rfl | rfl | rfl
  · exact .str _
  · exact .nat 0 _
  · refine .obj _ (fun m hm => ?_) (show [js "type", js "name", js "input"].Nodup by decide)
    simp only [List.mem_cons, List.not_mem_nil, or_false] at hm
    rcases hm with rfl | rfl | rfl
    · exact .str _
    · exact .str _
    · exact .obj [] (by simp) List.nodup_nil

/-- So is a piece. -/
theorem regular_blockDelta (json : JsString) : Regular (.obj (blockDelta json)) := by
  refine .obj _ (fun m hm => ?_) (show [js "type", js "index", js "delta"].Nodup by decide)
  simp only [blockDelta, List.mem_cons, List.not_mem_nil, or_false] at hm
  rcases hm with rfl | rfl | rfl
  · exact .str _
  · exact .nat 0 _
  · refine .obj _ (fun m hm => ?_) (show [js "type", js "partial_json"].Nodup by decide)
    simp only [List.mem_cons, List.not_mem_nil, or_false] at hm
    rcases hm with rfl | rfl
    · exact .str _
    · exact .str _

/-- So is each event. -/
theorem regular_blockEvents (fragments : List JsString) :
    ∀ event ∈ blockEvents fragments, Regular (.obj event) := by
  intro event hevent
  rcases List.mem_cons.mp hevent with rfl | hmem
  · exact regular_blockStart
  · obtain ⟨json, -, rfl⟩ := List.mem_map.mp hmem
    exact regular_blockDelta json

/-- An event without two names. -/
theorem lacks_pair {told : Record} {a b : String} (ha : told.lookup (js a) = none)
    (hb : told.lookup (js b) = none) : Lacks told [a, b] :=
  List.forall_mem_cons.mpr ⟨ha, List.forall_mem_singleton.mpr hb⟩

/-- The body makes the one call. -/
theorem bodyOf_blockBody (input : Json) :
    BodyOf .anthropic (blockBody input) [⟨some (js "now"), some input⟩] :=
  .anthropic (List.forall_mem_cons.mpr ⟨rfl, lacks_pair rfl rfl⟩) (.inl rfl)
    (.call ⟨_, rfl, rfl, js "now", rfl, rfl, rfl⟩ .nil)

/-- Fragments of one block, one after the other. -/
theorem delivery_of_fragments (name : Option JsString) (whole : Option Json) (fragments : List JsString)
    (text : JsString) :
    Delivery [⟨name, whole, text⟩] (fragments.map (Piece.continues 0))
      [⟨name, whole, text ++ fragments.flatten⟩] := by
  induction fragments generalizing text with
  | nil =>
      rw [List.flatten_nil, List.append_nil]
      exact .done
  | cons fragment fragments ih =>
      rw [List.flatten_cons, ← List.append_assoc]
      exact .continues rfl (ih (text ++ fragment))

/-- What marks the pieces of the one block. -/
def blockKey (_ : ℕ) : JsString :=
  numberToString (.fin ((0 : ℕ) : ℚ) (isDouble_natCast (Nat.zero_le _)))

/-- The start opens it. -/
theorem blockStart_tells : AnthropicEvent blockKey blockStart
    [.opens 0 (some (js "now")) (some (.obj [])) []] :=
  @AnthropicEvent.start _ blockStart _ 0 (js "now") (lacks_pair rfl rfl) rfl rfl rfl rfl rfl

/-- A piece continues it. -/
theorem blockDelta_tells (json : JsString) :
    AnthropicEvent blockKey (blockDelta json) [.continues 0 json] :=
  @AnthropicEvent.delta _ (blockDelta json) _ 0 json (lacks_pair rfl rfl) rfl rfl rfl rfl rfl

/-- The pieces of the events of a block. -/
def blockPieces (fragments : List JsString) : List (List Piece) :=
  [.opens 0 (some (js "now")) (some (.obj [])) []] :: fragments.map fun json => [.continues 0 json]

/-- The events tell the pieces. -/
theorem blockEvents_tell (fragments : List JsString) :
    List.Forall₂ (EventOf blockKey .anthropic) (blockEvents fragments) (blockPieces fragments) := by
  refine .cons blockStart_tells ?_
  rw [List.forall₂_map_left_iff, List.forall₂_map_right_iff]
  exact List.forall₂_same.mpr fun json _ => blockDelta_tells json

/-- The pieces deliver the call. -/
theorem blockPieces_deliver (fragments : List JsString) :
    Delivery [] (blockPieces fragments).flatten
      [⟨some (js "now"), some (.obj []), fragments.flatten⟩] := by
  rw [blockPieces, List.flatten_cons, ← List.flatMap_def, ← List.map_eq_flatMap]
  exact .opens (delivery_of_fragments _ _ fragments [])

/-- A single call is told apart under any key. -/
theorem distinct_one (key : ℕ → JsString) : Distinct key 1 := by
  intro i j hi hj _
  rw [Nat.lt_one_iff.mp hi, Nat.lt_one_iff.mp hj]

/-- **A block told in any fragments of a JSON text of its input is a stream of it.** -/
theorem streamOf_blockEvents {fragments : List JsString} {input : Json}
    (h : jsonParse fragments.flatten = some input) :
    StreamOf .anthropic (sse (blockEvents fragments)) [⟨some (js "now"), some input⟩] :=
  ⟨blockEvents fragments, blockPieces fragments, _, blockKey,
    linesOf_sse (regular_blockEvents fragments), blockEvents_tell fragments,
    blockPieces_deliver fragments, .cons ⟨rfl, .inl ⟨.inr rfl, .inr ⟨input, rfl, h⟩⟩⟩ .nil,
    distinct_one blockKey⟩

/-- A stream whose one fragment is the text `null` requests the tool with that text. -/
theorem toolRequestsOf_sse_null : toolRequestsOf (sse (blockEvents [js "null"])) true =
    some [⟨js "now", some (.str (js "null"))⟩] := by
  show (fromStream (sse (blockEvents [js "null"]))).map (List.take MAX_TOOL_REQUESTS) = _
  rw [fromStream_of_events (linesOf_sse (regular_blockEvents _)) (blockEvents_tell _)
    (blockPieces_deliver _) (distinct_one _) (Nat.le_refl 1)]
  rfl

/-- **An input of `null`**: the body has the empty object, the stream the text `null`. -/
theorem toolRequestsOf_null : jsonParse (stringify (.obj (blockBody .null))) = some (.obj (blockBody .null)) ∧
    BodyOf .anthropic (blockBody .null) [⟨some (js "now"), some .null⟩] ∧
    StreamOf .anthropic (sse (blockEvents [js "null"])) [⟨some (js "now"), some .null⟩] ∧
    toolRequestsOf (stringify (.obj (blockBody .null))) false = some [⟨js "now", some (.obj [])⟩] ∧
    toolRequestsOf (sse (blockEvents [js "null"])) true ≠
      toolRequestsOf (stringify (.obj (blockBody .null))) false := by
  have hparse := jsonParse_stringify (regular_blockBody .null)
  have hbody := toolRequestsOf_body hparse (bodyOf_blockBody .null)
  refine ⟨hparse, bodyOf_blockBody .null, streamOf_blockEvents (by rfl), hbody, ?_⟩
  rw [toolRequestsOf_sse_null, hbody]
  intro h
  injection h with hlist
  injection hlist with hrequest
  injection hrequest with _ hargs
  cases hargs

/-- A list told in two fragments, and in a body. -/
theorem toolRequestsOf_agree_list :
    BodyOf .anthropic (blockBody (.arr [])) [⟨some (js "now"), some (.arr [])⟩] ∧
    StreamOf .anthropic (sse (blockEvents [js "[", js "]"])) [⟨some (js "now"), some (.arr [])⟩] ∧
    toolRequestsOf (sse (blockEvents [js "[", js "]"])) true =
      toolRequestsOf (stringify (.obj (blockBody (.arr [])))) false := by
  have hstream : StreamOf .anthropic (sse (blockEvents [js "[", js "]"]))
      [⟨some (js "now"), some (.arr [])⟩] := streamOf_blockEvents (by rfl)
  refine ⟨bodyOf_blockBody (.arr []), hstream,
    (toolRequestsOf_agree_iff (jsonParse_stringify (regular_blockBody (.arr [] (by simp))))
      (bodyOf_blockBody (.arr [])) hstream).mpr ?_⟩
  intro call hcall
  rw [List.mem_singleton.mp hcall]
  exact fun h => (nomatch h)

end ToolRequests

end Sigillo
