import Sigillo.ToolAnswers

/-!
# What is read out of a body and of a stream

* **`fromRecord_of_body`** — the requests of a body, call by call;
* **`Delivery.slots`** — the slots hold, in their order, what has been told of each call;
* **`readEvent_of_event`** — one event, whatever its shape;
* **`fromStream_of_events`** — the requests of a stream, call by call. -/

namespace Sigillo

open DoubleArith Utf16Text JsonText JsonParse EcmaText AssocList

namespace ToolRequests

-- ── Values ───────────────────────────────────────────────────────────────────────

/-- A list is its items. -/
theorem asArray_of_isList {value : Option Json} {items : List Json} (h : IsList value items) :
    asArray value = items := by
  rcases h with rfl | ⟨rfl, rfl | rfl⟩
  · rfl
  · rfl
  · rfl

/-- An object is its members. -/
theorem asObject_obj (members : Record) : asObject (some (.obj members)) = some members := rfl

/-- Null is no object. -/
theorem asObject_of_isNull {value : Option Json} (h : IsNull value) : asObject value = none := by
  rcases h with rfl | rfl
  · rfl
  · rfl

/-- A text is itself. -/
theorem isText_self (text : String) : isText (some (.str (js text))) text = true :=
  beq_self_eq_true (js text)

/-- What is not the text is not taken for it. -/
theorem isText_eq_false {value : Option Json} {text : String}
    (h : value ≠ some (.str (js text))) : isText value text = false := by
  match value with
  | none | some .null | some (.bool _) | some (.num _) | some (.arr _) | some (.obj _) => rfl
  | some (.str s) => exact beq_false_of_ne fun heq => h (by rw [heq])

/-- One text is not taken for another. -/
theorem isText_of_isText {value : Option Json} {a b : String} (h : value = some (.str (js a)))
    (hne : js a ≠ js b) : isText value b = false :=
  isText_eq_false (by rw [h]; exact fun heq => hne (Json.str.inj (Option.some.inj heq)))

/-- The name of a request: there is none where it is empty. -/
def callName (name : Option JsString) : Option JsString := name.bind fun s => asName (some (.str s))

-- ── A body ───────────────────────────────────────────────────────────────────────

/-- The arguments a body yields. -/
def bodyArgs (args : Option Json) : Shape → Option Json
  | .chat | .legacy | .responses => argumentsOf args
  | .anthropic | .gemini => some (nullish args (.obj []))

/-- The request a body yields for a call. -/
def bodyRequest (shape : Shape) (call : Call) : Option ToolRequest :=
  (callName call.name).map fun name => ⟨name, bodyArgs call.args shape⟩

/-- A function's call is read as its request. -/
theorem fromFunction_of_holds {fn : Record} {call : Call} (h : Holds "arguments" fn call) :
    fromFunction (some (.obj fn)) = bodyRequest .chat call := by
  obtain ⟨name, hname, htold, hargs⟩ := h
  show ((asName (fn.lookup (js "name"))).bind fun name =>
    some (ToolRequest.mk name (argumentsOf (fn.lookup (js "arguments"))))) = _
  rw [htold, hargs, bodyRequest, hname]
  exact (Option.map_eq_bind ..).symm

/-- What is read out of a list with other things in it. -/
theorem Listed.filterMap_eq {entry : Json → Call → Prop} {other : Json → Prop} {shape : Shape}
    {items : List Json} {calls : List Call} (h : Listed entry other items calls)
    {f : Json → Option ToolRequest}
    (hentry : ∀ item call, entry item call → f item = bodyRequest shape call)
    (hother : ∀ item, other item → f item = none) :
    items.filterMap f = calls.filterMap (bodyRequest shape) := by
  induction h with
  | nil => rfl
  | call hitem _ ih => rw [List.filterMap_cons, List.filterMap_cons, hentry _ _ hitem, ih]
  | other hitem _ ih => rw [List.filterMap_cons, hother _ hitem, ih]

/-- An item that is a call is read as its request. -/
theorem fromItem_of_entry {item : Json} {call : Call}
    (h : TypedEntry "function_call" "arguments" item call) :
    fromItem item = bodyRequest .responses call := by
  obtain ⟨members, rfl, htype, hcall⟩ := h
  show (if isText (members.lookup (js "type")) "function_call" then _ else none) = _
  rw [htype, isText_self]
  exact fromFunction_of_holds hcall

/-- Another item is none. -/
theorem fromItem_of_other {item : Json} (h : NotTyped "function_call" item) : fromItem item = none := by
  cases item with
  | obj members =>
      show (if isText (members.lookup (js "type")) "function_call" then _ else none) = _
      rw [isText_eq_false (h members rfl)]
      rfl
  | null | bool _ | num _ | str _ | arr _ => rfl

/-- A block that is a call is read as its request. -/
theorem fromBlock_of_entry {item : Json} {call : Call} (h : TypedEntry "tool_use" "input" item call) :
    fromBlock item = bodyRequest .anthropic call := by
  obtain ⟨members, rfl, htype, name, hname, htold, hargs⟩ := h
  show (if isText (members.lookup (js "type")) "tool_use" then
    (asName (members.lookup (js "name"))).bind fun name =>
      some (ToolRequest.mk name (some (nullish (members.lookup (js "input")) (.obj [])))) else none) = _
  rw [htype, isText_self, htold, hargs, bodyRequest, hname]
  exact (Option.map_eq_bind ..).symm

/-- Another block is none. -/
theorem fromBlock_of_other {item : Json} (h : NotTyped "tool_use" item) : fromBlock item = none := by
  cases item with
  | obj members =>
      show (if isText (members.lookup (js "type")) "tool_use" then _ else none) = _
      rw [isText_eq_false (h members rfl)]
      rfl
  | null | bool _ | num _ | str _ | arr _ => rfl

/-- A part that is a call is read as its request. -/
theorem fromPart_of_entry {part : Json} {call : Call} (h : PartEntry part call) :
    fromPart part = bodyRequest .gemini call := by
  obtain ⟨members, fn, rfl, hfn, name, hname, htold, hargs⟩ := h
  show ((asObject (members.lookup (js "functionCall"))).bind fun call =>
    (asName (call.lookup (js "name"))).bind fun name =>
      some (ToolRequest.mk name (some (nullish (call.lookup (js "args")) (.obj []))))) = _
  rw [hfn]
  show ((asName (fn.lookup (js "name"))).bind _) = _
  rw [htold, hargs, bodyRequest, hname]
  exact (Option.map_eq_bind ..).symm

/-- Another part is none. -/
theorem fromPart_of_other {part : Json} (h : OtherPart part) : fromPart part = none := by
  cases part with
  | obj members =>
      show ((asObject (members.lookup (js "functionCall"))).bind _) = _
      rw [h members rfl]
      rfl
  | null | bool _ | num _ | str _ | arr _ => rfl

/-- The calls of a candidate. -/
theorem candidates_of_candidate {told : Record} {calls : List Call} (h : CandidateOf told calls) :
    (asArray (told.lookup (js "candidates"))).flatMap fromCandidate =
      calls.filterMap (bodyRequest .gemini) := by
  cases h with
  | @parts candidate content items _ hcandidates hcontent hparts hcalls =>
      rw [hcandidates, asArray, List.flatMap_singleton]
      rw [fromCandidate, asObject_obj, Option.bind_some, hcontent]
      show (asArray (content.lookup (js "parts"))).filterMap fromPart = _
      rw [asArray_of_isList hparts]
      exact hcalls.filterMap_eq (fun _ _ h => fromPart_of_entry h) (fun _ h => fromPart_of_other h)
  | @empty candidate hcandidates hcontent =>
      rw [hcandidates, asArray, List.flatMap_singleton]
      rw [fromCandidate, asObject_obj, Option.bind_some, hcontent]
      rfl
  | none hcandidates => rw [asArray_of_isList hcandidates]; rfl

/-- The calls of one chat message. -/
theorem fromChoice_message {choice message : Record}
    (hmessage : choice.lookup (js "message") = some (.obj message)) :
    fromChoice (.obj choice) =
      ((asArray (message.lookup (js "tool_calls"))).filterMap fun call =>
        (asObject (some call)).bind fun c => fromFunction (c.lookup (js "function"))) ++
      (fromFunction (message.lookup (js "function_call"))).toList := by
  rw [fromChoice, asObject_obj, Option.bind_some, hmessage]
  rfl

/-- No function, no request. -/
theorem fromFunction_of_isNull {value : Option Json} (h : IsNull value) : fromFunction value = none := by
  rcases h with rfl | rfl
  · rfl
  · rfl

/-- The calls of a message are read as their requests. -/
theorem toolCalls_of_entries {items : List Json} {calls : List Call}
    (h : List.Forall₂ ChatEntry items calls) :
    (items.filterMap fun call =>
      (asObject (some call)).bind fun c => fromFunction (c.lookup (js "function"))) =
        calls.filterMap (bodyRequest .chat) := by
  induction h with
  | nil => rfl
  | @cons item call items calls hitem _ ih =>
      have hhead : ((asObject (some item)).bind fun c => fromFunction (c.lookup (js "function"))) =
          bodyRequest .chat call := by
        obtain ⟨members, rfl, ⟨fn, hfn, hcall⟩ | ⟨hfn, hname⟩⟩ := hitem
        · show fromFunction (members.lookup (js "function")) = _
          rw [hfn]
          exact fromFunction_of_holds hcall
        · show fromFunction (members.lookup (js "function")) = _
          rw [hfn, bodyRequest, hname]
          rfl
      rw [List.filterMap_cons, List.filterMap_cons, hhead, ih]

/-- **What is read out of a body**, call by call. -/
theorem fromRecord_of_body {shape : Shape} {body : Record} {calls : List Call}
    (h : BodyOf shape body calls) : fromRecord body = calls.filterMap (bodyRequest shape) := by
  rw [fromRecord]
  cases h with
  | chat hlacks hchoices hmessage hlegacy hitems hcalls =>
      rw [hlacks "output" (by simp), hlacks "content" (by simp), hlacks "candidates" (by simp), hchoices,
        asArray, List.flatMap_singleton, fromChoice_message hmessage, asArray_of_isList hitems,
        fromFunction_of_isNull hlegacy, toolCalls_of_entries hcalls]
      simp [asArray]
  | @legacy _ _ _ _ call hlacks hchoices hmessage hitems hlegacy hcall =>
      rw [hlacks "output" (by simp), hlacks "content" (by simp), hlacks "candidates" (by simp), hchoices,
        asArray, List.flatMap_singleton, fromChoice_message hmessage, asArray_of_isList hitems, hlegacy,
        fromFunction_of_holds hcall]
      show (bodyRequest .chat call).toList ++ [] ++ [] ++ [] = [call].filterMap (bodyRequest .chat)
      rw [List.append_nil, List.append_nil, List.append_nil, List.filterMap_cons]
      cases bodyRequest .chat call with
      | none => rfl
      | some request => rfl
  | responses hlacks hitems hcalls =>
      rw [hlacks "choices" (by simp), hlacks "content" (by simp), hlacks "candidates" (by simp),
        asArray_of_isList hitems,
        hcalls.filterMap_eq (fun _ _ h => fromItem_of_entry h) (fun _ h => fromItem_of_other h)]
      simp [asArray]
  | anthropic hlacks hitems hcalls =>
      rw [hlacks "choices" (by simp), hlacks "output" (by simp), hlacks "candidates" (by simp),
        asArray_of_isList hitems,
        hcalls.filterMap_eq (fun _ _ h => fromBlock_of_entry h) (fun _ h => fromBlock_of_other h)]
      simp [asArray]
  | gemini hlacks hcandidate =>
      rw [hlacks "choices" (by simp), hlacks "output" (by simp), hlacks "content" (by simp),
        candidates_of_candidate hcandidate]
      rfl

-- ── The slots ────────────────────────────────────────────────────────────────────

/-- The arguments a slot holds whole. -/
def heldArgs (whole : Option Json) : Shape → Option Json
  | .chat | .legacy => none
  | .responses => argumentsOf whole
  | .anthropic => openingInput whole
  | .gemini => whole

/-- No arguments at once. -/
theorem heldArgs_none (shape : Shape) : heldArgs none shape = none := by cases shape <;> rfl

/-- The slot of what has been told of a call. -/
def slotOf (shape : Shape) (o : Opened) : Pending := ⟨callName o.name, o.text, heldArgs o.whole shape⟩

/-- The slots of the calls told, in their order. -/
def slots (shape : Shape) (key : ℕ → JsString) (told : List Opened) : List (JsString × Pending) :=
  numbered key (told.map (slotOf shape))

/-- What a piece does to the slots. -/
def Piece.update (shape : Shape) (key : ℕ → JsString) : Piece → Update
  | .opens n name whole text => ⟨key n, callName name, text, heldArgs whole shape⟩
  | .continues n fragment => ⟨key n, none, fragment, none⟩
  | .finishes n name whole => ⟨key n, callName name, [], heldArgs whole shape⟩

/-- Keys that tell the first `bound` calls apart. -/
def Distinct (key : ℕ → JsString) (bound : ℕ) : Prop :=
  ∀ i j, i < bound → j < bound → key i = key j → i = j

/-- An earlier key is another. -/
theorem Distinct.ne {key : ℕ → JsString} {bound n : ℕ} (h : Distinct key bound) (hn : n < bound) :
    ∀ i < n, key i ≠ key n := by
  intro i hi heq
  exact absurd (h i n (Nat.lt_trans hi hn) hn heq) (Nat.ne_of_lt hi)

section Slots

variable {shape : Shape} {key : ℕ → JsString} {told : List Opened}

/-- A call opens a slot after those of the calls before it. -/
theorem apply_opens {bound : ℕ} (hkey : Distinct key bound) (hlen : told.length < bound)
    (name : Option JsString) (whole : Option Json) (text : JsString) :
    (Piece.update shape key (.opens told.length name whole text)).apply (slots shape key told) =
      slots shape key (told ++ [⟨name, whole, text⟩]) := by
  have hnext : ∀ i < (told.map (slotOf shape)).length, key i ≠ key (told.map (slotOf shape)).length := by
    rw [List.length_map]
    exact hkey.ne hlen
  have hlookup : (slots shape key told).lookup (key told.length) = none := by
    have h := lookup_of_not_mem (numbered_next hnext)
    rwa [List.length_map] at h
  rw [Piece.update, Update.apply]
  show set (slots shape key told) (key told.length)
    ⟨(((slots shape key told).lookup (key told.length)).getD ⟨none, [], none⟩).name.or (callName name),
      (((slots shape key told).lookup (key told.length)).getD ⟨none, [], none⟩).text ++ text,
      (heldArgs whole shape).or
        (((slots shape key told).lookup (key told.length)).getD ⟨none, [], none⟩).args⟩ = _
  rw [hlookup]
  show set (numbered key (told.map (slotOf shape))) (key told.length)
    ⟨callName name, text, (heldArgs whole shape).or none⟩ = _
  have h := set_numbered_next hnext (slotOf shape ⟨name, whole, text⟩)
  rw [List.length_map] at h
  rw [Option.or_none, slots, List.map_append]
  exact h

/-- An update of the slot of a call that is open. -/
theorem apply_slots {bound n : ℕ} (hkey : Distinct key bound) (hbound : told.length ≤ bound)
    {call : Opened} (hn : told[n]? = some call) {u : Update} (hu : u.key = key n) {after : Opened}
    (hafter : (⟨(slotOf shape call).name.or u.name, (slotOf shape call).text ++ u.text,
      u.args.or (slotOf shape call).args⟩ : Pending) = slotOf shape after) :
    u.apply (slots shape key told) = slots shape key (told.set n after) := by
  have hlt : n < bound := Nat.lt_of_lt_of_le (List.getElem?_eq_some_iff.mp hn).1 hbound
  have hslot : (told.map (slotOf shape))[n]? = some (slotOf shape call) := by
    rw [List.getElem?_map, hn]
    rfl
  have hlookup : (slots shape key told).lookup (key n) = some (slotOf shape call) :=
    lookup_numbered hslot (hkey.ne hlt)
  rw [Update.apply, hu, hlookup]
  show set (slots shape key told) (key n) ⟨(slotOf shape call).name.or u.name,
    (slotOf shape call).text ++ u.text, u.args.or (slotOf shape call).args⟩ = _
  rw [hafter, slots, set_numbered hslot (hkey.ne hlt), slots, List.map_set]

/-- Calls that have been told stay told. -/
theorem Delivery.length_le {pieces : List Piece} {final : List Opened}
    (h : Delivery told pieces final) : told.length ≤ final.length := by
  induction h with
  | done => exact Nat.le_refl _
  | opens _ ih =>
      rw [List.length_append] at ih
      exact Nat.le_of_add_right_le ih
  | continues _ _ ih => rwa [List.length_set] at ih
  | finishes _ _ _ ih => rwa [List.length_set] at ih

/-- **The slots hold, in their order, what has been told of each call.** -/
theorem Delivery.slots {pieces : List Piece} {final : List Opened} {bound : ℕ}
    (hkey : Distinct key bound) (h : Delivery told pieces final) (hbound : final.length ≤ bound) :
    (pieces.map (Piece.update shape key)).foldl Update.apply (slots shape key told) =
      ToolRequests.slots shape key final := by
  induction h with
  | done => rfl
  | @opens told final name whole text rest h ih =>
      have hlen := h.length_le
      rw [List.length_append] at hlen
      rw [List.map_cons, List.foldl_cons, apply_opens hkey (Nat.lt_of_lt_of_le hlen hbound)]
      exact ih hbound
  | @continues told final n call fragment rest hn h ih =>
      have hlen := h.length_le
      rw [List.length_set] at hlen
      rw [List.map_cons, List.foldl_cons, apply_slots hkey (Nat.le_trans hlen hbound) hn rfl]
      · exact ih hbound
      · show (⟨(callName call.name).or none, call.text ++ fragment,
          (none : Option Json).or (heldArgs call.whole shape)⟩ : Pending) = _
        rw [Option.or_none, Option.none_or]
        rfl
  | @finishes told final n call whole rest hn hwhole h ih =>
      have hlen := h.length_le
      rw [List.length_set] at hlen
      rw [List.map_cons, List.foldl_cons, apply_slots hkey (Nat.le_trans hlen hbound) hn rfl]
      · exact ih hbound
      · show (⟨(callName call.name).or (callName call.name), call.text ++ [],
          (heldArgs whole shape).or (heldArgs call.whole shape)⟩ : Pending) = _
        rw [Option.or_self, List.append_nil, hwhole, heldArgs_none, Option.or_none]
        rfl

/-- What has been told in the middle of a stream. -/
theorem Delivery.append {a b : List Piece} {final : List Opened} (h : Delivery told (a ++ b) final) :
    ∃ middle, Delivery told a middle ∧ Delivery middle b final := by
  induction a generalizing told with
  | nil => exact ⟨told, .done, h⟩
  | cons piece a ih =>
      cases h with
      | opens h =>
          obtain ⟨middle, ha, hb⟩ := ih h
          exact ⟨middle, .opens ha, hb⟩
      | continues hn h =>
          obtain ⟨middle, ha, hb⟩ := ih h
          exact ⟨middle, .continues hn ha, hb⟩
      | finishes hn hwhole h =>
          obtain ⟨middle, ha, hb⟩ := ih h
          exact ⟨middle, .finishes hn hwhole ha, hb⟩

end Slots

-- ── Events ───────────────────────────────────────────────────────────────────────

/-- The key of the slot of the n-th call. -/
def slotKey (key : ℕ → JsString) : Shape → ℕ → JsString
  | .chat, n => js "chat:" ++ js "0" ++ js ":" ++ key n
  | .legacy, _ => js "chat:" ++ js "0" ++ js ":legacy"
  | .responses, n => js "item:" ++ key n
  | .anthropic, n => js "block:" ++ key n
  | .gemini, n => key n

section Events

variable {event : Record}

/-- The updates of an event, format by format. -/
theorem updatesOf_eq {choices : List (List Update)} {blocks items : List Update}
    (hchoices : (asArray (event.lookup (js "choices"))).mapM choiceUpdates = some choices)
    (hblocks : blockUpdates event = some blocks) (hitems : itemUpdates event = some items) :
    updatesOf event = some (choices.flatten ++ blocks ++ items) := by
  show ((asArray (event.lookup (js "choices"))).mapM choiceUpdates).bind (fun choices =>
    (blockUpdates event).bind fun blocks => (itemUpdates event).bind fun items =>
      some (choices.flatten ++ blocks ++ items)) = _
  rw [hchoices, hblocks, hitems]
  rfl

/-- An event without choices updates nothing by them. -/
theorem choices_of_lacks {names : List String} (h : Lacks event names) (hmem : "choices" ∈ names) :
    (asArray (event.lookup (js "choices"))).mapM choiceUpdates = some [] := by
  rw [h "choices" hmem]
  rfl

/-- An event of another type updates no block. -/
theorem blockUpdates_quiet
    (h : ∀ type ∈ ["content_block_start", "content_block_delta"],
      event.lookup (js "type") ≠ some (.str (js type))) : blockUpdates event = some [] := by
  rw [blockUpdates, isText_eq_false (h _ (by simp)), isText_eq_false (h _ (by simp))]
  rfl

/-- An event of another type updates no item. -/
theorem itemUpdates_quiet
    (h : ∀ type ∈ ["response.output_item.added", "response.output_item.done"],
      event.lookup (js "type") ≠ some (.str (js type))) : itemUpdates event = some [] := by
  rw [itemUpdates, isText_eq_false (h _ (by simp)), isText_eq_false (h _ (by simp))]
  rfl

/-- An event without a type has none of the types. -/
theorem untold_of_lacks {names : List String} (h : Lacks event names) (hmem : "type" ∈ names)
    (types : List String) : ∀ type ∈ types, event.lookup (js "type") ≠ some (.str (js type)) := by
  intro type _ htype
  rw [h "type" hmem] at htype
  cases htype

/-- Another type than those told. -/
theorem untold_of_type {type : String} (h : event.lookup (js "type") = some (.str (js type)))
    {types : List String} (hne : ∀ other ∈ types, js type ≠ js other) :
    ∀ other ∈ types, event.lookup (js "type") ≠ some (.str (js other)) := by
  intro other hother heq
  rw [h] at heq
  exact hne other hother (Json.str.inj (Option.some.inj heq))

-- ── Chat completions ─────────────────────────────────────────────────────────────

/-- What is no text adds nothing. -/
theorem fragment_of_not_text {value : Option Json} (h : ∀ s, value ≠ some (.str s)) :
    fragment value = [] := by
  match value with
  | none | some .null | some (.bool _) | some (.num _) | some (.arr _) | some (.obj _) => rfl
  | some (.str s) => exact absurd rfl (h s)

/-- What a piece of a function does, of a shape whose arguments come as text. -/
theorem functionUpdate_of_piece {shape : Shape} (hshape : ∀ whole, heldArgs whole shape = none)
    (key : ℕ → JsString) {fn : Record} {piece : Piece} (h : FunctionPiece fn piece) :
    functionUpdate (key piece.number) (some (.obj fn)) = piece.update shape key := by
  show Update.mk (key piece.number) (asName (fn.lookup (js "name")))
    (fragment (fn.lookup (js "arguments"))) none = _
  cases piece with
  | opens n name whole text =>
      obtain ⟨⟨s, rfl, hname⟩, ⟨hargs, -⟩ | ⟨hargs, rfl, hwhole⟩⟩ := h
      · rw [hname, hargs, Piece.update, hshape]
        rfl
      · rw [hname, hargs, fragment_of_not_text hwhole, Piece.update, hshape]
        rfl
  | continues n text =>
      obtain ⟨hname, hargs⟩ := h
      have hnone : asName (fn.lookup (js "name")) = none := by
        rcases hname with (h | h) | h
        · rw [h]; rfl
        · rw [h]; rfl
        · rw [h]; rfl
      have htext : fragment (fn.lookup (js "arguments")) = text := by
        rcases hargs with h | ⟨rfl, h | h⟩
        · rw [h]; rfl
        · rw [h]; rfl
        · rw [h]; rfl
      rw [hnone, htext]
      rfl
  | finishes n name whole => exact h.elim

/-- Without a function a piece has neither name nor arguments. -/
theorem functionUpdate_of_none {shape : Shape} (hshape : ∀ whole, heldArgs whole shape = none)
    (key : ℕ → JsString) {piece : Piece} (h : NoFunction piece) :
    functionUpdate (key piece.number) none = piece.update shape key := by
  cases piece with
  | opens n name whole text =>
      obtain ⟨rfl, rfl, rfl⟩ := h
      rw [Piece.update, hshape]
      rfl
  | continues n text =>
      obtain rfl : text = [] := h
      rfl
  | finishes n name whole => exact h.elim

/-- A call in a delta is read as its piece. -/
theorem callUpdate_of_piece {key : ℕ → JsString} {item : Json} {piece : Piece}
    (h : ChatPiece key item piece) :
    callUpdate (js "0") item = some [piece.update .chat (slotKey key .chat)] := by
  obtain ⟨members, rfl, hnumber, htold⟩ := h
  show (numberText members).map (fun number =>
    [functionUpdate (js "chat:" ++ js "0" ++ js ":" ++ number) (members.lookup (js "function"))]) = _
  rw [hnumber, Option.map_some]
  show some [functionUpdate (slotKey key .chat piece.number) (members.lookup (js "function"))] = _
  rcases htold with ⟨fn, hfn, hpiece⟩ | ⟨hfn, hpiece⟩
  · rw [hfn, @functionUpdate_of_piece .chat (fun _ => rfl) (slotKey key .chat) _ _ hpiece]
  · rw [hfn, @functionUpdate_of_none .chat (fun _ => rfl) (slotKey key .chat) _ hpiece]

/-- The calls in a delta are read as their pieces. -/
theorem callUpdates_of_pieces {key : ℕ → JsString} {items : List Json} {pieces : List Piece}
    (h : List.Forall₂ (ChatPiece key) items pieces) :
    items.mapM (callUpdate (js "0")) =
      some (pieces.map fun piece => [piece.update .chat (slotKey key .chat)]) := by
  induction h with
  | nil => rfl
  | cons hitem _ ih =>
      rw [List.mapM_cons, callUpdate_of_piece hitem, ih]
      rfl

/-- What a choice does, once its delta is at hand. -/
theorem choiceUpdates_delta {choice delta : Record}
    (hdelta : choice.lookup (js "delta") = some (.obj delta))
    (hindex : numberText choice = some (js "0")) {calls : List (List Update)}
    (hcalls : (asArray (delta.lookup (js "tool_calls"))).mapM (callUpdate (js "0")) = some calls) :
    choiceUpdates (.obj choice) = some (calls.flatten ++
      if (asObject (delta.lookup (js "function_call"))).isSome then
        [functionUpdate (js "chat:" ++ js "0" ++ js ":legacy") (delta.lookup (js "function_call"))]
      else []) := by
  rw [choiceUpdates, asObject_obj]
  dsimp only
  rw [hdelta]
  show (numberText choice).bind (fun index =>
    ((asArray (delta.lookup (js "tool_calls"))).mapM (callUpdate index)).bind _) = _
  rw [hindex, Option.bind_some, hcalls]
  rfl

/-- A choice with a delta is read as its pieces. -/
theorem delta_of_pieces {key : ℕ → JsString} {choice delta : Record} {pieces : List Piece}
    (hdelta : choice.lookup (js "delta") = some (.obj delta))
    (hindex : numberText choice = some (js "0")) (h : DeltaOf key delta pieces) :
    choiceUpdates (.obj choice) = some (pieces.map (Piece.update .chat (slotKey key .chat))) := by
  obtain ⟨hlegacy, items, hitems, hpieces⟩ := h
  have hcalls := callUpdates_of_pieces hpieces
  rw [← asArray_of_isList hitems] at hcalls
  rw [choiceUpdates_delta hdelta hindex hcalls, asObject_of_isNull hlegacy]
  show some ((pieces.map fun piece => [piece.update .chat (slotKey key .chat)]).flatten ++ []) = _
  rw [List.append_nil, ← List.flatMap_def, ← List.map_eq_flatMap]

/-- A choice with the older delta is read as its pieces. -/
theorem legacy_of_pieces {key : ℕ → JsString} {choice delta : Record} {pieces : List Piece}
    (hdelta : choice.lookup (js "delta") = some (.obj delta))
    (hindex : numberText choice = some (js "0")) (h : LegacyDelta delta pieces) :
    choiceUpdates (.obj choice) = some (pieces.map (Piece.update .legacy (slotKey key .legacy))) := by
  obtain ⟨hitems, hlegacy⟩ := h
  have hcalls : (asArray (delta.lookup (js "tool_calls"))).mapM (callUpdate (js "0")) = some [] := by
    rw [asArray_of_isList hitems]
    rfl
  rw [choiceUpdates_delta hdelta hindex hcalls]
  rcases hlegacy with ⟨hnull, rfl⟩ | ⟨fn, piece, hfn, hpiece, hnumber, rfl⟩
  · rw [asObject_of_isNull hnull]
    rfl
  · rw [hfn]
    have hupdate := @functionUpdate_of_piece .legacy (fun _ => rfl) (slotKey key .legacy) _ _ hpiece
    show some [functionUpdate (slotKey key .legacy piece.number) (some (.obj fn))] = _
    rw [hupdate]
    rfl

/-- What a chunk does. -/
theorem updatesOf_chunk {shape : Shape} {key : ℕ → JsString} {tells : Record → List Piece → Prop}
    (htells : ∀ {choice delta : Record} {pieces : List Piece},
      choice.lookup (js "delta") = some (.obj delta) → numberText choice = some (js "0") →
      tells delta pieces →
        choiceUpdates (.obj choice) = some (pieces.map (Piece.update shape (slotKey key shape))))
    {pieces : List Piece} (h : ChunkOf tells event pieces) :
    updatesOf event = some (pieces.map (Piece.update shape (slotKey key shape))) := by
  cases h with
  | @delta choice delta _ hlacks hchoices hindex hdelta hpieces =>
      have hmap : (asArray (event.lookup (js "choices"))).mapM choiceUpdates =
          some [pieces.map (Piece.update shape (slotKey key shape))] := by
        rw [hchoices, asArray, List.mapM_cons, htells hdelta hindex hpieces]
        rfl
      rw [updatesOf_eq hmap (blockUpdates_quiet (untold_of_lacks hlacks (by simp) _))
        (itemUpdates_quiet (untold_of_lacks hlacks (by simp) _))]
      simp
  | @still choice hlacks hchoices hdelta =>
      have hmap : (asArray (event.lookup (js "choices"))).mapM choiceUpdates = some [[]] := by
        have hone : choiceUpdates (.obj choice) = some [] := by
          rw [choiceUpdates, asObject_obj]
          dsimp only
          rw [hdelta]
          rfl
        rw [hchoices, asArray, List.mapM_cons, hone]
        rfl
      rw [updatesOf_eq hmap (blockUpdates_quiet (untold_of_lacks hlacks (by simp) _))
        (itemUpdates_quiet (untold_of_lacks hlacks (by simp) _))]
      rfl
  | none hlacks hchoices =>
      have hmap : (asArray (event.lookup (js "choices"))).mapM choiceUpdates = some [] := by
        rw [asArray_of_isList hchoices]
        rfl
      rw [updatesOf_eq hmap (blockUpdates_quiet (untold_of_lacks hlacks (by simp) _))
        (itemUpdates_quiet (untold_of_lacks hlacks (by simp) _))]
      rfl

-- ── The other shapes ─────────────────────────────────────────────────────────────

/-- **An event of the Responses format is read as its pieces.** -/
theorem updatesOf_responses {key : ℕ → JsString} {pieces : List Piece} (h : ResponsesEvent key event pieces) :
    updatesOf event = some (pieces.map (Piece.update .responses (slotKey key .responses))) := by
  cases h with
  | @added item n name hlacks htype hitem hcall hkey hname =>
      have hitems : itemUpdates event =
          some [Piece.update .responses (slotKey key .responses) (.opens n (some name) none [])] := by
        rw [itemUpdates, htype, isText_self, isText_of_isText rfl (by decide), hitem]
        show (if isText (item.lookup (js "type")) "function_call" then
          (itemText event item).map fun k =>
            [Update.mk (js "item:" ++ k) (asName (item.lookup (js "name"))) [] none] else some []) = _
        rw [hcall, isText_self, hkey, hname]
        rfl
      rw [updatesOf_eq (choices_of_lacks hlacks (by simp))
        (blockUpdates_quiet (untold_of_type htype (by decide))) hitems]
      rfl
  | @finished item n name hlacks htype hitem hcall hkey hname =>
      have hitems : itemUpdates event = some [Piece.update .responses (slotKey key .responses)
          (.finishes n (some name) (item.lookup (js "arguments")))] := by
        rw [itemUpdates, htype, isText_self, isText_of_isText rfl (by decide), hitem]
        show (if isText (item.lookup (js "type")) "function_call" then
          (itemText event item).map fun k => [Update.mk (js "item:" ++ k)
            (asName (item.lookup (js "name"))) [] (argumentsOf (item.lookup (js "arguments")))]
          else some []) = _
        rw [hcall, isText_self, hkey, hname]
        rfl
      rw [updatesOf_eq (choices_of_lacks hlacks (by simp))
        (blockUpdates_quiet (untold_of_type htype (by decide))) hitems]
      rfl
  | @otherItem item hlacks htype hitem hcall =>
      have hitems : itemUpdates event = some [] := by
        rw [itemUpdates, hitem]
        cases item with
        | obj members =>
            show (if _ then (if isText (members.lookup (js "type")) "function_call" then _ else some [])
              else some []) = _
            rw [isText_eq_false (hcall members rfl)]
            exact ite_self _
        | null | bool _ | num _ | str _ | arr _ => exact ite_self _
      rw [updatesOf_eq (choices_of_lacks hlacks (by simp)) (blockUpdates_quiet htype) hitems]
      rfl
  | other hlacks htype =>
      rw [updatesOf_eq (choices_of_lacks hlacks (by simp))
        (blockUpdates_quiet fun type hmem => htype type (List.mem_append_left _ hmem))
        (itemUpdates_quiet fun type hmem => htype type (.tail _ (.tail _ hmem)))]
      rfl

/-- **An event of the Messages format is read as its pieces.** -/
theorem updatesOf_anthropic {key : ℕ → JsString} {pieces : List Piece} (h : AnthropicEvent key event pieces) :
    updatesOf event = some (pieces.map (Piece.update .anthropic (slotKey key .anthropic))) := by
  cases h with
  | @start block n name hlacks htype hblock hcall hkey hname =>
      have hblocks : blockUpdates event = some [Piece.update .anthropic (slotKey key .anthropic)
          (.opens n (some name) (block.lookup (js "input")) [])] := by
        rw [blockUpdates, htype, isText_self, hblock]
        show (if isText (block.lookup (js "type")) "tool_use" then
          ((optionText (event.lookup (js "index"))).map (js "block:" ++ ·)).map fun k =>
            [Update.mk k (asName (block.lookup (js "name"))) [] (openingInput (block.lookup (js "input")))]
          else some []) = _
        rw [hcall, isText_self, hkey, hname]
        rfl
      rw [updatesOf_eq (choices_of_lacks hlacks (by simp)) hblocks
        (itemUpdates_quiet (untold_of_type htype (by decide)))]
      rfl
  | @delta delta n json hlacks htype hdelta hcall hkey hjson =>
      have hblocks : blockUpdates event =
          some [Piece.update .anthropic (slotKey key .anthropic) (.continues n json)] := by
        rw [blockUpdates, htype, isText_of_isText rfl (by decide), isText_self, hdelta, asObject_obj]
        dsimp only
        rw [hcall, isText_self, hjson, hkey]
        rfl
      rw [updatesOf_eq (choices_of_lacks hlacks (by simp)) hblocks
        (itemUpdates_quiet (untold_of_type htype (by decide)))]
      rfl
  | @otherStart block hlacks htype hblock hcall =>
      have hblocks : blockUpdates event = some [] := by
        rw [blockUpdates, htype, isText_self, hblock]
        cases block with
        | obj members =>
            show (if isText (members.lookup (js "type")) "tool_use" then _ else some []) = _
            rw [isText_eq_false (hcall members rfl)]
            rfl
        | null | bool _ | num _ | str _ | arr _ => rfl
      rw [updatesOf_eq (choices_of_lacks hlacks (by simp)) hblocks
        (itemUpdates_quiet (untold_of_type htype (by decide)))]
      rfl
  | @otherDelta delta hlacks htype hdelta hcall =>
      have hblocks : blockUpdates event = some [] := by
        rw [blockUpdates, htype, isText_of_isText rfl (by decide), isText_self, hdelta]
        cases delta with
        | obj members =>
            rw [asObject_obj]
            dsimp only
            rw [isText_eq_false (hcall members rfl)]
            rfl
        | null | bool _ | num _ | str _ | arr _ => rfl
      rw [updatesOf_eq (choices_of_lacks hlacks (by simp)) hblocks
        (itemUpdates_quiet (untold_of_type htype (by decide)))]
      rfl
  | other hlacks htype =>
      rw [updatesOf_eq (choices_of_lacks hlacks (by simp))
        (blockUpdates_quiet fun type hmem => htype type (List.mem_append_left _ hmem))
        (itemUpdates_quiet fun type hmem => htype type (.tail _ (.tail _ hmem)))]
      rfl

end Events

-- ── Reading a stream ─────────────────────────────────────────────────────────────

/-- The request a stream yields for a call. -/
def streamRequest (shape : Shape) (o : Opened) : Option ToolRequest := (slotOf shape o).request

/-- What the reader has, once some calls have been told. -/
def stateOf (key : ℕ → JsString) (told : List Opened) : Shape → Streamed
  | .gemini => ⟨[], told.filterMap (streamRequest .gemini)⟩
  | shape => ⟨slots shape (slotKey key shape) told, []⟩

/-- An event is read as its updates, one after the other. -/
theorem readEvent_of_updates {event : Record} {updates : List Update}
    (hupdates : updatesOf event = some updates) (hcandidates : event.lookup (js "candidates") = none)
    (pending : List (JsString × Pending)) :
    readEvent ⟨pending, []⟩ event = some ⟨updates.foldl Update.apply pending, []⟩ := by
  rw [readEvent, hupdates, hcandidates]
  rfl

/-- The second is there in case. -/
theorem coalesce_some (value : Option Json) (other : Json) :
    coalesce value (some other) = some (nullish value other) := by
  match value with
  | none | some .null | some (.bool _) | some (.num _) | some (.str _) | some (.arr _)
  | some (.obj _) => rfl

/-- A call told whole yields the same from either side. -/
theorem streamRequest_gemini (call : Call) :
    streamRequest .gemini ⟨call.name, call.args, []⟩ = bodyRequest .gemini call := by
  show (callName call.name).map (fun name => ToolRequest.mk name (coalesce call.args (some (.obj [])))) = _
  rw [coalesce_some]
  rfl

/-- A call that is opened is one more. -/
theorem Delivery.of_opens {told final : List Opened} {n : ℕ} {name : Option JsString}
    {whole : Option Json} {text : JsString} {rest : List Piece}
    (h : Delivery told (.opens n name whole text :: rest) final) :
    Delivery (told ++ [⟨name, whole, text⟩]) rest final := by
  generalize hpieces : Piece.opens n name whole text :: rest = pieces at h
  cases h with
  | done => cases hpieces
  | opens h =>
      injection hpieces with hpiece hrest
      injection hpiece with _ hname hwhole htext
      subst hname hwhole htext hrest
      exact h
  | continues hn h => cases hpieces
  | finishes hn hwhole h => cases hpieces

/-- Calls told whole, one after another. -/
theorem Delivery.of_whole {calls : List Call} {first : ℕ} {told final : List Opened}
    (h : Delivery told
      (calls.mapIdx fun i call => .opens (first + i) call.name call.args []) final) :
    final = told ++ calls.map fun call => ⟨call.name, call.args, []⟩ := by
  induction calls generalizing first told with
  | nil =>
      cases h with
      | done => exact (List.append_nil _).symm
  | cons call calls ih =>
      rw [List.mapIdx_cons] at h
      have hrest := h.of_opens
      have hshift : (fun i (call : Call) => Piece.opens (first + (i + 1)) call.name call.args []) =
          fun i call => .opens (first + 1 + i) call.name call.args [] := by
        funext i call
        rw [Nat.add_assoc, Nat.add_comm 1 i]
      rw [hshift] at hrest
      rw [ih hrest, List.append_assoc]
      rfl

/-- **An event of the Gemini format is read as its pieces.** -/
theorem readEvent_gemini {event : Record} {pieces : List Piece} (h : GeminiEvent event pieces)
    {told final : List Opened} (hdelivery : Delivery told pieces final) :
    readEvent ⟨[], told.filterMap (streamRequest .gemini)⟩ event =
      some ⟨[], final.filterMap (streamRequest .gemini)⟩ := by
  obtain ⟨hlacks, hcandidate⟩ := h
  rename_i calls first
  have hupdates : updatesOf event = some [] := by
    rw [updatesOf_eq (choices_of_lacks hlacks (by simp))
      (blockUpdates_quiet (untold_of_lacks hlacks (by simp) _))
      (itemUpdates_quiet (untold_of_lacks hlacks (by simp) _))]
    rfl
  have hwhole : (if (event.lookup (js "candidates")).isSome then fromRecord event else []) =
      calls.filterMap (bodyRequest .gemini) := by
    have hbody : fromRecord event = calls.filterMap (bodyRequest .gemini) :=
      fromRecord_of_body (.gemini (fun name hname => hlacks name (by
        simp only [List.mem_cons] at hname ⊢
        tauto)) hcandidate)
    have hempty := candidates_of_candidate hcandidate
    rw [hbody]
    cases hlookup : event.lookup (js "candidates") with
    | some v => rfl
    | none =>
        rw [hlookup] at hempty
        exact hempty
  have hcalls : (calls.map fun call => (⟨call.name, call.args, []⟩ : Opened)).filterMap
      (streamRequest .gemini) = calls.filterMap (bodyRequest .gemini) := by
    rw [List.filterMap_map]
    exact List.filterMap_congr fun call _ => streamRequest_gemini call
  rw [readEvent, hupdates, Option.map_some, hwhole, hdelivery.of_whole, List.filterMap_append, hcalls]
  rfl

/-- **What one event does**: the state of the calls told before it becomes that of those told then. -/
theorem readEvent_of_event {shape : Shape} {key : ℕ → JsString} {event : Record} {pieces : List Piece}
    (h : EventOf key shape event pieces) {told final : List Opened} {bound : ℕ}
    (hkey : Distinct (slotKey key shape) bound) (hdelivery : Delivery told pieces final)
    (hbound : final.length ≤ bound) :
    readEvent (stateOf key told shape) event = some (stateOf key final shape) := by
  cases shape with
  | chat =>
      have hlacks : event.lookup (js "candidates") = none := by
        cases h with
        | delta hlacks | still hlacks | none hlacks => exact hlacks _ (by simp)
      show readEvent ⟨slots .chat (slotKey key .chat) told, []⟩ event =
        some ⟨slots .chat (slotKey key .chat) final, []⟩
      rw [readEvent_of_updates (updatesOf_chunk delta_of_pieces h) hlacks, hdelivery.slots hkey hbound]
  | legacy =>
      have hlacks : event.lookup (js "candidates") = none := by
        cases h with
        | delta hlacks | still hlacks | none hlacks => exact hlacks _ (by simp)
      show readEvent ⟨slots .legacy (slotKey key .legacy) told, []⟩ event =
        some ⟨slots .legacy (slotKey key .legacy) final, []⟩
      rw [readEvent_of_updates (updatesOf_chunk legacy_of_pieces h) hlacks, hdelivery.slots hkey hbound]
  | responses =>
      have hlacks : event.lookup (js "candidates") = none := by
        cases h with
        | added hlacks | finished hlacks | otherItem hlacks | other hlacks => exact hlacks _ (by simp)
      show readEvent ⟨slots .responses (slotKey key .responses) told, []⟩ event =
        some ⟨slots .responses (slotKey key .responses) final, []⟩
      rw [readEvent_of_updates (updatesOf_responses h) hlacks, hdelivery.slots hkey hbound]
  | anthropic =>
      have hlacks : event.lookup (js "candidates") = none := by
        cases h with
        | start hlacks | delta hlacks | otherStart hlacks | otherDelta hlacks | other hlacks =>
            exact hlacks _ (by simp)
      show readEvent ⟨slots .anthropic (slotKey key .anthropic) told, []⟩ event =
        some ⟨slots .anthropic (slotKey key .anthropic) final, []⟩
      rw [readEvent_of_updates (updatesOf_anthropic h) hlacks, hdelivery.slots hkey hbound]
  | gemini => exact readEvent_gemini h hdelivery

/-- **What a stream of events does.** -/
theorem readEvents_of_events {shape : Shape} {key : ℕ → JsString} {events : List Record}
    {pieces : List (List Piece)} (h : List.Forall₂ (EventOf key shape) events pieces)
    {told final : List Opened} {bound : ℕ} (hkey : Distinct (slotKey key shape) bound)
    (hdelivery : Delivery told pieces.flatten final) (hbound : final.length ≤ bound) :
    events.foldlM readEvent (stateOf key told shape) = some (stateOf key final shape) := by
  induction h generalizing told with
  | nil =>
      cases hdelivery with
      | done => rfl
  | cons hevent _ ih =>
      rw [List.flatten_cons] at hdelivery
      obtain ⟨middle, hfirst, hrest⟩ := hdelivery.append
      rw [List.foldlM_cons,
        readEvent_of_event hevent hkey hfirst (Nat.le_trans hrest.length_le hbound)]
      exact ih hrest

-- ── Lines ────────────────────────────────────────────────────────────────────────

/-- A line without an end is the last. -/
theorem splitLineEnds_last {line : JsString} (h : ∀ u ∈ line, u ≠ 0x0A ∧ u ≠ 0x0D) :
    splitLineEnds line = [line] := by
  induction line with
  | nil => rfl
  | cons u line ih =>
      obtain ⟨hu, hrest⟩ := List.forall_mem_cons.mp h
      rw [splitLineEnds, if_neg hu.1, if_neg (fun hand => hu.2 hand.1), ih hrest]

/-- **A line ends at its line feed**, with the carriage return before it. -/
theorem splitLineEnds_line {line eol : JsString} (h : ∀ u ∈ line, u ≠ 0x0A ∧ u ≠ 0x0D)
    (heol : eol = [0x0A] ∨ eol = [0x0D, 0x0A]) (rest : JsString) :
    splitLineEnds (line ++ (eol ++ rest)) = line :: splitLineEnds rest := by
  induction line with
  | nil =>
      rcases heol with rfl | rfl
      · rfl
      · rfl
  | cons u line ih =>
      obtain ⟨hu, hrest⟩ := List.forall_mem_cons.mp h
      rw [List.cons_append, splitLineEnds, if_neg hu.1, if_neg (fun hand => hu.2 hand.1), ih hrest]

/-- The blanks before a line go. -/
theorem dropWhile_of_blanks {blanks rest : JsString} (h : ∀ u ∈ blanks, u = 0x20 ∨ u = 0x09)
    {u : UInt16} (hu : isSpace u = false) :
    (blanks ++ u :: rest).dropWhile isSpace = u :: rest := by
  induction blanks with
  | nil => rw [List.nil_append, List.dropWhile_cons_of_neg (by rw [hu]; exact Bool.false_ne_true)]
  | cons b blanks ih =>
      obtain ⟨hb, hrest⟩ := List.forall_mem_cons.mp h
      have hspace : isSpace b = true := by
        rcases hb with rfl | rfl
        · decide
        · decide
      rw [List.cons_append, List.dropWhile_cons_of_pos hspace, ih hrest]

/-- The JSON text of an event, without what is around it. -/
theorem trim_of_blanks {before inside after : JsString} (hbefore : ∀ u ∈ before, u = 0x20 ∨ u = 0x09)
    (hafter : ∀ u ∈ after, u = 0x20 ∨ u = 0x09) :
    trim (before ++ 0x7B :: (inside ++ 0x7D :: after)) = 0x7B :: (inside ++ [0x7D]) := by
  rw [trim, dropWhile_of_blanks hbefore (by decide)]
  have hreverse : (0x7B :: (inside ++ 0x7D :: after)).reverse =
      after.reverse ++ 0x7D :: (inside.reverse ++ [0x7B]) := by
    simp
  rw [hreverse, dropWhile_of_blanks (fun u hu => hafter u (List.mem_reverse.mp hu)) (by decide)]
  simp

/-- A line is read as the event it tells of. -/
theorem eventOf_of_line {line : JsString} {told : Option Record} (h : LineOf line told) :
    eventOf line = told := by
  cases h with
  | event hbefore hafter hparse =>
      rw [eventOf, List.take_left' (by decide), if_pos rfl, List.drop_left' (by decide),
        trim_of_blanks hbefore hafter, hparse]
      rfl
  | other hother =>
      rw [eventOf]
      by_cases hdata : line.take 5 = js "data:"
      · rw [if_pos hdata]
        have hline : line = js "data:" ++ line.drop 5 := by rw [← hdata, List.take_append_drop]
        cases hparse : jsonParse (trim (line.drop 5)) with
        | none => rfl
        | some v =>
            cases v with
            | obj members => exact absurd hparse (hother _ members hline)
            | null | bool _ | num _ | str _ | arr _ => rfl
      · rw [if_neg hdata]

/-- **The events of a stream.** -/
theorem eventsOf_of_lines {stream : JsString} {events : List Record} (h : LinesOf stream events) :
    eventsOf stream = events := by
  rw [eventsOf]
  induction h with
  | @last line told hends h =>
      rw [splitLineEnds_last hends, List.filterMap_cons, eventOf_of_line h]
      cases told with
      | none => rfl
      | some event => rfl
  | @line line eol rest told events hends h heol hrest ih =>
      rw [splitLineEnds_line hends heol, List.filterMap_cons, eventOf_of_line h, ih]
      cases told with
      | none => rfl
      | some event => rfl

-- ── The whole of it ──────────────────────────────────────────────────────────────

/-- **What is read out of a stream**, call by call. -/
theorem fromStream_of_events {shape : Shape} {key : ℕ → JsString} {stream : JsString}
    {events : List Record} {pieces : List (List Piece)} {told : List Opened} {bound : ℕ}
    (hlines : LinesOf stream events) (hevents : List.Forall₂ (EventOf key shape) events pieces)
    (hdelivery : Delivery [] pieces.flatten told) (hkey : Distinct (slotKey key shape) bound)
    (hbound : told.length ≤ bound) : fromStream stream = some (told.filterMap (streamRequest shape)) := by
  have hstart : stateOf key [] shape = ⟨[], []⟩ := by cases shape <;> rfl
  have hrun := readEvents_of_events hevents hkey hdelivery hbound
  rw [hstart] at hrun
  have hslots : ∀ shape : Shape,
      ((slots shape (slotKey key shape) told).filterMap fun slot => slot.2.request) =
        told.filterMap (streamRequest shape) := by
    intro shape
    calc ((slots shape (slotKey key shape) told).filterMap fun slot => slot.2.request)
        = ((slots shape (slotKey key shape) told).map Prod.snd).filterMap Pending.request := by
          rw [List.filterMap_map]
          rfl
      _ = told.filterMap (streamRequest shape) := by
          rw [slots, map_snd_numbered, List.filterMap_map]
          rfl
  rw [fromStream, eventsOf_of_lines hlines, hrun, Option.map_some]
  cases shape with
  | gemini => rfl
  | chat => exact congrArg some ((List.append_nil _).trans (hslots .chat))
  | legacy => exact congrArg some ((List.append_nil _).trans (hslots .legacy))
  | responses => exact congrArg some ((List.append_nil _).trans (hslots .responses))
  | anthropic => exact congrArg some ((List.append_nil _).trans (hslots .anthropic))

end ToolRequests

end Sigillo
