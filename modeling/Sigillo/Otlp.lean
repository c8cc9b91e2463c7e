import Sigillo.EcmaText
import Sigillo.HexBase64
import Sigillo.AssocList

/-!
# Trace exports, as the server reads them

An OTLP/HTTP export comes as JSON or as protobuf, and either way as one JavaScript value: what
`JSON.parse` gives, or what protobufjs makes of a decoded message. `normalizeExportRequest` reads
both into a flat list of spans. -/

namespace Otlp

open DoubleArith Utf16Text JsonText JsonParse HexBase64 EcmaText

-- ── Values ───────────────────────────────────────────────────────────────────────

/-- A JavaScript value, as `JSON.parse` or `toObject` gives one. -/
inductive Plain where
  | null
  | bool (b : Bool)
  | num (x : JsNumber)
  | nan
  | str (s : JsString)
  | arr (items : List Plain)
  | obj (members : List (JsString × Plain))

/-- The members of an object, in their order. -/
abbrev Members := List (JsString × Plain)

mutual
/-- A parsed JSON value. -/
def Plain.ofJson : Json → Plain
  | .null => .null
  | .bool b => .bool b
  | .num x => .num x
  | .str s => .str s
  | .arr items => .arr (ofJsonItems items)
  | .obj members => .obj (ofJsonMembers members)

/-- The items of an array. -/
def ofJsonItems : List Json → List Plain
  | [] => []
  | v :: vs => Plain.ofJson v :: ofJsonItems vs

/-- The members of an object. -/
def ofJsonMembers : List (JsString × Json) → Members
  | [] => []
  | (k, v) :: ms => (k, Plain.ofJson v) :: ofJsonMembers ms
end

/-- What an attribute holds. -/
inductive AttributeValue where
  | string (s : JsString)
  | number (x : JsNumber)
  | nan
  | boolean (b : Bool)
  | null
  | array (items : List AttributeValue)

mutual
/-- The value as `JSON.stringify` takes it: NaN is written as null. -/
def AttributeValue.toJson : AttributeValue → Json
  | .string s => .str s
  | .number x => .num x
  | .nan => .null
  | .boolean b => .bool b
  | .null => .null
  | .array items => .arr (toJsonItems items)

/-- The JSON of each value. -/
def toJsonItems : List AttributeValue → List Json
  | [] => []
  | v :: vs => v.toJson :: toJsonItems vs
end

/-- A `Map` from names to values: names come from outside. -/
abbrev AttributeMap := List (JsString × AttributeValue)

/-- How a span ended. -/
inductive SpanStatus where
  | unset | ok | error
deriving DecidableEq

/-- An event of a span that was read. -/
structure OtlpSpanEvent where
  name : JsString
  attributes : AttributeMap

/-- A span, its identifiers in hexadecimal and its times in nanoseconds. -/
structure OtlpSpan where
  traceId : Hex 32
  spanId : Hex 16
  name : JsString
  startUnixNano : ℤ
  endUnixNano : ℤ
  status : SpanStatus
  attributes : AttributeMap
  resource : AttributeMap
  events : List OtlpSpanEvent

/-- What a body is refused with: the decoder's own error, or the `TypeError` of a conversion to
    text that an object forbids. -/
inductive DecodeError where
  | otlp (message : JsString)
  | type
deriving DecidableEq

-- ── Fields ───────────────────────────────────────────────────────────────────────

/-- `asRecord`: an object's members. -/
def asRecord : Plain → Option Members
  | .obj members => some members
  | _ => none

/-- A value that is neither null nor undefined. -/
def nonNull : Option Plain → Option Plain
  | some .null => none
  | v => v

/-- `source[camel] ?? source[snake]`. -/
def field (source : Members) (camel snake : JsString) : Option Plain :=
  match nonNull (source.lookup camel) with
  | some v => some v
  | none => source.lookup snake

/-- `asArray`: an array's items, or none. -/
def asArray : Option Plain → List Plain
  | some (.arr items) => items
  | _ => []

/-- `asText`: a string. -/
def asText : Option Plain → Option JsString
  | some (.str s) => some s
  | _ => none

/-- `asBool`: a boolean. -/
def asBool : Option Plain → Option Bool
  | some (.bool b) => some b
  | _ => none

/-- The value of a `doubleValue`. -/
def asDouble : Option Plain → Option AttributeValue
  | some (.num x) => some (.number x)
  | some .nan => some .nan
  | _ => none

-- ── Identifiers ──────────────────────────────────────────────────────────────────

/-- A character of `/^[0-9a-fA-F]+$/`. -/
def isAnyHexDigit (u : UInt16) : Bool :=
  isHexDigit u || decide (0x41 ≤ u.toNat ∧ u.toNat ≤ 0x46)

/-- `toLowerCase` of a hexadecimal digit. -/
def lowerHexDigit (u : UInt16) : UInt16 :=
  if 0x41 ≤ u.toNat ∧ u.toNat ≤ 0x46 then (u.toNat + 0x20).toUInt16 else u

/-- A digit of either case has its lowercase one. -/
theorem isHexDigit_lowerHexDigit {u : UInt16} (h : isAnyHexDigit u = true) :
    isHexDigit (lowerHexDigit u) = true := by
  rw [lowerHexDigit]
  split_ifs with hupper
  · rw [isHexDigit, toUInt16_toNat (by omega), decide_eq_true_eq]
    omega
  · simpa [isAnyHexDigit, hupper] using h

/-- `Buffer.from(text, "base64")`, which also reads the alphabet of URLs. -/
def bufferFromBase64 (s : JsString) : Bytes :=
  base64Decode (s.map fun u => if u = 0x2D then 0x2B else if u = 0x5F then 0x2F else u)

/-- An identifier, in hexadecimal or in base64; the length tells them apart. -/
def decodeId (value : Option Plain) (bytes : ℕ) (what : JsString) :
    Except DecodeError (Hex (2 * bytes)) :=
  match asText value with
  | none | some [] => .error (.otlp (js "span is missing its " ++ what))
  | some text =>
      if h : text.length = 2 * bytes ∧ text.all isAnyHexDigit = true then
        .ok ⟨text.map lowerHexDigit, by simpa using h.1, fun u hu => by
          obtain ⟨v, hv, rfl⟩ := List.mem_map.mp hu
          exact isHexDigit_lowerHexDigit (List.all_eq_true.mp h.2 v hv)⟩
      else
        let raw := bufferFromBase64 text
        if hlen : raw.length = bytes then .ok ⟨toHex raw, by have := isHex_toHex raw; rwa [hlen] at this⟩
        else .error (.otlp (what ++ js " is " ++ countText raw.length ++ js " bytes, expected "
          ++ countText bytes))

-- ── Attribute values ─────────────────────────────────────────────────────────────

mutual
/-- `String(value)`: an object with a `toString` of its own, which no decoded value can call, has
    no text. -/
def toText : Plain → Except DecodeError JsString
  | .null => .ok (js "null")
  | .bool b => .ok (if b then js "true" else js "false")
  | .num x => .ok (numberToString x)
  | .nan => .ok (js "NaN")
  | .str s => .ok s
  | .arr [] => .ok []
  | .arr (.null :: items) => toTextItems items
  | .arr (v :: items) => do return (← toText v) ++ (← toTextItems items)
  | .obj members =>
      if members.any (fun m => m.1 == js "toString") then .error .type
      else .ok (js "[object Object]")

/-- The items after the first, each after a comma; a null is written as nothing. -/
def toTextItems : List Plain → Except DecodeError JsString
  | [] => .ok []
  | .null :: items => do return 0x2C :: (← toTextItems items)
  | v :: items => do return 0x2C :: (← toText v) ++ (← toTextItems items)
end

/-- `String(key ?? "")`. -/
def keyText (key : Option Plain) : Except DecodeError JsString :=
  match nonNull key with
  | some v => toText v
  | none => .ok []

/-- An integer of 64 bits: a number where a double holds it exactly, else its text. -/
def decodeInteger (text : JsString) : AttributeValue :=
  match stringToNumber text with
  | some x => if isSafeInteger x then .number x else .string text
  | none => .string text

/-- The value of an `intValue`, as text or as a number. -/
def asInteger : Option Plain → Option AttributeValue
  | some (.str s) => some (decodeInteger s)
  | some (.num x) => some (if isSafeInteger x then .number x else .string (numberToString x))
  | some .nan => some (.string (js "NaN"))
  | _ => none

/-- The members of the union that hold one value, in the order they are looked for. -/
def decodeScalar (source : Members) : Option AttributeValue :=
  ((asText (field source (js "stringValue") (js "string_value"))).map .string).or <|
  ((asBool (field source (js "boolValue") (js "bool_value"))).map .boolean).or <|
  (asInteger (field source (js "intValue") (js "int_value"))).or <|
  (asDouble (field source (js "doubleValue") (js "double_value"))).or <|
  (asText (field source (js "bytesValue") (js "bytes_value"))).map .string

/-- The `values` of an `arrayValue` or a `kvlistValue`. -/
def listUnder (source : Members) (camel snake : JsString) : Option (List Plain) :=
  (field source camel snake).bind fun v => (asRecord v).map fun list =>
    asArray (list.lookup (js "values"))

/-- A member is smaller than its object. -/
theorem sizeOf_lookup_lt {source : Members} {k : JsString} {v : Plain}
    (h : source.lookup k = some v) : sizeOf v < sizeOf source := by
  induction source with
  | nil => cases h
  | cons m rest ih =>
      obtain ⟨a, w⟩ := m
      rw [List.lookup_cons] at h
      cases hk : k == a with
      | true =>
          rw [hk] at h
          obtain rfl := Option.some.inj h
          simp only [List.cons.sizeOf_spec, Prod.mk.sizeOf_spec]
          omega
      | false =>
          rw [hk] at h
          have := ih h
          simp only [List.cons.sizeOf_spec]
          omega

/-- What is there and not null. -/
theorem nonNull_eq_some {o : Option Plain} {v : Plain} :
    nonNull o = some v ↔ o = some v ∧ v ≠ .null := by
  unfold nonNull
  split
  · constructor
    · rintro ⟨⟩
    · rintro ⟨h, hne⟩
      exact absurd (Option.some.inj h).symm hne
  · rename_i hnull
    constructor
    · intro h
      exact ⟨h, fun hv => hnull (by rw [h, hv])⟩
    · exact fun h => h.1

/-- A member under either spelling is smaller than its object. -/
theorem sizeOf_field_lt {source : Members} {camel snake : JsString} {v : Plain}
    (h : field source camel snake = some v) : sizeOf v < sizeOf source := by
  rw [field] at h
  cases hcamel : nonNull (source.lookup camel) with
  | none =>
      rw [hcamel] at h
      exact sizeOf_lookup_lt h
  | some w =>
      rw [hcamel] at h
      obtain rfl := Option.some.inj h
      exact sizeOf_lookup_lt (nonNull_eq_some.mp hcamel).1

/-- A member, or null, is no larger than its object. -/
theorem sizeOf_getD_lookup_le (source : Members) (k : JsString) :
    sizeOf ((source.lookup k).getD .null) ≤ sizeOf source := by
  cases h : source.lookup k with
  | none =>
      cases source with
      | nil => simp
      | cons m rest =>
          simp only [Option.getD_none, Plain.null.sizeOf_spec, List.cons.sizeOf_spec]
          omega
  | some v => exact (sizeOf_lookup_lt h).le

/-- A list under either spelling is smaller than its object. -/
theorem sizeOf_listUnder_lt {source : Members} {camel snake : JsString} {items : List Plain}
    (h : listUnder source camel snake = some items) : sizeOf items < sizeOf source := by
  obtain ⟨v, hv, hitems⟩ := Option.bind_eq_some_iff.mp h
  obtain ⟨list, hlist, rfl⟩ := Option.map_eq_some_iff.mp hitems
  have hfield := sizeOf_field_lt hv
  have hrecord : v = .obj list := by
    cases v with
    | obj members => rw [Option.some.inj hlist]
    | _ => cases hlist
  rw [hrecord, Plain.obj.sizeOf_spec] at hfield
  cases hvalues : list.lookup (js "values") with
  | none =>
      have : 1 ≤ sizeOf list := by
        cases list with
        | nil => simp
        | cons m rest =>
            simp only [List.cons.sizeOf_spec]
            omega
      simp only [asArray, List.nil.sizeOf_spec]
      omega
  | some w =>
      have hw := sizeOf_lookup_lt hvalues
      cases w with
      | arr items =>
          simp only [Plain.arr.sizeOf_spec] at hw
          simp only [asArray]
          omega
      | _ =>
          simp only [asArray, List.nil.sizeOf_spec]
          omega

mutual
/-- **`decodeAnyValue`.** -/
def decodeAnyValue (value : Plain) : Except DecodeError AttributeValue :=
  match value with
  | .obj source =>
      match decodeScalar source with
      | some v => .ok v
      | none =>
      match _harray : listUnder source (js "arrayValue") (js "array_value") with
      | some items => (decodeAnyValues items).map .array
      | none =>
      match _hlist : listUnder source (js "kvlistValue") (js "kvlist_value") with
      -- never interpreted, only recorded: kept as text
      | some entries => (decodePairs entries).map fun pairs => .string (stringify (.arr pairs))
      | none => .ok .null
  | _ => .ok .null
termination_by sizeOf value
decreasing_by
  · have := sizeOf_listUnder_lt _harray
    simp only [Plain.obj.sizeOf_spec]
    omega
  · have := sizeOf_listUnder_lt _hlist
    simp only [Plain.obj.sizeOf_spec]
    omega

/-- Each item of an array. -/
def decodeAnyValues (items : List Plain) : Except DecodeError (List AttributeValue) :=
  match items with
  | [] => .ok []
  | v :: vs => do return (← decodeAnyValue v) :: (← decodeAnyValues vs)
termination_by sizeOf items

/-- The entries of a `kvlistValue`, each as `[key, value]`. -/
def decodePairs (entries : List Plain) : Except DecodeError (List Json) :=
  match entries with
  | [] => .ok []
  | .obj pair :: rest => do
      let key ← keyText (pair.lookup (js "key"))
      let value ← decodeAnyValue ((pair.lookup (js "value")).getD .null)
      return .arr [.str key, value.toJson] :: (← decodePairs rest)
  | _ :: rest => do return .arr [.str [], .null] :: (← decodePairs rest)
termination_by sizeOf entries
decreasing_by
  · have := sizeOf_getD_lookup_le pair (js "value")
    simp only [List.cons.sizeOf_spec, Plain.obj.sizeOf_spec]
    omega
  · simp only [List.cons.sizeOf_spec]
    omega
  · simp only [List.cons.sizeOf_spec]
    omega
end

/-- A value that is an object is a scalar, an array, a list of pairs or null, in this order. -/
theorem decodeAnyValue_obj (source : Members) : decodeAnyValue (.obj source) =
    match decodeScalar source with
    | some v => .ok v
    | none =>
      match listUnder source (js "arrayValue") (js "array_value") with
      | some items => (decodeAnyValues items).map .array
      | none =>
        match listUnder source (js "kvlistValue") (js "kvlist_value") with
        | some entries => (decodePairs entries).map fun pairs => .string (stringify (.arr pairs))
        | none => .ok .null := by
  rw [decodeAnyValue]
  cases decodeScalar source with
  | some v => rfl
  | none =>
      cases listUnder source (js "arrayValue") (js "array_value") with
      | some items => rfl
      | none =>
          cases listUnder source (js "kvlistValue") (js "kvlist_value") with
          | some entries => rfl
          | none => rfl

-- ── Spans ────────────────────────────────────────────────────────────────────────

/-- One entry of a list of attributes; none without a key. -/
def decodeAttribute (attributes : AttributeMap) (entry : Plain) : Except DecodeError AttributeMap :=
  match entry with
  | .obj pair =>
      match asText (pair.lookup (js "key")) with
      | none | some [] => .ok attributes
      | some key => do
          return AssocList.set attributes key
            (← decodeAnyValue ((pair.lookup (js "value")).getD .null))
  | _ => .ok attributes

/-- `decodeAttributes`. -/
def decodeAttributes (value : Option Plain) : Except DecodeError AttributeMap :=
  (asArray value).foldlM decodeAttribute []

/-- One entry of a list of events; none without a time. -/
def decodeEvent (entry : Plain) : Except DecodeError (Option OtlpSpanEvent) :=
  match entry with
  | .obj event =>
      match asText (event.lookup (js "name")) with
      | none | some [] => .ok none
      | some name => do
          return some ⟨name, ← decodeAttributes (event.lookup (js "attributes"))⟩
  | _ => .ok none

/-- `decodeEvents`. -/
def decodeEvents (value : Option Plain) : Except DecodeError (List OtlpSpanEvent) := do
  return (← (asArray value).mapM decodeEvent).reduceOption

/-- A time in nanoseconds, as a number or in decimal digits. -/
def decodeUnixNano (value : Option Plain) (what : JsString) : Except DecodeError ℤ :=
  match value with
  | some (.num (.fin q _)) => .ok (q.num.tdiv q.den)
  | some (.str s) =>
      if s ≠ [] ∧ s.all isDigit = true then .ok (digitsValue s)
      else .error (.otlp (js "span has no usable " ++ what))
  | _ => .error (.otlp (js "span has no usable " ++ what))

/-- `decodeStatus`. -/
def decodeStatus (value : Option Plain) : SpanStatus :=
  match value.bind asRecord with
  | none => .unset
  | some status =>
      match status.lookup (js "code") with
      | some (.str s) =>
          if s = js "STATUS_CODE_OK" then .ok
          else if s = js "STATUS_CODE_ERROR" then .error
          else .unset
      | some (.num x) =>
          if x = .ofNat 1 then .ok else if x = .ofNat 2 then .error else .unset
      | _ => .unset

/-- **`decodeSpan`.** -/
def decodeSpan (resource : AttributeMap) (span : Members) : Except DecodeError OtlpSpan := do
  let traceId ← decodeId (field span (js "traceId") (js "trace_id")) 16 (js "trace_id")
  let spanId ← decodeId (field span (js "spanId") (js "span_id")) 8 (js "span_id")
  let startUnixNano ← decodeUnixNano
    (field span (js "startTimeUnixNano") (js "start_time_unix_nano")) (js "start time")
  let endUnixNano ← decodeUnixNano
    (field span (js "endTimeUnixNano") (js "end_time_unix_nano")) (js "end time")
  let attributes ← decodeAttributes (span.lookup (js "attributes"))
  let events ← decodeEvents (span.lookup (js "events"))
  return {
    traceId := traceId
    spanId := spanId
    name := (asText (span.lookup (js "name"))).getD []
    startUnixNano := startUnixNano
    endUnixNano := endUnixNano
    status := decodeStatus (span.lookup (js "status"))
    attributes := attributes
    resource := resource
    events := events }

/-- The spans of one scope. -/
def decodeScopeSpans (resource : AttributeMap) (scopeSpan : Members) :
    Except DecodeError (List OtlpSpan) :=
  ((asArray (scopeSpan.lookup (js "spans"))).filterMap asRecord).mapM (decodeSpan resource)

/-- The spans of one resource. -/
def decodeResourceSpans (resourceSpan : Members) : Except DecodeError (List OtlpSpan) := do
  let resource ← decodeAttributes
    (((resourceSpan.lookup (js "resource")).bind asRecord).bind fun r => r.lookup (js "attributes"))
  let scopes ← ((asArray (field resourceSpan (js "scopeSpans") (js "scope_spans"))).filterMap
    asRecord).mapM (decodeScopeSpans resource)
  return scopes.flatten

/-- **`normalizeExportRequest`.** -/
def normalizeExportRequest (value : Plain) : Except DecodeError (List OtlpSpan) :=
  match asRecord value with
  | none => .error (.otlp (js "an OTLP trace export " ++ js "must be an object"))
  | some request =>
      match field request (js "resourceSpans") (js "resource_spans") with
      | none => .error (.otlp (js "an OTLP trace export " ++ js "must carry resourceSpans"))
      | some resourceSpans => do
          return (← ((asArray (some resourceSpans)).filterMap asRecord).mapM
            decodeResourceSpans).flatten

/-- `decodeJsonTraces`. -/
def decodeJsonTraces (body : Json) : Except DecodeError (List OtlpSpan) :=
  normalizeExportRequest (.ofJson body)

end Otlp
