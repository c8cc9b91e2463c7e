import Sigillo.OtlpMessages
import Sigillo.Fallible

/-!
# One request, two encodings

The forms of a request are many: names in camel or snake case, identifiers in hexadecimal or base64,
enumerations by name or number, fields at their default written or left out, members in any order.
The object protobufjs makes is one of them (`Reads`). A form is read as what the request says exactly
where its times are written (**`normalizeExportRequest_form`**, **`timed_of_normalize`**): hence
**`encodings_agree_iff`**. -/

namespace Otlp

open DoubleArith Utf16Text JsonText JsonParse HexBase64 EcmaText Fallible

-- ── Forms ────────────────────────────────────────────────────────────────────────

/-- One of the names of a field is there, with a value. -/
def Carries (ms : Members) (names : List JsString) (v : Plain) : Prop :=
  ∃ n ∈ names, ms.lookup n = some v ∧ ∀ m ∈ names, m ≠ n → ms.lookup m = none

/-- None of the names is there. -/
def LeftOut (ms : Members) (names : List JsString) : Prop := ∀ n ∈ names, ms.lookup n = none

/-- The names of the members of the union of `AnyValue`. -/
def unionNames : List JsString :=
  [js "stringValue", js "string_value", js "boolValue", js "bool_value", js "intValue",
   js "int_value", js "doubleValue", js "double_value", js "bytesValue", js "bytes_value",
   js "arrayValue", js "array_value", js "kvlistValue", js "kvlist_value"]

/-- One member of the union is there, and no other. -/
def Only (ms : Members) (names : List JsString) (v : Plain) : Prop :=
  Carries ms names v ∧ ∀ n ∈ unionNames, n ∉ names → ms.lookup n = none

/-- A list under a name, written or, where it is empty, left out. -/
def Repeated (ms : Members) (names : List JsString) (P : List Plain → Prop) : Prop :=
  (∃ items, Carries ms names (.arr items) ∧ P items) ∨ (LeftOut ms names ∧ P [])

/-- A text under a name, written or, where it is empty, left out. -/
def TextField (ms : Members) (name s : JsString) : Prop :=
  ms.lookup name = some (.str s) ∨ (s = [] ∧ ms.lookup name = none)

mutual
/-- **The forms of a value**: the member of its kind, in either spelling, and none of the others. -/
def AnyValue.Form : AnyValue → Plain → Prop
  | .unset, p => ∃ ms, p = .obj ms ∧ LeftOut ms unionNames
  | .stringValue s, p => ∃ ms, p = .obj ms ∧ Only ms [js "stringValue", js "string_value"] (.str s)
  | .boolValue b, p => ∃ ms, p = .obj ms ∧ Only ms [js "boolValue", js "bool_value"] (.bool b)
  | .intValue n, p =>
      ∃ ms, p = .obj ms ∧ Only ms [js "intValue", js "int_value"] (.str (intText n.toInt))
  | .doubleValue x, p =>
      ∃ ms, p = .obj ms ∧ Only ms [js "doubleValue", js "double_value"] (doubleField x)
  | .bytesValue bytes, p =>
      ∃ ms, p = .obj ms ∧ Only ms [js "bytesValue", js "bytes_value"] (.str (base64Encode bytes))
  | .arrayValue values, p =>
      ∃ ms list, p = .obj ms ∧ Only ms [js "arrayValue", js "array_value"] (.obj list) ∧
        Repeated list [js "values"] (Forms values)
  | .kvlistValue values, p =>
      ∃ ms list, p = .obj ms ∧ Only ms [js "kvlistValue", js "kvlist_value"] (.obj list) ∧
        Repeated list [js "values"] (PairForms values)

/-- The forms of the values of a list, one by one. -/
def Forms : List AnyValue → List Plain → Prop
  | [], items => items = []
  | v :: vs, items => ∃ p ps, items = p :: ps ∧ v.Form p ∧ Forms vs ps

/-- The forms of key-value pairs, one by one. -/
def PairForms : List KeyValue → List Plain → Prop
  | [], items => items = []
  | .mk key none :: rest, items =>
      ∃ ms ps, items = .obj ms :: ps ∧ TextField ms (js "key") key ∧ ms.lookup (js "value") = none ∧
        PairForms rest ps
  | .mk key (some v) :: rest, items =>
      ∃ ms p ps, items = .obj ms :: ps ∧ TextField ms (js "key") key ∧
        ms.lookup (js "value") = some p ∧ v.Form p ∧ PairForms rest ps
end

/-- An identifier in hexadecimal, in either case, or in base64. -/
def IdText (bytes : Bytes) (s : JsString) : Prop :=
  (s.all isAnyHexDigit = true ∧ s.map lowerHexDigit = toHex bytes) ∨ s = base64Encode bytes

/-- An id in base64 under one of the names, or none for no bytes. -/
def IdField (ms : Members) (names : List JsString) (bytes : Bytes) : Prop :=
  (∃ s, Carries ms names (.str s) ∧ IdText bytes s) ∨ (bytes = [] ∧ LeftOut ms names)

/-- A time that is written, as a decimal string. -/
def TimeField (ms : Members) (names : List JsString) : Option UInt64 → Prop
  | some n => Carries ms names (.str (decimal n.toNat))
  | none => LeftOut ms names

/-- A status code as its number or as its name. -/
def StatusCodeForm (code : Int32) (p : Plain) : Prop :=
  p = .num (.ofRat code.toInt) ∨ (code = 0 ∧ p = .str (js "STATUS_CODE_UNSET")) ∨
    (code = 1 ∧ p = .str (js "STATUS_CODE_OK")) ∨ (code = 2 ∧ p = .str (js "STATUS_CODE_ERROR"))

/-- The forms of a status. -/
def Status.Form (s : Status) (p : Plain) : Prop :=
  ∃ ms, p = .obj ms ∧
    ((∃ v, ms.lookup (js "code") = some v ∧ StatusCodeForm s.code v) ∨
      (s.code = 0 ∧ ms.lookup (js "code") = none))

/-- A message under a name, there exactly when it is set. -/
def MessageField {α : Type} (ms : Members) (name : JsString) (Form : α → Plain → Prop) :
    Option α → Prop
  | none => ms.lookup name = none
  | some a => ∃ p, ms.lookup name = some p ∧ Form a p

/-- The forms of an event. -/
def SpanEvent.Form (e : SpanEvent) (p : Plain) : Prop :=
  ∃ ms, p = .obj ms ∧ TextField ms (js "name") e.name ∧
    Repeated ms [js "attributes"] (PairForms e.attributes)

/-- The forms of a span. -/
def Span.Form (s : Span) (p : Plain) : Prop :=
  ∃ ms, p = .obj ms ∧
    IdField ms [js "traceId", js "trace_id"] s.traceId ∧
    IdField ms [js "spanId", js "span_id"] s.spanId ∧
    TextField ms (js "name") s.name ∧
    TimeField ms [js "startTimeUnixNano", js "start_time_unix_nano"] s.startTimeUnixNano ∧
    TimeField ms [js "endTimeUnixNano", js "end_time_unix_nano"] s.endTimeUnixNano ∧
    Repeated ms [js "attributes"] (PairForms s.attributes) ∧
    Repeated ms [js "events"] (List.Forall₂ SpanEvent.Form s.events) ∧
    MessageField ms (js "status") Status.Form s.status

/-- The forms of the spans of one scope. -/
def ScopeSpans.Form (s : ScopeSpans) (p : Plain) : Prop :=
  ∃ ms, p = .obj ms ∧ Repeated ms [js "spans"] (List.Forall₂ Span.Form s.spans)

/-- The forms of a resource. -/
def Resource.Form (r : Resource) (p : Plain) : Prop :=
  ∃ ms, p = .obj ms ∧ Repeated ms [js "attributes"] (PairForms r.attributes)

/-- The forms of the spans of one resource. -/
def ResourceSpans.Form (r : ResourceSpans) (p : Plain) : Prop :=
  ∃ ms, p = .obj ms ∧ MessageField ms (js "resource") Resource.Form r.resource ∧
    Repeated ms [js "scopeSpans", js "scope_spans"] (List.Forall₂ ScopeSpans.Form r.scopeSpans)

/-- The forms of a whole request. -/
def ExportTraceServiceRequest.Form (r : ExportTraceServiceRequest) (p : Plain) : Prop :=
  ∃ ms, p = .obj ms ∧
    Repeated ms [js "resourceSpans", js "resource_spans"]
      (List.Forall₂ ResourceSpans.Form r.resourceSpans)

-- ── Reading a field ──────────────────────────────────────────────────────────────

/-- What either spelling carries is found. -/
theorem Carries.field {ms : Members} {camel snake : JsString} {v : Plain}
    (h : Carries ms [camel, snake] v) (hv : v ≠ .null) : Otlp.field ms camel snake = some v := by
  obtain ⟨n, hn, hlookup, hothers⟩ := h
  rw [Otlp.field]
  rcases List.mem_cons.mp hn with rfl | hn
  · rw [hlookup, nonNull_eq_some.mpr ⟨rfl, hv⟩]
  · obtain rfl := List.mem_singleton.mp hn
    by_cases heq : camel = n
    · rw [heq, hlookup, nonNull_eq_some.mpr ⟨rfl, hv⟩]
    · rw [hothers camel (by simp) heq, hlookup]
      rfl

/-- What neither spelling has is not found. -/
theorem LeftOut.field {ms : Members} {camel snake : JsString} (h : LeftOut ms [camel, snake]) :
    Otlp.field ms camel snake = none := by
  rw [Otlp.field, h camel (by simp), h snake (by simp)]
  rfl

/-- What the one name carries is found. -/
theorem Carries.lookup {ms : Members} {name : JsString} {v : Plain} (h : Carries ms [name] v) :
    ms.lookup name = some v := by
  obtain ⟨n, hn, hlookup, -⟩ := h
  rwa [List.mem_singleton.mp hn] at hlookup

/-- The other members of the union are not there. -/
theorem Only.other {ms : Members} {names : List JsString} {v : Plain} (h : Only ms names v)
    {camel snake : JsString} (hcamel : camel ∈ unionNames) (hsnake : snake ∈ unionNames)
    (hc : camel ∉ names) (hs : snake ∉ names) : Otlp.field ms camel snake = none :=
  LeftOut.field fun n hn => by
    rcases List.mem_cons.mp hn with rfl | hn
    · exact h.2 _ hcamel hc
    · rw [List.mem_singleton.mp hn]
      exact h.2 _ hsnake hs

/-- A list is read alike whether it is written or left out. -/
theorem Repeated.single {ms : Members} {name : JsString} {P : List Plain → Prop}
    (h : Repeated ms [name] P) : P (asArray (ms.lookup name)) := by
  rcases h with ⟨items, hcarries, hP⟩ | ⟨hout, hP⟩
  · rw [hcarries.lookup]
    exact hP
  · rw [hout name (by simp)]
    exact hP

/-- A repeated field under either spelling is read as its items. -/
theorem Repeated.pair {ms : Members} {camel snake : JsString} {P : List Plain → Prop}
    (h : Repeated ms [camel, snake] P) : P (asArray (Otlp.field ms camel snake)) := by
  rcases h with ⟨items, hcarries, hP⟩ | ⟨hout, hP⟩
  · rw [hcarries.field (by rintro ⟨⟩)]
    exact hP
  · rw [hout.field]
    exact hP

-- ── Attribute values ─────────────────────────────────────────────────────────────

/-- An integer's text is its number below 2⁵³ and stays text from there. -/
theorem decodeInteger_intText (n : ℤ) : decodeInteger (intText n)
    = if |n| < 2 ^ 53 then .number (.ofRat n) else .string (intText n) := by
  rw [decodeInteger, stringToNumber_intText]
  simp only [isSafeInteger_ofRat_int, decide_eq_true_eq]

section Union

variable {ms : Members}

/-- A member of the union that is not there is not read. -/
theorem LeftOut.union (h : LeftOut ms unionNames) {camel snake : JsString}
    (hcamel : camel ∈ unionNames) (hsnake : snake ∈ unionNames) : Otlp.field ms camel snake = none :=
  LeftOut.field fun n hn => by
    rcases List.mem_cons.mp hn with rfl | hn
    · exact h _ hcamel
    · rw [List.mem_singleton.mp hn]
      exact h _ hsnake

/-- A value without a kind is read as null. -/
theorem decodeAnyValue_unset (h : LeftOut ms unionNames) : decodeAnyValue (.obj ms) = .ok .null := by
  have hscalar : decodeScalar ms = none := by
    rw [decodeScalar, h.union (by decide) (by decide), h.union (by decide) (by decide),
      h.union (by decide) (by decide), h.union (by decide) (by decide), h.union (by decide) (by decide)]
    rfl
  rw [decodeAnyValue_obj, hscalar, listUnder, h.union (by decide) (by decide), listUnder,
    h.union (by decide) (by decide)]
  rfl

/-- A scalar value is read as one. -/
theorem decodeAnyValue_scalar {v : AttributeValue} (h : decodeScalar ms = some v) :
    decodeAnyValue (.obj ms) = .ok v := by
  rw [decodeAnyValue_obj, h]

/-- The form of a string is read as it. -/
theorem decodeScalar_string {s : JsString}
    (h : Only ms [js "stringValue", js "string_value"] (.str s)) :
    decodeScalar ms = some (.string s) := by
  rw [decodeScalar, h.1.field (by rintro ⟨⟩)]
  rfl

/-- The form of a boolean is read as it. -/
theorem decodeScalar_bool {b : Bool} (h : Only ms [js "boolValue", js "bool_value"] (.bool b)) :
    decodeScalar ms = some (.boolean b) := by
  rw [decodeScalar, h.other (by decide) (by decide) (by decide) (by decide),
    h.1.field (by rintro ⟨⟩)]
  rfl

/-- The form of an integer is read as its text is. -/
theorem decodeScalar_int {n : ℤ}
    (h : Only ms [js "intValue", js "int_value"] (.str (intText n))) :
    decodeScalar ms = some (decodeInteger (intText n)) := by
  rw [decodeScalar, h.other (by decide) (by decide) (by decide) (by decide),
    h.other (by decide) (by decide) (by decide) (by decide), h.1.field (by rintro ⟨⟩)]
  rfl

/-- The form of a double is read as it. -/
theorem decodeScalar_double {x : Option JsNumber}
    (h : Only ms [js "doubleValue", js "double_value"] (doubleField x)) :
    decodeScalar ms = asDouble (some (doubleField x)) := by
  rw [decodeScalar, h.other (by decide) (by decide) (by decide) (by decide),
    h.other (by decide) (by decide) (by decide) (by decide),
    h.other (by decide) (by decide) (by decide) (by decide),
    h.1.field (by cases x <;> rintro ⟨⟩)]
  cases x with
  | none => rfl
  | some x => rfl

/-- The form of bytes is read as their base64 text. -/
theorem decodeScalar_bytes {s : JsString}
    (h : Only ms [js "bytesValue", js "bytes_value"] (.str s)) :
    decodeScalar ms = some (.string s) := by
  rw [decodeScalar, h.other (by decide) (by decide) (by decide) (by decide),
    h.other (by decide) (by decide) (by decide) (by decide),
    h.other (by decide) (by decide) (by decide) (by decide),
    h.other (by decide) (by decide) (by decide) (by decide), h.1.field (by rintro ⟨⟩)]
  rfl

/-- An array or a list of pairs is no scalar. -/
theorem decodeScalar_list {names : List JsString} {v : Plain} (h : Only ms names v)
    (hnames : ∀ n ∈ unionNames.take 10, n ∉ names) : decodeScalar ms = none := by
  have hother : ∀ {camel snake : JsString}, camel ∈ unionNames.take 10 →
      snake ∈ unionNames.take 10 → Otlp.field ms camel snake = none := fun hc hs =>
    h.other (List.mem_of_mem_take hc) (List.mem_of_mem_take hs) (hnames _ hc) (hnames _ hs)
  rw [decodeScalar, hother (by decide) (by decide), hother (by decide) (by decide),
    hother (by decide) (by decide), hother (by decide) (by decide), hother (by decide) (by decide)]
  rfl

/-- The list under either spelling is found. -/
theorem listUnder_carries {camel snake : JsString} {list : Members}
    (h : Carries ms [camel, snake] (.obj list)) :
    listUnder ms camel snake = some (asArray (list.lookup (js "values"))) := by
  rw [listUnder, h.field (by rintro ⟨⟩)]
  rfl

/-- The form of an array is read as its values. -/
theorem decodeAnyValue_array {list : Members} {vs : List AttributeValue}
    (h : Only ms [js "arrayValue", js "array_value"] (.obj list))
    (hvs : decodeAnyValues (asArray (list.lookup (js "values"))) = .ok vs) :
    decodeAnyValue (.obj ms) = .ok (.array vs) := by
  rw [decodeAnyValue_obj, decodeScalar_list h (by decide), listUnder_carries h.1]
  change (decodeAnyValues (asArray (list.lookup (js "values")))).map AttributeValue.array = _
  rw [hvs]
  rfl

/-- The form of a list of pairs is read as the text of an object. -/
theorem decodeAnyValue_kvlist {list : Members} {vs : List Json}
    (h : Only ms [js "kvlistValue", js "kvlist_value"] (.obj list))
    (hvs : decodePairs (asArray (list.lookup (js "values"))) = .ok vs) :
    decodeAnyValue (.obj ms) = .ok (.string (stringify (.arr vs))) := by
  have harray : listUnder ms (js "arrayValue") (js "array_value") = none := by
    rw [listUnder, h.other (by decide) (by decide) (by decide) (by decide)]
    rfl
  rw [decodeAnyValue_obj, decodeScalar_list h (by decide), harray, listUnder_carries h.1]
  change (decodePairs (asArray (list.lookup (js "values")))).map _ = _
  rw [hvs]
  rfl

end Union

/-- Null is read as null. -/
theorem decodeAnyValue_null : decodeAnyValue .null = .ok .null := by
  rw [decodeAnyValue]
  rintro _ ⟨⟩

/-- A key that is left out is the empty one. -/
theorem keyText_form {ms : Members} {key : JsString} (h : TextField ms (js "key") key) :
    keyText (ms.lookup (js "key")) = .ok key := by
  rcases h with h | ⟨rfl, h⟩
  · rw [h]
    rfl
  · rw [h]
    rfl

mutual
/-- **Every form of a value is read as what it says.** -/
theorem decodeAnyValue_form : (v : AnyValue) → {p : Plain} → v.Form p →
    decodeAnyValue p = .ok v.attribute
  | .unset, _, h => by
      obtain ⟨ms, rfl, hms⟩ := h
      exact decodeAnyValue_unset hms
  | .stringValue _, _, h => by
      obtain ⟨ms, rfl, hms⟩ := h
      exact decodeAnyValue_scalar (decodeScalar_string hms)
  | .boolValue _, _, h => by
      obtain ⟨ms, rfl, hms⟩ := h
      exact decodeAnyValue_scalar (decodeScalar_bool hms)
  | .intValue n, _, h => by
      obtain ⟨ms, rfl, hms⟩ := h
      rw [decodeAnyValue_scalar (decodeScalar_int hms), decodeInteger_intText]
      rfl
  | .doubleValue x, _, h => by
      obtain ⟨ms, rfl, hms⟩ := h
      cases x with
      | none => exact decodeAnyValue_scalar (decodeScalar_double hms)
      | some x => exact decodeAnyValue_scalar (decodeScalar_double hms)
  | .bytesValue _, _, h => by
      obtain ⟨ms, rfl, hms⟩ := h
      exact decodeAnyValue_scalar (decodeScalar_bytes hms)
  | .arrayValue values, _, h => by
      obtain ⟨ms, list, rfl, hms, hlist⟩ := h
      exact decodeAnyValue_array hms (decodeAnyValues_forms values hlist.single)
  | .kvlistValue values, _, h => by
      obtain ⟨ms, list, rfl, hms, hlist⟩ := h
      exact decodeAnyValue_kvlist hms (decodePairs_forms values hlist.single)

/-- The forms of values are read as their attributes. -/
theorem decodeAnyValues_forms : (vs : List AnyValue) → {ps : List Plain} → Forms vs ps →
    decodeAnyValues ps = .ok (attributes vs)
  | [], _, h => by
      obtain rfl := h
      rw [decodeAnyValues]
      rfl
  | v :: vs, _, h => by
      obtain ⟨p, ps, rfl, hp, hps⟩ := h
      rw [decodeAnyValues, decodeAnyValue_form v hp, decodeAnyValues_forms vs hps]
      rfl

/-- The forms of pairs are read as their members. -/
theorem decodePairs_forms : (entries : List KeyValue) → {ps : List Plain} → PairForms entries ps →
    decodePairs ps = .ok (pairs entries)
  | [], _, h => by
      obtain rfl := h
      rw [decodePairs]
      rfl
  | .mk key none :: rest, _, h => by
      obtain ⟨ms, ps, rfl, hkey, hvalue, hps⟩ := h
      rw [decodePairs, keyText_form hkey, hvalue, decodePairs_forms rest hps, Option.getD_none,
        decodeAnyValue_null]
      rfl
  | .mk key (some v) :: rest, _, h => by
      obtain ⟨ms, p, ps, rfl, hkey, hvalue, hp, hps⟩ := h
      rw [decodePairs, keyText_form hkey, hvalue, decodePairs_forms rest hps, Option.getD_some,
        decodeAnyValue_form v hp]
      rfl
end

-- ── Attributes and events ────────────────────────────────────────────────────────

/-- The form of one attribute is added to those read, unless its key is empty. -/
theorem decodeAttribute_form {ms : Members} {key : JsString} (value : Option AnyValue)
    (hkey : TextField ms (js "key") key)
    (hvalue : decodeAnyValue ((ms.lookup (js "value")).getD .null)
      = .ok (KeyValue.attribute (.mk key value))) (map : AttributeMap) :
    decodeAttribute map (.obj ms) = .ok (if key = [] then map
      else AssocList.set map key (KeyValue.attribute (.mk key value))) := by
  rw [decodeAttribute]
  rcases hkey with hkey | ⟨rfl, hkey⟩
  · rw [hkey]
    cases key with
    | nil => rfl
    | cons u rest =>
        rw [if_neg (List.cons_ne_nil u rest)]
        simp only [asText]
        rw [hvalue]
        rfl
  · rw [hkey]
    rfl

/-- The forms of attributes are added one after the other. -/
theorem foldlM_decodeAttribute (entries : List KeyValue) {ps : List Plain}
    (h : PairForms entries ps) (map : AttributeMap) :
    ps.foldlM decodeAttribute map = .ok (entries.foldl
      (fun map e => if e.key = [] then map else AssocList.set map e.key e.attribute) map) := by
  induction entries generalizing ps map with
  | nil =>
      obtain rfl := h
      rfl
  | cons entry rest ih =>
      obtain ⟨key, value⟩ := entry
      cases value with
      | none =>
          obtain ⟨ms, ps, rfl, hkey, hvalue, hps⟩ := h
          rw [List.foldlM_cons, decodeAttribute_form none hkey
            (by rw [hvalue, Option.getD_none, decodeAnyValue_null]; rfl)]
          exact ih hps _
      | some v =>
          obtain ⟨ms, p, ps, rfl, hkey, hvalue, hp, hps⟩ := h
          rw [List.foldlM_cons, decodeAttribute_form (some v) hkey
            (by rw [hvalue, Option.getD_some, decodeAnyValue_form v hp]; rfl)]
          exact ih hps _

/-- **The form of a list of attributes is read as its map.** -/
theorem decodeAttributes_form {ms : Members} {entries : List KeyValue}
    (h : Repeated ms [js "attributes"] (PairForms entries)) :
    decodeAttributes (ms.lookup (js "attributes")) = .ok (attributeMap entries) :=
  foldlM_decodeAttribute entries h.single []

/-- A text that is left out is the empty one. -/
theorem asText_form {ms : Members} {name s : JsString} (h : TextField ms name s) :
    (asText (ms.lookup name)).getD [] = s := by
  rcases h with h | ⟨rfl, h⟩
  · rw [h]
    rfl
  · rw [h]
    rfl

/-- The form of an event is read as what it means. -/
theorem decodeEvent_form {e : SpanEvent} {p : Plain} (h : e.Form p) :
    decodeEvent p = .ok e.meaning := by
  obtain ⟨ms, rfl, hname, hattributes⟩ := h
  rw [decodeEvent, SpanEvent.meaning]
  rcases hname with hname | ⟨hempty, hname⟩
  · rw [hname]
    cases he : e.name with
    | nil => rfl
    | cons u rest =>
        simp only [asText]
        rw [decodeAttributes_form hattributes, if_neg (List.cons_ne_nil u rest)]
        rfl
  · rw [hname, if_pos hempty]
    rfl

/-- The forms of events are read as what they mean. -/
theorem decodeEvents_form {ms : Members} {events : List SpanEvent}
    (h : Repeated ms [js "events"] (List.Forall₂ SpanEvent.Form events)) :
    decodeEvents (ms.lookup (js "events")) = .ok (events.map SpanEvent.meaning).reduceOption := by
  rw [decodeEvents, mapM_of_forall₂ h.single fun _ _ => decodeEvent_form]
  rfl

-- ── Identifiers, times, status ───────────────────────────────────────────────────

/-- Three bytes are four characters. -/
theorem length_base64Encode (bytes : Bytes) :
    (base64Encode bytes).length = 4 * ((bytes.length + 2) / 3) := by
  induction bytes using base64Encode.induct with
  | case1 => rfl
  | case2 a => simp [base64Encode]
  | case3 a b => simp [base64Encode]
  | case4 a b c rest ih =>
      simp only [base64Encode, List.length_cons, ih]
      omega

/-- No character of the standard alphabet is one of the URL alphabet's own. -/
theorem base64Char_standard {v : ℕ} (hv : v < 64) : base64Char v ≠ 0x2D ∧ base64Char v ≠ 0x5F := by
  interval_cases v <;> decide

/-- Base64 has neither of the characters of its other alphabet. -/
theorem standard_of_mem_base64Encode {bytes : Bytes} :
    ∀ u ∈ base64Encode bytes, u ≠ 0x2D ∧ u ≠ 0x5F := by
  induction bytes using base64Encode.induct with
  | case1 =>
      intro u hu
      cases hu
  | case2 a =>
      have ha := a.toNat_lt
      intro u hu
      simp only [base64Encode, List.mem_cons, List.not_mem_nil, or_false] at hu
      rcases hu with rfl | rfl | rfl | rfl
      · exact base64Char_standard (by omega)
      · exact base64Char_standard (by omega)
      · decide
      · decide
  | case3 a b =>
      have ha := a.toNat_lt
      have hb := b.toNat_lt
      intro u hu
      simp only [base64Encode, List.mem_cons, List.not_mem_nil, or_false] at hu
      rcases hu with rfl | rfl | rfl | rfl
      · exact base64Char_standard (by omega)
      · exact base64Char_standard (by omega)
      · exact base64Char_standard (by omega)
      · decide
  | case4 a b c rest ih =>
      have ha := a.toNat_lt
      have hb := b.toNat_lt
      have hc := c.toNat_lt
      intro u hu
      simp only [base64Encode, List.mem_cons] at hu
      rcases hu with rfl | rfl | rfl | rfl | hu
      · exact base64Char_standard (by omega)
      · exact base64Char_standard (by omega)
      · exact base64Char_standard (by omega)
      · exact base64Char_standard (by omega)
      · exact ih u hu

/-- Bytes are read back from their base64. -/
theorem bufferFromBase64_encode (bytes : Bytes) : bufferFromBase64 (base64Encode bytes) = bytes := by
  have hmap : ((base64Encode bytes).map fun u =>
      if u = 0x2D then 0x2B else if u = 0x5F then 0x2F else u) = base64Encode bytes := by
    refine (List.map_congr_left fun u hu => ?_).trans (List.map_id _)
    obtain ⟨h1, h2⟩ := standard_of_mem_base64Encode u hu
    rw [if_neg h1, if_neg h2]
    rfl
  rw [bufferFromBase64, hmap, base64Decode_encode]

/-- The form of an id is read as its digits. -/
theorem decodeId_form {ms : Members} {camel snake what : JsString} {n : ℕ} {bytes : Bytes}
    (h : IdField ms [camel, snake] bytes) (hlen : bytes.length = n) (hn : n = 16 ∨ n = 8) :
    decodeId (field ms camel snake) n what
      = .ok ⟨toHex bytes, by have := isHex_toHex bytes; rwa [hlen] at this⟩ := by
  rcases h with ⟨s, hcarries, htext⟩ | ⟨rfl, -⟩
  · have hne : s ≠ [] := by
      rintro rfl
      rcases htext with ⟨-, hhex⟩ | hbase
      · have := congrArg List.length hhex
        rw [(isHex_toHex bytes).1, List.map_nil, List.length_nil] at this
        omega
      · have := length_base64Encode bytes
        rw [← hbase, List.length_nil] at this
        omega
    rw [hcarries.field (by rintro ⟨⟩), decodeId]
    cases s with
    | nil => exact absurd rfl hne
    | cons u rest =>
        simp only [asText]
        rcases htext with ⟨hall, hhex⟩ | hbase
        · have hl : (u :: rest).length = 2 * n := by
            have := congrArg List.length hhex
            rwa [List.length_map, (isHex_toHex bytes).1, hlen] at this
          rw [dif_pos ⟨hl, hall⟩]
          exact congrArg Except.ok (Subtype.ext hhex)
        · have hl : (u :: rest).length ≠ 2 * n := by
            rw [hbase, length_base64Encode]
            omega
          have hraw : bufferFromBase64 (u :: rest) = bytes := by rw [hbase, bufferFromBase64_encode]
          rw [dif_neg fun h => hl h.1]
          simp only [hraw]
          rw [dif_pos hlen]
  · rw [List.length_nil] at hlen
    omega

/-- A time's digits are read as the time. -/
theorem decodeUnixNano_text {what : JsString} (n : ℕ) :
    decodeUnixNano (some (.str (decimal n))) what = .ok n := by
  rw [decodeUnixNano, if_pos ⟨decimal_ne_nil n, List.all_eq_true.mpr isDigit_of_mem_decimal⟩,
    digitsValue_decimal]

/-- The form of a time that is there is read as the time. -/
theorem decodeUnixNano_form {ms : Members} {camel snake what : JsString} {time : Option UInt64}
    (h : TimeField ms [camel, snake] time) (htime : time.isSome) :
    decodeUnixNano (field ms camel snake) what = .ok (time.getD 0).toNat := by
  obtain ⟨n, rfl⟩ := Option.isSome_iff_exists.mp htime
  have hcarries : Carries ms [camel, snake] (.str (decimal n.toNat)) := h
  rw [hcarries.field (by rintro ⟨⟩), decodeUnixNano_text]
  rfl

/-- **What is left out is no usable time.** -/
theorem isSome_of_decodeUnixNano {ms : Members} {camel snake what : JsString} {time : Option UInt64}
    {t : ℤ} (h : TimeField ms [camel, snake] time)
    (ht : decodeUnixNano (field ms camel snake) what = .ok t) : time.isSome := by
  cases time with
  | some n => rfl
  | none =>
      have hout : LeftOut ms [camel, snake] := h
      rw [hout.field] at ht
      cases ht

/-- Integers below 2⁵³ are told apart by their doubles. -/
theorem ofRat_int_eq {m n : ℤ} (hm : |m| ≤ 2 ^ 53) (hn : |n| ≤ 2 ^ 53) :
    JsNumber.ofRat (m : ℚ) = .ofRat n ↔ m = n := by
  rw [JsNumber.ofRat_of_isDouble (isDouble_intCast hm), JsNumber.ofRat_of_isDouble (isDouble_intCast hn)]
  constructor
  · intro h
    exact_mod_cast (JsNumber.fin.inj h)
  · rintro rfl
    rfl

/-- A 32-bit integer is below 2⁵³. -/
theorem abs_toInt_le (code : Int32) : |code.toInt| ≤ 2 ^ 53 := by
  have h1 := code.toInt_lt
  have h2 := code.le_toInt
  rw [abs_le]
  constructor
  · omega
  · omega

/-- A status is read from either form of its code. -/
theorem decodeStatus_code {status : Members} {code : Int32} {p : Plain}
    (hcode : status.lookup (js "code") = some p) (h : StatusCodeForm code p) :
    decodeStatus (some (.obj status)) = Status.meaning ⟨code⟩ := by
  have hone : JsNumber.ofRat code.toInt = .ofNat 1 ↔ code = 1 := by
    rw [← Int32.toInt_inj]
    exact ofRat_int_eq (n := 1) (abs_toInt_le code) (by decide)
  have htwo : JsNumber.ofRat code.toInt = .ofNat 2 ↔ code = 2 := by
    rw [← Int32.toInt_inj]
    exact ofRat_int_eq (n := 2) (abs_toInt_le code) (by decide)
  simp only [decodeStatus, Option.bind_some, asRecord, hcode, Status.meaning]
  rcases h with rfl | ⟨rfl, rfl⟩ | ⟨rfl, rfl⟩ | ⟨rfl, rfl⟩
  · simp only [hone, htwo]
  · decide
  · decide
  · decide

/-- The form of a status, or of none, is read as what it means. -/
theorem decodeStatus_form {ms : Members} {status : Option Status}
    (h : MessageField ms (js "status") Status.Form status) :
    decodeStatus (ms.lookup (js "status")) = (status.map Status.meaning).getD .unset := by
  cases status with
  | none =>
      have hnone : ms.lookup (js "status") = none := h
      rw [hnone]
      rfl
  | some s =>
      obtain ⟨p, hp, status, rfl, hcode⟩ := h
      rw [hp, Option.map_some, Option.getD_some]
      rcases hcode with ⟨v, hv, hform⟩ | ⟨h0, hv⟩
      · exact decodeStatus_code hv hform
      · simp only [decodeStatus, Option.bind_some, asRecord, hv, Status.meaning, h0]
        decide

-- ── Spans ────────────────────────────────────────────────────────────────────────

/-- Both times of the span are written. -/
def Span.Timed (s : Span) : Prop := s.startTimeUnixNano.isSome ∧ s.endTimeUnixNano.isSome

/-- **The form of a span with its times is read as what it means.** -/
theorem decodeSpan_form {resource : AttributeMap} {s : Span} {o : OtlpSpan} {p : Plain}
    (h : s.Form p) (htimed : s.Timed) (ho : s.meaning resource = some o) :
    ∃ ms, asRecord p = some ms ∧ decodeSpan resource ms = .ok o := by
  obtain ⟨ms, rfl, htrace, hspan, hname, hstart, hend, hattributes, hevents, hstatus⟩ := h
  refine ⟨ms, rfl, ?_⟩
  rw [Span.meaning] at ho
  split_ifs at ho with hsized
  obtain rfl := Option.some.inj ho
  rw [decodeSpan, decodeId_form htrace hsized.traceId (.inl rfl),
    decodeId_form hspan hsized.spanId (.inr rfl), decodeUnixNano_form hstart htimed.1,
    decodeUnixNano_form hend htimed.2, decodeAttributes_form hattributes, decodeEvents_form hevents,
    asText_form hname, decodeStatus_form hstatus]
  rfl

/-- What is read of each item is read of the list. -/
theorem mapM_records {α β : Type} {Form : α → Plain → Prop} {meaning : α → Option β}
    (decode : Members → Except DecodeError β) {as : List α} {ps : List Plain} {bs : List β}
    (hforms : List.Forall₂ Form as ps) (hbs : as.mapM meaning = some bs)
    (h : ∀ a ∈ as, ∀ p b, Form a p → meaning a = some b →
      ∃ ms, asRecord p = some ms ∧ decode ms = .ok b) :
    (ps.filterMap asRecord).mapM decode = .ok bs := by
  induction hforms generalizing bs with
  | nil =>
      obtain rfl := Option.some.inj hbs
      rfl
  | cons hap _ ih =>
      rw [List.mapM_cons] at hbs
      simp only [Option.bind_eq_bind, Option.bind_eq_some_iff] at hbs
      obtain ⟨b, hb, bs', hbs', hcons⟩ := hbs
      obtain rfl := Option.some.inj hcons
      obtain ⟨ms, hms, hdecode⟩ := h _ (by simp) _ _ hap hb
      rw [List.filterMap_cons_some hms, List.mapM_cons, hdecode,
        ih hbs' fun a ha => h a (by simp [ha])]
      rfl

/-- The forms of the spans of a scope are read as what they mean. -/
theorem decodeScopeSpans_form {resource : AttributeMap} {s : ScopeSpans} {os : List OtlpSpan}
    {p : Plain} (h : s.Form p) (htimed : ∀ x ∈ s.spans, x.Timed)
    (hos : s.spans.mapM (Span.meaning resource) = some os) :
    ∃ ms, asRecord p = some ms ∧ decodeScopeSpans resource ms = .ok os := by
  obtain ⟨ms, rfl, hspans⟩ := h
  exact ⟨ms, rfl, mapM_records (decodeSpan resource) hspans.single hos fun x hx _ _ hform hmeaning =>
    decodeSpan_form hform (htimed x hx) hmeaning⟩

/-- The form of a resource is read as its attributes. -/
theorem decodeResource_form {ms : Members} {resource : Option Resource}
    (h : MessageField ms (js "resource") Resource.Form resource) :
    decodeAttributes (((ms.lookup (js "resource")).bind asRecord).bind fun r =>
      r.lookup (js "attributes")) = .ok (attributeMap ((resource.map fun x => x.attributes).getD [])) := by
  cases resource with
  | none =>
      have hnone : ms.lookup (js "resource") = none := h
      rw [hnone]
      rfl
  | some r =>
      obtain ⟨p, hp, rs, rfl, hattributes⟩ := h
      rw [hp]
      exact decodeAttributes_form hattributes

/-- The forms of the spans of a resource are read as what they mean. -/
theorem decodeResourceSpans_form {r : ResourceSpans} {os : List OtlpSpan} {p : Plain}
    (h : r.Form p) (htimed : ∀ s ∈ r.scopeSpans, ∀ x ∈ s.spans, x.Timed) (hos : r.meaning = some os) :
    ∃ ms, asRecord p = some ms ∧ decodeResourceSpans ms = .ok os := by
  obtain ⟨ms, rfl, hresource, hscopes⟩ := h
  obtain ⟨scopes, hscope, rfl⟩ := Option.map_eq_some_iff.mp hos
  refine ⟨ms, rfl, ?_⟩
  rw [decodeResourceSpans, decodeResource_form hresource]
  have := mapM_records (decodeScopeSpans r.attributes) hscopes.pair hscope
    fun s hs _ _ hform hmeaning => decodeScopeSpans_form hform (htimed s hs) hmeaning
  simp only [bind, Except.bind]
  rw [show attributeMap ((r.resource.map fun x => x.attributes).getD []) = r.attributes from rfl, this]
  rfl

/-- **Every form of a request is read as what it says**, where a list of resources is there. -/
theorem normalizeExportRequest_form {r : ExportTraceServiceRequest} {os : List OtlpSpan} {p : Plain}
    (h : r.Form p) (hne : r.resourceSpans ≠ []) (htimed : ∀ x ∈ r.spans, x.Timed)
    (hos : r.meaning = some os) : normalizeExportRequest p = .ok os := by
  obtain ⟨ms, rfl, hresources⟩ := h
  obtain ⟨lists, hlists, rfl⟩ := Option.map_eq_some_iff.mp hos
  have hitems := hresources.pair
  rw [normalizeExportRequest, asRecord]
  cases hf : field ms (js "resourceSpans") (js "resource_spans") with
  | none =>
      rw [hf] at hitems
      cases hr : r.resourceSpans with
      | nil => exact absurd hr hne
      | cons a rest =>
          rw [hr] at hitems
          cases hitems
  | some v =>
      rw [hf] at hitems
      have := mapM_records decodeResourceSpans hitems hlists
        fun x hx _ _ hform hmeaning => decodeResourceSpans_form hform
          (fun s hs y hy => htimed y (List.mem_flatMap.mpr ⟨x, hx, List.mem_flatMap.mpr ⟨s, hs, hy⟩⟩))
          hmeaning
      simp only [hf, this]
      rfl

-- ── An object of each request is a form ──────────────────────────────────────────

/-- A name is looked up among the fields that are there. -/
theorem lookup_present {fields : List (JsString × Option Plain)} (names : List JsString)
    (hnames : fields.map Prod.fst = names) (hnodup : names.Nodup) (name : JsString) :
    (present fields).lookup name = (fields.lookup name).join := by
  subst hnames
  induction fields with
  | nil => rfl
  | cons f rest ih =>
      obtain ⟨a, v⟩ := f
      obtain ⟨hnot, hrest⟩ := List.nodup_cons.mp hnodup
      have ih := ih hrest
      rw [List.lookup_cons]
      cases v with
      | none =>
          change (present rest).lookup name = _
          rw [ih]
          by_cases hname : name = a
          · subst hname
            rw [AssocList.lookup_of_not_mem hnot, beq_self_eq_true]
            rfl
          · rw [beq_false_of_ne hname]
      | some v =>
          change List.lookup name ((a, v) :: present rest) = _
          rw [List.lookup_cons]
          by_cases hname : name = a
          · subst hname
            rw [beq_self_eq_true]
            rfl
          · rw [beq_false_of_ne hname, ih]

/-- One member has no other name. -/
theorem lookup_single {name n : JsString} {v : Plain} (h : n ≠ name) :
    ([(name, v)] : Members).lookup n = none := by
  rw [List.lookup_cons, beq_false_of_ne h]
  rfl

theorem carries_single {name other : JsString} (v : Plain) : Carries [(name, v)] [name, other] v :=
  ⟨name, by simp, List.lookup_cons_self, fun _ _ hne => lookup_single hne⟩

/-- One member is the only one of its names. -/
theorem only_single {name other : JsString} (v : Plain) : Only [(name, v)] [name, other] v :=
  ⟨carries_single v, fun _ _ hnot => lookup_single fun heq => hnot (by simp [heq])⟩

section Fields

variable {ms : Members} {camel snake : JsString}

/-- Neither spelling is there. -/
theorem leftOut_pair (h : ms.lookup camel = none) (hs : ms.lookup snake = none) :
    LeftOut ms [camel, snake] := by
  intro n hn
  rcases List.mem_cons.mp hn with rfl | hn
  · exact h
  · rwa [List.mem_singleton.mp hn]

/-- The first spelling carries what the second has not. -/
theorem carries_pair {v : Plain} (h : ms.lookup camel = some v) (hs : ms.lookup snake = none) :
    Carries ms [camel, snake] v := by
  refine ⟨camel, by simp, h, fun m hm hne => ?_⟩
  rcases List.mem_cons.mp hm with rfl | hm
  · exact absurd rfl hne
  · rwa [List.mem_singleton.mp hm]

/-- A repeated field under its one name. -/
theorem repeated_of_lookup {P : List Plain → Prop} (items : List Plain)
    (h : ms.lookup camel = repeatedField items) (hP : P items) : Repeated ms [camel] P := by
  cases items with
  | nil => exact .inr ⟨fun n hn => by rw [List.mem_singleton.mp hn]; exact h, hP⟩
  | cons p ps => exact .inl ⟨p :: ps, ⟨camel, by simp, h, by simp⟩, hP⟩

/-- A repeated field under the first of its two names. -/
theorem repeated_of_lookup_pair {P : List Plain → Prop} (items : List Plain)
    (h : ms.lookup camel = repeatedField items) (hs : ms.lookup snake = none) (hP : P items) :
    Repeated ms [camel, snake] P := by
  cases items with
  | nil => exact .inr ⟨leftOut_pair h hs, hP⟩
  | cons p ps => exact .inl ⟨p :: ps, carries_pair h hs, hP⟩

/-- A text field as the message's object has it. -/
theorem textField_of_lookup {s : JsString} (h : ms.lookup camel = stringField s) :
    TextField ms camel s := by
  rw [stringField] at h
  split_ifs at h with hs
  · exact .inr ⟨hs, h⟩
  · exact .inl h

/-- A time as the message's object has it. -/
theorem timeField_of_lookup {time : Option UInt64} (h : ms.lookup camel = fixed64Field time)
    (hs : ms.lookup snake = none) : TimeField ms [camel, snake] time := by
  cases time with
  | none => exact leftOut_pair h hs
  | some n => exact carries_pair h hs

/-- An id as the message's object has it. -/
theorem idField_of_lookup {bytes : Bytes} (h : ms.lookup camel = bytesField bytes)
    (hs : ms.lookup snake = none) : IdField ms [camel, snake] bytes := by
  rw [bytesField] at h
  split_ifs at h with hb
  · exact .inr ⟨hb, leftOut_pair h hs⟩
  · exact .inl ⟨_, carries_pair h hs, .inr rfl⟩

end Fields

mutual
/-- A value's own object is one of its forms. -/
theorem AnyValue.form_toObject : (v : AnyValue) → v.Form v.toObject
  | .unset => ⟨[], rfl, fun _ _ => rfl⟩
  | .stringValue _ => ⟨_, rfl, only_single _⟩
  | .boolValue _ => ⟨_, rfl, only_single _⟩
  | .intValue _ => ⟨_, rfl, only_single _⟩
  | .doubleValue _ => ⟨_, rfl, only_single _⟩
  | .bytesValue _ => ⟨_, rfl, only_single _⟩
  | .arrayValue values => ⟨_, _, rfl, only_single _,
      repeated_of_lookup _ (lookup_present [js "values"] rfl (by decide) _) (forms_toObjects values)⟩
  | .kvlistValue values => ⟨_, _, rfl, only_single _,
      repeated_of_lookup _ (lookup_present [js "values"] rfl (by decide) _) (pairForms_toPairObjects values)⟩

/-- The objects of values are forms of theirs. -/
theorem forms_toObjects : (vs : List AnyValue) → Forms vs (toObjects vs)
  | [] => rfl
  | v :: vs => ⟨_, _, rfl, v.form_toObject, forms_toObjects vs⟩

/-- The objects of pairs are forms of theirs. -/
theorem pairForms_toPairObjects : (entries : List KeyValue) → PairForms entries (toPairObjects entries)
  | [] => rfl
  | .mk key none :: rest =>
      have hlookup := lookup_present [js "key"] rfl (by decide)
      ⟨_, _, rfl, textField_of_lookup (hlookup _), hlookup _, pairForms_toPairObjects rest⟩
  | .mk key (some v) :: rest =>
      have hlookup := lookup_present [js "key", js "value"] rfl (by decide)
      ⟨_, _, _, rfl, textField_of_lookup (hlookup _), hlookup _, v.form_toObject,
        pairForms_toPairObjects rest⟩
end

/-- What holds of each object holds of the list of them. -/
theorem forall₂_toObject {α : Type} {Form : α → Plain → Prop} {toObject : α → Plain} {as : List α}
    (h : ∀ a, Form a (toObject a)) : List.Forall₂ Form as (as.map toObject) := by
  induction as with
  | nil => exact .nil
  | cons a rest ih => exact .cons (h a) ih

/-- A message in a field, or none, as the outer message's object has it. -/
theorem messageField_of_lookup {α : Type} {ms : Members} {name : JsString}
    {Form : α → Plain → Prop} {toObject : α → Plain} {o : Option α}
    (h : ms.lookup name = o.map toObject) (hform : ∀ a, Form a (toObject a)) :
    MessageField ms name Form o := by
  cases o with
  | none => exact h
  | some a => exact ⟨_, h, hform a⟩

/-- An event's own object is one of its forms. -/
theorem SpanEvent.form_toObject (e : SpanEvent) : e.Form e.toObject :=
  have hlookup := lookup_present [js "name", js "attributes"] rfl (by decide)
  ⟨_, rfl, textField_of_lookup (hlookup _),
    repeated_of_lookup _ (hlookup _) (pairForms_toPairObjects e.attributes)⟩

/-- The code in a status's object is one of its forms. -/
theorem statusCodeForm_of_field {code : Int32} {p : Plain} (h : statusCodeField code = some p) :
    StatusCodeForm code p := by
  rw [statusCodeField] at h
  split_ifs at h with h0 h1 h2
  · exact .inr (.inr (.inl ⟨h1, (Option.some.inj h).symm⟩))
  · exact .inr (.inr (.inr ⟨h2, (Option.some.inj h).symm⟩))
  · exact .inl (Option.some.inj h).symm

/-- A status's own object is one of its forms. -/
theorem Status.form_toObject (s : Status) : s.Form s.toObject := by
  have hlookup : (present [(js "code", statusCodeField s.code)]).lookup (js "code")
      = statusCodeField s.code := lookup_present [js "code"] rfl (by decide) _
  refine ⟨_, rfl, ?_⟩
  cases hcode : statusCodeField s.code with
  | none =>
      rw [hcode] at hlookup
      refine .inr ⟨?_, hlookup⟩
      rw [statusCodeField] at hcode
      split_ifs at hcode with h0
      exact h0
  | some p =>
      rw [hcode] at hlookup
      exact .inl ⟨p, hlookup, statusCodeForm_of_field hcode⟩

/-- The members of a span's object. -/
theorem Span.lookup_members (s : Span) (name : JsString) : s.members.lookup name =
    ([(js "traceId", bytesField s.traceId), (js "spanId", bytesField s.spanId),
      (js "name", stringField s.name),
      (js "startTimeUnixNano", fixed64Field s.startTimeUnixNano),
      (js "endTimeUnixNano", fixed64Field s.endTimeUnixNano),
      (js "attributes", repeatedField (toPairObjects s.attributes)),
      (js "events", repeatedField (s.events.map SpanEvent.toObject)),
      (js "status", s.status.map Status.toObject)].lookup name).join :=
  lookup_present [js "traceId", js "spanId", js "name", js "startTimeUnixNano",
    js "endTimeUnixNano", js "attributes", js "events", js "status"] rfl (by decide) name

/-- A span's own object is one of its forms. -/
theorem Span.form_toObject (s : Span) : s.Form s.toObject :=
  have hlookup := s.lookup_members
  ⟨_, rfl, idField_of_lookup (hlookup _) (hlookup _), idField_of_lookup (hlookup _) (hlookup _),
    textField_of_lookup (hlookup _), timeField_of_lookup (hlookup _) (hlookup _),
    timeField_of_lookup (hlookup _) (hlookup _),
    repeated_of_lookup _ (hlookup _) (pairForms_toPairObjects s.attributes),
    repeated_of_lookup _ (hlookup _) (forall₂_toObject SpanEvent.form_toObject),
    messageField_of_lookup (hlookup _) Status.form_toObject⟩

/-- The spans in a scope's object. -/
theorem ScopeSpans.lookup_members (s : ScopeSpans) : s.members.lookup (js "spans")
    = repeatedField (s.spans.map Span.toObject) :=
  lookup_present [js "spans"] rfl (by decide) _

/-- A scope's own object is one of its forms. -/
theorem ScopeSpans.form_toObject (s : ScopeSpans) : s.Form s.toObject :=
  ⟨_, rfl, repeated_of_lookup _ s.lookup_members (forall₂_toObject Span.form_toObject)⟩

/-- A resource's own object is one of its forms. -/
theorem Resource.form_toObject (r : Resource) : r.Form r.toObject :=
  have hlookup := lookup_present [js "attributes"] rfl (by decide)
  ⟨_, rfl, repeated_of_lookup _ (hlookup _) (pairForms_toPairObjects r.attributes)⟩

/-- The members of the object of a resource's spans. -/
theorem ResourceSpans.lookup_members (r : ResourceSpans) (name : JsString) : r.members.lookup name =
    ([(js "resource", r.resource.map Resource.toObject),
      (js "scopeSpans", repeatedField (r.scopeSpans.map ScopeSpans.toObject))].lookup name).join :=
  lookup_present [js "resource", js "scopeSpans"] rfl (by decide) name

/-- The own object of a resource's spans is one of their forms. -/
theorem ResourceSpans.form_toObject (r : ResourceSpans) : r.Form r.toObject :=
  have hlookup := r.lookup_members
  ⟨_, rfl, messageField_of_lookup (hlookup _) Resource.form_toObject,
    repeated_of_lookup_pair _ (hlookup _) (hlookup _) (forall₂_toObject ScopeSpans.form_toObject)⟩

/-- The members of a request's object. -/
theorem ExportTraceServiceRequest.lookup_members (r : ExportTraceServiceRequest) (name : JsString) :
    r.members.lookup name = ([(js "resourceSpans",
      repeatedField (r.resourceSpans.map ResourceSpans.toObject))].lookup name).join :=
  lookup_present [js "resourceSpans"] rfl (by decide) name

/-- **Every request has a form.** -/
theorem ExportTraceServiceRequest.form_toObject (r : ExportTraceServiceRequest) : r.Form r.toObject :=
  ⟨_, rfl, repeated_of_lookup_pair _ (r.lookup_members _) (r.lookup_members _)
    (forall₂_toObject ResourceSpans.form_toObject)⟩

-- ── Both encodings ───────────────────────────────────────────────────────────────

/-- A request whose identifiers have their sizes says something. -/
theorem exists_meaning {r : ExportTraceServiceRequest} (h : ∀ s ∈ r.spans, s.Sized) :
    ∃ os, r.meaning = some os := by
  have hlists : ∀ x ∈ r.resourceSpans, ∃ os, x.meaning = some os := by
    intro x hx
    have hscopes : ∀ s ∈ x.scopeSpans, ∃ os, s.spans.mapM (Span.meaning x.attributes) = some os := by
      intro s hs
      have hspans : ∀ y ∈ s.spans, ∃ o, y.meaning x.attributes = some o := fun y hy =>
        ⟨_, dif_pos (h y (List.mem_flatMap.mpr ⟨x, hx, List.mem_flatMap.mpr ⟨s, hs, hy⟩⟩))⟩
      obtain ⟨os, hos, -⟩ := exists_mapM_eq_some hspans
      exact ⟨os, hos⟩
    obtain ⟨scopes, hscopes, -⟩ := exists_mapM_eq_some hscopes
    exact ⟨_, by rw [ResourceSpans.meaning, hscopes]; rfl⟩
  obtain ⟨lists, hlists, -⟩ := exists_mapM_eq_some hlists
  exact ⟨_, by rw [ExportTraceServiceRequest.meaning, hlists]; rfl⟩

/-- A list of records that is read has the form of each of its items read. -/
theorem exists_record {α β : Type} {Form : α → Plain → Prop} {decode : Members → Except DecodeError β}
    (hform : ∀ a p, Form a p → ∃ ms, p = .obj ms) {as : List α} {ps : List Plain} {bs : List β}
    (hforms : List.Forall₂ Form as ps) (hbs : (ps.filterMap asRecord).mapM decode = .ok bs) {a : α}
    (ha : a ∈ as) : ∃ ms b, Form a (.obj ms) ∧ decode ms = .ok b := by
  obtain ⟨p, hp, hap⟩ := exists_of_forall₂ hforms.flip ha
  obtain ⟨ms, rfl⟩ := hform a p hap
  obtain ⟨b, hb⟩ := exists_of_mapM hbs (List.mem_filterMap.mpr ⟨_, hp, rfl⟩)
  exact ⟨ms, b, hap, hb⟩

/-- A span that was read has its times. -/
theorem timed_of_decodeSpan {resource : AttributeMap} {s : Span} {ms : Members} {o : OtlpSpan}
    (h : s.Form (.obj ms)) (ho : decodeSpan resource ms = .ok o) : s.Timed := by
  obtain ⟨ms', hms, -, -, -, hstartForm, hendForm, -, -, -⟩ := h
  obtain rfl := Plain.obj.inj hms
  obtain ⟨_, _, ho⟩ := bind_eq_ok.mp ho
  obtain ⟨_, _, ho⟩ := bind_eq_ok.mp ho
  obtain ⟨_, hstart, ho⟩ := bind_eq_ok.mp ho
  obtain ⟨_, hend, _⟩ := bind_eq_ok.mp ho
  exact ⟨isSome_of_decodeUnixNano hstartForm hstart, isSome_of_decodeUnixNano hendForm hend⟩

/-- The spans of a scope that was read have their times. -/
theorem timed_of_decodeScopeSpans {resource : AttributeMap} {s : ScopeSpans} {ms : Members}
    {os : List OtlpSpan} (h : s.Form (.obj ms)) (hos : decodeScopeSpans resource ms = .ok os) :
    ∀ x ∈ s.spans, x.Timed := by
  intro x hx
  obtain ⟨ms', hms, hspans⟩ := h
  obtain rfl := Plain.obj.inj hms
  obtain ⟨record, o, hform, ho⟩ :=
    exists_record (fun _ _ hx => hx.imp fun _ h => h.1) hspans.single hos hx
  exact timed_of_decodeSpan hform ho

/-- The spans of a resource that was read have their times. -/
theorem timed_of_decodeResourceSpans {r : ResourceSpans} {ms : Members} {os : List OtlpSpan}
    (h : r.Form (.obj ms)) (hos : decodeResourceSpans ms = .ok os) :
    ∀ s ∈ r.scopeSpans, ∀ x ∈ s.spans, x.Timed := by
  intro s hs
  obtain ⟨ms', hms, -, hscopes⟩ := h
  obtain rfl := Plain.obj.inj hms
  obtain ⟨resource, _, hos⟩ := bind_eq_ok.mp hos
  obtain ⟨scopes, hread, _⟩ := bind_eq_ok.mp hos
  obtain ⟨record, o, hform, ho⟩ :=
    exists_record (fun _ _ hx => hx.imp fun _ h => h.1) hscopes.pair hread hs
  exact timed_of_decodeScopeSpans hform ho

/-- **A form is read only where every time is written.** -/
theorem timed_of_normalize {r : ExportTraceServiceRequest} {p : Plain} {os : List OtlpSpan}
    (h : r.Form p) (hos : normalizeExportRequest p = .ok os) : ∀ s ∈ r.spans, s.Timed := by
  obtain ⟨ms, rfl, hresources⟩ := h
  intro x hx
  obtain ⟨y, hy, hx⟩ := List.mem_flatMap.mp hx
  obtain ⟨s, hs, hx⟩ := List.mem_flatMap.mp hx
  have hitems := hresources.pair
  rw [normalizeExportRequest, asRecord] at hos
  cases hf : field ms (js "resourceSpans") (js "resource_spans") with
  | none =>
      simp only [hf] at hos
      cases hos
  | some v =>
      rw [hf] at hitems
      simp only [hf] at hos
      obtain ⟨lists, hlists, _⟩ := bind_eq_ok.mp hos
      obtain ⟨record, o, hform, ho⟩ :=
        exists_record (fun _ _ hx => hx.imp fun _ h => h.1) hitems hlists hy
      exact timed_of_decodeResourceSpans hform ho s hs x hx

/-- **What protobufjs documents** of `decode` and `toObject` for the bytes of one request, with long
    numbers, enumerations and bytes as strings and no defaults: the object is a form of the request
    in which exactly the times stand that the bytes hold, and an empty list is left out. -/
def Reads (protobufjs : Bytes → Except JsString Plain) (body : Bytes)
    (wire : ExportTraceServiceRequest) : Prop :=
  ∃ ms, protobufjs body = .ok (.obj ms) ∧ wire.Form (.obj ms) ∧
    (wire.resourceSpans = [] → LeftOut ms [js "resourceSpans", js "resource_spans"])

/-- Every request is read so by some decoder. -/
theorem reads_toObject (body : Bytes) (r : ExportTraceServiceRequest) :
    Reads (fun _ => .ok r.toObject) body r :=
  ⟨r.members, rfl, r.form_toObject, fun h => leftOut_pair (by rw [r.lookup_members, h]; rfl)
    (r.lookup_members _)⟩

/-- **Both encodings say the same** exactly where there is a list of resources and both write every
    time: the bytes and the JSON body of one request are then read as the same spans. -/
theorem encodings_agree_iff (protobufjs : Bytes → Except JsString Plain) (body : Bytes) (j : Json)
    (wire json : ExportTraceServiceRequest) (hbody : Reads protobufjs body wire)
    (hjson : json.Form (.ofJson j)) (hsame : json.filled = wire.filled)
    (hsized : ∀ s ∈ wire.spans, s.Sized) :
    (∃ os, decodeProtobufTraces protobufjs body = .ok os ∧ decodeJsonTraces j = .ok os) ↔
      wire.resourceSpans ≠ [] ∧ (∀ s ∈ wire.spans, s.Timed) ∧ ∀ s ∈ json.spans, s.Timed := by
  obtain ⟨ms, hdecode, hform, hempty⟩ := hbody
  rw [decodeProtobufTraces, hdecode]
  constructor
  · rintro ⟨os, hproto, hread⟩
    refine ⟨fun hnone => ?_, timed_of_normalize hform hproto, timed_of_normalize hjson hread⟩
    have hfield := (hempty hnone).field
    simp only [normalizeExportRequest, asRecord, hfield] at hproto
    cases hproto
  · rintro ⟨hne, hwire, htimed⟩
    obtain ⟨os, hos⟩ := exists_meaning hsized
    have hmeaning : json.meaning = some os := by
      rw [← json.meaning_filled, hsame, wire.meaning_filled, hos]
    have hlist : json.resourceSpans ≠ [] := by
      intro hnone
      have hlength := congrArg (fun r => r.resourceSpans.length) hsame
      simp only [ExportTraceServiceRequest.filled, List.length_map, hnone, List.length_nil] at hlength
      exact hne (List.length_eq_zero_iff.mp hlength.symm)
    exact ⟨os, normalizeExportRequest_form hform hne hwire hos,
      normalizeExportRequest_form hjson hlist htimed hmeaning⟩

-- ── A span that starts at zero ───────────────────────────────────────────────────

/-- A request of one span, with nothing but its identifiers and times. -/
def oneSpan (startTime : Option UInt64) : ExportTraceServiceRequest :=
  ⟨[⟨none, [⟨[⟨List.replicate 16 1, List.replicate 8 1, [], startTime, some 1, [], [], none⟩]⟩]⟩]⟩

/-- The ids of the one span have their lengths. -/
theorem oneSpan_sized (startTime : Option UInt64) : ∀ s ∈ (oneSpan startTime).spans, s.Sized := by
  intro s hs
  obtain rfl := List.mem_singleton.mp hs
  exact ⟨rfl, rfl⟩

/-- Its bytes, where the start time, if any, is field 7 and the end time field 8. -/
def oneSpanBody (startField : Bytes) : Bytes :=
  let span := 0x0A :: 16 :: List.replicate 16 1 ++ 0x12 :: 8 :: List.replicate 8 1 ++ startField
    ++ [0x41, 1, 0, 0, 0, 0, 0, 0, 0]
  let scope := 0x12 :: UInt8.ofNat span.length :: span
  let resource := 0x12 :: UInt8.ofNat scope.length :: scope
  0x0A :: UInt8.ofNat resource.length :: resource

/-- The span as a JSON exporter may write it, its start time there. -/
def zeroStartSpan : List (JsString × Json) :=
  [(js "traceId", .str (toHex (List.replicate 16 1))), (js "spanId", .str (toHex (List.replicate 8 1))),
   (js "startTimeUnixNano", .str (decimal 0)), (js "endTimeUnixNano", .str (decimal 1))]

/-- A request of one span that starts at zero, in JSON. -/
def zeroStartJson : Json :=
  .obj [(js "resourceSpans", .arr [.obj [(js "scopeSpans", .arr [.obj [(js "spans",
    .arr [.obj zeroStartSpan])]])]])]

/-- It is a form of the request. -/
theorem zeroStartJson_form : (oneSpan (some 0)).Form (.ofJson zeroStartJson) := by
  have hspan : Span.Form ⟨List.replicate 16 1, List.replicate 8 1, [], some 0, some 1, [], [], none⟩
      (.obj (ofJsonMembers zeroStartSpan)) := by
    refine ⟨_, rfl, .inl ⟨_, carries_pair rfl rfl, .inl (by decide)⟩,
      .inl ⟨_, carries_pair rfl rfl, .inl (by decide)⟩, .inr ⟨rfl, rfl⟩,
      carries_pair rfl rfl, carries_pair rfl rfl,
      repeated_of_lookup [] rfl rfl, repeated_of_lookup [] rfl .nil, rfl⟩
  exact ⟨_, rfl, .inl ⟨_, carries_pair rfl rfl, .cons ⟨_, rfl, rfl, .inl ⟨_, carries_pair rfl rfl,
    .cons ⟨_, rfl, .inl ⟨_, ⟨_, List.mem_singleton_self _, rfl, by simp⟩, .cons hspan .nil⟩⟩ .nil⟩⟩
    .nil⟩⟩

/-- A start time of zero that both bodies write is read from both. -/
theorem zeroStart_agrees : ∃ os,
    decodeProtobufTraces (fun _ => .ok (oneSpan (some 0)).toObject)
      (oneSpanBody (0x39 :: List.replicate 8 0)) = .ok os ∧
    decodeJsonTraces zeroStartJson = .ok os := by
  refine (encodings_agree_iff _ _ zeroStartJson (oneSpan (some 0)) (oneSpan (some 0))
    (reads_toObject _ _) zeroStartJson_form rfl (oneSpan_sized _)).mpr
    ⟨List.cons_ne_nil _ _, fun s hs => ?_, fun s hs => ?_⟩
  · obtain rfl := List.mem_singleton.mp hs
    exact ⟨rfl, rfl⟩
  · obtain rfl := List.mem_singleton.mp hs
    exact ⟨rfl, rfl⟩

/-- **A start time of zero is read from JSON and refused from the bytes a serializer makes**, which
    leaves it out. -/
theorem zeroStart_disagrees : ¬ ∀ (protobufjs : Bytes → Except JsString Plain) (body : Bytes) (j : Json)
    (wire json : ExportTraceServiceRequest), Reads protobufjs body wire → json.Form (.ofJson j) →
    json.filled = wire.filled → (∀ s ∈ wire.spans, s.Sized) →
    ∃ os, decodeProtobufTraces protobufjs body = .ok os ∧ decodeJsonTraces j = .ok os := by
  intro h
  have hread := reads_toObject (oneSpanBody []) (oneSpan none)
  obtain ⟨os, hproto, -⟩ := h _ _ zeroStartJson (oneSpan none) (oneSpan (some 0)) hread
    zeroStartJson_form rfl (oneSpan_sized _)
  have htimed := timed_of_normalize (oneSpan none).form_toObject hproto
  exact Bool.false_ne_true (htimed _ (List.mem_singleton_self _)).1

end Otlp
