import Sigillo.FilterAgreement
import Sigillo.PythonText

/-!
# Three makers of one digest

What an attribute's text becomes before it leaves the agent's process: in Python, in TypeScript, and
in the core the verifier uses.

* TypeScript's makers are the core's for every string (**`hashContentValue_core`**,
  **`saltedHashContentValue_core`**);
* Python's are too where the text holds no half of a surrogate pair, and raise where it does
  (**`Python.hashContentValue_eq`**, **`Python.hashContentValue_eq_error`**);
* what is raised for one span ends the export of its batch (**`Python.spared_iff`**);
* both together are **`digestMakers_agree_iff`**. -/

namespace Sigillo

open DoubleArith Utf16Text JsonText HexBase64

variable (c : Crypto)

/-- `hashCanonicalJson`. -/
def hashCanonicalJson (value : Json) : Except AppendError (Hex 64) :=
  (canonicalBytesOf value).map c.sha256Hex

end Sigillo

namespace Sdk

open DoubleArith Utf16Text JsonText HexBase64 Sigillo Fallible PythonText

variable (c : Crypto)

-- ── In TypeScript ────────────────────────────────────────────────────────────────

/-- A key of the customer's as it is handed over. -/
inductive KeyInput (Text : Type) where
  | text (s : Text)
  | bytes (b : Bytes)

/-- `Buffer.from(key, "utf8")`, or the bytes themselves. -/
def KeyInput.toBytes : KeyInput JsString → Bytes
  | .text s => utf8Encode s
  | .bytes b => b

/-- `update(text, "ascii")`: the low byte of each unit. -/
def asciiBytes (s : JsString) : Bytes := s.map UInt16.toUInt8

/-- `nonceFor` of a key and names that are yet to be checked. -/
def nonceForInput (customerKey : KeyInput JsString) (traceId spanId role : JsString) :
    Except JsString (Hex 64) :=
  let key := customerKey.toBytes
  if key.length = 0 then .error (js "customerKey must not be empty")
  else if ¬ IsHex 32 traceId ∨ ¬ IsHex 16 spanId then
    .error (js "traceId and spanId are 32 and " ++ js "16 lowercase hex characters, "
      ++ js "as in the receipt's source")
  else if role ≠ js "input" ∧ role ≠ js "output" then .error (js "role is \"input\" or \"output\"")
  else .ok (Digest.hex (hmacSha256 c key (asciiBytes
    (js "sigillo-nonce-v1\n" ++ traceId ++ 0x0A :: spanId ++ 0x0A :: role))))

/-- **TypeScript's digest of a string is the core's.** -/
theorem hashContentValue_core (value : JsString) :
    hashCanonicalJson c (.str value) = .ok (hashContentValue c value) := rfl

/-- The digest of the export is the one the server makes. -/
theorem saltedHashContentValue_core (value : JsString) (nonce : Nonce) :
    saltedDigest c nonce (.str value) = .ok (saltedHashContentValue c value nonce) := rfl

-- ── In Python ────────────────────────────────────────────────────────────────────

namespace Python

/-- `_hash_content_value`. -/
def hashContentValue (value : Str) : Except Raised (Hex 64) :=
  (encode (dumps value.1)).map c.sha256Hex

/-- `_salted_hash_content_value`. -/
def saltedHashContentValue (value : Str) (nonce : Bytes) : Except Raised (Hex 64) :=
  (encode (dumps value.1)).map fun bytes => c.sha256Hex (nonce ++ bytes)

/-- `re.compile(r"[0-9a-f]{n}").fullmatch(s)`. -/
def fullmatchHex (n : ℕ) (s : List ℕ) : Bool :=
  s.length == n && s.all fun cp => decide ((0x30 ≤ cp ∧ cp ≤ 0x39) ∨ (0x61 ≤ cp ∧ cp ≤ 0x66))

/-- The code points a source literal denotes. -/
def literal (s : String) : Str := Str.ofUnits (js s)

/-- The bytes of a key of either type. -/
def keyBytes : KeyInput Str → Except Raised Bytes
  | .text s => encode s.1
  | .bytes b => .ok b

/-- `nonce_for`. -/
def nonceFor (customerKey : KeyInput Str) (traceId spanId role : Str) : Except Raised (Hex 64) := do
  let key ← keyBytes customerKey
  if key = [] then .error (.valueError (js "customer_key must not be empty"))
  else if ¬ fullmatchHex 32 traceId.1 ∨ ¬ fullmatchHex 16 spanId.1 then
    .error (.valueError (js "trace_id and span_id are 32 and " ++ js "16 lowercase hex characters, "
      ++ js "as in the receipt's source"))
  else if role ≠ literal "input" ∧ role ≠ literal "output" then
    .error (.valueError (js "role is \"input\" or \"output\""))
  else do
    let message ← encodeAscii
      ((literal "sigillo-nonce-v1\n").1 ++ traceId.1 ++ 0x0A :: spanId.1 ++ 0x0A :: role.1)
    .ok (Digest.hex (hmacSha256 c key message))

variable {c}

/-- **Python's digest of a text without a surrogate is TypeScript's.** -/
theorem hashContentValue_eq {value : Str} (h : value.Encodable) :
    hashContentValue c value = .ok (Sdk.hashContentValue c value.units) := by
  rw [hashContentValue, encode_dumps h]
  rfl

/-- **Of a text with a surrogate Python makes none.** -/
theorem hashContentValue_eq_error {value : Str} (h : ¬ value.Encodable) :
    hashContentValue c value = .error .unicodeEncodeError := by
  rw [hashContentValue, encode_dumps_eq_error h]
  rfl

/-- **Both exporters make one digest** of a text that can be encoded. -/
theorem saltedHashContentValue_eq {value : Str} (h : value.Encodable) (nonce : Nonce) :
    saltedHashContentValue c value nonce.1 = .ok (Sdk.saltedHashContentValue c value.units nonce) := by
  rw [saltedHashContentValue, encode_dumps h]
  rfl

/-- A text that cannot be encoded raises. -/
theorem saltedHashContentValue_eq_error {value : Str} (h : ¬ value.Encodable) (nonce : Bytes) :
    saltedHashContentValue c value nonce = .error .unicodeEncodeError := by
  rw [saltedHashContentValue, encode_dumps_eq_error h]
  rfl

-- ── ASCII ────────────────────────────────────────────────────────────────────────

/-- ASCII text is the same numbers as code points and as code units. -/
theorem points_of_ascii {s : JsString} (h : ∀ u ∈ s, u.toNat < 0x80) :
    points s = s.map UInt16.toNat := by
  have hunits : (s.map UInt16.toNat).flatMap unitsOf = s := by
    rw [List.flatMap_map]
    induction s with
    | nil => rfl
    | cons u rest ih =>
        rw [List.flatMap_cons, unitsOf_toNat, ih fun v hv => h v (List.mem_cons_of_mem _ hv)]
        rfl
  have hpoints : points ((s.map UInt16.toNat).flatMap unitsOf) = s.map UInt16.toNat := by
    refine points_flatMap_unitsOf fun cp hcp => ?_
    obtain ⟨u, hu, rfl⟩ := List.mem_map.mp hcp
    have hlt := h u hu
    refine ⟨by omega, ?_⟩
    rw [← Bool.not_eq_true, isSurrogate_iff]
    omega
  rwa [hunits] at hpoints

/-- ASCII is encoded byte by byte. -/
theorem encodeAscii_units {s : JsString} (h : ∀ u ∈ s, u.toNat < 0x80) :
    encodeAscii (s.map UInt16.toNat) = .ok (asciiBytes s) := by
  have hlt : ∀ cp ∈ s.map UInt16.toNat, cp < 0x80 := by
    intro cp hcp
    obtain ⟨u, hu, rfl⟩ := List.mem_map.mp hcp
    exact h u hu
  rw [encodeAscii_of_ascii hlt, List.map_map]
  rfl

/-- Hexadecimal digits are ASCII. -/
theorem ascii_of_isHex {n : ℕ} {s : JsString} (h : IsHex n s) : ∀ u ∈ s, u.toNat < 0x80 := by
  intro u hu
  have hdigit := of_decide_eq_true (h.2 u hu)
  omega

/-- A role's name is ASCII. -/
theorem ascii_roleName (role : ArtifactRole) : ∀ u ∈ role.name, u.toNat < 0x80 := by
  cases role with
  | input => decide
  | output => decide

/-- Digits match the pattern of digits. -/
theorem fullmatchHex_points {n : ℕ} (s : Hex n) : fullmatchHex n (points s.1) = true := by
  rw [fullmatchHex, points_of_ascii (ascii_of_isHex s.2), List.length_map, s.2.1, beq_self_eq_true,
    Bool.true_and, List.all_eq_true]
  intro cp hcp
  obtain ⟨u, hu, rfl⟩ := List.mem_map.mp hcp
  exact s.2.2 u hu

-- ── The nonce of a customer's key ────────────────────────────────────────────────

/-- A key of the customer's own: `init` takes no empty one. -/
abbrev GivenKey := {key : KeyInput Str // key ≠ .text ⟨[], fun _ h => nomatch h⟩ ∧ key ≠ .bytes []}

/-- What a nonce is made of: a customer's key, and names as a receipt's source has them. -/
structure NonceRequest where
  key : GivenKey
  traceId : Hex 32
  spanId : Hex 16
  role : ArtifactRole

/-- A key that can be encoded. -/
def KeyEncodable : KeyInput Str → Prop
  | .text s => s.Encodable
  | .bytes _ => True

/-- The key as TypeScript is given it. -/
def keyUnits : KeyInput Str → KeyInput JsString
  | .text s => .text s.units
  | .bytes b => .bytes b

/-- `nonce_for` of a request. -/
def NonceRequest.made (c : Crypto) (r : NonceRequest) : Except Raised (Hex 64) :=
  nonceFor c r.key.1 (Str.ofUnits r.traceId.1) (Str.ofUnits r.spanId.1) (Str.ofUnits r.role.name)

/-- Both exporters read the same bytes of a key. -/
theorem keyBytes_eq {key : KeyInput Str} (h : KeyEncodable key) :
    keyBytes key = .ok (keyUnits key).toBytes := by
  cases key with
  | text s => exact encode_eq_utf8Encode h
  | bytes b => rfl

/-- A key that was accepted has a byte. -/
theorem toBytes_ne_nil {key : GivenKey} (h : KeyEncodable key.1) : (keyUnits key.1).toBytes ≠ [] := by
  obtain ⟨key, hgiven⟩ := key
  cases key with
  | bytes b =>
      rintro rfl
      exact hgiven.2 rfl
  | text s =>
      obtain ⟨s, hs⟩ := s
      intro hnil
      have hencode := encode_eq_utf8Encode h
      rw [encode_of_scalar h] at hencode
      have hflat : s.flatMap encodePoint = [] := (Except.ok.inj hencode).trans hnil
      cases s with
      | nil => exact hgiven.1 rfl
      | cons cp rest =>
          rw [List.flatMap_cons] at hflat
          exact encodePoint_ne_nil cp (List.append_eq_nil_iff.mp hflat).1

/-- The two names of a role. -/
theorem roleName_known (role : ArtifactRole) : role.name = js "input" ∨ role.name = js "output" := by
  cases role with
  | input => exact .inl rfl
  | output => exact .inr rfl

/-- What the nonce is a MAC of. -/
def NonceRequest.message (r : NonceRequest) : JsString :=
  js "sigillo-nonce-v1\n" ++ r.traceId.1 ++ 0x0A :: r.spanId.1 ++ 0x0A :: r.role.name

/-- What a nonce is made of is ASCII. -/
theorem message_ascii (r : NonceRequest) : ∀ u ∈ r.message, u.toNat < 0x80 := by
  intro u hu
  simp only [NonceRequest.message, List.append_assoc, List.mem_append, List.cons_append,
    List.mem_cons] at hu
  rcases hu with hu | hu | rfl | hu | rfl | hu
  · have hliteral : ∀ u ∈ js "sigillo-nonce-v1\n", u.toNat < 0x80 := by decide
    exact hliteral u hu
  · exact ascii_of_isHex r.traceId.2 u hu
  · decide
  · exact ascii_of_isHex r.spanId.2 u hu
  · decide
  · exact ascii_roleName r.role u hu

/-- The message as Python puts it together. -/
theorem points_message (r : NonceRequest) :
    (literal "sigillo-nonce-v1\n").1 ++ points r.traceId.1 ++ 0x0A :: points r.spanId.1
      ++ 0x0A :: points r.role.name = r.message.map UInt16.toNat := by
  show points (js "sigillo-nonce-v1\n") ++ points r.traceId.1 ++ UInt16.toNat 0x0A :: points r.spanId.1
    ++ UInt16.toNat 0x0A :: points r.role.name = _
  rw [points_of_ascii (by decide), points_of_ascii (ascii_of_isHex r.traceId.2),
    points_of_ascii (ascii_of_isHex r.spanId.2), points_of_ascii (ascii_roleName r.role),
    NonceRequest.message, List.map_append, List.map_append, List.map_append, List.map_cons, List.map_cons]

/-- The nonce that is asked for. -/
def NonceRequest.nonce (c : Crypto) (r : NonceRequest) : Hex 64 :=
  Digest.hex (hmacSha256 c (keyUnits r.key.1).toBytes (asciiBytes r.message))

/-- **Both exporters make one nonce** of a key that can be encoded. -/
theorem nonceForInput_eq (r : NonceRequest) (h : KeyEncodable r.key.1) :
    nonceForInput c (keyUnits r.key.1) r.traceId.1 r.spanId.1 r.role.name = .ok (r.nonce c) := by
  have hkey := toBytes_ne_nil h
  rw [nonceForInput, if_neg (by rwa [List.length_eq_zero_iff]),
    if_neg (not_or.mpr ⟨not_not.mpr r.traceId.2, not_not.mpr r.spanId.2⟩), if_neg]
  · rfl
  · intro hrole
    exact (roleName_known r.role).elim hrole.1 hrole.2

/-- **The nonce of a key that can be written in UTF-8 is TypeScript's.** -/
theorem made_eq (r : NonceRequest) (h : KeyEncodable r.key.1) : r.made c = .ok (r.nonce c) := by
  rw [NonceRequest.made, nonceFor, keyBytes_eq h, ok_bind, if_neg (toBytes_ne_nil h),
    if_neg, if_neg]
  · show (encodeAscii ((literal "sigillo-nonce-v1\n").1 ++ points r.traceId.1
      ++ 0x0A :: points r.spanId.1 ++ 0x0A :: points r.role.name) >>= _) = _
    rw [points_message, encodeAscii_units (message_ascii r), ok_bind]
    rfl
  · rintro ⟨hinput, houtput⟩
    rcases roleName_known r.role with hrole | hrole
    · exact hinput (congrArg Str.ofUnits hrole)
    · exact houtput (congrArg Str.ofUnits hrole)
  · rintro (htrace | hspan)
    · exact htrace (fullmatchHex_points r.traceId)
    · exact hspan (fullmatchHex_points r.spanId)

/-- A key with a surrogate has no bytes, so no nonce is made of it. -/
theorem made_eq_error (r : NonceRequest) (h : ¬ KeyEncodable r.key.1) :
    r.made c = .error .unicodeEncodeError := by
  obtain ⟨⟨key, hgiven⟩, traceId, spanId, role⟩ := r
  cases key with
  | bytes b => exact absurd trivial h
  | text s =>
      rw [NonceRequest.made, nonceFor, keyBytes, encode_eq_error (exists_surrogate h)]
      rfl

-- ── A batch of spans ─────────────────────────────────────────────────────────────

/-- A text, or a value the filter only hands on. -/
inductive Value (Other : Type) where
  | str (s : Str)
  | other (v : Other)

/-- The attributes of a span, in the order they were set. -/
abbrev Attributes (Other : Type) := List (Str × Value Other)

/-- An event of a span. -/
structure Event (Other : Type) where
  name : Str
  attributes : Attributes Other
  timestamp : ℤ

/-- OpenTelemetry's span, with what the filter hands on as it is. -/
structure Span (Other Rest : Type) where
  attributes : Attributes Other
  events : List (Event Other)
  /-- The ids of its context. -/
  ids : Option (Hex 32 × Hex 16)
  statusDescription : Option Str
  rest : Rest

/-- The options of the filter. -/
structure Options where
  salt : Bool
  customerKey : Option GivenKey

variable (c) {Other Rest : Type}

/-- The digest of a content and, where it is salted with a drawn nonce, the nonce. -/
def contentDigest (options : Options) (fresh : ArtifactRole → Nonce) (ids : Option (Hex 32 × Hex 16))
    (role : ArtifactRole) (value : Str) : Except Raised (Hex 64 × Option Str) :=
  match options.customerKey, ids with
  | some key, some (traceId, spanId) => do
      let nonce ← NonceRequest.made c ⟨key, traceId, spanId, role⟩
      (saltedHashContentValue c value (fromHex nonce.1)).map fun digest =>
        (digest, some (Str.ofUnits NONCE_KEPT_BY_CUSTOMER))
  | _, _ =>
      if options.salt then
        (saltedHashContentValue c value (fresh role).1).map fun digest =>
          (digest, some (Str.ofUnits (toHex (fresh role).1)))
      else (hashContentValue c value).map fun digest => (digest, none)

/-- The attribute of a role's digest. -/
def digestName (role : ArtifactRole) : Str := Str.ofUnits (DIGEST_ATTRIBUTE role)

/-- The attribute of a role's nonce. -/
def nonceName (role : ArtifactRole) : Str := Str.ofUnits (NONCE_ATTRIBUTE role)

/-- A digest and its nonce are set. -/
def setDigest (kept : Attributes Other) (role : ArtifactRole) (made : Hex 64 × Option Str) :
    Attributes Other :=
  let withDigest := AssocList.set kept (digestName role) (.str (Str.ofUnits made.1.1))
  match made.2 with
  | some nonce => AssocList.set withDigest (nonceName role) (.str nonce)
  | none => withDigest

/-- One attribute: kept, digested or dropped. -/
def filteredAttribute (digest : ArtifactRole → Str → Except Raised (Hex 64 × Option Str))
    (kept : Attributes Other) (entry : Str × Value Other) : Except Raised (Attributes Other) :=
  match CONTENT_ATTRIBUTES.lookup entry.1.units with
  | some role =>
      match entry.2 with
      | .str value =>
          if (kept.lookup (digestName role)).isSome then .ok kept
          else (digest role value).map (setDigest kept role)
      | .other _ => .ok kept
  | none => .ok (if entry.1.units ∈ KEEP_ATTRIBUTES then AssocList.set kept entry.1 entry.2 else kept)

/-- `_filtered_attributes`. -/
def filteredAttributes (attributes : Attributes Other) (options : Options) (fresh : ArtifactRole → Nonce)
    (ids : Option (Hex 32 × Hex 16)) : Except Raised (Attributes Other) :=
  attributes.foldlM (filteredAttribute (contentDigest c options fresh ids)) []

/-- `_filtered_event`. -/
def filteredEvent (event : Event Other) : Event Other :=
  if event.name ≠ literal "exception" then event
  else { event with attributes := event.attributes.filter fun entry => entry.1 == literal "exception.type" }

/-- `_filtered_span`. -/
def filteredSpan (options : Options) (span : Span Other Rest) (fresh : ArtifactRole → Nonce) :
    Except Raised (Span Other Rest) :=
  (filteredAttributes c span.attributes options fresh span.ids).map fun attributes =>
    { span with attributes, events := span.events.map filteredEvent, statusDescription := none }

/-- The spans `_ContentFilteringExporter.export` hands on, with the nonces each would draw. -/
def exported (options : Options) (spans : List (Span Other Rest × (ArtifactRole → Nonce))) :
    Except Raised (List (Span Other Rest)) :=
  spans.mapM fun drawn => filteredSpan c options drawn.1 drawn.2

-- ── What ends an export ──────────────────────────────────────────────────────────

/-- The text whose digest stands for the content of a role: the first there is. -/
def digested (role : ArtifactRole) (attributes : Attributes Other) : Option Str :=
  attributes.findSome? fun entry =>
    if CONTENT_ATTRIBUTES.lookup entry.1.units = some role then
      match entry.2 with
      | .str value => some value
      | .other _ => none
    else none

/-- Every text of the span that is digested can be written in UTF-8, and so can the key. -/
def Span.Encodable (options : Options) (span : Span Other Rest) : Prop :=
  ∀ role value, digested role span.attributes = some value →
    value.Encodable ∧ (span.ids.isSome → ∀ key, options.customerKey = some key → KeyEncodable key.1)

/-- No span of the batch costs another: what can be filtered by itself is handed on. -/
def Spared (options : Options) (spans : List (Span Other Rest × (ArtifactRole → Nonce))) : Prop :=
  ∀ drawn ∈ spans, ∀ f, filteredSpan c options drawn.1 drawn.2 = .ok f →
    ∃ out, exported c options spans = .ok out ∧ f ∈ out

variable {c}

/-- A content has its digest exactly if it can be encoded. -/
theorem contentDigest_ok_iff {options : Options} {fresh : ArtifactRole → Nonce}
    {ids : Option (Hex 32 × Hex 16)} {role : ArtifactRole} {value : Str} :
    (∃ made, contentDigest c options fresh ids role value = .ok made) ↔
      value.Encodable ∧ (ids.isSome → ∀ key, options.customerKey = some key → KeyEncodable key.1) := by
  obtain ⟨salt, customerKey⟩ := options
  have hplain : (∃ made, (if salt = true then
        (saltedHashContentValue c value (fresh role).1).map fun digest =>
          (digest, some (Str.ofUnits (toHex (fresh role).1)))
      else (hashContentValue c value).map fun digest => (digest, none)) = .ok made) ↔ value.Encodable := by
    by_cases hvalue : value.Encodable
    · refine ⟨fun _ => hvalue, fun _ => ?_⟩
      cases salt with
      | true => exact ⟨_, by rw [if_pos rfl, saltedHashContentValue_eq hvalue]; rfl⟩
      | false => exact ⟨_, by rw [if_neg Bool.false_ne_true, hashContentValue_eq hvalue]; rfl⟩
    · refine ⟨fun h => ?_, fun h => absurd h hvalue⟩
      obtain ⟨made, h⟩ := h
      rw [saltedHashContentValue_eq_error hvalue, hashContentValue_eq_error hvalue] at h
      cases salt with
      | true => cases h
      | false => cases h
  cases customerKey with
  | none =>
      refine hplain.trans ⟨fun h => ⟨h, fun _ key hkey => ?_⟩, And.left⟩
      cases hkey
  | some key =>
      cases ids with
      | none =>
          refine hplain.trans ⟨fun h => ⟨h, fun hids => ?_⟩, And.left⟩
          cases hids
      | some ids =>
          show (∃ made, (NonceRequest.made c ⟨key, ids.1, ids.2, role⟩ >>= fun nonce =>
            (saltedHashContentValue c value (fromHex nonce.1)).map fun digest =>
              (digest, some (Str.ofUnits NONCE_KEPT_BY_CUSTOMER))) = .ok made) ↔ _
          by_cases hkey : KeyEncodable key.1
          · rw [made_eq _ hkey, ok_bind]
            by_cases hvalue : value.Encodable
            · refine ⟨fun _ => ⟨hvalue, fun _ k hk => ?_⟩, fun _ => ?_⟩
              · obtain rfl := Option.some.inj hk
                exact hkey
              · rw [saltedHashContentValue, encode_dumps hvalue]
                exact ⟨_, rfl⟩
            · refine ⟨fun h => ?_, fun h => absurd h.1 hvalue⟩
              obtain ⟨made, h⟩ := h
              rw [saltedHashContentValue_eq_error hvalue] at h
              cases h
          · rw [made_eq_error _ hkey]
            refine ⟨fun h => ?_, fun h => absurd (h.2 rfl key rfl) hkey⟩
            obtain ⟨made, h⟩ := h
            cases h

/-- Text of either language is told apart alike. -/
theorem ofUnits_injective : Function.Injective Str.ofUnits := fun s t h => by
  rw [← units_ofUnits s, h, units_ofUnits]

/-- A digest's name is no nonce's. -/
theorem digestName_ne_nonceName (r role : ArtifactRole) : digestName r ≠ nonceName role := by
  intro h
  have h : DIGEST_ATTRIBUTE r = NONCE_ATTRIBUTE role := ofUnits_injective h
  cases r <;> cases role <;> simp [DIGEST_ATTRIBUTE, NONCE_ATTRIBUTE] at h

/-- Each role has its own. -/
theorem digestName_injective : Function.Injective digestName := fun r role h => by
  have h : DIGEST_ATTRIBUTE r = DIGEST_ATTRIBUTE role := ofUnits_injective h
  cases r <;> cases role <;> simp [DIGEST_ATTRIBUTE] at h ⊢

/-- What is kept of other attributes never takes the place of a digest. -/
theorem ne_digestName {key : Str} (h : key.units ∈ KEEP_ATTRIBUTES) (role : ArtifactRole) :
    digestName role ≠ key := by
  rintro rfl
  rw [digestName, units_ofUnits] at h
  revert h
  cases role with
  | input => decide
  | output => decide

/-- Setting a digest sets its own name. -/
theorem lookup_setDigest (kept : Attributes Other) (r role : ArtifactRole) (made : Hex 64 × Option Str) :
    (setDigest kept role made).lookup (digestName r) = none ↔
      r ≠ role ∧ kept.lookup (digestName r) = none := by
  have hset : (AssocList.set kept (digestName role) (.str (Str.ofUnits made.1.1))).lookup (digestName r)
      = none ↔ r ≠ role ∧ kept.lookup (digestName r) = none := by
    rw [AssocList.lookup_set]
    by_cases hr : r = role
    · subst hr
      simp
    · rw [beq_false_of_ne fun h => hr (digestName_injective h)]
      simp [hr]
  rw [setDigest]
  cases made.2 with
  | none => exact hset
  | some nonce =>
      show (AssocList.set _ _ _).lookup _ = none ↔ _
      rw [AssocList.lookup_set, beq_false_of_ne (digestName_ne_nonceName r role)]
      exact hset

/-- **The fold comes to its end** exactly where every digest it makes can be made: of each role that
    has none yet, the first text. -/
theorem foldlM_ok_iff {digest : ArtifactRole → Str → Except Raised (Hex 64 × Option Str)}
    (entries kept : Attributes Other) :
    (∃ out, entries.foldlM (filteredAttribute digest) kept = .ok out) ↔
      ∀ role, kept.lookup (digestName role) = none → ∀ value, digested role entries = some value →
        ∃ made, digest role value = .ok made := by
  induction entries generalizing kept with
  | nil =>
      refine ⟨fun _ role _ value hvalue => ?_, fun _ => ⟨kept, rfl⟩⟩
      cases hvalue
  | cons entry rest ih =>
      rw [List.foldlM_cons]
      -- an entry that makes no digest leaves the digests made, and the texts to come, as they are
      have hskip : ∀ next : Attributes Other, filteredAttribute digest kept entry = .ok next →
          (∀ role, next.lookup (digestName role) = none ↔ kept.lookup (digestName role) = none) →
          (∀ role, kept.lookup (digestName role) = none → digested role (entry :: rest) = digested role rest) →
          ((∃ out, (filteredAttribute digest kept entry >>= fun next =>
              rest.foldlM (filteredAttribute digest) next) = .ok out) ↔
            ∀ role, kept.lookup (digestName role) = none → ∀ value,
              digested role (entry :: rest) = some value → ∃ made, digest role value = .ok made) := by
        intro next hnext hkept hrest
        rw [hnext, ok_bind, ih]
        constructor
        · intro h role hrole value hvalue
          exact h role ((hkept role).mpr hrole) value (hrest role hrole ▸ hvalue)
        · intro h role hrole value hvalue
          have hrole := (hkept role).mp hrole
          exact h role hrole value ((hrest role hrole).trans hvalue)
      obtain ⟨key, value⟩ := entry
      cases hcontent : CONTENT_ATTRIBUTES.lookup key.units with
      | none =>
          refine hskip (if key.units ∈ KEEP_ATTRIBUTES then AssocList.set kept key value else kept) ?_ ?_ ?_
          · rw [filteredAttribute, hcontent]
          · intro role
            by_cases hkeep : key.units ∈ KEEP_ATTRIBUTES
            · rw [if_pos hkeep, AssocList.lookup_set, beq_false_of_ne (ne_digestName hkeep role)]
              rfl
            · rw [if_neg hkeep]
          · intro role _
            rw [digested, List.findSome?_cons, hcontent]
            rfl
      | some role =>
          cases value with
          | other v =>
              refine hskip kept (by rw [filteredAttribute, hcontent]) (fun _ => Iff.rfl) fun r _ => ?_
              rw [digested, List.findSome?_cons, hcontent]
              by_cases hr : some role = some r
              · rw [if_pos hr]
                rfl
              · rw [if_neg hr]
                rfl
          | str text =>
              by_cases hseen : (kept.lookup (digestName role)).isSome
              · refine hskip kept (by rw [filteredAttribute, hcontent]; exact if_pos hseen)
                  (fun _ => Iff.rfl) fun r hr => ?_
                have hne : ¬ some role = some r := by
                  rintro h
                  obtain rfl := Option.some.inj h
                  rw [hr] at hseen
                  cases hseen
                rw [digested, List.findSome?_cons, hcontent, if_neg hne]
                rfl
              · have hstep : filteredAttribute digest kept (key, .str text)
                    = (digest role text).map (setDigest kept role) := by
                  rw [filteredAttribute, hcontent]
                  exact if_neg hseen
                have hnone : kept.lookup (digestName role) = none := by
                  rwa [Option.isSome_iff_ne_none, not_not] at hseen
                have hfirst : digested role ((key, .str text) :: rest) = some text := by
                  rw [digested, List.findSome?_cons, hcontent, if_pos rfl]
                have hothers : ∀ r, r ≠ role → digested r ((key, .str text) :: rest) = digested r rest := by
                  intro r hr
                  rw [digested, List.findSome?_cons, hcontent, if_neg fun h => hr (Option.some.inj h).symm]
                  rfl
                rw [hstep]
                cases hmade : digest role text with
                | error e =>
                    refine ⟨fun h => ?_, fun h => ?_⟩
                    · obtain ⟨out, h⟩ := h
                      cases h
                    · obtain ⟨made, h⟩ := h role hnone text hfirst
                      rw [hmade] at h
                      cases h
                | ok made =>
                    show (∃ out, rest.foldlM (filteredAttribute digest) (setDigest kept role made) = .ok out) ↔ _
                    rw [ih]
                    constructor
                    · intro h r hr value hvalue
                      by_cases hrole : r = role
                      · subst hrole
                        obtain rfl := Option.some.inj (hfirst.symm.trans hvalue)
                        exact ⟨made, hmade⟩
                      · exact h r ((lookup_setDigest kept r role made).mpr ⟨hrole, hr⟩) value
                          (hothers r hrole ▸ hvalue)
                    · intro h r hr value hvalue
                      obtain ⟨hrole, hr⟩ := (lookup_setDigest kept r role made).mp hr
                      exact h r hr value ((hothers r hrole).trans hvalue)

/-- **A span is filtered exactly if what is digested can be encoded.** -/
theorem filteredSpan_ok_iff {options : Options} {span : Span Other Rest} {fresh : ArtifactRole → Nonce} :
    (∃ f, filteredSpan c options span fresh = .ok f) ↔ span.Encodable options := by
  have hfold := @foldlM_ok_iff _ (contentDigest c options fresh span.ids) span.attributes []
  have hmap : (∃ f, filteredSpan c options span fresh = .ok f) ↔
      ∃ out, filteredAttributes c span.attributes options fresh span.ids = .ok out := by
    constructor
    · rintro ⟨f, h⟩
      obtain ⟨out, hout, -⟩ := map_eq_ok.mp h
      exact ⟨out, hout⟩
    · rintro ⟨out, h⟩
      exact ⟨_, map_eq_ok.mpr ⟨out, h, rfl⟩⟩
  rw [hmap]
  refine hfold.trans ⟨fun h role value hvalue => ?_, fun h role _ value hvalue => ?_⟩
  · exact contentDigest_ok_iff.mp (h role rfl value hvalue)
  · exact contentDigest_ok_iff.mpr (h role value hvalue)

/-- **One span's text ends the export of every other**: none is lost exactly where all can be
    filtered, or none can. -/
theorem spared_iff {options : Options} {spans : List (Span Other Rest × (ArtifactRole → Nonce))} :
    Spared c options spans ↔
      (∀ drawn ∈ spans, drawn.1.Encodable options) ∨ ∀ drawn ∈ spans, ¬ drawn.1.Encodable options := by
  constructor
  · intro h
    by_cases hany : ∃ drawn ∈ spans, drawn.1.Encodable options
    · obtain ⟨drawn, hdrawn, hencodable⟩ := hany
      obtain ⟨f, hf⟩ : ∃ f, filteredSpan c options drawn.1 drawn.2 = .ok f :=
        filteredSpan_ok_iff.mpr hencodable
      obtain ⟨out, hout, -⟩ := h drawn hdrawn f hf
      refine .inl fun other hother => ?_
      exact filteredSpan_ok_iff.mp (exists_of_mapM hout hother)
    · exact .inr fun drawn hdrawn hencodable => hany ⟨drawn, hdrawn, hencodable⟩
  · rintro (hall | hnone) drawn hdrawn f hf
    · have hfiltered : ∀ drawn ∈ spans, ∃ f, filteredSpan c options drawn.1 drawn.2 = .ok f :=
        fun drawn hdrawn => filteredSpan_ok_iff.mpr (hall drawn hdrawn)
      obtain ⟨out, hout⟩ := exists_mapM_iff.mpr hfiltered
      refine ⟨out, hout, ?_⟩
      obtain ⟨g, hg, hgf⟩ := mem_of_mapM hout hdrawn
      obtain rfl := Except.ok.inj (hgf.symm.trans hf)
      exact hg
    · exact absurd (filteredSpan_ok_iff.mp ⟨f, hf⟩) (hnone drawn hdrawn)

end Python

-- ── One digest ───────────────────────────────────────────────────────────────────

open Python (NonceRequest KeyEncodable keyUnits Options Span Spared)

/-- The makers return, and return the same: for a text and a nonce, and for the names a nonce of the
    customer's is made of. -/
structure MakersAgree (value : Str) (nonce : Nonce) (request : NonceRequest) : Prop where
  hashed : ∃ digest, Python.hashContentValue c value = .ok digest
    ∧ hashContentValue c value.units = digest ∧ hashCanonicalJson c (.str value.units) = .ok digest
  salted : ∃ digest, Python.saltedHashContentValue c value nonce.1 = .ok digest
    ∧ saltedHashContentValue c value.units nonce = digest
    ∧ saltedDigest c nonce (.str value.units) = .ok digest
  nonces : ∃ made, request.made c = .ok made
    ∧ nonceForInput c (keyUnits request.key.1) request.traceId.1 request.spanId.1 request.role.name = .ok made

/-- **The makers agree** exactly on text, and under keys, that hold no half of a surrogate pair; and
    one span costs the others of its batch exactly where it holds such text and another does not. -/
theorem digestMakers_agree_iff (c : Crypto) :
    (∀ value nonce request, MakersAgree c value nonce request ↔
      value.Encodable ∧ KeyEncodable request.key.1) ∧
    ∀ (Other Rest : Type) (options : Options) (spans : List (Span Other Rest × (ArtifactRole → Nonce))),
      Spared c options spans ↔
        (∀ drawn ∈ spans, drawn.1.Encodable options) ∨ ∀ drawn ∈ spans, ¬ drawn.1.Encodable options := by
  refine ⟨fun value nonce request => ⟨fun h => ⟨?_, ?_⟩, fun h => ?_⟩, fun Other Rest options spans => Python.spared_iff⟩
  · by_contra hvalue
    obtain ⟨digest, hdigest, -⟩ := h.hashed
    rw [Python.hashContentValue_eq_error hvalue] at hdigest
    cases hdigest
  · by_contra hkey
    obtain ⟨made, hmade, -⟩ := h.nonces
    rw [Python.made_eq_error request hkey] at hmade
    cases hmade
  · obtain ⟨hvalue, hkey⟩ := h
    exact {
      hashed := ⟨_, Python.hashContentValue_eq hvalue, rfl, hashContentValue_core c value.units⟩
      salted := ⟨_, Python.saltedHashContentValue_eq hvalue nonce, rfl,
        saltedHashContentValue_core c value.units nonce⟩
      nonces := ⟨_, Python.made_eq request hkey, Python.nonceForInput_eq request hkey⟩ }

/-- Half of a surrogate pair, as a model's answer cut in two may leave it. -/
def loneSurrogate : Str := ⟨[0xD800], by decide⟩

/-- A lone surrogate cannot be encoded. -/
theorem not_encodable_loneSurrogate : ¬ loneSurrogate.Encodable := by decide

/-- A span with one input. -/
def inputSpan (value : Str) : Span Empty Unit :=
  ⟨[(Python.literal "input.value", .str value)], [], none, none, ()⟩

/-- A span of one content can be encoded exactly if the content can. -/
theorem encodable_inputSpan {options : Options} {value : Str} (hkey : options.customerKey = none) :
    (inputSpan value).Encodable options ↔ value.Encodable := by
  have hdigested : Python.digested .input (inputSpan value).attributes = some value := by
    show List.findSome? _ [(Python.literal "input.value", Python.Value.str value)] = _
    rw [List.findSome?_cons, Python.literal, units_ofUnits, if_pos (by decide)]
  constructor
  · intro h
    exact (h .input value hdigested).1
  · intro h role text htext
    refine ⟨?_, fun _ key hsome => ?_⟩
    · cases role with
      | input =>
          obtain rfl := Option.some.inj (hdigested.symm.trans htext)
          exact h
      | output =>
          have hnone : Python.digested .output (inputSpan value).attributes = none := by
            show List.findSome? _ [(Python.literal "input.value", Python.Value.str value)] = _
            rw [List.findSome?_cons, Python.literal, units_ofUnits, if_neg (by decide)]
            rfl
          rw [hnone] at htext
          cases htext
    · rw [hkey] at hsome
      cases hsome

/-- Of half a pair Python makes no digest, and its span costs the batch one that has an input like
    any other. -/
theorem digestMakers_raise :
    (¬ MakersAgree toyCrypto loneSurrogate zeroNonce
      ⟨⟨.bytes [1], by simp⟩, ⟨List.replicate 32 0x31, by decide⟩, ⟨List.replicate 16 0x31, by decide⟩, .input⟩) ∧
    ¬ Spared toyCrypto ⟨true, none⟩
      [(inputSpan loneSurrogate, fun _ => zeroNonce), (inputSpan (Python.literal "hi"), fun _ => zeroNonce)] := by
  have hplain : (Python.literal "hi").Encodable := by decide +kernel
  constructor
  · rintro ⟨⟨digest, hdigest, -⟩, -, -⟩
    rw [Python.hashContentValue_eq_error not_encodable_loneSurrogate] at hdigest
    cases hdigest
  · rw [Python.spared_iff]
    rintro (hall | hnone)
    · have hfirst := hall _ (List.mem_cons_self ..)
      exact not_encodable_loneSurrogate ((encodable_inputSpan rfl).mp hfirst)
    · have hsecond := hnone _ (List.mem_cons_of_mem _ (List.mem_singleton_self _))
      exact hsecond ((encodable_inputSpan rfl).mpr hplain)

end Sdk
