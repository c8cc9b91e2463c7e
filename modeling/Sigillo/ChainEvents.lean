import Sigillo.Crypto
import Sigillo.EcmaText
import Sigillo.MalformedText

/-!
# Events, and the receipts they become

What the store is told of an action (`ChainEvent`), how it replaces a person by a token and a value
by a salted digest, and the version 4 receipt it builds after the tip of a chain, or why it refuses
to. -/

namespace Sigillo

open DoubleArith Utf16Text JsonText JsonSchema HexBase64 IsoTime EcmaText

-- ── Events ───────────────────────────────────────────────────────────────────────

/-- The tables of Unicode an engine brings. -/
structure Unicode where
  /-- `text.normalize("NFC")`. -/
  normalize : JsString → JsString
  toLowerCase : JsString → JsString
  toUpperCase : JsString → JsString

/-- Who acted. -/
structure ActorInput where
  agent : JsString
  onBehalfOf : Option JsString
deriving DecidableEq

/-- What was done. -/
structure ActionInput where
  kind : ActionKind
  name : JsString
deriving DecidableEq

/-- Where it was reported from. -/
structure SourceInput where
  type : SourceType
  traceId : Option JsString
  spanId : Option JsString
deriving DecidableEq

/-- A document's fingerprint, with that of its text under `sigillo-text/1`. -/
structure ArtifactInput where
  role : ArtifactRole
  label : JsString
  mediaType : JsString
  sha256 : JsString
  text : Option JsString
deriving DecidableEq

/-- Which model did it. -/
structure ModelInput where
  name : JsString
  provider : Option JsString
  digest : Option JsString
deriving DecidableEq

/-- **One action, as a caller reports it**: a digest or the value itself, never both. -/
structure ChainEvent where
  systemId : SystemId
  tsEvent : JsString
  tsReceived : Timestamp
  actor : ActorInput
  action : ActionInput
  inputHash : Option JsString
  outputHash : Option JsString
  rawInput : Option Json
  rawOutput : Option Json
  /-- The nonce a digest was salted under, or that the customer keeps it. -/
  inputNonce : Option JsString
  outputNonce : Option JsString
  outcome : Outcome
  source : SourceInput
  artifacts : Option (List ArtifactInput)
  model : Option ModelInput

/-- How the names of the actions begin that the server alone writes. -/
def CONNECTION_PREFIX : JsString := js "sigillo.connection."

/-- Why an event is refused. -/
inductive AppendError where
  /-- `ReceiptFormatError`: a member does not fit the schema. -/
  | format
  /-- `StorageError`. -/
  | storage (message : JsString)
  /-- A value has no canonical form. -/
  | canonical
deriving DecidableEq

-- ── Persons ──────────────────────────────────────────────────────────────────────

/-- The longest identifier of a person. -/
def SUBJECT_IDENTIFIER_MAX : ℕ := 256

/-- An identifier as the subjects table keys it: NFC, no space at either end, lower case. -/
def normaliseSubjectIdentifier (u : Unicode) (value : JsString) : Except AppendError JsString :=
  if isWellFormed value = false then
    .error (.storage (js "receipt field actor." ++ js "on_behalf_of is not well-formed "
      ++ js "Unicode (it holds half of a " ++ js "surrogate pair): nothing was " ++ js "signed or written"))
  else
    let normalised := u.toLowerCase (trim (u.normalize value))
    if normalised.length = 0 then
      .error (.storage (js "an on_behalf_of identifier " ++ js "cannot be empty"))
    else if normalised.length > SUBJECT_IDENTIFIER_MAX then
      .error (.storage (js "an on_behalf_of identifier is at " ++ js "most "
        ++ countText SUBJECT_IDENTIFIER_MAX ++ js " characters"))
    else .ok normalised

/-- 16 random bytes. -/
abbrev PseudonymRandom := {b : Bytes // b.length = 16}

/-- `psn_` and the bytes in hexadecimal. -/
def pseudonymFromRandom (random : PseudonymRandom) : Pseudonym :=
  ⟨js "psn_" ++ toHex random.1, by
    constructor
    · rfl
    · have := isHex_toHex random.1
      rwa [random.2] at this⟩

/-- A row of `subjects`. -/
structure SubjectRow where
  token : Pseudonym
  identifier : JsString
  createdAt : Timestamp
deriving DecidableEq

/-- The actor as a receipt may hold it, and the row of a person seen for the first time. -/
def pseudonymous (u : Unicode) (subjects : List SubjectRow) (actor : ActorInput) (ts : Timestamp)
    (random : PseudonymRandom) : Except AppendError (ActorInput × Option SubjectRow) :=
  match actor.onBehalfOf with
  | none => .ok (actor, none)
  | some named =>
      if isPseudonym named then .ok (actor, none)
      else
        match normaliseSubjectIdentifier u named with
        | .error e => .error e
        | .ok identifier =>
            match subjects.find? fun row => row.identifier == identifier with
            | some known => .ok (⟨actor.agent, some known.token.1⟩, none)
            | none =>
                let token := pseudonymFromRandom random
                .ok (⟨actor.agent, some token.1⟩, some ⟨token, identifier, ts⟩)

-- ── Digests ──────────────────────────────────────────────────────────────────────

/-- 32 bytes, in hexadecimal the nonce of a salted digest. -/
abbrev Nonce := {b : Bytes // b.length = 32}

mutual
/-- No number of the value is past the largest double. -/
def finiteNumbers : Json → Bool
  | .num (.infinity _) => false
  | .arr items => finiteItems items
  | .obj members => finiteMembers members
  | _ => true

/-- No item has a number without JSON. -/
def finiteItems : List Json → Bool
  | [] => true
  | v :: vs => finiteNumbers v && finiteItems vs

/-- No member has a number without JSON. -/
def finiteMembers : List (JsString × Json) → Bool
  | [] => true
  | (_, v) :: ms => finiteNumbers v && finiteMembers ms
end

/-- `canonicalBytes(value)` of any value: a number that is not finite has no canonical form. -/
def canonicalBytesOf (value : Json) : Except AppendError Bytes :=
  if finiteNumbers value then .ok (canonicalBytes value) else .error .canonical

variable (c : Crypto)

/-- The digest of a value behind a nonce. -/
def saltedDigest (nonce : Nonce) (value : Json) : Except AppendError (Hex 64) :=
  (canonicalBytesOf value).map fun bytes => c.sha256Hex (nonce.1 ++ bytes)

/-- What stands for a nonce the customer has. -/
def NONCE_KEPT_BY_CUSTOMER : JsString := js "customer"

/-- A digest as a version 4 receipt holds it, and the nonce of a salted one. -/
structure PreparedDigest where
  hash : Option JsString
  scheme : Option HashScheme
  nonce : Option JsString
deriving DecidableEq

/-- A digest as the client computed it, or of the value it sent, under a fresh nonce. -/
def digestFor (role : ArtifactRole) (clientHash : Option JsString) (raw : Option Json)
    (clientNonce : Option JsString) (random : Nonce) : Except AppendError PreparedDigest :=
  if raw.isSome ∧ clientHash.isSome then
    .error (.storage (js "an action carries either its " ++ role.name
      ++ js " or a digest of it, not both"))
  else
    match clientNonce with
    | some nonce =>
        if clientHash = none ∨ ¬ (IsHex 64 nonce ∨ nonce = NONCE_KEPT_BY_CUSTOMER) then
          .error (.storage (js "a " ++ role.name ++ js " nonce is 64 lowercase hex "
            ++ js "characters, sent with the " ++ js "digest it salted"))
        else
          .ok ⟨clientHash, some .salted, if nonce = NONCE_KEPT_BY_CUSTOMER then none else some nonce⟩
    | none =>
        match raw with
        | none => .ok ⟨clientHash, clientHash.map fun _ => .plain, none⟩
        | some value => (saltedDigest c random value).map fun hash =>
            ⟨some hash.1, some .salted, some (toHex random.1)⟩

/-- What an event becomes before its position is known. -/
structure Prepared where
  actor : ActorInput
  subject : Option SubjectRow
  input : PreparedDigest
  output : PreparedDigest

/-- The random bytes one event may draw. -/
structure Randomness where
  subject : PseudonymRandom
  input : Nonce
  output : Nonce

/-- **`prepare`**: the digests and the actor of an event. -/
def prepare (u : Unicode) (subjects : List SubjectRow) (event : ChainEvent) (random : Randomness) :
    Except AppendError Prepared := do
  let (actor, subject) ← pseudonymous u subjects event.actor event.tsReceived random.subject
  let input ← digestFor c .input event.inputHash event.rawInput event.inputNonce random.input
  let output ← digestFor c .output event.outputHash event.rawOutput event.outputNonce random.output
  return ⟨actor, subject, input, output⟩

-- ── Receipts ─────────────────────────────────────────────────────────────────────

/-- A member that is left out where there is nothing to put there. -/
def optional (key : JsString) (v : Option Json) : List (JsString × Json) :=
  (v.map fun v => (key, v)).toList

/-- A text, or `null`. -/
def nullableJson (s : Option JsString) : Json := (s.map Json.str).getD .null

/-- An actor as a receipt has it. -/
def ActorInput.toJson (a : ActorInput) : Json :=
  .obj ((js "agent", .str a.agent) :: optional (js "on_behalf_of") (a.onBehalfOf.map .str))

/-- An action as a receipt has it. -/
def ActionInput.toJson (a : ActionInput) : Json :=
  .obj [(js "kind", .str a.kind.name), (js "name", .str a.name)]

/-- A source as a receipt has it. -/
def SourceInput.toJson (s : SourceInput) : Json :=
  .obj ((js "type", .str s.type.name) :: (optional (js "trace_id") (s.traceId.map .str)
    ++ optional (js "span_id") (s.spanId.map .str)))

/-- The digest of a document's text as a receipt has it. -/
def textJson (sha256 : JsString) : Json :=
  .obj [(js "canon", .str (js "sigillo-text/1")), (js "sha256", .str sha256)]

/-- A document as a receipt has it. -/
def ArtifactInput.toJson (a : ArtifactInput) : Json :=
  .obj ([(js "role", .str a.role.name), (js "label", .str a.label), (js "media_type", .str a.mediaType),
    (js "sha256", .str a.sha256)] ++ optional (js "text") (a.text.map textJson))

/-- A model as a receipt has it. -/
def ModelInput.toJson (m : ModelInput) : Json :=
  .obj [(js "name", .str m.name), (js "provider", nullableJson m.provider),
    (js "digest", nullableJson m.digest)]

/-- What is read of a chain's last receipt. -/
structure TipRow where
  seq : Count
  hash : Hex 64
  tsReceived : Timestamp
deriving DecidableEq

/-- No earlier than the receipt before it. -/
def tsReceivedAfter (event : ChainEvent) (tip : Option TipRow) : Timestamp :=
  match tip with
  | some t => if dateParse event.tsReceived < dateParse t.tsReceived then t.tsReceived
      else event.tsReceived
  | none => event.tsReceived

/-- The receipt as it is put to the schema. -/
def unsignedJson (event : ChainEvent) (tip : Option TipRow) (keyId : Hex 16) (p : Prepared) : Json :=
  .obj ([(js "v", .num (.ofNat 4)), (js "system_id", .str event.systemId.1),
    (js "seq", .num (match tip with | none => .ofNat 0 | some t => .ofNat (t.seq.1 + 1))),
    (js "ts_event", .str event.tsEvent), (js "ts_received", .str (tsReceivedAfter event tip).1),
    (js "actor", p.actor.toJson), (js "action", event.action.toJson),
    (js "input_hash", nullableJson p.input.hash),
    (js "input_hash_scheme", nullableJson (p.input.scheme.map HashScheme.name)),
    (js "output_hash", nullableJson p.output.hash),
    (js "output_hash_scheme", nullableJson (p.output.scheme.map HashScheme.name)),
    (js "outcome", .str event.outcome.name), (js "source", event.source.toJson),
    (js "prev_hash", .str (match tip with | none => GENESIS_PREV_HASH | some t => t.hash).1),
    (js "key_id", .str keyId.1)]
    ++ (optional (js "artifacts") (event.artifacts.map fun list => .arr (list.map ArtifactInput.toJson))
      ++ optional (js "model") (event.model.map ModelInput.toJson)))

/-- The most bytes of a receipt. -/
def MAX_RECEIPT_BYTES : ℕ := 192 * 1024

/-- **The receipt an event becomes after a tip.** -/
def buildUnsigned (event : ChainEvent) (tip : Option TipRow) (keyId : Hex 16) (prepared : Prepared) :
    Except AppendError UnsignedReceipt :=
  match unsignedReceiptSchema.decode (unsignedJson event tip keyId prepared) with
  | none => .error .format
  | some unsigned =>
      match malformedStringIn (unsignedReceiptSchema.encode unsigned) [] with
      | some path => .error (.storage (js "receipt field " ++ path ++ js " is not well-formed Unicode (it "
          ++ js "holds half of a surrogate pair), " ++ js "so it has no canonical form "
          ++ js "another implementation would " ++ js "agree on: nothing was signed or " ++ js "written"))
      | none =>
          if (canonicalReceiptBytes unsigned).length > MAX_RECEIPT_BYTES then
            .error (.storage (js "a receipt is at most " ++ countText MAX_RECEIPT_BYTES
              ++ js " bytes in canonical form: " ++ js "nothing was signed or written"))
          else .ok unsigned

/-- The tip that stands in for the real one. -/
def standInTip (event : ChainEvent) : TipRow :=
  ⟨⟨0, isCount_zero⟩, GENESIS_PREV_HASH, event.tsReceived⟩

/-- Everything that can be refused before the position is known; nothing is written. -/
def checkEvent (u : Unicode) (subjects : List SubjectRow) (keyId : Hex 16) (event : ChainEvent)
    (random : Randomness) : Except AppendError Unit := do
  let prepared ← prepare c u subjects event random
  let _ ← buildUnsigned event (some (standInTip event)) keyId prepared
  return ()

end Sigillo
