import Sigillo.JsonSchema
import Sigillo.HexBase64
import Sigillo.IsoTime

/-!
# Receipts

A receipt as the schemas of its four versions accept it. Every field's type carries the check the
schema makes of it, so a value of type `Receipt` is one that `receiptSchema` accepts and nothing
else: a name has its length, a digest is 64 hexadecimal characters, in version 4 a digest and its
scheme are both there or both null.

`unsignedReceiptSchema` and `receiptSchema` are the two discriminated unions on `v`; what they
write is what `JSON.stringify` of a parsed receipt writes, members in the order of the schema's
shape. -/

namespace Sigillo

open DoubleArith Utf16Text JsonText JsonSchema HexBase64 IsoTime

-- ── Field types ──────────────────────────────────────────────────────────────────

/-- A string of 1 to `max` code units. -/
abbrev Text (max : ℕ) := {s : JsString // 1 ≤ s.length ∧ s.length ≤ max}

/-- A whole number, 0 or more. -/
abbrev Count := {n : ℕ // IsDouble (n : ℚ) ∧ 0 ≤ n}

/-- Zero is a count. -/
theorem isCount_zero : IsDouble ((0 : ℕ) : ℚ) ∧ 0 ≤ 0 := ⟨isDouble_natCast (by norm_num), le_rfl⟩

/-- One is a count. -/
theorem isCount_one : IsDouble ((1 : ℕ) : ℚ) ∧ 0 ≤ 1 := ⟨isDouble_natCast (by norm_num), Nat.zero_le 1⟩

/-- A base64 signature. -/
abbrev Signature := {s : JsString // IsSignatureText s}

/-- A string of one to `max` units. -/
def textSchema (max : ℕ) : Codec (Text max) := .str _

/-- A number that is an exact natural number. -/
def countSchema : Codec Count := .nat _

/-- `n` lowercase hexadecimal digits. -/
def hexString (n : ℕ) : Codec (Hex n) := .str _

/-- A date of `Date.toISOString`. -/
def timestampSchema : Codec Timestamp := .str _

/-- An Ed25519 signature in canonical base64. -/
def signatureSchema : Codec Signature := .str _

/-- The longest name of a system. -/
def MAX_SYSTEM_ID : ℕ := 128

/-- The longest name of an action, an agent or a label. -/
def MAX_NAME : ℕ := 256

/-- The longest media type. -/
def MAX_MEDIA_TYPE : ℕ := 128

/-- The longest provider or name of a model. -/
def MAX_MODEL_FIELD : ℕ := 256

/-- The name of a system. -/
abbrev SystemId := Text MAX_SYSTEM_ID

/-- `prev_hash` of the first receipt in a chain. -/
def GENESIS_PREV_HASH : Hex 64 := ⟨List.replicate 64 0x30, isHex_zeros64⟩

/-- What kind of action a receipt records. -/
inductive ActionKind where
  | toolCall | llmCall | agentStep | decision | genesis
deriving DecidableEq

/-- The word a receipt has for it. -/
def ActionKind.name : ActionKind → JsString
  | .toolCall => js "tool_call"
  | .llmCall => js "llm_call"
  | .agentStep => js "agent_step"
  | .decision => js "decision"
  | .genesis => js "genesis"

/-- One of the words for a kind. -/
def actionKindSchema : Codec ActionKind :=
  .enum [.toolCall, .llmCall, .agentStep, .decision, .genesis] (by intro a; cases a <;> simp)
    ActionKind.name (by intro a b; cases a <;> cases b <;> simp [ActionKind.name])

/-- How an action ended. -/
inductive Outcome where
  | ok | error | blocked | unknown
deriving DecidableEq

/-- The word a receipt has for it. -/
def Outcome.name : Outcome → JsString
  | .ok => js "ok"
  | .error => js "error"
  | .blocked => js "blocked"
  | .unknown => js "unknown"

/-- One of the words for an outcome. -/
def outcomeSchema : Codec Outcome :=
  .enum [.ok, .error, .blocked, .unknown] (by intro a; cases a <;> simp) Outcome.name
    (by intro a b; cases a <;> cases b <;> simp [Outcome.name])

/-- Where an action was reported from. -/
inductive SourceType where
  | otlp | sdk | api
deriving DecidableEq

/-- The word a receipt has for it. -/
def SourceType.name : SourceType → JsString
  | .otlp => js "otlp"
  | .sdk => js "sdk"
  | .api => js "api"

/-- One of the words for a source. -/
def sourceTypeSchema : Codec SourceType :=
  .enum [.otlp, .sdk, .api] (by intro a; cases a <;> simp) SourceType.name
    (by intro a b; cases a <;> cases b <;> simp [SourceType.name])

/-- How a digest was computed. -/
inductive HashScheme where
  | plain | salted
deriving DecidableEq

/-- The word a receipt has for it. -/
def HashScheme.name : HashScheme → JsString
  | .plain => js "plain"
  | .salted => js "salted"

/-- One of the words for a scheme. -/
def hashSchemeSchema : Codec HashScheme :=
  .enum [.plain, .salted] (by intro a; cases a <;> simp) HashScheme.name
    (by intro a b; cases a <;> cases b <;> simp [HashScheme.name])

/-- Whether a document went in or came out. -/
inductive ArtifactRole where
  | input | output
deriving DecidableEq

/-- The word a receipt has for it. -/
def ArtifactRole.name : ArtifactRole → JsString
  | .input => js "input"
  | .output => js "output"

/-- One of the words for a role. -/
def artifactRoleSchema : Codec ArtifactRole :=
  .enum [.input, .output] (by intro a; cases a <;> simp) ArtifactRole.name
    (by intro a b; cases a <;> cases b <;> simp [ArtifactRole.name])

/-- `psn_` and 32 hexadecimal characters. -/
def isPseudonym (s : JsString) : Prop := s.take 4 = js "psn_" ∧ IsHex 32 (s.drop 4)

instance : DecidablePred isPseudonym := fun _ => inferInstanceAs (Decidable (_ ∧ _))

/-- A token that stands for a person. -/
abbrev Pseudonym := {s : JsString // isPseudonym s}

-- ── Objects ──────────────────────────────────────────────────────────────────────

/-- Who acted, in the versions before the fourth. -/
structure Actor where
  agent : Text MAX_NAME
  onBehalfOf : Option (Text MAX_NAME)
deriving DecidableEq

/-- The agent and, where there is one, the person. -/
def actorSchema : Codec Actor :=
  (Codec.object (.both (.req (js "agent") (textSchema _)) (.opt (js "on_behalf_of") (textSchema _))
    (by decide)) (by decide)).iso
    ⟨fun p => ⟨p.1, p.2⟩, fun a => (a.agent, a.onBehalfOf), fun _ => rfl, fun _ => rfl⟩

/-- Version 4: whom the action was for, as a pseudonym and never an identifier. -/
structure ActorV4 where
  agent : Text MAX_NAME
  onBehalfOf : Option Pseudonym
deriving DecidableEq

/-- The agent and, where there is one, the person's token. -/
def actorV4Schema : Codec ActorV4 :=
  (Codec.object (.both (.req (js "agent") (textSchema _)) (.opt (js "on_behalf_of") (.str _))
    (by decide)) (by decide)).iso
    ⟨fun p => ⟨p.1, p.2⟩, fun a => (a.agent, a.onBehalfOf), fun _ => rfl, fun _ => rfl⟩

/-- What was done. -/
structure Action where
  kind : ActionKind
  name : Text MAX_NAME
deriving DecidableEq

/-- The kind and the name of an action. -/
def actionSchema : Codec Action :=
  (Codec.object (.both (.req (js "kind") actionKindSchema) (.req (js "name") (textSchema _))
    (by decide)) (by decide)).iso
    ⟨fun p => ⟨p.1, p.2⟩, fun a => (a.kind, a.name), fun _ => rfl, fun _ => rfl⟩

/-- Where a receipt's action came from. -/
structure Source where
  type : SourceType
  traceId : Option (Hex 32)
  spanId : Option (Hex 16)
deriving DecidableEq

/-- The source with its trace and span, or `null` for them. -/
def sourceSchema : Codec Source :=
  (Codec.object (.both (.req (js "type") sourceTypeSchema)
    (.both (.opt (js "trace_id") (hexString 32)) (.opt (js "span_id") (hexString 16)) (by decide))
    (by decide)) (by decide)).iso
    ⟨fun p => ⟨p.1, p.2.1, p.2.2⟩, fun a => (a.type, a.traceId, a.spanId), fun _ => rfl,
      fun _ => rfl⟩

/-- A document's fingerprint. -/
structure ArtifactEntry where
  role : ArtifactRole
  label : Text MAX_NAME
  mediaType : Text MAX_MEDIA_TYPE
  sha256 : Hex 64
deriving DecidableEq

/-- The members of an artifact. -/
def artifactFields : Fields ArtifactEntry :=
  (Fields.both (.req (js "role") artifactRoleSchema) (.both (.req (js "label") (textSchema _))
    (.both (.req (js "media_type") (textSchema _)) (.req (js "sha256") (hexString 64)) (by decide))
    (by decide)) (by decide)).iso
    ⟨fun p => ⟨p.1, p.2.1, p.2.2.1, p.2.2.2⟩, fun a => (a.role, a.label, a.mediaType, a.sha256),
      fun _ => rfl, fun _ => rfl⟩

/-- An artifact of a version 2 receipt. -/
def artifactSchema : Codec ArtifactEntry := .object artifactFields (by decide)

/-- A text document's fingerprint under the canonicalization `sigillo-text/1`. -/
structure ArtifactText where
  sha256 : Hex 64
deriving DecidableEq

/-- The only name `canon` may carry. -/
def canonSchema : Codec Unit :=
  .enum [()] mem_unit (fun _ => js "sigillo-text/1") fun _ _ _ => rfl

/-- The digest and the length of an artifact's text. -/
def artifactTextSchema : Codec ArtifactText :=
  (Codec.object (.both (.req (js "canon") canonSchema) (.req (js "sha256") (hexString 64))
    (by decide)) (by decide)).iso
    ⟨fun p => ⟨p.2⟩, fun a => ((), a.sha256), fun _ => rfl, fun _ => rfl⟩

/-- An artifact of a version 3 receipt, which may have its text beside its bytes. -/
structure ArtifactEntryV3 extends ArtifactEntry where
  text : Option ArtifactText
deriving DecidableEq

/-- The members of an artifact, and `text`. -/
def artifactV3Schema : Codec ArtifactEntryV3 :=
  (Codec.object (.both artifactFields (.opt (js "text") artifactTextSchema) (by decide))
    (by decide)).iso
    ⟨fun p => ⟨p.1, p.2⟩, fun a => (a.toArtifactEntry, a.text), fun _ => rfl, fun _ => rfl⟩

/-- The model behind an `llm_call`. -/
structure ModelInfo where
  name : Text MAX_MODEL_FIELD
  provider : Option (Text MAX_MODEL_FIELD)
  digest : Option (Text MAX_MODEL_FIELD)
deriving DecidableEq

/-- A text, or `null`. -/
def nullableText (max : ℕ) : Codec (Option (Text max)) :=
  .nullable (textSchema max) fun _ => by simp [textSchema, Codec.str]

/-- A SHA-256 digest, or `null`. -/
def nullableHash : Codec (Option (Hex 64)) :=
  .nullable (hexString 64) fun _ => by simp [hexString, Codec.str]

/-- A scheme, or `null`. -/
def nullableScheme : Codec (Option HashScheme) :=
  .nullable hashSchemeSchema fun _ => by simp [hashSchemeSchema, Codec.enum]

/-- The provider, name and version of a model. -/
def modelSchema : Codec ModelInfo :=
  (Codec.object (.both (.req (js "name") (textSchema _))
    (.both (.req (js "provider") (nullableText _)) (.req (js "digest") (nullableText _)) (by decide))
    (by decide)) (by decide)).iso
    ⟨fun p => ⟨p.1, p.2.1, p.2.2⟩, fun m => (m.name, m.provider, m.digest), fun _ => rfl,
      fun _ => rfl⟩

/-- A list with something in it: a receipt without documents leaves the member out. -/
abbrev NonEmpty (α : Type) := {l : List α // 1 ≤ l.length}

/-- An array with something in it. -/
def nonEmptyArray {α : Type} (c : Codec α) : Codec (NonEmpty α) := c.arr.refine _

-- ── The four versions ────────────────────────────────────────────────────────────

/-- The members every version has, but for the actor. -/
structure ReceiptCore where
  systemId : SystemId
  seq : Count
  tsEvent : Timestamp
  tsReceived : Timestamp
  action : Action
  inputHash : Option (Hex 64)
  outputHash : Option (Hex 64)
  outcome : Outcome
  source : Source
  prevHash : Hex 64
  keyId : Hex 16
deriving DecidableEq

/-- The actor, and what a version has beyond the common members. -/
inductive ReceiptDetail where
  | v1 (actor : Actor)
  | v2 (actor : Actor) (artifacts : Option (NonEmpty ArtifactEntry)) (model : Option ModelInfo)
  | v3 (actor : Actor) (artifacts : Option (NonEmpty ArtifactEntryV3)) (model : Option ModelInfo)
  | v4 (actor : ActorV4) (inputHashScheme outputHashScheme : Option HashScheme)
      (artifacts : Option (NonEmpty ArtifactEntryV3)) (model : Option ModelInfo)
deriving DecidableEq

/-- The members every version has, and those of its own version. -/
structure ReceiptBody extends ReceiptCore where
  detail : ReceiptDetail
deriving DecidableEq

/-- Version 4: a digest and its scheme are both there or both null. -/
def ReceiptBody.schemesMatchDigests (r : ReceiptBody) : Prop :=
  match r.detail with
  | .v4 _ inputHashScheme outputHashScheme _ _ =>
      r.inputHash.isNone = inputHashScheme.isNone ∧ r.outputHash.isNone = outputHashScheme.isNone
  | _ => True

instance : DecidablePred ReceiptBody.schemesMatchDigests := fun r => by
  unfold ReceiptBody.schemesMatchDigests
  cases r.detail <;> exact inferInstance

/-- A receipt before it is signed. -/
structure UnsignedReceipt extends ReceiptBody where
  schemes : toReceiptBody.schemesMatchDigests
deriving DecidableEq

/-- **A signed receipt.** -/
structure Receipt extends UnsignedReceipt where
  sig : Signature
deriving DecidableEq

/-- `{ ...receipt, sig }`. -/
def UnsignedReceipt.signed (r : UnsignedReceipt) (sig : Signature) : Receipt := ⟨r, sig⟩

/-- The versions of the format. -/
inductive ReceiptVersion where
  | v1 | v2 | v3 | v4
deriving DecidableEq

/-- The `v` of a version. -/
def ReceiptVersion.number : ReceiptVersion → ℕ
  | .v1 => 1
  | .v2 => 2
  | .v3 => 3
  | .v4 => 4

/-- The number of a version is a double. -/
theorem ReceiptVersion.isDouble_number (v : ReceiptVersion) : IsDouble (v.number : ℚ) :=
  isDouble_natCast (by cases v <;> decide)

/-- The version whose members these are. -/
def ReceiptDetail.version : ReceiptDetail → ReceiptVersion
  | .v1 .. => .v1
  | .v2 .. => .v2
  | .v3 .. => .v3
  | .v4 .. => .v4

/-- `v`. -/
def ReceiptBody.v (r : ReceiptBody) : ReceiptVersion := r.detail.version

-- ── Schemas ──────────────────────────────────────────────────────────────────────

/-- One of the numbers of a version. -/
def versionSchema : Codec ReceiptVersion :=
  .natEnum [.v1, .v2, .v3, .v4] (by intro a; cases a <;> simp) ReceiptVersion.number
    ReceiptVersion.isDouble_number (by intro a b; cases a <;> cases b <;> simp [ReceiptVersion.number])

/-- `z.literal(version)`. -/
def versionLiteral (v : ReceiptVersion) : Codec Unit :=
  .natEnum [()] mem_unit (fun _ => v.number) (fun _ => v.isDouble_number) fun _ _ _ => rfl

/-- The core members before the actor. -/
def headFields : Fields (SystemId × Count × Timestamp × Timestamp) :=
  .both (.req (js "system_id") (textSchema _)) (.both (.req (js "seq") countSchema)
    (.both (.req (js "ts_event") timestampSchema) (.req (js "ts_received") timestampSchema)
    (by decide)) (by decide)) (by decide)

/-- The core members after the actor. -/
def tailFields : Fields (Action × Option (Hex 64) × Option (Hex 64) × Outcome × Source × Hex 64
    × Hex 16) :=
  .both (.req (js "action") actionSchema) (.both (.req (js "input_hash") nullableHash)
    (.both (.req (js "output_hash") nullableHash) (.both (.req (js "outcome") outcomeSchema)
    (.both (.req (js "source") sourceSchema)
    (.both (.req (js "prev_hash") (hexString 64)) (.req (js "key_id") (hexString 16))
    (by decide)) (by decide)) (by decide)) (by decide)) (by decide)) (by decide)

/-- The members of every version that come before the actor. -/
def headKeys : List JsString := [js "system_id", js "seq", js "ts_event", js "ts_received"]

/-- The members of every version that come after it. -/
def tailKeys : List JsString := [js "action", js "input_hash", js "output_hash", js "outcome",
  js "source", js "prev_hash", js "key_id"]

/-- `v` and the members of `receiptCoreShape`, around a version's own actor. -/
def coreFields {A : Type} (v : ReceiptVersion) (actor : Codec A) : Fields (ReceiptCore × A) :=
  (Fields.both (.req (js "v") (versionLiteral v))
    (.both headFields (.both (.req (js "actor") actor) tailFields
      (show ∀ k ∈ [js "actor"], k ∉ tailKeys by decide))
      (show ∀ k ∈ headKeys, k ∉ js "actor" :: tailKeys by decide))
      (show ∀ k ∈ [js "v"], k ∉ headKeys ++ js "actor" :: tailKeys by decide)).iso
    ⟨fun (_, (systemId, seq, tsEvent, tsReceived), actor, action, inputHash, outputHash, outcome,
        source, prevHash, keyId) =>
      ({ systemId, seq, tsEvent, tsReceived, action, inputHash, outputHash, outcome, source,
         prevHash, keyId }, actor),
     fun (c, actor) => ((), (c.systemId, c.seq, c.tsEvent, c.tsReceived), actor, c.action,
       c.inputHash, c.outputHash, c.outcome, c.source, c.prevHash, c.keyId),
     fun _ => rfl, fun _ => rfl⟩

/-- What a version has beyond the core. -/
def VersionMembers : ReceiptVersion → Type
  | .v1 => ReceiptCore × Actor
  | .v2 => (ReceiptCore × Actor) × Option (NonEmpty ArtifactEntry) × Option ModelInfo
  | .v3 => (ReceiptCore × Actor) × Option (NonEmpty ArtifactEntryV3) × Option ModelInfo
  | .v4 => (ReceiptCore × ActorV4) × (Option HashScheme × Option HashScheme)
      × Option (NonEmpty ArtifactEntryV3) × Option ModelInfo

/-- The members of a version 1 receipt. -/
def v1Fields : Fields (VersionMembers .v1) := coreFields .v1 actorSchema

/-- The members of a version 2 receipt. -/
def v2Fields : Fields (VersionMembers .v2) :=
  .both (coreFields .v2 actorSchema)
    (.both (.opt (js "artifacts") (nonEmptyArray artifactSchema)) (.opt (js "model") modelSchema)
      (by decide)) (by decide)

/-- The members of a version 3 receipt. -/
def v3Fields : Fields (VersionMembers .v3) :=
  .both (coreFields .v3 actorSchema)
    (.both (.opt (js "artifacts") (nonEmptyArray artifactV3Schema)) (.opt (js "model") modelSchema)
      (by decide)) (by decide)

/-- The members of a version 4 receipt. -/
def v4Fields : Fields (VersionMembers .v4) :=
  .both (coreFields .v4 actorV4Schema)
    (.both (.both (.req (js "input_hash_scheme") nullableScheme)
        (.req (js "output_hash_scheme") nullableScheme) (by decide))
      (.both (.opt (js "artifacts") (nonEmptyArray artifactV3Schema))
        (.opt (js "model") modelSchema) (by decide)) (by decide)) (by decide)

/-- The members of a receipt of each version. -/
def versionFields : (v : ReceiptVersion) → Fields (VersionMembers v)
  | .v1 => v1Fields
  | .v2 => v2Fields
  | .v3 => v3Fields
  | .v4 => v4Fields

/-- No version names a member twice. -/
theorem versionFields_keys_nodup (v : ReceiptVersion) : (versionFields v).keys.Nodup := by
  cases v <;> decide

/-- The version's members and, last, the signature. -/
def signedFields (v : ReceiptVersion) : Fields (VersionMembers v × Signature) :=
  .both (versionFields v) (.req (js "sig") signatureSchema) (by cases v <;> decide)

/-- The members of a version, as one type for all four. -/
def bodyOf : (Σ v, VersionMembers v) ≃ ReceiptBody where
  toFun
    | ⟨.v1, c, actor⟩ => { toReceiptCore := c, detail := .v1 actor }
    | ⟨.v2, (c, actor), artifacts, model⟩ =>
        { toReceiptCore := c, detail := .v2 actor artifacts model }
    | ⟨.v3, (c, actor), artifacts, model⟩ =>
        { toReceiptCore := c, detail := .v3 actor artifacts model }
    | ⟨.v4, (c, actor), (inScheme, outScheme), artifacts, model⟩ =>
        { toReceiptCore := c, detail := .v4 actor inScheme outScheme artifacts model }
  invFun r := match r.detail with
    | .v1 actor => ⟨.v1, r.toReceiptCore, actor⟩
    | .v2 actor artifacts model => ⟨.v2, (r.toReceiptCore, actor), artifacts, model⟩
    | .v3 actor artifacts model => ⟨.v3, (r.toReceiptCore, actor), artifacts, model⟩
    | .v4 actor inScheme outScheme artifacts model =>
        ⟨.v4, (r.toReceiptCore, actor), (inScheme, outScheme), artifacts, model⟩
  left_inv := by
    rintro ⟨v, m⟩
    cases v <;> rfl
  right_inv := by
    rintro ⟨c, d⟩
    cases d <;> rfl

/-- The discriminated union on `v`, before the rule on the schemes. -/
def unsignedUnion : Codec (Σ v, VersionMembers v) :=
  .union (js "v") versionSchema (fun v => .object (versionFields v) (versionFields_keys_nodup v))
    (by intro v m; cases v <;> exact ⟨_, rfl, rfl⟩)

/-- A signed receipt of one version or another. -/
def signedUnion : Codec (Σ v, VersionMembers v × Signature) :=
  .union (js "v") versionSchema (fun v => .object (signedFields v) (by cases v <;> decide))
    (by intro v m; cases v <;> exact ⟨_, rfl, rfl⟩)

/-- **`unsignedReceiptSchema`.** -/
def unsignedReceiptSchema : Codec UnsignedReceipt :=
  ((unsignedUnion.iso bodyOf).refine ReceiptBody.schemesMatchDigests).iso
    ⟨fun r => ⟨r.1, r.2⟩, fun r => ⟨r.toReceiptBody, r.schemes⟩, fun _ => rfl, fun _ => rfl⟩

/-- **`receiptSchema`.** -/
def receiptSchema : Codec Receipt :=
  (((signedUnion.iso (Equiv.sigmaProdDistrib VersionMembers Signature).symm).iso
      (bodyOf.prodCongr (Equiv.refl Signature))).refine fun r => r.1.schemesMatchDigests).iso
    ⟨fun r => ⟨⟨r.1.1, r.2⟩, r.1.2⟩, fun r => ⟨(r.toReceiptBody, r.sig), r.schemes⟩,
      fun _ => rfl, fun _ => rfl⟩

/-- **A signed receipt is written as its unsigned part, with the signature after it.** -/
theorem receiptSchema_encode (r : Receipt) :
    ∃ ms, unsignedReceiptSchema.encode r.toUnsignedReceipt = .obj ms ∧
      receiptSchema.encode r = .obj (ms ++ [(js "sig", .str r.sig.1)]) := by
  obtain ⟨⟨⟨c, d⟩, hs⟩, sig⟩ := r
  cases d <;> exact ⟨_, rfl, rfl⟩

end Sigillo
