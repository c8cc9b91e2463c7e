import Sigillo.ChainEvents

/-!
# What a receipt says of its event

A receipt built from an event holds the event's members and nothing else
(**`decode_unsignedJson`**): each schema reads exactly the values of its type, so a member that fits
is taken as it is and one that does not refuses the event. -/

namespace Sigillo

open DoubleArith Utf16Text JsonText JsonSchema HexBase64 IsoTime EcmaText

-- ── Members as they were put ─────────────────────────────────────────────────────

/-- The actor an event had. -/
def ActorV4.input (a : ActorV4) : ActorInput := ⟨a.agent.1, a.onBehalfOf.map fun t => t.1⟩

/-- The action an event had. -/
def Action.input (a : Action) : ActionInput := ⟨a.kind, a.name.1⟩

/-- The source an event had. -/
def Source.input (s : Source) : SourceInput :=
  ⟨s.type, s.traceId.map fun t => t.1, s.spanId.map fun t => t.1⟩

/-- The artifact an event had. -/
def ArtifactEntryV3.input (a : ArtifactEntryV3) : ArtifactInput :=
  ⟨a.role, a.label.1, a.mediaType.1, a.sha256.1, a.text.map fun t => t.sha256.1⟩

/-- The model an event had. -/
def ModelInfo.input (m : ModelInfo) : ModelInput :=
  ⟨m.name.1, m.provider.map fun t => t.1, m.digest.map fun t => t.1⟩

-- ── Reading a member ─────────────────────────────────────────────────────────────

/-- A text that may be missing is read as it was. -/
theorem read_opt_str {p : JsString → Prop} [DecidablePred p] {key : JsString}
    {f : JsString → Option Json} {s : Option JsString} {o : Option {s // p s}}
    (hf : f key = s.map Json.str) :
    (Fields.opt key (.str p)).read f = some o ↔ o.map (fun t => t.1) = s := by
  cases s with
  | none =>
      rw [Fields.read_opt_none hf]
      cases o with
      | none => simp
      | some t => simp
  | some s =>
      cases o with
      | none => exact iff_of_false (Fields.read_opt_ne_none hf) (by simp)
      | some t =>
          rw [Fields.read_opt hf, Codec.decode_str]
          simp [eq_comm]

/-- A text or null is read as it was. -/
theorem decode_nullableJson {p : JsString → Prop} [DecidablePred p]
    {hc : ∀ a, (Codec.str p).encode a ≠ .null} {s : Option JsString} {o : Option {s // p s}} :
    ((Codec.str p).nullable hc).decode (nullableJson s) = some o ↔ o.map (fun t => t.1) = s := by
  cases o with
  | none =>
      rw [Codec.decode_nullable_none]
      cases s with
      | none => simp [nullableJson]
      | some s => simp [nullableJson]
  | some t =>
      cases s with
      | none =>
          refine iff_of_false (fun h => ?_) (by simp)
          simp [nullableJson, Codec.nullable] at h
      | some s =>
          rw [Codec.decode_nullable (by simp [nullableJson])]
          change (Codec.str p).decode (.str s) = some t ↔ _
          rw [Codec.decode_str]
          simp [eq_comm]

/-- What was written is read as it was. -/
theorem decode_encode_eq {α : Type} {c : Codec α} {a b : α} :
    c.decode (c.encode a) = some b ↔ b = a := by
  rw [Codec.decode_encode, Option.some.injEq, eq_comm]

/-- A scheme is read as it was. -/
theorem decode_scheme {s o : Option HashScheme} :
    nullableScheme.decode (nullableJson (s.map HashScheme.name)) = some o ↔ o = s := by
  have h : nullableJson (s.map HashScheme.name) = nullableScheme.encode s := by
    cases s with
    | none => rfl
    | some s => rfl
  rw [h, decode_encode_eq]

/-- The actor read is the one the event had. -/
theorem decode_actor {a : ActorInput} {x : ActorV4} :
    actorV4Schema.decode a.toJson = some x ↔ x.input = a := by
  obtain ⟨agent, onBehalfOf⟩ := a
  have hkeys : ∀ m ∈ (js "agent", Json.str agent) :: optional (js "on_behalf_of")
      (onBehalfOf.map .str), m.1 ∈ [js "agent", js "on_behalf_of"] := by
    cases onBehalfOf with
    | none => simp [optional]
    | some s => simp [optional]
  have hopt : ((js "agent", Json.str agent) :: optional (js "on_behalf_of")
      (onBehalfOf.map .str)).lookup (js "on_behalf_of") = onBehalfOf.map .str := by
    cases onBehalfOf with
    | none => rfl
    | some s => rfl
  rw [actorV4Schema, Codec.decode_iso, ActorInput.toJson, Codec.decode_object hkeys, Fields.read_both,
    Fields.read_req rfl, read_opt_str hopt]
  change (Codec.str _).decode (.str agent) = some x.agent ∧ _ ↔ _
  rw [Codec.decode_str, ActorV4.input, ActorInput.mk.injEq]
  exact and_congr_left' eq_comm

/-- The action read is the one the event had. -/
theorem decode_action {a : ActionInput} {x : Action} :
    actionSchema.decode a.toJson = some x ↔ x.input = a := by
  obtain ⟨kind, name⟩ := a
  have hkeys : ∀ m ∈ [(js "kind", Json.str kind.name), (js "name", Json.str name)],
      m.1 ∈ [js "kind", js "name"] := by simp
  rw [actionSchema, Codec.decode_iso, ActionInput.toJson, Codec.decode_object hkeys, Fields.read_both,
    Fields.read_req rfl, Fields.read_req rfl]
  change actionKindSchema.decode (actionKindSchema.encode kind) = some x.kind ∧
    (Codec.str _).decode (.str name) = some x.name ↔ _
  rw [decode_encode_eq, Codec.decode_str, Action.input, ActionInput.mk.injEq]
  exact and_congr_right' eq_comm

/-- The source read is the one the event had. -/
theorem decode_source {s : SourceInput} {x : Source} :
    sourceSchema.decode s.toJson = some x ↔ x.input = s := by
  obtain ⟨type, traceId, spanId⟩ := s
  let members := (js "type", Json.str type.name) :: (optional (js "trace_id") (traceId.map .str)
    ++ optional (js "span_id") (spanId.map .str))
  have hkeys : ∀ m ∈ members, m.1 ∈ [js "type", js "trace_id", js "span_id"] := by
    cases traceId with
    | none => cases spanId <;> simp [members, optional]
    | some t => cases spanId <;> simp [members, optional]
  have htrace : members.lookup (js "trace_id") = traceId.map .str := by
    cases traceId with
    | none => cases spanId <;> rfl
    | some t => rfl
  have hspan : members.lookup (js "span_id") = spanId.map .str := by
    cases traceId with
    | none => cases spanId <;> rfl
    | some t => cases spanId <;> rfl
  rw [sourceSchema, Codec.decode_iso, SourceInput.toJson, Codec.decode_object hkeys, Fields.read_both,
    Fields.read_req rfl, Fields.read_both]
  change sourceTypeSchema.decode (sourceTypeSchema.encode type) = some x.type ∧
    (Fields.opt (js "trace_id") (.str (IsHex 32))).read (fun k => members.lookup k) = some x.traceId ∧
    (Fields.opt (js "span_id") (.str (IsHex 16))).read (fun k => members.lookup k) = some x.spanId ↔ _
  rw [decode_encode_eq, read_opt_str htrace, read_opt_str hspan, Source.input, SourceInput.mk.injEq]

/-- The text's digest read is the one the event had. -/
theorem decode_text {s : JsString} {x : ArtifactText} :
    artifactTextSchema.decode (textJson s) = some x ↔ x.sha256.1 = s := by
  have hkeys : ∀ m ∈ [(js "canon", Json.str (js "sigillo-text/1")), (js "sha256", Json.str s)],
      m.1 ∈ [js "canon", js "sha256"] := by simp
  rw [artifactTextSchema, Codec.decode_iso, textJson, Codec.decode_object hkeys, Fields.read_both,
    Fields.read_req rfl, Fields.read_req rfl]
  change canonSchema.decode (canonSchema.encode ()) = some () ∧
    (Codec.str _).decode (.str s) = some x.sha256 ↔ _
  rw [decode_encode_eq, Codec.decode_str]
  simp [eq_comm]

/-- The artifact read is the one the event had. -/
theorem decode_artifact {a : ArtifactInput} {x : ArtifactEntryV3} :
    artifactV3Schema.decode a.toJson = some x ↔ x.input = a := by
  obtain ⟨role, label, mediaType, sha256, text⟩ := a
  let members := [(js "role", Json.str role.name), (js "label", Json.str label),
    (js "media_type", Json.str mediaType), (js "sha256", Json.str sha256)]
    ++ optional (js "text") (text.map textJson)
  have hkeys : ∀ m ∈ members,
      m.1 ∈ [js "role", js "label", js "media_type", js "sha256", js "text"] := by
    cases text with
    | none => simp [members, optional]
    | some t => simp [members, optional]
  have htext : members.lookup (js "text") = text.map textJson := by
    cases text with
    | none => rfl
    | some t => rfl
  have hread : (Fields.opt (js "text") artifactTextSchema).read (fun k => members.lookup k) = some x.text ↔
      x.text.map (fun t => t.sha256.1) = text := by
    cases text with
    | none =>
        rw [Fields.read_opt_none htext]
        cases x.text with
        | none => simp
        | some t => simp
    | some s =>
        cases x.text with
        | none => exact iff_of_false (Fields.read_opt_ne_none htext) (by simp)
        | some t =>
            rw [Fields.read_opt htext, decode_text]
            simp
  rw [artifactV3Schema, Codec.decode_iso, ArtifactInput.toJson, Codec.decode_object hkeys,
    Fields.read_both, artifactFields, Fields.read_iso, Fields.read_both, Fields.read_req rfl,
    Fields.read_both, Fields.read_req rfl, Fields.read_both, Fields.read_req rfl, Fields.read_req rfl]
  change (artifactRoleSchema.decode (artifactRoleSchema.encode role) = some x.role ∧
    (Codec.str _).decode (.str label) = some x.label ∧
    (Codec.str _).decode (.str mediaType) = some x.mediaType ∧
    (Codec.str _).decode (.str sha256) = some x.sha256) ∧
    (Fields.opt (js "text") artifactTextSchema).read (fun k => members.lookup k) = some x.text ↔ _
  rw [decode_encode_eq, Codec.decode_str, Codec.decode_str, Codec.decode_str, hread,
    ArtifactEntryV3.input, ArtifactInput.mk.injEq]
  constructor
  · rintro ⟨⟨h1, h2, h3, h4⟩, h5⟩
    exact ⟨h1, h2.symm, h3.symm, h4.symm, h5⟩
  · rintro ⟨h1, h2, h3, h4, h5⟩
    exact ⟨⟨h1, h2.symm, h3.symm, h4.symm⟩, h5⟩

/-- The model read is the one the event had. -/
theorem decode_model {m : ModelInput} {x : ModelInfo} :
    modelSchema.decode m.toJson = some x ↔ x.input = m := by
  obtain ⟨name, provider, digest⟩ := m
  have hkeys : ∀ m ∈ [(js "name", Json.str name), (js "provider", nullableJson provider),
      (js "digest", nullableJson digest)], m.1 ∈ [js "name", js "provider", js "digest"] := by simp
  rw [modelSchema, Codec.decode_iso, ModelInput.toJson, Codec.decode_object hkeys, Fields.read_both,
    Fields.read_req rfl, Fields.read_both, Fields.read_req rfl, Fields.read_req rfl]
  change (Codec.str _).decode (.str name) = some x.name ∧
    (nullableText _).decode (nullableJson provider) = some x.provider ∧
    (nullableText _).decode (nullableJson digest) = some x.digest ↔ _
  have hprovider : (nullableText MAX_MODEL_FIELD).decode (nullableJson provider) = some x.provider ↔
      x.provider.map (fun t => t.1) = provider := decode_nullableJson
  have hdigest : (nullableText MAX_MODEL_FIELD).decode (nullableJson digest) = some x.digest ↔
      x.digest.map (fun t => t.1) = digest := decode_nullableJson
  rw [Codec.decode_str, hprovider, hdigest, ModelInfo.input, ModelInput.mk.injEq]
  exact and_congr_left' eq_comm

/-- The artifacts read are those the event had. -/
theorem decode_artifacts {list : List ArtifactInput} {x : NonEmpty ArtifactEntryV3} :
    (nonEmptyArray artifactV3Schema).decode (.arr (list.map ArtifactInput.toJson)) = some x ↔
      x.1.map ArtifactEntryV3.input = list := by
  rw [nonEmptyArray, Codec.decode_refine, Codec.decode_arr, List.forall₂_map_left_iff]
  constructor
  · intro h
    have := h.imp fun _ _ hab => (decode_artifact.mp hab).symm
    rw [← List.forall₂_map_right_iff, List.forall₂_eq_eq_eq] at this
    exact this.symm
  · rintro rfl
    rw [List.forall₂_map_left_iff, List.forall₂_same]
    exact fun a _ => decode_artifact.mpr rfl

-- ── The receipt ──────────────────────────────────────────────────────────────────

/-- The position of the receipt after a tip. -/
def seqAfter (tip : Option TipRow) : ℕ :=
  match tip with
  | none => 0
  | some t => t.seq.1 + 1

/-- What the receipt after a tip names. -/
def prevHashOf (tip : Option TipRow) : Hex 64 :=
  match tip with
  | none => GENESIS_PREV_HASH
  | some t => t.hash

/-- **A receipt says what its event said**, at the position after a tip. -/
structure Records (event : ChainEvent) (tip : Option TipRow) (keyId : Hex 16) (p : Prepared)
    (r : UnsignedReceipt) : Prop where
  systemId : r.systemId = event.systemId
  seq : JsNumber.ofNat (seqAfter tip) = .fin r.seq.1 r.seq.2.1
  tsEvent : r.tsEvent.1 = event.tsEvent
  tsReceived : r.tsReceived = tsReceivedAfter event tip
  action : r.action.input = event.action
  inputHash : r.inputHash.map (fun h => h.1) = p.input.hash
  outputHash : r.outputHash.map (fun h => h.1) = p.output.hash
  outcome : r.outcome = event.outcome
  source : r.source.input = event.source
  prevHash : r.prevHash = prevHashOf tip
  keyId : r.keyId = keyId
  detail : ∃ actor artifacts model,
    r.detail = .v4 actor p.input.scheme p.output.scheme artifacts model ∧
    actor.input = p.actor ∧
    artifacts.map (fun list => list.1.map ArtifactEntryV3.input) = event.artifacts ∧
    model.map ModelInfo.input = event.model

section Reading

variable (event : ChainEvent) (tip : Option TipRow) (keyId : Hex 16) (p : Prepared)

/-- The members of the receipt, as it is put to the schema. -/
def unsignedMembers : List (JsString × Json) :=
  match unsignedJson event tip keyId p with
  | .obj members => members
  | _ => []

/-- The members are those of a version 4 receipt. -/
theorem unsignedMembers_keys : ∀ m ∈ unsignedMembers event tip keyId p, m.1 ∈ v4Fields.keys := by
  have hkeys : v4Fields.keys = [js "v", js "system_id", js "seq", js "ts_event", js "ts_received",
      js "actor", js "action", js "input_hash", js "output_hash", js "outcome", js "source",
      js "prev_hash", js "key_id", js "input_hash_scheme", js "output_hash_scheme", js "artifacts",
      js "model"] := rfl
  rw [hkeys]
  simp only [unsignedMembers, unsignedJson]
  cases event.artifacts with
  | none => cases event.model <;> simp [optional]
  | some list => cases event.model <;> simp [optional]

/-- The artifacts among the members. -/
theorem lookup_artifacts : (unsignedMembers event tip keyId p).lookup (js "artifacts")
    = event.artifacts.map fun list => .arr (list.map ArtifactInput.toJson) := by
  simp only [unsignedMembers, unsignedJson]
  cases event.artifacts with
  | none => cases event.model <;> rfl
  | some list => rfl

/-- The model among the members. -/
theorem lookup_model : (unsignedMembers event tip keyId p).lookup (js "model")
    = event.model.map ModelInput.toJson := by
  simp only [unsignedMembers, unsignedJson]
  cases event.artifacts with
  | none => cases event.model <;> rfl
  | some list => cases event.model <;> rfl

/-- A number is read exactly where it is a double. -/
theorem decode_count {n : ℕ} {x : Count} : countSchema.decode (.num (.ofNat n)) = some x ↔
    JsNumber.ofNat n = .fin x.1 x.2.1 := by
  constructor
  · intro h
    have := (countSchema.decode_iff (.num _)).mp h
    exact Json.num.inj this
  · intro h
    rw [h]
    exact countSchema.decode_encode x

/-- Digits are read as they were. -/
theorem decode_hex {n : ℕ} {a b : Hex n} : (hexString n).decode (.str a.1) = some b ↔ b = a :=
  decode_encode_eq (c := hexString n)

/-- A digest or null is read as it was. -/
theorem decode_nullableHash {s : Option JsString} {o : Option (Hex 64)} :
    nullableHash.decode (nullableJson s) = some o ↔ o.map (fun h => h.1) = s :=
  decode_nullableJson

/-- The members before the actor are read as the event had them. -/
theorem read_headFields {x : SystemId × Count × Timestamp × Timestamp} :
    headFields.read (fun k => (unsignedMembers event tip keyId p).lookup k) = some x ↔
    x.1 = event.systemId ∧ JsNumber.ofNat (seqAfter tip) = .fin x.2.1.1 x.2.1.2.1 ∧
      x.2.2.1.1 = event.tsEvent ∧ x.2.2.2 = tsReceivedAfter event tip := by
  rw [headFields, Fields.read_both, Fields.read_req rfl, Fields.read_both, Fields.read_req rfl,
    Fields.read_both, Fields.read_req rfl, Fields.read_req rfl]
  refine and_congr (decode_encode_eq (c := textSchema _)) (and_congr ?_ (and_congr ?_
    (decode_encode_eq (c := timestampSchema))))
  · cases tip with
    | none => exact decode_count
    | some t => exact decode_count
  · exact Codec.decode_str.trans eq_comm

/-- The members after it are read as the event had them. -/
theorem read_tailFields {x : Action × Option (Hex 64) × Option (Hex 64) × Outcome × Source × Hex 64
      × Hex 16} :
    tailFields.read (fun k => (unsignedMembers event tip keyId p).lookup k) = some x ↔
    x.1.input = event.action ∧ x.2.1.map (fun h => h.1) = p.input.hash ∧
      x.2.2.1.map (fun h => h.1) = p.output.hash ∧ x.2.2.2.1 = event.outcome ∧
      x.2.2.2.2.1.input = event.source ∧ x.2.2.2.2.2.1 = prevHashOf tip ∧
      x.2.2.2.2.2.2 = keyId := by
  rw [tailFields, Fields.read_both, Fields.read_req rfl, Fields.read_both, Fields.read_req rfl,
    Fields.read_both, Fields.read_req rfl, Fields.read_both, Fields.read_req rfl, Fields.read_both,
    Fields.read_req rfl, Fields.read_both, Fields.read_req rfl, Fields.read_req rfl]
  refine and_congr decode_action (and_congr decode_nullableHash (and_congr decode_nullableHash
    (and_congr (decode_encode_eq (c := outcomeSchema)) (and_congr decode_source
      (and_congr ?_ decode_hex)))))
  cases tip with
  | none => exact decode_hex
  | some t => exact decode_hex

/-- What the core of version 4 reads from the members. -/
theorem read_coreFields {core : ReceiptCore} {actor : ActorV4} :
    (coreFields .v4 actorV4Schema).read (fun k => (unsignedMembers event tip keyId p).lookup k)
      = some (core, actor) ↔
    (core.systemId = event.systemId ∧ JsNumber.ofNat (seqAfter tip) = .fin core.seq.1 core.seq.2.1 ∧
      core.tsEvent.1 = event.tsEvent ∧ core.tsReceived = tsReceivedAfter event tip) ∧
    actor.input = p.actor ∧ core.action.input = event.action ∧
    core.inputHash.map (fun h => h.1) = p.input.hash ∧
    core.outputHash.map (fun h => h.1) = p.output.hash ∧ core.outcome = event.outcome ∧
    core.source.input = event.source ∧ core.prevHash = prevHashOf tip ∧ core.keyId = keyId := by
  have hversion : (versionLiteral .v4).decode (.num (.ofNat 4)) = some () := by
    rw [JsNumber.ofNat_of_isDouble (isDouble_natCast (by norm_num))]
    exact (versionLiteral .v4).decode_encode ()
  refine Fields.read_iso.trans (Fields.read_both.trans ?_)
  refine (and_congr (Fields.read_req rfl) (Fields.read_both.trans (and_congr
    (read_headFields event tip keyId p) (Fields.read_both.trans (and_congr
      ((Fields.read_req rfl).trans decode_actor) (read_tailFields event tip keyId p)))))).trans ?_
  exact and_iff_right hversion

/-- The artifacts are read as the event had them. -/
theorem read_artifacts {artifacts : Option (NonEmpty ArtifactEntryV3)} :
    (Fields.opt (js "artifacts") (nonEmptyArray artifactV3Schema)).read
      (fun k => (unsignedMembers event tip keyId p).lookup k) = some artifacts ↔
    artifacts.map (fun list => list.1.map ArtifactEntryV3.input) = event.artifacts := by
  have hlookup := lookup_artifacts event tip keyId p
  cases he : event.artifacts with
  | none =>
      rw [he] at hlookup
      rw [Fields.read_opt_none hlookup, Option.map_eq_none_iff]
  | some list =>
      rw [he] at hlookup
      cases artifacts with
      | none => exact iff_of_false (Fields.read_opt_ne_none hlookup) (by simp)
      | some x =>
          rw [Fields.read_opt hlookup, decode_artifacts, Option.map_some, Option.some.injEq]

/-- The model is read as the event had it. -/
theorem read_model {model : Option ModelInfo} : (Fields.opt (js "model") modelSchema).read
      (fun k => (unsignedMembers event tip keyId p).lookup k) = some model ↔
    model.map ModelInfo.input = event.model := by
  have hlookup := lookup_model event tip keyId p
  cases he : event.model with
  | none =>
      rw [he] at hlookup
      rw [Fields.read_opt_none hlookup, Option.map_eq_none_iff]
  | some m =>
      rw [he] at hlookup
      cases model with
      | none => exact iff_of_false (Fields.read_opt_ne_none hlookup) (by simp)
      | some x => rw [Fields.read_opt hlookup, decode_model, Option.map_some, Option.some.injEq]

/-- What the fields of version 4 read from the members. -/
theorem read_v4Fields {core : ReceiptCore} {actor : ActorV4} {ins outs : Option HashScheme}
    {artifacts : Option (NonEmpty ArtifactEntryV3)} {model : Option ModelInfo} :
    v4Fields.read (fun k => (unsignedMembers event tip keyId p).lookup k)
      = some ((core, actor), (ins, outs), artifacts, model) ↔
    (coreFields .v4 actorV4Schema).read (fun k => (unsignedMembers event tip keyId p).lookup k)
      = some (core, actor) ∧
    (ins = p.input.scheme ∧ outs = p.output.scheme) ∧
    artifacts.map (fun list => list.1.map ArtifactEntryV3.input) = event.artifacts ∧
    model.map ModelInfo.input = event.model := by
  refine Fields.read_both.trans (and_congr_right' (Fields.read_both.trans (and_congr
    (Fields.read_both.trans (and_congr ?_ ?_)) (Fields.read_both.trans (and_congr
      (read_artifacts event tip keyId p) (read_model event tip keyId p))))))
  · exact (Fields.read_req rfl).trans decode_scheme
  · exact (Fields.read_req rfl).trans decode_scheme

/-- The version is the fourth. -/
theorem decode_version : versionSchema.decode (.num (.ofNat 4)) = some .v4 := by
  rw [JsNumber.ofNat_of_isDouble (isDouble_natCast (by norm_num))]
  exact versionSchema.decode_encode .v4

/-- **A receipt is read from what was put to the schema exactly when it records the event.** -/
theorem decode_unsignedJson {r : UnsignedReceipt} :
    unsignedReceiptSchema.decode (unsignedJson event tip keyId p) = some r ↔
      Records event tip keyId p r := by
  have hunion : unsignedReceiptSchema.decode (unsignedJson event tip keyId p) = some r ↔
      ∃ m, v4Fields.read (fun k => (unsignedMembers event tip keyId p).lookup k) = some m ∧
        bodyOf.symm r.toReceiptBody = ⟨.v4, m⟩ := by
    refine Codec.decode_iso.trans (Codec.decode_refine.trans (Codec.decode_iso.trans ?_))
    have hversion : (unsignedMembers event tip keyId p).lookup (js "v") = some (.num (.ofNat 4)) := rfl
    refine (Codec.decode_union hversion decode_version).trans ?_
    exact exists_congr fun m => and_congr_left' (Codec.decode_object
      (unsignedMembers_keys event tip keyId p))
  rw [hunion]
  obtain ⟨⟨core, detail⟩, hschemes⟩ := r
  constructor
  · rintro ⟨m, hread, hbody⟩
    have hbody := (Equiv.symm_apply_eq _).mp hbody
    obtain ⟨⟨core', actor⟩, ⟨ins, outs⟩, artifacts, model⟩ := m
    obtain ⟨rfl, rfl⟩ := ReceiptBody.mk.inj hbody
    obtain ⟨hcore, ⟨rfl, rfl⟩, hartifacts, hmodel⟩ := (read_v4Fields event tip keyId p).mp hread
    obtain ⟨⟨hsystem, hseq, htsEvent, htsReceived⟩, hactor, haction, hinput, houtput, houtcome,
      hsource, hprev, hkey⟩ := (read_coreFields event tip keyId p).mp hcore
    exact ⟨hsystem, hseq, htsEvent, htsReceived, haction, hinput, houtput, houtcome, hsource, hprev,
      hkey, actor, artifacts, model, rfl, hactor, hartifacts, hmodel⟩
  · intro h
    obtain ⟨actor, artifacts, model, hdetail, hactor, hartifacts, hmodel⟩ := h.detail
    obtain rfl : detail = _ := hdetail
    refine ⟨((core, actor), (p.input.scheme, p.output.scheme), artifacts, model),
      (read_v4Fields event tip keyId p).mpr ⟨?_, ⟨rfl, rfl⟩, hartifacts, hmodel⟩, rfl⟩
    exact (read_coreFields event tip keyId p).mpr ⟨⟨h.systemId, h.seq, h.tsEvent, h.tsReceived⟩,
      hactor, h.action, h.inputHash, h.outputHash, h.outcome, h.source, h.prevHash, h.keyId⟩

/-- **What is built records the event.** -/
theorem records_of_buildUnsigned {r : UnsignedReceipt} (h : buildUnsigned event tip keyId p = .ok r) :
    Records event tip keyId p r := by
  rw [buildUnsigned] at h
  cases hdecode : unsignedReceiptSchema.decode (unsignedJson event tip keyId p) with
  | none => simp [hdecode] at h
  | some found =>
      simp only [hdecode] at h
      cases hmalformed : malformedStringIn (unsignedReceiptSchema.encode found) [] with
      | some path => simp [hmalformed] at h
      | none =>
          rw [hmalformed] at h
          by_cases hsize : (canonicalReceiptBytes found).length > MAX_RECEIPT_BYTES
          · simp only [if_pos hsize] at h
            cases h
          · simp only [if_neg hsize] at h
            obtain rfl := Except.ok.inj h
            exact (decode_unsignedJson event tip keyId p).mp hdecode

end Reading

end Sigillo
