import Sigillo.Checkpoint

/-!
# What an export is made of

The manifest, and the lines of the files beside the receipts: a signed checkpoint with the
inclusion proofs and the tokens that come with it, a document's place, a disclosed nonce, a
disclosed identifier. -/

namespace Sigillo

open DoubleArith Utf16Text JsonText JsonSchema HexBase64 IsoTime

/-- `z.string().min(1)`. -/
abbrev SomeText := {s : JsString // 1 ≤ s.length}

/-- A string with something in it. -/
def someTextSchema : Codec SomeText := .str _

-- ── checkpoints.jsonl ────────────────────────────────────────────────────────────

/-- A receipt's proof in a checkpoint. -/
structure InclusionProofEntry where
  seq : Count
  receiptHash : Hex 64
  /-- The audit path, closest sibling first. -/
  path : List (Hex 64)
deriving DecidableEq

/-- Its members. -/
def inclusionProofSchema : Codec InclusionProofEntry :=
  (Codec.object (.both (.req (js "seq") countSchema)
    (.both (.req (js "receipt_hash") (hexString 64)) (.req (js "path") (hexString 64).arr)
      (by decide)) (by decide)) (by decide)).iso
    ⟨fun p => ⟨p.1, p.2.1, p.2.2⟩, fun e => (e.seq, e.receiptHash, e.path), fun _ => rfl,
      fun _ => rfl⟩

/-- A token in a checkpoint's entry. -/
structure ExportTimestamp where
  tsaUrl : SomeText
  obtainedAt : Timestamp
  /-- Where the token sits in the archive. -/
  file : SomeText
deriving DecidableEq

/-- Its members. -/
def exportTimestampSchema : Codec ExportTimestamp :=
  (Codec.object (.both (.req (js "tsa_url") someTextSchema)
    (.both (.req (js "obtained_at") timestampSchema) (.req (js "file") someTextSchema)
      (by decide)) (by decide)) (by decide)).iso
    ⟨fun p => ⟨p.1, p.2.1, p.2.2⟩, fun t => (t.tsaUrl, t.obtainedAt, t.file), fun _ => rfl,
      fun _ => rfl⟩

/-- **A line of `checkpoints.jsonl`.** -/
structure CheckpointEntry where
  checkpoint : Checkpoint
  proofs : List InclusionProofEntry
  timestamps : List ExportTimestamp
deriving DecidableEq

/-- The members of a checkpoint's entry. -/
def checkpointEntrySchema : Codec CheckpointEntry :=
  (Codec.object (.both (.req (js "checkpoint") checkpointSchema)
    (.both (.req (js "proofs") inclusionProofSchema.arr)
      (.req (js "timestamps") exportTimestampSchema.arr) (by decide)) (by decide)) (by decide)).iso
    ⟨fun p => ⟨p.1, p.2.1, p.2.2⟩, fun e => (e.checkpoint, e.proofs, e.timestamps), fun _ => rfl,
      fun _ => rfl⟩

-- ── artifacts-index.jsonl, openings.jsonl, subjects.jsonl ────────────────────────

/-- A line of `artifacts-index.jsonl`: one document, and the receipt that names it. -/
structure ArtifactsIndexEntry where
  sha256 : Hex 64
  seq : Count
  role : ArtifactRole
  label : Text MAX_NAME
  text : Option ArtifactText
deriving DecidableEq

/-- The members of a document's entry. -/
def artifactsIndexEntrySchema : Codec ArtifactsIndexEntry :=
  (Codec.object (.both (.req (js "sha256") (hexString 64))
    (.both (.req (js "seq") countSchema) (.both (.req (js "role") artifactRoleSchema)
    (.both (.req (js "label") (textSchema _)) (.opt (js "text") artifactTextSchema)
      (by decide)) (by decide)) (by decide)) (by decide)) (by decide)).iso
    ⟨fun p => ⟨p.1, p.2.1, p.2.2.1, p.2.2.2.1, p.2.2.2.2⟩,
      fun e => (e.sha256, e.seq, e.role, e.label, e.text), fun _ => rfl, fun _ => rfl⟩

/-- A line of `openings.jsonl`: the nonce of a salted digest. -/
structure OpeningEntry where
  seq : Count
  role : ArtifactRole
  nonce : Hex 64
deriving DecidableEq

/-- The members of an opening. -/
def openingEntrySchema : Codec OpeningEntry :=
  (Codec.object (.both (.req (js "seq") countSchema)
    (.both (.req (js "role") artifactRoleSchema) (.req (js "nonce") (hexString 64))
      (by decide)) (by decide)) (by decide)).iso
    ⟨fun p => ⟨p.1, p.2.1, p.2.2⟩, fun e => (e.seq, e.role, e.nonce), fun _ => rfl, fun _ => rfl⟩

/-- A line of `subjects.jsonl`: whom a pseudonym stood for. -/
structure SubjectEntry where
  token : Pseudonym
  identifier : Text MAX_NAME
deriving DecidableEq

/-- The members of a person's entry. -/
def subjectEntrySchema : Codec SubjectEntry :=
  (Codec.object (.both (.req (js "token") (.str _)) (.req (js "identifier") (textSchema _))
    (by decide)) (by decide)).iso
    ⟨fun p => ⟨p.1, p.2⟩, fun e => (e.token, e.identifier), fun _ => rfl, fun _ => rfl⟩

-- ── manifest.json ────────────────────────────────────────────────────────────────

/-- A key of the manifest. -/
structure ManifestKey where
  keyId : Hex 16
  publicKeyBase64 : {s : JsString // IsKeyText s}
deriving DecidableEq

/-- Its members. -/
def manifestKeySchema : Codec ManifestKey :=
  (Codec.object (.both (.req (js "key_id") (hexString 16))
    (.req (js "public_key_base64") (.str _)) (by decide)) (by decide)).iso
    ⟨fun p => ⟨p.1, p.2⟩, fun k => (k.keyId, k.publicKeyBase64), fun _ => rfl, fun _ => rfl⟩

/-- The positions of an export. -/
structure ManifestRange where
  fromSeq : Count
  toSeq : Count
  fromTs : Timestamp
  toTs : Timestamp
deriving DecidableEq

/-- Its members. -/
def manifestRangeSchema : Codec ManifestRange :=
  (Codec.object (.both (.req (js "from_seq") countSchema) (.both (.req (js "to_seq") countSchema)
    (.both (.req (js "from_ts") timestampSchema) (.req (js "to_ts") timestampSchema)
      (by decide)) (by decide)) (by decide)) (by decide)).iso
    ⟨fun p => ⟨p.1, p.2.1, p.2.2.1, p.2.2.2⟩, fun r => (r.fromSeq, r.toSeq, r.fromTs, r.toTs),
      fun _ => rfl, fun _ => rfl⟩

/-- The counts as they are written: two of them may be left out, and are then 0. -/
structure ManifestCounts where
  receipts : Count
  checkpointsMember : Option Count
  timestampsMember : Option Count
deriving DecidableEq

/-- `.default(0)`. -/
def countOr0 : Option Count → ℕ
  | some n => n.1
  | none => 0

/-- How many checkpoints; none where it is left out. -/
def ManifestCounts.checkpoints (c : ManifestCounts) : ℕ := countOr0 c.checkpointsMember

/-- How many tokens; none where it is left out. -/
def ManifestCounts.timestamps (c : ManifestCounts) : ℕ := countOr0 c.timestampsMember

/-- The members of the counts. -/
def manifestCountsSchema : Codec ManifestCounts :=
  (Codec.object (.both (.req (js "receipts") countSchema)
    (.both (.opt (js "checkpoints") countSchema) (.opt (js "timestamps") countSchema)
      (by decide)) (by decide)) (by decide)).iso
    ⟨fun p => ⟨p.1, p.2.1, p.2.2⟩, fun c => (c.receipts, c.checkpointsMember, c.timestampsMember),
      fun _ => rfl, fun _ => rfl⟩

/-- **The manifest**: what the archive claims to hold, and the keys to check it with. -/
structure Manifest where
  sigilloVersion : SomeText
  receiptVersion : ReceiptVersion
  systemId : SystemId
  exportedAt : Timestamp
  range : ManifestRange
  counts : ManifestCounts
  keys : NonEmpty ManifestKey
deriving DecidableEq

/-- The members of the manifest. -/
def manifestSchema : Codec Manifest :=
  (Codec.object (.both (.req (js "sigillo_version") someTextSchema)
    (.both (.req (js "receipt_version") versionSchema)
    (.both (.req (js "system_id") (textSchema _))
    (.both (.req (js "exported_at") timestampSchema)
    (.both (.req (js "range") manifestRangeSchema)
    (.both (.req (js "counts") manifestCountsSchema)
      (.req (js "keys") (nonEmptyArray manifestKeySchema))
      (by decide)) (by decide)) (by decide)) (by decide)) (by decide)) (by decide)) (by decide)).iso
    ⟨fun p => ⟨p.1, p.2.1, p.2.2.1, p.2.2.2.1, p.2.2.2.2.1, p.2.2.2.2.2.1, p.2.2.2.2.2.2⟩,
      fun m => (m.sigilloVersion, m.receiptVersion, m.systemId, m.exportedAt, m.range, m.counts,
        m.keys), fun _ => rfl, fun _ => rfl⟩

end Sigillo
