import Sigillo.ExportEntries

/-!
# The verifier

`verifyBundle` checks the files of an export against the format, in the order the format states
its rules, and stops at the first failure with the check, the place and the reason. Each numbered
rule of the source is a function here; a loop that stops at its first failure is one of two
generic ones, `checkEach` and `foldLines`. -/

namespace Sigillo

open DoubleArith Utf16Text JsonText JsonParse JsonSchema HexBase64 IsoTime

/-- **The files of an export**, decoded. -/
structure Bundle where
  manifestJson : JsString
  receiptsJsonl : JsString
  checkpointsJsonl : Option JsString
  artifactsIndexJsonl : Option JsString
  openingsJsonl : Option JsString
  subjectsJsonl : Option JsString

/-- What a failure is of. -/
inductive VerificationCheck where
  | manifest | receiptJson | receiptSchema | system | sequence | genesis | chainLink | key
  | signature | range | checkpointJson | checkpointSchema | checkpointSignature | merkleRoot
  | inclusionProof | artifactsIndex | openings | subjects | previousExport
deriving DecidableEq

/-- A check that failed. -/
structure Failure where
  check : VerificationCheck
  location : JsString
  detail : JsString

/-- The key identifiers expected from outside the archive, when there are any, and the texts the
    JSON parser and zod give for what they refuse. -/
structure VerifyOptions where
  trustedKeyIds : Option (List (Hex 16))
  jsonError : JsString → JsString
  issues : VerificationCheck → Json → JsString

/-- A checkpoint tied to the receipts. -/
structure LinkedCheckpoint where
  line : ℕ
  entry : CheckpointEntry

/-- What is said of an export that was accepted. -/
structure VerificationSummary where
  systemId : SystemId
  receipts : ℕ
  firstSeq : Count
  lastSeq : Count
  keyIds : List (Hex 16)
  checkpoints : ℕ
  inclusionProofs : ℕ
  rootsRecomputed : ℕ
  artifactsIndexed : ℕ
  unlinkedCheckpoints : ℕ
  unanchoredReceipts : ℕ
  openingsDisclosed : ℕ
  subjectsDisclosed : ℕ

/-- An export that verified. -/
structure Verified where
  summary : VerificationSummary
  receipts : List Receipt
  linkedCheckpoints : List LinkedCheckpoint
  /-- The receipts that `unanchoredReceipts` counts. -/
  unanchored : List Receipt

-- ── Lines and loops ──────────────────────────────────────────────────────────────

/-- A white space or a line terminator, as `trim` strips them. -/
def isTrimmed (u : UInt16) : Bool :=
  (0x09 ≤ u.toNat && u.toNat ≤ 0x0D) || u == 0x20 || u == 0xA0 || u == 0x1680 ||
    (0x2000 ≤ u.toNat && u.toNat ≤ 0x200A) || u == 0x2028 || u == 0x2029 || u == 0x202F ||
    u == 0x205F || u == 0x3000 || u == 0xFEFF

/-- The lines of a file that hold something. -/
def jsonLines (text : JsString) : List JsString :=
  (splitLines text).filter fun line => !line.all isTrimmed

/-- A check of one item after another, the first at `line`. -/
def checkEach {α : Type} (check : ℕ → α → Option Failure) : ℕ → List α → Except Failure Unit
  | _, [] => .ok ()
  | line, a :: rest =>
      match check line a with
      | some failure => .error failure
      | none => checkEach check (line + 1) rest

/-- One item after another taken into a state, the first at `line`. -/
def foldEach {α σ : Type} (step : ℕ → σ → α → Except Failure σ) : ℕ → σ → List α → Except Failure σ
  | _, s, [] => .ok s
  | line, s, a :: rest =>
      match step line s a with
      | .error failure => .error failure
      | .ok s' => foldEach step (line + 1) s' rest

variable (o : VerifyOptions)

/-- A line of a file, read by a schema. -/
def readEntry {α : Type} (json schema : VerificationCheck) (codec : Codec α) (location line : JsString) :
    Except Failure α :=
  match jsonParse line with
  | none => .error ⟨json, location, js "is not valid JSON: " ++ o.jsonError line⟩
  | some value =>
      match codec.decode value with
      | none => .error ⟨schema, location, o.issues schema value⟩
      | some entry => .ok entry

/-- The lines of a file, each read and then taken into a state before the next is read. -/
def foldLines {α σ : Type} (json schema : VerificationCheck) (codec : Codec α) (at' : ℕ → JsString)
    (step : ℕ → σ → α → Except Failure σ) : ℕ → σ → List JsString → Except Failure σ :=
  foldEach fun line s text =>
    match readEntry o json schema codec (at' line) text with
    | .error failure => .error failure
    | .ok entry => step line s entry

/-- A line of a file. -/
def atLine (file : JsString) (line : ℕ) : JsString := file ++ js ":" ++ decimal line

/-- A line of the receipts. -/
def atReceipt : ℕ → JsString := atLine (js "receipts.jsonl")

/-- A line of the checkpoints. -/
def atCheckpoint : ℕ → JsString := atLine (js "checkpoints.jsonl")

-- ── 1. The manifest ──────────────────────────────────────────────────────────────

variable (c : Crypto)

/-- The manifest of a bundle. -/
def readManifest (b : Bundle) : Except Failure Manifest :=
  readEntry o .manifest .manifest manifestSchema (js "manifest.json") b.manifestJson

/-- The first 16 hexadecimal characters of the SHA-256 of the raw key. -/
def keyIdFromRawPublicKey (raw : Bytes) : JsString := (c.sha256Hex raw).1.take 16

/-- `Map.set`. -/
def setKey (keys : List (Hex 16 × Bytes)) (keyId : Hex 16) (raw : Bytes) : List (Hex 16 × Bytes) :=
  if keys.any fun k => k.1 == keyId then
    keys.map fun k => if k.1 = keyId then (keyId, raw) else k
  else keys ++ [(keyId, raw)]

/-- One key of the manifest: readable, of its own id, and not there twice. -/
def manifestKey (_ : ℕ) (keys : List (Hex 16 × Bytes)) (entry : ManifestKey) :
    Except Failure (List (Hex 16 × Bytes)) :=
  let raw := base64Decode entry.publicKeyBase64.1
  if raw.length ≠ 32 then
    .error ⟨.key, js "manifest.json", js "key " ++ entry.keyId.1
      ++ js " is not a 32-byte public key"⟩
  else if keyIdFromRawPublicKey c raw ≠ entry.keyId.1 then
    .error ⟨.key, js "manifest.json", js "the manifest publishes a key under key_id "
      ++ entry.keyId.1 ++ js ", but that key's identifier is " ++ keyIdFromRawPublicKey c raw⟩
  else .ok (setKey keys entry.keyId raw)

/-- The keys the manifest publishes, by the identifier derived from each. -/
def keysById (m : Manifest) : Except Failure (List (Hex 16 × Bytes)) :=
  foldEach (manifestKey c) 1 [] m.keys.1

-- ── 2. to 4. The receipts ────────────────────────────────────────────────────────

/-- An export without receipts. -/
def noReceipts : Failure :=
  ⟨.range, js "receipts.jsonl", js "the export contains no receipts"⟩

/-- The receipts of a bundle. -/
def readReceipts (b : Bundle) : Except Failure (List Receipt) :=
  let rawLines := jsonLines b.receiptsJsonl
  if rawLines = [] then .error noReceipts
  else foldLines o .receiptJson .receiptSchema receiptSchema atReceipt
    (fun _ receipts receipt => .ok (receipts ++ [receipt])) 1 [] rawLines

/-- A receipt is of the export's system. -/
def checkSystem (m : Manifest) (line : ℕ) (r : Receipt) : Option Failure :=
  if r.systemId ≠ m.systemId then
    some ⟨.system, atReceipt line, js "receipt seq " ++ countText r.seq.1 ++ js " belongs to system "
      ++ r.systemId.1 ++ js ", but the manifest declares " ++ m.systemId.1⟩
  else none

/-- The first receipt is where the manifest says. -/
def checkStart (m : Manifest) (first : Receipt) : Except Failure Unit :=
  if first.seq ≠ m.range.fromSeq then
    .error ⟨.range, atReceipt 1, js "the manifest declares the export starts at seq "
      ++ countText m.range.fromSeq.1 ++ js ", but the first receipt is seq " ++ countText first.seq.1⟩
  else .ok ()

/-- `first.seq + index`: a sum of doubles. -/
def expectedSeqAt (first : Receipt) (index : ℕ) : ℕ := roundNat (first.seq.1 + index)

/-- A receipt is at its position. -/
def checkSequence (receipts : List Receipt) (first : Receipt) (line : ℕ) (r : Receipt) :
    Option Failure :=
  let expected := expectedSeqAt first (line - 1)
  if r.seq.1 ≠ expected then
    let previous := if line - 1 = 0 then none else receipts[line - 2]?
    some ⟨.sequence, atReceipt line,
      if previous.map (fun p => p.seq) = some r.seq then
        js "seq " ++ countText r.seq.1 ++ js " appears twice"
      else js "expected seq " ++ countText expected ++ js ", found seq " ++ countText r.seq.1⟩
  else none

-- ── 5. to 8. The chain ───────────────────────────────────────────────────────────

/-- A chain starts with its genesis. -/
def checkGenesis (first : Receipt) : Except Failure Unit :=
  if first.seq.1 = 0 then
    if first.action.kind ≠ .genesis then
      .error ⟨.genesis, atReceipt 1, js "seq 0 must be a genesis receipt, found "
        ++ first.action.kind.name⟩
    else if first.action.name.1 ≠ first.systemId.1 then
      .error ⟨.genesis, atReceipt 1, js "a genesis receipt names its system in action.name, found "
        ++ first.action.name.1⟩
    else if first.prevHash ≠ GENESIS_PREV_HASH then
      .error ⟨.genesis, atReceipt 1, js "a genesis receipt must carry 64 zeros as prev_hash"⟩
    else .ok ()
  else .ok ()

/-- Each receipt after the first, with the one before it. -/
def checkLink (line : ℕ) (pair : Receipt × Receipt) : Option Failure :=
  let expected := receiptHashHex c pair.1.toUnsignedReceipt
  if pair.2.prevHash ≠ expected then
    some ⟨.chainLink, atReceipt line, js "receipt seq " ++ countText pair.2.seq.1
      ++ js " carries prev_hash " ++ pair.2.prevHash.1 ++ js ", but receipt seq "
      ++ countText pair.1.seq.1 ++ js " hashes to " ++ expected.1
      ++ js ": one of the two has been altered"⟩
  else none

/-- The key of a statement, when it is published and, if told which to expect, expected. -/
def statementKey (keys : List (Hex 16 × Bytes)) (keyId : Hex 16) (location what : JsString) :
    Except Failure Bytes :=
  match keys.lookup keyId with
  | none => .error ⟨.key, location, what ++ js " is signed by key " ++ keyId.1
      ++ js ", which the manifest does not publish"⟩
  | some key =>
      if (o.trustedKeyIds.map fun trusted => trusted.contains keyId) = some false then
        .error ⟨.key, location, what ++ js " is signed by key " ++ keyId.1
          ++ js ", which is not a key you said to expect (--key-id)"⟩
      else .ok key

/-- A receipt's signature is its key's. -/
def checkSignature (keys : List (Hex 16 × Bytes)) (line : ℕ) (r : Receipt) : Option Failure :=
  match statementKey o keys r.keyId (atReceipt line) (js "receipt seq " ++ countText r.seq.1) with
  | .error failure => some failure
  | .ok key =>
      if ¬ verifyReceiptSignature c r key then
        some ⟨.signature, atReceipt line, js "receipt seq " ++ countText r.seq.1
          ++ js " is not signed by key " ++ r.keyId.1⟩
      else none

-- ── 9. Documents, nonces, identifiers ────────────────────────────────────────────

/-- The documents a receipt names, those of version 2 without a text fingerprint. -/
def Receipt.artifacts (r : Receipt) : List ArtifactEntryV3 :=
  match r.detail with
  | .v1 _ => []
  | .v2 _ artifacts _ => ((artifacts.map fun a => a.1).getD []).map fun a => ⟨a, none⟩
  | .v3 _ artifacts _ => (artifacts.map fun a => a.1).getD []
  | .v4 _ _ _ artifacts _ => (artifacts.map fun a => a.1).getD []

/-- The members of a document that are compared, joined by NUL. -/
def artifactKey (seq : Count) (role : ArtifactRole) (label : JsString) (sha256 : Hex 64)
    (text : Option ArtifactText) : JsString :=
  countText seq.1 ++ 0 :: role.name ++ 0 :: label ++ 0 :: sha256.1
    ++ 0 :: (if text.isSome then js "sigillo-text/1" else [])
    ++ 0 :: (text.map fun t => t.sha256.1).getD []

/-- The documents the receipts declare, as they are compared. -/
def declaredArtifacts (receipts : List Receipt) : List JsString :=
  receipts.flatMap fun r => r.artifacts.map fun a => artifactKey r.seq a.role a.label.1 a.sha256 a.text

/-- `[...keys].sort().join("\n")`. -/
def sortedText (keys : List JsString) : JsString :=
  (keys.mergeSort lexLe).intersperse [0x0A] |>.flatten

/-- **The index lists what the receipts declare.** -/
def checkArtifacts (b : Bundle) (receipts : List Receipt) :
    Except Failure (List ArtifactsIndexEntry) :=
  match foldLines o .artifactsIndex .artifactsIndex artifactsIndexEntrySchema
      (atLine (js "artifacts-index.jsonl")) (fun _ entries entry => .ok (entries ++ [entry])) 1 []
      (jsonLines (b.artifactsIndexJsonl.getD [])) with
  | .error failure => .error failure
  | .ok entries =>
      let declared := declaredArtifacts receipts
      let indexed := entries.map fun e => artifactKey e.seq e.role e.label.1 e.sha256 e.text
      if sortedText declared ≠ sortedText indexed then
        .error ⟨.artifactsIndex, js "artifacts-index.jsonl",
          js "the index does not match the artifacts the receipts declare: "
            ++ countText declared.length ++ js " declared by the receipts, "
            ++ countText indexed.length ++ js " indexed"⟩
      else .ok entries

/-- The scheme of a receipt's digest, which only version 4 names. -/
def Receipt.hashScheme (r : Receipt) (role : ArtifactRole) : Option HashScheme :=
  match r.detail, role with
  | .v4 _ inputHashScheme _ _ _, .input => inputHashScheme
  | .v4 _ _ outputHashScheme _ _, .output => outputHashScheme
  | _, _ => none

/-- The receipt at a position. -/
def findSeq (receipts : List Receipt) (seq : Count) : Option Receipt :=
  receipts.find? fun r => decide (r.seq = seq)

/-- A line of the openings. -/
def atOpening : ℕ → JsString := atLine (js "openings.jsonl")

/-- A nonce is for a salted digest of these receipts, and stands once. -/
def checkOpening (receipts : List Receipt) (line : ℕ) (opened : List JsString) (e : OpeningEntry) :
    Except Failure (List JsString) :=
  match findSeq receipts e.seq with
  | none => .error ⟨.openings, atOpening line, js "the nonce is for seq " ++ countText e.seq.1
      ++ js ", which this export does not contain"⟩
  | some r =>
      let key := countText e.seq.1 ++ 0x3A :: e.role.name
      if r.hashScheme e.role ≠ some .salted then
        .error ⟨.openings, atOpening line, js "the " ++ e.role.name ++ js " of seq "
          ++ countText e.seq.1 ++ js " is not a salted digest, so it has no nonce"⟩
      else if key ∈ opened then
        .error ⟨.openings, atOpening line, js "the nonce for the " ++ e.role.name ++ js " of seq "
          ++ countText e.seq.1 ++ js " appears twice"⟩
      else .ok (opened ++ [key])

/-- Whom a receipt says it was done for. -/
def Receipt.onBehalfOf (r : Receipt) : Option JsString :=
  match r.detail with
  | .v1 actor | .v2 actor _ _ | .v3 actor _ _ => actor.onBehalfOf.map fun s => s.1
  | .v4 actor _ _ _ _ => actor.onBehalfOf.map fun s => s.1

/-- A line of the subjects. -/
def atSubject : ℕ → JsString := atLine (js "subjects.jsonl")

/-- An identifier is for a token these receipts use, and stands once. -/
def checkSubject (receipts : List Receipt) (line : ℕ) (tokens : List JsString) (e : SubjectEntry) :
    Except Failure (List JsString) :=
  if e.token.1 ∉ receipts.filterMap fun r => r.onBehalfOf then
    .error ⟨.subjects, atSubject line, e.token.1
      ++ js " is the on_behalf_of of no receipt in this export"⟩
  else if e.token.1 ∈ tokens then
    .error ⟨.subjects, atSubject line, e.token.1 ++ js " appears twice"⟩
  else .ok (tokens ++ [e.token.1])

-- ── 10. to 12. Checkpoints ───────────────────────────────────────────────────────

/-- What the checkpoints read so far come to. -/
structure CheckpointState where
  checkpoints : List CheckpointEntry
  linkedCheckpoints : List LinkedCheckpoint
  rootsRecomputed : ℕ
  proofsChecked : ℕ
  unlinked : ℕ
  /-- The highest size among the checkpoints tied to these receipts. -/
  anchoredThrough : Option ℕ

/-- Before the first checkpoint. -/
def CheckpointState.start : CheckpointState := ⟨[], [], 0, 0, 0, none⟩

/-- The export holds the receipts the tree was built from. -/
def rebuildable (receipts : List Receipt) (treeSize : ℕ) : Bool :=
  (receipts.head?.map fun r => r.seq.1) == some 0 && decide (treeSize ≤ receipts.length)

/-- The root over the first receipts. -/
def recomputedRoot (receipts : List Receipt) (treeSize : ℕ) : Hex 64 :=
  (merkleRoot c ((receipts.take treeSize).map fun r => receiptHash c r.toUnsignedReceipt)).hex

/-- A proof ties a receipt of this export to the checkpoint's root. -/
def checkProof (receipts : List Receipt) (checkpoint : Checkpoint) (location : JsString) (_ : ℕ)
    (proof : InclusionProofEntry) : Option Failure :=
  match findSeq receipts proof.seq with
  | none => some ⟨.inclusionProof, location, js "the proof is for seq " ++ countText proof.seq.1
      ++ js ", which this export does not contain"⟩
  | some r =>
      let hash := receiptHashHex c r.toUnsignedReceipt
      if hash ≠ proof.receiptHash then
        some ⟨.inclusionProof, location, js "the proof for seq " ++ countText proof.seq.1
          ++ js " is over " ++ proof.receiptHash.1 ++ js ", but that receipt hashes to " ++ hash.1⟩
      else
        match rootFromInclusionProof c (receiptHash c r.toUnsignedReceipt).1 proof.seq.1
            checkpoint.treeSize.1 (proof.path.map digestOfHex) with
        | .error message => some ⟨.inclusionProof, location, js "the proof for seq "
            ++ countText proof.seq.1 ++ js " is malformed: " ++ message⟩
        | .ok rebuilt =>
            if rebuilt.hex ≠ checkpoint.rootHash then
              some ⟨.inclusionProof, location, js "the proof for seq " ++ countText proof.seq.1
                ++ js " rebuilds " ++ rebuilt.hex.1 ++ js ", not the checkpoint's root "
                ++ checkpoint.rootHash.1⟩
            else none

/-- A checkpoint tied to the receipts: its root can be rebuilt, or it carries a proof. -/
def isLinked (receipts : List Receipt) (e : CheckpointEntry) : Bool :=
  rebuildable receipts e.checkpoint.treeSize.1 || !e.proofs.isEmpty

/-- A checkpoint is signed by a published key, its root is that of the receipts where they are all
    here, and its proofs hold. -/
def checkCheckpoint (m : Manifest) (keys : List (Hex 16 × Bytes)) (receipts : List Receipt)
    (line : ℕ) (e : CheckpointEntry) : Except Failure Unit :=
  let checkpoint := e.checkpoint
  let size := checkpoint.treeSize.1
  if checkpoint.systemId ≠ m.systemId then
    .error ⟨.system, atCheckpoint line, js "the checkpoint covers system " ++ checkpoint.systemId.1
      ++ js ", but the manifest declares " ++ m.systemId.1⟩
  else
    match statementKey o keys checkpoint.keyId (atCheckpoint line) (js "the checkpoint") with
    | .error failure => .error failure
    | .ok key =>
        if ¬ verifyCheckpointSignature c checkpoint key then
          .error ⟨.checkpointSignature, atCheckpoint line, js "the checkpoint over "
            ++ countText size ++ js " receipts is not signed by key " ++ checkpoint.keyId.1⟩
        else if rebuildable receipts size ∧ recomputedRoot c receipts size ≠ checkpoint.rootHash then
          .error ⟨.merkleRoot, atCheckpoint line, js "the checkpoint claims root "
            ++ checkpoint.rootHash.1 ++ js " over " ++ countText size
            ++ js " receipts, but those receipts build " ++ (recomputedRoot c receipts size).1⟩
        else checkEach (checkProof c receipts checkpoint (atCheckpoint line)) 1 e.proofs

/-- One checkpoint more. -/
def CheckpointState.add (receipts : List Receipt) (line : ℕ) (s : CheckpointState)
    (e : CheckpointEntry) : CheckpointState where
  checkpoints := s.checkpoints ++ [e]
  linkedCheckpoints :=
    if isLinked receipts e then s.linkedCheckpoints ++ [⟨line, e⟩] else s.linkedCheckpoints
  rootsRecomputed :=
    s.rootsRecomputed + if rebuildable receipts e.checkpoint.treeSize.1 then 1 else 0
  proofsChecked := s.proofsChecked + e.proofs.length
  unlinked := s.unlinked + if isLinked receipts e then 0 else 1
  anchoredThrough :=
    if isLinked receipts e then some (max (s.anchoredThrough.getD 0) e.checkpoint.treeSize.1)
    else s.anchoredThrough

/-- One checkpoint is checked and added. -/
def checkpointStep (m : Manifest) (keys : List (Hex 16 × Bytes)) (receipts : List Receipt)
    (line : ℕ) (s : CheckpointState) (e : CheckpointEntry) : Except Failure CheckpointState :=
  match checkCheckpoint o c m keys receipts line e with
  | .error failure => .error failure
  | .ok () => .ok (s.add receipts line e)

-- ── 13. The manifest's claims ────────────────────────────────────────────────────

/-- How many tokens the checkpoints reference. -/
def tokenCount (checkpoints : List CheckpointEntry) : ℕ :=
  (checkpoints.map fun e => e.timestamps.length).sum

/-- The highest version of a receipt. -/
def highestVersion (receipts : List Receipt) : ℕ :=
  receipts.foldl (fun highest r => max highest r.v.number) 0

/-- The manifest agrees with the files. -/
def checkManifest (m : Manifest) (receipts : List Receipt) (first last : Receipt)
    (checkpoints : List CheckpointEntry) : Except Failure Unit :=
  let refuse (detail : JsString) : Except Failure Unit :=
    .error ⟨.range, js "manifest.json", detail⟩
  if last.seq ≠ m.range.toSeq then
    refuse (js "the manifest declares the export ends at seq " ++ countText m.range.toSeq.1
      ++ js ", but the last receipt is seq " ++ countText last.seq.1)
  else if m.range.fromTs ≠ first.tsReceived ∨ m.range.toTs ≠ last.tsReceived then
    refuse (js "the manifest's range."
      ++ (if m.range.fromTs ≠ first.tsReceived then js "from_ts is " ++ m.range.fromTs.1
        else js "to_ts is " ++ m.range.toTs.1)
      ++ js ", but the receipts run from " ++ first.tsReceived.1 ++ js " to " ++ last.tsReceived.1)
  else if m.counts.receipts.1 ≠ receipts.length then
    refuse (js "the manifest declares " ++ countText m.counts.receipts.1
      ++ js " receipts, but the export holds " ++ countText receipts.length)
  else if m.counts.checkpoints ≠ checkpoints.length then
    refuse (js "the manifest declares " ++ countText m.counts.checkpoints
      ++ js " checkpoints, but the export holds " ++ countText checkpoints.length)
  else if m.counts.timestamps ≠ tokenCount checkpoints then
    refuse (js "the manifest declares " ++ countText m.counts.timestamps
      ++ js " timestamp tokens, but the checkpoints reference " ++ countText (tokenCount checkpoints))
  else if m.receiptVersion.number ≠ highestVersion receipts then
    refuse (js "the manifest declares receipt_version " ++ countText m.receiptVersion.number
      ++ js ", but the highest version among the receipts is " ++ countText (highestVersion receipts))
  else .ok ()

/-- The receipts no checkpoint tied to them covers; none when no checkpoint is tied to them. -/
def unanchoredReceipts (receipts : List Receipt) : Option ℕ → List Receipt
  | none => []
  | some through => receipts.filter fun r => decide (through ≤ r.seq.1)

/-- **`verifyBundle`.** -/
def verifyBundle (b : Bundle) : Except Failure Verified := do
  let manifest ← readManifest o b
  let keys ← keysById c manifest
  let receipts ← readReceipts o b
  checkEach (checkSystem manifest) 1 receipts
  match receipts.head?, receipts.getLast? with
  | some first, some last =>
      checkStart manifest first
      checkEach (checkSequence receipts first) 1 receipts
      checkGenesis first
      checkEach (checkLink c) 2 (receipts.zip receipts.tail)
      checkEach (checkSignature o c keys) 1 receipts
      let artifacts ← checkArtifacts o b receipts
      let opened ← foldLines o .openings .openings openingEntrySchema atOpening
        (checkOpening receipts) 1 [] (jsonLines (b.openingsJsonl.getD []))
      let named ← foldLines o .subjects .subjects subjectEntrySchema atSubject
        (checkSubject receipts) 1 [] (jsonLines (b.subjectsJsonl.getD []))
      let state ← foldLines o .checkpointJson .checkpointSchema checkpointEntrySchema atCheckpoint
        (checkpointStep o c manifest keys receipts) 1 .start
        (jsonLines (b.checkpointsJsonl.getD []))
      checkManifest manifest receipts first last state.checkpoints
      let unanchored := unanchoredReceipts receipts state.anchoredThrough
      return {
        summary := {
          systemId := manifest.systemId
          receipts := receipts.length
          firstSeq := first.seq
          lastSeq := last.seq
          keyIds := keys.map Prod.fst
          checkpoints := state.checkpoints.length
          inclusionProofs := state.proofsChecked
          rootsRecomputed := state.rootsRecomputed
          artifactsIndexed := artifacts.length
          unlinkedCheckpoints := state.unlinked
          unanchoredReceipts := unanchored.length
          openingsDisclosed := opened.length
          subjectsDisclosed := named.length }
        receipts := receipts
        linkedCheckpoints := state.linkedCheckpoints
        unanchored := unanchored }
  | _, _ => throw noReceipts

end Sigillo
