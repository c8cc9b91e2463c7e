import Sigillo.Exporter
import Sigillo.Administration

/-!
# An archive of what the store keeps

`archiveFromStore` reads one system's chain, or the part of it that was received in a window, with the
chain's hashes, checkpoints and tokens, and the nonces and persons the operator chose to disclose.
Only what was asked for is disclosed, and only what the database still holds: an erased person or
nonce is not there. -/

namespace Sigillo

open DoubleArith Utf16Text JsonText JsonSchema HexBase64 IsoTime

-- ── What is read ─────────────────────────────────────────────────────────────────

namespace Database

variable (db : Database) (systemId : SystemId)

/-- **`readChain`**; `none` where a row does not read back. -/
def readChain : Option (List Receipt) := (db.chainRows systemId).mapM rowToReceipt

/-- The position the window begins at: that of the first receipt received at or after `fromTs`. -/
def firstSeqOf (fromTs : Option JsString) : Option ℕ :=
  match fromTs with
  | none => some 0
  | some bound => (((db.chainRows systemId).filter fun r => lexLe bound r.tsReceived.1).map fun r => r.seq.1).min?

/-- And the one it ends at: that of the last receipt received at or before `toTs`. -/
def lastSeqOf (toTs : Option JsString) : Option ℕ :=
  match toTs with
  | none => ((db.chainRows systemId).map fun r => r.seq.1).max?
  | some bound => (((db.chainRows systemId).filter fun r => lexLe r.tsReceived.1 bound).map fun r => r.seq.1).max?

/-- **`readChainInRange`**: the dates only choose where the run starts and ends. -/
def readChainInRange (fromTs toTs : Option JsString) : Option (List Receipt) :=
  match db.firstSeqOf systemId fromTs, db.lastSeqOf systemId toTs with
  | some firstSeq, some lastSeq =>
      if firstSeq > lastSeq then some []
      else ((db.chainRows systemId).filter fun r =>
        decide (firstSeq ≤ r.seq.1) && decide (r.seq.1 ≤ lastSeq)).mapM rowToReceipt
  | _, _ => some []

/-- `readReceiptHashes`. -/
def readReceiptHashes : List (Hex 64) := (db.chainRows systemId).map fun r => r.hash

/-- `readCheckpoints`. -/
def readCheckpoints : List StoredCheckpoint :=
  ((db.checkpoints.filter fun r => r.checkpoint.systemId == systemId).mergeSort
    fun a b => decide (a.checkpoint.treeSize.1 ≤ b.checkpoint.treeSize.1)).map fun r => ⟨r.id, r.checkpoint⟩

/-- The rows of a checkpoint's tokens, `ORDER BY obtained_at`. -/
def readTimestamps (checkpointId : ℕ) : List TimestampRow :=
  (db.timestamps.filter fun t => t.checkpointId == checkpointId).mergeSort
    fun a b => lexLe a.obtainedAt.1 b.obtainedAt.1

/-- **`subjectIdentifierIn`**: only of someone a receipt of this system was made on behalf of. -/
def subjectIdentifierIn (token : JsString) : Option JsString :=
  if db.receipts.any fun r => r.systemId == systemId && namedIn r == some token then
    (db.subjects.find? fun s => s.token.1 == token).map fun s => s.identifier
  else none

/-- **`openingsOf`**: the nonces still held for some receipts. -/
def openingsOf (seqs : List Count) : List OpeningRow :=
  (seqs.dedup.mergeSort fun a b => decide (a.1 ≤ b.1)).flatMap fun seq =>
    (db.openings.filter fun o => o.systemId == systemId && o.seq == seq).mergeSort
      fun a b => lexLe a.role.name b.role.name

end Database

-- ── As the archive holds it ──────────────────────────────────────────────────────

/-- What the operator asked an export for. -/
structure ExportRequest where
  fromTs : Option JsString
  toTs : Option JsString
  /-- Whose identifier the export should carry. -/
  subjects : List JsString
  /-- Whose nonces it should carry. -/
  openings : List Count
  exportedAt : Timestamp

/-- A row of `timestamps`, read. -/
def storedTimestamp (row : TimestampRow) : Option StoredTimestamp :=
  if h : 1 ≤ row.tsaUrl.length then some ⟨⟨row.tsaUrl, h⟩, row.tokenBase64, row.obtainedAt⟩ else none

/-- A checkpoint with its tokens. -/
def checkpointInput (db : Database) (stored : StoredCheckpoint) : Option CheckpointInput :=
  ((db.readTimestamps stored.id).mapM storedTimestamp).map fun timestamps => ⟨stored, timestamps⟩

/-- A key as a manifest lists it. -/
def publishedKey (k : Hex 16 × Bytes) : Option ManifestKey :=
  if h : IsKeyText (base64Encode k.2) then some ⟨k.1, base64Encode k.2, h⟩ else none

/-- An opening as an archive discloses it. -/
def openingEntry (o : OpeningRow) : Option OpeningEntry :=
  if h : IsHex 64 o.nonce then some ⟨o.seq, o.role, o.nonce, h⟩ else none

/-- The items of a list, each where it comes first. -/
def distinct : List JsString → List JsString
  | [] => []
  | a :: rest => a :: (distinct rest).filter fun b => !(b == a)

/-- A token and the identifier it stands for, where there is one to disclose. -/
def disclosed (db : Database) (systemId : SystemId) (token : JsString) : Option (Pseudonym × JsString) :=
  if h : isPseudonym token then (db.subjectIdentifierIn systemId token).map fun identifier => (⟨token, h⟩, identifier)
  else none

/-- A person as an archive discloses them. -/
def subjectEntry (found : Pseudonym × JsString) : Option SubjectEntry :=
  if h : 1 ≤ found.2.length ∧ found.2.length ≤ MAX_NAME then some ⟨found.1, found.2, h⟩ else none

-- ── The archive ──────────────────────────────────────────────────────────────────

/-- The receipts that are exported. -/
def exportedReceipts (db : Database) (systemId : SystemId) (request : ExportRequest) : Option (List Receipt) :=
  if request.fromTs = none ∧ request.toTs = none then db.readChain systemId
  else db.readChainInRange systemId request.fromTs request.toTs

/-- What `buildArchive` is given; `none` where a row cannot stand in an archive that is read back. -/
def archiveInput (sigilloVersion : SomeText) (db : Database) (systemId : SystemId) (request : ExportRequest) :
    Option ArchiveInput := do
  let receipts ← exportedReceipts db systemId request
  let subjects ← ((distinct request.subjects).filterMap (disclosed db systemId)).mapM subjectEntry
  let openings ← (db.openingsOf systemId request.openings).mapM openingEntry
  let checkpoints ← (db.readCheckpoints systemId).mapM (checkpointInput db)
  let keys ← db.signingKeys.mapM publishedKey
  if h : (FitsArray receipts ∧ FitsArray checkpoints ∧ FitsArray (checkpoints.flatMap fun e => e.timestamps)) ∧
      1 ≤ keys.length then
    some {
      sigilloVersion
      systemId
      receipts
      checkpoints
      keys := ⟨keys, h.2⟩
      exportedAt := request.exportedAt
      chainLeaves := some (db.readReceiptHashes systemId)
      openings
      subjects
      receipts_fit := h.1.1
      checkpoints_fit := h.1.2.1
      tokens_fit := h.1.2.2 }
  else none

/-- **`archiveFromStore`**; `none` where the source throws. -/
def archiveFromStore (c : Crypto) (sigilloVersion : SomeText) (db : Database) (systemId : SystemId)
    (request : ExportRequest) : Option BuiltArchive :=
  (archiveInput sigilloVersion db systemId request).bind (buildArchive c)

end Sigillo
