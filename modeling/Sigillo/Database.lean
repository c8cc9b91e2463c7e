import Sigillo.StoredReceipts
import Sigillo.Checkpoint
import Sigillo.ChainEvents
import Sigillo.Fallible

/-!
# The database

The tables the store writes, with what SQLite refuses of itself: a second row under one key, a row
that refers to none, and the deletion of a row that the triggers guard. A chain's receipts may go in
two cases only (`deletable_chains`, `operator_erasable_chains`), and both are read off the
administrative log, which nothing is ever deleted from. -/

namespace Sigillo

open DoubleArith Utf16Text JsonText JsonSchema HexBase64 IsoTime

-- ── Rows ─────────────────────────────────────────────────────────────────────────

/-- A row of `systems`. -/
structure SystemRow where
  systemId : SystemId
  createdAt : Timestamp
  /-- Whose system it is; the operator's own without one. -/
  organizationId : Option JsString
  displayName : Option JsString
  archivedAt : Option Timestamp
deriving DecidableEq

/-- A row of `organizations`. -/
structure Organization where
  organizationId : JsString
  name : JsString
  createdAt : Timestamp
  approvedAt : Option Timestamp
deriving DecidableEq

/-- A row of `users`. -/
structure User where
  uid : JsString
  email : JsString
  organizationId : JsString
  createdAt : Timestamp
deriving DecidableEq

/-- A row of `api_keys`. -/
structure ApiKeyRow where
  keyId : JsString
  systemId : SystemId
  createdAt : Timestamp
deriving DecidableEq

/-- A link that hands a system over, by the hash of its secret. -/
structure TransferLink where
  tokenHash : Hex 64
  systemId : SystemId
  createdAt : Timestamp
  expiresAt : JsString
  usedAt : Option Timestamp
  usedBy : Option JsString
  revokedAt : Option Timestamp
deriving DecidableEq

/-- A row of `checkpoints`. -/
structure CheckpointRow where
  id : ℕ
  checkpoint : Checkpoint
deriving DecidableEq

/-- A row of `timestamps`. -/
structure TimestampRow where
  checkpointId : ℕ
  tsaUrl : JsString
  tokenBase64 : JsString
  obtainedAt : Timestamp
deriving DecidableEq

/-- An artifact as one receipt names it. -/
structure ArtifactRow where
  systemId : SystemId
  seq : Count
  artifact : ArtifactEntryV3
deriving DecidableEq

/-- The nonce of a salted digest. -/
structure OpeningRow where
  systemId : SystemId
  seq : Count
  role : ArtifactRole
  nonce : JsString
deriving DecidableEq

/-- What a session is. -/
inductive ConnectionState where
  | «open» | lost | closed
deriving DecidableEq

/-- A row of `connections`. -/
structure ConnectionRow where
  systemId : SystemId
  sessionId : JsString
  state : ConnectionState
  startedAt : Timestamp
  lastBeatAt : Timestamp
  scriptHash : Option JsString
  scriptChanged : Bool
  bootAt : Option JsString
deriving DecidableEq

/-- What an administrator did. -/
inductive AdminAction where
  | systemRename | systemArchive | systemUnarchive | systemDelete
  | signerRecovered | signerDivergence
  | subjectErase | openingsErase
  | organizationCreate | organizationApprove | organizationReject | organizationDelete | organizationErase
  | userRegister | systemAssign | systemTransferCreate
deriving DecidableEq

/-- Who asks for an administrative change, and when. -/
structure AdminRequest where
  actor : JsString
  ts : Timestamp

/-- A row of `admin_log`. -/
structure AdminLogRow where
  ts : Timestamp
  action : AdminAction
  /-- None for what concerns no one system. -/
  systemId : Option SystemId
  actor : JsString
  detail : List (JsString × Json)
  /-- The genesis a deletion removes. -/
  genesisHash : Option (Hex 64)

/-- The tables. -/
structure Database where
  systems : List SystemRow
  organizations : List Organization
  users : List User
  apiKeys : List ApiKeyRow
  transferLinks : List TransferLink
  receipts : List ReceiptRow
  checkpoints : List CheckpointRow
  timestamps : List TimestampRow
  artifacts : List ArtifactRow
  openings : List OpeningRow
  subjects : List SubjectRow
  connections : List ConnectionRow
  /-- Every public key the server has signed with. -/
  signingKeys : List (Hex 16 × Bytes)
  adminLog : List AdminLogRow

/-- A database that holds nothing but the key the server signs with. -/
def Database.fresh (keyId : Hex 16) (publicKey : Bytes) : Database :=
  ⟨[], [], [], [], [], [], [], [], [], [], [], [], [(keyId, publicKey)], []⟩

-- ── Errors ───────────────────────────────────────────────────────────────────────

/-- Why the signer refuses. -/
inductive SignerRefusal where
  | sequence | other
deriving DecidableEq

/-- What an operation fails with. -/
inductive StoreError where
  /-- The event has no receipt. -/
  | append (e : AppendError)
  /-- `StorageError`. -/
  | storage (message : JsString)
  | systemNotDeletable (systemId : SystemId) (receipts : ℕ)
  | transferUnavailable
  | signerRefused (code : SignerRefusal) (message : JsString)
  | signerUnavailable
  /-- A row SQLite refuses: its key is taken, or what it refers to is not there. -/
  | constraint
  /-- A trigger's `RAISE(ABORT, message)`. -/
  | aborted (message : JsString)
deriving DecidableEq

-- ── Rows added ───────────────────────────────────────────────────────────────────

namespace Database

/-- A row is added unless another stands in its way. -/
def insertRowInto {α : Type} (rows : List α) (clash : α → Bool) (row : α) : Except StoreError (List α) :=
  if rows.any clash then .error .constraint else .ok (rows ++ [row])

/-- A row is inserted exactly if it clashes with none, and comes last. -/
theorem insertRowInto_eq_ok {α : Type} {rows rows' : List α} {clash : α → Bool} {row : α} :
    insertRowInto rows clash row = .ok rows' ↔
      (∀ r ∈ rows, clash r = false) ∧ rows' = rows ++ [row] := by
  rw [insertRowInto]
  by_cases hclash : rows.any clash = true
  · rw [if_pos hclash]
    refine iff_of_false (by rintro ⟨⟩) ?_
    rintro ⟨hno, -⟩
    obtain ⟨r, hr, h⟩ := List.any_eq_true.mp hclash
    rw [hno r hr] at h
    cases h
  · rw [if_neg hclash, Except.ok.injEq]
    constructor
    · rintro rfl
      refine ⟨fun r hr => ?_, rfl⟩
      by_contra h
      exact hclash (List.any_eq_true.mpr ⟨r, hr, by simpa using h⟩)
    · rintro ⟨-, rfl⟩
      rfl

variable (db : Database)

/-- The organization of an id. -/
def organization (organizationId : JsString) : Option Organization :=
  db.organizations.find? fun o => o.organizationId == organizationId

/-- An organization a system may refer to. -/
def hasOwner (organizationId : Option JsString) : Bool :=
  organizationId.all fun id => (db.organization id).isSome

/-- `INSERT INTO systems`. -/
def insertSystem (row : SystemRow) : Except StoreError Database :=
  if db.hasOwner row.organizationId then
    (insertRowInto db.systems (fun r => r.systemId == row.systemId) row).map fun systems =>
      { db with systems }
  else .error .constraint

/-- `INSERT INTO subjects`. -/
def insertSubject (row : SubjectRow) : Except StoreError Database :=
  (insertRowInto db.subjects (fun r => r.token == row.token || r.identifier == row.identifier) row).map
    fun subjects => { db with subjects }

/-- Whether two rows name one span of one system. -/
def sameSpan (a b : ReceiptRow) : Bool :=
  a.systemId == b.systemId && a.sourceTraceId.isSome && a.sourceSpanId.isSome
    && a.sourceTraceId == b.sourceTraceId && a.sourceSpanId == b.sourceSpanId

/-- `INSERT INTO receipts`. -/
def insertReceiptRow (row : ReceiptRow) : Except StoreError Database :=
  (insertRowInto db.receipts (fun r => (r.systemId == row.systemId && r.seq == row.seq)
    || r.hash == row.hash || sameSpan r row) row).map fun receipts => { db with receipts }

/-- A receipt of the system at the position is there. -/
def hasReceiptAt (systemId : SystemId) (seq : Count) : Bool :=
  db.receipts.any fun r => r.systemId == systemId && r.seq == seq

/-- `INSERT INTO openings`. -/
def insertOpening (row : OpeningRow) : Except StoreError Database :=
  if db.hasReceiptAt row.systemId row.seq then
    (insertRowInto db.openings (fun r => r.systemId == row.systemId && r.seq == row.seq
      && r.role == row.role) row).map fun openings => { db with openings }
  else .error .constraint

/-- `INSERT INTO artifacts`. -/
def insertArtifact (row : ArtifactRow) : Except StoreError Database :=
  if db.hasReceiptAt row.systemId row.seq then .ok { db with artifacts := db.artifacts ++ [row] }
  else .error .constraint

/-- `INSERT INTO admin_log`. -/
def logAdmin (action : AdminAction) (systemId : Option SystemId) (request : AdminRequest)
    (detail : List (JsString × Json)) (genesisHash : Option (Hex 64)) : Database :=
  { db with adminLog := db.adminLog ++ [⟨request.ts, action, systemId, request.actor, detail, genesisHash⟩] }

-- ── What is read ─────────────────────────────────────────────────────────────────

/-- The receipts of a chain, `ORDER BY seq`. -/
def chainRows (systemId : SystemId) : List ReceiptRow :=
  (db.receipts.filter fun r => r.systemId == systemId).mergeSort fun a b => decide (a.seq.1 ≤ b.seq.1)

/-- The last receipt of a chain. -/
def tipRow (systemId : SystemId) : Option TipRow :=
  (db.chainRows systemId).getLast?.map fun r => ⟨r.seq, r.hash, r.tsReceived⟩

/-- The row of a span, as the duplicate statement finds it. -/
def spanRow (systemId : SystemId) (traceId spanId : JsString) : Option ReceiptRow :=
  db.receipts.find? fun r => r.systemId == systemId && r.sourceTraceId.any (fun t => t.1 == traceId)
    && r.sourceSpanId.any (fun s => s.1 == spanId)

/-- The row of a system. -/
def systemRow (systemId : SystemId) : Option SystemRow :=
  db.systems.find? fun s => s.systemId == systemId

/-- The key a receipt names, if this database has signed with it. -/
def publicKeyFor (keyId : Hex 16) : Option Bytes := db.signingKeys.lookup keyId

/-- When a system of this name was deleted, if ever. -/
def deletionOf (systemId : SystemId) : Option Timestamp :=
  (db.adminLog.find? fun e => e.action == .systemDelete && e.systemId == some systemId).map (·.ts)

-- ── What may be deleted ──────────────────────────────────────────────────────────

/-- `json_extract(detail, '$.name')`; `null` and nothing are one. -/
def jsonExtract (detail : List (JsString × Json)) (name : JsString) : Option Json :=
  match detail.lookup name with
  | some .null => none
  | found => found

/-- `deletable_chains`: nothing but a genesis, whose deletion is logged by its hash. -/
def deletableChain (systemId : SystemId) : Bool :=
  db.receipts.any fun genesis => genesis.systemId == systemId && genesis.seq.1 == 0
    && (db.adminLog.any fun entry => entry.action == .systemDelete && entry.systemId == some systemId
      && entry.genesisHash == some genesis.hash)
    && !(db.receipts.any fun later => later.systemId == systemId && decide (0 < later.seq.1))

/-- Whether the erasure of a customer is logged. -/
def erasureLogged (organizationId : JsString) : Bool :=
  db.adminLog.any fun erasure => erasure.action == .organizationErase
    && match jsonExtract erasure.detail (js "organization_id") with
      | some (.str id) => id == organizationId
      | _ => false

/-- `operator_erasable_chains`: a logged deletion that says how many receipts went with it, of a
    system that is the operator's or an erased customer's. -/
def operatorErasableChain (systemId : SystemId) : Bool :=
  db.systems.any fun system => system.systemId == systemId
    && (db.adminLog.any fun entry => entry.action == .systemDelete && entry.systemId == some systemId
      && (jsonExtract entry.detail (js "receipts_erased")).isSome)
    && system.organizationId.all fun id => db.erasureLogged id

/-- The guard on a receipt. -/
def receiptDeletable (row : ReceiptRow) : Bool :=
  (row.seq.1 == 0 && db.deletableChain row.systemId) || db.operatorErasableChain row.systemId

/-- `DELETE FROM receipts WHERE …`: every row must be free to go, and none still referred to. -/
def deleteReceipts (p : ReceiptRow → Bool) : Except StoreError Database :=
  if (db.receipts.filter p).any fun row => !db.receiptDeletable row then
    .error (.aborted (js "append-only: a receipt " ++ js "cannot be deleted"))
  else if (db.receipts.filter p).any fun row =>
      (db.artifacts.any fun a => a.systemId == row.systemId && a.seq == row.seq)
        || (db.openings.any fun o => o.systemId == row.systemId && o.seq == row.seq) then
    .error .constraint
  else .ok { db with receipts := db.receipts.filter fun row => !p row }

/-- What the trigger lets a checkpoint's deletion pass by. -/
def checkpointDeletable (row : CheckpointRow) : Bool :=
  (row.checkpoint.treeSize.1 == 1 && db.deletableChain row.checkpoint.systemId)
    || db.operatorErasableChain row.checkpoint.systemId

/-- `DELETE FROM checkpoints`: only of a chain that may be deleted, and without tokens over them. -/
def deleteCheckpoints (p : CheckpointRow → Bool) : Except StoreError Database :=
  if (db.checkpoints.filter p).any fun row => !db.checkpointDeletable row then
    .error (.aborted (js "append-only: a checkpoint " ++ js "cannot be deleted"))
  else if (db.checkpoints.filter p).any fun row => db.timestamps.any fun t => t.checkpointId == row.id then
    .error .constraint
  else .ok { db with checkpoints := db.checkpoints.filter fun row => !p row }

/-- `DELETE FROM timestamps`: only over checkpoints that may be deleted. -/
def deleteTimestamps (p : TimestampRow → Bool) : Except StoreError Database :=
  if (db.timestamps.filter p).any fun row => !(db.checkpoints.any fun c => c.id == row.checkpointId
      && db.checkpointDeletable c) then
    .error (.aborted (js "append-only: a timestamp " ++ js "token cannot be deleted"))
  else .ok { db with timestamps := db.timestamps.filter fun row => !p row }

/-- `DELETE FROM artifacts`: only of a chain that is being erased. -/
def deleteArtifacts (p : ArtifactRow → Bool) : Except StoreError Database :=
  if (db.artifacts.filter p).any fun row => !db.operatorErasableChain row.systemId then
    .error (.aborted (js "append-only: an artifact " ++ js "entry cannot be deleted"))
  else .ok { db with artifacts := db.artifacts.filter fun row => !p row }

/-- `DELETE FROM systems`: only once its chain is gone, and nothing refers to it. -/
def deleteSystems (p : SystemRow → Bool) : Except StoreError Database :=
  if (db.systems.filter p).any fun row => db.receipts.any fun r => r.systemId == row.systemId then
    .error (.aborted (js "append-only: a system with " ++ js "receipts cannot be deleted"))
  else if (db.systems.filter p).any fun row => (db.apiKeys.any fun k => k.systemId == row.systemId)
      || db.transferLinks.any fun l => l.systemId == row.systemId then .error .constraint
  else .ok { db with systems := db.systems.filter fun row => !p row }

/-- `DELETE FROM organizations`: only without systems and people. -/
def deleteOrganizationRow (organizationId : JsString) : Except StoreError Database :=
  if (db.systems.any fun s => s.organizationId == some organizationId)
      || db.users.any fun u => u.organizationId == organizationId then .error .constraint
  else .ok { db with organizations := db.organizations.filter fun o => !(o.organizationId == organizationId) }

end Database

end Sigillo
