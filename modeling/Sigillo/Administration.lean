import Sigillo.ReceiptStore
import Sigillo.DateText

/-!
# Administrative changes

What may be done to a system outside its chain: customers and their people, whose a system is, its
label, and the deletions the triggers let through. Each change is one transaction with its entry in
the administrative log: it is made with it, or not at all. -/

namespace Sigillo

open DoubleArith Utf16Text JsonText JsonParse JsonSchema HexBase64 IsoTime EcmaText

-- ── Texts ────────────────────────────────────────────────────────────────────────

/-- The longest display name. -/
def DISPLAY_NAME_MAX : ℕ := 128

/-- `\p{Cc}`. -/
def isControl (cp : ℕ) : Bool := decide (cp < 0x20 ∨ 0x7F ≤ cp ∧ cp < 0xA0)

/-- A display name as it is stored: trimmed, and none when empty. -/
def normaliseDisplayName (value : JsString) : Except StoreError (Option JsString) :=
  let trimmed := trim value
  if trimmed = [] then .ok none
  else if (points trimmed).length > DISPLAY_NAME_MAX then
    .error (.storage (js "a display name is at most " ++ countText DISPLAY_NAME_MAX ++ js " characters"))
  else if (points trimmed).any isControl then
    .error (.storage (js "a display name cannot contain " ++ js "line breaks or other control "
      ++ js "characters"))
  else .ok (some trimmed)

/-- `/^[a-z0-9](?:[a-z0-9-]{0,30}[a-z0-9])?$/`. -/
def isOrganizationId (s : JsString) : Bool :=
  let letter (u : UInt16) : Bool := decide (0x61 ≤ u ∧ u ≤ 0x7A ∨ 0x30 ≤ u ∧ u ≤ 0x39)
  decide (1 ≤ s.length ∧ s.length ≤ 32) && s.all (fun u => letter u || u == 0x2D)
    && s.head?.any letter && s.getLast?.any letter

variable (c : Crypto)

/-- What is kept of a transfer's secret. -/
def transferHash (secret : JsString) : Hex 64 := c.sha256Hex (utf8Encode secret)

/-- How long a transfer link works, from the moment it is made. -/
def TRANSFER_TTL_MS : ℤ := 7 * 24 * 60 * 60000

-- ── Transactions ─────────────────────────────────────────────────────────────────

/-- A change that needs no signer: committed, or rolled back where it throws. -/
def Store.transact {α : Type} (s : Store) (result : Except StoreError (Database × List Happening × α)) :
    Store × Except StoreError α :=
  match result with
  | .error e => (s, .error e)
  | .ok (db, happened, a) => ({ s with db, history := s.history ++ happened }, .ok a)

/-- **`administer`**: one change of a system that exists. -/
def administer {α : Type} (s : Store) (systemId : SystemId)
    (work : SystemRow → Except StoreError (Database × List Happening × α)) : Store × Except StoreError α :=
  s.transact (match s.db.systemRow systemId with
    | none => .error (.storage (js "unknown system " ++ systemId.1))
    | some record => work record)

/-- `UPDATE systems SET … WHERE system_id = ?`. -/
def updateSystem (db : Database) (systemId : SystemId) (change : SystemRow → SystemRow) : Database :=
  { db with systems := db.systems.map fun r => if r.systemId == systemId then change r else r }

-- ── Organizations ────────────────────────────────────────────────────────────────

/-- What is logged of an organization. -/
def Organization.detail (o : Organization) : List (JsString × Json) :=
  [(js "organization_id", .str o.organizationId), (js "name", .str o.name),
    (js "created_at", .str o.createdAt.1), (js "approved_at", nullableJson (o.approvedAt.map (·.1)))]

/-- The name of an organization, which needs one. -/
def organizationLabel (name : JsString) : Except StoreError JsString :=
  match normaliseDisplayName name with
  | .error e => .error e
  | .ok none => .error (.storage (js "an organization needs a name"))
  | .ok (some label) => .ok label

/-- No such organization. -/
def unknownOrganization (organizationId : JsString) : StoreError :=
  .storage (js "unknown organization " ++ organizationId)

/-- **`createOrganization`.** -/
def createOrganization (s : Store) (organizationId name : JsString) (request : AdminRequest)
    (approved : Bool) : Store × Except StoreError Organization :=
  s.transact (
    if ¬ isOrganizationId organizationId then
      .error (.storage (js "an organization identifier is 1 " ++ js "to 32 lower-case letters, digits "
        ++ js "and hyphens, not starting or " ++ js "ending with a hyphen"))
    else
      match organizationLabel name with
      | .error e => .error e
      | .ok label =>
          if (s.db.organization organizationId).isSome then
            .error (.storage (js "an organization called " ++ organizationId ++ js " already exists"))
          else
            let organization : Organization :=
              ⟨organizationId, label, request.ts, if approved then some request.ts else none⟩
            let db := { s.db with organizations := s.db.organizations ++ [organization] }
            .ok (db.logAdmin .organizationCreate none request organization.detail none, [], organization))

/-- A request of an administrator. -/
def acmeRequest : AdminRequest := ⟨js "admin", newYear⟩

/-- The account that is made first. -/
def acme : Organization := ⟨js "acme", js "Acme", newYear, some newYear⟩

/-- The store once the account is made. -/
def acmeStore : Store := { Store.fresh toyWriter with
  db := Database.logAdmin { (Store.fresh toyWriter).db with organizations := [acme] } .organizationCreate none
    acmeRequest acme.detail none }

theorem createOrganization_acme :
    (createOrganization (Store.fresh toyWriter) (js "acme") (js "Acme") acmeRequest true).1 = acmeStore := by
  have hlabel : organizationLabel (js "Acme") = .ok (js "Acme") := by
    rw [organizationLabel, normaliseDisplayName]
    decide
  rw [createOrganization, if_neg (by decide), hlabel]
  rfl

/-- `registerOrganization`: the identifiers are drawn until one is free. -/
def registerOrganization (s : Store) (uid email name : JsString) (draws : List JsString)
    (request : AdminRequest) : Store × Except StoreError (Option Organization) :=
  s.transact (
    match organizationLabel name with
    | .error e => .error e
    | .ok label =>
        if s.db.users.any fun r => r.uid == uid then
          .error (.storage (js "this account already belongs " ++ js "to an organization"))
        else
          match draws.find? fun id => (s.db.organization id).isNone with
          | none => .ok (s.db, [], none)
          | some organizationId =>
              let organization : Organization := ⟨organizationId, label, request.ts, none⟩
              let db : Database := { s.db with
                organizations := s.db.organizations ++ [organization]
                users := s.db.users ++ [(⟨uid, email, organizationId, request.ts⟩ : User)] }
              .ok (db.logAdmin .userRegister none request [(js "organization_id", .str organizationId),
                (js "name", .str label), (js "email", .str email)] none, [], some organization))

/-- `approveOrganization`. -/
def approveOrganization (s : Store) (organizationId : JsString) (request : AdminRequest) :
    Store × Except StoreError Organization :=
  s.transact (match s.db.organization organizationId with
    | none => .error (unknownOrganization organizationId)
    | some organization =>
        if organization.approvedAt.isSome then .ok (s.db, [], organization)
        else
          let db : Database := { s.db with organizations := s.db.organizations.map fun o : Organization =>
            if o.organizationId == organizationId then { o with approvedAt := some request.ts } else o }
          .ok (db.logAdmin .organizationApprove none request [(js "organization_id", .str organizationId),
            (js "name", .str organization.name)] none, [], { organization with approvedAt := some request.ts }))

/-- The people of an organization and its row, and the entry that says so. -/
def removeOrganization (db : Database) (action : AdminAction) (organization : Organization)
    (request : AdminRequest) : Except StoreError Database := do
  let people := db.users.filter fun r => r.organizationId == organization.organizationId
  let db' ← Database.deleteOrganizationRow
    { db with users := db.users.filter fun r => !(r.organizationId == organization.organizationId) }
    organization.organizationId
  return db'.logAdmin action none request [(js "organization_id", .str organization.organizationId),
    (js "name", .str organization.name), (js "emails", .arr (people.map fun r => .str r.email))] none

/-- `rejectOrganization`. -/
def rejectOrganization (s : Store) (organizationId : JsString) (request : AdminRequest) :
    Store × Except StoreError Unit :=
  s.transact (match s.db.organization organizationId with
    | none => .error (unknownOrganization organizationId)
    | some organization =>
        if organization.approvedAt.isSome then
          .error (.storage (organizationId ++ js " is approved, not waiting"))
        else if s.db.systems.any fun r => r.organizationId == some organizationId then
          .error (.storage (organizationId ++ js " already holds systems"))
        else (removeOrganization s.db .organizationReject organization request).map fun db => (db, [], ()))

/-- `deleteOrganization`, of a customer that never recorded an action: what is done once each of its
    systems has been deleted as an empty one. -/
def deleteOrganization (s : Store) (organization : Organization) (request : AdminRequest) :
    Store × Except StoreError Unit :=
  s.transact ((removeOrganization s.db .organizationDelete organization request).map fun db => (db, [], ()))

-- ── Whose a system is ────────────────────────────────────────────────────────────

/-- `{ from, to }`. -/
def moveDetail (before after : Option JsString) : List (JsString × Json) :=
  [(js "from", nullableJson before), (js "to", nullableJson after)]

/-- **`assignSystem`**: gives a system to an organization, or takes it back to the operator. -/
def assignSystem (s : Store) (systemId : SystemId) (organizationId : Option JsString)
    (request : AdminRequest) : Store × Except StoreError (Option JsString) :=
  administer s systemId fun record =>
    if ¬ s.db.hasOwner organizationId then .error (unknownOrganization (organizationId.getD []))
    else
      let db := updateSystem s.db systemId fun r => { r with organizationId }
      .ok (db.logAdmin .systemAssign (some systemId) request (moveDetail record.organizationId organizationId)
        none, [], record.organizationId)

/-- A link that is still to be used. -/
def TransferLink.isOpen (l : TransferLink) : Bool := l.usedAt.isNone && l.revokedAt.isNone

/-- Takes back the links a system has open. -/
def revokeOpen (db : Database) (systemId : SystemId) (ts : Timestamp) : Database :=
  { db with transferLinks := db.transferLinks.map fun l =>
      if l.systemId == systemId && l.isOpen then { l with revokedAt := some ts } else l }

/-- `createTransfer`. -/
def createTransfer (s : Store) (systemId : SystemId) (secret : JsString) (request : AdminRequest) :
    Store × Except StoreError JsString :=
  let expiresAt := isoText (dateParse request.ts + TRANSFER_TTL_MS)
  administer s systemId fun _ => do
    let db := revokeOpen s.db systemId request.ts
    let transferLinks ← Database.insertRowInto db.transferLinks
      (fun l => l.tokenHash == transferHash c secret)
      ⟨transferHash c secret, systemId, request.ts, expiresAt, none, none, none⟩
    return (Database.logAdmin { db with transferLinks } .systemTransferCreate (some systemId) request
      [(js "expires_at", .str expiresAt)] none, [], expiresAt)

/-- `revokeTransfers`. -/
def revokeTransfers (s : Store) (systemId : SystemId) (request : AdminRequest) :
    Store × Except StoreError ℕ :=
  administer s systemId fun _ =>
    .ok (revokeOpen s.db systemId request.ts, [],
      (s.db.transferLinks.filter fun l => l.systemId == systemId && l.isOpen).length)

/-- **`acceptTransfer`**: the one use of a link, the system becomes the organization's. -/
def acceptTransfer (s : Store) (secret organizationId : JsString) (request : AdminRequest) :
    Store × Except StoreError (SystemId × Option JsString) :=
  s.transact (match s.db.transferLinks.find? fun l => l.tokenHash == transferHash c secret && l.isOpen
      && !lexLe l.expiresAt request.ts.1 with
    | none => .error .transferUnavailable
    | some link =>
        if ¬ ((s.db.organization organizationId).bind (·.approvedAt)).isSome then
          .error (.storage (js "only an approved organization " ++ js "can accept a system"))
        else
          match s.db.systemRow link.systemId with
          | none => .error .transferUnavailable
          | some record =>
              if record.organizationId = some organizationId then
                .error (.storage (js "this system is already in " ++ js "your account"))
              else
                let db := updateSystem s.db link.systemId fun r =>
                  { r with organizationId := some organizationId }
                let db := { db with transferLinks := db.transferLinks.map fun l : TransferLink =>
                  if l.tokenHash == transferHash c secret then
                    { l with usedAt := some request.ts, usedBy := some organizationId }
                  else l }
                .ok (db.logAdmin .systemAssign (some link.systemId) request
                  (moveDetail record.organizationId (some organizationId)
                    ++ [(js "via", .str (js "transfer link"))]) none, [],
                  (link.systemId, record.organizationId)))

-- ── Labels ───────────────────────────────────────────────────────────────────────

/-- `renameSystem`. -/
def renameSystem (s : Store) (systemId : SystemId) (displayName : JsString) (request : AdminRequest) :
    Store × Except StoreError (Option JsString) :=
  match normaliseDisplayName displayName with
  | .error e => (s, .error e)
  | .ok next => administer s systemId fun record =>
      let db := updateSystem s.db systemId fun r => { r with displayName := next }
      .ok (db.logAdmin .systemRename (some systemId) request (moveDetail record.displayName next) none, [],
        record.displayName)

/-- `archiveSystem`. -/
def archiveSystem (s : Store) (systemId : SystemId) (request : AdminRequest) : Store × Except StoreError Unit :=
  administer s systemId fun record =>
    if record.archivedAt.isSome then .ok (s.db, [], ())
    else
      let db := updateSystem s.db systemId fun r => { r with archivedAt := some request.ts }
      .ok (db.logAdmin .systemArchive (some systemId) request [] none, [], ())

/-- `unarchiveSystem`. -/
def unarchiveSystem (s : Store) (systemId : SystemId) (request : AdminRequest) : Store × Except StoreError Unit :=
  administer s systemId fun record =>
    match record.archivedAt with
    | none => .ok (s.db, [], ())
    | some archivedAt =>
        let db := updateSystem s.db systemId fun r => { r with archivedAt := none }
        .ok (db.logAdmin .systemUnarchive (some systemId) request [(js "archived_at", .str archivedAt.1)] none,
          [], ())

-- ── Deletions ────────────────────────────────────────────────────────────────────

/-- What the log says of a deleted system. -/
def deletedDetail (db : Database) (record : SystemRow) (displayName : Option JsString)
    (genesis : ReceiptRow) : List (JsString × Json) :=
  let ids := (db.checkpoints.filter fun r => r.checkpoint.systemId == record.systemId).map (·.id)
  [(js "system_id", .str record.systemId.1), (js "display_name", nullableJson displayName),
    (js "created_at", .str record.createdAt.1), (js "genesis_hash", .str genesis.hash.1),
    (js "checkpoints", .num (.ofNat ids.length)),
    (js "timestamps", .num (.ofNat (db.timestamps.filter fun t => ids.contains t.checkpointId).length)),
    (js "api_keys", .arr ((db.apiKeys.filter fun k => k.systemId == record.systemId).map fun k => .str k.keyId)),
    (js "organization_id", nullableJson record.organizationId)]

/-- The tokens over a chain's checkpoints, and the checkpoints. -/
def deleteAnchors (db : Database) (systemId : SystemId) : Except StoreError Database := do
  let ids := (db.checkpoints.filter fun r => r.checkpoint.systemId == systemId).map (·.id)
  let db ← db.deleteTimestamps fun t => ids.contains t.checkpointId
  db.deleteCheckpoints fun r => r.checkpoint.systemId == systemId

/-- What hangs from a system beside its chain, and the system's row. -/
def deleteRest (db : Database) (systemId : SystemId) : Except StoreError Database :=
  Database.deleteSystems { db with
    apiKeys := db.apiKeys.filter fun k => !(k.systemId == systemId)
    transferLinks := db.transferLinks.filter fun l => !(l.systemId == systemId)
    connections := db.connections.filter fun r => !(r.systemId == systemId) } fun r => r.systemId == systemId

/-- **`deleteEmptySystem`**: of a chain that holds nothing but its genesis. -/
def deleteEmptySystem (s : Store) (systemId : SystemId) (request : AdminRequest) :
    Store × Except StoreError Unit :=
  administer s systemId fun record =>
    match s.db.chainRows systemId with
    | [genesis] =>
        if genesis.seq.1 ≠ 0 then .error (.systemNotDeletable systemId 1)
        else do
          let db := s.db.logAdmin .systemDelete (some systemId) request
            (deletedDetail s.db record record.displayName genesis) (some genesis.hash)
          let db ← deleteAnchors db systemId
          let db ← db.deleteReceipts fun r => r.systemId == systemId && r.seq.1 == 0
          let db ← deleteRest db systemId
          return (db, [.deletedChain systemId], ())
    | rows => .error (.systemNotDeletable systemId rows.length)

/-- **`eraseChain`**: one chain and everything that hangs from it, the log first. -/
def eraseChain (request : AdminRequest) (db : Database) (record : SystemRow) (displayName : Option JsString) :
    Except StoreError Database :=
  let rows := db.chainRows record.systemId
  match rows.head?, rows.getLast? with
  | some genesis, some last => do
      let db := db.logAdmin .systemDelete (some record.systemId) request
        (deletedDetail db record displayName genesis
          ++ [(js "receipts_erased", .num (.ofNat (rows.length - 1))), (js "last_hash", .str last.hash.1)])
        (some genesis.hash)
      let db ← deleteAnchors db record.systemId
      let db ← db.deleteArtifacts fun a => a.systemId == record.systemId
      let db ← Database.deleteReceipts
        { db with openings := db.openings.filter fun o => !(o.systemId == record.systemId) }
        fun r => r.systemId == record.systemId
      deleteRest db record.systemId
  | _, _ => .error (.storage (record.systemId.1 ++ js " has no chain"))

/-- **`eraseOperatorSystem`**: one of the operator's own systems, whatever it recorded. -/
def eraseOperatorSystem (s : Store) (systemId : SystemId) (request : AdminRequest) :
    Store × Except StoreError Unit :=
  administer s systemId fun record =>
    if record.organizationId.isSome then
      .error (.storage (systemId.1 ++ js " belongs to a customer: only " ++ js "the administrator's own systems "
        ++ js "can be erased with their " ++ js "receipts"))
    else (eraseChain request s.db record record.displayName).map fun db => (db, [.deletedChain systemId], ())

/-- `json_extract(canonical, '$.actor.on_behalf_of')`. -/
def namedIn (row : ReceiptRow) : Option JsString :=
  match jsonParse row.canonical with
  | some (.obj members) =>
      match members.lookup (js "actor") with
      | some (.obj actor) =>
          match actor.lookup (js "on_behalf_of") with
          | some (.str name) => some name
          | _ => none
      | _ => none
  | _ => none

/-- **`eraseOrganization`**: a customer at the end of its contract, with every chain of its systems. -/
def eraseOrganization (s : Store) (organizationId : JsString) (request : AdminRequest) :
    Store × Except StoreError Unit :=
  s.transact (match s.db.organization organizationId with
    | none => .error (unknownOrganization organizationId)
    | some _ => do
        let records := s.db.systems.filter fun r => r.organizationId == some organizationId
        let receipts := (s.db.receipts.filter fun r => decide (0 < r.seq.1)
          && records.any fun record => record.systemId == r.systemId).length
        let people := (s.db.users.filter fun r => r.organizationId == organizationId).length
        let db := s.db.logAdmin .organizationErase none request
          [(js "organization_id", .str organizationId), (js "systems", .num (.ofNat records.length)),
            (js "receipts_erased", .num (.ofNat receipts)), (js "people", .num (.ofNat people))] none
        let db ← records.foldlM (fun db record => eraseChain request db record none) db
        let db ← Database.deleteOrganizationRow
          { db with users := db.users.filter fun r => !(r.organizationId == organizationId) } organizationId
        return ({ db with subjects := db.subjects.filter fun subject =>
            db.receipts.any fun r => namedIn r == some subject.token.1 },
          records.map fun record => .deletedChain record.systemId, ()))

-- ── Persons and nonces ───────────────────────────────────────────────────────────

/-- **`eraseSubject`**: the row that says who a token stands for. -/
def eraseSubject (s : Store) (token : Pseudonym) (request : AdminRequest) : Store × Except StoreError Bool :=
  s.transact (
    if s.db.subjects.any fun r => r.token == token then
      let db := { s.db with subjects := s.db.subjects.filter fun r => !(r.token == token) }
      .ok (db.logAdmin .subjectErase none request [(js "token", .str token.1)] none, [], true)
    else .ok (s.db, [], false))

/-- **`eraseOpenings`**: the nonces of some receipts' digests. -/
def eraseOpenings (s : Store) (systemId : SystemId) (seqs : List Count) (request : AdminRequest) :
    Store × Except StoreError ℕ :=
  let positions := seqs.dedup.mergeSort fun a b => decide (a.1 ≤ b.1)
  let gone (o : OpeningRow) : Bool := o.systemId == systemId && seqs.contains o.seq
  administer s systemId fun _ =>
    let erased := (s.db.openings.filter gone).length
    let db := { s.db with openings := s.db.openings.filter fun o => !gone o }
    .ok (db.logAdmin .openingsErase (some systemId) request
      [(js "seqs", .arr (positions.map fun seq => .num (.fin seq.1 seq.2.1))),
        (js "erased", .num (.ofNat erased))] none, [.erasedOpenings systemId seqs], erased)

end Sigillo
