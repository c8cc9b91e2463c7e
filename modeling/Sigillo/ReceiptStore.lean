import Sigillo.Database
import Sigillo.CheckedEvents

/-!
# Writing receipts

What the store does with its signer: a receipt is built, signed, checked and inserted in one
transaction, and a chain the signer is ahead of takes back what it is missing. What a transaction
does is a function of the database it began with; what the signer answers, and the random bytes
drawn, are its other arguments. A transaction that fails leaves the database as it was, and so does
one that a crash keeps from its `COMMIT`: to the database it is a signer that did not answer. -/

namespace Sigillo

open DoubleArith Utf16Text JsonText JsonSchema HexBase64 IsoTime

/-- What the store knows of its signer: the name of its key, and the key every signature is checked
    against. -/
structure WriterKey where
  keyId : Hex 16
  verificationKey : Bytes

-- ── Rows of a receipt ────────────────────────────────────────────────────────────

/-- The artifact rows of a receipt. -/
def artifactRows (receipt : Receipt) : List ArtifactRow :=
  let row (artifact : ArtifactEntryV3) : ArtifactRow := ⟨receipt.systemId, receipt.seq, artifact⟩
  match receipt.detail with
  | .v1 _ => []
  | .v2 _ artifacts _ => (artifacts.elim [] (·.1)).map fun artifact => row ⟨artifact, none⟩
  | .v3 _ artifacts _ => (artifacts.elim [] (·.1)).map row
  | .v4 _ _ _ artifacts _ => (artifacts.elim [] (·.1)).map row

/-- The rows of the nonces that are known. -/
def openingRows (receipt : Receipt) (nonces : Option (PreparedDigest × PreparedDigest)) :
    List OpeningRow :=
  match nonces with
  | none => []
  | some (input, output) =>
      (input.nonce.map fun nonce => ⟨receipt.systemId, receipt.seq, .input, nonce⟩).toList
        ++ (output.nonce.map fun nonce => ⟨receipt.systemId, receipt.seq, .output, nonce⟩).toList

variable (c : Crypto) (u : Unicode) (key : WriterKey)

/-- A signed receipt, the nonces of its salted digests where they are known, and its artifacts. -/
def insertRow (db : Database) (receipt : Receipt) (nonces : Option (PreparedDigest × PreparedDigest)) :
    Except StoreError Database := do
  let db ← db.insertReceiptRow (receiptRow c receipt)
  let db ← (openingRows receipt nonces).foldlM Database.insertOpening db
  (artifactRows receipt).foldlM Database.insertArtifact db

-- ── One receipt ──────────────────────────────────────────────────────────────────

/-- Whether a chain is opened, for whom, or carried on. -/
inductive WriteMode where
  | genesis (organizationId : Option JsString)
  | continuation

/-- What one attempt to write draws, and what the signer answers it. -/
structure Attempt where
  random : Randomness
  reply : Except StoreError JsString

/-- What an attempt comes to before a signature is asked for. -/
inductive Draft where
  /-- The span is on the chain already. -/
  | duplicate (receipt : Receipt)
  | unsigned (prepared : Prepared) (receipt : UnsignedReceipt)

/-- What came of an event. -/
inductive Written where
  | duplicate (receipt : Receipt)
  | new (prepared : Prepared) (receipt : Receipt)

/-- The receipt that is answered. -/
def Written.receipt : Written → Receipt
  | .duplicate receipt => receipt
  | .new _ receipt => receipt

/-- The row of the event's span, where it names one and its chain is carried on. -/
def duplicateRow (db : Database) (event : ChainEvent) (mode : WriteMode) : Option ReceiptRow :=
  match mode, event.source.traceId, event.source.spanId with
  | .continuation, some traceId, some spanId => db.spanRow event.systemId traceId spanId
  | _, _, _ => none

/-- What a new chain, or the next receipt of one, finds in its way. -/
def misplaced (event : ChainEvent) (mode : WriteMode) (tip : Option TipRow) : Option StoreError :=
  match mode, tip with
  | .genesis _, some _ => some (.storage (js "a chain for " ++ event.systemId.1 ++ js " already exists"))
  | .continuation, none => some (.storage (js "unknown system " ++ event.systemId.1
      ++ js ": create its chain first"))
  | _, _ => none

/-- The row of a person seen for the first time. -/
def insertSeen (db : Database) (subject : Option SubjectRow) : Except StoreError Database :=
  match subject with
  | none => .ok db
  | some row => db.insertSubject row

/-- **What is decided before the signature**: the receipt, and the person it names first. -/
def draftReceipt (db : Database) (event : ChainEvent) (mode : WriteMode) (random : Randomness) :
    Except StoreError (Database × Draft) :=
  match duplicateRow db event mode with
  | some row =>
      match rowToReceipt row with
      | none => .error (.append .format)
      | some receipt => .ok (db, .duplicate receipt)
  | none =>
      match misplaced event mode (db.tipRow event.systemId) with
      | some e => .error e
      | none => do
          let prepared ← (prepare c u db.subjects event random).mapError .append
          let db' ← insertSeen db prepared.subject
          let unsigned ← (buildUnsigned event (db.tipRow event.systemId) key.keyId prepared).mapError .append
          return (db', .unsigned prepared unsigned)

/-- A signature that does not verify. -/
def refusedSignature (what : JsString) (keyId : Hex 16) : StoreError :=
  .storage (js "the signer returned a signature " ++ js "that does not verify over this " ++ what
    ++ js "'s hash under key " ++ keyId.1 ++ js ", so nothing was written")

/-- What the signer returned, as the signature of the very bytes it was asked to sign. -/
def checkedReceipt (unsigned : UnsignedReceipt) (sig : JsString) : Except StoreError Receipt :=
  if h : IsSignatureText sig then
    let receipt := unsigned.signed ⟨sig, h⟩
    if verifyReceiptSignature c receipt key.verificationKey then .ok receipt
    else .error (refusedSignature (js "receipt") key.keyId)
  else .error (.append .format)

/-- The row of a chain that is opened. -/
def registerGenesis (db : Database) (event : ChainEvent) (mode : WriteMode) : Except StoreError Database :=
  match mode with
  | .genesis organizationId =>
      db.insertSystem ⟨event.systemId, event.tsReceived, organizationId, none, none⟩
  | .continuation => .ok db

/-- **Builds, signs, checks and inserts one receipt.** -/
def insertReceipt (db : Database) (event : ChainEvent) (mode : WriteMode) (attempt : Attempt) :
    Except StoreError (Database × Written) := do
  match ← draftReceipt c u key db event mode attempt.random with
  | (db, .duplicate receipt) => return (db, .duplicate receipt)
  | (db, .unsigned prepared unsigned) =>
      let sig ← attempt.reply
      let receipt ← checkedReceipt c key unsigned sig
      let db ← registerGenesis db event mode
      let db ← insertRow c db receipt (some (prepared.input, prepared.output))
      return (db, .new prepared receipt)

-- ── The store ────────────────────────────────────────────────────────────────────

/-- What has happened to the database that its rows alone do not tell. -/
inductive Happening where
  /-- `insertReceipt` wrote this receipt of this event. -/
  | wrote (event : ChainEvent) (prepared : Prepared) (receipt : Receipt)
  /-- `reconcileNow` took this receipt back from the signer. -/
  | tookBack (receipt : Receipt)
  | erasedOpenings (systemId : SystemId) (seqs : List Count)
  | deletedChain (systemId : SystemId)

/-- The database, what the last comparison with the signer found wrong, and what has been committed
    so far: the program keeps no such history. -/
structure Store where
  db : Database
  divergences : List (SystemId × JsString)
  history : List Happening

/-- A new store. -/
def Store.fresh (key : WriterKey) : Store := ⟨.fresh key.keyId key.verificationKey, [], []⟩

/-- What happened by it. -/
def Written.happening (event : ChainEvent) : Written → List Happening
  | .duplicate _ => []
  | .new prepared receipt => [.wrote event prepared receipt]

/-- One transaction around `insertReceipt` and what is written alongside. -/
def attemptReceipt (s : Store) (event : ChainEvent) (mode : WriteMode)
    (alongside : Database → Except StoreError Database) (attempt : Attempt) :
    Store × Except StoreError Receipt :=
  match insertReceipt c u key s.db event mode attempt >>= fun (db, written) =>
      (alongside db).map fun db => (db, written) with
  | .error e => (s, .error e)
  | .ok (db, written) =>
      ({ s with db, history := s.history ++ written.happening event }, .ok written.receipt)

-- ── Against the signer ───────────────────────────────────────────────────────────

/-- What a comparison comes to. -/
inductive ReconcileOutcome where
  | inSync
  | recovered (seq : Count) (hash : Hex 64) (count : ℕ)
  | diverged (detail : JsString)
deriving DecidableEq

/-- What the signer answers a comparison, and the clock at each entry that is logged. -/
structure SignerView where
  head : Except StoreError (Option Receipt)
  /-- The page of its journal from a position on; none of a signer without one. -/
  receipts : Option (ℕ → Except StoreError (List Receipt))
  clock : ℕ → Timestamp

/-- Who is logged for a recovery. -/
def RECONCILIATION : JsString := js "server (reconciliation " ++ js "with the signer)"

/-- Logs a disagreement the first time it is found. -/
def recordDivergence (s : Store) (systemId : SystemId) (detail : JsString) (ts : Timestamp) : Store :=
  if s.divergences.lookup systemId = some detail then s
  else { s with
    divergences := AssocList.set s.divergences systemId detail
    db := s.db.logAdmin .signerDivergence (some systemId) ⟨RECONCILIATION, ts⟩
      [(js "detail", .str detail)] none }

/-- The pages of the journal up to `wanted` receipts; `none` where one cannot be had. Every page is
    asked after the receipts of those before, so `wanted` of them are enough. -/
def fetchJournal (page : ℕ → Except StoreError (List Receipt)) (firstMissing wanted : ℕ) :
    ℕ → List Receipt → Option (List Receipt)
  | 0, journal => some journal
  | pages + 1, journal =>
      if wanted ≤ journal.length then some journal
      else
        match page (firstMissing + journal.length) with
        | .error _ => none
        | .ok [] => some journal
        | .ok (r :: rest) => fetchJournal page firstMissing wanted pages (journal ++ r :: rest)

/-- The key a receipt is checked under: one this database has signed with, or the signer's own. -/
def keyFor (db : Database) (receipt : Receipt) : Option Bytes :=
  (db.publicKeyFor receipt.keyId).orElse fun _ =>
    if receipt.keyId = key.keyId then some key.verificationKey else none

/-- A receipt that is the next of a chain, under a known key. -/
def continuesChain (db : Database) (systemId : SystemId) (seq : ℕ) (previous : Hex 64)
    (receipt : Receipt) : Bool :=
  decide (receipt.systemId = systemId) && decide (receipt.seq.1 = seq)
    && decide (receipt.prevHash = previous)
    && (keyFor key db receipt).any (verifyReceiptSignature c receipt)

/-- The receipts that continue a chain, up to the head's position; or the position of one that does
    not. -/
def takeMissing (db : Database) (systemId : SystemId) (headSeq : ℕ) :
    ℕ → Hex 64 → List Receipt → Except ℕ (List Receipt)
  | _, _, [] => .ok []
  | seq, previous, receipt :: rest =>
      if continuesChain c key db systemId seq previous receipt then
        if seq = headSeq then .ok [receipt]
        else (takeMissing db systemId headSeq (seq + 1) (receiptHashHex c receipt.toUnsignedReceipt) rest).map
          (receipt :: ·)
      else .error seq

/-- The first receipt whose span is on the chain already. -/
def takenSpan (db : Database) (systemId : SystemId) (taken : List Receipt) : Option Receipt :=
  taken.find? fun receipt =>
    match receipt.source.traceId, receipt.source.spanId with
    | some traceId, some spanId => (db.spanRow systemId traceId.1 spanId.1).isSome
    | _, _ => false

/-- What is logged of a receipt that was taken back. -/
def recoveredDetail (receipt : Receipt) : List (JsString × Json) :=
  [(js "seq", .num (.fin receipt.seq.1 receipt.seq.2.1)),
    (js "hash", .str (receiptHashHex c receipt.toUnsignedReceipt).1)]
    ++ (optional (js "trace_id") (receipt.source.traceId.map fun t => .str t.1)
      ++ optional (js "span_id") (receipt.source.spanId.map fun t => .str t.1))

/-- The row of a chain that is taken back whole: whose it was is not in the signer's record. -/
def registerRestored (db : Database) (systemId : SystemId) (receipt : Receipt) :
    Except StoreError Database :=
  if receipt.seq.1 = 0 then db.insertSystem ⟨systemId, receipt.tsReceived, none, none, none⟩
  else .ok db

/-- Inserts one receipt taken back, without its nonces, and logs it. -/
def restoreReceipt (systemId : SystemId) (clock : ℕ → Timestamp) (db : Database) (receipt : Receipt) :
    Except StoreError Database := do
  let db ← registerRestored db systemId receipt
  let db ← insertRow c db receipt none
  return db.logAdmin .signerRecovered (some systemId) ⟨RECONCILIATION, clock receipt.seq.1⟩
    (recoveredDetail c receipt) none

/-- The server's tip, as a message has it. -/
def hereText (tip : Option TipRow) : JsString :=
  match tip with
  | none => js "this database holds no chain for it"
  | some t => js "this database is at seq " ++ countText t.seq.1 ++ js " (" ++ t.hash.1 ++ js ")"

/-- The signer's head, as a message has it. -/
def thereText (head : Receipt) : JsString :=
  js "the signer is at seq " ++ countText head.seq.1 ++ js " ("
    ++ (receiptHashHex c head.toUnsignedReceipt).1 ++ js ")"

/-- The position a chain is missing first. -/
def firstMissingOf (tip : Option TipRow) : ℕ :=
  match tip with
  | none => 0
  | some t => t.seq.1 + 1

/-- What is wrong with the receipts the signer is ahead by, or the receipts themselves. -/
def missingReceipts (db : Database) (systemId : SystemId) (head : Receipt) (journal : Option (List Receipt)) :
    Except JsString (List Receipt) :=
  let tip := db.tipRow systemId
  let firstMissing := firstMissingOf tip
  let between := thereText c head ++ js ", and " ++ hereText tip
  let missing := if head.seq.1 = firstMissing then [head] else journal.getD []
  match takeMissing c key db systemId head.seq.1 firstMissing (prevHashOf tip) missing with
  | .error seq => .error (between ++ js "; the signer's receipt for seq " ++ countText seq
      ++ js " does not continue this chain")
  | .ok taken =>
      if taken.getLast?.any fun last => decide (last.seq = head.seq)
          && decide (receiptHashHex c last.toUnsignedReceipt = receiptHashHex c head.toUnsignedReceipt) then
        if (db.deletionOf systemId).isSome then
          .error (thereText c head ++ js ", but " ++ systemId.1 ++ js " was deleted here, so its "
            ++ js "receipts are not restored")
        else
          match takenSpan db systemId taken with
          | some receipt => .error (thereText c head ++ js ", and the span "
              ++ ((receipt.source.traceId.map (·.1)).getD []) ++ js "/"
              ++ ((receipt.source.spanId.map (·.1)).getD []) ++ js " of seq " ++ countText receipt.seq.1
              ++ js " is already on the chain " ++ js "at another position")
          | none => .ok taken
      else .error (between ++ js "; the signer's journal does " ++ js "not hold every receipt in "
        ++ js "between (it reaches seq " ++ (match taken.getLast?, tip with
          | some last, _ => countText last.seq.1
          | none, some t => countText t.seq.1
          | none, none => js "-1") ++ js ")")

/-- The receipts the signer is ahead by, from its journal; `none` where there is none to ask. -/
def journalFrom (view : SignerView) (head : Receipt) (tip : Option TipRow) : Option (List Receipt) :=
  let firstMissing := firstMissingOf tip
  if firstMissing < head.seq.1 then
    view.receipts.bind fun page =>
      fetchJournal page firstMissing (head.seq.1 - firstMissing + 1) (head.seq.1 - firstMissing + 1) []
  else none

/-- **One chain against the signer's head**: it is level with it, or takes back what it is missing,
    or the disagreement is written down. -/
def reconcileNow (s : Store) (systemId : SystemId) (view : SignerView) :
    Store × Except StoreError ReconcileOutcome :=
  let tip := s.db.tipRow systemId
  let diverged (detail : JsString) : Store × Except StoreError ReconcileOutcome :=
    (recordDivergence s systemId detail (view.clock 0), .ok (.diverged detail))
  match view.head with
  | .error e => (s, .error e)
  | .ok none =>
      if tip.isNone then (s, .ok .inSync)
      else diverged (js "the signer has signed nothing " ++ js "for " ++ systemId.1 ++ js ", and "
        ++ hereText tip ++ js ": if this installation " ++ js "predates the signer's own "
        ++ js "state, run `sigillo-signer " ++ js "init-from-db` once")
  | .ok (some head) =>
      if ¬ (head.systemId = systemId ∧ (keyFor key s.db head).any (verifyReceiptSignature c head)) then
        diverged (js "the head the signer returned " ++ js "for " ++ systemId.1
          ++ js " is not a receipt of it " ++ js "under a known key")
      else if tip.any fun t => decide (head.seq = t.seq)
          && decide (receiptHashHex c head.toUnsignedReceipt = t.hash) then (s, .ok .inSync)
      else if head.seq.1 < firstMissingOf tip then
        diverged (thereText c head ++ js ", and " ++ hereText tip)
      else
        match missingReceipts c key s.db systemId head (journalFrom view head tip) with
        | .error detail => diverged detail
        | .ok taken =>
            match taken.foldlM (restoreReceipt c systemId view.clock) s.db with
            | .error e => (s, .error e)
            | .ok db =>
                ({ db, divergences := s.divergences.filter fun entry => !(entry.1 == systemId),
                   history := s.history ++ taken.map .tookBack },
                  .ok (.recovered head.seq (receiptHashHex c head.toUnsignedReceipt) taken.length))

-- ── Methods ──────────────────────────────────────────────────────────────────────

/-- What the signer answers to one receipt that is to be written: a signature, then, where it
    refuses the position, a comparison, and a signature once more. -/
structure SignerReplies where
  first : Attempt
  view : SignerView
  again : Attempt

/-- **`writeReceipt`**: tried once more where the signer refused the position and the chain then
    recovered what it was missing. -/
def writeReceipt (s : Store) (event : ChainEvent) (mode : WriteMode)
    (alongside : Database → Except StoreError Database) (replies : SignerReplies) :
    Store × Except StoreError Receipt :=
  match attemptReceipt c u key s event mode alongside replies.first with
  | (s, .error (.signerRefused .sequence message)) =>
      match reconcileNow c key s event.systemId replies.view with
      | (s, .error e) => (s, .error e)
      | (s, .ok (.recovered ..)) => attemptReceipt c u key s event mode alongside replies.again
      | (s, .ok (.diverged detail)) => (s, .error (.signerRefused .sequence (message ++ js "; " ++ detail)))
      | (s, .ok .inSync) => (s, .error (.signerRefused .sequence message))
  | result => result

/-- What `append` refuses before anything else. -/
def refusedEvent (event : ChainEvent) : Option StoreError :=
  if event.action.kind = .genesis then
    some (.storage (js "a genesis receipt is written " ++ js "by createSystem, not by append"))
  else if CONNECTION_PREFIX <+: event.action.name then
    some (.storage (js "action names starting with " ++ CONNECTION_PREFIX
      ++ js " are written by the server " ++ js "alone"))
  else none

/-- What an event is refused for before the queue: the check sees the persons known at the time. -/
def refusedBefore (seen : List SubjectRow) (event : ChainEvent) (random : Randomness) :
    Option StoreError :=
  match checkEvent c u seen key.keyId event random with
  | .error e => some (.append e)
  | .ok () => none

/-- **`append`.** -/
def append (s : Store) (seen : List SubjectRow) (event : ChainEvent) (checked : Randomness)
    (replies : SignerReplies) : Store × Except StoreError Receipt :=
  match (refusedEvent event).orElse fun _ => refusedBefore c u key seen event checked with
  | some e => (s, .error e)
  | none => writeReceipt c u key s event .continuation .ok replies

/-- The receipts of a batch, one after the other, until one fails. -/
def writeBatch (s : Store) : List (ChainEvent × SignerReplies) → Store × Except StoreError (List Receipt)
  | [] => (s, .ok [])
  | (event, replies) :: rest =>
      match writeReceipt c u key s event .continuation .ok replies with
      | (s, .error e) => (s, .error e)
      | (s, .ok receipt) =>
          match writeBatch s rest with
          | (s, .error e) => (s, .error e)
          | (s, .ok receipts) => (s, .ok (receipt :: receipts))

/-- **`appendBatch`**: every event is checked before the first is signed. -/
def appendBatch (s : Store) (seen : List SubjectRow)
    (events : List (ChainEvent × Randomness × SignerReplies)) : Store × Except StoreError (List Receipt) :=
  match ((events.findSome? fun e => if e.1.action.kind = .genesis then refusedEvent e.1 else none).orElse
      fun _ => (events.findSome? fun e => refusedEvent e.1).orElse
        fun _ => events.findSome? fun e => refusedBefore c u key seen e.1 e.2.1) with
  | some e => (s, .error e)
  | none => writeBatch c u key s (events.map fun e => (e.1, e.2.2))

/-- `INSERT … ON CONFLICT … DO UPDATE` of a heartbeat's session. -/
def saveConnection (row : ConnectionRow) (db : Database) : Database :=
  let same (r : ConnectionRow) : Bool := r.systemId == row.systemId && r.sessionId == row.sessionId
  if db.connections.any same then
    { db with connections := db.connections.map fun r => if same r then
        { r with state := row.state, lastBeatAt := row.lastBeatAt, scriptChanged := row.scriptChanged }
        else r }
  else { db with connections := db.connections ++ [row] }

/-- **`recordConnection`**: the session's state, and the receipt of its change in one transaction. -/
def recordConnection (s : Store) (seen : List SubjectRow) (row : ConnectionRow)
    (event : Option (ChainEvent × Randomness × SignerReplies)) : Store × Except StoreError (Option Receipt) :=
  match event with
  | none => ({ s with db := saveConnection row s.db }, .ok none)
  | some (event, checked, replies) =>
      if ¬ CONNECTION_PREFIX <+: event.action.name then
        (s, .error (.storage (js "a connection receipt is named " ++ CONNECTION_PREFIX ++ js "*, not "
          ++ event.action.name)))
      else
        match refusedBefore c u key seen event checked with
        | some e => (s, .error e)
        | none =>
            match writeReceipt c u key s event .continuation (fun db => .ok (saveConnection row db)) replies with
            | (s, .error e) => (s, .error e)
            | (s, .ok receipt) => (s, .ok (some receipt))

/-- The event a chain opens with. -/
def genesisEvent (systemId : SystemId) (ts : Timestamp) : ChainEvent where
  systemId := systemId
  tsEvent := ts.1
  tsReceived := ts
  actor := ⟨systemId.1, none⟩
  action := ⟨.genesis, systemId.1⟩
  inputHash := none
  outputHash := none
  rawInput := none
  rawOutput := none
  inputNonce := none
  outputNonce := none
  outcome := .ok
  source := ⟨.api, none, none⟩
  artifacts := none
  model := none

/-- **`createSystem`**: a name whose chain was deleted is not given out again. -/
def createSystem (s : Store) (systemId : SystemId) (ts : Timestamp) (organizationId : Option JsString)
    (replies : SignerReplies) : Store × Except StoreError Receipt :=
  if ¬ s.db.hasOwner organizationId then
    (s, .error (.storage (js "unknown organization " ++ organizationId.getD [])))
  else
    match s.db.deletionOf systemId with
    | some deletedOn => (s, .error (.storage (systemId.1 ++ js " belonged to a system deleted "
        ++ js "on " ++ deletedOn.1 ++ js ", and is not reused: choose " ++ js "another identifier")))
    | none => writeReceipt c u key s (genesisEvent systemId ts) (.genesis organizationId) .ok replies

/-- Every chain named, one after the other, until the signer does not answer. -/
def reconcileWithSigner (s : Store) : List (SystemId × SignerView) →
    Store × Except StoreError (List ReconcileOutcome)
  | [] => (s, .ok [])
  | (systemId, view) :: rest =>
      match reconcileNow c key s systemId view with
      | (s, .error e) => (s, .error e)
      | (s, .ok outcome) =>
          match reconcileWithSigner s rest with
          | (s, .error e) => (s, .error e)
          | (s, .ok outcomes) => (s, .ok (outcome :: outcomes))

-- ── Checkpoints ──────────────────────────────────────────────────────────────────

/-- `INTEGER PRIMARY KEY`: one past the largest. -/
def nextCheckpointId (db : Database) : ℕ := (db.checkpoints.map (·.id)).foldr max 0 + 1

/-- `INSERT INTO checkpoints`. -/
def insertCheckpoint (db : Database) (checkpoint : Checkpoint) : Except StoreError Database :=
  (Database.insertRowInto db.checkpoints (fun r => r.checkpoint.systemId == checkpoint.systemId
    && r.checkpoint.treeSize == checkpoint.treeSize) ⟨nextCheckpointId db, checkpoint⟩).map
      fun checkpoints => { db with checkpoints }

/-- `bytes(hash)` of the hashes of a chain. -/
def chainDigests (db : Database) (systemId : SystemId) : List Digest :=
  (db.chainRows systemId).map fun row => digestOfHex row.hash

/-- The largest tree of the chain that is under a checkpoint. -/
def coveredSize (db : Database) (systemId : SystemId) : Option ℕ :=
  ((db.checkpoints.filter fun r => r.checkpoint.systemId == systemId).map
    fun r => r.checkpoint.treeSize.1).max?

/-- **`createCheckpoint`**: of a chain that first agrees with the signer's record. -/
def createCheckpoint (s : Store) (systemId : SystemId) (view : SignerView)
    (reply : Except StoreError Checkpoint) : Store × Except StoreError (Option CheckpointRow) :=
  match reconcileNow c key s systemId view with
  | (s, .error e) => (s, .error e)
  | (s, .ok (.diverged detail)) =>
      (s, .error (.signerRefused .sequence (js "no checkpoint for " ++ systemId.1 ++ js ": " ++ detail)))
  | (s, .ok _) =>
      let hashes := chainDigests s.db systemId
      if hashes = [] then
        (s, .error (.storage (js "unknown system " ++ systemId.1 ++ js ": it has no receipts to "
          ++ js "check point")))
      else if coveredSize s.db systemId = some hashes.length then (s, .ok none)
      else
        match reply with
        | .error e => (s, .error e)
        | .ok checkpoint =>
            if ¬ (checkpoint.systemId = systemId ∧ checkpoint.keyId = key.keyId
                ∧ verifyCheckpointSignature c checkpoint key.verificationKey) then
              (s, .error (refusedSignature (js "checkpoint") key.keyId))
            else if ¬ (checkpoint.treeSize.1 = hashes.length
                ∧ checkpoint.rootHash = (merkleRoot c hashes).hex) then
              let detail := js "the signer's checkpoint covers " ++ countText checkpoint.treeSize.1
                ++ js " receipts with root " ++ checkpoint.rootHash.1 ++ js ", and this database holds "
                ++ countText hashes.length ++ js " with root " ++ (merkleRoot c hashes).hex.1
              (recordDivergence s systemId detail (view.clock 1),
                .error (.signerRefused .sequence (js "no checkpoint for " ++ systemId.1 ++ js ": " ++ detail)))
            else
              match insertCheckpoint s.db checkpoint with
              | .error e => (s, .error e)
              | .ok db => ({ s with db }, .ok (some ⟨nextCheckpointId s.db, checkpoint⟩))

/-- **`recordTimestamp`.** -/
def recordTimestamp (s : Store) (row : TimestampRow) : Store × Except StoreError Unit :=
  if s.db.checkpoints.any fun r => r.id == row.checkpointId then
    match Database.insertRowInto s.db.timestamps (fun r => r.checkpointId == row.checkpointId
        && r.tsaUrl == row.tsaUrl) row with
    | .error e => (s, .error e)
    | .ok timestamps => ({ s with db := { s.db with timestamps } }, .ok ())
  else (s, .error .constraint)

-- ── A toy signer ─────────────────────────────────────────────────────────────────

/-- The toy key's public half. -/
def toyWriter : WriterKey := ⟨toyKey.keyId, List.replicate 32 0⟩

/-- A system to try things on. -/
def toySystem : SystemId := ⟨js "acme.bot", by decide⟩

/-- Random bytes to try things on. -/
def toyRandomness : Randomness :=
  ⟨⟨List.replicate 16 0, rfl⟩, ⟨List.replicate 32 0, length_zeros⟩, ⟨List.replicate 32 0, length_zeros⟩⟩

/-- One signature for everything, and no record to compare with. -/
def toyReplies : SignerReplies :=
  let attempt : Attempt := ⟨toyRandomness, .ok (base64Encode (List.replicate 64 0))⟩
  ⟨attempt, ⟨.ok none, none, fun _ => newYear⟩, attempt⟩

/-- An action of the toy system for someone, or for nobody. -/
def toyEvent (onBehalfOf : Option JsString) : ChainEvent :=
  { genesisEvent toySystem newYear with
    actor := ⟨js "bot", onBehalfOf⟩, action := ⟨.toolCall, js "search"⟩ }

end Sigillo
