import Sigillo.Administration
import Sigillo.StoreWrites

/-!
# Runs of the store

The store's operations, one after the other as the write queue runs them, with whatever the signer
answers. Each is a few transactions, and each transaction one of eight kinds of change
(**`perform_commits`**): what every change of a kind keeps, every run keeps. -/

namespace Sigillo

open DoubleArith Utf16Text JsonText JsonSchema HexBase64 IsoTime Fallible Relation

/-- **What the store may be asked to do.** -/
inductive Operation where
  | createSystem (systemId : SystemId) (ts : Timestamp) (organizationId : Option JsString)
      (replies : SignerReplies)
  | append (seen : List SubjectRow) (event : ChainEvent) (checked : Randomness) (replies : SignerReplies)
  | appendBatch (seen : List SubjectRow) (events : List (ChainEvent × Randomness × SignerReplies))
  | recordConnection (seen : List SubjectRow) (row : ConnectionRow)
      (event : Option (ChainEvent × Randomness × SignerReplies))
  | reconcileWithSigner (systems : List (SystemId × SignerView))
  | createCheckpoint (systemId : SystemId) (view : SignerView) (reply : Except StoreError Checkpoint)
  | recordTimestamp (row : TimestampRow)
  | createOrganization (organizationId name : JsString) (request : AdminRequest) (approved : Bool)
  | registerOrganization (uid email name : JsString) (draws : List JsString) (request : AdminRequest)
  | approveOrganization (organizationId : JsString) (request : AdminRequest)
  | rejectOrganization (organizationId : JsString) (request : AdminRequest)
  | deleteOrganization (organization : Organization) (request : AdminRequest)
  | assignSystem (systemId : SystemId) (organizationId : Option JsString) (request : AdminRequest)
  | createTransfer (systemId : SystemId) (secret : JsString) (request : AdminRequest)
  | revokeTransfers (systemId : SystemId) (request : AdminRequest)
  | acceptTransfer (secret organizationId : JsString) (request : AdminRequest)
  | renameSystem (systemId : SystemId) (displayName : JsString) (request : AdminRequest)
  | archiveSystem (systemId : SystemId) (request : AdminRequest)
  | unarchiveSystem (systemId : SystemId) (request : AdminRequest)
  | deleteEmptySystem (systemId : SystemId) (request : AdminRequest)
  | eraseOperatorSystem (systemId : SystemId) (request : AdminRequest)
  | eraseOrganization (organizationId : JsString) (request : AdminRequest)
  | eraseSubject (token : Pseudonym) (request : AdminRequest)
  | eraseOpenings (systemId : SystemId) (seqs : List Count) (request : AdminRequest)
  /-- A new process opens the file: what the last one remembered is gone. -/
  | reopen

variable (c : Crypto) (u : Unicode) (key : WriterKey)

/-- The store once an operation has run, whether it succeeded or threw. -/
def perform (s : Store) : Operation → Store
  | .createSystem systemId ts organizationId replies =>
      (createSystem c u key s systemId ts organizationId replies).1
  | .append seen event checked replies => (append c u key s seen event checked replies).1
  | .appendBatch seen events => (appendBatch c u key s seen events).1
  | .recordConnection seen row event => (recordConnection c u key s seen row event).1
  | .reconcileWithSigner systems => (reconcileWithSigner c key s systems).1
  | .createCheckpoint systemId view reply => (createCheckpoint c key s systemId view reply).1
  | .recordTimestamp row => (recordTimestamp s row).1
  | .createOrganization organizationId name request approved =>
      (createOrganization s organizationId name request approved).1
  | .registerOrganization uid email name draws request =>
      (registerOrganization s uid email name draws request).1
  | .approveOrganization organizationId request => (approveOrganization s organizationId request).1
  | .rejectOrganization organizationId request => (rejectOrganization s organizationId request).1
  | .deleteOrganization organization request => (deleteOrganization s organization request).1
  | .assignSystem systemId organizationId request => (assignSystem s systemId organizationId request).1
  | .createTransfer systemId secret request => (createTransfer c s systemId secret request).1
  | .revokeTransfers systemId request => (revokeTransfers s systemId request).1
  | .acceptTransfer secret organizationId request => (acceptTransfer c s secret organizationId request).1
  | .renameSystem systemId displayName request => (renameSystem s systemId displayName request).1
  | .archiveSystem systemId request => (archiveSystem s systemId request).1
  | .unarchiveSystem systemId request => (unarchiveSystem s systemId request).1
  | .deleteEmptySystem systemId request => (deleteEmptySystem s systemId request).1
  | .eraseOperatorSystem systemId request => (eraseOperatorSystem s systemId request).1
  | .eraseOrganization organizationId request => (eraseOrganization s organizationId request).1
  | .eraseSubject token request => (eraseSubject s token request).1
  | .eraseOpenings systemId seqs request => (eraseOpenings s systemId seqs request).1
  | .reopen => { s with divergences := [] }

/-- **A run**: the operations in their order. -/
def run (s : Store) (ops : List Operation) : Store := ops.foldl (perform c u key) s

@[simp] theorem run_nil (s : Store) : run c u key s [] = s := rfl

@[simp] theorem run_cons (s : Store) (op : Operation) (ops : List Operation) :
    run c u key s (op :: ops) = run c u key (perform c u key s op) ops := rfl

-- ── Kinds of change ──────────────────────────────────────────────────────────────

/-- Whose chain, receipts or person a transaction is about. -/
inductive Kind where
  | write
  | recovery
  | beside
  | deleteEmpty (systemId : SystemId)
  | eraseOperator (systemId : SystemId)
  | eraseOrganization (organizationId : JsString)
  | eraseSubject (token : Pseudonym)
  | eraseOpenings (systemId : SystemId) (seqs : List Count)

/-- What each operation's transactions are. -/
def Operation.Allows : Operation → Kind → Prop
  | .deleteEmptySystem systemId _, k => k = .deleteEmpty systemId
  | .eraseOperatorSystem systemId _, k => k = .eraseOperator systemId
  | .eraseOrganization organizationId _, k => k = .eraseOrganization organizationId
  | .eraseSubject token _, k => k = .eraseSubject token
  | .eraseOpenings systemId seqs _, k => k = .eraseOpenings systemId seqs
  | _, k => k = .write ∨ k = .recovery ∨ k = .beside

/-- An entry that deletes nothing. -/
def AdminLogRow.isPlain (entry : AdminLogRow) : Prop :=
  entry.action ≠ .systemDelete ∧ entry.action ≠ .organizationErase

/-- **A change beside the chains**: to whom systems belong, their labels, checkpoints, links. -/
structure Beside (db db' : Database) : Prop where
  receipts : db'.receipts = db.receipts
  artifacts : db'.artifacts = db.artifacts
  openings : db'.openings = db.openings
  subjects : db'.subjects = db.subjects
  signingKeys : db'.signingKeys = db.signingKeys
  systems : db'.systems.map (·.systemId) = db.systems.map (·.systemId)
  adminLog : ∃ entries, db'.adminLog = db.adminLog ++ entries ∧ ∀ entry ∈ entries, entry.isPlain

/-- **A chain deleted with everything that hangs from it**, and the entry that says so. -/
structure Deletes (db db' : Database) (systemId : SystemId) : Prop where
  receipts : db'.receipts = db.receipts.filter fun r => !(r.systemId == systemId)
  subjects : db'.subjects = db.subjects
  signingKeys : db'.signingKeys = db.signingKeys
  organizations : db'.organizations = db.organizations
  users : db'.users = db.users
  systems : db'.systems = db.systems.filter fun r => !(r.systemId == systemId)
  adminLog : ∃ entry, db'.adminLog = db.adminLog ++ [entry] ∧ entry.action = .systemDelete ∧
    entry.systemId = some systemId

/-- The openings of a chain are deleted with it. -/
def OpeningsGone (db db' : Database) (systemId : SystemId) : Prop :=
  db'.openings = db.openings.filter fun o => !(o.systemId == systemId)

/-- The entry an erased customer leaves. -/
def IsErasureOf (organizationId : JsString) (entry : AdminLogRow) : Prop :=
  entry.action = .organizationErase ∧
    Database.jsonExtract entry.detail (js "organization_id") = some (.str organizationId)

/-- **One committed transaction.** -/
inductive Commit (s : Store) : Kind → Store → Prop
  | wrote {event : ChainEvent} {mode : WriteMode} {attempt : Attempt} {prepared : Prepared}
      {receipt : Receipt} {db : Database}
      (writes : Writes c u key s.db event mode attempt prepared receipt db)
      (genesis : ∀ o, mode = .genesis o → s.db.deletionOf event.systemId = none) :
      Commit s .write { s with db, history := s.history ++ [.wrote event prepared receipt] }
  | recovered {systemId : SystemId} {view : SignerView} {head : Receipt} {taken : List Receipt}
      {db : Database} (ahead : view.head = .ok (some head))
      (missing : Missing c key s.db systemId head (journalFrom view head (s.db.tipRow systemId)) taken)
      (restores : Restores c s.db systemId taken db) :
      Commit s .recovery
        { db, divergences := s.divergences.filter fun entry => !(entry.1 == systemId),
          history := s.history ++ taken.map .tookBack }
  | beside {db : Database} {divergences : List (SystemId × JsString)} (h : Beside s.db db) :
      Commit s .beside { s with db, divergences }
  | deletedEmpty {systemId : SystemId} {genesis : ReceiptRow} {db : Database}
      (only : s.db.chainRows systemId = [genesis]) (first : genesis.seq.1 = 0)
      (noOpening : ∀ o ∈ s.db.openings, ¬ (o.systemId = systemId ∧ o.seq = genesis.seq))
      (deletes : Deletes s.db db systemId) (openings : db.openings = s.db.openings) :
      Commit s (.deleteEmpty systemId)
        { s with db, history := s.history ++ [.deletedChain systemId] }
  | erasedOperator {record : SystemRow} {db : Database} (found : record ∈ s.db.systems)
      (own : record.organizationId = none) (deletes : Deletes s.db db record.systemId)
      (openings : OpeningsGone s.db db record.systemId) :
      Commit s (.eraseOperator record.systemId)
        { s with db, history := s.history ++ [.deletedChain record.systemId] }
  | erasedOrganization {organizationId : JsString} {records : List SystemRow} {db : Database}
      (owned : records = s.db.systems.filter fun r => r.organizationId == some organizationId)
      (receipts : db.receipts = s.db.receipts.filter fun r =>
        !(records.any fun record => record.systemId == r.systemId))
      (openings : db.openings = s.db.openings.filter fun o =>
        !(records.any fun record => record.systemId == o.systemId))
      (subjects : db.subjects ⊆ s.db.subjects)
      (systems : db.systems = s.db.systems.filter fun r =>
        !(records.any fun record => record.systemId == r.systemId))
      (adminLog : ∃ erasure entries, db.adminLog = s.db.adminLog ++ erasure :: entries ∧
        IsErasureOf organizationId erasure ∧
        entries.map (fun e => (e.action, e.systemId))
          = records.map fun record => (.systemDelete, some record.systemId)) :
      Commit s (.eraseOrganization organizationId)
        { s with db, history := s.history ++ records.map fun record => .deletedChain record.systemId }
  | erasedSubject {token : Pseudonym} {db : Database} (receipts : db.receipts = s.db.receipts)
      (openings : db.openings = s.db.openings) (systems : db.systems = s.db.systems)
      (adminLog : ∃ entry, db.adminLog = s.db.adminLog ++ [entry] ∧ entry.isPlain) :
      Commit s (.eraseSubject token) { s with db }
  | erasedOpenings {systemId : SystemId} {seqs : List Count} {db : Database}
      (receipts : db.receipts = s.db.receipts) (subjects : db.subjects = s.db.subjects)
      (systems : db.systems = s.db.systems)
      (openings : db.openings = s.db.openings.filter fun o => !(o.systemId == systemId && seqs.contains o.seq))
      (adminLog : ∃ entry, db.adminLog = s.db.adminLog ++ [entry] ∧ entry.isPlain) :
      Commit s (.eraseOpenings systemId seqs)
        { s with db, history := s.history ++ [.erasedOpenings systemId seqs] }

/-- Transactions of the allowed kinds, one after the other. -/
abbrev Commits (allowed : Kind → Prop) : Store → Store → Prop :=
  ReflTransGen fun a b => ∃ k, allowed k ∧ Commit c u key a k b

/-- The kinds of transaction that no deletion is one of. -/
def Kind.IsOrdinary (k : Kind) : Prop := k = .write ∨ k = .recovery ∨ k = .beside

variable {c u key}

/-- One commit. -/
theorem Commits.single {allowed : Kind → Prop} {s s' : Store} {k : Kind} (hk : allowed k)
    (h : Commit c u key s k s') : Commits c u key allowed s s' :=
  ReflTransGen.single ⟨k, hk, h⟩

-- ── Receipts written ─────────────────────────────────────────────────────────────

/-- A change of no table that a chain, a person or a deletion is in. -/
theorem Beside.of_same {db db' : Database}
    (h : (db'.receipts, db'.artifacts, db'.openings, db'.subjects, db'.signingKeys, db'.systems, db'.adminLog)
      = (db.receipts, db.artifacts, db.openings, db.subjects, db.signingKeys, db.systems, db.adminLog)) :
    Beside db db' := by
  simp only [Prod.mk.injEq] at h
  obtain ⟨h1, h2, h3, h4, h5, h6, h7⟩ := h
  exact ⟨h1, h2, h3, h4, h5, by rw [h6], [], by rw [h7, List.append_nil], by simp⟩

/-- Nothing changed. -/
theorem Beside.refl {db : Database} : Beside db db := .of_same rfl

/-- An entry of the log that deletes nothing. -/
theorem Beside.logAdmin {db db' : Database} (h : Beside db db') {action : AdminAction}
    (hdelete : action ≠ .systemDelete) (herase : action ≠ .organizationErase) (systemId : Option SystemId)
    (request : AdminRequest) (detail : List (JsString × Json)) (genesisHash : Option (Hex 64)) :
    Beside db (db'.logAdmin action systemId request detail genesisHash) := by
  obtain ⟨entries, hlog, hplain⟩ := h.adminLog
  refine { h with adminLog := ⟨entries ++ [_], by rw [Database.logAdmin, hlog, List.append_assoc], ?_⟩ }
  intro entry hentry
  rcases List.mem_append.mp hentry with hentry | hentry
  · exact hplain entry hentry
  · rw [List.mem_singleton.mp hentry]
    exact ⟨hdelete, herase⟩

/-- `recordDivergence` commits ordinarily. -/
theorem recordDivergence_commits {s : Store} (systemId : SystemId) (detail : JsString) (ts : Timestamp) :
    Commits c u key Kind.IsOrdinary s (recordDivergence s systemId detail ts) := by
  rw [recordDivergence]
  by_cases hknown : s.divergences.lookup systemId = some detail
  · rw [if_pos hknown]
  · rw [if_neg hknown]
    exact .single (.inr (.inr rfl)) (.beside (Beside.refl.logAdmin (by decide) (by decide) _ _ _ _))

/-- `reconcileNow` commits ordinarily. -/
theorem reconcileNow_commits (s : Store) (systemId : SystemId) (view : SignerView) :
    Commits c u key Kind.IsOrdinary s (reconcileNow c key s systemId view).1 := by
  generalize hresult : reconcileNow c key s systemId view = result
  have h : Reconciles c key s systemId view (reconcileNow c key s systemId view) :=
    reconcileNow_reconciles s systemId view
  rw [hresult] at h
  cases h with
  | failed e => exact .refl
  | inSync => exact .refl
  | diverged detail => exact recordDivergence_commits systemId detail _
  | recovered head taken db ahead missing restored =>
      exact .single (.inr (.inl rfl)) (.recovered ahead missing (restores_of_foldlM restored))

/-- Whatever is written alongside a receipt is beside the chains. -/
def WritesBeside (alongside : Database → Except StoreError Database) : Prop :=
  ∀ db db', alongside db = .ok db' → Beside db db'

/-- A chain is opened only where none of its name was deleted. -/
def OpensNew (s : Store) (event : ChainEvent) (mode : WriteMode) : Prop :=
  ∀ o, mode = .genesis o → s.db.deletionOf event.systemId = none

/-- One attempt commits ordinarily. -/
theorem attemptReceipt_commits {s : Store} {event : ChainEvent} {mode : WriteMode}
    {alongside : Database → Except StoreError Database} (hmode : OpensNew s event mode)
    (halong : WritesBeside alongside) (attempt : Attempt) :
    Commits c u key Kind.IsOrdinary s (attemptReceipt c u key s event mode alongside attempt).1 := by
  rw [attemptReceipt]
  split
  case h_1 e hresult => exact .refl
  case h_2 db written hresult =>
    obtain ⟨⟨db₁, written₁⟩, hinsert, hwith⟩ := bind_eq_ok.mp hresult
    obtain ⟨db₂, hdb, heq⟩ := map_eq_ok.mp hwith
    obtain ⟨rfl, rfl⟩ := Prod.mk.inj heq
    have hbeside := halong _ _ hdb
    cases written₁ with
    | duplicate receipt =>
        obtain ⟨rfl, -⟩ := insertReceipt_duplicate hinsert
        have h : Commit c u key s .beside { s with db := db₂ } := .beside hbeside
        simpa [Written.happening] using Commits.single (.inr (.inr rfl)) h
    | new prepared receipt =>
        have h : Commits c u key Kind.IsOrdinary s
            { s with db := db₁, history := s.history ++ [.wrote event prepared receipt] } :=
          .single (.inl rfl) (.wrote (insertReceipt_new hinsert) hmode)
        exact h.tail ⟨.beside, .inr (.inr rfl), .beside hbeside⟩

/-- What is in neither part is not found. -/
theorem find?_eq_none_of_append {α : Type} {p : α → Bool} {l more : List α} (h : l.find? p = none)
    (hmore : ∀ a ∈ more, p a = false) : (l ++ more).find? p = none := by
  rw [List.find?_append, h, Option.none_or, List.find?_eq_none]
  intro a ha
  rw [hmore a ha]
  exact Bool.false_ne_true

/-- A log that grew by nothing but plain entries names no new deletion. -/
theorem deletionOf_of_plain {db db' : Database} {systemId : SystemId} {entries : List AdminLogRow}
    (hlog : db'.adminLog = db.adminLog ++ entries) (hplain : ∀ entry ∈ entries, entry.isPlain)
    (h : db.deletionOf systemId = none) : db'.deletionOf systemId = none := by
  rw [Database.deletionOf, Option.map_eq_none_iff] at h ⊢
  rw [hlog]
  refine find?_eq_none_of_append h fun entry hentry => ?_
  rw [Bool.and_eq_false_iff]
  exact .inl (beq_eq_false_iff_ne.mpr (hplain entry hentry).1)

/-- A recovery's entry deletes nothing. -/
theorem isRecovery.isPlain {systemId : SystemId} {entry : AdminLogRow} (h : isRecovery systemId entry) :
    entry.isPlain := by
  constructor
  · rw [h.1]
    decide
  · rw [h.1]
    decide

/-- A comparison deletes nothing. -/
theorem deletionOf_reconcileNow {s : Store} {systemId name : SystemId} {view : SignerView}
    (h : s.db.deletionOf name = none) :
    (reconcileNow c key s systemId view).1.db.deletionOf name = none := by
  generalize hresult : reconcileNow c key s systemId view = result
  have hcases : Reconciles c key s systemId view (reconcileNow c key s systemId view) :=
    reconcileNow_reconciles s systemId view
  rw [hresult] at hcases
  cases hcases with
  | failed e => exact h
  | inSync => exact h
  | diverged detail =>
      rw [recordDivergence]
      by_cases hknown : s.divergences.lookup systemId = some detail
      · rw [if_pos hknown]
        exact h
      · rw [if_neg hknown]
        refine deletionOf_of_plain rfl (fun entry hentry => ?_) h
        rw [List.mem_singleton.mp hentry]
        exact ⟨AdminAction.noConfusion, AdminAction.noConfusion⟩
  | recovered head taken db ahead missing restored =>
      obtain ⟨entries, hlog, hentries⟩ := (restores_of_foldlM restored).adminLog
      exact deletionOf_of_plain hlog (fun entry hentry => (hentries entry hentry).isPlain) h

/-- A write with its recovery commits ordinarily. -/
theorem writeReceipt_commits {s : Store} {event : ChainEvent} {mode : WriteMode}
    {alongside : Database → Except StoreError Database} (hmode : OpensNew s event mode)
    (halong : WritesBeside alongside) (replies : SignerReplies) :
    Commits c u key Kind.IsOrdinary s (writeReceipt c u key s event mode alongside replies).1 := by
  have hfirst : Commits c u key Kind.IsOrdinary s
      (attemptReceipt c u key s event mode alongside replies.first).1 :=
    attemptReceipt_commits hmode halong replies.first
  have hnone : ∀ s₁ e, attemptReceipt c u key s event mode alongside replies.first = (s₁, .error e) →
      s₁ = s := by
    intro s₁ e h
    rw [attemptReceipt] at h
    split at h
    · exact (Prod.mk.inj h).1.symm
    · cases (Prod.mk.inj h).2
  rw [writeReceipt]
  split
  case h_1 s₁ message hrefused =>
    obtain rfl := hnone _ _ hrefused
    have hreconcile : Commits c u key Kind.IsOrdinary s₁
        (reconcileNow c key s₁ event.systemId replies.view).1 :=
      reconcileNow_commits s₁ event.systemId replies.view
    have hdeletion : OpensNew (reconcileNow c key s₁ event.systemId replies.view).1 event mode :=
      fun o ho => deletionOf_reconcileNow (hmode o ho)
    generalize reconcileNow c key s₁ event.systemId replies.view = result at hreconcile hdeletion ⊢
    obtain ⟨s₂, outcome⟩ := result
    cases outcome with
    | error e => exact hreconcile
    | ok outcome =>
        cases outcome with
        | inSync => exact hreconcile
        | diverged detail => exact hreconcile
        | recovered seq hash count =>
            exact hreconcile.trans (attemptReceipt_commits hdeletion halong replies.again)
  case h_2 => exact hfirst

/-- Nothing is written beside. -/
theorem writesBeside_ok : WritesBeside .ok := by
  intro db db' h
  obtain rfl := Except.ok.inj h
  exact .refl

/-- What goes on opens nothing. -/
theorem opensNew_continuation (s : Store) (event : ChainEvent) : OpensNew s event .continuation := by
  rintro o ⟨⟩

/-- The writes of a batch commit ordinarily. -/
theorem writeBatch_commits (s : Store) (events : List (ChainEvent × SignerReplies)) :
    Commits c u key Kind.IsOrdinary s (writeBatch c u key s events).1 := by
  induction events generalizing s with
  | nil => exact .refl
  | cons first rest ih =>
      obtain ⟨event, replies⟩ := first
      have hwrite : Commits c u key Kind.IsOrdinary s
          (writeReceipt c u key s event .continuation .ok replies).1 :=
        writeReceipt_commits (opensNew_continuation s event) writesBeside_ok replies
      rw [writeBatch]
      generalize writeReceipt c u key s event .continuation .ok replies = result at hwrite ⊢
      obtain ⟨s₁, outcome⟩ := result
      cases outcome with
      | error e => exact hwrite
      | ok receipt =>
          have hrest := ih s₁
          simp only
          generalize writeBatch c u key s₁ rest = result at hrest ⊢
          obtain ⟨s₂, outcome⟩ := result
          cases outcome with
          | error e => exact hwrite.trans hrest
          | ok receipts => exact hwrite.trans hrest

/-- `append` commits ordinarily. -/
theorem append_commits (s : Store) (seen : List SubjectRow) (event : ChainEvent) (checked : Randomness)
    (replies : SignerReplies) :
    Commits c u key Kind.IsOrdinary s (append c u key s seen event checked replies).1 := by
  rw [append]
  split
  · exact .refl
  · exact writeReceipt_commits (opensNew_continuation s event) writesBeside_ok replies

/-- `appendBatch` commits ordinarily. -/
theorem appendBatch_commits (s : Store) (seen : List SubjectRow)
    (events : List (ChainEvent × Randomness × SignerReplies)) :
    Commits c u key Kind.IsOrdinary s (appendBatch c u key s seen events).1 := by
  rw [appendBatch]
  split
  · exact .refl
  · exact writeBatch_commits s _

/-- A session's row is written beside the chains. -/
theorem beside_saveConnection (row : ConnectionRow) (db : Database) : Beside db (saveConnection row db) := by
  rw [saveConnection]
  dsimp only
  split
  · exact .of_same rfl
  · exact .of_same rfl

/-- `recordConnection` commits ordinarily. -/
theorem recordConnection_commits (s : Store) (seen : List SubjectRow) (row : ConnectionRow)
    (event : Option (ChainEvent × Randomness × SignerReplies)) :
    Commits c u key Kind.IsOrdinary s (recordConnection c u key s seen row event).1 := by
  cases event with
  | none => exact Commits.single (.inr (.inr rfl)) (.beside (beside_saveConnection row s.db))
  | some event =>
      obtain ⟨event, checked, replies⟩ := event
      have halong : WritesBeside fun db => .ok (saveConnection row db) := by
        intro db db' h
        obtain rfl := Except.ok.inj h
        exact beside_saveConnection row db
      have hwrite : Commits c u key Kind.IsOrdinary s
          (writeReceipt c u key s event .continuation (fun db => .ok (saveConnection row db)) replies).1 :=
        writeReceipt_commits (opensNew_continuation s event) halong replies
      rw [recordConnection]
      split
      · exact .refl
      · split
        · exact .refl
        · split
          · rename_i heq
            rwa [heq] at hwrite
          · rename_i heq
            rwa [heq] at hwrite

/-- `createSystem` commits ordinarily. -/
theorem createSystem_commits (s : Store) (systemId : SystemId) (ts : Timestamp)
    (organizationId : Option JsString) (replies : SignerReplies) :
    Commits c u key Kind.IsOrdinary s (createSystem c u key s systemId ts organizationId replies).1 := by
  rw [createSystem]
  split
  · exact .refl
  · split
    · exact .refl
    · rename_i hdeletion
      exact writeReceipt_commits (fun _ _ => hdeletion) writesBeside_ok replies

/-- `reconcileWithSigner` commits ordinarily. -/
theorem reconcileWithSigner_commits (s : Store) (systems : List (SystemId × SignerView)) :
    Commits c u key Kind.IsOrdinary s (reconcileWithSigner c key s systems).1 := by
  induction systems generalizing s with
  | nil => exact .refl
  | cons first rest ih =>
      obtain ⟨systemId, view⟩ := first
      have hfirst : Commits c u key Kind.IsOrdinary s (reconcileNow c key s systemId view).1 :=
        reconcileNow_commits s systemId view
      rw [reconcileWithSigner]
      generalize reconcileNow c key s systemId view = result at hfirst ⊢
      obtain ⟨s₁, outcome⟩ := result
      cases outcome with
      | error e => exact hfirst
      | ok outcome =>
          have hrest := ih s₁
          simp only
          generalize reconcileWithSigner c key s₁ rest = result at hrest ⊢
          obtain ⟨s₂, outcomes⟩ := result
          cases outcomes with
          | error e => exact hfirst.trans hrest
          | ok outcomes => exact hfirst.trans hrest

/-- `createCheckpoint` commits ordinarily. -/
theorem createCheckpoint_commits (s : Store) (systemId : SystemId) (view : SignerView)
    (reply : Except StoreError Checkpoint) :
    Commits c u key Kind.IsOrdinary s (createCheckpoint c key s systemId view reply).1 := by
  have hfirst : Commits c u key Kind.IsOrdinary s (reconcileNow c key s systemId view).1 :=
    reconcileNow_commits s systemId view
  rw [createCheckpoint]
  split
  · rename_i heq
    rwa [heq] at hfirst
  · rename_i heq
    rwa [heq] at hfirst
  · rename_i s₁ outcome hnot heq
    rw [heq] at hfirst
    refine hfirst.trans ?_
    dsimp only
    split
    · exact .refl
    · split
      · exact .refl
      · split
        · exact .refl
        · split
          · exact .refl
          · split
            · exact recordDivergence_commits systemId _ _
            · split
              · exact .refl
              · rename_i hinsert
                obtain ⟨checkpoints, -, rfl⟩ := map_eq_ok.mp hinsert
                have hbeside : Beside s₁.db { s₁.db with checkpoints } :=
                  .of_same rfl
                exact Commits.single (.inr (.inr rfl)) (.beside hbeside)

/-- `recordTimestamp` commits ordinarily. -/
theorem recordTimestamp_commits (s : Store) (row : TimestampRow) :
    Commits c u key Kind.IsOrdinary s (recordTimestamp s row).1 := by
  rw [recordTimestamp]
  split
  · split
    · exact .refl
    · rename_i timestamps hinsert
      have hbeside : Beside s.db { s.db with timestamps } :=
        .of_same rfl
      exact Commits.single (.inr (.inr rfl)) (.beside hbeside)
  · exact .refl

-- ── Administrative changes ───────────────────────────────────────────────────────

/-- A change that throws leaves the store as it was. -/
theorem transact_commits {α : Type} {allowed : Kind → Prop} {s : Store}
    {result : Except StoreError (Database × List Happening × α)}
    (h : ∀ db happened a, result = .ok (db, happened, a) →
      Commits c u key allowed s { s with db, history := s.history ++ happened }) :
    Commits c u key allowed s (s.transact result).1 := by
  cases result with
  | error e => exact .refl
  | ok result => exact h _ _ _ rfl

/-- A transaction beside the chains commits ordinarily. -/
theorem transact_beside {α : Type} {s : Store} {result : Except StoreError (Database × List Happening × α)}
    (h : ∀ db happened a, result = .ok (db, happened, a) → happened = [] ∧ Beside s.db db) :
    Commits c u key Kind.IsOrdinary s (s.transact result).1 := by
  refine transact_commits fun db happened a hresult => ?_
  obtain ⟨rfl, hbeside⟩ := h db happened a hresult
  rw [List.append_nil]
  exact Commits.single (.inr (.inr rfl)) (.beside hbeside)

/-- Work on a system commits as what it is. -/
theorem administer_commits {α : Type} {allowed : Kind → Prop} {s : Store} {systemId : SystemId}
    {work : SystemRow → Except StoreError (Database × List Happening × α)}
    (h : ∀ record, s.db.systemRow systemId = some record → ∀ db happened a,
      work record = .ok (db, happened, a) →
        Commits c u key allowed s { s with db, history := s.history ++ happened }) :
    Commits c u key allowed s (administer s systemId work).1 := by
  refine transact_commits fun db happened a hresult => ?_
  cases hrecord : s.db.systemRow systemId with
  | none => simp [hrecord] at hresult
  | some record =>
      rw [hrecord] at hresult
      exact h record hrecord db happened a hresult

/-- Work beside the chains commits ordinarily. -/
theorem administer_beside {α : Type} {s : Store} {systemId : SystemId}
    {work : SystemRow → Except StoreError (Database × List Happening × α)}
    (h : ∀ record db happened a, work record = .ok (db, happened, a) → happened = [] ∧ Beside s.db db) :
    Commits c u key Kind.IsOrdinary s (administer s systemId work).1 := by
  refine administer_commits fun record _ db happened a hresult => ?_
  obtain ⟨rfl, hbeside⟩ := h record db happened a hresult
  rw [List.append_nil]
  exact Commits.single (.inr (.inr rfl)) (.beside hbeside)

/-- The systems keep their names, whatever else is changed of them. -/
theorem beside_updateSystem (db : Database) (systemId : SystemId) {change : SystemRow → SystemRow}
    (hchange : ∀ r, (change r).systemId = r.systemId) : Beside db (updateSystem db systemId change) := by
  refine ⟨rfl, rfl, rfl, rfl, rfl, ?_, [], by simp [updateSystem], by simp⟩
  rw [updateSystem, List.map_map]
  refine List.map_congr_left fun r _ => ?_
  rw [Function.comp_apply]
  split
  · exact hchange r
  · rfl

end Sigillo
