import Sigillo.ChainHealth
import Sigillo.SignerWorld

/-!
# Taking over the chains of an old installation

`init-from-db` reads every chain from the server's database, checks it, and writes three things one
after another: the signer's state of each chain and of each system deleted earlier, an entry for
each in the administrative log, and a marker. A crash may come between any two of these writes.

* **`chainStateOf_ok_iff`** — the chains it takes;
* **`initFromDatabase_of_unsound`** — one that does not hold together leaves everything untouched. -/

namespace Sigillo

open DoubleArith Utf16Text JsonText HexBase64 Fallible

namespace InitFromDatabase

-- ── What is read ─────────────────────────────────────────────────────────────────

/-- A row of `receipts`, whatever it holds. -/
structure StoredRow where
  seq : ℤ
  hash : JsString
  canonical : JsString
  sig : JsString

/-- An entry of the signer's log. -/
structure LogEntry where
  ts : JsString
  action : JsString
  systemId : Option SystemId
  actor : JsString
  detail : List (JsString × Json)
  genesisHash : Option (Hex 64)

/-- The server's database, as far as it is read: its systems in order, and the rows of each. -/
structure ServerDatabase where
  /-- Base64 texts by their `key_id`. -/
  signingKeys : List (JsString × JsString)
  systemIds : List SystemId
  distinct : systemIds.Nodup
  receipts : SystemId → List StoredRow
  /-- None where an older server made the file. -/
  adminLog : Option (List LogEntry)

/-- What says that it was done. -/
structure Marker where
  ts : JsString
  database : JsString
  systems : ℕ
  retired : ℕ
deriving DecidableEq

/-- **Three stores**: the signer's state, its marker, and the log in the server's database. -/
structure InitWorld where
  systems : Systems
  marker : Option Marker
  database : Option ServerDatabase

/-- What a chain fails with. -/
inductive ChainError where
  | position (expected : ℕ) (found : ℤ)
  | notAReceipt (seq : ℤ)
  | storedHash (seq : ℤ)
  | anotherPosition (seq : ℤ)
  | link (seq : ℤ)
  | unknownKey (seq : ℤ) (keyId : Hex 16)
  | notAKey (seq : ℤ)
  | signature (seq : ℤ)
  | frontier (seq : ℤ)
  | noReceipts

/-- What the command fails with. -/
inductive InitError where
  | noDatabase
  | noAdminLog
  | chain (systemId : SystemId) (error : ChainError)
  /-- The signer already holds a different state. -/
  | differentState (systemId : SystemId)
  /-- Initialised before, and these no longer agree. -/
  | disagrees (marker : JsString) (differ : List SystemId)

variable (c : Crypto)

-- ── One chain ────────────────────────────────────────────────────────────────────

/-- One row of a chain. -/
def checkRow (db : ServerDatabase) (systemId : SystemId) (index : ℕ) (previous : Hex 64) (row : StoredRow) :
    Except ChainError Receipt :=
  if row.seq ≠ index then .error (.position index row.seq)
  else
    match LedgerRow.receipt ⟨index, row.canonical, row.sig⟩ with
    | none => .error (.notAReceipt row.seq)
    | some receipt =>
        let hash := receiptHashHex c receipt.toUnsignedReceipt
        if hash.1 ≠ row.hash ∨ c.sha256Hex (utf8Encode row.canonical) ≠ hash then .error (.storedHash row.seq)
        else if receipt.systemId ≠ systemId ∨ (receipt.seq.1 : ℤ) ≠ row.seq then
          .error (.anotherPosition row.seq)
        else if receipt.prevHash ≠ previous then .error (.link row.seq)
        else
          match db.signingKeys.lookup receipt.keyId.1 with
          | none => .error (.unknownKey row.seq receipt.keyId)
          | some publicKey =>
              let raw := bufferFromBase64 publicKey
              if raw.length ≠ 32 then .error (.notAKey row.seq)
              else if verifyReceiptSignature c receipt raw = false then .error (.signature row.seq)
              else .ok receipt

/-- The loop of `chainStateOf`. -/
def chainFrom (db : ServerDatabase) (systemId : SystemId) (index : ℕ) (previous : Hex 64)
    (frontier : MerkleFrontier) (head : Option Receipt) : List StoredRow → Except ChainError ChainState
  | [] =>
      match head with
      | none => .error .noReceipts
      | some head => .ok ⟨systemId, head.seq, previous, head, frontier⟩
  | row :: rest => do
      let receipt ← checkRow c db systemId index previous row
      match frontierAppend c frontier (receiptHash c receipt.toUnsignedReceipt) with
      | none => .error (.frontier row.seq)
      | some frontier =>
          chainFrom db systemId (index + 1) (receiptHashHex c receipt.toUnsignedReceipt) frontier
            (some receipt) rest

/-- The state of a chain, if all its rows pass. -/
def chainStateOf (db : ServerDatabase) (systemId : SystemId) : Except InitError ChainState :=
  (chainFrom c db systemId 0 GENESIS_PREV_HASH MerkleTree.emptyFrontier none (db.receipts systemId)).mapError
    (.chain systemId)

-- ── What there is to write ───────────────────────────────────────────────────────

/-- The signer knows exactly this head. -/
def agrees (known : SystemState) (chain : ChainState) : Bool :=
  match known with
  | .chain known => known.seq == chain.seq && known.hash == chain.hash
  | .retired _ => false

/-- The chains to take over, and the systems whose chain the signer knows. -/
def planChains (db : ServerDatabase) (state : Systems) :
    List SystemId → Except InitError (List ChainState × List SystemId)
  | [] => .ok ([], [])
  | systemId :: rest => do
      let chain ← chainStateOf c db systemId
      match state systemId with
      | none => (planChains db state rest).map fun plan => (chain :: plan.1, plan.2)
      | some known =>
          if agrees known chain then
            (planChains db state rest).map fun plan => (plan.1, systemId :: plan.2)
          else .error (.differentState systemId)

/-- The deletions the administrative log tells of, in order. -/
def deletions (entries : List LogEntry) : List RetiredSystem :=
  entries.filterMap fun entry =>
    if entry.action = js "system.delete" then
      match entry.systemId, entry.genesisHash with
      | some systemId, some genesisHash => some ⟨systemId, genesisHash⟩
      | _, _ => none
    else none

/-- The systems to retire, after those found so far. -/
def planRetired (db : ServerDatabase) (state : Systems) (found : List RetiredSystem) :
    List RetiredSystem → List RetiredSystem
  | [] => found
  | deletion :: rest =>
      if deletion.systemId ∈ db.systemIds ∨ (state deletion.systemId).isSome
          ∨ deletion.systemId ∈ found.map RetiredSystem.systemId then
        planRetired db state found rest
      else planRetired db state (found ++ [deletion]) rest

/-- What is to be written. -/
structure Plan where
  chains : List ChainState
  retired : List RetiredSystem
  unchanged : List SystemId

/-- `toWrite`. -/
def Plan.states (plan : Plan) : List SystemState :=
  plan.chains.map .chain ++ plan.retired.map .retired

/-- What the command is given. -/
structure InitOptions where
  databasePath : JsString
  actor : JsString
  /-- `now().toISOString()`. -/
  ts : JsString

/-- The entry of the administrative log about a state. -/
def entryOf (options : InitOptions) (state : SystemState) : LogEntry where
  ts := options.ts
  action := js "signer.init"
  systemId := some state.systemId
  actor := options.actor
  detail :=
    match state with
    | .chain chain => [(js "seq", .num (.ofNat chain.seq.1)), (js "hash", .str chain.hash.1),
        (js "tree_size", .num (.ofNat chain.frontier.size))]
    | .retired _ => [(js "retired", .bool true)]
  genesisHash := none

/-- One write. -/
inductive Write where
  | put (state : SystemState)
  /-- One transaction. -/
  | log (entries : List LogEntry)
  | marker (marker : Marker)

/-- What is written, in order. -/
def writesOf (options : InitOptions) (plan : Plan) : List Write :=
  plan.states.map .put ++ [.log (plan.states.map (entryOf options)),
    .marker ⟨options.ts, options.databasePath, plan.chains.length, plan.retired.length⟩]

/-- Entries are logged. -/
def ServerDatabase.logged (db : ServerDatabase) (entries : List LogEntry) : ServerDatabase :=
  { db with adminLog := db.adminLog.map (· ++ entries) }

/-- One write is done. -/
def InitWorld.apply (w : InitWorld) : Write → InitWorld
  | .put state => { w with systems := w.systems.set state }
  | .log entries => { w with database := w.database.map (·.logged entries) }
  | .marker marker => { w with marker := some marker }

-- ── The command ──────────────────────────────────────────────────────────────────

/-- The systems whose chain the signer does not know. -/
def differing (db : ServerDatabase) (state : Systems) : List SystemId → Except InitError (List SystemId)
  | [] => .ok []
  | systemId :: rest => do
      let chain ← chainStateOf c db systemId
      let differ ← differing db state rest
      return if (state systemId).any (agrees · chain) then differ else systemId :: differ

/-- Everything that is checked before anything is written. -/
def prepare (w : InitWorld) : Except InitError Plan :=
  match w.database with
  | none => .error .noDatabase
  | some db =>
      match db.adminLog with
      | none => .error .noAdminLog
      | some entries => do
          match w.marker with
          | some marker =>
              let differ ← differing c db w.systems db.systemIds
              if differ = [] then .ok ⟨[], [], db.systemIds⟩ else .error (.disagrees marker.ts differ)
          | none =>
              let (chains, unchanged) ← planChains c db w.systems db.systemIds
              .ok ⟨chains, planRetired db w.systems [] (deletions entries), unchanged⟩

/-- What a run has to write: nothing, once the marker is there. -/
def writes (options : InitOptions) (w : InitWorld) (plan : Plan) : List Write :=
  if w.marker.isSome then [] else writesOf options plan

/-- **`initFromDatabase`**, and what it reports. -/
def initFromDatabase (options : InitOptions) (w : InitWorld) : InitWorld × Except InitError Plan :=
  match prepare c w with
  | .error error => (w, .error error)
  | .ok plan => ((writes options w plan).foldl InitWorld.apply w, .ok plan)

/-- A run that is cut short after `done` writes. -/
def interrupted (options : InitOptions) (w : InitWorld) (done : ℕ) : InitWorld :=
  match prepare c w with
  | .error _ => w
  | .ok plan => ((writes options w plan).take done).foldl InitWorld.apply w

-- ── The chains it takes ──────────────────────────────────────────────────────────

/-- A row that stores a receipt: its columns are the receipt's own, and its hash is that of both. -/
structure Stores (row : StoredRow) (receipt : Receipt) : Prop where
  parses : LedgerRow.receipt ⟨receipt.seq.1, row.canonical, row.sig⟩ = some receipt
  seq : row.seq = receipt.seq.1
  hash : row.hash = (receiptHashHex c receipt.toUnsignedReceipt).1
  canonical : c.sha256Hex (utf8Encode row.canonical) = receiptHashHex c receipt.toUnsignedReceipt

/-- A signature that verifies under the key the database names for it. -/
def VerifiesUnder (db : ServerDatabase) (receipt : Receipt) : Prop :=
  ∃ publicKey, db.signingKeys.lookup receipt.keyId.1 = some publicKey
    ∧ (bufferFromBase64 publicKey).length = 32
    ∧ verifyReceiptSignature c receipt (bufferFromBase64 publicKey) = true

/-- Rows that go on a chain: positions, links, hashes and signatures. -/
inductive SoundFrom (db : ServerDatabase) (systemId : SystemId) :
    ℕ → Hex 64 → List StoredRow → List Receipt → Prop where
  | nil (index : ℕ) (previous : Hex 64) : SoundFrom db systemId index previous [] []
  | cons {index : ℕ} {previous : Hex 64} {row : StoredRow} {receipt : Receipt} {rows : List StoredRow}
      {receipts : List Receipt} (stores : Stores c row receipt) (seq : receipt.seq.1 = index)
      (system : receipt.systemId = systemId) (link : receipt.prevHash = previous)
      (verifies : VerifiesUnder c db receipt)
      (rest : SoundFrom db systemId (index + 1) (receiptHashHex c receipt.toUnsignedReceipt) rows receipts) :
      SoundFrom db systemId index previous (row :: rows) (receipt :: receipts)

/-- **A sound chain**: its rows store receipts from a genesis on, each after the one before. -/
def SoundChain (db : ServerDatabase) (systemId : SystemId) : Prop :=
  ∃ receipts, receipts ≠ [] ∧ SoundFrom c db systemId 0 GENESIS_PREV_HASH (db.receipts systemId) receipts

variable {c} {db : ServerDatabase} {systemId : SystemId}

theorem checkRow_ok_iff {index : ℕ} {previous : Hex 64} {row : StoredRow} {receipt : Receipt} :
    checkRow c db systemId index previous row = .ok receipt ↔
      Stores c row receipt ∧ receipt.seq.1 = index ∧ receipt.systemId = systemId
        ∧ receipt.prevHash = previous ∧ VerifiesUnder c db receipt := by
  constructor
  · intro h
    rw [checkRow] at h
    split_ifs at h with hseq
    cases hparse : LedgerRow.receipt ⟨index, row.canonical, row.sig⟩ with
    | none =>
        rw [hparse] at h
        cases h
    | some read =>
        rw [hparse] at h
        simp only at h
        split_ifs at h with hhash hposition hlink
        cases hkey : db.signingKeys.lookup read.keyId.1 with
        | none =>
            rw [hkey] at h
            cases h
        | some publicKey =>
            rw [hkey] at h
            simp only at h
            split_ifs at h with hlength hverify
            obtain rfl := Except.ok.inj h
            obtain ⟨hstored, hcanonical⟩ := not_or.mp hhash
            obtain ⟨hsystem, hat⟩ := not_or.mp hposition
            rw [not_not] at hseq hstored hcanonical hsystem hat hlink hlength
            refine ⟨⟨hparse, hat.symm, hstored.symm, hcanonical⟩, ?_, hsystem, hlink, publicKey, hkey, hlength, ?_⟩
            · exact_mod_cast hat.trans hseq
            · rwa [Bool.not_eq_false] at hverify
  · rintro ⟨hstores, hindex, hsystem, hlink, publicKey, hkey, hlength, hverify⟩
    have hparse : LedgerRow.receipt ⟨index, row.canonical, row.sig⟩ = some receipt := hstores.parses
    rw [checkRow, if_neg (not_not.mpr (hstores.seq.trans (by rw [hindex]))), hparse]
    show (if _ then _ else _) = _
    rw [if_neg (not_or.mpr ⟨not_not.mpr hstores.hash.symm, not_not.mpr hstores.canonical⟩),
      if_neg (not_or.mpr ⟨not_not.mpr hsystem, not_not.mpr hstores.seq.symm⟩),
      if_neg (not_not.mpr hlink), hkey]
    show (if _ then _ else _) = _
    rw [if_neg (not_not.mpr hlength), if_neg (by rw [hverify]; exact Bool.noConfusion)]

theorem receiptHashes_concat (before : List Receipt) (receipt : Receipt) :
    receiptHashes c (before ++ [receipt]) = receiptHashes c before ++ [receiptHash c receipt.toUnsignedReceipt] := by
  rw [receiptHashes, List.map_append]
  rfl

/-- **The loop takes exactly the rows that go on the chain**, for a frontier of what came before. -/
theorem chainFrom_ok_iff {rows : List StoredRow} {index : ℕ} {previous : Hex 64} {frontier : MerkleFrontier}
    {before : List Receipt} (hfrontier : MerkleTree.IsFrontier c.tree frontier (receiptHashes c before)) :
    (∃ state, chainFrom c db systemId index previous frontier before.getLast? rows = .ok state) ↔
      ∃ receipts, before ++ receipts ≠ [] ∧ SoundFrom c db systemId index previous rows receipts := by
  induction rows generalizing index previous frontier before with
  | nil =>
      cases hlast : before.getLast? with
      | none =>
          obtain rfl := List.getLast?_eq_none_iff.mp hlast
          constructor
          · rintro ⟨state, h⟩
            rw [chainFrom.eq_def] at h
            cases h
          · rintro ⟨receipts, hne, hsound⟩
            cases hsound
            exact absurd rfl hne
      | some head =>
          refine ⟨fun _ => ⟨[], ?_, .nil index previous⟩, fun _ => ⟨_, by rw [chainFrom.eq_def]⟩⟩
          rw [List.append_nil]
          rintro rfl
          cases hlast
  | cons row rest ih =>
      -- a row that passes is appended, and the loop goes on after it
      have hstep : ∀ receipt, checkRow c db systemId index previous row = .ok receipt →
          ∃ next, MerkleTree.IsFrontier c.tree next (receiptHashes c (before ++ [receipt]))
            ∧ chainFrom c db systemId index previous frontier before.getLast? (row :: rest)
              = chainFrom c db systemId (index + 1) (receiptHashHex c receipt.toUnsignedReceipt) next
                (before ++ [receipt]).getLast? rest := by
        intro receipt hcheck
        obtain ⟨next, happend, hnext⟩ :=
          MerkleTree.frontierAppend_spec c.tree hfrontier (receiptHash c receipt.toUnsignedReceipt)
        refine ⟨next, by rwa [receiptHashes_concat], ?_⟩
        rw [chainFrom, hcheck, ok_bind, frontierAppend, happend, List.getLast?_concat]
      constructor
      · rintro ⟨state, h⟩
        cases hcheck : checkRow c db systemId index previous row with
        | error e =>
            rw [chainFrom, hcheck] at h
            cases h
        | ok receipt =>
            obtain ⟨next, hnext, hfrom⟩ := hstep receipt hcheck
            obtain ⟨hstores, hseq, hsystem, hlink, hverifies⟩ := checkRow_ok_iff.mp hcheck
            obtain ⟨receipts, -, hsound⟩ := (ih hnext).mp ⟨state, hfrom ▸ h⟩
            exact ⟨receipt :: receipts, by simp, .cons hstores hseq hsystem hlink hverifies hsound⟩
      · rintro ⟨receipts, -, hsound⟩
        cases hsound with
        | @cons _ _ _ receipt _ receipts hstores hseq hsystem hlink hverifies hrest =>
            obtain ⟨next, hnext, hfrom⟩ :=
              hstep receipt (checkRow_ok_iff.mpr ⟨hstores, hseq, hsystem, hlink, hverifies⟩)
            rw [hfrom]
            exact (ih hnext).mpr ⟨receipts, by simp, hrest⟩

/-- **`chainStateOf` takes exactly the sound chains.** -/
theorem chainStateOf_ok_iff :
    (∃ state, chainStateOf c db systemId = .ok state) ↔ SoundChain c db systemId := by
  have hloop := @chainFrom_ok_iff c db systemId (db.receipts systemId) 0 GENESIS_PREV_HASH
    MerkleTree.emptyFrontier [] (MerkleTree.isFrontier_empty c.tree)
  refine Iff.trans ?_ hloop
  rw [chainStateOf]
  constructor
  · rintro ⟨state, h⟩
    cases hfrom : chainFrom c db systemId 0 GENESIS_PREV_HASH MerkleTree.emptyFrontier none
        (db.receipts systemId) with
    | error e =>
        rw [hfrom] at h
        cases h
    | ok state => exact ⟨state, hfrom⟩
  · rintro ⟨state, h⟩
    have h : chainFrom c db systemId 0 GENESIS_PREV_HASH MerkleTree.emptyFrontier none
        (db.receipts systemId) = .ok state := h
    exact ⟨state, by rw [h]; rfl⟩

-- ── A chain it does not take ─────────────────────────────────────────────────────

theorem planChains_sound {state : Systems} {ids : List SystemId} {found : List ChainState × List SystemId}
    (h : planChains c db state ids = .ok found) : ∀ systemId ∈ ids, SoundChain c db systemId := by
  induction ids generalizing found with
  | nil => exact fun _ hid => nomatch hid
  | cons id rest ih =>
      rw [planChains] at h
      obtain ⟨chain, hchain, h⟩ := bind_eq_ok.mp h
      have hrest : ∃ found, planChains c db state rest = .ok found := by
        cases hstate : state id with
        | none =>
            rw [hstate] at h
            obtain ⟨found, hfound, -⟩ := map_eq_ok.mp h
            exact ⟨found, hfound⟩
        | some known =>
            rw [hstate] at h
            by_cases hagrees : agrees known chain = true
            · obtain ⟨found, hfound, -⟩ := map_eq_ok.mp ((if_pos hagrees).symm.trans h)
              exact ⟨found, hfound⟩
            · exact nomatch (if_neg hagrees).symm.trans h
      intro systemId hid
      rcases List.mem_cons.mp hid with rfl | hid
      · exact chainStateOf_ok_iff.mp ⟨chain, hchain⟩
      · exact ih hrest.choose_spec systemId hid

theorem differing_sound {state : Systems} {ids found : List SystemId}
    (h : differing c db state ids = .ok found) : ∀ systemId ∈ ids, SoundChain c db systemId := by
  induction ids generalizing found with
  | nil => exact fun _ hid => nomatch hid
  | cons id rest ih =>
      rw [differing] at h
      obtain ⟨chain, hchain, h⟩ := bind_eq_ok.mp h
      obtain ⟨differ, hdiffer, -⟩ := bind_eq_ok.mp h
      intro systemId hid
      rcases List.mem_cons.mp hid with rfl | hid
      · exact chainStateOf_ok_iff.mp ⟨chain, hchain⟩
      · exact ih hdiffer systemId hid

/-- Nothing is prepared unless every chain is sound. -/
theorem prepare_sound {w : InitWorld} {plan : Plan} (h : prepare c w = .ok plan)
    (hdb : w.database = some db) : ∀ systemId ∈ db.systemIds, SoundChain c db systemId := by
  rw [prepare, hdb] at h
  cases hlog : db.adminLog with
  | none =>
      simp only [hlog] at h
      cases h
  | some entries =>
      simp only [hlog] at h
      cases hmarker : w.marker with
      | some marker =>
          simp only [hmarker] at h
          obtain ⟨differ, hdiffer, -⟩ := bind_eq_ok.mp h
          exact differing_sound hdiffer
      | none =>
          simp only [hmarker] at h
          obtain ⟨found, hfound, -⟩ := bind_eq_ok.mp h
          exact planChains_sound hfound

/-- **A chain that does not hold together leaves the three stores as they are.** -/
theorem initFromDatabase_of_unsound {w : InitWorld} (hdb : w.database = some db)
    (hid : systemId ∈ db.systemIds) (hunsound : ¬ SoundChain c db systemId) (options : InitOptions) :
    (initFromDatabase c options w).1 = w := by
  rw [initFromDatabase]
  cases hplan : prepare c w with
  | error error => rfl
  | ok plan => exact absurd (prepare_sound hplan hdb systemId hid) hunsound

end InitFromDatabase

end Sigillo
