import Sigillo.ReceiptStore

/-!
# What a committed write changes

Said once for each transaction that writes a receipt: what it checked, and every row it added
(**`insertReceipt_new`**, **`reconcileNow_recovered`**). What is not named there is as it was. -/

namespace Sigillo

open DoubleArith Utf16Text JsonText JsonSchema HexBase64 IsoTime Fallible

-- ── Rows added ───────────────────────────────────────────────────────────────────

namespace Database

variable {db db' : Database}

theorem insertSystem_eq_ok {row : SystemRow} : db.insertSystem row = .ok db' ↔
    db.hasOwner row.organizationId = true ∧ (∀ r ∈ db.systems, r.systemId ≠ row.systemId) ∧
      db' = { db with systems := db.systems ++ [row] } := by
  rw [insertSystem]
  by_cases howner : db.hasOwner row.organizationId = true
  · rw [if_pos howner, map_eq_ok]
    constructor
    · rintro ⟨systems, h, rfl⟩
      obtain ⟨hno, rfl⟩ := insertRowInto_eq_ok.mp h
      exact ⟨howner, fun r hr => beq_eq_false_iff_ne.mp (hno r hr), rfl⟩
    · rintro ⟨-, hno, rfl⟩
      exact ⟨_, insertRowInto_eq_ok.mpr ⟨fun r hr => beq_eq_false_iff_ne.mpr (hno r hr), rfl⟩, rfl⟩
  · rw [if_neg howner]
    exact iff_of_false (by rintro ⟨⟩) fun h => howner h.1

theorem insertSubject_eq_ok {row : SubjectRow} : db.insertSubject row = .ok db' ↔
    (∀ r ∈ db.subjects, r.token ≠ row.token ∧ r.identifier ≠ row.identifier) ∧
      db' = { db with subjects := db.subjects ++ [row] } := by
  rw [insertSubject, map_eq_ok]
  have hclash : ∀ r : SubjectRow, (r.token == row.token || r.identifier == row.identifier) = false ↔
      r.token ≠ row.token ∧ r.identifier ≠ row.identifier := by
    intro r
    rw [Bool.or_eq_false_iff, beq_eq_false_iff_ne, beq_eq_false_iff_ne]
  constructor
  · rintro ⟨subjects, h, rfl⟩
    obtain ⟨hno, rfl⟩ := insertRowInto_eq_ok.mp h
    exact ⟨fun r hr => (hclash r).mp (hno r hr), rfl⟩
  · rintro ⟨hno, rfl⟩
    exact ⟨_, insertRowInto_eq_ok.mpr ⟨fun r hr => (hclash r).mpr (hno r hr), rfl⟩, rfl⟩

/-- Two rows that may not both be there. -/
def Clash (r row : ReceiptRow) : Prop :=
  (r.systemId = row.systemId ∧ r.seq = row.seq) ∨ r.hash = row.hash ∨ sameSpan r row = true

theorem insertReceiptRow_eq_ok {row : ReceiptRow} : db.insertReceiptRow row = .ok db' ↔
    (∀ r ∈ db.receipts, ¬ Clash r row) ∧ db' = { db with receipts := db.receipts ++ [row] } := by
  rw [insertReceiptRow, map_eq_ok]
  have hclash : ∀ r : ReceiptRow, ((r.systemId == row.systemId && r.seq == row.seq)
      || r.hash == row.hash || sameSpan r row) = false ↔ ¬ Clash r row := by
    intro r
    rw [← Bool.not_eq_true, Clash, Bool.or_eq_true, Bool.or_eq_true, Bool.and_eq_true, beq_iff_eq,
      beq_iff_eq, beq_iff_eq, or_assoc]
  constructor
  · rintro ⟨receipts, h, rfl⟩
    obtain ⟨hno, rfl⟩ := insertRowInto_eq_ok.mp h
    exact ⟨fun r hr => (hclash r).mp (hno r hr), rfl⟩
  · rintro ⟨hno, rfl⟩
    exact ⟨_, insertRowInto_eq_ok.mpr ⟨fun r hr => (hclash r).mpr (hno r hr), rfl⟩, rfl⟩

/-- Openings that were added are new, of receipts that are there. -/
theorem insertOpenings_ok {rows : List OpeningRow} (h : rows.foldlM insertOpening db = .ok db') :
    db' = { db with openings := db.openings ++ rows } ∧
      ∀ row ∈ rows, ∀ o ∈ db.openings, ¬ (o.systemId = row.systemId ∧ o.seq = row.seq ∧ o.role = row.role) := by
  induction rows generalizing db with
  | nil =>
      obtain rfl := Except.ok.inj h
      exact ⟨by rw [List.append_nil], by simp⟩
  | cons row rest ih =>
      rw [List.foldlM_cons] at h
      obtain ⟨db₁, h₁, h⟩ := bind_eq_ok.mp h
      rw [insertOpening] at h₁
      by_cases hat : db.hasReceiptAt row.systemId row.seq = true
      · rw [if_pos hat, map_eq_ok] at h₁
        obtain ⟨openings, hadd, rfl⟩ := h₁
        obtain ⟨hno, rfl⟩ := insertRowInto_eq_ok.mp hadd
        obtain ⟨rfl, hrest⟩ := ih h
        refine ⟨by simp, fun r hr o ho => ?_⟩
        rcases List.mem_cons.mp hr with rfl | hr
        · rintro ⟨h1, h2, h3⟩
          have := hno o ho
          simp [h1, h2, h3] at this
        · exact hrest r hr o (by simp [ho])
      · rw [if_neg hat] at h₁
        cases h₁

theorem insertArtifacts_ok {rows : List ArtifactRow} (h : rows.foldlM insertArtifact db = .ok db') :
    db' = { db with artifacts := db.artifacts ++ rows } := by
  induction rows generalizing db with
  | nil =>
      obtain rfl := Except.ok.inj h
      rw [List.append_nil]
  | cons row rest ih =>
      rw [List.foldlM_cons] at h
      obtain ⟨db₁, h₁, h⟩ := bind_eq_ok.mp h
      rw [insertArtifact] at h₁
      by_cases hat : db.hasReceiptAt row.systemId row.seq = true
      · rw [if_pos hat] at h₁
        obtain rfl := Except.ok.inj h₁
        obtain rfl := ih h
        simp
      · rw [if_neg hat] at h₁
        cases h₁

end Database

variable {c : Crypto} {u : Unicode} {key : WriterKey}

/-- A database with a receipt and all its rows. -/
def addReceipt (c : Crypto) (db : Database) (receipt : Receipt)
    (nonces : Option (PreparedDigest × PreparedDigest)) : Database :=
  { db with
    receipts := db.receipts ++ [receiptRow c receipt]
    openings := db.openings ++ openingRows receipt nonces
    artifacts := db.artifacts ++ artifactRows receipt }

/-- **What a receipt's insertion adds**, where nothing stands in its way. -/
theorem insertRow_ok {db db' : Database} {receipt : Receipt}
    {nonces : Option (PreparedDigest × PreparedDigest)} (h : insertRow c db receipt nonces = .ok db') :
    (∀ r ∈ db.receipts, ¬ Database.Clash r (receiptRow c receipt)) ∧
      db' = addReceipt c db receipt nonces := by
  obtain ⟨db₁, h₁, h⟩ := bind_eq_ok.mp h
  obtain ⟨db₂, h₂, h₃⟩ := bind_eq_ok.mp h
  obtain ⟨hno, rfl⟩ := Database.insertReceiptRow_eq_ok.mp h₁
  obtain ⟨rfl, -⟩ := Database.insertOpenings_ok h₂
  obtain rfl := Database.insertArtifacts_ok h₃
  exact ⟨hno, rfl⟩

-- ── A receipt of an event ────────────────────────────────────────────────────────

theorem mapError_eq_ok {ε ε' α : Type} {x : Except ε α} {f : ε → ε'} {a : α} :
    x.mapError f = .ok a ↔ x = .ok a := by
  cases x with
  | error e => simp [Except.mapError]
  | ok b => simp [Except.mapError]

/-- The systems of a database once a chain was opened, or carried on. -/
def systemsAfter (db : Database) (event : ChainEvent) (mode : WriteMode) : List SystemRow :=
  match mode with
  | .genesis organizationId =>
      db.systems ++ [⟨event.systemId, event.tsReceived, organizationId, none, none⟩]
  | .continuation => db.systems

/-- **What writing a new receipt means.** -/
structure Writes (c : Crypto) (u : Unicode) (key : WriterKey) (db : Database) (event : ChainEvent)
    (mode : WriteMode) (attempt : Attempt) (prepared : Prepared) (receipt : Receipt) (db' : Database) :
    Prop where
  notDuplicate : duplicateRow db event mode = none
  placed : misplaced event mode (db.tipRow event.systemId) = none
  prepared_eq : prepare c u db.subjects event attempt.random = .ok prepared
  built : buildUnsigned event (db.tipRow event.systemId) key.keyId prepared = .ok receipt.toUnsignedReceipt
  replied : attempt.reply = .ok receipt.sig.1
  verified : verifyReceiptSignature c receipt key.verificationKey = true
  newSubject : ∀ row ∈ prepared.subject, ∀ r ∈ db.subjects,
    r.token ≠ row.token ∧ r.identifier ≠ row.identifier
  newSystem : ∀ organizationId, mode = .genesis organizationId →
    db.hasOwner organizationId = true ∧ ∀ r ∈ db.systems, r.systemId ≠ event.systemId
  noClash : ∀ r ∈ db.receipts, ¬ Database.Clash r (receiptRow c receipt)
  db_eq : db' = addReceipt c { db with
    subjects := db.subjects ++ prepared.subject.toList
    systems := systemsAfter db event mode } receipt (some (prepared.input, prepared.output))

theorem insertSeen_ok {db db' : Database} {subject : Option SubjectRow}
    (h : insertSeen db subject = .ok db') :
    (∀ row ∈ subject, ∀ r ∈ db.subjects, r.token ≠ row.token ∧ r.identifier ≠ row.identifier) ∧
      db' = { db with subjects := db.subjects ++ subject.toList } := by
  cases subject with
  | none =>
      obtain rfl := Except.ok.inj h
      exact ⟨by simp, by simp⟩
  | some row =>
      obtain ⟨hno, rfl⟩ := Database.insertSubject_eq_ok.mp h
      exact ⟨by simpa using hno, rfl⟩

theorem checkedReceipt_ok {unsigned : UnsignedReceipt} {sig : JsString} {receipt : Receipt}
    (h : checkedReceipt c key unsigned sig = .ok receipt) :
    receipt.toUnsignedReceipt = unsigned ∧ receipt.sig.1 = sig ∧
      verifyReceiptSignature c receipt key.verificationKey = true := by
  rw [checkedReceipt] at h
  by_cases hsig : IsSignatureText sig
  · rw [dif_pos hsig] at h
    by_cases hverify : verifyReceiptSignature c (unsigned.signed ⟨sig, hsig⟩) key.verificationKey = true
    · simp only [if_pos hverify] at h
      obtain rfl := Except.ok.inj h
      exact ⟨rfl, rfl, hverify⟩
    · simp only [if_neg hverify] at h
      cases h
  · rw [dif_neg hsig] at h
    cases h

/-- What is decided before the signature. -/
theorem draftReceipt_unsigned {db db' : Database} {event : ChainEvent} {mode : WriteMode}
    {random : Randomness} {prepared : Prepared} {unsigned : UnsignedReceipt}
    (h : draftReceipt c u key db event mode random = .ok (db', .unsigned prepared unsigned)) :
    duplicateRow db event mode = none ∧ misplaced event mode (db.tipRow event.systemId) = none ∧
      prepare c u db.subjects event random = .ok prepared ∧ insertSeen db prepared.subject = .ok db' ∧
      buildUnsigned event (db.tipRow event.systemId) key.keyId prepared = .ok unsigned := by
  rw [draftReceipt] at h
  cases hdup : duplicateRow db event mode with
  | some row =>
      rw [hdup] at h
      cases hback : rowToReceipt row with
      | none => simp [hback] at h
      | some receipt => simp [hback] at h
  | none =>
      rw [hdup] at h
      cases hplaced : misplaced event mode (db.tipRow event.systemId) with
      | some e => simp [hplaced] at h
      | none =>
          rw [hplaced] at h
          obtain ⟨p, hp, h⟩ := bind_eq_ok.mp h
          obtain ⟨db₁, hseen, h⟩ := bind_eq_ok.mp h
          obtain ⟨un, hun, h⟩ := bind_eq_ok.mp h
          obtain ⟨rfl, hdraft⟩ := Prod.mk.inj (Except.ok.inj h)
          obtain ⟨rfl, rfl⟩ := Draft.unsigned.inj hdraft
          exact ⟨rfl, rfl, mapError_eq_ok.mp hp, hseen, mapError_eq_ok.mp hun⟩

/-- A duplicate changes nothing. -/
theorem draftReceipt_duplicate {db db' : Database} {event : ChainEvent} {mode : WriteMode}
    {random : Randomness} {receipt : Receipt}
    (h : draftReceipt c u key db event mode random = .ok (db', .duplicate receipt)) :
    db' = db ∧ ∃ row, duplicateRow db event mode = some row ∧ rowToReceipt row = some receipt := by
  rw [draftReceipt] at h
  cases hdup : duplicateRow db event mode with
  | some row =>
      rw [hdup] at h
      cases hback : rowToReceipt row with
      | none => simp [hback] at h
      | some r =>
          simp only [hback] at h
          obtain ⟨rfl, hdraft⟩ := Prod.mk.inj (Except.ok.inj h)
          obtain rfl := Draft.duplicate.inj hdraft
          exact ⟨rfl, row, rfl, hback⟩
  | none =>
      rw [hdup] at h
      cases hplaced : misplaced event mode (db.tipRow event.systemId) with
      | some e => simp [hplaced] at h
      | none =>
          rw [hplaced] at h
          obtain ⟨p, hp, h⟩ := bind_eq_ok.mp h
          obtain ⟨db₁, hseen, h⟩ := bind_eq_ok.mp h
          obtain ⟨un, hun, h⟩ := bind_eq_ok.mp h
          cases (Prod.mk.inj (Except.ok.inj h)).2

theorem registerGenesis_ok {db db' : Database} {event : ChainEvent} {mode : WriteMode}
    (h : registerGenesis db event mode = .ok db') :
    (∀ organizationId, mode = .genesis organizationId →
      db.hasOwner organizationId = true ∧ ∀ r ∈ db.systems, r.systemId ≠ event.systemId) ∧
      db' = { db with systems := systemsAfter db event mode } := by
  cases mode with
  | genesis organizationId =>
      obtain ⟨howner, hno, rfl⟩ := Database.insertSystem_eq_ok.mp h
      refine ⟨?_, rfl⟩
      rintro o ho
      obtain rfl := WriteMode.genesis.inj ho
      exact ⟨howner, hno⟩
  | continuation =>
      obtain rfl := Except.ok.inj h
      exact ⟨by rintro o ⟨⟩, rfl⟩

/-- **A new receipt is written** only so. -/
theorem insertReceipt_new {db db' : Database} {event : ChainEvent} {mode : WriteMode} {attempt : Attempt}
    {prepared : Prepared} {receipt : Receipt}
    (h : insertReceipt c u key db event mode attempt = .ok (db', .new prepared receipt)) :
    Writes c u key db event mode attempt prepared receipt db' := by
  rw [insertReceipt] at h
  obtain ⟨⟨db₁, draft⟩, hdraft, h⟩ := bind_eq_ok.mp h
  cases draft with
  | duplicate r => cases (Prod.mk.inj (Except.ok.inj h)).2
  | unsigned p un =>
      obtain ⟨sig, hreply, h⟩ := bind_eq_ok.mp h
      obtain ⟨r, hchecked, h⟩ := bind_eq_ok.mp h
      obtain ⟨db₂, hregister, h⟩ := bind_eq_ok.mp h
      obtain ⟨db₃, hrow, h⟩ := bind_eq_ok.mp h
      obtain ⟨rfl, hnew⟩ := Prod.mk.inj (Except.ok.inj h)
      obtain ⟨rfl, rfl⟩ := Written.new.inj hnew
      obtain ⟨hdup, hplaced, hprepared, hseen, hbuilt⟩ := draftReceipt_unsigned hdraft
      obtain ⟨rfl, rfl, hverify⟩ := checkedReceipt_ok hchecked
      obtain ⟨hsubject, rfl⟩ := insertSeen_ok hseen
      obtain ⟨hsystem, rfl⟩ := registerGenesis_ok hregister
      obtain ⟨hclash, rfl⟩ := insertRow_ok hrow
      refine ⟨hdup, hplaced, hprepared, hbuilt, hreply, hverify, hsubject, hsystem, hclash, ?_⟩
      cases mode with
      | genesis organizationId => rfl
      | continuation => rfl

/-- A duplicate is the receipt of a row that is there. -/
theorem insertReceipt_duplicate {db db' : Database} {event : ChainEvent} {mode : WriteMode}
    {attempt : Attempt} {receipt : Receipt}
    (h : insertReceipt c u key db event mode attempt = .ok (db', .duplicate receipt)) :
    db' = db ∧ ∃ row, duplicateRow db event mode = some row ∧ rowToReceipt row = some receipt := by
  rw [insertReceipt] at h
  obtain ⟨⟨db₁, draft⟩, hdraft, h⟩ := bind_eq_ok.mp h
  cases draft with
  | duplicate r =>
      obtain ⟨rfl, hwritten⟩ := Prod.mk.inj (Except.ok.inj h)
      obtain rfl := Written.duplicate.inj hwritten
      exact draftReceipt_duplicate hdraft
  | unsigned p un =>
      obtain ⟨sig, hreply, h⟩ := bind_eq_ok.mp h
      obtain ⟨r, hchecked, h⟩ := bind_eq_ok.mp h
      obtain ⟨db₂, hregister, h⟩ := bind_eq_ok.mp h
      obtain ⟨db₃, hrow, h⟩ := bind_eq_ok.mp h
      cases (Prod.mk.inj (Except.ok.inj h)).2

-- ── Receipts taken back ──────────────────────────────────────────────────────────

/-- The systems of a database once receipts were taken back. -/
def systemsRestored (db : Database) (systemId : SystemId) (receipt : Receipt) : List SystemRow :=
  if receipt.seq.1 = 0 then db.systems ++ [⟨systemId, receipt.tsReceived, none, none, none⟩]
  else db.systems

/-- **What one receipt taken back adds.** -/
theorem restoreReceipt_ok {db db' : Database} {systemId : SystemId} {clock : ℕ → Timestamp}
    {receipt : Receipt} (h : restoreReceipt c systemId clock db receipt = .ok db') :
    (receipt.seq.1 = 0 → ∀ r ∈ db.systems, r.systemId ≠ systemId) ∧
      (∀ r ∈ db.receipts, ¬ Database.Clash r (receiptRow c receipt)) ∧
      db' = (addReceipt c { db with systems := systemsRestored db systemId receipt } receipt none).logAdmin
        .signerRecovered (some systemId) ⟨RECONCILIATION, clock receipt.seq.1⟩ (recoveredDetail c receipt)
        none := by
  unfold restoreReceipt at h
  obtain ⟨db₁, hsystem, h⟩ := bind_eq_ok.mp h
  obtain ⟨db₂, hrow, h⟩ := bind_eq_ok.mp h
  obtain rfl := Except.ok.inj h
  rw [registerRestored] at hsystem
  rw [systemsRestored]
  by_cases hseq : receipt.seq.1 = 0
  · rw [if_pos hseq] at hsystem ⊢
    obtain ⟨-, hno, rfl⟩ := Database.insertSystem_eq_ok.mp hsystem
    obtain ⟨hclash, rfl⟩ := insertRow_ok hrow
    exact ⟨fun _ => hno, hclash, rfl⟩
  · rw [if_neg hseq] at hsystem ⊢
    obtain rfl := Except.ok.inj hsystem
    obtain ⟨hclash, rfl⟩ := insertRow_ok hrow
    exact ⟨fun h => absurd h hseq, hclash, rfl⟩

/-- A log entry of a receipt that was taken back. -/
def isRecovery (systemId : SystemId) (entry : AdminLogRow) : Prop :=
  entry.action = .signerRecovered ∧ entry.systemId = some systemId

/-- **What receipts taken back add.** -/
structure Restores (c : Crypto) (db : Database) (systemId : SystemId) (taken : List Receipt)
    (db' : Database) : Prop where
  receipts : db'.receipts = db.receipts ++ taken.map (receiptRow c)
  artifacts : db'.artifacts = db.artifacts ++ taken.flatMap artifactRows
  systems : ∃ added, db'.systems = db.systems ++ added ∧
    ∀ row ∈ added, row.systemId = systemId ∧ row.organizationId = none
  adminLog : ∃ entries, db'.adminLog = db.adminLog ++ entries ∧ ∀ entry ∈ entries, isRecovery systemId entry
  noClash : ∀ before r after, taken = before ++ r :: after →
    ∀ row ∈ db.receipts ++ before.map (receiptRow c), ¬ Database.Clash row (receiptRow c r)
  opened : ∀ r ∈ taken, r.seq.1 = 0 → ∃ row ∈ db'.systems, row.systemId = systemId
  systemsOnce : (db.systems.map (·.systemId)).Nodup → (db'.systems.map (·.systemId)).Nodup
  rest : db' = { db with
    receipts := db'.receipts, artifacts := db'.artifacts, systems := db'.systems, adminLog := db'.adminLog }

theorem restores_nil (db : Database) (systemId : SystemId) : Restores c db systemId [] db where
  receipts := by simp
  artifacts := by simp
  systems := ⟨[], by simp, by simp⟩
  adminLog := ⟨[], by simp, by simp⟩
  noClash := by
    intro before r after h
    cases before <;> cases h
  opened := by simp
  systemsOnce := id
  rest := rfl

theorem restores_cons {db db₁ db' : Database} {systemId : SystemId} {clock : ℕ → Timestamp}
    {receipt : Receipt} {rest : List Receipt} (h₁ : restoreReceipt c systemId clock db receipt = .ok db₁)
    (h : Restores c db₁ systemId rest db') : Restores c db systemId (receipt :: rest) db' := by
  obtain ⟨hnew, hclash, rfl⟩ := restoreReceipt_ok h₁
  obtain ⟨added, hsystems, hadded⟩ := h.systems
  obtain ⟨entries, hlog, hentries⟩ := h.adminLog
  constructor
  case receipts => rw [h.receipts, List.map_cons, ← List.singleton_append, ← List.append_assoc]; rfl
  case artifacts => rw [h.artifacts, List.flatMap_cons, ← List.append_assoc]; rfl
  case systems =>
    rw [hsystems]
    change ∃ added', systemsRestored db systemId receipt ++ added = _ ∧ _
    rw [systemsRestored]
    by_cases hseq : receipt.seq.1 = 0
    · rw [if_pos hseq]
      refine ⟨_ :: added, by rw [List.append_assoc]; rfl, fun row hrow => ?_⟩
      rcases List.mem_cons.mp hrow with rfl | hrow
      · exact ⟨rfl, rfl⟩
      · exact hadded row hrow
    · rw [if_neg hseq]
      exact ⟨added, rfl, hadded⟩
  case adminLog =>
    rw [hlog]
    refine ⟨_ :: entries, by rw [Database.logAdmin, List.append_assoc]; rfl, fun entry hentry => ?_⟩
    rcases List.mem_cons.mp hentry with rfl | hentry
    · exact ⟨rfl, rfl⟩
    · exact hentries entry hentry
  case noClash =>
    intro before r after htaken
    cases before with
    | nil =>
        obtain ⟨rfl, -⟩ := List.cons.inj htaken
        rw [List.map_nil, List.append_nil]
        exact hclash
    | cons first before =>
        obtain ⟨rfl, hrest⟩ := List.cons.inj htaken
        have hlater := h.noClash before r after hrest
        rw [List.map_cons, ← List.singleton_append, ← List.append_assoc]
        exact hlater
  case opened =>
    intro r hr hseq
    rcases List.mem_cons.mp hr with rfl | hr
    · rw [hsystems]
      refine ⟨⟨systemId, r.tsReceived, none, none, none⟩, List.mem_append_left _ ?_, rfl⟩
      show _ ∈ systemsRestored db systemId r
      rw [systemsRestored, if_pos hseq]
      exact List.mem_append_right _ (List.mem_singleton_self _)
    · exact h.opened r hr hseq
  case systemsOnce =>
    intro honce
    refine h.systemsOnce ?_
    show ((systemsRestored db systemId receipt).map (·.systemId)).Nodup
    rw [systemsRestored]
    by_cases hseq : receipt.seq.1 = 0
    · rw [if_pos hseq, List.map_append, List.nodup_append]
      refine ⟨honce, List.nodup_singleton _, ?_⟩
      rintro a ha b hb rfl
      obtain ⟨row, hrow, rfl⟩ := List.mem_map.mp ha
      exact hnew hseq row hrow (List.mem_singleton.mp hb)
    · rw [if_neg hseq]
      exact honce
  case rest =>
    have hopenings : (openingRows receipt none) = [] := rfl
    conv_lhs => rw [h.rest]
    simp [Database.logAdmin, addReceipt, hopenings]

/-- **Receipts are taken back** one after the other. -/
theorem restores_of_foldlM {db db' : Database} {systemId : SystemId} {clock : ℕ → Timestamp}
    {taken : List Receipt} (h : taken.foldlM (restoreReceipt c systemId clock) db = .ok db') :
    Restores c db systemId taken db' := by
  induction taken generalizing db with
  | nil =>
      obtain rfl := Except.ok.inj h
      exact restores_nil db systemId
  | cons receipt rest ih =>
      rw [List.foldlM_cons] at h
      obtain ⟨db₁, h₁, h⟩ := bind_eq_ok.mp h
      exact restores_cons h₁ (ih h)

/-- What is taken is the beginning of what is offered. -/
theorem takeMissing_isPrefix {db : Database} {systemId : SystemId} {headSeq seq : ℕ} {previous : Hex 64}
    {journal taken : List Receipt} (h : takeMissing c key db systemId headSeq seq previous journal = .ok taken) :
    taken <+: journal := by
  induction journal generalizing seq previous taken with
  | nil =>
      obtain rfl := Except.ok.inj h
      exact List.prefix_rfl
  | cons r rest ih =>
      rw [takeMissing] at h
      by_cases hcontinues : continuesChain c key db systemId seq previous r = true
      · rw [if_pos hcontinues] at h
        by_cases hlast : seq = headSeq
        · rw [if_pos hlast] at h
          obtain rfl := Except.ok.inj h
          exact List.prefix_append [r] rest
        · rw [if_neg hlast] at h
          obtain ⟨later, hlater, rfl⟩ := map_eq_ok.mp h
          exact (List.prefix_cons_inj r).mpr (ih hlater)
      · rw [if_neg hcontinues] at h
        cases h

/-- **What a chain that recovered was missing.** -/
structure Missing (c : Crypto) (key : WriterKey) (db : Database) (systemId : SystemId) (head : Receipt)
    (journal : Option (List Receipt)) (taken : List Receipt) : Prop where
  taken_eq : takeMissing c key db systemId head.seq.1 (firstMissingOf (db.tipRow systemId))
    (prevHashOf (db.tipRow systemId))
    (if head.seq.1 = firstMissingOf (db.tipRow systemId) then [head] else journal.getD []) = .ok taken
  last : ∃ last, taken.getLast? = some last ∧ last.seq = head.seq ∧
    receiptHashHex c last.toUnsignedReceipt = receiptHashHex c head.toUnsignedReceipt
  notDeleted : db.deletionOf systemId = none
  newSpans : takenSpan db systemId taken = none

theorem missingReceipts_ok {db : Database} {systemId : SystemId} {head : Receipt}
    {journal : Option (List Receipt)} {taken : List Receipt}
    (h : missingReceipts c key db systemId head journal = .ok taken) :
    Missing c key db systemId head journal taken := by
  unfold missingReceipts at h
  cases htake : takeMissing c key db systemId head.seq.1 (firstMissingOf (db.tipRow systemId))
      (prevHashOf (db.tipRow systemId))
      (if head.seq.1 = firstMissingOf (db.tipRow systemId) then [head] else journal.getD []) with
  | error seq => simp [htake] at h
  | ok found =>
      simp only [htake] at h
      by_cases hlast : (found.getLast?.any fun last => decide (last.seq = head.seq)
          && decide (receiptHashHex c last.toUnsignedReceipt = receiptHashHex c head.toUnsignedReceipt)) = true
      · rw [if_pos hlast] at h
        by_cases hdeleted : (db.deletionOf systemId).isSome = true
        · rw [if_pos hdeleted] at h
          cases h
        · rw [if_neg hdeleted] at h
          cases hspan : takenSpan db systemId found with
          | some receipt => simp [hspan] at h
          | none =>
              rw [hspan] at h
              obtain rfl := Except.ok.inj h
              refine ⟨htake, ?_, by simpa using hdeleted, hspan⟩
              cases hl : found.getLast? with
              | none => simp [hl] at hlast
              | some last =>
                  rw [hl, Option.any_some, Bool.and_eq_true] at hlast
                  exact ⟨last, rfl, of_decide_eq_true hlast.1, of_decide_eq_true hlast.2⟩
      · rw [if_neg hlast] at h
        cases h

theorem Missing.eq_ok {db : Database} {systemId : SystemId} {head : Receipt}
    {journal : Option (List Receipt)} {taken : List Receipt}
    (h : Missing c key db systemId head journal taken) :
    missingReceipts c key db systemId head journal = .ok taken := by
  obtain ⟨last, hlast, hseq, hhash⟩ := h.last
  unfold missingReceipts
  have hreaches : (taken.getLast?.any fun last => decide (last.seq = head.seq)
      && decide (receiptHashHex c last.toUnsignedReceipt = receiptHashHex c head.toUnsignedReceipt)) = true := by
    rw [hlast, Option.any_some, Bool.and_eq_true, decide_eq_true_eq, decide_eq_true_eq]
    exact ⟨hseq, hhash⟩
  simp only [h.taken_eq, if_pos hreaches, h.notDeleted, h.newSpans]
  rfl

/-- The signer's head is the last receipt of the chain, or neither holds anything. -/
def isLevel (c : Crypto) (key : WriterKey) (s : Store) (systemId : SystemId) (view : SignerView) : Bool :=
  match view.head with
  | .error _ => false
  | .ok none => (s.db.tipRow systemId).isNone
  | .ok (some head) =>
      decide (head.systemId = systemId) && (keyFor key s.db head).any (verifyReceiptSignature c head)
        && (s.db.tipRow systemId).any fun t => decide (head.seq = t.seq)
          && decide (receiptHashHex c head.toUnsignedReceipt = t.hash)

/-- **What a comparison does**: nothing, or it logs a disagreement, or it takes receipts back. -/
inductive Reconciles (c : Crypto) (key : WriterKey) (s : Store) (systemId : SystemId) (view : SignerView) :
    Store × Except StoreError ReconcileOutcome → Prop
  | failed (e : StoreError) : Reconciles c key s systemId view (s, .error e)
  | inSync (level : isLevel c key s systemId view = true) :
      Reconciles c key s systemId view (s, .ok .inSync)
  | diverged (detail : JsString) :
      Reconciles c key s systemId view (recordDivergence s systemId detail (view.clock 0), .ok (.diverged detail))
  | recovered (head : Receipt) (taken : List Receipt) (db : Database)
      (ahead : view.head = .ok (some head))
      (missing : Missing c key s.db systemId head (journalFrom view head (s.db.tipRow systemId)) taken)
      (restored : taken.foldlM (restoreReceipt c systemId view.clock) s.db = .ok db) :
      Reconciles c key s systemId view
        ({ db, divergences := s.divergences.filter fun entry => !(entry.1 == systemId),
           history := s.history ++ taken.map .tookBack },
          .ok (.recovered head.seq (receiptHashHex c head.toUnsignedReceipt) taken.length))

theorem reconcileNow_reconciles (s : Store) (systemId : SystemId) (view : SignerView) :
    Reconciles c key s systemId view (reconcileNow c key s systemId view) := by
  unfold reconcileNow
  cases hhead : view.head with
  | error e => exact .failed e
  | ok head? =>
      cases head? with
      | none =>
          by_cases htip : (s.db.tipRow systemId).isNone = true
          · simp only [if_pos htip]
            refine .inSync ?_
            rw [isLevel, hhead]
            exact htip
          · simp only [if_neg htip]
            exact .diverged _
      | some head =>
          by_cases hkey : ¬ (head.systemId = systemId ∧
              (keyFor key s.db head).any (verifyReceiptSignature c head) = true)
          · simp only [if_pos hkey]
            exact .diverged _
          · simp only [if_neg hkey]
            by_cases hsync : ((s.db.tipRow systemId).any fun t => decide (head.seq = t.seq)
                && decide (receiptHashHex c head.toUnsignedReceipt = t.hash)) = true
            · simp only [if_pos hsync]
              rw [not_not] at hkey
              refine .inSync ?_
              rw [isLevel, hhead]
              simp only [hkey.1, hkey.2, decide_true, Bool.true_and]
              exact hsync
            · simp only [if_neg hsync]
              by_cases hbehind : head.seq.1 < firstMissingOf (s.db.tipRow systemId)
              · simp only [if_pos hbehind]
                exact .diverged _
              · simp only [if_neg hbehind]
                cases hmissing : missingReceipts c key s.db systemId head
                    (journalFrom view head (s.db.tipRow systemId)) with
                | error detail => exact .diverged _
                | ok taken =>
                    cases hrestore : taken.foldlM (restoreReceipt c systemId view.clock) s.db with
                    | error e => simp only [hrestore]; exact .failed e
                    | ok db =>
                        simp only [hrestore]
                        exact .recovered head taken db hhead (missingReceipts_ok hmissing) hrestore

end Sigillo
