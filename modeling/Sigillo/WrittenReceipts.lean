import Sigillo.StoreWrites

/-!
# When a receipt is written

The other half of what a write means: where everything it checks holds, it is written
(**`insertReceipt_of_writes`**), and a receipt is built of an event exactly when it records it, holds
no half of a surrogate pair and is not too large (**`buildUnsigned_eq_ok`**). -/

namespace Sigillo

open DoubleArith Utf16Text JsonText JsonSchema HexBase64 IsoTime Fallible

/-- **The receipt an event becomes**: the one that records it. -/
theorem buildUnsigned_eq_ok {event : ChainEvent} {tip : Option TipRow} {keyId : Hex 16} {p : Prepared}
    {r : UnsignedReceipt} : buildUnsigned event tip keyId p = .ok r ↔
      Records event tip keyId p r ∧
      (∀ s ∈ texts (unsignedJson event tip keyId p), isWellFormed s = true) ∧
      jsonSize (unsignedJson event tip keyId p) ≤ MAX_RECEIPT_BYTES := by
  constructor
  · intro h
    obtain ⟨-, -, htexts, hsize⟩ := buildUnsigned_isOk.mp ⟨r, h⟩
    exact ⟨records_of_buildUnsigned event tip keyId p h, htexts, hsize⟩
  · rintro ⟨hrecords, htexts, hsize⟩
    have hfits := exists_records.mp ⟨r, hrecords⟩
    obtain ⟨r', hr'⟩ := buildUnsigned_isOk.mpr ⟨hfits.1, hfits.2, htexts, hsize⟩
    have hdecode := (decode_unsignedJson event tip keyId p).mpr hrecords
    have hdecode' := (decode_unsignedJson event tip keyId p).mpr
      (records_of_buildUnsigned event tip keyId p hr')
    obtain rfl := Option.some.inj (hdecode.symm.trans hdecode')
    exact hr'

-- ── Rows that fit ────────────────────────────────────────────────────────────────

namespace Database

variable {db : Database}

/-- Openings are added to a receipt that has none of their roles. -/
theorem insertOpenings_eq_ok {rows : List OpeningRow}
    (hat : ∀ row ∈ rows, db.hasReceiptAt row.systemId row.seq = true)
    (hnew : ∀ row ∈ rows, ∀ o ∈ db.openings,
      ¬ (o.systemId = row.systemId ∧ o.seq = row.seq ∧ o.role = row.role))
    (hroles : (rows.map (·.role)).Nodup) :
    rows.foldlM insertOpening db = .ok { db with openings := db.openings ++ rows } := by
  induction rows generalizing db with
  | nil => rw [List.append_nil]; rfl
  | cons row rest ih =>
      rw [List.map_cons, List.nodup_cons] at hroles
      have hinsert : insertOpening db row = .ok { db with openings := db.openings ++ [row] } := by
        rw [insertOpening, if_pos (hat row (by simp)), map_eq_ok]
        refine ⟨_, insertRowInto_eq_ok.mpr ⟨fun o ho => ?_, rfl⟩, rfl⟩
        rw [← Bool.not_eq_true, Bool.and_eq_true, Bool.and_eq_true, beq_iff_eq, beq_iff_eq, beq_iff_eq,
          and_assoc]
        exact hnew row (by simp) o ho
      rw [List.foldlM_cons]
      refine bind_eq_ok.mpr ⟨_, hinsert, ?_⟩
      refine Eq.trans (ih (fun r hr => hat r (by simp [hr])) (fun r hr o ho => ?_) hroles.2)
        (by rw [List.append_assoc, List.singleton_append])
      rcases List.mem_append.mp ho with ho | ho
      · exact hnew r (by simp [hr]) o ho
      · rintro ⟨-, -, hrole⟩
        rw [List.mem_singleton.mp ho] at hrole
        exact hroles.1 (hrole ▸ List.mem_map_of_mem hr)

theorem insertArtifacts_eq_ok {rows : List ArtifactRow}
    (hat : ∀ row ∈ rows, db.hasReceiptAt row.systemId row.seq = true) :
    rows.foldlM insertArtifact db = .ok { db with artifacts := db.artifacts ++ rows } := by
  induction rows generalizing db with
  | nil => rw [List.append_nil]; rfl
  | cons row rest ih =>
      have hinsert : insertArtifact db row = .ok { db with artifacts := db.artifacts ++ [row] } := by
        rw [insertArtifact, if_pos (hat row (by simp))]
      rw [List.foldlM_cons]
      refine bind_eq_ok.mpr ⟨_, hinsert, ?_⟩
      exact Eq.trans (ih fun r hr => hat r (by simp [hr]))
        (by rw [List.append_assoc, List.singleton_append])

end Database

/-- Every row of a receipt is about it. -/
theorem mem_openingRows {receipt : Receipt} {nonces : Option (PreparedDigest × PreparedDigest)}
    {row : OpeningRow} (h : row ∈ openingRows receipt nonces) :
    row.systemId = receipt.systemId ∧ row.seq = receipt.seq := by
  cases nonces with
  | none => cases h
  | some digests =>
      obtain ⟨input, output⟩ := digests
      rcases List.mem_append.mp h with h | h
      · obtain ⟨nonce, -, rfl⟩ := Option.map_eq_some_iff.mp (Option.mem_toList.mp h)
        exact ⟨rfl, rfl⟩
      · obtain ⟨nonce, -, rfl⟩ := Option.map_eq_some_iff.mp (Option.mem_toList.mp h)
        exact ⟨rfl, rfl⟩

theorem roles_openingRows (receipt : Receipt) (nonces : Option (PreparedDigest × PreparedDigest)) :
    ((openingRows receipt nonces).map (·.role)).Nodup := by
  cases nonces with
  | none => exact List.nodup_nil
  | some digests =>
      obtain ⟨⟨inputHash, inputScheme, inputNonce⟩, ⟨outputHash, outputScheme, outputNonce⟩⟩ := digests
      cases inputNonce with
      | none => cases outputNonce <;> simp [openingRows]
      | some i => cases outputNonce <;> simp [openingRows]

theorem mem_artifactRows {receipt : Receipt} {row : ArtifactRow} (h : row ∈ artifactRows receipt) :
    row.systemId = receipt.systemId ∧ row.seq = receipt.seq := by
  rw [artifactRows] at h
  cases hdetail : receipt.detail with
  | v1 actor => simp [hdetail] at h
  | v2 actor artifacts model =>
      simp only [hdetail, List.mem_map] at h
      obtain ⟨a, -, rfl⟩ := h
      exact ⟨rfl, rfl⟩
  | v3 actor artifacts model =>
      simp only [hdetail, List.mem_map] at h
      obtain ⟨a, -, rfl⟩ := h
      exact ⟨rfl, rfl⟩
  | v4 actor ins outs artifacts model =>
      simp only [hdetail, List.mem_map] at h
      obtain ⟨a, -, rfl⟩ := h
      exact ⟨rfl, rfl⟩

variable {c : Crypto} {u : Unicode} {key : WriterKey}

theorem insertRow_eq_ok {db : Database} {receipt : Receipt}
    {nonces : Option (PreparedDigest × PreparedDigest)}
    (hclash : ∀ r ∈ db.receipts, ¬ Database.Clash r (receiptRow c receipt))
    (hopenings : ∀ o ∈ db.openings, ¬ (o.systemId = receipt.systemId ∧ o.seq = receipt.seq)) :
    insertRow c db receipt nonces = .ok (addReceipt c db receipt nonces) := by
  have hhas : ∀ db' : Database, db'.receipts = db.receipts ++ [receiptRow c receipt] →
      db'.hasReceiptAt receipt.systemId receipt.seq = true := by
    intro db' hrows
    rw [Database.hasReceiptAt, hrows, List.any_append, Bool.or_eq_true]
    exact .inr (List.any_eq_true.mpr ⟨_, List.mem_singleton_self _, by simp [receiptRow]⟩)
  refine bind_eq_ok.mpr ⟨_, Database.insertReceiptRow_eq_ok.mpr ⟨hclash, rfl⟩, bind_eq_ok.mpr ⟨_,
    Database.insertOpenings_eq_ok (fun row hrow => ?_) (fun row hrow o ho => ?_)
      (roles_openingRows receipt nonces), ?_⟩⟩
  · rw [(mem_openingRows hrow).1, (mem_openingRows hrow).2]
    exact hhas _ rfl
  · rw [(mem_openingRows hrow).1, (mem_openingRows hrow).2]
    exact fun h => hopenings o ho ⟨h.1, h.2.1⟩
  · refine Database.insertArtifacts_eq_ok fun row hrow => ?_
    rw [(mem_artifactRows hrow).1, (mem_artifactRows hrow).2]
    exact hhas _ rfl

-- ── A receipt that is written ────────────────────────────────────────────────────

/-- **Where everything a write checks holds, it is written.** -/
theorem insertReceipt_of_writes {db db' : Database} {event : ChainEvent} {mode : WriteMode}
    {attempt : Attempt} {prepared : Prepared} {receipt : Receipt}
    (h : Writes c u key db event mode attempt prepared receipt db')
    (hopenings : ∀ o ∈ db.openings, ¬ (o.systemId = receipt.systemId ∧ o.seq = receipt.seq)) :
    insertReceipt c u key db event mode attempt = .ok (db', .new prepared receipt) := by
  have hseen : insertSeen db prepared.subject
      = .ok { db with subjects := db.subjects ++ prepared.subject.toList } := by
    cases hsubject : prepared.subject with
    | none => simp [insertSeen]
    | some row =>
        refine Database.insertSubject_eq_ok.mpr ⟨?_, rfl⟩
        exact h.newSubject row hsubject
  have hdraft : draftReceipt c u key db event mode attempt.random
      = .ok ({ db with subjects := db.subjects ++ prepared.subject.toList },
          .unsigned prepared receipt.toUnsignedReceipt) := by
    rw [draftReceipt, h.notDuplicate]
    simp only [h.placed]
    refine bind_eq_ok.mpr ⟨prepared, mapError_eq_ok.mpr h.prepared_eq, bind_eq_ok.mpr ⟨_, hseen, ?_⟩⟩
    exact bind_eq_ok.mpr ⟨_, mapError_eq_ok.mpr h.built, rfl⟩
  have hchecked : checkedReceipt c key receipt.toUnsignedReceipt receipt.sig.1 = .ok receipt := by
    rw [checkedReceipt, dif_pos receipt.sig.2]
    exact if_pos h.verified
  have hregister : registerGenesis { db with subjects := db.subjects ++ prepared.subject.toList } event mode
      = .ok { db with
        subjects := db.subjects ++ prepared.subject.toList, systems := systemsAfter db event mode } := by
    cases mode with
    | genesis organizationId =>
        obtain ⟨howner, hno⟩ := h.newSystem organizationId rfl
        exact Database.insertSystem_eq_ok.mpr ⟨howner, hno, rfl⟩
    | continuation => rfl
  rw [insertReceipt]
  refine bind_eq_ok.mpr ⟨_, hdraft, bind_eq_ok.mpr ⟨_, h.replied, bind_eq_ok.mpr ⟨_, hchecked, ?_⟩⟩⟩
  refine bind_eq_ok.mpr ⟨_, hregister, bind_eq_ok.mpr ⟨_, insertRow_eq_ok h.noClash hopenings, ?_⟩⟩
  rw [h.db_eq]
  rfl

-- ── Why nothing is written ───────────────────────────────────────────────────────

/-- What is the signer's, and not the event's: it refused, or it did not answer. -/
def StoreError.IsSigners : StoreError → Prop
  | .signerRefused .. => True
  | .signerUnavailable => True
  | _ => False

theorem insertRowInto_error {α : Type} {rows : List α} {clash : α → Bool} {row : α} {e : StoreError}
    (h : Database.insertRowInto rows clash row = .error e) : e = .constraint := by
  rw [Database.insertRowInto] at h
  split at h
  · exact (Except.error.inj h).symm
  · cases h

theorem insertOpenings_error {rows : List OpeningRow} {db : Database} {e : StoreError}
    (h : rows.foldlM Database.insertOpening db = .error e) : e = .constraint := by
  induction rows generalizing db with
  | nil => cases h
  | cons row rest ih =>
      rw [List.foldlM_cons] at h
      rcases bind_eq_error.mp h with h | ⟨db₁, -, h⟩
      · rw [Database.insertOpening] at h
        split at h
        · exact insertRowInto_error (map_eq_error.mp h)
        · exact (Except.error.inj h).symm
      · exact ih h

theorem insertArtifacts_error {rows : List ArtifactRow} {db : Database} {e : StoreError}
    (h : rows.foldlM Database.insertArtifact db = .error e) : e = .constraint := by
  induction rows generalizing db with
  | nil => cases h
  | cons row rest ih =>
      rw [List.foldlM_cons] at h
      rcases bind_eq_error.mp h with h | ⟨db₁, -, h⟩
      · rw [Database.insertArtifact] at h
        split at h
        · cases h
        · exact (Except.error.inj h).symm
      · exact ih h

theorem insertRow_error {db : Database} {receipt : Receipt}
    {nonces : Option (PreparedDigest × PreparedDigest)} {e : StoreError}
    (h : insertRow c db receipt nonces = .error e) : e = .constraint := by
  rcases bind_eq_error.mp h with h | ⟨db₁, -, h⟩
  · exact insertRowInto_error (map_eq_error.mp h)
  · rcases bind_eq_error.mp h with h | ⟨db₂, -, h⟩
    · exact insertOpenings_error h
    · exact insertArtifacts_error h

theorem registerGenesis_error {db : Database} {event : ChainEvent} {mode : WriteMode} {e : StoreError}
    (h : registerGenesis db event mode = .error e) : e = .constraint := by
  cases mode with
  | genesis organizationId =>
      rw [registerGenesis, Database.insertSystem] at h
      split at h
      · exact insertRowInto_error (map_eq_error.mp h)
      · exact (Except.error.inj h).symm
  | continuation => cases h

theorem mapError_eq_error {ε ε' α : Type} {x : Except ε α} {f : ε → ε'} {e : ε'}
    (h : x.mapError f = .error e) : ∃ e', x = .error e' ∧ f e' = e := by
  cases x with
  | error e' => exact ⟨e', rfl, Except.error.inj h⟩
  | ok a => cases h

theorem misplaced_error {event : ChainEvent} {mode : WriteMode} {tip : Option TipRow} {e : StoreError}
    (h : misplaced event mode tip = some e) : ¬ e.IsSigners := by
  cases mode with
  | genesis organizationId =>
      cases tip with
      | none => cases h
      | some t =>
          obtain rfl := Option.some.inj h
          exact id
  | continuation =>
      cases tip with
      | none =>
          obtain rfl := Option.some.inj h
          exact id
      | some t => cases h

theorem insertSeen_error {db : Database} {subject : Option SubjectRow} {e : StoreError}
    (h : insertSeen db subject = .error e) : e = .constraint := by
  cases subject with
  | none => cases h
  | some row => exact insertRowInto_error (map_eq_error.mp h)

/-- **What is refused before a signature is asked for is never the signer's doing.** -/
theorem draftReceipt_error {db : Database} {event : ChainEvent} {mode : WriteMode} {random : Randomness}
    {e : StoreError} (h : draftReceipt c u key db event mode random = .error e) : ¬ e.IsSigners := by
  rw [draftReceipt] at h
  cases hdup : duplicateRow db event mode with
  | some row =>
      rw [hdup] at h
      cases hback : rowToReceipt row with
      | none =>
          simp only [hback] at h
          obtain rfl := Except.error.inj h
          exact id
      | some receipt => simp [hback] at h
  | none =>
      rw [hdup] at h
      cases hplaced : misplaced event mode (db.tipRow event.systemId) with
      | some e' =>
          simp only [hplaced] at h
          obtain rfl := Except.error.inj h
          exact misplaced_error hplaced
      | none =>
          simp only [hplaced] at h
          rcases bind_eq_error.mp h with h | ⟨p, -, h⟩
          · obtain ⟨e', -, rfl⟩ := mapError_eq_error h
            exact id
          · rcases bind_eq_error.mp h with h | ⟨db₁, -, h⟩
            · obtain rfl := insertSeen_error h
              exact id
            · rcases bind_eq_error.mp h with h | ⟨un, -, h⟩
              · obtain ⟨e', -, rfl⟩ := mapError_eq_error h
                exact id
              · cases h

theorem checkedReceipt_error {unsigned : UnsignedReceipt} {sig : JsString} {e : StoreError}
    (h : checkedReceipt c key unsigned sig = .error e) : ¬ e.IsSigners := by
  rw [checkedReceipt] at h
  split at h
  · dsimp only at h
    split at h
    · cases h
    · obtain rfl := Except.error.inj h
      exact id
  · obtain rfl := Except.error.inj h
    exact id

/-- **An attempt fails by the signer's doing only where a signature was asked for.** -/
theorem insertReceipt_signers {db : Database} {event : ChainEvent} {mode : WriteMode} {attempt : Attempt}
    {e : StoreError} (h : insertReceipt c u key db event mode attempt = .error e) (he : e.IsSigners) :
    attempt.reply = .error e ∧ ∃ db' prepared unsigned,
      draftReceipt c u key db event mode attempt.random = .ok (db', .unsigned prepared unsigned) := by
  rw [insertReceipt] at h
  rcases bind_eq_error.mp h with h | ⟨⟨db₁, draft⟩, hdraft, h⟩
  · exact absurd he (draftReceipt_error h)
  · cases draft with
    | duplicate receipt => cases h
    | unsigned prepared unsigned =>
        rcases bind_eq_error.mp h with h | ⟨sig, -, h⟩
        · exact ⟨h, db₁, prepared, unsigned, hdraft⟩
        · rcases bind_eq_error.mp h with h | ⟨receipt, -, h⟩
          · exact absurd he (checkedReceipt_error h)
          · rcases bind_eq_error.mp h with h | ⟨db₂, -, h⟩
            · obtain rfl := registerGenesis_error h
              exact absurd he id
            · rcases bind_eq_error.mp h with h | ⟨db₃, -, h⟩
              · obtain rfl := insertRow_error h
                exact absurd he id
              · cases h

-- ── A toy chain ──────────────────────────────────────────────────────────────────

/-- The genesis of the toy system. -/
def toyGenesis : Receipt where
  systemId := toySystem
  seq := ⟨0, isCount_zero⟩
  tsEvent := newYear
  tsReceived := newYear
  action := ⟨.genesis, ⟨toySystem.1, by decide⟩⟩
  inputHash := none
  outputHash := none
  outcome := .ok
  source := ⟨.api, none, none⟩
  prevHash := GENESIS_PREV_HASH
  keyId := toyWriter.keyId
  detail := .v4 ⟨⟨toySystem.1, by decide⟩, none⟩ none none none none
  schemes := ⟨rfl, rfl⟩
  sig := ⟨base64Encode (List.replicate 64 0), by decide⟩

def noDigest : PreparedDigest := ⟨none, none, none⟩

/-- An action of an agent for nobody, without digests. -/
def toyPrepared (agent : JsString) : Prepared := ⟨⟨agent, none⟩, none, noDigest, noDigest⟩

theorem toyGenesis_built : buildUnsigned (genesisEvent toySystem newYear) none toyWriter.keyId
    (toyPrepared toySystem.1) = .ok toyGenesis.toUnsignedReceipt := by
  refine buildUnsigned_eq_ok.mpr ⟨?_, by decide +kernel, by decide +kernel⟩
  refine ⟨rfl, ?_, rfl, rfl, rfl, rfl, rfl, rfl, rfl, rfl, rfl, _, _, _, rfl, rfl, rfl, rfl⟩
  exact JsNumber.ofNat_of_isDouble _

/-- The database once the toy system is opened in one that holds no chain. -/
def toyOpened (c : Crypto) (db : Database) (organizationId : Option JsString) : Database :=
  addReceipt c { db with systems := [⟨toySystem, newYear, organizationId, none, none⟩] } toyGenesis
    (some (noDigest, noDigest))

/-- A database that holds no chain and knows nobody. -/
structure Database.NoChains (db : Database) : Prop where
  systems : db.systems = []
  receipts : db.receipts = []
  subjects : db.subjects = []
  openings : db.openings = []
  adminLog : ∀ systemId, db.deletionOf systemId = none

theorem toyGenesis_writes {db : Database} {organizationId : Option JsString} (h : db.NoChains)
    (howner : db.hasOwner organizationId = true)
    (hverify : verifyReceiptSignature c toyGenesis toyWriter.verificationKey = true) :
    Writes c u toyWriter db (genesisEvent toySystem newYear) (.genesis organizationId) toyReplies.first
      (toyPrepared toySystem.1) toyGenesis (toyOpened c db organizationId) := by
  have htip : db.tipRow toySystem = none := by
    rw [Database.tipRow, Database.chainRows, h.receipts, List.filter_nil, List.mergeSort_nil]
    rfl
  refine ⟨rfl, ?_, rfl, ?_, rfl, hverify, ?_, ?_, ?_, ?_⟩
  · show misplaced _ _ (db.tipRow toySystem) = none
    rw [htip]
    rfl
  · show buildUnsigned _ (db.tipRow toySystem) _ _ = _
    rw [htip]
    exact toyGenesis_built
  · rintro row ⟨⟩
  · rintro o ho
    obtain rfl := WriteMode.genesis.inj ho
    exact ⟨howner, by simp [h.systems]⟩
  · simp [h.receipts]
  · simp [h.systems, h.subjects, systemsAfter, toyPrepared, toyOpened]
    rfl

/-- **The toy system is opened** where there is no chain. -/
theorem createSystem_toy {s : Store} {organizationId : Option JsString} (h : s.db.NoChains)
    (howner : s.db.hasOwner organizationId = true)
    (hverify : verifyReceiptSignature c toyGenesis toyWriter.verificationKey = true) :
    createSystem c u toyWriter s toySystem newYear organizationId toyReplies =
      ({ s with
          db := toyOpened c s.db organizationId
          history := s.history
            ++ [.wrote (genesisEvent toySystem newYear) (toyPrepared toySystem.1) toyGenesis] },
        .ok toyGenesis) := by
  have hinsert := insertReceipt_of_writes (toyGenesis_writes (u := u) h howner hverify)
    (by simp [h.openings])
  rw [createSystem, if_neg (not_not.mpr howner), h.adminLog]
  simp only
  rw [writeReceipt, attemptReceipt, hinsert]
  rfl

theorem noChains_fresh (key : WriterKey) : (Store.fresh key).db.NoChains :=
  ⟨rfl, rfl, rfl, rfl, fun _ => rfl⟩

/-- The tip of the toy chain when it is opened. -/
theorem tipRow_toyOpened {db : Database} (h : db.NoChains) (organizationId : Option JsString) :
    (toyOpened c db organizationId).tipRow toySystem
      = some ⟨toyGenesis.seq, receiptHashHex c toyGenesis.toUnsignedReceipt, newYear⟩ := by
  have hrows : (toyOpened c db organizationId).receipts = [receiptRow c toyGenesis] := by
    show db.receipts ++ _ = _
    rw [h.receipts, List.nil_append]
  rw [Database.tipRow, Database.chainRows, hrows, List.filter_singleton,
    show ((receiptRow c toyGenesis).systemId == toySystem) = true from beq_self_eq_true _, cond_true,
    List.mergeSort_singleton]
  rfl

-- ── A second receipt ─────────────────────────────────────────────────────────────

/-- A hash that tells the toy genesis from everything else, and signatures that all verify. -/
def tellingCrypto : Crypto where
  sha256 bytes := if bytes = canonicalReceiptBytes toyGenesis.toUnsignedReceipt
    then ⟨List.replicate 32 1, length_ones⟩ else ⟨List.replicate 32 0, length_zeros⟩
  verify _ _ _ := true

/-- The tip of the toy chain when it is opened, under that hash. -/
def toyTip : TipRow :=
  ⟨toyGenesis.seq, Digest.hex ⟨List.replicate 32 1, length_ones⟩, newYear⟩

theorem tellingCrypto_genesis : receiptHashHex tellingCrypto toyGenesis.toUnsignedReceipt = toyTip.hash :=
  congrArg Digest.hex (if_pos rfl)

theorem tellingCrypto_other {r : UnsignedReceipt} (h : r ≠ toyGenesis.toUnsignedReceipt) :
    receiptHashHex tellingCrypto r ≠ toyTip.hash := by
  have hbytes : canonicalReceiptBytes r ≠ canonicalReceiptBytes toyGenesis.toUnsignedReceipt :=
    fun heq => h (canonicalReceiptBytes_injective heq)
  rw [receiptHashHex, receiptHash, show tellingCrypto.sha256 (canonicalReceiptBytes r) = _ from if_neg hbytes]
  decide

/-- The opened toy chain in a database that held none, and one receipt more. -/
def toyWritten (db : Database) (organizationId : Option JsString) (receipt : Receipt) : Database :=
  addReceipt tellingCrypto (toyOpened tellingCrypto db organizationId) receipt (some (noDigest, noDigest))

/-- **The toy chain takes one receipt more**: one that is built after its genesis. -/
theorem toySecond_writes {db : Database} {organizationId : Option JsString} (h : db.NoChains)
    {event : ChainEvent} (hsystem : event.systemId = toySystem) {receipt : Receipt}
    (hprepared : prepare tellingCrypto u [] event toyRandomness = .ok (toyPrepared (js "bot")))
    (hbuilt : buildUnsigned event (some toyTip) toyWriter.keyId (toyPrepared (js "bot"))
      = .ok receipt.toUnsignedReceipt)
    (hsig : receipt.sig.1 = base64Encode (List.replicate 64 0)) :
    Writes tellingCrypto u toyWriter (toyOpened tellingCrypto db organizationId) event .continuation
      toyReplies.first (toyPrepared (js "bot")) receipt (toyWritten db organizationId receipt) := by
  have htip : (toyOpened tellingCrypto db organizationId).tipRow event.systemId = some toyTip := by
    rw [hsystem, tipRow_toyOpened h, tellingCrypto_genesis]
    rfl
  have hrows : (toyOpened tellingCrypto db organizationId).receipts = [receiptRow tellingCrypto toyGenesis] := by
    show db.receipts ++ _ = _
    rw [h.receipts, List.nil_append]
  have hsubjects : (toyOpened tellingCrypto db organizationId).subjects = [] := h.subjects
  have hrecords := records_of_buildUnsigned _ _ _ _ hbuilt
  have hseq : receipt.seq.1 = 1 := by
    have hfin := hrecords.seq
    rw [show JsNumber.ofNat (seqAfter (some toyTip)) = .fin (1 : ℕ) (isDouble_natCast (by norm_num)) by
      decide +kernel, JsNumber.fin.injEq] at hfin
    exact_mod_cast hfin.symm
  have hother : receipt.toUnsignedReceipt ≠ toyGenesis.toUnsignedReceipt := by
    intro heq
    rw [heq] at hseq
    cases hseq
  refine ⟨?_, ?_, ?_, ?_, ?_, rfl, ?_, ?_, ?_, ?_⟩
  · unfold duplicateRow
    split
    · rw [Database.spanRow, hrows, List.find?_singleton,
        show (receiptRow tellingCrypto toyGenesis).sourceSpanId = none from rfl, Option.any_none, Bool.and_false]
      rfl
    · rfl
  · rw [htip]
    rfl
  · rw [hsubjects]
    exact hprepared
  · rw [htip]
    exact hbuilt
  · rw [hsig]
    rfl
  · rintro row ⟨⟩
  · rintro o ⟨⟩
  · rw [hrows]
    intro row hrow
    rw [List.mem_singleton.mp hrow]
    rintro (⟨-, hsame⟩ | hhash | hspan)
    · have hzero : toyGenesis.seq.1 = receipt.seq.1 := congrArg Subtype.val hsame
      rw [hseq] at hzero
      cases hzero
    · exact tellingCrypto_other hother (hhash.symm.trans tellingCrypto_genesis)
    · rw [Database.sameSpan, show (receiptRow tellingCrypto toyGenesis).sourceTraceId.isSome = false from rfl,
        Bool.and_false] at hspan
      cases hspan
  · rw [toyWritten, show (toyPrepared (js "bot")).subject.toList = [] from rfl, List.append_nil]
    rfl

/-- The store answers an event of the toy chain with its second receipt. -/
theorem writeReceipt_toy {s : Store} {db : Database} {organizationId : Option JsString} (h : db.NoChains)
    (hs : s.db = toyOpened tellingCrypto db organizationId) {event : ChainEvent} {receipt : Receipt}
    (hwrites : Writes tellingCrypto u toyWriter (toyOpened tellingCrypto db organizationId) event .continuation
      toyReplies.first (toyPrepared (js "bot")) receipt (toyWritten db organizationId receipt)) :
    writeReceipt tellingCrypto u toyWriter s event .continuation .ok toyReplies =
      ({ s with
          db := toyWritten db organizationId receipt
          history := s.history ++ [.wrote event (toyPrepared (js "bot")) receipt] }, .ok receipt) := by
  have hopenings : ∀ o ∈ (toyOpened tellingCrypto db organizationId).openings,
      ¬ (o.systemId = receipt.systemId ∧ o.seq = receipt.seq) := by
    have hnone : (toyOpened tellingCrypto db organizationId).openings = [] := by
      show db.openings ++ [] = []
      rw [h.openings, List.append_nil]
    rw [hnone]
    exact fun o ho => absurd ho List.not_mem_nil
  rw [writeReceipt, attemptReceipt, hs, insertReceipt_of_writes hwrites hopenings]
  rfl

end Sigillo
