import Sigillo.ConnectionWatch

/-!
# The receipts the server writes by itself

Whatever the watch writes is of one form: by the server's own agent, of a name no client may use, with no
digest and no span. Such an event is in order wherever its system's identifier is text
(**`Change.checked`**), and a chain takes it as soon as the signer signs (**`Tame.record`**, for the
chains of a toy signer). -/

namespace Sigillo

open DoubleArith Utf16Text JsonText JsonParse JsonSchema HexBase64 IsoTime Fallible

-- ── The changes of a connection ──────────────────────────────────────────────────

/-- `CONNECTION`. -/
inductive Change where
  | start | stop | lost | ended | restored | scriptChanged | sleep | offline | powerOff
deriving DecidableEq

/-- The action a change is recorded as. -/
def Change.receiptName : Change → JsString
  | .start => CONNECTION_PREFIX ++ js "start"
  | .stop => CONNECTION_PREFIX ++ js "stop"
  | .lost => CONNECTION_PREFIX ++ js "lost"
  | .ended => CONNECTION_PREFIX ++ js "ended"
  | .restored => CONNECTION_PREFIX ++ js "restored"
  | .scriptChanged => CONNECTION_PREFIX ++ js "script_changed"
  | .sleep => CONNECTION_PREFIX ++ js "sleep"
  | .offline => CONNECTION_PREFIX ++ js "offline"
  | .powerOff => CONNECTION_PREFIX ++ js "power_off"

/-- The change a gap is. -/
def GapKind.change : GapKind → Change
  | .sleep => .sleep
  | .offline => .offline

/-- `receiptOf`. -/
def Change.event (change : Change) (systemId : SystemId) (tsEvent : JsString) (tsReceived : Timestamp)
    (outcome : Outcome) (source : SourceType) : ChainEvent :=
  { connectionEvent systemId change.receiptName tsEvent tsReceived outcome with source := ⟨source, none, none⟩ }

theorem gapEvent_eq (systemId : SystemId) (known : ConnectionRow) (time : Timestamp) (gap : Gap) :
    gapEvent systemId known time gap = gap.kind.change.event systemId
      (isoText (min (dateParse time) (max (dateParse gap.fromTime) (dateParse known.startedAt)))) time
      gap.kind.outcome .sdk := by
  obtain ⟨kind, _, _⟩ := gap
  cases kind with
  | sleep => rfl
  | offline => rfl

variable {c : Crypto} {u : Unicode} {key : WriterKey} {change : Change} {systemId : SystemId} {tsEvent : JsString}
  {tsReceived : Timestamp} {outcome : Outcome} {source : SourceType}

theorem Change.event_named (change : Change) (systemId : SystemId) (tsEvent : JsString) (tsReceived : Timestamp)
    (outcome : Outcome) (source : SourceType) :
    CONNECTION_PREFIX <+: (change.event systemId tsEvent tsReceived outcome source).action.name := by
  show CONNECTION_PREFIX <+: change.receiptName
  cases change <;> exact List.prefix_append _ _

/-- What such an event becomes: no person, and no digest. -/
def serversPrepared : Prepared := toyPrepared (js "sigillo")

theorem Change.prepared (subjects : List SubjectRow) (random : Randomness) :
    prepare c u subjects (change.event systemId tsEvent tsReceived outcome source) random = .ok serversPrepared :=
  rfl

theorem Change.fits (h : IsTimestamp tsEvent) :
    Fits (change.event systemId tsEvent tsReceived outcome source) serversPrepared where
  tsEvent := h
  actor := ⟨by decide, by rintro t ⟨⟩⟩
  name := by
    show TextFits MAX_NAME change.receiptName
    cases change <;> decide
  input := ⟨by rintro t ⟨⟩, rfl⟩
  output := ⟨by rintro t ⟨⟩, rfl⟩
  source := SourceInput.fits_iff.mpr ⟨⟨source, none, none⟩, rfl⟩
  artifacts := by rintro list ⟨⟩
  model := by rintro m ⟨⟩

theorem Change.wellFormed (h : IsTimestamp tsEvent) (hsystem : isWellFormed systemId.1 = true) (tip : Option TipRow)
    (keyId : Hex 16) :
    WellFormed (unsignedJson (change.event systemId tsEvent tsReceived outcome source) tip keyId serversPrepared) := by
  refine (wellFormed_unsignedJson (Change.fits h) (by decide) ?_ (by rintro list ⟨⟩) (by rintro m ⟨⟩)).mpr hsystem
  show isWellFormed change.receiptName = true
  cases change <;> decide

/-- The bytes of such a receipt that do not depend on its chain. -/
theorem Change.size (h : IsTimestamp tsEvent) (tip : TipRow) (keyId : Hex 16) :
    jsonSize (unsignedJson (change.event systemId tsEvent tsReceived outcome source) (some tip) keyId serversPrepared)
      ≤ 600 + quotedSize systemId.1 + jsonSize (.num (.ofNat (tip.seq.1 + 1))) := by
  have hat : jsonSize (unsignedJson (change.event systemId tsEvent tsReceived outcome source) (some tip) keyId
      serversPrepared) + 1 = _ := jsonSize_unsignedJson_at tip keyId h
  have hactor : jsonSize serversPrepared.actor.toJson = 19 := by decide +kernel
  have hinput : serversPrepared.input.bytes = 8 := by decide +kernel
  have houtput : serversPrepared.output.bytes = 8 := by decide +kernel
  have haction : jsonSize (change.event systemId tsEvent tsReceived outcome source).action.toJson ≤ 80 := by
    show jsonSize (ActionInput.toJson ⟨.agentStep, change.receiptName⟩) ≤ 80
    cases change <;> decide +kernel
  have houtcome : (change.event systemId tsEvent tsReceived outcome source).outcome.name.length ≤ 10 := by
    show outcome.name.length ≤ 10
    cases outcome <;> decide +kernel
  have hsource : jsonSize (change.event systemId tsEvent tsReceived outcome source).source.toJson ≤ 20 := by
    show jsonSize (SourceInput.toJson ⟨source, none, none⟩) ≤ 20
    cases source <;> decide +kernel
  have hartifacts : optionalBytes (js "artifacts")
      ((change.event systemId tsEvent tsReceived outcome source).artifacts.map fun list =>
        .arr (list.map ArtifactInput.toJson)) = 0 := rfl
  have hmodel : optionalBytes (js "model")
      ((change.event systemId tsEvent tsReceived outcome source).model.map ModelInput.toJson) = 0 := rfl
  rw [hactor, hinput, houtput, hartifacts, hmodel] at hat
  have hbase : baseBytes = 328 := rfl
  have hid : (change.event systemId tsEvent tsReceived outcome source).systemId.1 = systemId.1 := rfl
  rw [hid] at hat
  omega

/-- **Such an event is in order**, whoever is known. -/
theorem Change.checked (change : Change) (h : IsTimestamp tsEvent) (hsystem : isWellFormed systemId.1 = true)
    (hshort : quotedSize systemId.1 ≤ 1000) (subjects : List SubjectRow) (random : Randomness) :
    refusedBefore c u key subjects (change.event systemId tsEvent tsReceived outcome source) random = none := by
  have hone : jsonSize (.num (.ofNat
      ((standInTip (change.event systemId tsEvent tsReceived outcome source)).seq.1 + 1))) = 1 :=
    jsonSize_digit 1 (by decide)
  have hsize : jsonSize (unsignedJson (change.event systemId tsEvent tsReceived outcome source)
      (some (standInTip (change.event systemId tsEvent tsReceived outcome source))) key.keyId serversPrepared)
        ≤ 600 + quotedSize systemId.1 + _ := Change.size h _ key.keyId
  have hmax : MAX_RECEIPT_BYTES = 196608 := rfl
  obtain ⟨r, hr⟩ : ∃ r, buildUnsigned (change.event systemId tsEvent tsReceived outcome source)
      (some (standInTip (change.event systemId tsEvent tsReceived outcome source))) key.keyId serversPrepared
        = .ok r := by
    refine buildUnsigned_isOk.mpr ⟨⟨⟨1, by decide +kernel⟩, JsNumber.ofNat_of_isDouble _⟩, Change.fits h,
      Change.wellFormed h hsystem _ _, ?_⟩
    omega
  have hcheck : checkEvent c u subjects key.keyId (change.event systemId tsEvent tsReceived outcome source) random
      = .ok () := bind_eq_ok.mpr ⟨serversPrepared, rfl, bind_eq_ok.mpr ⟨r, hr, rfl⟩⟩
  rw [refusedBefore, hcheck]

-- ── The rows of the sessions ─────────────────────────────────────────────────────

/-- The sessions once one of them is saved. -/
def savedConnections (row : ConnectionRow) (rows : List ConnectionRow) : List ConnectionRow :=
  if rows.any fun r => r.systemId == row.systemId && r.sessionId == row.sessionId then
    rows.map fun r => if r.systemId == row.systemId && r.sessionId == row.sessionId then
      { r with state := row.state, lastBeatAt := row.lastBeatAt, scriptChanged := row.scriptChanged }
      else r
  else rows ++ [row]

theorem saveConnection_eq (row : ConnectionRow) (db : Database) :
    saveConnection row db = { db with connections := savedConnections row db.connections } := by
  rw [saveConnection, savedConnections]
  dsimp only
  split
  · rfl
  · rfl

-- ── While the signer is away ─────────────────────────────────────────────────────

/-- The signer signs nothing, and does not say that the position is wrong. -/
def Unsigned (reply : Except StoreError JsString) : Prop :=
  ∃ e, reply = .error e ∧ ∀ message, e ≠ .signerRefused .sequence message

theorem unsigned_unavailable : Unsigned (.error .signerUnavailable) := ⟨_, rfl, fun _ h => by cases h⟩

theorem insertReceipt_unsigned {db : Database} {event : ChainEvent} {attempt : Attempt}
    (hspan : event.source.traceId = none) (hreply : Unsigned attempt.reply) :
    ∃ e, insertReceipt c u key db event .continuation attempt = .error e ∧
      ∀ message, e ≠ .signerRefused .sequence message := by
  obtain ⟨e₀, hreply, he₀⟩ := hreply
  cases hinsert : insertReceipt c u key db event .continuation attempt with
  | ok out =>
      obtain ⟨db', written⟩ := out
      cases written with
      | duplicate receipt =>
          obtain ⟨-, row, hrow, -⟩ := insertReceipt_duplicate hinsert
          rw [duplicateRow_of_no_span hspan] at hrow
          cases hrow
      | new prepared receipt =>
          have hreplied := (insertReceipt_new hinsert).replied
          rw [hreply] at hreplied
          cases hreplied
  | error e =>
      refine ⟨e, rfl, ?_⟩
      rintro message rfl
      obtain ⟨hreplied, -⟩ := insertReceipt_signers hinsert trivial
      rw [hreply] at hreplied
      exact he₀ message (Except.error.inj hreplied)

/-- **Nothing is written while the signer signs nothing**, and nothing is lost. -/
theorem recordConnection_unsigned {s : Store} {seen : List SubjectRow} {row : ConnectionRow} {event : ChainEvent}
    {checked : Randomness} {replies : SignerReplies} (hspan : event.source.traceId = none)
    (hreply : Unsigned replies.first.reply) :
    ∃ e, recordConnection c u key s seen row (some (event, checked, replies)) = (s, .error e) := by
  rw [recordConnection]
  split
  · exact ⟨_, rfl⟩
  · cases refusedBefore c u key seen event checked with
    | some e => exact ⟨e, rfl⟩
    | none =>
        obtain ⟨e, hinsert, he⟩ : ∃ e, insertReceipt c u key s.db event .continuation replies.first = .error e ∧
            ∀ message, e ≠ .signerRefused .sequence message := insertReceipt_unsigned hspan hreply
        have hattempt : attemptReceipt c u key s event .continuation (fun db => .ok (saveConnection row db))
            replies.first = (s, .error e) := by
          rw [attemptReceipt, hinsert]
          rfl
        have hwrite : writeReceipt c u key s event .continuation (fun db => .ok (saveConnection row db)) replies
            = (s, .error e) := by
          rw [writeReceipt, hattempt]
          cases e with
          | signerRefused code message =>
              cases code with
              | sequence => exact absurd rfl (he message)
              | other => rfl
          | _ => rfl
        exact ⟨e, by rw [hwrite]⟩

/-- A chain that holds a receipt has a tip. -/
theorem tipRow_of_mem {s : Store} {row : ReceiptRow} (hrow : row ∈ s.db.receipts) (hid : row.systemId = systemId) :
    s.db.tipRow systemId ≠ none := by
  intro hnone
  have hmem : row ∈ s.db.chainRows systemId := mem_chainRows.mpr ⟨hrow, hid⟩
  rw [Database.tipRow, Option.map_eq_none_iff, List.getLast?_eq_none_iff] at hnone
  rw [hnone] at hmem
  cases hmem

/-- A chain without a receipt has no tip. -/
theorem tipRow_eq_none {db : Database} {systemId : SystemId} (h : ∀ row ∈ db.receipts, row.systemId ≠ systemId) :
    db.tipRow systemId = none := by
  rw [Database.tipRow, Option.map_eq_none_iff, List.getLast?_eq_none_iff, List.eq_nil_iff_forall_not_mem]
  intro row hrow
  obtain ⟨hmem, hid⟩ := mem_chainRows.mp hrow
  exact h row hmem hid

/-- A chain keeps its tip as others grow. -/
theorem tipRow_append {s s' : Store} {systemId : SystemId} {more : List ReceiptRow}
    (h : s'.db.receipts = s.db.receipts ++ more) (htip : s.db.tipRow systemId ≠ none) :
    s'.db.tipRow systemId ≠ none := by
  by_contra hnone
  refine htip (tipRow_eq_none fun row hrow hid => tipRow_of_mem (s := s') ?_ hid hnone)
  rw [h]
  exact List.mem_append_left _ hrow

theorem tipRow_fresh (key : WriterKey) (systemId : SystemId) : (Store.fresh key).db.tipRow systemId = none := by
  show Option.map _ (List.mergeSort [] _).getLast? = none
  rw [List.mergeSort_nil]
  rfl

-- ── A toy signer for short chains ────────────────────────────────────────────────

/-- Receipts of short chains have one hash only if they are at one position. -/
theorem position_of_hash {a b : UnsignedReceipt} (ha : a.seq.1 < 256) (hb : b.seq.1 < 256)
    (h : receiptHashHex positionCrypto a = receiptHashHex positionCrypto b) :
    a.seq.1 = b.seq.1 ∧ a.systemId.1.length = b.systemId.1.length := by
  have hdigest := Digest.hex_injective h
  rw [receiptHash_position, receiptHash_position] at hdigest
  have hlist := congrArg Subtype.val hdigest
  obtain ⟨hseq, hrest⟩ := List.cons.inj hlist
  obtain ⟨hsystem, -⟩ := List.cons.inj hrest
  have hlength : ∀ s : SystemId, s.1.length < 256 := fun s => lt_of_le_of_lt s.2.2 (by decide)
  have hback : ∀ {m n : ℕ}, m < 256 → n < 256 → UInt8.ofNat m = UInt8.ofNat n → m = n := by
    intro m n hm hn heq
    have hnat := congrArg UInt8.toNat heq
    rwa [UInt8.toNat_ofNat_of_lt' hm, UInt8.toNat_ofNat_of_lt' hn] at hnat
  exact ⟨hback ha hb hseq, hback (hlength _) (hlength _) hsystem⟩

/-- Another system. -/
def otherSystem : SystemId := ⟨js "acme.helper", by decide⟩

/-- The systems of the toy signer. -/
def IsToySystem (systemId : SystemId) : Prop := systemId = toySystem ∨ systemId = otherSystem

theorem IsToySystem.eq_of_length {a b : SystemId} (ha : IsToySystem a) (hb : IsToySystem b)
    (h : a.1.length = b.1.length) : a = b := by
  rcases ha with rfl | rfl <;> rcases hb with rfl | rfl
  · rfl
  · exact absurd h (by decide)
  · exact absurd h (by decide)
  · rfl

theorem IsToySystem.short (h : IsToySystem systemId) :
    isWellFormed systemId.1 = true ∧ quotedSize systemId.1 ≤ 1000 := by
  rcases h with rfl | rfl
  · exact ⟨by decide, by decide +kernel⟩
  · exact ⟨by decide, by decide +kernel⟩

/-- **A store whose chains are short**: nobody is known, and no chain has more receipts than `n`. -/
structure Tame (n : ℕ) (s : Store) : Prop where
  whole : Whole positionCrypto s.db
  subjects : s.db.subjects = []
  systems : ∀ row ∈ s.db.receipts, IsToySystem row.systemId
  short : ∀ row ∈ s.db.receipts, row.seq.1 < n

namespace Tame

variable {n : ℕ} {s : Store}

theorem fresh : Tame 0 (Store.fresh toyWriter) where
  whole := whole_fresh toyWriter
  subjects := rfl
  systems := fun _ hrow => absurd hrow List.not_mem_nil
  short := fun _ hrow => absurd hrow List.not_mem_nil

/-- A short chain's next position. -/
theorem seqAfter_le (h : Tame n s) (systemId : SystemId) : seqAfter (s.db.tipRow systemId) ≤ n := by
  obtain ⟨chain, hchain⟩ := h.whole.chains systemId
  rw [hchain.seqAfter]
  rcases List.eq_nil_or_concat chain with rfl | ⟨before, last, rfl⟩
  · exact Nat.zero_le n
  · have hpos : last.seq.1 = before.length := hchain.2.seq_eq (n := before.length) (r := last) (by simp)
    obtain ⟨hmem, -⟩ := hchain.mem_receipts.mpr ⟨last, by simp, rfl⟩
    have hlt : last.seq.1 < n := h.short _ hmem
    rw [List.length_concat]
    omega

/-- **Nothing stands in the way of the next receipt of a short chain.** -/
theorem noClash (h : Tame n s) (hn : n < 256) {receipt : Receipt} (hsystem : IsToySystem receipt.systemId)
    (hseq : receipt.seq.1 = seqAfter (s.db.tipRow receipt.systemId)) (hspan : receipt.source.traceId = none) :
    ∀ row ∈ s.db.receipts, ¬ Database.Clash row (receiptRow positionCrypto receipt) := by
  have hlast := hseq ▸ h.seqAfter_le receipt.systemId
  obtain ⟨chain, hchain⟩ := h.whole.chains receipt.systemId
  rw [hchain.seqAfter] at hseq
  intro row hrow hclash
  -- a row of the same chain stands before the new receipt
  have hbefore : row.systemId = receipt.systemId → row.seq.1 ≠ receipt.seq.1 := by
    intro hsame hpos
    obtain ⟨r, hr, rfl⟩ := hchain.mem_receipts.mp ⟨hrow, hsame⟩
    have hlt : r.seq.1 < chain.length := hchain.2.seq_lt hr
    have hpos' : r.seq.1 = receipt.seq.1 := hpos
    omega
  rcases hclash with ⟨hsame, hpos⟩ | hhash | hsame
  · exact hbefore hsame (congrArg Subtype.val hpos)
  · obtain ⟨other, hother⟩ := h.whole.chains row.systemId
    obtain ⟨r, -, rfl⟩ := hother.mem_receipts.mp ⟨hrow, rfl⟩
    have hlt : r.seq.1 < n := h.short _ hrow
    obtain ⟨hpos, hlength⟩ := position_of_hash (lt_trans hlt hn) (lt_of_le_of_lt hlast hn) hhash
    exact hbefore ((h.systems _ hrow).eq_of_length hsystem hlength) hpos
  · have htrace : (receiptRow positionCrypto receipt).sourceTraceId = none := hspan
    simp only [Database.sameSpan, htrace, Bool.and_eq_true, beq_iff_eq] at hsame
    obtain ⟨⟨⟨⟨-, htrue⟩, -⟩, hnone⟩, -⟩ := hsame
    rw [hnone] at htrue
    cases htrue

/-- **A short chain takes the receipt that is built for it.** -/
theorem writes (h : Tame n s) (hn : n < 256) {event : ChainEvent} {mode : WriteMode} {prepared : Prepared}
    {unsigned : UnsignedReceipt} (hsystem : IsToySystem event.systemId) (hspan : event.source.traceId = none)
    (hdup : duplicateRow s.db event mode = none)
    (hplaced : misplaced event mode (s.db.tipRow event.systemId) = none)
    (hprepared : prepare positionCrypto u s.db.subjects event toyRandomness = .ok prepared)
    (hnobody : prepared.subject = none)
    (hbuilt : buildUnsigned event (s.db.tipRow event.systemId) toyWriter.keyId prepared = .ok unsigned)
    (hnew : ∀ organizationId, mode = .genesis organizationId →
      s.db.hasOwner organizationId = true ∧ ∀ r ∈ s.db.systems, r.systemId ≠ event.systemId) :
    ∃ (receipt : Receipt) (db : Database), receipt.toUnsignedReceipt = unsigned ∧
      Writes positionCrypto u toyWriter s.db event mode toyReplies.first prepared receipt db ∧
      receipt.seq.1 ≤ n := by
  have hrecords := records_of_buildUnsigned _ _ _ _ hbuilt
  have hlast := h.seqAfter_le event.systemId
  have hseq : unsigned.seq.1 = seqAfter (s.db.tipRow event.systemId) := by
    have hdouble : IsDouble ((seqAfter (s.db.tipRow event.systemId) : ℕ) : ℚ) := isDouble_natCast (by omega)
    have hfin := hrecords.seq
    rw [JsNumber.ofNat_of_isDouble hdouble, JsNumber.fin.injEq] at hfin
    exact_mod_cast hfin.symm
  have htrace : unsigned.source.traceId = none := by
    have hinput := congrArg SourceInput.traceId hrecords.source
    rw [hspan] at hinput
    exact Option.map_eq_none_iff.mp hinput
  refine ⟨{ unsigned with sig := ⟨base64Encode (List.replicate 64 0), by decide⟩ }, _, rfl,
    ⟨hdup, hplaced, hprepared, hbuilt, rfl, rfl, ?_, hnew, ?_, rfl⟩, hseq ▸ hlast⟩
  · rw [hnobody]
    rintro row ⟨⟩
  · refine h.noClash hn ?_ ?_ htrace
    · exact hrecords.systemId ▸ hsystem
    · show unsigned.seq.1 = seqAfter (s.db.tipRow unsigned.systemId)
      rw [hrecords.systemId, hseq]

/-- The chain is one receipt longer. -/
theorem wrote (h : Tame n s) {event : ChainEvent} {mode : WriteMode} {attempt : Attempt} {prepared : Prepared}
    {receipt : Receipt} {db : Database} (hsystem : IsToySystem event.systemId) (hnobody : prepared.subject = none)
    (hwrites : Writes positionCrypto u toyWriter s.db event mode attempt prepared receipt db)
    (hlast : receipt.seq.1 ≤ n) {s' : Store} (hreceipts : s'.db.receipts = db.receipts)
    (hopenings : s'.db.openings = db.openings) (hsystems : s'.db.systems = db.systems)
    (hsubjects : s'.db.subjects = db.subjects) : Tame (n + 1) s' := by
  have hadded : db.receipts = s.db.receipts ++ [receiptRow positionCrypto receipt] := by
    rw [hwrites.db_eq]
    rfl
  have hid : receipt.systemId = event.systemId := (records_of_buildUnsigned _ _ _ _ hwrites.built).systemId
  have hrow : ∀ row ∈ s'.db.receipts, row ∈ s.db.receipts ∨ row = receiptRow positionCrypto receipt := by
    intro row hmem
    rw [hreceipts, hadded] at hmem
    exact (List.mem_append.mp hmem).imp_right List.mem_singleton.mp
  refine ⟨(h.whole.wrote hwrites).frame hreceipts ?_ ?_, ?_, fun row hmem => ?_, fun row hmem => ?_⟩
  · exact hopenings ▸ List.Subset.refl _
  · rw [hsystems]
  · rw [hsubjects, hwrites.db_eq]
    show s.db.subjects ++ prepared.subject.toList = []
    rw [hnobody, h.subjects]
    rfl
  · rcases hrow row hmem with hold | rfl
    · exact h.systems row hold
    · have hown : IsToySystem receipt.systemId := hid ▸ hsystem
      exact hown
  · rcases hrow row hmem with hold | rfl
    · exact Nat.lt_succ_of_lt (h.short row hold)
    · exact Nat.lt_succ_of_le hlast

/-- **The signer signs what the server writes by itself**, on a chain that is there. -/
theorem takes (h : Tame n s) (change : Change) (hn : n < 16) (hsystem : IsToySystem systemId) (htip : s.db.tipRow systemId ≠ none)
    (hts : IsTimestamp tsEvent) : ∃ receipt db,
      Writes positionCrypto u toyWriter s.db (change.event systemId tsEvent tsReceived outcome source) .continuation
        toyReplies.first serversPrepared receipt db ∧ receipt.seq.1 ≤ n := by
  obtain ⟨tip, htip⟩ := Option.ne_none_iff_exists'.mp htip
  have hlast : tip.seq.1 + 1 ≤ n := by
    have hle := h.seqAfter_le systemId
    rwa [htip] at hle
  have hdigits : ∀ m ≤ 16, jsonSize (.num (.ofNat m)) ≤ 2 := by decide +kernel
  have hsize : jsonSize (unsignedJson (change.event systemId tsEvent tsReceived outcome source) (some tip)
      toyWriter.keyId serversPrepared) ≤ 600 + quotedSize systemId.1 + _ := Change.size hts tip toyWriter.keyId
  have hdigit := hdigits (tip.seq.1 + 1) (by omega)
  have hmax : MAX_RECEIPT_BYTES = 196608 := rfl
  have hshort := hsystem.short.2
  obtain ⟨unsigned, hbuilt⟩ : ∃ unsigned, buildUnsigned (change.event systemId tsEvent tsReceived outcome source)
      (some tip) toyWriter.keyId serversPrepared = .ok unsigned := by
    refine buildUnsigned_isOk.mpr ⟨?_, Change.fits hts, Change.wellFormed hts hsystem.short.1 _ _, by omega⟩
    have hdouble : IsDouble ((tip.seq.1 + 1 : ℕ) : ℚ) := isDouble_natCast (by omega)
    exact ⟨⟨tip.seq.1 + 1, hdouble, Nat.zero_le _⟩, JsNumber.ofNat_of_isDouble hdouble⟩
  have htip' : s.db.tipRow (change.event systemId tsEvent tsReceived outcome source).systemId = some tip := htip
  obtain ⟨receipt, db, -, hwrites, hle⟩ := h.writes (u := u) (by omega) hsystem rfl
    (duplicateRow_of_no_span rfl s.db) (by rw [htip']; rfl) (Change.prepared _ _) rfl (htip'.symm ▸ hbuilt)
    (by rintro o ⟨⟩)
  exact ⟨receipt, db, hwrites, hle⟩

/-- **What the server writes by itself is written** on a chain that is there. -/
theorem record (h : Tame n s) (hn : n < 16) (hsystem : IsToySystem systemId)
    (htip : s.db.tipRow systemId ≠ none) (hts : IsTimestamp tsEvent) (seen : List SubjectRow) (row : ConnectionRow) :
    ∃ receipt s', recordConnection positionCrypto u toyWriter s seen row
        (some (change.event systemId tsEvent tsReceived outcome source, toyRandomness, toyReplies))
          = (s', .ok (some receipt)) ∧
      Tame (n + 1) s' ∧ s'.db.systems = s.db.systems ∧
      s'.db.connections = savedConnections row s.db.connections ∧
      s'.db.receipts = s.db.receipts ++ [receiptRow positionCrypto receipt] ∧
      receipt.systemId = systemId := by
  obtain ⟨receipt, db, hwrites, hle⟩ : ∃ receipt db, Writes positionCrypto u toyWriter s.db
      (change.event systemId tsEvent tsReceived outcome source) .continuation toyReplies.first serversPrepared
      receipt db ∧ receipt.seq.1 ≤ n := h.takes change hn hsystem htip hts
  have hid : receipt.systemId = systemId := (records_of_buildUnsigned _ _ _ _ hwrites.built).systemId
  have hdb := hwrites.db_eq
  have hconnections : db.connections = s.db.connections := by
    rw [hdb]
    rfl
  have hreceipts : db.receipts = s.db.receipts ++ [receiptRow positionCrypto receipt] := by
    rw [hdb]
    rfl
  have hsystems : db.systems = s.db.systems := by
    rw [hdb]
    rfl
  refine ⟨receipt, { s with
      db := { db with connections := savedConnections row db.connections }
      history := s.history ++ [.wrote (change.event systemId tsEvent tsReceived outcome source) serversPrepared receipt] },
    ?_, h.wrote hsystem rfl hwrites hle rfl rfl rfl rfl, hsystems, ?_, hreceipts, hid⟩
  · rw [recordConnection, if_neg (not_not.mpr (Change.event_named _ _ _ _ _ _)),
      Change.checked change hts hsystem.short.1 hsystem.short.2, writeReceipt]
    dsimp only
    rw [attemptReceipt_of_writes h.whole hwrites, saveConnection_eq]
  · rw [← hconnections]

theorem genesis_built (hsystem : IsToySystem systemId) : ∃ unsigned,
    buildUnsigned (genesisEvent systemId newYear) none toyWriter.keyId (toyPrepared systemId.1) = .ok unsigned := by
  have hzero : ∃ m : Count, JsNumber.ofNat (seqAfter none) = .fin m.1 m.2.1 :=
    ⟨⟨0, by decide +kernel⟩, JsNumber.ofNat_of_isDouble _⟩
  have hfits : TextFits MAX_NAME systemId.1 → Fits (genesisEvent systemId newYear) (toyPrepared systemId.1) :=
    fun hname => ⟨newYear.2, ⟨hname, by rintro t ⟨⟩⟩, hname, ⟨by rintro t ⟨⟩, rfl⟩, ⟨by rintro t ⟨⟩, rfl⟩,
      SourceInput.fits_iff.mpr ⟨⟨.api, none, none⟩, rfl⟩, by rintro list ⟨⟩, by rintro m ⟨⟩⟩
  rcases hsystem with rfl | rfl
  · exact buildUnsigned_isOk.mpr ⟨hzero, hfits (by decide), by decide +kernel, by decide +kernel⟩
  · exact buildUnsigned_isOk.mpr ⟨hzero, hfits (by decide), by decide +kernel, by decide +kernel⟩

/-- **A toy system is opened** for whom it belongs to, whatever others there are. -/
theorem createFor (h : Tame n s) {organizationId : Option JsString} (howner : s.db.hasOwner organizationId = true)
    (hn : n < 256) (hsystem : IsToySystem systemId) (htip : s.db.tipRow systemId = none)
    (hnew : ∀ r ∈ s.db.systems, r.systemId ≠ systemId) (hnever : s.db.deletionOf systemId = none) :
    ∃ receipt s', createSystem positionCrypto u toyWriter s systemId newYear organizationId toyReplies
        = (s', .ok receipt) ∧
      Tame (n + 1) s' ∧ s'.db.systems = s.db.systems ++ [⟨systemId, newYear, organizationId, none, none⟩] ∧
      s'.db.connections = s.db.connections ∧ s'.db.adminLog = s.db.adminLog ∧
      s'.db.receipts = s.db.receipts ++ [receiptRow positionCrypto receipt] ∧ receipt.systemId = systemId := by
  obtain ⟨unsigned, hbuilt⟩ := genesis_built hsystem
  have htip' : s.db.tipRow (genesisEvent systemId newYear).systemId = none := htip
  obtain ⟨receipt, db, -, hwrites, hle⟩ : ∃ (receipt : Receipt) (db : Database), receipt.toUnsignedReceipt = unsigned ∧
      Writes positionCrypto u toyWriter s.db (genesisEvent systemId newYear) (.genesis organizationId) toyReplies.first
        (toyPrepared systemId.1) receipt db ∧ receipt.seq.1 ≤ n :=
    h.writes hn hsystem rfl rfl (by rw [htip']; rfl) rfl rfl (htip'.symm ▸ hbuilt)
      (fun _ hmode => WriteMode.genesis.inj hmode ▸ ⟨howner, hnew⟩)
  have hid : receipt.systemId = systemId := (records_of_buildUnsigned _ _ _ _ hwrites.built).systemId
  have hinsert := insertReceipt_of_writes hwrites (h.whole.no_openings hwrites.noClash)
  have hdb := hwrites.db_eq
  refine ⟨receipt, { s with
      db, history := s.history ++ [.wrote (genesisEvent systemId newYear) (toyPrepared systemId.1) receipt] },
    ?_, h.wrote hsystem rfl hwrites hle rfl rfl rfl rfl, ?_, ?_, ?_, ?_, hid⟩
  · rw [createSystem, if_neg (not_not.mpr howner), hnever]
    simp only
    rw [writeReceipt, attemptReceipt, hinsert]
    rfl
  · rw [hdb]
    rfl
  · rw [hdb]
    rfl
  · rw [hdb]
    rfl
  · rw [hdb]
    rfl

theorem create (h : Tame n s) (hn : n < 256) (hsystem : IsToySystem systemId) (htip : s.db.tipRow systemId = none)
    (hnew : ∀ r ∈ s.db.systems, r.systemId ≠ systemId) (hnever : s.db.deletionOf systemId = none) :
    ∃ receipt s', createSystem positionCrypto u toyWriter s systemId newYear none toyReplies = (s', .ok receipt) ∧
      Tame (n + 1) s' ∧ s'.db.systems = s.db.systems ++ [⟨systemId, newYear, none, none, none⟩] ∧
      s'.db.connections = s.db.connections ∧ s'.db.adminLog = s.db.adminLog ∧
      s'.db.receipts = s.db.receipts ++ [receiptRow positionCrypto receipt] ∧ receipt.systemId = systemId :=
  h.createFor rfl hn hsystem htip hnew hnever

end Tame

end Sigillo
