import Sigillo.PositionedEvents
import Sigillo.SpanAnswers

/-!
# Batches that are refused

`appendBatch` checks every event before the first is signed, and means to refuse a bad one with nothing
written. What is left to refuse where an event's turn comes is few things: its system has no chain, a
token is drawn a second time, the digits of its position take it past the largest receipt; and then
whatever is wrong with the signature. A batch is refused whole exactly where none of them comes after
something was signed or taken back (**`batch_refused_whole_iff`**). -/

namespace Sigillo

open DoubleArith Utf16Text JsonText JsonSchema HexBase64 IsoTime Fallible

variable (c : Crypto) (u : Unicode) (key : WriterKey)

-- ── One turn ─────────────────────────────────────────────────────────────────────

/-- **Why a checked event is refused at its turn**, before a signature is asked for. -/
inductive RefusedAt (db : Database) (event : ChainEvent) (random : Randomness) : Prop
  | noChain (tip : db.tipRow event.systemId = none)
  | tokenTaken (prepared : Prepared) (row : SubjectRow)
      (becomes : prepare c u db.subjects event random = .ok prepared) (first : prepared.subject = some row)
      (taken : ∃ known ∈ db.subjects, known.token = row.token)
  | tooLarge (prepared : Prepared) (becomes : prepare c u db.subjects event random = .ok prepared)
      (large : MAX_RECEIPT_BYTES < jsonSize (unsignedJson event (db.tipRow event.systemId) key.keyId prepared))

/-- A signature was asked for. -/
def Asked (db : Database) (event : ChainEvent) (random : Randomness) (unsigned : UnsignedReceipt) : Prop :=
  ∃ db' prepared, draftReceipt c u key db event .continuation random = .ok (db', .unsigned prepared unsigned)

/-- The signer returned a signature that is none of the receipt's, or of a receipt that cannot stand
    beside those there. -/
def Spoilt (db : Database) (event : ChainEvent) (attempt : Attempt) : Prop :=
  ∃ unsigned sig, Asked c u key db event attempt.random unsigned ∧ attempt.reply = .ok sig ∧
    ∀ receipt, checkedReceipt c key unsigned sig = .ok receipt →
      ∃ row ∈ db.receipts, Database.Clash row (receiptRow c receipt)

variable {c u key} {db : Database} {event : ChainEvent} {seen : List SubjectRow} {checked : Randomness}

/-- A person seen for the first time is under no identifier yet. -/
theorem fresh_identifier {subjects : List SubjectRow} {random : Randomness} {prepared : Prepared}
    (h : prepare c u subjects event random = .ok prepared) {row : SubjectRow} (hrow : prepared.subject = some row) :
    ∀ known ∈ subjects, known.identifier ≠ row.identifier := by
  obtain ⟨hactor, -⟩ := prepare_eq_ok.mp h
  rw [hrow, pseudonymous] at hactor
  cases hnamed : event.actor.onBehalfOf with
  | none => simp [hnamed] at hactor
  | some named =>
      rw [hnamed] at hactor
      by_cases htoken : isPseudonym named
      · simp [htoken] at hactor
      · simp only [if_neg htoken] at hactor
        cases hnormal : normaliseSubjectIdentifier u named with
        | error e => simp [hnormal] at hactor
        | ok identifier =>
            simp only [hnormal] at hactor
            cases hfind : subjects.find? fun row => row.identifier == identifier with
            | some known => simp [hfind] at hactor
            | none =>
                rw [hfind] at hactor
                have hsame := (Prod.mk.inj (Except.ok.inj hactor)).2
                intro known hknown heq
                rw [← Option.some.inj hsame] at heq
                exact List.find?_eq_none.mp hfind known hknown (beq_iff_eq.mpr heq)

/-- The next position of a chain is a number. -/
theorem Whole.seqAfter_fin (h : Whole c db) (systemId : SystemId) :
    ∃ n : Count, JsNumber.ofNat (seqAfter (db.tipRow systemId)) = .fin n.1 n.2.1 := by
  obtain ⟨chain, hchain⟩ := h.chains systemId
  rw [hchain.seqAfter]
  by_cases hfits : chain.length ≤ 2 ^ 53
  · exact ⟨⟨chain.length, isDouble_natCast hfits, Nat.zero_le _⟩, JsNumber.ofNat_of_isDouble _⟩
  · have hlength : chain.length = 2 ^ 53 + 1 := le_antisymm hchain.2.length_le (by omega)
    rw [hlength]
    exact ⟨⟨2 ^ 53, isDouble_natCast le_rfl, Nat.zero_le _⟩, by decide +kernel⟩

theorem draftReceipt_of {db' : Database} {random : Randomness} {prepared : Prepared} {unsigned : UnsignedReceipt}
    (hnew : duplicateRow db event .continuation = none)
    (hplaced : misplaced event .continuation (db.tipRow event.systemId) = none)
    (hprepared : prepare c u db.subjects event random = .ok prepared)
    (hseen : insertSeen db prepared.subject = .ok db')
    (hbuilt : buildUnsigned event (db.tipRow event.systemId) key.keyId prepared = .ok unsigned) :
    draftReceipt c u key db event .continuation random = .ok (db', .unsigned prepared unsigned) := by
  rw [draftReceipt, hnew]
  simp only [hplaced]
  exact bind_eq_ok.mpr ⟨prepared, mapError_eq_ok.mpr hprepared,
    bind_eq_ok.mpr ⟨db', hseen, bind_eq_ok.mpr ⟨unsigned, mapError_eq_ok.mpr hbuilt, rfl⟩⟩⟩

/-- **A signature is asked for a checked event exactly where nothing refuses it.** -/
theorem asked_iff (h : Whole c db) (hchecked : checkEvent c u seen key.keyId event checked = .ok ())
    (hnew : duplicateRow db event .continuation = none) {random : Randomness} :
    (∃ unsigned, Asked c u key db event random unsigned) ↔ ¬ RefusedAt c u key db event random := by
  have hseq := h.seqAfter_fin event.systemId
  constructor
  · rintro ⟨unsigned, db', prepared, hdraft⟩ hrefused
    obtain ⟨-, hplaced, hprepared, hseen, hbuilt⟩ := draftReceipt_unsigned hdraft
    have hsame : ∀ {other}, prepare c u db.subjects event random = .ok other → prepared = other := by
      intro other hother
      rw [hprepared] at hother
      exact Except.ok.inj hother
    cases hrefused with
    | noChain htip =>
        rw [htip] at hplaced
        cases hplaced
    | tokenTaken other row hother hfirst htaken =>
        obtain rfl := hsame hother
        obtain ⟨known, hknown, htoken⟩ := htaken
        rw [hfirst] at hseen
        exact ((Database.insertSubject_eq_ok.mp hseen).1 known hknown).1 htoken
    | tooLarge other hother hlarge =>
        obtain rfl := hsame hother
        obtain ⟨-, -, -, hsize⟩ := buildUnsigned_isOk.mp ⟨unsigned, hbuilt⟩
        exact absurd hsize (not_le.mpr hlarge)
  · intro hnot
    obtain ⟨p, hp⟩ := prepare_of_checked hchecked db.subjects random
    cases htip : db.tipRow event.systemId with
    | none => exact absurd (.noChain htip) hnot
    | some tip =>
        have hplaced : misplaced event .continuation (db.tipRow event.systemId) = none := by
          rw [htip]
          rfl
        obtain ⟨db', hseen⟩ : ∃ db', insertSeen db p.subject = .ok db' := by
          cases hfirst : p.subject with
          | none => exact ⟨db, rfl⟩
          | some row =>
              refine ⟨_, Database.insertSubject_eq_ok.mpr ⟨fun known hknown => ⟨fun hsame => ?_, ?_⟩, rfl⟩⟩
              · exact hnot (.tokenTaken p row hp hfirst ⟨known, hknown, hsame⟩)
              · exact fresh_identifier hp hfirst known hknown
        have hsize : jsonSize (unsignedJson event (some tip) key.keyId p) ≤ MAX_RECEIPT_BYTES := by
          by_contra hlarge
          exact hnot (.tooLarge p hp (htip ▸ not_le.mp hlarge))
        rw [htip] at hseq
        obtain ⟨unsigned, hbuilt⟩ := (buildUnsigned_at hchecked hseq hp).mpr hsize
        exact ⟨unsigned, db', p, draftReceipt_of hnew hplaced hp hseen (htip ▸ hbuilt)⟩

/-- A draft that is neither of a span that is there nor refused is put to the signer. -/
theorem asked_or_error (key : WriterKey) (hnew : duplicateRow db event .continuation = none) (random : Randomness) :
    (∃ unsigned, Asked c u key db event random unsigned) ∨
      ∃ e, draftReceipt c u key db event .continuation random = .error e := by
  cases hdraft : draftReceipt c u key db event .continuation random with
  | error e => exact .inr ⟨e, rfl⟩
  | ok out =>
      obtain ⟨db', draft⟩ := out
      cases draft with
      | duplicate receipt =>
          obtain ⟨-, row, hrow, -⟩ := draftReceipt_duplicate hdraft
          rw [hnew] at hrow
          cases hrow
      | unsigned prepared unsigned => exact .inl ⟨unsigned, db', prepared, hdraft⟩

/-- **One attempt at a checked event that is not there yet**: what it comes to. -/
inductive AttemptOutcome (c : Crypto) (u : Unicode) (key : WriterKey) (db : Database) (event : ChainEvent)
    (attempt : Attempt) : Except StoreError (Database × Written) → Prop
  | refused (e : StoreError) (why : RefusedAt c u key db event attempt.random) (events : ¬ e.IsSigners) :
      AttemptOutcome c u key db event attempt (.error e)
  | unanswered (unsigned : UnsignedReceipt) (e : StoreError) (asked : Asked c u key db event attempt.random unsigned)
      (reply : attempt.reply = .error e) : AttemptOutcome c u key db event attempt (.error e)
  | spoilt (e : StoreError) (why : Spoilt c u key db event attempt) (events : ¬ e.IsSigners) :
      AttemptOutcome c u key db event attempt (.error e)
  | written (prepared : Prepared) (receipt : Receipt) (db' : Database)
      (writes : Writes c u key db event .continuation attempt prepared receipt db')
      (asked : Asked c u key db event attempt.random receipt.toUnsignedReceipt)
      (sound : ¬ Spoilt c u key db event attempt) :
      AttemptOutcome c u key db event attempt (.ok (db', .new prepared receipt))

/-- What is written was put to the signer. -/
theorem Writes.asked {attempt : Attempt} {prepared : Prepared} {receipt : Receipt} {db' : Database}
    (h : Writes c u key db event .continuation attempt prepared receipt db') :
    Asked c u key db event attempt.random receipt.toUnsignedReceipt := by
  have hseen : ∃ db₁, insertSeen db prepared.subject = .ok db₁ := by
    cases hfirst : prepared.subject with
    | none => exact ⟨db, rfl⟩
    | some row => exact ⟨_, Database.insertSubject_eq_ok.mpr ⟨h.newSubject row hfirst, rfl⟩⟩
  obtain ⟨db₁, hseen⟩ := hseen
  exact ⟨db₁, prepared, draftReceipt_of h.notDuplicate h.placed h.prepared_eq hseen h.built⟩

/-- A receipt is asked for once an attempt. -/
theorem Asked.unique {random : Randomness} {a b : UnsignedReceipt} (ha : Asked c u key db event random a)
    (hb : Asked c u key db event random b) : a = b := by
  obtain ⟨_, _, ha⟩ := ha
  obtain ⟨_, _, hb⟩ := hb
  rw [ha] at hb
  exact (Draft.unsigned.inj (Prod.mk.inj (Except.ok.inj hb)).2).2

/-- Openings belong to receipts that are there. -/
theorem Whole.no_openings (h : Whole c db) {receipt : Receipt}
    (hclash : ∀ row ∈ db.receipts, ¬ Database.Clash row (receiptRow c receipt)) :
    ∀ o ∈ db.openings, ¬ (o.systemId = receipt.systemId ∧ o.seq = receipt.seq) := by
  rintro o ho ⟨hsystem, hseq⟩
  obtain ⟨row, hrow, hrowSystem, hrowSeq⟩ := h.openings o ho
  exact hclash row hrow (.inl ⟨hrowSystem.trans hsystem, hrowSeq.trans hseq⟩)

/-- **What an attempt at a checked event that is not there yet comes to.** -/
theorem insertReceipt_outcome (h : Whole c db) (hchecked : checkEvent c u seen key.keyId event checked = .ok ())
    (hnew : duplicateRow db event .continuation = none) (attempt : Attempt) :
    AttemptOutcome c u key db event attempt (insertReceipt c u key db event .continuation attempt) := by
  cases hinsert : insertReceipt c u key db event .continuation attempt with
  | error e =>
      rcases asked_or_error (c := c) (u := u) key hnew attempt.random with ⟨unsigned, hasked⟩ | ⟨e', hdraft⟩
      · cases hreply : attempt.reply with
        | error e' =>
            obtain ⟨db₁, prepared, hdraft⟩ := hasked
            have hfailed : insertReceipt c u key db event .continuation attempt = .error e' :=
              bind_eq_error.mpr (.inr ⟨_, hdraft, bind_eq_error.mpr (.inl hreply)⟩)
            rw [hinsert] at hfailed
            obtain rfl := Except.error.inj hfailed
            exact .unanswered unsigned e ⟨db₁, prepared, hdraft⟩ hreply
        | ok sig =>
            refine .spoilt e ⟨unsigned, sig, hasked, hreply, fun receipt hreceipt => ?_⟩ fun hsigners => ?_
            · -- a sound signature on a receipt that is new would have been written
              by_contra hno
              push Not at hno
              obtain ⟨db₁, prepared, hdraft⟩ := hasked
              obtain ⟨-, hplaced, hprepared, hseen, hbuilt⟩ := draftReceipt_unsigned hdraft
              obtain ⟨rfl, rfl, hverified⟩ := checkedReceipt_ok hreceipt
              have hsubject : ∀ row ∈ prepared.subject, ∀ r ∈ db.subjects,
                  r.token ≠ row.token ∧ r.identifier ≠ row.identifier := by
                intro row hrow
                rw [show prepared.subject = some row from hrow] at hseen
                exact (Database.insertSubject_eq_ok.mp hseen).1
              have hwrites := insertReceipt_of_writes ⟨hnew, hplaced, hprepared, hbuilt, hreply, hverified, hsubject,
                (fun o ho => by cases ho), hno, rfl⟩ (h.no_openings hno)
              rw [hinsert] at hwrites
              cases hwrites
            · obtain ⟨hrefused, -⟩ := insertReceipt_signers hinsert hsigners
              rw [hreply] at hrefused
              cases hrefused
      · have hnot : RefusedAt c u key db event attempt.random := by
          by_contra hnot
          obtain ⟨unsigned, db₁, prepared, hasked⟩ := (asked_iff h hchecked hnew).mpr hnot
          rw [hdraft] at hasked
          cases hasked
        have hfailed : insertReceipt c u key db event .continuation attempt = .error e' :=
          bind_eq_error.mpr (.inl hdraft)
        rw [hinsert] at hfailed
        obtain rfl := Except.error.inj hfailed
        exact .refused e hnot (draftReceipt_error hdraft)
  | ok out =>
      obtain ⟨db', written⟩ := out
      cases written with
      | duplicate receipt =>
          obtain ⟨-, row, hrow, -⟩ := insertReceipt_duplicate hinsert
          rw [hnew] at hrow
          cases hrow
      | new prepared receipt =>
          have hwrites := insertReceipt_new hinsert
          refine .written prepared receipt db' hwrites hwrites.asked ?_
          rintro ⟨unsigned, sig, hasked, hreply, hall⟩
          rw [hwrites.replied] at hreply
          have hsound : checkedReceipt c key unsigned sig = .ok receipt := by
            rw [hasked.unique hwrites.asked, ← Except.ok.inj hreply, checkedReceipt, dif_pos receipt.sig.2]
            exact if_pos hwrites.verified
          obtain ⟨row, hrow, hclash⟩ := hall receipt hsound
          exact hwrites.noClash row hrow hclash

-- ── The turn of an event ─────────────────────────────────────────────────────────

/-- An attempt ends before a signature is returned, and not by the signer's refusal. -/
def Stopped (c : Crypto) (u : Unicode) (key : WriterKey) (db : Database) (event : ChainEvent)
    (attempt : Attempt) : Prop :=
  RefusedAt c u key db event attempt.random ∨
    ∃ unsigned e, Asked c u key db event attempt.random unsigned ∧ attempt.reply = .error e ∧ ¬ e.IsSigners

/-- The signer refused the position, and the chain was compared with it. -/
def Compared (c : Crypto) (u : Unicode) (key : WriterKey) (s : Store) (event : ChainEvent)
    (replies : SignerReplies) (result : Store × Except StoreError ReconcileOutcome) : Prop :=
  (∃ unsigned, Asked c u key s.db event replies.first.random unsigned) ∧
    (∃ message, replies.first.reply = .error (.signerRefused .sequence message)) ∧
    reconcileNow c key s event.systemId replies.view = result

/-- **An event is turned away with nothing done for it**: at once, or where the receipts its chain is
    missing cannot be inserted. -/
def TurnedAway (c : Crypto) (u : Unicode) (key : WriterKey) (s : Store) (event : ChainEvent)
    (replies : SignerReplies) : Prop :=
  Stopped c u key s.db event replies.first ∨
    ∃ s' e, Compared c u key s event replies (s', .error e) ∧ ¬ e.IsSigners

/-- **An event is turned away too late**: its signature was returned, or its chain took receipts back. -/
def TurnedAwayLate (c : Crypto) (u : Unicode) (key : WriterKey) (s : Store) (event : ChainEvent)
    (replies : SignerReplies) : Prop :=
  Spoilt c u key s.db event replies.first ∨
    ∃ s₂ seq hash count, Compared c u key s event replies (s₂, .ok (.recovered seq hash count)) ∧
      duplicateRow s₂.db event .continuation = none ∧
      (Stopped c u key s₂.db event replies.again ∨ Spoilt c u key s₂.db event replies.again)

/-- What an attempt had signed. -/
def signedBy (c : Crypto) (u : Unicode) (key : WriterKey) (db : Database) (event : ChainEvent)
    (attempt : Attempt) : List UnsignedReceipt :=
  match draftReceipt c u key db event .continuation attempt.random, attempt.reply with
  | .ok (_, .unsigned _ unsigned), .ok _ => [unsigned]
  | _, _ => []

/-- What was signed at the turn of an event. -/
def signedInTurn (c : Crypto) (u : Unicode) (key : WriterKey) (s : Store) (event : ChainEvent)
    (replies : SignerReplies) : List UnsignedReceipt :=
  match attemptReceipt c u key s event .continuation .ok replies.first with
  | (s, .error (.signerRefused .sequence _)) =>
      match reconcileNow c key s event.systemId replies.view with
      | (s, .ok (.recovered ..)) => signedBy c u key s.db event replies.again
      | _ => []
  | _ => signedBy c u key s.db event replies.first

/-- Something was signed, or a receipt was written. -/
def Touched (s s' : Store) (signed : List UnsignedReceipt) : Prop :=
  signed ≠ [] ∨ ∃ row ∈ s'.db.receipts, row ∉ s.db.receipts

/-- **One turn of an event that is not there yet**: what it comes to. -/
inductive TurnOutcome (c : Crypto) (u : Unicode) (key : WriterKey) (s : Store) (event : ChainEvent)
    (replies : SignerReplies) : Store × Except StoreError Receipt → Prop
  | away (e : StoreError) (why : TurnedAway c u key s event replies) (events : ¬ e.IsSigners)
      (signed : signedInTurn c u key s event replies = []) : TurnOutcome c u key s event replies (s, .error e)
  | unanswered (s' : Store) (e : StoreError) (signers : e.IsSigners) (notAway : ¬ TurnedAway c u key s event replies)
      (notLate : ¬ TurnedAwayLate c u key s event replies) : TurnOutcome c u key s event replies (s', .error e)
  | late (s' : Store) (e : StoreError) (why : TurnedAwayLate c u key s event replies)
      (notAway : ¬ TurnedAway c u key s event replies) (events : ¬ e.IsSigners)
      (touched : Touched s s' (signedInTurn c u key s event replies)) :
      TurnOutcome c u key s event replies (s', .error e)
  | answered (s' : Store) (receipt : Receipt) (notAway : ¬ TurnedAway c u key s event replies)
      (notLate : ¬ TurnedAwayLate c u key s event replies)
      (touched : Touched s s' (signedInTurn c u key s event replies)) :
      TurnOutcome c u key s event replies (s', .ok receipt)

theorem attemptReceipt_of_error {s : Store} {attempt : Attempt} {e : StoreError}
    (h : insertReceipt c u key s.db event .continuation attempt = .error e) :
    attemptReceipt c u key s event .continuation .ok attempt = (s, .error e) := by
  rw [attemptReceipt, h]
  rfl

theorem attemptReceipt_of_ok {s : Store} {attempt : Attempt} {db' : Database} {written : Written}
    (h : insertReceipt c u key s.db event .continuation attempt = .ok (db', written)) :
    attemptReceipt c u key s event .continuation .ok attempt =
      ({ s with db := db', history := s.history ++ written.happening event }, .ok written.receipt) := by
  rw [attemptReceipt, h]
  rfl

theorem signedBy_of_asked {attempt : Attempt} {unsigned : UnsignedReceipt} {sig : JsString}
    (h : Asked c u key db event attempt.random unsigned) (hreply : attempt.reply = .ok sig) :
    signedBy c u key db event attempt = [unsigned] := by
  obtain ⟨db', prepared, hdraft⟩ := h
  rw [signedBy, hdraft, hreply]

theorem signedBy_of_error {attempt : Attempt} {e : StoreError} (hreply : attempt.reply = .error e) :
    signedBy c u key db event attempt = [] := by
  rw [signedBy, hreply]
  cases draftReceipt c u key db event .continuation attempt.random with
  | error e => rfl
  | ok out =>
      obtain ⟨db', draft⟩ := out
      cases draft with
      | duplicate receipt => rfl
      | unsigned prepared unsigned => rfl

theorem signedBy_of_not_asked {attempt : Attempt} (h : ¬ ∃ unsigned, Asked c u key db event attempt.random unsigned) :
    signedBy c u key db event attempt = [] := by
  cases hdraft : draftReceipt c u key db event .continuation attempt.random with
  | error e => rw [signedBy, hdraft]
  | ok out =>
      obtain ⟨db', draft⟩ := out
      cases draft with
      | duplicate receipt => rw [signedBy, hdraft]
      | unsigned prepared unsigned => exact absurd ⟨unsigned, db', prepared, hdraft⟩ h

/-- A turn of one attempt. -/
theorem turn_single {s : Store} (replies : SignerReplies)
    (h : ∀ message, insertReceipt c u key s.db event .continuation replies.first
      ≠ .error (.signerRefused .sequence message)) :
    writeReceipt c u key s event .continuation .ok replies
        = attemptReceipt c u key s event .continuation .ok replies.first ∧
      signedInTurn c u key s event replies = signedBy c u key s.db event replies.first := by
  cases hinsert : insertReceipt c u key s.db event .continuation replies.first with
  | ok out =>
      obtain ⟨db', written⟩ := out
      rw [writeReceipt, signedInTurn, attemptReceipt_of_ok hinsert]
      exact ⟨rfl, rfl⟩
  | error e =>
      rw [writeReceipt, signedInTurn, attemptReceipt_of_error hinsert]
      cases e with
      | signerRefused code message =>
          cases code with
          | sequence => exact absurd hinsert (h message)
          | _ => exact ⟨rfl, rfl⟩
      | _ => exact ⟨rfl, rfl⟩

/-- A turn whose position the signer refused. -/
theorem turn_compared {s : Store} {replies : SignerReplies} {message : JsString}
    (h : insertReceipt c u key s.db event .continuation replies.first = .error (.signerRefused .sequence message)) :
    writeReceipt c u key s event .continuation .ok replies =
        (match reconcileNow c key s event.systemId replies.view with
        | (s, .error e) => (s, .error e)
        | (s, .ok (.recovered ..)) => attemptReceipt c u key s event .continuation .ok replies.again
        | (s, .ok (.diverged detail)) => (s, .error (.signerRefused .sequence (message ++ js "; " ++ detail)))
        | (s, .ok .inSync) => (s, .error (.signerRefused .sequence message))) ∧
      signedInTurn c u key s event replies =
        match reconcileNow c key s event.systemId replies.view with
        | (s, .ok (.recovered ..)) => signedBy c u key s.db event replies.again
        | _ => [] := by
  rw [writeReceipt, signedInTurn, attemptReceipt_of_error h]
  exact ⟨rfl, rfl⟩

/-- An attempt that was put to the signer and ended by its word alone is not stopped. -/
theorem Asked.not_stopped {attempt : Attempt} {unsigned : UnsignedReceipt} (hdb : Whole c db)
    (hchecked : checkEvent c u seen key.keyId event checked = .ok ())
    (hnew : duplicateRow db event .continuation = none)
    (h : Asked c u key db event attempt.random unsigned) (hreply : ∀ e, attempt.reply = .error e → e.IsSigners) :
    ¬ Stopped c u key db event attempt := by
  rintro (hrefused | ⟨_, e, -, he, hnot⟩)
  · exact (asked_iff hdb hchecked hnew).mp ⟨unsigned, h⟩ hrefused
  · exact hnot (hreply e he)

/-- An attempt without a signature spoils none. -/
theorem not_spoilt_of_error {attempt : Attempt} {e : StoreError} (hreply : attempt.reply = .error e) :
    ¬ Spoilt c u key db event attempt := by
  rintro ⟨_, sig, -, hsig, -⟩
  rw [hreply] at hsig
  cases hsig

/-- The receipts a chain takes back are new. -/
theorem exists_new_of_recovered {s s₂ : Store} {systemId : SystemId} {view : SignerView} {seq : Count}
    {hash : Hex 64} {count : ℕ} (h : reconcileNow c key s systemId view = (s₂, .ok (.recovered seq hash count)))
    (hs : Whole c s.db) : Whole c s₂.db ∧ ∃ row ∈ s₂.db.receipts, row ∉ s.db.receipts := by
  have hcases : Reconciles c key s systemId view (reconcileNow c key s systemId view) :=
    reconcileNow_reconciles s systemId view
  rw [h] at hcases
  cases hcases with
  | recovered head taken db ahead missing restored =>
      have hrestores := restores_of_foldlM restored
      refine ⟨hs.recovered missing hrestores, ?_⟩
      obtain ⟨last, hlast, -, -⟩ := missing.last
      obtain ⟨first, rest, rfl⟩ := List.exists_cons_of_ne_nil (List.ne_nil_of_mem (List.mem_of_getLast? hlast))
      refine ⟨receiptRow c first, ?_, fun hmem => ?_⟩
      · show _ ∈ db.receipts
        rw [hrestores.receipts]
        exact List.mem_append_right _ (List.mem_map_of_mem List.mem_cons_self)
      · exact hrestores.noClash [] first rest rfl _ (List.mem_append_left _ hmem) (.inl ⟨rfl, rfl⟩)

/-- An attempt that writes keeps the receipts there are. -/
theorem Writes.receipts_subset {attempt : Attempt} {prepared : Prepared} {receipt : Receipt} {db' : Database}
    (h : Writes c u key db event .continuation attempt prepared receipt db') : db.receipts ⊆ db'.receipts := by
  intro row hrow
  rw [h.db_eq]
  exact List.mem_append_left _ hrow

/-- **The second attempt of a turn**, once its chain took receipts back. -/
theorem turn_again {s s₂ : Store} {replies : SignerReplies} {message : JsString} {seq : Count} {hash : Hex 64}
    {count : ℕ} (hs : Whole c s.db) (hchecked : checkEvent c u seen key.keyId event checked = .ok ())
    (hnew : duplicateRow s.db event .continuation = none) {unsigned : UnsignedReceipt}
    (hasked : Asked c u key s.db event replies.first.random unsigned)
    (hreply : replies.first.reply = .error (.signerRefused .sequence message))
    (hview : reconcileNow c key s event.systemId replies.view = (s₂, .ok (.recovered seq hash count))) :
    TurnOutcome c u key s event replies (attemptReceipt c u key s₂ event .continuation .ok replies.again) := by
  obtain ⟨hwhole, row, hrow, hfresh⟩ := exists_new_of_recovered hview hs
  have hcompared : Compared c u key s event replies (s₂, .ok (.recovered seq hash count)) :=
    ⟨⟨unsigned, hasked⟩, ⟨message, hreply⟩, hview⟩
  have hnotAway : ¬ TurnedAway c u key s event replies := by
    rintro (hstopped | ⟨s', e, ⟨-, -, hother⟩, -⟩)
    · refine hasked.not_stopped hs hchecked hnew (fun e he => ?_) hstopped
      rw [hreply] at he
      rw [← Except.error.inj he]
      trivial
    · rw [hview] at hother
      cases hother
  -- what the second attempt comes to decides whether it is too late
  have hlate : TurnedAwayLate c u key s event replies → duplicateRow s₂.db event .continuation = none ∧
      (Stopped c u key s₂.db event replies.again ∨ Spoilt c u key s₂.db event replies.again) := by
    rintro (hspoilt | ⟨s₃, _, _, _, ⟨-, -, hother⟩, hdup, hwhy⟩)
    · exact absurd hspoilt (not_spoilt_of_error hreply)
    · rw [hview] at hother
      obtain rfl := (Prod.mk.inj hother).1
      exact ⟨hdup, hwhy⟩
  cases hdup : duplicateRow s₂.db event .continuation with
  | some found =>
      obtain ⟨r, rfl, -, -⟩ := hwhole.duplicateRow_eq_some.mp hdup
      have hinsert : insertReceipt c u key s₂.db event .continuation replies.again = .ok (s₂.db, .duplicate r) := by
        rw [insertReceipt, draftReceipt, hdup]
        simp only [rowToReceipt_receiptRow]
        rfl
      rw [attemptReceipt_of_ok hinsert]
      refine .answered _ _ hnotAway (fun h => ?_) (.inr ⟨row, hrow, hfresh⟩)
      rw [(hlate h).1] at hdup
      cases hdup
  | none =>
      have houtcome : AttemptOutcome c u key s₂.db event replies.again
          (insertReceipt c u key s₂.db event .continuation replies.again) :=
        insertReceipt_outcome hwhole hchecked hdup replies.again
      cases hinsert : insertReceipt c u key s₂.db event .continuation replies.again with
      | error e =>
          rw [hinsert] at houtcome
          rw [attemptReceipt_of_error hinsert]
          cases houtcome with
          | refused _ why events =>
              exact .late _ _ (.inr ⟨s₂, seq, hash, count, hcompared, hdup, .inl (.inl why)⟩) hnotAway events
                (.inr ⟨row, hrow, hfresh⟩)
          | spoilt _ why events =>
              exact .late _ _ (.inr ⟨s₂, seq, hash, count, hcompared, hdup, .inr why⟩) hnotAway events
                (.inr ⟨row, hrow, hfresh⟩)
          | unanswered other _ hagain hfailed =>
              by_cases he : e.IsSigners
              · refine .unanswered _ _ he hnotAway fun h => ?_
                rcases (hlate h).2 with hstopped | hspoilt
                · refine hagain.not_stopped hwhole hchecked hdup (fun e' he' => ?_) hstopped
                  rw [hfailed] at he'
                  rwa [← Except.error.inj he']
                · exact not_spoilt_of_error hfailed hspoilt
              · exact .late _ _ (.inr ⟨s₂, seq, hash, count, hcompared, hdup, .inl (.inr ⟨other, e, hagain, hfailed, he⟩)⟩)
                  hnotAway he (.inr ⟨row, hrow, hfresh⟩)
      | ok out =>
          obtain ⟨db', written⟩ := out
          rw [hinsert] at houtcome
          rw [attemptReceipt_of_ok hinsert]
          cases houtcome with
          | written prepared receipt _ writes hagain sound =>
              refine .answered _ _ hnotAway (fun h => ?_) (.inr ⟨row, writes.receipts_subset hrow, hfresh⟩)
              rcases (hlate h).2 with hstopped | hspoilt
              · refine hagain.not_stopped hwhole hchecked hdup (fun e he => ?_) hstopped
                rw [writes.replied] at he
                cases he
              · exact sound hspoilt

/-- Nothing is compared at a turn whose position the signer did not refuse. -/
theorem not_compared {s : Store} {replies : SignerReplies}
    (h : ∀ message, replies.first.reply ≠ .error (.signerRefused .sequence message))
    (result : Store × Except StoreError ReconcileOutcome) : ¬ Compared c u key s event replies result := by
  rintro ⟨-, ⟨message, hreply⟩, -⟩
  exact h message hreply

/-- **What the turn of an event that is not there yet comes to.** -/
theorem turn_outcome {s : Store} (hs : Whole c s.db) (hchecked : checkEvent c u seen key.keyId event checked = .ok ())
    (hnew : duplicateRow s.db event .continuation = none) (replies : SignerReplies) :
    TurnOutcome c u key s event replies (writeReceipt c u key s event .continuation .ok replies) := by
  have houtcome : AttemptOutcome c u key s.db event replies.first
      (insertReceipt c u key s.db event .continuation replies.first) :=
    insertReceipt_outcome hs hchecked hnew replies.first
  generalize hinsert : insertReceipt c u key s.db event .continuation replies.first = result at houtcome
  cases houtcome with
  | refused e why events =>
      obtain ⟨hwrite, hsigned⟩ := turn_single replies fun message heq => by
        rw [hinsert] at heq
        rw [Except.error.inj heq] at events
        exact events trivial
      rw [hwrite, attemptReceipt_of_error hinsert]
      refine .away e (.inl (.inl why)) events (hsigned.trans (signedBy_of_not_asked fun hasked => ?_))
      exact (asked_iff hs hchecked hnew).mp hasked why
  | spoilt e why events =>
      obtain ⟨hwrite, hsigned⟩ := turn_single replies fun message heq => by
        rw [hinsert] at heq
        rw [Except.error.inj heq] at events
        exact events trivial
      rw [hwrite, attemptReceipt_of_error hinsert]
      have hspoilt := why
      obtain ⟨unsigned, sig, hasked, hreply, -⟩ := why
      refine .late s e (.inl hspoilt) ?_ events (.inl ?_)
      · rintro (hstopped | ⟨s', e', hcompared, -⟩)
        · refine hasked.not_stopped hs hchecked hnew (fun e' he' => ?_) hstopped
          rw [hreply] at he'
          cases he'
        · refine not_compared (fun message heq => ?_) _ hcompared
          rw [hreply] at heq
          cases heq
      · rw [hsigned, signedBy_of_asked hasked hreply]
        exact List.cons_ne_nil _ _
  | written prepared receipt db' writes hasked sound =>
      obtain ⟨hwrite, hsigned⟩ := turn_single replies fun message heq => by
        rw [hinsert] at heq
        cases heq
      have hcompared : ∀ r, ¬ Compared c u key s event replies r := not_compared fun message heq => by
        rw [writes.replied] at heq
        cases heq
      rw [hwrite, attemptReceipt_of_ok hinsert]
      refine .answered _ _ ?_ ?_ (.inl ?_)
      · rintro (hstopped | ⟨s', e', hcomp, -⟩)
        · refine hasked.not_stopped hs hchecked hnew (fun e' he' => ?_) hstopped
          rw [writes.replied] at he'
          cases he'
        · exact hcompared _ hcomp
      · rintro (hspoilt | ⟨s₂, _, _, _, hcomp, -⟩)
        · exact sound hspoilt
        · exact hcompared _ hcomp
      · rw [hsigned, signedBy_of_asked hasked writes.replied]
        exact List.cons_ne_nil _ _
  | unanswered unsigned e hasked hreply =>
      by_cases hsequence : ∃ message, e = .signerRefused .sequence message
      · -- refused for its position: the chain is compared with the signer
        obtain ⟨message, rfl⟩ := hsequence
        have hnotStopped : ¬ Stopped c u key s.db event replies.first :=
          hasked.not_stopped hs hchecked hnew fun e he => by
            rw [hreply] at he
            rw [← Except.error.inj he]
            trivial
        obtain ⟨hwrite, hsigned⟩ := turn_compared (u := u) hinsert
        cases hview : reconcileNow c key s event.systemId replies.view with
        | mk s₂ answer =>
            have hcompared : Compared c u key s event replies (s₂, answer) :=
              ⟨⟨unsigned, hasked⟩, ⟨message, hreply⟩, hview⟩
            rw [hview] at hwrite hsigned
            rw [hwrite]
            -- without a recovery nothing comes too late
            have hnotLate : (∀ seq hash count, answer ≠ .ok (.recovered seq hash count)) →
                ¬ TurnedAwayLate c u key s event replies := by
              rintro hno (hspoilt | ⟨s₃, seq, hash, count, ⟨-, -, hother⟩, -⟩)
              · exact not_spoilt_of_error hreply hspoilt
              · rw [hview] at hother
                exact hno seq hash count (Prod.mk.inj hother).2
            have hnotAway : (∀ e, answer = .error e → e.IsSigners) → ¬ TurnedAway c u key s event replies := by
              rintro hall (hstopped | ⟨s₃, e', ⟨-, -, hother⟩, hnot⟩)
              · exact hnotStopped hstopped
              · rw [hview] at hother
                exact hnot (hall e' (Prod.mk.inj hother).2)
            cases answer with
            | error e' =>
                have hcases : Reconciles c key s event.systemId replies.view (s₂, .error e') :=
                  hview ▸ reconcileNow_reconciles s event.systemId replies.view
                cases hcases with
                | failed =>
                    by_cases he : e'.IsSigners
                    · refine .unanswered _ _ he (hnotAway fun e heq => ?_) (hnotLate fun _ _ _ heq => ?_)
                      · rwa [← Except.error.inj heq]
                      · cases heq
                    · exact .away _ (.inr ⟨s, e', hcompared, he⟩) he hsigned
            | ok outcome =>
                have hall : ∀ e, (Except.ok outcome : Except StoreError ReconcileOutcome) = .error e → e.IsSigners := by
                  intro e heq
                  cases heq
                cases outcome with
                | inSync => exact .unanswered _ _ trivial (hnotAway hall) (hnotLate fun _ _ _ heq => by cases heq)
                | diverged detail =>
                    exact .unanswered _ _ trivial (hnotAway hall) (hnotLate fun _ _ _ heq => by cases heq)
                | recovered seq hash count => exact turn_again hs hchecked hnew hasked hreply hview
      · obtain ⟨hwrite, hsigned⟩ := turn_single replies fun message heq => by
          rw [hinsert] at heq
          exact hsequence ⟨message, Except.error.inj heq⟩
        have hcompared : ∀ r, ¬ Compared c u key s event replies r := not_compared fun message heq => by
          rw [hreply] at heq
          exact hsequence ⟨message, Except.error.inj heq⟩
        rw [hwrite, attemptReceipt_of_error hinsert]
        by_cases he : e.IsSigners
        · refine .unanswered _ _ he ?_ ?_
          · rintro (hstopped | ⟨s', e', hcomp, -⟩)
            · refine hasked.not_stopped hs hchecked hnew (fun e' he' => ?_) hstopped
              rw [hreply] at he'
              rwa [← Except.error.inj he']
            · exact hcompared _ hcomp
          · rintro (hspoilt | ⟨s₂, _, _, _, hcomp, -⟩)
            · exact not_spoilt_of_error hreply hspoilt
            · exact hcompared _ hcomp
        · exact .away _ (.inl (.inr ⟨unsigned, e, hasked, hreply, he⟩)) he
            (hsigned.trans (signedBy_of_error hreply))

-- ── A batch ──────────────────────────────────────────────────────────────────────

/-- What a batch is refused for before its first event is signed. -/
def batchRefusal (c : Crypto) (u : Unicode) (key : WriterKey) (seen : List SubjectRow)
    (events : List (ChainEvent × Randomness × SignerReplies)) : Option StoreError :=
  (events.findSome? fun e => if e.1.action.kind = .genesis then refusedEvent e.1 else none).orElse
    fun _ => (events.findSome? fun e => refusedEvent e.1).orElse
      fun _ => events.findSome? fun e => refusedBefore c u key seen e.1 e.2.1

/-- No event that is not there yet is turned away at its turn. -/
def Settled (c : Crypto) (u : Unicode) (key : WriterKey) : Store → List (ChainEvent × SignerReplies) → Prop
  | _, [] => True
  | s, (event, replies) :: rest =>
      (duplicateRow s.db event .continuation = none →
        ¬ TurnedAway c u key s event replies ∧ ¬ TurnedAwayLate c u key s event replies) ∧
      ∀ s' receipt, writeReceipt c u key s event .continuation .ok replies = (s', .ok receipt) →
        Settled c u key s' rest

/-- **The first event that is not there yet may be turned away, with nothing done for it; no event that
    comes after may.** -/
def RefusedWhole (c : Crypto) (u : Unicode) (key : WriterKey) (s : Store) :
    List (ChainEvent × SignerReplies) → Prop
  | [] => True
  | (event, replies) :: rest =>
      if duplicateRow s.db event .continuation = none then
        TurnedAway c u key s event replies ∨ (¬ TurnedAwayLate c u key s event replies ∧
          ∀ s' receipt, writeReceipt c u key s event .continuation .ok replies = (s', .ok receipt) →
            Settled c u key s' rest)
      else RefusedWhole c u key s rest

/-- What was signed at the turns of a batch, until one fails. -/
def signedInTurns (c : Crypto) (u : Unicode) (key : WriterKey) :
    Store → List (ChainEvent × SignerReplies) → List UnsignedReceipt
  | _, [] => []
  | s, (event, replies) :: rest =>
      signedInTurn c u key s event replies ++
        match writeReceipt c u key s event .continuation .ok replies with
        | (s, .ok _) => signedInTurns c u key s rest
        | _ => []

/-- What was signed for a batch. -/
def signedInBatch (c : Crypto) (u : Unicode) (key : WriterKey) (s : Store) (seen : List SubjectRow)
    (events : List (ChainEvent × Randomness × SignerReplies)) : List UnsignedReceipt :=
  match batchRefusal c u key seen events with
  | some _ => []
  | none => signedInTurns c u key s (events.map fun e => (e.1, e.2.2))

/-- **Nothing came of it**: no row of a receipt, a person, a nonce or an artifact, and no signature. -/
structure Untouched (s s' : Store) (signed : List UnsignedReceipt) : Prop where
  receipts : s'.db.receipts = s.db.receipts
  subjects : s'.db.subjects = s.db.subjects
  openings : s'.db.openings = s.db.openings
  artifacts : s'.db.artifacts = s.db.artifacts
  unsigned : signed = []

theorem Untouched.not_touched {s s' : Store} {signed : List UnsignedReceipt} (h : Untouched s s' signed) :
    ¬ Touched s s' signed := by
  rintro (hsigned | ⟨row, hrow, hfresh⟩)
  · exact hsigned h.unsigned
  · exact hfresh (h.receipts ▸ hrow)

theorem appendBatch_eq (s : Store) (events : List (ChainEvent × Randomness × SignerReplies)) :
    appendBatch c u key s seen events =
      match batchRefusal c u key seen events with
      | some e => (s, .error e)
      | none => writeBatch c u key s (events.map fun e => (e.1, e.2.2)) := rfl

/-- An event whose span is there is answered with the receipt of it, and nothing is signed. -/
theorem turn_duplicate (key : WriterKey) {s : Store} (hs : Whole c s.db) (replies : SignerReplies)
    (h : duplicateRow s.db event .continuation ≠ none) : ∃ r,
    writeReceipt c u key s event .continuation .ok replies = (s, .ok r) ∧
      signedInTurn c u key s event replies = [] := by
  obtain ⟨row, hrow⟩ := Option.ne_none_iff_exists'.mp h
  obtain ⟨r, rfl, -, -⟩ := hs.duplicateRow_eq_some.mp hrow
  have hdraft : draftReceipt c u key s.db event .continuation replies.first.random = .ok (s.db, .duplicate r) := by
    rw [draftReceipt, hrow]
    simp only [rowToReceipt_receiptRow]
  have hinsert : insertReceipt c u key s.db event .continuation replies.first = .ok (s.db, .duplicate r) := by
    rw [insertReceipt, hdraft]
    rfl
  obtain ⟨hwrite, hsigned⟩ := turn_single (u := u) replies fun message heq => by
    rw [hinsert] at heq
    cases heq
  refine ⟨r, ?_, hsigned.trans (signedBy_of_not_asked ?_)⟩
  · rw [hwrite, attemptReceipt_of_ok hinsert]
    show (({ s with db := s.db, history := s.history ++ [] } : Store), _) = _
    rw [List.append_nil]
    rfl
  · rintro ⟨unsigned, db', prepared, hasked⟩
    rw [hdraft] at hasked
    cases hasked

/-- **A turn ends by the signer's word alone exactly where the event is not turned away.** -/
theorem turn_settled_iff {s : Store} (hs : Whole c s.db)
    (hchecked : checkEvent c u seen key.keyId event checked = .ok ()) {replies : SignerReplies} :
    (duplicateRow s.db event .continuation = none →
        ¬ TurnedAway c u key s event replies ∧ ¬ TurnedAwayLate c u key s event replies) ↔
      ∀ s' e, writeReceipt c u key s event .continuation .ok replies = (s', .error e) → e.IsSigners := by
  by_cases hnew : duplicateRow s.db event .continuation = none
  · have houtcome : TurnOutcome c u key s event replies
        (writeReceipt c u key s event .continuation .ok replies) := turn_outcome hs hchecked hnew replies
    generalize writeReceipt c u key s event .continuation .ok replies = result at houtcome
    cases houtcome with
    | away e why events => exact iff_of_false (fun h => (h hnew).1 why) fun h => events (h s e rfl)
    | late s' e why _ events => exact iff_of_false (fun h => (h hnew).2 why) fun h => events (h s' e rfl)
    | unanswered s' e signers notAway notLate =>
        refine iff_of_true (fun _ => ⟨notAway, notLate⟩) fun s₂ e' heq => ?_
        rwa [← Except.error.inj (Prod.mk.inj heq).2]
    | answered s' receipt notAway notLate =>
        refine iff_of_true (fun _ => ⟨notAway, notLate⟩) fun s₂ e' heq => ?_
        cases heq
  · obtain ⟨r, hwrite, -⟩ := turn_duplicate (u := u) key hs replies hnew
    refine iff_of_true (fun h => absurd h hnew) fun s' e heq => ?_
    rw [hwrite] at heq
    cases heq

/-- A batch goes on after an event that is answered. -/
theorem writeBatch_cons_ok {s s₁ : Store} {replies : SignerReplies} {r : Receipt}
    {rest : List (ChainEvent × SignerReplies)}
    (h : writeReceipt c u key s event .continuation .ok replies = (s₁, .ok r)) {s' : Store} {e : StoreError} :
    writeBatch c u key s ((event, replies) :: rest) = (s', .error e) ↔
      writeBatch c u key s₁ rest = (s', .error e) := by
  rw [writeBatch, h]
  cases hrest : writeBatch c u key s₁ rest with
  | mk s₂ answers =>
      cases answers with
      | error e' =>
          simp only [hrest]
      | ok receipts =>
          simp only [hrest]
          refine iff_of_false (fun heq => ?_) fun heq => ?_
          · cases (Prod.mk.inj heq).2
          · cases (Prod.mk.inj heq).2

/-- A batch ends with an event that fails. -/
theorem writeBatch_cons_error {s s₁ : Store} {replies : SignerReplies} {e : StoreError}
    {rest : List (ChainEvent × SignerReplies)}
    (h : writeReceipt c u key s event .continuation .ok replies = (s₁, .error e)) :
    writeBatch c u key s ((event, replies) :: rest) = (s₁, .error e) := by
  rw [writeBatch, h]

/-- **A batch is settled exactly where only the signer can end it.** -/
theorem settled_iff {s : Store} (hs : Whole c s.db) {events : List (ChainEvent × SignerReplies)}
    (hchecked : ∀ e ∈ events, ∃ random, checkEvent c u seen key.keyId e.1 random = .ok ()) :
    Settled c u key s events ↔
      ∀ s' e, writeBatch c u key s events = (s', .error e) → e.IsSigners := by
  induction events generalizing s with
  | nil =>
      refine iff_of_true trivial fun s' e h => ?_
      cases (Prod.mk.inj h).2
  | cons first rest ih =>
      obtain ⟨event, replies⟩ := first
      obtain ⟨random, hevent⟩ := hchecked _ List.mem_cons_self
      have hrest := fun e he => hchecked e (List.mem_cons_of_mem _ he)
      have hcommits : Commits c u key Kind.IsOrdinary s (writeReceipt c u key s event .continuation .ok replies).1 :=
        writeReceipt_commits (opensNew_continuation s event) writesBeside_ok replies
      rw [Settled, turn_settled_iff hs hevent]
      cases hwrite : writeReceipt c u key s event .continuation .ok replies with
      | mk s₁ answer =>
          rw [hwrite] at hcommits
          cases answer with
          | error e =>
              rw [writeBatch_cons_error hwrite]
              constructor
              · rintro ⟨h, -⟩ s' e' heq
                rw [← Except.error.inj (Prod.mk.inj heq).2]
                exact h s₁ e rfl
              · refine fun h => ⟨fun s' e' heq => ?_, fun s' r heq => by cases heq⟩
                rw [← Except.error.inj (Prod.mk.inj heq).2]
                exact h s₁ e rfl
          | ok r =>
              refine (and_iff_right fun s' e heq => by cases heq).trans ?_
              constructor
              · intro h s' e hbatch
                exact (ih (hs.commits hcommits) hrest).mp (h s₁ r rfl) s' e ((writeBatch_cons_ok hwrite).mp hbatch)
              · rintro h s' r' heq
                obtain ⟨rfl, -⟩ := Prod.mk.inj heq
                exact (ih (hs.commits hcommits) hrest).mpr fun s₂ e hbatch =>
                  h s₂ e ((writeBatch_cons_ok hwrite).mpr hbatch)

/-- **A batch is refused whole exactly where no event is turned away after another, or after something
    was done for it.** -/
theorem refusedWhole_iff {s : Store} (hs : Whole c s.db) {events : List (ChainEvent × SignerReplies)}
    (hchecked : ∀ e ∈ events, ∃ random, checkEvent c u seen key.keyId e.1 random = .ok ()) :
    RefusedWhole c u key s events ↔
      ∀ s' e, writeBatch c u key s events = (s', .error e) → ¬ e.IsSigners →
        Untouched s s' (signedInTurns c u key s events) := by
  induction events with
  | nil =>
      refine iff_of_true trivial fun s' e h => ?_
      cases (Prod.mk.inj h).2
  | cons first rest ih =>
      obtain ⟨event, replies⟩ := first
      obtain ⟨random, hevent⟩ := hchecked _ List.mem_cons_self
      have hrest := fun e he => hchecked e (List.mem_cons_of_mem _ he)
      rw [RefusedWhole]
      by_cases hnew : duplicateRow s.db event .continuation = none
      · rw [if_pos hnew]
        have hcommits : Commits c u key Kind.IsOrdinary s
            (writeReceipt c u key s event .continuation .ok replies).1 :=
          writeReceipt_commits (opensNew_continuation s event) writesBeside_ok replies
        have houtcome : TurnOutcome c u key s event replies
            (writeReceipt c u key s event .continuation .ok replies) := turn_outcome hs hevent hnew replies
        generalize hwrite : writeReceipt c u key s event .continuation .ok replies = result at houtcome hcommits
        cases houtcome with
        | away e why events hsigned =>
            refine iff_of_true (.inl why) fun s' e' hbatch _ => ?_
            rw [writeBatch_cons_error hwrite] at hbatch
            obtain ⟨rfl, -⟩ := Prod.mk.inj hbatch
            refine ⟨rfl, rfl, rfl, rfl, ?_⟩
            rw [signedInTurns, hsigned, hwrite]
            rfl
        | unanswered s₁ e signers notAway notLate =>
            refine iff_of_true (.inr ⟨notLate, fun s' r heq => by cases heq⟩) fun s' e' hbatch hnot => ?_
            rw [writeBatch_cons_error hwrite] at hbatch
            rw [← Except.error.inj (Prod.mk.inj hbatch).2] at hnot
            exact absurd signers hnot
        | late s₁ e why notAway events touched =>
            refine iff_of_false ?_ fun h => ?_
            · rintro (haway | ⟨hnot, -⟩)
              · exact notAway haway
              · exact hnot why
            · have huntouched := h s₁ e (writeBatch_cons_error hwrite) events
              rw [signedInTurns, hwrite, List.append_nil] at huntouched
              exact huntouched.not_touched touched
        | answered s₁ r notAway notLate touched =>
            have hwhole : Whole c s₁.db := hs.commits hcommits
            -- whatever ends the batch now, something was done for it
            have htouched : ∀ s' e, writeBatch c u key s₁ rest = (s', .error e) →
                ¬ Untouched s s' (signedInTurns c u key s ((event, replies) :: rest)) := by
              intro s' e hbatch huntouched
              refine huntouched.not_touched ?_
              rcases touched with hsigned | ⟨row, hrow, hfresh⟩
              · refine .inl fun hnil => hsigned ?_
                rw [signedInTurns, hwrite] at hnil
                exact (List.append_eq_nil_iff.mp hnil).1
              · have hlater : Commits c u key Kind.IsOrdinary s₁ (writeBatch c u key s₁ rest).1 :=
                  writeBatch_commits s₁ rest
                rw [hbatch] at hlater
                exact .inr ⟨row, receipts_subset_of_commits hlater hrow, hfresh⟩
            constructor
            · rintro (haway | ⟨-, hsettled⟩) s' e hbatch hnot
              · exact absurd haway notAway
              · have hsigners := (settled_iff hwhole hrest).mp (hsettled s₁ r rfl) s' e
                  ((writeBatch_cons_ok hwrite).mp hbatch)
                exact absurd hsigners hnot
            · refine fun h => .inr ⟨notLate, fun s' r' heq => ?_⟩
              obtain ⟨rfl, -⟩ := Prod.mk.inj heq
              refine (settled_iff hwhole hrest).mpr fun s₂ e hbatch => ?_
              by_contra hnot
              exact htouched s₂ e hbatch (h s₂ e ((writeBatch_cons_ok hwrite).mpr hbatch) hnot)
      · rw [if_neg hnew, ih hrest]
        obtain ⟨r, hwrite, hsigned⟩ := turn_duplicate (u := u) key hs replies hnew
        have hsame : signedInTurns c u key s ((event, replies) :: rest) = signedInTurns c u key s rest := by
          rw [signedInTurns, hsigned, hwrite]
          rfl
        rw [hsame]
        exact forall₂_congr fun s' e => imp_congr_left (writeBatch_cons_ok hwrite).symm

theorem orElse_eq_none {α : Type} {o : Option α} {f : Unit → Option α} :
    o.orElse f = none ↔ o = none ∧ f () = none := by
  cases o with
  | none => exact (and_iff_right rfl).symm
  | some a => exact iff_of_false (fun h => by cases h) fun h => by cases h.1

/-- **Every batch, in every store a run leaves**: where it is refused for what is not the signer's doing,
    nothing was written and nothing signed, unless an event was turned away after that. -/
theorem batch_refused_whole_iff (c : Crypto) (u : Unicode) (key : WriterKey) (ops : List Operation)
    (seen : List SubjectRow) (events : List (ChainEvent × Randomness × SignerReplies)) :
    let s := run c u key (.fresh key) ops
    (∀ s' e, appendBatch c u key s seen events = (s', .error e) → ¬ e.IsSigners →
        Untouched s s' (signedInBatch c u key s seen events)) ↔
      (batchRefusal c u key seen events = none →
        RefusedWhole c u key s (events.map fun e => (e.1, e.2.2))) := by
  intro s
  have hwhole : Whole c s.db := whole_run ops
  rw [signedInBatch, appendBatch_eq]
  cases hrefused : batchRefusal c u key seen events with
  | some e =>
      refine iff_of_true (fun s' e' h _ => ?_) fun h => by cases h
      obtain ⟨rfl, -⟩ := Prod.mk.inj h
      exact ⟨rfl, rfl, rfl, rfl, rfl⟩
  | none =>
      have hchecked : ∀ e ∈ events.map fun e => (e.1, e.2.2), ∃ random,
          checkEvent c u seen key.keyId e.1 random = .ok () := by
        intro e he
        obtain ⟨⟨event, random, replies⟩, hmem, rfl⟩ := List.mem_map.mp he
        refine ⟨random, ?_⟩
        have hnone : refusedBefore c u key seen event random = none := by
          rw [batchRefusal, orElse_eq_none, orElse_eq_none, List.findSome?_eq_none_iff,
            List.findSome?_eq_none_iff, List.findSome?_eq_none_iff] at hrefused
          exact hrefused.2.2 _ hmem
        rw [refusedBefore] at hnone
        split at hnone
        · cases hnone
        · assumption
      rw [← refusedWhole_iff hwhole hchecked]
      exact ⟨fun h _ => h, fun h => h rfl⟩

-- ── A batch that is refused half written ─────────────────────────────────────────

/-- The search of another system's agent. -/
def strayEvent : ChainEvent := { spanEvent (js "search") with systemId := ⟨js "stray.bot", by decide⟩ }

theorem strayEvent_checked : checkEvent tellingCrypto u [] toyWriter.keyId strayEvent toyRandomness = .ok () := by
  have hbuilt : ∃ r, buildUnsigned strayEvent (some (standInTip strayEvent)) toyWriter.keyId
      (toyPrepared (js "bot")) = .ok r :=
    buildUnsigned_isOk.mpr ⟨⟨⟨1, by decide +kernel⟩, JsNumber.ofNat_of_isDouble _⟩,
      { (spanEvent_fits (by decide) : Fits (spanEvent (js "search")) (toyPrepared (js "bot"))) with }, by decide +kernel, by decide +kernel⟩
  obtain ⟨r, hr⟩ := hbuilt
  exact bind_eq_ok.mpr ⟨toyPrepared (js "bot"), rfl, bind_eq_ok.mpr ⟨r, hr, rfl⟩⟩

/-- A search of the toy system, and one of a system that has no chain. -/
def strayBatch : List (ChainEvent × Randomness × SignerReplies) :=
  [(spanEvent (js "search"), toyRandomness, toyReplies), (strayEvent, toyRandomness, toyReplies)]

/-- The stray event finds no chain of its system. -/
theorem writeReceipt_stray {s : Store} (hdb : s.db = toyWritten (Store.fresh toyWriter).db none spanReceipt) :
    ∃ e, writeReceipt tellingCrypto u toyWriter s strayEvent .continuation .ok toyReplies = (s, .error e) ∧
      ¬ e.IsSigners := by
  have hrows : s.db.receipts = [receiptRow tellingCrypto toyGenesis, receiptRow tellingCrypto spanReceipt] := by
    rw [hdb]
    rfl
  have htip : s.db.tipRow strayEvent.systemId = none := by
    have hnone : s.db.receipts.filter (fun r => r.systemId == strayEvent.systemId) = [] := by
      rw [hrows]
      decide
    rw [Database.tipRow, Database.chainRows, hnone, List.mergeSort_nil]
    rfl
  have hnew : duplicateRow s.db strayEvent .continuation = none := by
    show s.db.receipts.find? _ = none
    rw [hrows]
    decide
  have hdraft : ∃ message, draftReceipt tellingCrypto u toyWriter s.db strayEvent .continuation
      toyReplies.first.random = .error (.storage message) := by
    rw [draftReceipt, hnew, htip]
    exact ⟨_, rfl⟩
  obtain ⟨message, hdraft⟩ := hdraft
  have hinsert : insertReceipt tellingCrypto u toyWriter s.db strayEvent .continuation toyReplies.first
      = .error (.storage message) := bind_eq_error.mpr (.inl hdraft)
  refine ⟨.storage message, ?_, id⟩
  rw [writeReceipt, attemptReceipt_of_error hinsert]

/-- **A batch whose second event is of an unknown system**: it is refused, and the first is signed and
    written. -/
theorem stray_half_written :
    let s := run tellingCrypto ⟨id, id, id⟩ toyWriter (.fresh toyWriter) toyRun
    ∃ s' e, appendBatch tellingCrypto ⟨id, id, id⟩ toyWriter s [] strayBatch = (s', .error e) ∧ ¬ e.IsSigners ∧
      s'.db.receipts = s.db.receipts ++ [receiptRow tellingCrypto spanReceipt] ∧
      ¬ Untouched s s' (signedInBatch tellingCrypto ⟨id, id, id⟩ toyWriter s [] strayBatch) := by
  intro s
  have hdb : s.db = toyOpened tellingCrypto (Store.fresh toyWriter).db none := run_toyRun
  have hrefusal : batchRefusal tellingCrypto ⟨id, id, id⟩ toyWriter [] strayBatch = none := by
    have hsearch := spanEvent_checked (u := ⟨id, id, id⟩) (.inl rfl : js "search" = _ ∨ js "search" = _)
    refine orElse_eq_none.mpr ⟨by decide, orElse_eq_none.mpr ⟨by decide, ?_⟩⟩
    refine List.findSome?_eq_none_iff.mpr fun e he => ?_
    rcases List.mem_cons.mp he with rfl | he
    · exact (orElse_eq_none.mp hsearch).2
    · rw [List.mem_singleton.mp he, refusedBefore, strayEvent_checked]
  obtain ⟨s₁, hfirst, hs₁⟩ : ∃ s₁, writeReceipt tellingCrypto ⟨id, id, id⟩ toyWriter s (spanEvent (js "search"))
      .continuation .ok toyReplies = (s₁, .ok spanReceipt) ∧
      s₁.db = toyWritten (Store.fresh toyWriter).db none spanReceipt :=
    ⟨_, writeReceipt_toy (noChains_fresh toyWriter) hdb
      (toySecond_writes (noChains_fresh toyWriter) rfl rfl spanReceipt_built rfl), rfl⟩
  obtain ⟨e, hstray, hevents⟩ := writeReceipt_stray (u := ⟨id, id, id⟩) hs₁
  have hbatch : appendBatch tellingCrypto ⟨id, id, id⟩ toyWriter s [] strayBatch = (s₁, .error e) := by
    rw [appendBatch_eq, hrefusal]
    exact (writeBatch_cons_ok hfirst).mpr (writeBatch_cons_error hstray)
  have hreceipts : s₁.db.receipts = s.db.receipts ++ [receiptRow tellingCrypto spanReceipt] := by
    rw [hs₁, hdb]
    rfl
  refine ⟨s₁, e, hbatch, hevents, hreceipts, fun huntouched => ?_⟩
  exact List.cons_ne_nil _ _ (List.append_right_eq_self.mp (hreceipts.symm.trans huntouched.receipts))

end Sigillo
