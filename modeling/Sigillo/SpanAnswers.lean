import Sigillo.StoreChains

/-!
# What an event is answered with

The receipt an event is answered with is on its chain. It says what the event says where the store
wrote it for that event; but an event that names a span is answered with whatever receipt carries
that span's two identifiers already. So the answer records the event exactly when no such receipt
says otherwise (**`answer_says_iff`**). -/

namespace Sigillo

open DoubleArith Utf16Text JsonText JsonSchema HexBase64 IsoTime Fallible

-- ── What a receipt says ──────────────────────────────────────────────────────────

def ReceiptDetail.agent : ReceiptDetail → JsString
  | .v1 actor => actor.agent.1
  | .v2 actor _ _ => actor.agent.1
  | .v3 actor _ _ => actor.agent.1
  | .v4 actor _ _ _ _ => actor.agent.1

/-- The documents a receipt names, as they were put. -/
def ReceiptDetail.artifactInputs : ReceiptDetail → Option (List ArtifactInput)
  | .v1 _ => none
  | .v2 _ artifacts _ => artifacts.map fun list => list.1.map fun a => ArtifactEntryV3.input ⟨a, none⟩
  | .v3 _ artifacts _ => artifacts.map fun list => list.1.map ArtifactEntryV3.input
  | .v4 _ _ _ artifacts _ => artifacts.map fun list => list.1.map ArtifactEntryV3.input

def ReceiptDetail.modelInput : ReceiptDetail → Option ModelInput
  | .v1 _ => none
  | .v2 _ _ model => model.map ModelInfo.input
  | .v3 _ _ model => model.map ModelInfo.input
  | .v4 _ _ _ _ model => model.map ModelInfo.input

/-- How the digests of a receipt were made, input and output; plain ones before version 4. -/
def ReceiptBody.hashSchemes (r : ReceiptBody) : Option HashScheme × Option HashScheme :=
  match r.detail with
  | .v4 _ inputHashScheme outputHashScheme _ _ => (inputHashScheme, outputHashScheme)
  | _ => (r.inputHash.map fun _ => .plain, r.outputHash.map fun _ => .plain)

/-- A digest of what an event carries, under whatever nonce was drawn. -/
def DigestOf (c : Crypto) (role : ArtifactRole) (clientHash : Option JsString) (raw : Option Json)
    (clientNonce hash : Option JsString) (scheme : Option HashScheme) : Prop :=
  ∃ random nonce, digestFor c role clientHash raw clientNonce random = .ok ⟨hash, scheme, nonce⟩

/-- **A receipt says what an event says.** -/
structure Says (c : Crypto) (event : ChainEvent) (r : UnsignedReceipt) : Prop where
  systemId : r.systemId = event.systemId
  tsEvent : r.tsEvent.1 = event.tsEvent
  agent : r.detail.agent = event.actor.agent
  action : r.action.input = event.action
  outcome : r.outcome = event.outcome
  source : r.source.input = event.source
  artifacts : r.detail.artifactInputs = event.artifacts
  model : r.detail.modelInput = event.model
  input : DigestOf c .input event.inputHash event.rawInput event.inputNonce
    (r.inputHash.map fun h => h.1) r.hashSchemes.1
  output : DigestOf c .output event.outputHash event.rawOutput event.outputNonce
    (r.outputHash.map fun h => h.1) r.hashSchemes.2

/-- A receipt of the span an event names by both identifiers. -/
structure NamesSpan (event : ChainEvent) (r : UnsignedReceipt) : Prop where
  systemId : r.systemId = event.systemId
  trace : r.source.traceId.isSome ∧ r.source.input.traceId = event.source.traceId
  span : r.source.spanId.isSome ∧ r.source.input.spanId = event.source.spanId

variable {c : Crypto} {u : Unicode} {key : WriterKey}

/-- **A receipt written for an event says what it says.** -/
theorem Writes.said {db db' : Database} {event : ChainEvent} {mode : WriteMode} {attempt : Attempt}
    {prepared : Prepared} {receipt : Receipt}
    (h : Writes c u key db event mode attempt prepared receipt db') :
    Says c event receipt.toUnsignedReceipt := by
  have hrecords := records_of_buildUnsigned _ _ _ _ h.built
  obtain ⟨hactor, hinput, houtput⟩ := prepare_eq_ok.mp h.prepared_eq
  obtain ⟨actor, artifacts, model, hdetail, hsame, hartifacts, hmodel⟩ := hrecords.detail
  refine ⟨hrecords.systemId, hrecords.tsEvent, ?_, hrecords.action, hrecords.outcome, hrecords.source,
    ?_, ?_, ⟨attempt.random.input, prepared.input.nonce, ?_⟩,
    ⟨attempt.random.output, prepared.output.nonce, ?_⟩⟩
  · rw [hdetail, ← pseudonymous_agent hactor, ← hsame]
    rfl
  · rw [hdetail]
    exact hartifacts
  · rw [hdetail]
    exact hmodel
  · rw [ReceiptBody.hashSchemes, hdetail, hrecords.inputHash]
    exact hinput
  · rw [ReceiptBody.hashSchemes, hdetail, hrecords.outputHash]
    exact houtput

-- ── The receipt of a span ────────────────────────────────────────────────────────

theorem receiptRow_injective : Function.Injective (receiptRow c) := by
  intro a b hab
  have ha := rowToReceipt_receiptRow c a
  rw [hab, rowToReceipt_receiptRow] at ha
  exact (Option.some.inj ha).symm

theorem clash_symm {a b : ReceiptRow} (h : Database.Clash a b) : Database.Clash b a := by
  rcases h with ⟨hsystem, hseq⟩ | hhash | hspan
  · exact .inl ⟨hsystem.symm, hseq.symm⟩
  · exact .inr (.inl hhash.symm)
  · refine .inr (.inr ?_)
    rw [Database.sameSpan, Bool.and_eq_true, Bool.and_eq_true, Bool.and_eq_true, Bool.and_eq_true, beq_iff_eq,
      beq_iff_eq, beq_iff_eq] at hspan ⊢
    obtain ⟨⟨⟨⟨hsystem, htrace⟩, hid⟩, htraces⟩, hids⟩ := hspan
    exact ⟨⟨⟨⟨hsystem.symm, htraces ▸ htrace⟩, hids ▸ hid⟩, htraces.symm⟩, hids.symm⟩

instance : Std.Symm fun a b => ¬ Database.Clash a b := ⟨fun _ _ h hclash => h (clash_symm hclash)⟩

namespace Whole

variable {db : Database}

theorem row_of_receipt (h : Whole c db) {row : ReceiptRow} (hrow : row ∈ db.receipts) :
    ∃ r, receiptRow c r = row := by
  obtain ⟨chain, hchain⟩ := h.chains row.systemId
  obtain ⟨r, -, hr⟩ := hchain.mem_receipts.mp ⟨hrow, rfl⟩
  exact ⟨r, hr⟩

/-- **One receipt a span**: the table holds no two of one trace and span. -/
theorem span_once (h : Whole c db) {event : ChainEvent} {a b : Receipt} (ha : receiptRow c a ∈ db.receipts)
    (hb : receiptRow c b ∈ db.receipts) (hspan : NamesSpan event a.toUnsignedReceipt)
    (hspan' : NamesSpan event b.toUnsignedReceipt) : a = b := by
  by_contra hne
  have hrows : receiptRow c a ≠ receiptRow c b := fun heq => hne (receiptRow_injective heq)
  have hclash : ∀ x y : Receipt, NamesSpan event x.toUnsignedReceipt → NamesSpan event y.toUnsignedReceipt →
      Database.Clash (receiptRow c x) (receiptRow c y) := by
    intro x y hx hy
    have htrace : x.source.traceId = y.source.traceId :=
      Option.map_injective Subtype.val_injective (hx.trace.2.trans hy.trace.2.symm)
    have hsame : x.source.spanId = y.source.spanId :=
      Option.map_injective Subtype.val_injective (hx.span.2.trans hy.span.2.symm)
    refine .inr (.inr ?_)
    show (x.systemId == y.systemId && x.source.traceId.isSome && x.source.spanId.isSome
      && x.source.traceId == y.source.traceId && x.source.spanId == y.source.spanId) = true
    rw [hx.systemId, hy.systemId, hx.trace.1, hx.span.1, htrace, hsame]
    simp
  exact h.noClash.forall ha hb hrows (hclash a b hspan hspan')

/-- **The duplicate statement finds the receipt of the event's span**, where there is one. -/
theorem duplicateRow_eq_some (h : Whole c db) {event : ChainEvent} {row : ReceiptRow} :
    duplicateRow db event .continuation = some row ↔
      ∃ r, receiptRow c r = row ∧ row ∈ db.receipts ∧ NamesSpan event r.toUnsignedReceipt := by
  have hnames : ∀ {traceId spanId : JsString}, event.source.traceId = some traceId →
      event.source.spanId = some spanId → ∀ r : Receipt,
      ((receiptRow c r).systemId == event.systemId
        && (receiptRow c r).sourceTraceId.any (fun t => t.1 == traceId)
        && (receiptRow c r).sourceSpanId.any (fun s => s.1 == spanId)) = true ↔
      NamesSpan event r.toUnsignedReceipt := by
    intro traceId spanId htrace hspan r
    rw [Bool.and_eq_true, Bool.and_eq_true, beq_iff_eq, Option.any_eq_true, Option.any_eq_true]
    constructor
    · rintro ⟨⟨hsystem, t, ht, hteq⟩, s, hs, hseq⟩
      rw [beq_iff_eq] at hteq hseq
      have ht' : r.source.traceId = some t := ht
      have hs' : r.source.spanId = some s := hs
      refine ⟨hsystem, ⟨by rw [ht']; rfl, ?_⟩, ⟨by rw [hs']; rfl, ?_⟩⟩
      · rw [htrace, ← hteq, Source.input, ht']
        rfl
      · rw [hspan, ← hseq, Source.input, hs']
        rfl
    · rintro ⟨hsystem, ⟨-, ht⟩, ⟨-, hs⟩⟩
      rw [htrace] at ht
      rw [hspan] at hs
      obtain ⟨t, ht', hteq⟩ := Option.map_eq_some_iff.mp ht
      obtain ⟨s, hs', hseq⟩ := Option.map_eq_some_iff.mp hs
      exact ⟨⟨hsystem, t, ht', beq_iff_eq.mpr hteq⟩, s, hs', beq_iff_eq.mpr hseq⟩
  constructor
  · intro hrow
    cases htrace : event.source.traceId with
    | none => simp [duplicateRow, htrace] at hrow
    | some traceId =>
        cases hspan : event.source.spanId with
        | none => simp [duplicateRow, htrace, hspan] at hrow
        | some spanId =>
            simp only [duplicateRow, htrace, hspan] at hrow
            have hmem := List.mem_of_find?_eq_some hrow
            obtain ⟨r, rfl⟩ := h.row_of_receipt hmem
            have hfound := List.find?_some hrow
            exact ⟨r, rfl, hmem, (hnames htrace hspan r).mp hfound⟩
  · rintro ⟨r, rfl, hmem, hspan⟩
    obtain ⟨traceId, htrace⟩ : ∃ traceId, event.source.traceId = some traceId := by
      obtain ⟨t, ht⟩ := Option.isSome_iff_exists.mp hspan.trace.1
      exact ⟨t.1, by rw [← hspan.trace.2, Source.input, ht]; rfl⟩
    obtain ⟨spanId, hspanId⟩ : ∃ spanId, event.source.spanId = some spanId := by
      obtain ⟨s, hs⟩ := Option.isSome_iff_exists.mp hspan.span.1
      exact ⟨s.1, by rw [← hspan.span.2, Source.input, hs]; rfl⟩
    simp only [duplicateRow, htrace, hspanId, Database.spanRow]
    cases hfind : db.receipts.find? fun r => r.systemId == event.systemId
        && r.sourceTraceId.any (fun t => t.1 == traceId) && r.sourceSpanId.any (fun s => s.1 == spanId) with
    | none =>
        rw [List.find?_eq_none] at hfind
        exact absurd ((hnames htrace hspanId r).mpr hspan) (hfind _ hmem)
    | some row =>
        have hrow := List.mem_of_find?_eq_some hfind
        obtain ⟨r', rfl⟩ := h.row_of_receipt hrow
        have hfound := List.find?_some hfind
        rw [h.span_once hmem hrow hspan ((hnames htrace hspanId r').mp hfound)]

end Whole

-- ── One answer ───────────────────────────────────────────────────────────────────

/-- **The answer to an event**: a receipt of the table that says what the event says. -/
def Answered (c : Crypto) (s : Store) (event : ChainEvent) (r : Receipt) : Prop :=
  receiptRow c r ∈ s.db.receipts ∧ Says c event r.toUnsignedReceipt

/-- **Nothing of the event's span says otherwise**: neither a receipt that is there, nor one the chain
    takes back from the signer when its position is refused. -/
structure Unshadowed (c : Crypto) (key : WriterKey) (s : Store) (event : ChainEvent)
    (replies : SignerReplies) : Prop where
  held : ∀ r : Receipt, receiptRow c r ∈ s.db.receipts → NamesSpan event r.toUnsignedReceipt →
    Says c event r.toUnsignedReceipt
  takenBack : ∀ message head taken, replies.first.reply = .error (.signerRefused .sequence message) →
    replies.view.head = .ok (some head) →
    missingReceipts c key s.db event.systemId head
      (journalFrom replies.view head (s.db.tipRow event.systemId)) = .ok taken →
    ∀ r ∈ taken, NamesSpan event r.toUnsignedReceipt → Says c event r.toUnsignedReceipt

theorem attemptReceipt_error {s s' : Store} {event : ChainEvent} {mode : WriteMode}
    {alongside : Database → Except StoreError Database} {attempt : Attempt} {e : StoreError}
    (h : attemptReceipt c u key s event mode alongside attempt = (s', .error e)) :
    s' = s ∧ (insertReceipt c u key s.db event mode attempt >>= fun (db, written) =>
      (alongside db).map fun db => (db, written)) = .error e := by
  rw [attemptReceipt] at h
  split at h
  · rename_i hresult
    obtain ⟨rfl, he⟩ := Prod.mk.inj h
    obtain rfl := Except.error.inj he
    exact ⟨rfl, hresult⟩
  · cases (Prod.mk.inj h).2

/-- **What an attempt answers**: the receipt of the span, or one it wrote. -/
theorem attemptReceipt_ok {s s' : Store} {event : ChainEvent} {mode : WriteMode} {attempt : Attempt}
    {r : Receipt} (h : attemptReceipt c u key s event mode .ok attempt = (s', .ok r)) :
    (s'.db = s.db ∧ ∃ row, duplicateRow s.db event mode = some row ∧ rowToReceipt row = some r) ∨
      ∃ prepared, Writes c u key s.db event mode attempt prepared r s'.db := by
  rw [attemptReceipt] at h
  split at h
  · cases (Prod.mk.inj h).2
  · rename_i db written hresult
    obtain ⟨⟨db₁, written₁⟩, hinsert, hwith⟩ := bind_eq_ok.mp hresult
    obtain ⟨db₂, hdb, heq⟩ := map_eq_ok.mp hwith
    obtain rfl := Except.ok.inj hdb
    obtain ⟨rfl, rfl⟩ := Prod.mk.inj heq
    obtain ⟨rfl, hr⟩ := Prod.mk.inj h
    obtain rfl := Except.ok.inj hr
    cases written₁ with
    | duplicate receipt => exact .inl (insertReceipt_duplicate hinsert)
    | new prepared receipt => exact .inr ⟨prepared, insertReceipt_new hinsert⟩

theorem Writes.mem_receipts {db db' : Database} {event : ChainEvent} {mode : WriteMode} {attempt : Attempt}
    {prepared : Prepared} {receipt : Receipt}
    (h : Writes c u key db event mode attempt prepared receipt db') : receiptRow c receipt ∈ db'.receipts := by
  rw [h.db_eq]
  exact List.mem_append_right _ (List.mem_singleton_self _)

/-- **An attempt's answer is on the chain**, and says what the event says unless the receipt of its
    span does not. -/
theorem attemptReceipt_answered {s s' : Store} (hs : Whole c s.db) {event : ChainEvent} {attempt : Attempt}
    {r : Receipt} (h : attemptReceipt c u key s event .continuation .ok attempt = (s', .ok r)) :
    receiptRow c r ∈ s'.db.receipts ∧ (Says c event r.toUnsignedReceipt ↔
      ∀ r' : Receipt, receiptRow c r' ∈ s.db.receipts → NamesSpan event r'.toUnsignedReceipt →
        Says c event r'.toUnsignedReceipt) := by
  rcases attemptReceipt_ok h with ⟨hdb, row, hdup, hback⟩ | ⟨prepared, hwrites⟩
  · obtain ⟨r₀, rfl, hmem, hspan⟩ := hs.duplicateRow_eq_some.mp hdup
    rw [rowToReceipt_receiptRow] at hback
    obtain rfl := Option.some.inj hback
    refine ⟨hdb ▸ hmem, fun hsaid r' hr' hspan' => ?_, fun hall => hall _ hmem hspan⟩
    rwa [hs.span_once hr' hmem hspan' hspan]
  · refine ⟨hwrites.mem_receipts, fun _ r' hr' hspan' => ?_, fun _ => hwrites.said⟩
    have hdup := hs.duplicateRow_eq_some.mpr ⟨r', rfl, hr', hspan'⟩
    rw [hwrites.notDuplicate] at hdup
    cases hdup

/-- A span whose receipt is there is not among what is taken back. -/
theorem not_namesSpan_of_missing {db : Database} (hdb : Whole c db) {event : ChainEvent} {head : Receipt}
    {journal : Option (List Receipt)} {taken : List Receipt}
    (h : Missing c key db event.systemId head journal taken) {r r' : Receipt}
    (hr : receiptRow c r ∈ db.receipts) (hspan : NamesSpan event r.toUnsignedReceipt) (hr' : r' ∈ taken) :
    ¬ NamesSpan event r'.toUnsignedReceipt := by
  intro hspan'
  have hnone := List.find?_eq_none.mp h.newSpans r' hr'
  have hdup := hdb.duplicateRow_eq_some.mpr ⟨r, rfl, hr, hspan⟩
  obtain ⟨t, ht⟩ := Option.isSome_iff_exists.mp hspan'.trace.1
  obtain ⟨i, hi⟩ := Option.isSome_iff_exists.mp hspan'.span.1
  have htrace : event.source.traceId = some t.1 := by
    rw [← hspan'.trace.2, Source.input, ht]
    rfl
  have hid : event.source.spanId = some i.1 := by
    rw [← hspan'.span.2, Source.input, hi]
    rfl
  simp only [duplicateRow, htrace, hid] at hdup
  simp only [ht, hi, hdup] at hnone
  exact hnone rfl

/-- **What `writeReceipt` answers an event.** -/
theorem writeReceipt_answered {s s' : Store} (hs : Whole c s.db) {event : ChainEvent}
    {replies : SignerReplies} {r : Receipt}
    (h : writeReceipt c u key s event .continuation .ok replies = (s', .ok r)) :
    receiptRow c r ∈ s'.db.receipts ∧
      (Says c event r.toUnsignedReceipt ↔ Unshadowed c key s event replies) := by
  rw [writeReceipt] at h
  split at h
  · -- refused: the chain recovered, and the event was tried once more
    rename_i s₁ message hrefused
    obtain ⟨rfl, hfailed⟩ := attemptReceipt_error hrefused
    obtain ⟨hreply, db₁, prepared, unsigned, hdraft⟩ : replies.first.reply = _ ∧ _ := by
      rcases bind_eq_error.mp hfailed with hinsert | ⟨⟨db, written⟩, -, hwith⟩
      · exact insertReceipt_signers hinsert trivial
      · cases map_eq_error.mp hwith
    obtain ⟨hdup, -⟩ := draftReceipt_unsigned hdraft
    have hnot : ∀ r' : Receipt, receiptRow c r' ∈ s₁.db.receipts → ¬ NamesSpan event r'.toUnsignedReceipt := by
      intro r' hr' hspan
      rw [hs.duplicateRow_eq_some.mpr ⟨r', rfl, hr', hspan⟩] at hdup
      cases hdup
    have hcases : Reconciles c key s₁ event.systemId replies.view
        (reconcileNow c key s₁ event.systemId replies.view) := reconcileNow_reconciles s₁ event.systemId replies.view
    generalize reconcileNow c key s₁ event.systemId replies.view = result at hcases h
    cases hcases with
    | failed e => cases (Prod.mk.inj h).2
    | inSync level => cases (Prod.mk.inj h).2
    | diverged detail => cases (Prod.mk.inj h).2
    | recovered head taken db ahead missing restored =>
        have hrestores := restores_of_foldlM restored
        have hwhole : Whole c db := hs.recovered missing hrestores
        obtain ⟨hmem, hiff⟩ := attemptReceipt_answered hwhole h
        refine ⟨hmem, hiff.trans ⟨fun hall => ⟨fun r' hr' hspan => absurd hspan (hnot r' hr'), ?_⟩, ?_⟩⟩
        · intro message' head' taken' _ hahead' hmissing' r' hr' hspan
          rw [ahead] at hahead'
          obtain rfl := Option.some.inj (Except.ok.inj hahead')
          rw [missing.eq_ok] at hmissing'
          obtain rfl := Except.ok.inj hmissing'
          refine hall r' ?_ hspan
          rw [hrestores.receipts]
          exact List.mem_append_right _ (List.mem_map_of_mem hr')
        · intro hunshadowed r' hr' hspan
          rw [hrestores.receipts, List.mem_append] at hr'
          rcases hr' with hr' | hr'
          · exact absurd hspan (hnot r' hr')
          · obtain ⟨r₀, hr₀, hrow⟩ := List.mem_map.mp hr'
            obtain rfl := receiptRow_injective hrow
            exact hunshadowed.takenBack message head taken hreply ahead missing.eq_ok r₀ hr₀ hspan
  · obtain ⟨hmem, hiff⟩ := attemptReceipt_answered hs h
    refine ⟨hmem, hiff.trans ⟨fun hall => ⟨hall, ?_⟩, Unshadowed.held⟩⟩
    intro message head taken hreply hahead hmissing r' hr' hspan
    rcases attemptReceipt_ok h with ⟨-, row, hdup, -⟩ | ⟨prepared, hwrites⟩
    · obtain ⟨r₀, rfl, hr₀, hspan₀⟩ := hs.duplicateRow_eq_some.mp hdup
      exact absurd hspan (not_namesSpan_of_missing hs (missingReceipts_ok hmissing) hr₀ hspan₀ hr')
    · rw [hwrites.replied] at hreply
      cases hreply

-- ── Every answer ─────────────────────────────────────────────────────────────────

/-- Writing takes no receipt away. -/
theorem receipts_subset_of_commits {s s' : Store} (h : Commits c u key Kind.IsOrdinary s s') :
    s.db.receipts ⊆ s'.db.receipts := by
  induction h with
  | refl => exact fun _ hrow => hrow
  | tail _ hlast ih =>
      obtain ⟨k, hk, hcommit⟩ := hlast
      refine fun row hrow => ?_
      have hrow := ih hrow
      cases hcommit with
      | wrote writes genesis =>
          rw [show _ = _ from congrArg Database.receipts writes.db_eq]
          exact List.mem_append_left _ hrow
      | recovered ahead missing restores =>
          rw [show _ = _ from restores.receipts]
          exact List.mem_append_left _ hrow
      | beside h =>
          rw [show _ = _ from h.receipts]
          exact hrow
      | deletedEmpty => rcases hk with hk | hk | hk <;> cases hk
      | erasedOperator => rcases hk with hk | hk | hk <;> cases hk
      | erasedOrganization => rcases hk with hk | hk | hk <;> cases hk
      | erasedSubject => rcases hk with hk | hk | hk <;> cases hk
      | erasedOpenings => rcases hk with hk | hk | hk <;> cases hk

theorem Whole.commits {allowed : Kind → Prop} {s s' : Store} (h : Commits c u key allowed s s')
    (hs : Whole c s.db) : Whole c s'.db := by
  induction h with
  | refl => exact hs
  | tail _ hlast ih =>
      obtain ⟨k, -, hcommit⟩ := hlast
      exact ih.commit hcommit

/-- Something of every event of a batch, in the store its turn comes in. -/
def AtTurns (c : Crypto) (u : Unicode) (key : WriterKey) (P : Store → ChainEvent → SignerReplies → Prop) :
    Store → List (ChainEvent × SignerReplies) → Prop
  | _, [] => True
  | s, (event, replies) :: rest =>
      P s event replies ∧ AtTurns c u key P (writeReceipt c u key s event .continuation .ok replies).1 rest

/-- **What a batch answers its events.** -/
theorem writeBatch_answered {s s' : Store} (hs : Whole c s.db) {events : List (ChainEvent × SignerReplies)}
    {receipts : List Receipt} (h : writeBatch c u key s events = (s', .ok receipts)) :
    List.Forall₂ (fun e r => Answered c s' e.1 r) events receipts ↔
      AtTurns c u key (Unshadowed c key) s events := by
  induction events generalizing s receipts with
  | nil =>
      obtain ⟨-, hreceipts⟩ := Prod.mk.inj h
      obtain rfl := Except.ok.inj hreceipts
      exact iff_of_true .nil trivial
  | cons first rest ih =>
      obtain ⟨event, replies⟩ := first
      rw [writeBatch] at h
      rw [AtTurns]
      have hcommits : Commits c u key Kind.IsOrdinary s
          (writeReceipt c u key s event .continuation .ok replies).1 :=
        writeReceipt_commits (opensNew_continuation s event) writesBeside_ok replies
      cases hwrite : writeReceipt c u key s event .continuation .ok replies with
      | mk s₁ answer =>
          rw [hwrite] at h hcommits
          cases answer with
          | error e => cases (Prod.mk.inj h).2
          | ok r =>
              simp only at h
              have hlater : Commits c u key Kind.IsOrdinary s₁ (writeBatch c u key s₁ rest).1 :=
                writeBatch_commits s₁ rest
              cases hrest : writeBatch c u key s₁ rest with
              | mk s₂ answers =>
                  rw [hrest] at h hlater
                  cases answers with
                  | error e => cases (Prod.mk.inj h).2
                  | ok rs =>
                      obtain ⟨rfl, hreceipts⟩ := Prod.mk.inj h
                      obtain rfl := Except.ok.inj hreceipts
                      obtain ⟨hmem, hiff⟩ := writeReceipt_answered hs hwrite
                      rw [List.forall₂_cons, ih (hs.commits hcommits) hrest, Answered, hiff]
                      have hkept := receipts_subset_of_commits hlater hmem
                      exact and_congr_left' (and_iff_right hkept)

/-- **No event is answered with a receipt that says something else**, unless a receipt of its span
    does: in every store a run leaves, of every event `append` and `appendBatch` take. -/
theorem answer_says_iff (c : Crypto) (u : Unicode) (key : WriterKey) (ops : List Operation)
    (seen : List SubjectRow) (s' : Store) :
    (∀ event checked replies r,
      append c u key (run c u key (.fresh key) ops) seen event checked replies = (s', .ok r) →
      (Answered c s' event r ↔ Unshadowed c key (run c u key (.fresh key) ops) event replies)) ∧
    ∀ events receipts,
      appendBatch c u key (run c u key (.fresh key) ops) seen events = (s', .ok receipts) →
      (List.Forall₂ (fun e r => Answered c s' e.1 r) events receipts ↔
        AtTurns c u key (Unshadowed c key) (run c u key (.fresh key) ops)
          (events.map fun e => (e.1, e.2.2))) := by
  have hwhole : Whole c (run c u key (.fresh key) ops).db := whole_run ops
  constructor
  · intro event checked replies r h
    rw [append] at h
    split at h
    · cases (Prod.mk.inj h).2
    · obtain ⟨hmem, hiff⟩ := writeReceipt_answered hwhole h
      rw [Answered, hiff]
      exact and_iff_right hmem
  · intro events receipts h
    rw [appendBatch] at h
    split at h
    · cases (Prod.mk.inj h).2
    · rw [← writeBatch_answered hwhole h, List.forall₂_map_left_iff]

-- ── Two actions of one span ──────────────────────────────────────────────────────

/-- An action of the toy system that names a span. -/
def spanEvent (name : JsString) : ChainEvent :=
  { toyEvent none with
    action := ⟨.toolCall, name⟩
    source := ⟨.api, some (List.replicate 32 0x61), some (List.replicate 16 0x62)⟩ }

def spanReceipt : Receipt :=
  { toyGenesis with
    seq := ⟨1, isCount_one⟩
    action := ⟨.toolCall, ⟨js "search", by decide⟩⟩
    source := ⟨.api, some ⟨List.replicate 32 0x61, by decide⟩, some ⟨List.replicate 16 0x62, by decide⟩⟩
    prevHash := toyTip.hash
    detail := .v4 ⟨⟨js "bot", by decide⟩, none⟩ none none none none
    schemes := ⟨rfl, rfl⟩ }

theorem spanReceipt_built : buildUnsigned (spanEvent (js "search")) (some toyTip) toyWriter.keyId
    (toyPrepared (js "bot")) = .ok spanReceipt.toUnsignedReceipt := by
  refine buildUnsigned_eq_ok.mpr ⟨?_, by decide +kernel, by decide +kernel⟩
  have hreceived : newYear = tsReceivedAfter (spanEvent (js "search")) (some toyTip) := by
    unfold tsReceivedAfter
    dsimp only
    split
    · rfl
    · rfl
  refine ⟨rfl, ?_, rfl, hreceived, rfl, rfl, rfl, rfl, rfl, rfl, rfl, _, _, _, rfl, rfl, rfl, rfl⟩
  exact JsNumber.ofNat_of_isDouble _

theorem spanEvent_fits {name : JsString} (h : TextFits MAX_NAME name) :
    Fits (spanEvent name) (toyPrepared (js "bot")) where
  tsEvent := newYear.2
  actor := ⟨by decide, by rintro t ⟨⟩⟩
  name := h
  input := ⟨by rintro t ⟨⟩, rfl⟩
  output := ⟨by rintro t ⟨⟩, rfl⟩
  source := SourceInput.fits_iff.mpr ⟨spanReceipt.source, rfl⟩
  artifacts := by rintro list ⟨⟩
  model := by rintro m ⟨⟩

/-- Both actions are in order. -/
theorem spanEvent_checked {name : JsString} (h : name = js "search" ∨ name = js "delete") :
    ((refusedEvent (spanEvent name)).orElse fun _ =>
      refusedBefore tellingCrypto u toyWriter [] (spanEvent name) toyRandomness) = none := by
  have hbuilt : ∃ r, buildUnsigned (spanEvent name) (some (standInTip (spanEvent name))) toyWriter.keyId
      (toyPrepared (js "bot")) = .ok r := by
    refine buildUnsigned_isOk.mpr ⟨⟨⟨1, by decide +kernel⟩, JsNumber.ofNat_of_isDouble _⟩, ?_, ?_, ?_⟩
    · rcases h with rfl | rfl
      · exact spanEvent_fits (by decide)
      · exact spanEvent_fits (by decide)
    · rcases h with rfl | rfl
      · decide +kernel
      · decide +kernel
    · rcases h with rfl | rfl
      · decide +kernel
      · decide +kernel
  obtain ⟨r, hr⟩ := hbuilt
  have hchecked : checkEvent tellingCrypto u [] toyWriter.keyId (spanEvent name) toyRandomness = .ok () :=
    bind_eq_ok.mpr ⟨toyPrepared (js "bot"), rfl, bind_eq_ok.mpr ⟨r, hr, rfl⟩⟩
  have hfree : refusedEvent (spanEvent name) = none := by
    rcases h with rfl | rfl
    · decide
    · decide
  rw [hfree, Option.orElse_none, refusedBefore, hchecked]

/-- The toy store once the toy system is opened. -/
def toyRun : List Operation := [.createSystem toySystem newYear none toyReplies]

theorem run_toyRun : (run tellingCrypto u toyWriter (.fresh toyWriter) toyRun).db
    = toyOpened tellingCrypto (Store.fresh toyWriter).db none := by
  rw [toyRun, run_cons, run_nil, perform, createSystem_toy (noChains_fresh toyWriter) rfl rfl]

theorem append_search {s : Store} (hs : s.db = toyOpened tellingCrypto (Store.fresh toyWriter).db none) :
    append tellingCrypto u toyWriter s [] (spanEvent (js "search")) toyRandomness toyReplies =
      ({ s with
          db := toyWritten (Store.fresh toyWriter).db none spanReceipt
          history := s.history ++ [.wrote (spanEvent (js "search")) (toyPrepared (js "bot")) spanReceipt] },
        .ok spanReceipt) := by
  have hwrites : Writes tellingCrypto u toyWriter (toyOpened tellingCrypto (Store.fresh toyWriter).db none)
      (spanEvent (js "search")) .continuation toyReplies.first (toyPrepared (js "bot")) spanReceipt
      (toyWritten (Store.fresh toyWriter).db none spanReceipt) :=
    toySecond_writes (noChains_fresh toyWriter) rfl rfl spanReceipt_built rfl
  rw [append, spanEvent_checked (.inl rfl)]
  exact writeReceipt_toy (noChains_fresh toyWriter) hs hwrites

/-- The first action of the span is answered with its own receipt. -/
theorem answer_says_iff_search :
    let s := run tellingCrypto ⟨id, id, id⟩ toyWriter (.fresh toyWriter) toyRun
    ∃ s' r, append tellingCrypto ⟨id, id, id⟩ toyWriter s [] (spanEvent (js "search")) toyRandomness toyReplies
        = (s', .ok r) ∧
      (Answered tellingCrypto s' (spanEvent (js "search")) r ↔
        Unshadowed tellingCrypto toyWriter s (spanEvent (js "search")) toyReplies) := by
  have h := append_search (u := ⟨id, id, id⟩) (run_toyRun (u := ⟨id, id, id⟩))
  exact ⟨_, _, h, (answer_says_iff tellingCrypto ⟨id, id, id⟩ toyWriter toyRun [] _).1 _ _ _ _ h⟩

/-- **A deletion that names the span of a search** is answered with the receipt of the search, and no
    receipt of it is written. -/
theorem deletion_unrecorded :
    let s := run tellingCrypto ⟨id, id, id⟩ toyWriter (.fresh toyWriter)
      (toyRun ++ [.append [] (spanEvent (js "search")) toyRandomness toyReplies])
    append tellingCrypto ⟨id, id, id⟩ toyWriter s [] (spanEvent (js "delete")) toyRandomness toyReplies
        = (s, .ok spanReceipt) ∧
      ¬ Says tellingCrypto (spanEvent (js "delete")) spanReceipt.toUnsignedReceipt := by
  intro s
  have hdb : s.db = toyWritten (Store.fresh toyWriter).db none spanReceipt := by
    show (run _ _ _ _ _).db = _
    rw [toyRun, List.singleton_append, run_cons, run_cons, run_nil, perform, perform,
      createSystem_toy (noChains_fresh toyWriter) rfl rfl, append_search rfl]
  have hdup : duplicateRow s.db (spanEvent (js "delete")) .continuation
      = some (receiptRow tellingCrypto spanReceipt) := by
    have hwhole : Whole tellingCrypto s.db := whole_run _
    refine hwhole.duplicateRow_eq_some.mpr ⟨spanReceipt, rfl, ?_, ⟨rfl, ⟨rfl, rfl⟩, ⟨rfl, rfl⟩⟩⟩
    rw [hdb]
    exact List.mem_append_right _ (List.mem_singleton_self _)
  constructor
  · rw [append, spanEvent_checked (.inr rfl)]
    simp only
    have hinsert : insertReceipt tellingCrypto ⟨id, id, id⟩ toyWriter s.db (spanEvent (js "delete"))
        .continuation toyReplies.first = .ok (s.db, .duplicate spanReceipt) := by
      rw [insertReceipt, draftReceipt, hdup]
      simp only [rowToReceipt_receiptRow]
      rfl
    rw [writeReceipt, attemptReceipt, hinsert]
    show (({ s with db := s.db, history := s.history ++ [] } : Store), _) = _
    rw [List.append_nil]
    rfl
  · intro h
    have haction := h.action
    revert haction
    decide

end Sigillo
