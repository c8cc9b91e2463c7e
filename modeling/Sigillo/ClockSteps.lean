import Sigillo.WrittenReceipts
import Sigillo.SignerRun

/-!
# Clocks that step back

The store never dates a receipt before the one it follows, and the signer never signs one far from
its own clock. A receipt of a chain in sync with the signer meets both exactly when the receipt it
follows is not dated further ahead of the signer's clock than its tolerance (**`signed_iff`**): a
server clock that stepped back is absorbed, a signer clock that stepped back is not. -/

namespace Sigillo

open DoubleArith Utf16Text JsonText JsonSchema HexBase64 IsoTime FileVolume Fallible

variable {c : Crypto} {options : SignerOptions}

-- ── Chains in sync ───────────────────────────────────────────────────────────────

/-- **A chain in sync with the signer**: the database holds its receipts, and the signer the state
    of that chain, or nothing where there is none. -/
structure InSync (c : Crypto) (db : Database) (systems : Systems) (systemId : SystemId)
    (chain : List Receipt) : Prop where
  rows : db.chainRows systemId = chain.map (receiptRow c)
  held : (chain = [] ∧ systems systemId = none) ∨
    ∃ state, systems systemId = some (.chain state) ∧ Keeps c systemId chain state

namespace InSync

variable {db : Database} {systems : Systems} {systemId : SystemId} {chain : List Receipt}

theorem tipRow (h : InSync c db systems systemId chain) : db.tipRow systemId
    = chain.getLast?.map fun r => ⟨r.seq, receiptHashHex c r.toUnsignedReceipt, r.tsReceived⟩ := by
  rw [Database.tipRow, h.rows, List.getLast?_map, Option.map_map]
  rfl

/-- The position and the link the signer expects are those the store gives. -/
theorem expected (h : InSync c db systems systemId chain) :
    expectedSeq (knownChain systems systemId) = seqAfter (db.tipRow systemId) ∧
      expectedPrev (knownChain systems systemId) = prevHashOf (db.tipRow systemId) := by
  rw [h.tipRow]
  rcases h.held with ⟨rfl, hnone⟩ | ⟨state, hsome, hkeeps⟩
  · rw [knownChain, hnone]
    exact ⟨rfl, rfl⟩
  · rw [knownChain, hsome, hkeeps.head]
    refine ⟨?_, hkeeps.hash⟩
    show state.seq.1 + 1 = state.head.seq.1 + 1
    rw [hkeeps.headSeq]

theorem length_eq (h : InSync c db systems systemId chain) :
    chain.length = seqAfter (db.tipRow systemId) := by
  rw [← h.expected.1]
  rcases h.held with ⟨rfl, hnone⟩ | ⟨state, hsome, hkeeps⟩
  · rw [knownChain, hnone]
    rfl
  · rw [knownChain, hsome]
    exact hkeeps.seq

/-- The signer's tree takes one entry more. -/
theorem frontierAppend_ne_none (h : InSync c db systems systemId chain) (entry : Digest) :
    frontierAppend c (frontierOf (knownChain systems systemId)) entry ≠ none := by
  have hfrontier : MerkleTree.IsFrontier c.tree (frontierOf (knownChain systems systemId))
      (receiptHashes c chain) := by
    rcases h.held with ⟨rfl, hnone⟩ | ⟨state, hsome, hkeeps⟩
    · rw [knownChain, hnone]
      exact MerkleTree.isFrontier_empty _
    · rw [knownChain, hsome]
      exact hkeeps.frontier
  obtain ⟨f, hf, -⟩ := MerkleTree.frontierAppend_spec c.tree hfrontier entry
  rw [frontierAppend, hf]
  exact Option.some_ne_none f

end InSync

-- ── What the signer checks ───────────────────────────────────────────────────────

/-- Signed, not refused and not failed. -/
def SignOutcome.IsSigned (outcome : SignOutcome) : Prop :=
  ∃ writes state sig hash, outcome = .signed writes state sig hash

/-- **A receipt at its place is signed exactly when its time is right**: near the signer's clock, and
    no earlier than that of the receipt before it. -/
theorem signNext_isSigned_iff {volume : Volume} {now : Timestamp} {known : Option ChainState}
    {receipt : UnsignedReceipt} (hseq : receipt.seq.1 = expectedSeq known)
    (hprev : receipt.prevHash = expectedPrev known)
    (hfrontier : frontierAppend c (frontierOf known) (receiptHash c receipt) ≠ none) :
    (signNext c options volume now known receipt).IsSigned ↔
      |dateParse receipt.tsReceived - dateParse now| ≤ options.toleranceMs ∧
      ∀ state, known = some state → dateParse state.head.tsReceived ≤ dateParse receipt.tsReceived := by
  have haccepted : (signAccepted c options volume known receipt).IsSigned := by
    obtain ⟨frontier, hf⟩ := Option.ne_none_iff_exists'.mp hfrontier
    rw [signAccepted]
    simp only [hf]
    exact ⟨_, _, _, _, rfl⟩
  have hrefused : ∀ r, ¬ (SignOutcome.refused r).IsSigned := by
    rintro r ⟨_, _, _, _, h⟩
    cases h
  unfold signNext
  rw [if_neg (not_not.mpr hseq), if_neg (not_not.mpr hprev)]
  by_cases hfar : |dateParse receipt.tsReceived - dateParse now| > options.toleranceMs
  · rw [if_pos hfar]
    exact iff_of_false (hrefused _) fun h => absurd h.1 (not_le.mpr hfar)
  · rw [if_neg hfar]
    cases known with
    | none => exact iff_of_true haccepted ⟨not_lt.mp hfar, by rintro state ⟨⟩⟩
    | some state =>
        by_cases hearlier : dateParse receipt.tsReceived < dateParse state.head.tsReceived
        · simp only [if_pos hearlier]
          exact iff_of_false (hrefused _) fun h => absurd (h.2 state rfl) (not_le.mpr hearlier)
        · simp only [if_neg hearlier]
          refine iff_of_true haccepted ⟨not_lt.mp hfar, fun state' hstate => ?_⟩
          rw [← Option.some.inj hstate]
          exact not_lt.mp hearlier

/-- What was built has a canonical form. -/
theorem malformedStringIn_of_buildUnsigned {event : ChainEvent} {tip : Option TipRow} {keyId : Hex 16}
    {p : Prepared} {r : UnsignedReceipt} (h : buildUnsigned event tip keyId p = .ok r) :
    malformedStringIn (unsignedReceiptSchema.encode r) [] = none := by
  obtain ⟨hrecords, htexts, -⟩ := buildUnsigned_eq_ok.mp h
  exact (malformedStringIn_eq_none _ []).mpr fun s hs => htexts s (hrecords.mem_texts.mp hs)

/-- The position of a receipt is the one after the tip, as long as that is a number. -/
theorem Records.seq_eq {event : ChainEvent} {tip : Option TipRow} {keyId : Hex 16} {p : Prepared}
    {r : UnsignedReceipt} (h : Records event tip keyId p r) (hseq : seqAfter tip ≤ 2 ^ 53) :
    r.seq.1 = seqAfter tip := by
  have hfin := h.seq
  rw [JsNumber.ofNat_of_isDouble (isDouble_natCast hseq), JsNumber.fin.injEq] at hfin
  exact_mod_cast hfin.symm

/-- The time of the receipt after a tip: the event's own, unless the tip is later. -/
theorem dateParse_tsReceivedAfter (event : ChainEvent) (tip : Option TipRow) :
    (∀ t, tip = some t → dateParse t.tsReceived ≤ dateParse (tsReceivedAfter event tip)) ∧
      (dateParse (tsReceivedAfter event tip) = dateParse event.tsReceived ∨
        ∃ t, tip = some t ∧ dateParse event.tsReceived < dateParse t.tsReceived ∧
          dateParse (tsReceivedAfter event tip) = dateParse t.tsReceived) := by
  cases tip with
  | none => exact ⟨by rintro t ⟨⟩, .inl rfl⟩
  | some t =>
      have hown : ∀ t', some t = some t' → t' = t := fun t' ht => (Option.some.inj ht).symm
      by_cases hearlier : dateParse event.tsReceived < dateParse t.tsReceived
      · have hafter : tsReceivedAfter event (some t) = t.tsReceived := if_pos hearlier
        rw [hafter]
        exact ⟨fun t' ht => by rw [hown t' ht], .inr ⟨t, rfl, hearlier, rfl⟩⟩
      · have hafter : tsReceivedAfter event (some t) = event.tsReceived := if_neg hearlier
        rw [hafter]
        exact ⟨fun t' ht => by rw [hown t' ht]; exact not_lt.mp hearlier, .inl rfl⟩

/-- What the signer checks of a receipt built for a chain in sync comes down to one thing: it must not
    be dated far from the signer's clock. -/
theorem isSigned_iff_near {db : Database} {systems : Systems} {systemId : SystemId} {chain : List Receipt}
    (hsync : InSync c db systems systemId chain) (hlength : chain.length ≤ 2 ^ 53)
    {event : ChainEvent} (hsystem : event.systemId = systemId)
    (hgenesis : event.action.kind = .genesis ↔ chain = []) {p : Prepared} {receipt : UnsignedReceipt}
    (hbuilt : buildUnsigned event (db.tipRow systemId) options.key.keyId p = .ok receipt)
    (now : Timestamp) (volume : Volume) :
    (signReceipt c options volume systems now receipt).IsSigned ↔
      |dateParse (tsReceivedAfter event (db.tipRow systemId)) - dateParse now| ≤ options.toleranceMs := by
  have hrecords := (buildUnsigned_eq_ok.mp hbuilt).1
  have hseq := hrecords.seq_eq (by rw [← hsync.length_eq]; exact hlength)
  have hkind : decide (receipt.seq.1 = 0) = decide (receipt.action.kind = .genesis) := by
    have haction : receipt.action.kind = event.action.kind := congrArg ActionInput.kind hrecords.action
    rw [hseq, ← hsync.length_eq, haction, decide_eq_decide, List.length_eq_zero_iff, hgenesis]
  have hnext : signReceipt c options volume systems now receipt
      = signNext c options volume now (knownChain systems systemId) receipt := by
    rw [signReceipt, if_neg (not_not.mpr hrecords.keyId), malformedStringIn_of_buildUnsigned hbuilt]
    simp only [if_neg (not_not.mpr hkind)]
    rw [hrecords.systemId, hsystem, knownChain]
    rcases hsync.held with ⟨-, hnone⟩ | ⟨state, hsome, -⟩
    · rw [hnone]
    · rw [hsome]
  have hknown : ∀ state, knownChain systems systemId = some state →
      dateParse state.head.tsReceived ≤ dateParse (tsReceivedAfter event (db.tipRow systemId)) := by
    intro state hstate
    rcases hsync.held with ⟨-, hnone⟩ | ⟨state', hsome, hkeeps⟩
    · rw [knownChain, hnone] at hstate
      cases hstate
    · rw [knownChain, hsome] at hstate
      obtain rfl := Option.some.inj hstate
      exact (dateParse_tsReceivedAfter event _).1 ⟨state'.head.seq,
        receiptHashHex c state'.head.toUnsignedReceipt, state'.head.tsReceived⟩
        (by rw [hsync.tipRow, hkeeps.head]; rfl)
  rw [hnext, signNext_isSigned_iff (hseq.trans hsync.expected.1.symm)
    (hrecords.prevHash.trans hsync.expected.2.symm) (hsync.frontierAppend_ne_none _), hrecords.tsReceived]
  exact and_iff_left hknown

/-- **The receipt built for an event of a chain in sync is signed exactly when the receipt before it
    is not dated further ahead of the signer's clock than the tolerance**, whatever clocks the
    receipts before were dated by. -/
theorem signed_iff {db : Database} {systems : Systems} {systemId : SystemId} {chain : List Receipt}
    (hsync : InSync c db systems systemId chain) (hlength : chain.length ≤ 2 ^ 53)
    {event : ChainEvent} (hsystem : event.systemId = systemId)
    (hgenesis : event.action.kind = .genesis ↔ chain = []) {p : Prepared} {receipt : UnsignedReceipt}
    (hbuilt : buildUnsigned event (db.tipRow systemId) options.key.keyId p = .ok receipt)
    {now : Timestamp} (hnear : |dateParse event.tsReceived - dateParse now| ≤ options.toleranceMs)
    (volume : Volume) :
    (signReceipt c options volume systems now receipt).IsSigned ↔
      ∀ t, db.tipRow systemId = some t → dateParse t.tsReceived ≤ dateParse now + options.toleranceMs := by
  rw [isSigned_iff_near hsync hlength hsystem hgenesis hbuilt]
  obtain ⟨hafter, hdate⟩ := dateParse_tsReceivedAfter event (db.tipRow systemId)
  constructor
  · intro hclose t ht
    have hlater := hafter t ht
    have hupper := (abs_le.mp hclose).2
    omega
  · intro hahead
    rcases hdate with hown | ⟨t, ht, hearlier, hraised⟩
    · rwa [hown]
    · have hbound := hahead t ht
      have hlower := (abs_le.mp hnear).1
      rw [hraised, abs_le]
      constructor
      · omega
      · omega

-- ── A signer whose clock stepped back ────────────────────────────────────────────

/-- What the signer holds once it has signed the toy genesis, with its tree. -/
def toySigned (frontier : MerkleFrontier) : Systems := fun s =>
  if s = toySystem then
    some (.chain ⟨toySystem, toyGenesis.seq, receiptHashHex toyCrypto toyGenesis.toUnsignedReceipt,
      toyGenesis, frontier⟩)
  else none

/-- The toy chain and its signer, in sync. -/
theorem inSync_toy : ∃ frontier,
    InSync toyCrypto (toyOpened toyCrypto (Store.fresh toyWriter).db none) (toySigned frontier) toySystem
      [toyGenesis] := by
  obtain ⟨frontier, -, hfrontier⟩ := MerkleTree.frontierAppend_spec toyCrypto.tree
    (MerkleTree.isFrontier_empty _) (receiptHash toyCrypto toyGenesis.toUnsignedReceipt)
  refine ⟨frontier, ?_, .inr ⟨_, if_pos rfl, ?_⟩⟩
  · exact List.mergeSort_singleton _
  · exact ⟨rfl, rfl, rfl, rfl, rfl, rfl, hfrontier⟩

/-- An hour before the toy genesis. -/
def hourBefore : Timestamp := ⟨js "2025-12-31T23:00:00.000Z", by decide +kernel⟩

/-- An action of the toy system at a time. -/
def timedEvent (ts : Timestamp) : ChainEvent := { toyEvent none with tsEvent := ts.1, tsReceived := ts }

theorem timedEvent_fits (ts : Timestamp) : Fits (timedEvent ts) (toyPrepared (js "bot")) where
  tsEvent := ts.2
  actor := ⟨by decide, by rintro t ⟨⟩⟩
  name := show TextFits MAX_NAME (js "search") by decide
  input := ⟨by rintro t ⟨⟩, rfl⟩
  output := ⟨by rintro t ⟨⟩, rfl⟩
  source := ⟨by rintro t ⟨⟩, by rintro t ⟨⟩⟩
  artifacts := by rintro list ⟨⟩
  model := by rintro m ⟨⟩

/-- What the store builds of it is the receipt after the toy genesis. -/
theorem timedEvent_built {ts : Timestamp} (hts : ts = newYear ∨ ts = hourBefore) : ∃ receipt,
    buildUnsigned (timedEvent ts) ((toyOpened toyCrypto (Store.fresh toyWriter).db none).tipRow toySystem)
      toyOptions.key.keyId (toyPrepared (js "bot")) = .ok receipt := by
  rw [tipRow_toyOpened (noChains_fresh toyWriter)]
  refine buildUnsigned_isOk.mpr ⟨⟨⟨1, by decide +kernel⟩, JsNumber.ofNat_of_isDouble _⟩,
    timedEvent_fits ts, ?_, ?_⟩
  · rcases hts with rfl | rfl
    · decide +kernel
    · decide +kernel
  · rcases hts with rfl | rfl
    · decide +kernel
    · decide +kernel

/-- At the time of the toy genesis the receipt after it is signed. -/
theorem signed_iff_toy : ∃ frontier receipt,
    InSync toyCrypto (toyOpened toyCrypto (Store.fresh toyWriter).db none) (toySigned frontier) toySystem
      [toyGenesis] ∧
    ((signReceipt toyCrypto toyOptions .empty (toySigned frontier) newYear receipt).IsSigned ↔
      ∀ t, (toyOpened toyCrypto (Store.fresh toyWriter).db none).tipRow toySystem = some t →
        dateParse t.tsReceived ≤ dateParse newYear + toyOptions.toleranceMs) := by
  obtain ⟨frontier, hsync⟩ := inSync_toy
  obtain ⟨receipt, hbuilt⟩ := timedEvent_built (.inl rfl)
  exact ⟨frontier, receipt, hsync,
    signed_iff hsync (by decide) rfl (by decide) hbuilt (by decide +kernel) .empty⟩

/-- **A signer whose clock stepped back an hour** refuses what the store builds, although the action
    was received by its own clock. -/
theorem stepped_back_refused : ∃ frontier receipt,
    InSync toyCrypto (toyOpened toyCrypto (Store.fresh toyWriter).db none) (toySigned frontier) toySystem
      [toyGenesis] ∧
    buildUnsigned (timedEvent hourBefore)
      ((toyOpened toyCrypto (Store.fresh toyWriter).db none).tipRow toySystem) toyOptions.key.keyId
      (toyPrepared (js "bot")) = .ok receipt ∧
    |dateParse (timedEvent hourBefore).tsReceived - dateParse hourBefore| ≤ toyOptions.toleranceMs ∧
    ¬ (signReceipt toyCrypto toyOptions .empty (toySigned frontier) hourBefore receipt).IsSigned := by
  obtain ⟨frontier, hsync⟩ := inSync_toy
  obtain ⟨receipt, hbuilt⟩ := timedEvent_built (.inr rfl)
  refine ⟨frontier, receipt, hsync, hbuilt, by decide +kernel, ?_⟩
  rw [isSigned_iff_near hsync (by decide) rfl (by decide) hbuilt, tipRow_toyOpened (noChains_fresh toyWriter)]
  decide +kernel

end Sigillo
