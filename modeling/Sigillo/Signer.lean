import Sigillo.SignerState
import Sigillo.MalformedText

/-!
# The signer

The rules the signer applies before it puts its key behind anything, and the socket protocol in
front of them: one request per line of JSON, one reply per line. A request is answered only after
everything it had to write is on disk, so what is here returns the writes beside the answer, in
the order the source makes them.

**`signReceipt_signed`** says once what a signature implies: which receipt may be signed, what is
written, and the state that is kept. -/

namespace Sigillo

open DoubleArith Utf16Text JsonText JsonParse JsonSchema HexBase64 IsoTime FileVolume

/-- Why a request was refused. -/
inductive RefusalCode where
  | malformed | version | invalid | sequence | clock | unknownSystem
deriving DecidableEq

/-- Why the signer refuses. -/
structure Refusal where
  code : RefusalCode
  message : JsString
deriving DecidableEq

/-- The signer's key, how far a receipt's `ts_received` may be from its clock, and the text zod
    gives for what it refused. -/
structure SignerOptions where
  key : SignerKey
  toleranceMs : ℕ
  zodIssues : Json → JsString

-- ── Well-formed strings ──────────────────────────────────────────────────────────

/-- A text that is not named malformed is well-formed. -/
theorem isWellFormed_of_member {members : List (JsString × Json)} {path key s : JsString}
    (h : malformedMember members path = none) (hm : (key, .str s) ∈ members) :
    isWellFormed s = true := by
  induction members with
  | nil => cases hm
  | cons m ms ih =>
      obtain ⟨k, v⟩ := m
      rw [malformedMember] at h
      cases hv : malformedStringIn v (pathTo path k) with
      | some found => simp [hv] at h
      | none =>
          rw [hv] at h
          rcases List.mem_cons.mp hm with heq | hm
          · obtain ⟨rfl, rfl⟩ := Prod.mk.inj heq
            by_contra hs
            simp [malformedStringIn, hs] at hv
          · exact ih h hm

/-- A receipt without malformed strings has a well-formed system identifier. -/
theorem isWellFormed_systemId {r : UnsignedReceipt}
    (h : malformedStringIn (unsignedReceiptSchema.encode r) [] = none) :
    isWellFormed r.systemId.1 = true := by
  obtain ⟨ms, hms, hmem⟩ : ∃ ms, unsignedReceiptSchema.encode r = .obj ms ∧
      (js "system_id", .str r.systemId.1) ∈ ms := by
    obtain ⟨⟨core, d⟩, hs⟩ := r
    cases d <;> exact ⟨_, rfl, .tail _ (.head _)⟩
  rw [hms, malformedStringIn] at h
  exact isWellFormed_of_member h hmem

-- ── Signing ──────────────────────────────────────────────────────────────────────

/-- What became of a receipt that was to be signed. -/
inductive SignOutcome where
  | refused (refusal : Refusal)
  /-- The source throws after these writes. -/
  | failed (writes : List Op)
  | signed (writes : List Op) (state : ChainState) (sig : Signature) (hash : Hex 64)

variable (c : Crypto) (options : SignerOptions)

/-- The position that may be signed next.  The source adds doubles: the sum is the exact one for the first 2^53
    receipts of a chain, and here a chain that long takes no other. -/
def expectedSeq : Option ChainState → ℕ
  | none => 0
  | some known => known.seq.1 + 1

omit c options in
/-- Up to that length `known.seq + 1` is the sum of doubles. -/
theorem roundNat_expectedSeq {known : ChainState} (h : known.seq.1 < 2 ^ 53) :
    roundNat (known.seq.1 + 1) = expectedSeq (some known) := roundNat_of_le (by omega)

/-- `known?.hash ?? GENESIS_PREV_HASH`. -/
def expectedPrev : Option ChainState → Hex 64
  | none => GENESIS_PREV_HASH
  | some known => known.hash

/-- A number of milliseconds as the seconds a message gives. -/
def secondsText (ms : ℕ) : JsString := numberToString (.ofRat (ms / 1000))

/-- `known?.frontier ?? emptyFrontier()`. -/
def frontierOf : Option ChainState → MerkleFrontier
  | none => MerkleTree.emptyFrontier
  | some known => known.frontier

/-- Signs a receipt whose place in the chain and whose time are right, and writes it down. -/
def signAccepted (volume : Volume) (known : Option ChainState) (receipt : UnsignedReceipt) :
    SignOutcome :=
  let digest := receiptHash c receipt
  let sig := signDigest options.key digest
  let head := receipt.signed sig
  match frontierAppend c (frontierOf known) digest with
  | none => .failed [record c volume head]
  | some frontier =>
      let state : ChainState := ⟨receipt.systemId, receipt.seq, digest.hex, head, frontier⟩
      .signed (record c volume head :: put c (.chain state)) state sig digest.hex

/-- The checks that need the chain's state: the position, the link, the clock. -/
def signNext (volume : Volume) (now : Timestamp) (known : Option ChainState)
    (receipt : UnsignedReceipt) : SignOutcome :=
  if receipt.seq.1 ≠ expectedSeq known then
    .refused ⟨.sequence, match known with
      | none => receipt.systemId.1 ++ js " has no chain yet, so only seq 0 can be signed, not seq "
          ++ countText receipt.seq.1
      | some _ => js "the next receipt of " ++ receipt.systemId.1 ++ js " is seq "
          ++ countText (expectedSeq known) ++ js ", not seq " ++ countText receipt.seq.1⟩
  else if receipt.prevHash ≠ expectedPrev known then
    .refused ⟨.sequence, js "prev_hash " ++ receipt.prevHash.1
      ++ js " is not the hash of the last receipt signed for " ++ receipt.systemId.1 ++ js " ("
      ++ (expectedPrev known).1 ++ js ")"⟩
  else if |dateParse receipt.tsReceived - dateParse now| > options.toleranceMs then
    .refused ⟨.clock, js "ts_received " ++ receipt.tsReceived.1 ++ js " is more than "
      ++ secondsText options.toleranceMs ++ js " s from the signer's clock (" ++ now.1 ++ js ")"⟩
  else
    match known with
    | some state =>
        if dateParse receipt.tsReceived < dateParse state.head.tsReceived then
          .refused ⟨.clock, js "ts_received " ++ receipt.tsReceived.1
            ++ js " is earlier than that of the receipt before it (" ++ state.head.tsReceived.1
            ++ js ")"⟩
        else signAccepted c options volume known receipt
    | none => signAccepted c options volume known receipt

/-- **`signReceipt`**: signs the receipt if, and only if, it is the next one of its chain. -/
def signReceipt (volume : Volume) (systems : Systems) (now : Timestamp)
    (receipt : UnsignedReceipt) : SignOutcome :=
  if receipt.keyId ≠ options.key.keyId then
    .refused ⟨.invalid, js "the receipt names key_id " ++ receipt.keyId.1
      ++ js ", and this signer holds " ++ options.key.keyId.1⟩
  else
    match malformedStringIn (unsignedReceiptSchema.encode receipt) [] with
    | some path => .refused ⟨.invalid, js "receipt field " ++ path
        ++ js " is not well-formed Unicode, so it has no canonical form"⟩
    | none =>
        if decide (receipt.seq.1 = 0) ≠ decide (receipt.action.kind = .genesis) then
          .refused ⟨.invalid, js "a genesis receipt is the one at seq 0, and only it"⟩
        else
          match systems receipt.systemId with
          | some (.retired _) => .refused ⟨.sequence, receipt.systemId.1
              ++ js " belonged to a deleted system and is not given a new chain"⟩
          | some (.chain known) => signNext c options volume now (some known) receipt
          | none => signNext c options volume now none receipt

/-- What the signer holds of a system's chain, when it is not a retired one. -/
def knownChain (systems : Systems) (systemId : SystemId) : Option ChainState :=
  match systems systemId with
  | some (.chain known) => some known
  | _ => none

/-- **What a signature implies**: the checks it passed, what is written and what is kept. -/
structure Signs (volume : Volume) (systems : Systems) (receipt : UnsignedReceipt)
    (writes : List Op) (state : ChainState) (sig : Signature) (hash : Hex 64) : Prop where
  wellFormed : isWellFormed receipt.systemId.1 = true
  genesis : receipt.seq.1 = 0 ↔ receipt.action.kind = .genesis
  notRetired : ∀ r, systems receipt.systemId ≠ some (.retired r)
  seq : receipt.seq.1 = expectedSeq (knownChain systems receipt.systemId)
  prevHash : receipt.prevHash = expectedPrev (knownChain systems receipt.systemId)
  hash_eq : hash = receiptHashHex c receipt
  sig_eq : sig = signDigest options.key (receiptHash c receipt)
  frontier : frontierAppend c (frontierOf (knownChain systems receipt.systemId))
    (receiptHash c receipt) = some state.frontier
  state_eq : state = ⟨receipt.systemId, receipt.seq, hash, receipt.signed sig, state.frontier⟩
  writes_eq : writes = record c volume (receipt.signed sig) :: put c (.chain state)

/-- What is signed is written, and its state with it. -/
theorem signAccepted_signed {volume : Volume} {known : Option ChainState}
    {receipt : UnsignedReceipt} {writes : List Op} {state : ChainState} {sig : Signature}
    {hash : Hex 64} (h : signAccepted c options volume known receipt = .signed writes state sig hash) :
    hash = receiptHashHex c receipt ∧ sig = signDigest options.key (receiptHash c receipt) ∧
      frontierAppend c (frontierOf known) (receiptHash c receipt) = some state.frontier ∧
      state = ⟨receipt.systemId, receipt.seq, hash, receipt.signed sig, state.frontier⟩ ∧
      writes = record c volume (receipt.signed sig) :: put c (.chain state) := by
  unfold signAccepted at h
  cases hf : frontierAppend c (frontierOf known) (receiptHash c receipt) with
  | none => simp [hf] at h
  | some frontier =>
      simp only [hf] at h
      obtain ⟨rfl, rfl, rfl, rfl⟩ := SignOutcome.signed.inj h
      exact ⟨rfl, rfl, rfl, rfl, rfl⟩

/-- What `signNext` has checked by the time it signs or fails. -/
theorem signNext_accepted {volume : Volume} {now : Timestamp} {known : Option ChainState}
    {receipt : UnsignedReceipt} {outcome : SignOutcome} (hout : ∀ r, outcome ≠ .refused r)
    (h : signNext c options volume now known receipt = outcome) :
    receipt.seq.1 = expectedSeq known ∧ receipt.prevHash = expectedPrev known ∧
      signAccepted c options volume known receipt = outcome := by
  unfold signNext at h
  split_ifs at h with h1 h2 h3
  · exact absurd h.symm (hout _)
  · exact absurd h.symm (hout _)
  · exact absurd h.symm (hout _)
  · refine ⟨not_not.mp h1, not_not.mp h2, ?_⟩
    cases known with
    | none => exact h
    | some state =>
        simp only at h
        split_ifs at h
        · exact absurd h.symm (hout _)
        · exact h

/-- What `signReceipt` has checked by the time it signs or fails. -/
theorem signReceipt_accepted {volume : Volume} {systems : Systems} {now : Timestamp}
    {receipt : UnsignedReceipt} {outcome : SignOutcome} (hout : ∀ r, outcome ≠ .refused r)
    (h : signReceipt c options volume systems now receipt = outcome) :
    isWellFormed receipt.systemId.1 = true ∧ (receipt.seq.1 = 0 ↔ receipt.action.kind = .genesis) ∧
      (∀ r, systems receipt.systemId ≠ some (.retired r)) ∧
      signNext c options volume now (knownChain systems receipt.systemId) receipt = outcome := by
  unfold signReceipt at h
  by_cases hkey : receipt.keyId ≠ options.key.keyId
  · rw [if_pos hkey] at h
    exact absurd h.symm (hout _)
  · rw [if_neg hkey] at h
    cases hwf : malformedStringIn (unsignedReceiptSchema.encode receipt) [] with
    | some path =>
        rw [hwf] at h
        exact absurd h.symm (hout _)
    | none =>
      simp only [hwf] at h
      by_cases hgen : decide (receipt.seq.1 = 0) ≠ decide (receipt.action.kind = .genesis)
      · rw [if_pos hgen] at h
        exact absurd h.symm (hout _)
      · rw [if_neg hgen] at h
        refine ⟨isWellFormed_systemId hwf, by simpa using hgen, ?_⟩
        unfold knownChain
        cases hs : systems receipt.systemId with
        | none =>
            rw [hs] at h
            exact ⟨by simp, h⟩
        | some state =>
            rw [hs] at h
            cases state with
            | retired r => exact absurd h.symm (hout _)
            | chain known => exact ⟨by simp, h⟩

/-- **A signature is given only for the next receipt of its chain.** -/
theorem signReceipt_signed {volume : Volume} {systems : Systems} {now : Timestamp}
    {receipt : UnsignedReceipt} {writes : List Op} {state : ChainState} {sig : Signature}
    {hash : Hex 64}
    (h : signReceipt c options volume systems now receipt = .signed writes state sig hash) :
    Signs c options volume systems receipt writes state sig hash := by
  obtain ⟨hwf, hgen, hret, hnext⟩ := signReceipt_accepted c options (by simp) h
  obtain ⟨hseq, hprev, hacc⟩ := signNext_accepted c options (by simp) hnext
  obtain ⟨hhash, hsig, hfr, hstate, hwrites⟩ := signAccepted_signed c options hacc
  exact ⟨hwf, hgen, hret, hseq, hprev, hhash, hsig, hfr, hstate, hwrites⟩

-- ── Checkpoints, heads, receipts ─────────────────────────────────────────────────

/-- A checkpoint over everything signed for the system, at the signer's own time; `none` for a
    size past `2 ^ 53` that no number of the checkpoint could hold. -/
def checkpoint (systems : Systems) (now : Timestamp) (systemId : SystemId) :
    Except Refusal (Option Checkpoint) :=
  match knownChain systems systemId with
  | some known =>
      if h : IsDouble (known.frontier.size : ℚ) ∧ 0 < known.frontier.size then
        .ok (some (signCheckpoint c
          { systemId, treeSize := ⟨known.frontier.size, h⟩,
            rootHash := (frontierRoot c known.frontier).hex, ts := now,
            keyId := options.key.keyId } options.key))
      else .ok none
  | none => .error ⟨.unknownSystem, js "this signer has signed no chain for " ++ systemId.1⟩

/-- The receipts signed for the system from `fromSeq` on, from the journal. -/
def signerReceipts (volume : Volume) (systems : Systems) (systemId : SystemId)
    (fromSeq limit : ℕ) : Except Refusal (List Receipt) :=
  match knownChain systems systemId with
  | some _ => .ok (receiptsOf c volume systems systemId fromSeq limit)
  | none => .error ⟨.unknownSystem, js "this signer has signed no chain for " ++ systemId.1⟩

/-- The last receipt signed for the system, if there is one. -/
def signerHead (systems : Systems) (systemId : SystemId) : Option Receipt :=
  (knownChain systems systemId).map fun known => known.head

-- ── The socket protocol ──────────────────────────────────────────────────────────

/-- The version of the protocol. -/
def PROTOCOL_VERSION : ℕ := 2

/-- The most receipts of a page. -/
def MAX_RECEIPTS_PER_REPLY : ℕ := 50

/-- `^[A-Za-z0-9_-]{1,64}$`. -/
def isRequestId (s : JsString) : Prop :=
  1 ≤ s.length ∧ s.length ≤ 64 ∧ ∀ u ∈ s, (0x41 ≤ u.toNat ∧ u.toNat ≤ 0x5A) ∨
    (0x61 ≤ u.toNat ∧ u.toNat ≤ 0x7A) ∨ (0x30 ≤ u.toNat ∧ u.toNat ≤ 0x39) ∨ u = 0x5F ∨ u = 0x2D

instance : DecidablePred isRequestId := fun _ => inferInstanceAs (Decidable (_ ∧ _))

/-- The id of a request. -/
abbrev RequestId := {s : JsString // isRequestId s}

/-- How many receipts are asked for. -/
abbrev Limit := {n : ℕ // IsDouble (n : ℚ) ∧ (1 ≤ n ∧ n ≤ MAX_RECEIPTS_PER_REPLY)}

/-- What is asked for. -/
inductive Method where
  | pubkey | signReceipt | checkpoint | getHead | getReceipts
deriving DecidableEq

/-- The word for it. -/
def Method.name : Method → JsString
  | .pubkey => js "PUBKEY"
  | .signReceipt => js "SIGN_RECEIPT"
  | .checkpoint => js "CHECKPOINT"
  | .getHead => js "GET_HEAD"
  | .getReceipts => js "GET_RECEIPTS"

/-- The words tell them apart. -/
theorem Method.name_injective (a b : Method) (h : a.name = b.name) : a = b := by
  cases a <;> cases b <;> simp_all [Method.name]

/-- One of the words. -/
def methodSchema : Codec Method :=
  .enum [.pubkey, .signReceipt, .checkpoint, .getHead, .getReceipts]
    (by intro a; cases a <;> simp) Method.name Method.name_injective

/-- What a request carries beside `v`, `id` and `method`. -/
def MethodArgs : Method → Type
  | .pubkey => Unit
  | .signReceipt => UnsignedReceipt
  | .checkpoint => SystemId
  | .getHead => SystemId
  | .getReceipts => SystemId × Count × Limit

/-- The version, and no other. -/
def protocolVersion : Codec Unit :=
  .natEnum [()] mem_unit (fun _ => PROTOCOL_VERSION) (fun _ => isDouble_natCast (by decide))
    fun _ _ _ => rfl

/-- One word, and no other. -/
def methodLiteral (m : Method) : Codec Unit :=
  .enum [()] mem_unit (fun _ => m.name) fun _ _ _ => rfl

/-- `v`, `id` and `method`. -/
def requestHead (m : Method) : Fields RequestId :=
  (Fields.both (.req (js "v") protocolVersion)
    (.both (.req (js "id") (.str isRequestId)) (.req (js "method") (methodLiteral m))
      (show ∀ k ∈ [js "id"], k ∉ [js "method"] by decide))
    (show ∀ k ∈ [js "v"], k ∉ [js "id", js "method"] by decide)).iso
    ⟨fun p => p.2.1, fun id => ((), id, ()), fun _ => rfl, fun _ => rfl⟩

/-- The members of a request, by its method. -/
def requestFields : (m : Method) → Fields (RequestId × MethodArgs m)
  | .pubkey => (requestHead .pubkey).iso ⟨fun id => (id, ()), fun p => p.1, fun _ => rfl,
      fun _ => rfl⟩
  | .signReceipt => .both (requestHead .signReceipt)
      (.req (js "receipt") unsignedReceiptSchema) (by decide)
  | .checkpoint => .both (requestHead .checkpoint) (.req (js "system_id") (textSchema _))
      (by decide)
  | .getHead => .both (requestHead .getHead) (.req (js "system_id") (textSchema _)) (by decide)
  | .getReceipts => .both (requestHead .getReceipts)
      (.both (.req (js "system_id") (textSchema _))
        (.both (.req (js "from_seq") countSchema) (.req (js "limit") (.nat _)) (by decide))
        (by decide)) (by decide)

/-- **`requestSchema`.** -/
def requestSchema : Codec (Σ m, RequestId × MethodArgs m) :=
  .union (js "method") methodSchema
    (fun m => .object (requestFields m) (by cases m <;> decide))
    (by rintro m ⟨id, args⟩; cases m <;> exact ⟨_, rfl, rfl⟩)

/-- What a request asks for. -/
inductive Request where
  | pubkey
  | signReceipt (receipt : UnsignedReceipt)
  | checkpoint (systemId : SystemId)
  | getHead (systemId : SystemId)
  | getReceipts (systemId : SystemId) (fromSeq : Count) (limit : Limit)

/-- A request of its method and arguments. -/
def requestOf : (m : Method) → MethodArgs m → Request
  | .pubkey, _ => .pubkey
  | .signReceipt, receipt => .signReceipt receipt
  | .checkpoint, systemId => .checkpoint systemId
  | .getHead, systemId => .getHead systemId
  | .getReceipts, (systemId, fromSeq, limit) => .getReceipts systemId fromSeq limit

/-- The line of a reply, before it is written as JSON. -/
inductive Reply where
  | refusal (code : RefusalCode) (error : JsString) (requestId : Option RequestId)
  | pubkey (requestId : RequestId) (keyId : Hex 16) (publicKeyBase64 : {s : JsString // IsKeyText s})
  | signed (requestId : RequestId) (sig : Signature) (hash : Hex 64)
  | checkpoint (requestId : RequestId) (checkpoint : Checkpoint)
  | head (requestId : RequestId) (head : Option Receipt)
  | receipts (requestId : RequestId) (receipts : List Receipt)

/-- What handling a line comes to: what is written, the receipt those writes commit once all of
    them are made, what is then in memory, and the reply; no reply where the source throws, after
    which the daemon answers nothing more. -/
structure Handled where
  writes : List Op
  commits : Option Receipt
  systems : Systems
  reply : Option Reply

/-- A request that passed the schema. -/
def handleRequest (volume : Volume) (systems : Systems) (now : Timestamp) (id : RequestId) :
    Request → Handled
  | .pubkey => ⟨[], none, systems, some (.pubkey id options.key.keyId options.key.publicKeyBase64)⟩
  | .signReceipt receipt =>
      match signReceipt c options volume systems now receipt with
      | .refused r => ⟨[], none, systems, some (.refusal r.code r.message (some id))⟩
      | .failed writes => ⟨writes, none, systems, none⟩
      | .signed writes state sig hash =>
          ⟨writes, some state.head, systems.set (.chain state), some (.signed id sig hash)⟩
  | .checkpoint systemId =>
      match checkpoint c options systems now systemId with
      | .error r => ⟨[], none, systems, some (.refusal r.code r.message (some id))⟩
      | .ok none => ⟨[], none, systems, none⟩
      | .ok (some checkpoint) => ⟨[], none, systems, some (.checkpoint id checkpoint)⟩
  | .getHead systemId => ⟨[], none, systems, some (.head id (signerHead systems systemId))⟩
  | .getReceipts systemId fromSeq limit =>
      match signerReceipts c volume systems systemId fromSeq.1 limit.1 with
      | .error r => ⟨[], none, systems, some (.refusal r.code r.message (some id))⟩
      | .ok receipts => ⟨[], none, systems, some (.receipts id receipts)⟩

/-- A member of an object, when it is a string of the form of a request's name. -/
def requestIdOf (members : List (JsString × Json)) : Option RequestId :=
  match members.lookup (js "id") with
  | some (.str s) => if h : isRequestId s then some ⟨s, h⟩ else none
  | _ => none

/-- Whether `v` is the version this signer speaks. -/
def speaksVersion (members : List (JsString × Json)) : Bool :=
  match members.lookup (js "v") with
  | some (.num x) => x.toNat? == some PROTOCOL_VERSION
  | _ => false

/-- **`handleLine`.** -/
def handleLine (volume : Volume) (systems : Systems) (now : Timestamp) (line : JsString) :
    Handled :=
  match jsonParse line with
  | none => ⟨[], none, systems, some (.refusal .malformed (js "request is not JSON") none)⟩
  | some (.obj members) =>
      match requestIdOf members with
      | none => ⟨[], none, systems, some (.refusal .malformed
          (js "id is required: 1 to 64 characters from A-Z, a-z, 0-9, _ and -") none)⟩
      | some id =>
          if ¬ speaksVersion members then
            ⟨[], none, systems, some (.refusal .version (js "this signer speaks protocol version "
              ++ decimal PROTOCOL_VERSION ++ js " only") (some id))⟩
          else
            match requestSchema.decode (.obj members) with
            | none => ⟨[], none, systems, some (.refusal .malformed
                (options.zodIssues (.obj members)) (some id))⟩
            | some ⟨m, _, args⟩ => handleRequest c options volume systems now id (requestOf m args)
  | some _ => ⟨[], none, systems, some (.refusal .malformed (js "request must be a JSON object") none)⟩

/-- The request a line makes, when it makes one. -/
def requestIn (line : JsString) : Option Request :=
  ((jsonParse line).bind requestSchema.decode).map fun r => requestOf r.1 r.2.2

/-- The receipts a reply to a line reveals. -/
def revealed (line : JsString) : Reply → List Receipt
  | .signed _ sig _ =>
      match requestIn line with
      | some (.signReceipt receipt) => [receipt.signed sig]
      | _ => []
  | .head _ (some head) => [head]
  | .receipts _ receipts => receipts
  | _ => []

/-- A line is refused outright, or what its request comes to. -/
theorem handleLine_cases (volume : Volume) (systems : Systems) (now : Timestamp)
    (line : JsString) :
    (∃ code error id, handleLine c options volume systems now line
      = ⟨[], none, systems, some (.refusal code error id)⟩) ∨
    ∃ id request, requestIn line = some request ∧
      handleLine c options volume systems now line
        = handleRequest c options volume systems now id request := by
  unfold handleLine requestIn
  cases hj : jsonParse line with
  | none => exact .inl ⟨_, _, _, rfl⟩
  | some value =>
      cases value with
      | obj members =>
          simp only
          cases hid : requestIdOf members with
          | none => exact .inl ⟨_, _, _, rfl⟩
          | some id =>
              simp only
              by_cases hv : speaksVersion members = true
              · rw [if_neg (not_not.mpr hv)]
                cases hd : requestSchema.decode (.obj members) with
                | none => exact .inl ⟨_, _, _, rfl⟩
                | some r => exact .inr ⟨id, requestOf r.1 r.2.2, by simp [hd], rfl⟩
              · rw [if_pos hv]
                exact .inl ⟨_, _, _, rfl⟩
      | _ => exact .inl ⟨_, _, _, rfl⟩

/-- **What handling a line does**: nothing but answer; or it signs; or the frontier held fewer
    nodes than its size requires and the source throws. -/
theorem handleLine_effect (volume : Volume) (systems : Systems) (now : Timestamp)
    (line : JsString) :
    (∃ reply, handleLine c options volume systems now line = ⟨[], none, systems, reply⟩) ∨
    (∃ id receipt writes state sig hash, requestIn line = some (.signReceipt receipt) ∧
      Signs c options volume systems receipt writes state sig hash ∧
      handleLine c options volume systems now line =
        ⟨writes, some (receipt.signed sig), systems.set (.chain state),
          some (.signed id sig hash)⟩) ∨
    (∃ receipt : UnsignedReceipt, frontierAppend c
      (frontierOf (knownChain systems receipt.systemId)) (receiptHash c receipt) = none) := by
  rcases handleLine_cases c options volume systems now line with ⟨code, error, id, h⟩ |
    ⟨id, request, hreq, h⟩
  · exact .inl ⟨_, h⟩
  rw [h]
  cases request with
  | pubkey => exact .inl ⟨_, rfl⟩
  | getHead s => exact .inl ⟨_, rfl⟩
  | checkpoint s =>
      unfold handleRequest
      cases hc : checkpoint c options systems now s with
      | error r => exact .inl ⟨some (.refusal r.code r.message (some id)), by simp only [hc]⟩
      | ok made =>
          cases made with
          | none => exact .inl ⟨none, by simp only [hc]⟩
          | some made => exact .inl ⟨some (.checkpoint id made), by simp only [hc]⟩
  | getReceipts s fromSeq limit =>
      unfold handleRequest
      cases hr : signerReceipts c volume systems s fromSeq.1 limit.1 with
      | error r => exact .inl ⟨some (.refusal r.code r.message (some id)), by simp only [hr]⟩
      | ok receipts => exact .inl ⟨some (.receipts id receipts), by simp only [hr]⟩
  | signReceipt receipt =>
      unfold handleRequest
      cases ho : signReceipt c options volume systems now receipt with
      | refused r => exact .inl ⟨some (.refusal r.code r.message (some id)), by simp only [ho]⟩
      | signed writes state sig hash =>
          have hs := signReceipt_signed c options ho
          refine .inr (.inl ⟨id, receipt, writes, state, sig, hash, hreq, hs, ?_⟩)
          simp only [ho]
          rw [show state.head = receipt.signed sig by rw [hs.state_eq]]
      | failed writes =>
          obtain ⟨-, -, -, hnext⟩ := signReceipt_accepted c options (by simp) ho
          obtain ⟨-, -, hacc⟩ := signNext_accepted c options (by simp) hnext
          refine .inr (.inr ⟨receipt, ?_⟩)
          unfold signAccepted at hacc
          cases hf : frontierAppend c (frontierOf (knownChain systems receipt.systemId))
            (receiptHash c receipt) with
          | none => rfl
          | some frontier => simp [hf] at hacc

end Sigillo
