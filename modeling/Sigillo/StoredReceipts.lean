import Sigillo.Crypto

/-!
# A receipt as the database keeps it

The store writes a receipt as its canonical form, without the signature, beside the signature and
the columns that queries read; and reads it back from the two. Nothing is lost on the way
(**`rowToReceipt_receiptRow`**), whichever the receipt's version. -/

namespace Sigillo

open DoubleArith Utf16Text JsonText JsonParse JsonSchema HexBase64 IsoTime

variable (c : Crypto)

/-- `new TextDecoder().decode(bytes)`: a byte order mark at the start is dropped. -/
def textDecode (bytes : Bytes) : JsString :=
  utf8Decode (if [0xEF, 0xBB, 0xBF] <+: bytes then bytes.drop 3 else bytes)

/-- A row of `receipts`. -/
structure ReceiptRow where
  systemId : SystemId
  seq : Count
  hash : Hex 64
  prevHash : Hex 64
  canonical : JsString
  sig : Signature
  keyId : Hex 16
  tsEvent : Timestamp
  tsReceived : Timestamp
  actionKind : ActionKind
  actionName : JsString
  outcome : Outcome
  sourceTraceId : Option (Hex 32)
  sourceSpanId : Option (Hex 16)
deriving DecidableEq

/-- The row `insertRow` writes: one set of bytes, stored as `canonical` and hashed as `hash`. -/
def receiptRow (receipt : Receipt) : ReceiptRow where
  systemId := receipt.systemId
  seq := receipt.seq
  hash := (c.sha256 (canonicalReceiptBytes receipt.toUnsignedReceipt)).hex
  prevHash := receipt.prevHash
  canonical := textDecode (canonicalReceiptBytes receipt.toUnsignedReceipt)
  sig := receipt.sig
  keyId := receipt.keyId
  tsEvent := receipt.tsEvent
  tsReceived := receipt.tsReceived
  actionKind := receipt.action.kind
  actionName := receipt.action.name.1
  outcome := receipt.outcome
  sourceTraceId := receipt.source.traceId
  sourceSpanId := receipt.source.spanId

/-- `parseReceipt({ ...JSON.parse(row.canonical), sig: row.sig })`; `none` where it throws. -/
def rowToReceipt (row : ReceiptRow) : Option Receipt :=
  match jsonParse row.canonical with
  | some (.obj members) => receiptSchema.decode (.obj (setMember members (js "sig") (.str row.sig.1)))
  | _ => none

-- ── The text that is stored ──────────────────────────────────────────────────────

theorem canonical_obj (r : UnsignedReceipt) : ∃ rest,
    canonicalJson (unsignedReceiptSchema.encode r) = 0x7B :: rest := by
  obtain ⟨ms, hms⟩ : ∃ ms, unsignedReceiptSchema.encode r = .obj ms := by
    obtain ⟨⟨core, d⟩, hs⟩ := r
    cases d <;> exact ⟨_, rfl⟩
  rw [hms, canonicalJson, sortKeys_obj, stringify]
  cases sortedMembers ms with
  | nil => exact ⟨_, rfl⟩
  | cons m rest => exact ⟨_, rfl⟩

/-- The stored text is the canonical form itself. -/
theorem textDecode_canonicalReceiptBytes (r : UnsignedReceipt) :
    textDecode (canonicalReceiptBytes r) = canonicalJson (unsignedReceiptSchema.encode r) := by
  have hnot : ¬ [0xEF, 0xBB, 0xBF] <+: canonicalReceiptBytes r := by
    obtain ⟨rest, hrest⟩ := canonical_obj r
    have hfirst : utf8Encode (0x7B :: rest) = 0x7B :: utf8Encode rest := rfl
    rintro ⟨t, ht⟩
    rw [canonicalReceiptBytes, canonicalBytes, hrest, hfirst] at ht
    cases ht
  rw [textDecode, if_neg hnot]
  exact utf8Decode_utf8Encode (isWellFormed_stringifyAt 0 0 _)

-- ── And back ─────────────────────────────────────────────────────────────────────

/-- The members of a receipt in another order, with its signature after them, are that receipt. -/
theorem decode_sorted_signed (r : Receipt) {ms : List (JsString × Json)}
    (hms : unsignedReceiptSchema.encode r.toUnsignedReceipt = .obj ms) :
    receiptSchema.decode (.obj (setMember (sortedMembers ms) (js "sig") (.str r.sig.1))) = some r := by
  obtain ⟨ms', hms', hencode⟩ := receiptSchema_encode r
  obtain rfl : ms = ms' := by
    rw [hms] at hms'
    exact Json.obj.inj hms'
  have hregular : Regular (.obj ms) := hms ▸ unsignedReceiptSchema.regular _
  have hsigned : Regular (.obj (ms ++ [(js "sig", .str r.sig.1)])) := hencode ▸ receiptSchema.regular r
  have hnd := (KeysDistinct.of_regular hsigned).members.2
  have hsorted : Regular (.obj (sortedMembers ms)) := sortKeys_obj ms ▸ Regular.sortKeys hregular
  have hkeys : ((sortedMembers ms).map Prod.fst).Perm (ms.map Prod.fst) := by
    have hperm := (sortedMembers_perm ms).map Prod.fst
    rwa [keys_map_sortKeys] at hperm
  have hnot : js "sig" ∉ (sortedMembers ms).map Prod.fst := by
    rw [hkeys.mem_iff]
    intro hmem
    rw [List.map_append] at hnd
    exact (List.nodup_append.mp hnd).2.2 _ hmem _ (by simp) rfl
  have happend : setMember (sortedMembers ms) (js "sig") (.str r.sig.1)
      = sortedMembers ms ++ [(js "sig", .str r.sig.1)] := by
    have hany : (sortedMembers ms).any (fun m => m.1 == js "sig") ≠ true := by
      intro h
      obtain ⟨m, hm, heq⟩ := List.any_eq_true.mp h
      exact hnot (List.mem_map.mpr ⟨m, hm, beq_iff_eq.mp heq⟩)
    rw [setMember, if_neg hany]
  have hdistinct : KeysDistinct (.obj (sortedMembers ms ++ [(js "sig", .str r.sig.1)])) :=
    happend ▸ keysDistinct_setMember (.of_regular hsorted) _ (.str _)
  rw [happend, receiptSchema.decode_iff hdistinct, hencode,
    sortKeys_obj_iff hdistinct.members.2 hnd]
  intro k
  have hsame : sortKeys (.obj (sortedMembers ms)) = sortKeys (.obj ms) := by
    rw [← sortKeys_obj, Regular.sortKeys_idem hregular]
  have hlookup := (sortKeys_obj_iff (KeysDistinct.of_regular hsorted).members.2
    (KeysDistinct.of_regular hregular).members.2).mp hsame k
  rw [List.lookup_append, List.lookup_append, Option.map_or, Option.map_or, hlookup]

/-- **A stored receipt reads back as it was.** -/
theorem rowToReceipt_receiptRow (r : Receipt) : rowToReceipt (receiptRow c r) = some r := by
  obtain ⟨ms, hms, -⟩ := receiptSchema_encode r
  have hregular := unsignedReceiptSchema.regular r.toUnsignedReceipt
  have hparse : jsonParse (receiptRow c r).canonical = some (.obj (sortedMembers ms)) := by
    rw [receiptRow, textDecode_canonicalReceiptBytes, canonicalJson,
      jsonParse_stringify (Regular.sortKeys hregular), hms, sortKeys_obj]
  rw [rowToReceipt, hparse]
  exact decode_sorted_signed r hms

/-- **Nothing a receipt says is lost or left out of its hash**: of two receipts with the same bytes
    only the signatures may differ; a stored row gives back the receipt, with the hash it stores; and
    so does the line an export writes. -/
theorem receipt_bytes_faithful (c : Crypto) :
    (∀ a b : Receipt, canonicalReceiptBytes a.toUnsignedReceipt = canonicalReceiptBytes b.toUnsignedReceipt ↔
      a.toUnsignedReceipt = b.toUnsignedReceipt) ∧
    (∀ r : Receipt, ∃ back, rowToReceipt (receiptRow c r) = some back ∧ back = r ∧
      receiptHashHex c back.toUnsignedReceipt = (receiptRow c r).hash) ∧
    (∀ r : Receipt, ∃ back, (jsonParse (canonicalJson (receiptSchema.encode r))).bind receiptSchema.decode
        = some back ∧ receiptHashHex c back.toUnsignedReceipt = receiptHashHex c r.toUnsignedReceipt) := by
  refine ⟨fun a b => canonicalReceiptBytes_injective.eq_iff,
    fun r => ⟨r, rowToReceipt_receiptRow c r, rfl, rfl⟩, fun r => ⟨r, ?_, rfl⟩⟩
  have hregular := receiptSchema.regular r
  rw [canonicalJson, jsonParse_stringify (Regular.sortKeys hregular), Option.bind_some,
    receiptSchema.decode_iff (.of_regular (Regular.sortKeys hregular)), Regular.sortKeys_idem hregular]

-- ── A hash for short chains ──────────────────────────────────────────────────────

/-- The receipt these bytes are the canonical form of. -/
def readReceipt (bytes : Bytes) : Option UnsignedReceipt :=
  (jsonParse (textDecode bytes)).bind unsignedReceiptSchema.decode

theorem readReceipt_canonical (r : UnsignedReceipt) : readReceipt (canonicalReceiptBytes r) = some r := by
  have hregular := unsignedReceiptSchema.regular r
  rw [readReceipt, textDecode_canonicalReceiptBytes, canonicalJson, jsonParse_stringify (Regular.sortKeys hregular),
    Option.bind_some, unsignedReceiptSchema.decode_iff (.of_regular (Regular.sortKeys hregular)),
    Regular.sortKeys_idem hregular]

/-- The digest after another, as far as its first byte can count. -/
def nextDigest (digest : Digest) : Digest :=
  ⟨(digest.1.headD 0 + 1) :: digest.1.tail, by rw [List.length_cons, List.length_tail, digest.2]⟩

/-- A hash that counts the links below a receipt, and signatures that all verify. -/
def linkCrypto : Crypto where
  sha256 bytes := (readReceipt bytes).elim ⟨List.replicate 32 0, length_zeros⟩
    fun r => nextDigest (digestOfHex r.prevHash)
  verify _ _ _ := true

theorem receiptHash_link (r : UnsignedReceipt) :
    receiptHash linkCrypto r = nextDigest (digestOfHex r.prevHash) := by
  show (readReceipt (canonicalReceiptBytes r)).elim _ _ = _
  rw [readReceipt_canonical]
  rfl

/-- A digest that says which position of which chain it is of, as far as two bytes can. -/
def positionDigest (r : UnsignedReceipt) : Digest :=
  ⟨UInt8.ofNat r.seq.1 :: UInt8.ofNat r.systemId.1.length :: List.replicate 30 0, by simp⟩

/-- A hash that tells the receipts of short chains apart, and signatures that all verify. -/
def positionCrypto : Crypto where
  sha256 bytes := (readReceipt bytes).elim ⟨List.replicate 32 0, length_zeros⟩ positionDigest
  verify _ _ _ := true

theorem receiptHash_position (r : UnsignedReceipt) : receiptHash positionCrypto r = positionDigest r := by
  show (readReceipt (canonicalReceiptBytes r)).elim _ positionDigest = positionDigest r
  rw [readReceipt_canonical]
  rfl

end Sigillo
