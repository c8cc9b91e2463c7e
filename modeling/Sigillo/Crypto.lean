import Sigillo.Receipt
import Sigillo.JsonBytes
import Sigillo.MerklePath

/-!
# Hashes and signatures

SHA-256 and Ed25519 are parameters (`Crypto`, `SignerKey`); what is built on them here is the
repository's own: the bytes a receipt's hash is taken over, the Merkle tree over receipt hashes,
the text of a signature.

SHA-256 is nowhere assumed injective. Where a result needs it to tell two inputs apart, it says on
which inputs (`Set.InjOn`). -/

namespace Sigillo

open DoubleArith Utf16Text JsonText JsonSchema HexBase64

/-- The primitives of `node:crypto`. -/
structure Crypto where
  sha256 : Bytes → Digest
  /-- `verify(null, message, publicKey, signature)`. -/
  verify : (publicKey message signature : Bytes) → Bool

variable (c : Crypto)

/-- SHA-256 in hexadecimal digits. -/
def Crypto.sha256Hex (bytes : Bytes) : Hex 64 := (c.sha256 bytes).hex

-- ── Receipts ─────────────────────────────────────────────────────────────────────

/-- The bytes a receipt's hash is taken over: its canonical form without `sig`. -/
def canonicalReceiptBytes (r : UnsignedReceipt) : Bytes :=
  canonicalBytes (unsignedReceiptSchema.encode r)

/-- The 32 bytes that Ed25519 signs and that the next receipt carries as `prev_hash`. -/
def receiptHash (r : UnsignedReceipt) : Digest := c.sha256 (canonicalReceiptBytes r)

/-- A receipt's hash in hexadecimal digits. -/
def receiptHashHex (r : UnsignedReceipt) : Hex 64 := (receiptHash c r).hex

/-- **The bytes that are hashed determine the receipt**, whichever its version. -/
theorem canonicalReceiptBytes_injective : Function.Injective canonicalReceiptBytes :=
  fun _ _ h => canonicalBytes_injective unsignedReceiptSchema h

/-- **Receipts of one hash are one receipt**, where SHA-256 tells their bytes apart. -/
theorem receiptHashHex_injOn {S : Set Bytes} (hS : Set.InjOn c.sha256 S) {a b : UnsignedReceipt}
    (ha : canonicalReceiptBytes a ∈ S) (hb : canonicalReceiptBytes b ∈ S)
    (h : receiptHashHex c a = receiptHashHex c b) : a = b :=
  canonicalReceiptBytes_injective (hS ha hb (Digest.hex_injective h))

-- ── The tree over receipt hashes ─────────────────────────────────────────────────

/-- `merkleLeafHash` hashes an entry of any length behind `0x00`, `merkleNodeHash` two children behind `0x01`. -/
def Crypto.bytesTree : MerkleTree.Hashing Bytes Digest Bytes where
  hash := c.sha256
  empty := []
  leaf entry := 0x00 :: entry
  node left right := 0x01 :: (left.1 ++ right.1)

/-- The tree over receipt hashes. -/
def Crypto.tree : MerkleTree.Hashing Digest Digest Bytes := c.bytesTree.comap Subtype.val

theorem Crypto.readable_bytesTree : c.bytesTree.Readable where
  leaf := fun _ _ hab => (List.cons.inj hab).2
  node := by
    intro l r l' r' h
    obtain ⟨hl, hr⟩ := List.append_inj (List.cons.inj h).2 (l.2.trans l'.2.symm)
    exact ⟨Subtype.ext hl, Subtype.ext hr⟩

theorem Crypto.readable_tree : c.tree.Readable where
  leaf := fun _ _ hab => Subtype.ext (c.readable_bytesTree.leaf hab)
  node := c.readable_bytesTree.node

/-- `merkleRoot`. -/
def merkleRoot (entries : List Digest) : Digest := MerkleTree.root c.tree entries

/-- The root an audit path claims for an entry of any length, or why there is none. -/
def rootFromInclusionProof (entry : Bytes) (index treeSize : ℕ) (proof : List Digest) :
    Except JsString Digest :=
  if treeSize ≤ index then
    .error (js "index " ++ countText index ++ js " is not in a tree of " ++ countText treeSize
      ++ js " entries")
  else if proof.length ≠ MerkleTree.auditPathLength index treeSize then
    .error (js "an audit path for entry " ++ countText index ++ js " of " ++ countText treeSize
      ++ js " has " ++ countText (MerkleTree.auditPathLength index treeSize)
      ++ js " steps, received " ++ countText proof.length)
  else .ok (MerkleTree.climb c.bytesTree entry index (roundNat (treeSize - 1)) proof)

/-- **The audit path of an entry rebuilds the root.** -/
theorem rootFromInclusionProof_inclusionProof {entries : List Digest} {entry : Digest} {index : ℕ}
    {path : List Digest} (hfit : entries.length ≤ 2 ^ 53) (hentry : entries[index]? = some entry)
    (hpath : MerkleTree.inclusionProof c.tree entries index = some path) :
    rootFromInclusionProof c entry.1 index entries.length path = .ok (merkleRoot c entries) := by
  have hlt := (List.getElem?_eq_some_iff.mp hentry).1
  have hclimb : MerkleTree.climb c.bytesTree entry.1 index (entries.length - 1) path = merkleRoot c entries :=
    MerkleTree.climb_inclusionProof c.tree hentry hpath
  rw [rootFromInclusionProof, if_neg (not_le.mpr hlt),
    if_neg (not_not.mpr (MerkleTree.length_inclusionProof c.tree hpath)), roundNat_of_le (by omega), hclimb]

/-- The frontier of the tree. -/
abbrev MerkleFrontier := MerkleTree.Frontier Digest

/-- Adds one entry; `none` where the source throws. -/
def frontierAppend (f : MerkleFrontier) (entry : Digest) : Option MerkleFrontier :=
  MerkleTree.frontierAppend c.tree f entry

/-- `frontierRoot`. -/
def frontierRoot (f : MerkleFrontier) : Digest := MerkleTree.frontierRoot c.tree f

-- ── Keys ─────────────────────────────────────────────────────────────────────────

/-- The signer's key: what it signs with, and the two texts that name it. -/
structure SignerKey where
  sign : Bytes → {b : Bytes // b.length = 64}
  keyId : Hex 16
  publicKeyBase64 : {s : JsString // IsKeyText s}

/-- The base64 of the Ed25519 signature over the 32 bytes of a hash. -/
def signDigest (key : SignerKey) (digest : Digest) : Signature :=
  ⟨base64Encode (key.sign digest.1).1, isSignatureText_encode (key.sign digest.1).2⟩

/-- Whether a signature verifies; one of the wrong form does not. -/
def verifyDigestSignature (digest : Digest) (signature : Signature) (publicKey : Bytes) : Bool :=
  c.verify publicKey digest.1 (base64Decode signature.1)

/-- `verifyReceiptSignature`. -/
def verifyReceiptSignature (r : Receipt) (publicKey : Bytes) : Bool :=
  verifyDigestSignature c (receiptHash c r.toUnsignedReceipt) r.sig publicKey

-- ── A toy instance ───────────────────────────────────────────────────────────────

/-- One digest for everything, every signature good. -/
def toyCrypto : Crypto := ⟨fun _ => ⟨List.replicate 32 0, length_zeros⟩, fun _ _ _ => true⟩

/-- The bytes read as one number, in base 257. -/
def numberHash (b : Bytes) : Digest :=
  let n := b.foldl (fun n byte => n * 257 + byte.toNat + 1) 0
  ⟨(List.range 32).map fun i => UInt8.ofNat (n / 256 ^ i), by simp⟩

/-- A hash that tells short bytes apart, and signatures that all verify. -/
def numberCrypto : Crypto := ⟨numberHash, fun _ _ _ => true⟩

/-- A key to try things with. -/
def toyKey : SignerKey where
  sign _ := ⟨List.replicate 64 0, by decide⟩
  keyId := ⟨List.replicate 16 0x30, isHex_zeros16⟩
  publicKeyBase64 := ⟨base64Encode (List.replicate 32 0), isKeyText_encode (by decide)⟩

end Sigillo
