import Sigillo.Crypto

/-!
# Audit paths over receipt hashes

The two halves of an inclusion proof, in the source's own functions: what `inclusionProof` builds
`rootFromInclusionProof` accepts, and, where SHA-256 tells apart what it is given, accepts nothing
else (**`rootFromInclusionProof_exact`**). -/

namespace Sigillo

open Utf16Text HexBase64 MerkleTree

variable (c : Crypto)

/-- What the checker has found by the time it answers. -/
theorem rootFromInclusionProof_ok {entry : Bytes} {root : Digest} {index treeSize : ℕ} {path : List Digest}
    (hfit : treeSize ≤ 2 ^ 53) (h : rootFromInclusionProof c entry index treeSize path = .ok root) :
    index < treeSize ∧ path.length = auditPathLength index treeSize ∧
      climb c.bytesTree entry index (treeSize - 1) path = root := by
  rw [rootFromInclusionProof] at h
  by_cases hin : treeSize ≤ index
  · rw [if_pos hin] at h
    cases h
  · rw [if_neg hin] at h
    by_cases hlen : path.length ≠ auditPathLength index treeSize
    · rw [if_pos hlen] at h
      cases h
    · rw [if_neg hlen, DoubleArith.roundNat_of_le (by omega)] at h
      exact ⟨not_le.mp hin, not_not.mp hlen, Except.ok.inj h⟩

/-- The bytes that are hashed for a tree of receipts, and for a path that claims its root for an
    entry of any length. -/
def hashedByBoth (entries : List Digest) (entry : Bytes) (index : ℕ) (path : List Digest) : Set Bytes :=
  {b | b ∈ preimages c.tree entries ∨ b ∈ claimedPreimages c.bytesTree entries.length entry index path.reverse}

/-- **Inclusion proofs are exact**: every entry has one, of the length its position calls for, that
    rebuilds the root; and where SHA-256 has no collision on what is hashed, no other bytes and no
    other path rebuild it. An array holds fewer than 2^32 entries. -/
theorem rootFromInclusionProof_exact (c : Crypto) (entries : List Digest) (hfit : entries.length < 2 ^ 32)
    (index : ℕ) (hindex : index < entries.length) :
    ∃ path, inclusionProof c.tree entries index = some path ∧
      path.length = auditPathLength index entries.length ∧
      rootFromInclusionProof c entries[index].1 index entries.length path = .ok (merkleRoot c entries) ∧
      ∀ entry other, Set.InjOn c.sha256 (hashedByBoth c entries entry index other) →
        rootFromInclusionProof c entry index entries.length other = .ok (merkleRoot c entries) →
        entry = entries[index].1 ∧ other = path := by
  obtain ⟨path, hpath⟩ : ∃ path, inclusionProof c.tree entries index = some path :=
    ⟨_, by rw [inclusionProof, if_pos hindex]⟩
  have hentry : entries[index]? = some entries[index] := List.getElem?_eq_getElem hindex
  refine ⟨path, hpath, length_inclusionProof c.tree hpath,
    rootFromInclusionProof_inclusionProof c (by omega) hentry hpath, fun entry other hS hok => ?_⟩
  obtain ⟨-, hlen, hclimb⟩ := rootFromInclusionProof_ok c (by omega) hok
  -- the tree over the digests is the one over their bytes, where any claimed entry has its place
  have hsize : (entries.map Subtype.val).length = entries.length := List.length_map ..
  have hinside : index < (entries.map Subtype.val).length := hsize ▸ hindex
  rw [merkleRoot, Crypto.tree, root_comap, ← hsize] at hclimb
  rw [hashedByBoth, Crypto.tree, preimages_comap, ← hsize] at hS
  rw [← hsize] at hlen
  obtain ⟨hsame, hother⟩ := inclusionProof_of_climb c.readable_bytesTree hinside hlen hS hclimb
  rw [List.getElem?_map, hentry] at hsame
  rw [← inclusionProof_comap, ← Crypto.tree, hpath] at hother
  exact ⟨(Option.some.inj hsame).symm, (Option.some.inj hother).symm⟩

/-- Three entries that are not the same. -/
def threeEntries : List Digest := [numberHash [0], numberHash [1], numberHash [2]]

/-- The second of three entries has a proof, and no bytes rebuild the root from it but its own: the
    empty ones do not. -/
theorem rootFromInclusionProof_three :
    ∃ path, inclusionProof numberCrypto.tree threeEntries 1 = some path ∧
      rootFromInclusionProof numberCrypto (numberHash [1]).1 1 3 path
        = .ok (merkleRoot numberCrypto threeEntries) ∧
      rootFromInclusionProof numberCrypto [] 1 3 path ≠ .ok (merkleRoot numberCrypto threeEntries) := by
  obtain ⟨path, hpath, -, hroot, hexact⟩ :=
    rootFromInclusionProof_exact numberCrypto threeEntries (by decide) 1 (by decide)
  refine ⟨path, hpath, hroot, fun hempty => ?_⟩
  obtain rfl : _ = path := Option.some.inj hpath
  have htold : Set.InjOn numberHash (hashedByBoth numberCrypto threeEntries [] 1
      (pathWithin numberCrypto.tree 3 threeEntries 1)) := by
    intro a ha b hb
    have hall : ∀ a ∈ preimages numberCrypto.tree threeEntries
        ++ claimedPreimages numberCrypto.bytesTree 3 [] 1 (pathWithin numberCrypto.tree 3 threeEntries 1).reverse,
        ∀ b ∈ preimages numberCrypto.tree threeEntries
        ++ claimedPreimages numberCrypto.bytesTree 3 [] 1 (pathWithin numberCrypto.tree 3 threeEntries 1).reverse,
        numberHash a = numberHash b → a = b := by decide +kernel
    exact hall a (List.mem_append.mpr ha) b (List.mem_append.mpr hb)
  exact absurd (hexact [] _ htold hempty).1 (by decide)

end Sigillo
