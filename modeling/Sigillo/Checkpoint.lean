import Sigillo.Crypto

/-!
# Checkpoints

A signed statement that one chain held exactly `tree_size` receipts whose Merkle root was
`root_hash`. Its canonical form and its signature follow the rules of a receipt's. -/

namespace Sigillo

open DoubleArith Utf16Text JsonText JsonSchema HexBase64 IsoTime

/-- A whole number, 1 or more. -/
abbrev PosCount := {n : ℕ // IsDouble (n : ℚ) ∧ 0 < n}

/-- A checkpoint without its signature. -/
structure UnsignedCheckpoint where
  systemId : SystemId
  treeSize : PosCount
  rootHash : Hex 64
  ts : Timestamp
  keyId : Hex 16
deriving DecidableEq

/-- **A signed checkpoint.** -/
structure Checkpoint extends UnsignedCheckpoint where
  sig : Signature
deriving DecidableEq

/-- `z.literal(CHECKPOINT_VERSION)`. -/
def checkpointVersion : Codec Unit :=
  .natEnum [()] mem_unit (fun _ => 1) (fun _ => isDouble_natCast (by decide)) fun _ _ _ => rfl

/-- Its members. -/
def unsignedCheckpointFields : Fields UnsignedCheckpoint :=
  (Fields.both (.req (js "v") checkpointVersion)
    (.both (.req (js "system_id") (textSchema _))
    (.both (.req (js "tree_size") (.nat _))
    (.both (.req (js "root_hash") (hexString 64))
    (.both (.req (js "ts") timestampSchema) (.req (js "key_id") (hexString 16))
      (by decide)) (by decide)) (by decide)) (by decide)) (by decide)).iso
    ⟨fun (_, systemId, treeSize, rootHash, ts, keyId) =>
      { systemId, treeSize, rootHash, ts, keyId },
     fun u => ((), u.systemId, u.treeSize, u.rootHash, u.ts, u.keyId), fun _ => rfl, fun _ => rfl⟩

/-- A checkpoint without its signature. -/
def unsignedCheckpointSchema : Codec UnsignedCheckpoint :=
  .object unsignedCheckpointFields (by decide)

/-- **`checkpointSchema`.** -/
def checkpointSchema : Codec Checkpoint :=
  (Codec.object (.both unsignedCheckpointFields (.req (js "sig") signatureSchema) (by decide))
    (by decide)).iso
    ⟨fun p => ⟨p.1, p.2⟩, fun c => (c.toUnsignedCheckpoint, c.sig), fun _ => rfl, fun _ => rfl⟩

variable (c : Crypto)

/-- The canonical form without `sig`. -/
def canonicalCheckpointBytes (u : UnsignedCheckpoint) : Bytes :=
  canonicalBytes (unsignedCheckpointSchema.encode u)

/-- What is signed. -/
def checkpointHash (u : UnsignedCheckpoint) : Digest := c.sha256 (canonicalCheckpointBytes u)

/-- `signCheckpoint`. -/
def signCheckpoint (u : UnsignedCheckpoint) (key : SignerKey) : Checkpoint :=
  { u with sig := signDigest key (checkpointHash c u) }

/-- `verifyCheckpointSignature`. -/
def verifyCheckpointSignature (checkpoint : Checkpoint) (publicKey : Bytes) : Bool :=
  verifyDigestSignature c (checkpointHash c checkpoint.toUnsignedCheckpoint) checkpoint.sig
    publicKey

end Sigillo
