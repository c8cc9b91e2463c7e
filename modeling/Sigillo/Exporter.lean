import Sigillo.ExportFiles
import Sigillo.AcceptedReceipts

/-!
# The exporter

`buildArchive` chooses the checkpoints that say something about a window of receipts, proves the
first and the last receipt of the window in the tree of each, and writes a manifest of what it put
in. What it writes passes the verifier (**`built_valid`**) when what it was given is what the store
keeps: a run of one system's receipts, signed by keys it publishes, checkpoints over the chain's
hashes. -/

namespace Sigillo

open DoubleArith Utf16Text JsonText JsonSchema HexBase64 IsoTime Fallible

/-- A checkpoint as the store has it. -/
structure StoredCheckpoint where
  id : ℕ
  checkpoint : Checkpoint
deriving DecidableEq

/-- A token as the store has it. -/
structure StoredTimestamp where
  tsaUrl : SomeText
  tokenBase64 : JsString
  /-- When the server received the token, by its own clock. -/
  obtainedAt : Timestamp
deriving DecidableEq

/-- A checkpoint with its tokens. -/
structure CheckpointInput where
  stored : StoredCheckpoint
  timestamps : List StoredTimestamp
deriving DecidableEq

/-- How many receipts it covers. -/
def CheckpointInput.size (i : CheckpointInput) : ℕ := i.stored.checkpoint.treeSize.1

/-- An array of the engine holds fewer than 2 ^ 32 items. -/
abbrev FitsArray {α : Type} (items : List α) : Prop := items.length < 2 ^ 32

/-- What an archive is made of. -/
structure ArchiveInput where
  sigilloVersion : SomeText
  systemId : SystemId
  receipts : List Receipt
  checkpoints : List CheckpointInput
  keys : NonEmpty ManifestKey
  exportedAt : Timestamp
  /-- The hash of every receipt of the chain, from position 0, in order. -/
  chainLeaves : Option (List (Hex 64))
  openings : List OpeningEntry
  subjects : List SubjectEntry
  receipts_fit : FitsArray receipts
  checkpoints_fit : FitsArray checkpoints
  tokens_fit : FitsArray (checkpoints.flatMap fun e => e.timestamps)

/-- A file of the archive. -/
structure ZipEntry where
  name : JsString
  data : Bytes
deriving DecidableEq

variable (c : Crypto)

-- ── Checkpoints ──────────────────────────────────────────────────────────────────

/-- The file of a token. -/
def tokenPath (treeSize index : ℕ) : SomeText :=
  ⟨js "timestamps/checkpoint-" ++ (countText treeSize ++ 0x2D :: countText (index + 1)
    ++ js ".tsr"), by rw [List.length_append]; exact le_add_right (by decide)⟩

/-- The first and the last receipt of the export in a tree. -/
def proofPositions (receipts : List Receipt) (treeSize : ℕ) : List Count :=
  let inTree := receipts.filter fun r => decide (r.seq.1 < treeSize)
  match inTree.head?, inTree.getLast? with
  | some first, some last => if first.seq = last.seq then [first.seq] else [first.seq, last.seq]
  | _, _ => []

/-- In order of size: every checkpoint whose tree holds a receipt of the window, up to the first
    whose tree holds them all. -/
def relevantFrom (first last : Receipt) : List CheckpointInput → List CheckpointInput
  | [] => []
  | candidate :: rest =>
      if candidate.size ≤ first.seq.1 then relevantFrom first last rest
      else if candidate.size > last.seq.1 then [candidate]
      else candidate :: relevantFrom first last rest

/-- The checkpoints by size. -/
def bySize (checkpoints : List CheckpointInput) : List CheckpointInput :=
  checkpoints.mergeSort fun a b => decide (a.size ≤ b.size)

/-- The checkpoints an export of a window carries. -/
def relevant (first last : Receipt) (checkpoints : List CheckpointInput) : List CheckpointInput :=
  relevantFrom first last (bySize checkpoints)

/-- The chain's hashes, as given or, for an export from position 0, from the receipts. -/
def leavesOf (input : ArchiveInput) (first : Receipt) : List Digest :=
  match input.chainLeaves with
  | some hashes => hashes.map digestOfHex
  | none =>
      if first.seq.1 = 0 then input.receipts.map fun r => receiptHash c r.toUnsignedReceipt else []

/-- One proof; `none` where the source throws. -/
def proofAt (receipts : List Receipt) (leaves : List Digest) (treeSize : ℕ) (seq : Count) :
    Option InclusionProofEntry := do
  let receipt ← findSeq receipts seq
  let path ← MerkleTree.inclusionProof c.tree (leaves.take treeSize) seq.1
  return ⟨seq, receiptHashHex c receipt.toUnsignedReceipt, path.map Digest.hex⟩

/-- The proofs for a checkpoint; none when the hashes its tree is built from are not all here. -/
def proofsFor (receipts : List Receipt) (leaves : List Digest) (treeSize : ℕ) :
    Option (List InclusionProofEntry) :=
  if treeSize ≤ leaves.length then
    (proofPositions receipts treeSize).mapM (proofAt c receipts leaves treeSize)
  else some []

/-- A checkpoint's tokens, as its entry names them. -/
def anchorsOf (e : CheckpointInput) : List ExportTimestamp :=
  e.timestamps.mapIdx fun index t => ⟨t.tsaUrl, t.obtainedAt, tokenPath e.size index⟩

/-- A checkpoint's tokens, as files. -/
def tokensOf (e : CheckpointInput) : List ZipEntry :=
  e.timestamps.mapIdx fun index t => ⟨(tokenPath e.size index).1, base64Decode t.tokenBase64⟩

/-- A checkpoint's entry, with the proofs its size has. -/
def entryOf (receipts : List Receipt) (leaves : List Digest) (e : CheckpointInput) :
    Option CheckpointEntry :=
  (proofsFor c receipts leaves e.size).map fun proofs => ⟨e.stored.checkpoint, proofs, anchorsOf e⟩

-- ── The other files ──────────────────────────────────────────────────────────────

/-- One line for each document a receipt names. -/
def indexOf (receipts : List Receipt) : List ArtifactsIndexEntry :=
  receipts.flatMap fun r => r.artifacts.map fun a => ⟨a.sha256, r.seq, a.role, a.label, a.text⟩

/-- The disclosed nonces of exported receipts. -/
def openingsOf (receipts : List Receipt) (openings : List OpeningEntry) : List OpeningEntry :=
  openings.filter fun e => receipts.any fun r => decide (r.seq = e.seq)

/-- The disclosed identifiers of tokens exported receipts use. -/
def subjectsOf (receipts : List Receipt) (subjects : List SubjectEntry) : List SubjectEntry :=
  subjects.filter fun e => (receipts.filterMap fun r => r.onBehalfOf).contains e.token.1

/-- The higher of two versions. -/
def higherVersion (a b : ReceiptVersion) : ReceiptVersion := if a.number < b.number then b else a

/-- The highest version of a receipt. -/
def versionOf (first : Receipt) (receipts : List Receipt) : ReceiptVersion :=
  receipts.foldl (fun highest r => higherVersion highest r.v) first.v

/-- A count of an array's items, of which the engine allows no more than 2 ^ 32. -/
def arrayCount (n : ℕ) : Count :=
  ⟨min n (2 ^ 32), isDouble_natCast ((min_le_right _ _).trans (by norm_num)), Nat.zero_le _⟩

/-- A length of an array is its length. -/
theorem arrayCount_of_lt {n : ℕ} (h : n < 2 ^ 32) : (arrayCount n).1 = n := min_eq_left h.le

-- ── The archive ──────────────────────────────────────────────────────────────────

/-- What an archive is made of, before the two files written for a person. -/
structure BuiltArchive where
  content : Export
  tokens : List ZipEntry

/-- The manifest of an archive. -/
def manifestOf (input : ArchiveInput) (first last : Receipt) (entries : List CheckpointEntry) :
    Manifest where
  sigilloVersion := input.sigilloVersion
  receiptVersion := versionOf first input.receipts
  systemId := input.systemId
  exportedAt := input.exportedAt
  range := ⟨first.seq, last.seq, first.tsReceived, last.tsReceived⟩
  counts := ⟨arrayCount input.receipts.length, some (arrayCount entries.length),
    some (arrayCount (tokenCount entries))⟩
  keys := input.keys

/-- **`buildArchive`**; `none` where the source throws. -/
def buildArchive (input : ArchiveInput) : Option BuiltArchive := do
  let first ← input.receipts.head?
  let last ← input.receipts.getLast?
  let chosen := relevant first last input.checkpoints
  let entries ← chosen.mapM (entryOf c input.receipts (leavesOf c input first))
  return {
    content := {
      manifest := manifestOf input first last entries
      receipts := input.receipts
      artifactsIndex := indexOf input.receipts
      openings := openingsOf input.receipts input.openings
      subjects := subjectsOf input.receipts input.subjects
      checkpoints := entries }
    tokens := chosen.flatMap tokensOf }

-- ── What the store keeps ─────────────────────────────────────────────────────────

/-- **What an export is built from**, with the keys it publishes as the verifier reads them. -/
structure Exportable (c : Crypto) (input : ArchiveInput) (table : List (Hex 16 × Bytes))
    (first last : Receipt) : Prop where
  run : SoundReceipts c first input.receipts
  last : input.receipts.getLast? = some last
  system : first.systemId = input.systemId
  genesis : first.seq.1 = 0 → first.action.kind = .genesis ∧ first.action.name.1 = first.systemId.1 ∧
    first.prevHash = GENESIS_PREV_HASH
  published : foldEach (manifestKey c) 1 [] input.keys.1 = .ok table
  signed : ∀ r ∈ input.receipts, ∃ key, table.lookup r.keyId = some key ∧
    verifyReceiptSignature c r key = true
  checkpointSystem : ∀ e ∈ input.checkpoints, e.stored.checkpoint.systemId = input.systemId
  checkpointSigned : ∀ e ∈ input.checkpoints, ∃ key,
    table.lookup e.stored.checkpoint.keyId = some key ∧
      verifyCheckpointSignature c e.stored.checkpoint key = true
  rebuilt : ∀ e ∈ input.checkpoints, rebuildable input.receipts e.size = true →
    recomputedRoot c input.receipts e.size = e.stored.checkpoint.rootHash
  /-- The chain's hashes hold those of the window, and are short enough to be an array. -/
  leaves : ∀ r ∈ input.receipts, r.seq.1 < (leavesOf c input first).length →
    (leavesOf c input first)[r.seq.1]? = some (receiptHash c r.toUnsignedReceipt)
  leaves_fit : FitsArray (leavesOf c input first)
  roots : ∀ e ∈ input.checkpoints, e.size ≤ (leavesOf c input first).length →
    (merkleRoot c ((leavesOf c input first).take e.size)).hex = e.stored.checkpoint.rootHash
  salted : ∀ e ∈ input.openings, ∀ r ∈ input.receipts, r.seq = e.seq →
    r.hashScheme e.role = some .salted
  openedOnce : (input.openings.map openingKey).Nodup
  namedOnce : (input.subjects.map fun e => e.token.1).Nodup

-- ── The exporter against the verifier ────────────────────────────────────────────

variable {c}

/-- The checkpoints carried are some of those there, in their order. -/
theorem relevantFrom_sublist (first last : Receipt) (candidates : List CheckpointInput) :
    (relevantFrom first last candidates).Sublist candidates := by
  induction candidates with
  | nil => exact .slnil
  | cons candidate rest ih =>
      rw [relevantFrom]
      split_ifs with hle hlast
      · exact ih.cons _
      · exact List.singleton_sublist.mpr (by simp)
      · exact ih.cons_cons _

/-- Sorting keeps the checkpoints. -/
theorem bySize_perm (checkpoints : List CheckpointInput) : (bySize checkpoints).Perm checkpoints :=
  List.mergeSort_perm _ _

/-- A checkpoint carried is one of those given. -/
theorem mem_of_mem_relevant {first last : Receipt} {checkpoints : List CheckpointInput}
    {e : CheckpointInput} (he : e ∈ relevant first last checkpoints) : e ∈ checkpoints :=
  (bySize_perm checkpoints).mem_iff.mp ((relevantFrom_sublist first last _).subset he)

/-- No more checkpoints are carried than given. -/
theorem length_relevant_le (first last : Receipt) (checkpoints : List CheckpointInput) :
    (relevant first last checkpoints).length ≤ checkpoints.length :=
  (relevantFrom_sublist first last _).length_le.trans_eq (bySize_perm checkpoints).length_eq

/-- Nor more tokens. -/
theorem length_tokens_relevant_le (first last : Receipt) (checkpoints : List CheckpointInput) :
    ((relevant first last checkpoints).flatMap fun e => e.timestamps).length
      ≤ (checkpoints.flatMap fun e => e.timestamps).length := by
  have hperm := (bySize_perm checkpoints).flatMap_right fun e => e.timestamps
  exact ((relevantFrom_sublist first last _).flatMap _).length_le.trans_eq hperm.length_eq

/-- A position with a proof is that of a receipt the checkpoint covers. -/
theorem mem_proofPositions {receipts : List Receipt} {treeSize : ℕ} {seq : Count}
    (h : seq ∈ proofPositions receipts treeSize) :
    seq.1 < treeSize ∧ ∃ r ∈ receipts, r.seq = seq := by
  have hmem : ∀ r : Receipt, r ∈ receipts.filter (fun r => decide (r.seq.1 < treeSize)) →
      r.seq = seq → seq.1 < treeSize ∧ ∃ r ∈ receipts, r.seq = seq := by
    rintro r hr rfl
    obtain ⟨hr, hlt⟩ := List.mem_filter.mp hr
    exact ⟨by simpa using hlt, r, hr, rfl⟩
  unfold proofPositions at h
  simp only at h
  split at h
  · rename_i first last hfirst hlast
    have hf := hmem first (List.mem_of_mem_head? hfirst)
    have hl := hmem last (List.mem_of_getLast? hlast)
    split_ifs at h
    · exact hf (List.mem_singleton.mp h).symm
    · rcases List.mem_pair.mp h with rfl | rfl
      · exact hf rfl
      · exact hl rfl
  · cases h

/-- A receipt's position is found. -/
theorem findSeq_eq_some {receipts : List Receipt} {r : Receipt} (hr : r ∈ receipts) :
    ∃ r', findSeq receipts r.seq = some r' ∧ r' ∈ receipts ∧ r'.seq = r.seq := by
  cases hf : findSeq receipts r.seq with
  | none => simpa using List.find?_eq_none.mp hf r hr
  | some r' => exact ⟨r', rfl, List.mem_of_find?_eq_some hf, by simpa using List.find?_some hf⟩

section Valid

variable {input : ArchiveInput} {table : List (Hex 16 × Bytes)} {first last : Receipt}
  (h : Exportable c input table first last)
include h

/-- A proof can be made for each position, and it rebuilds the root. -/
theorem proofAt_valid {e : CheckpointInput} (he : e ∈ input.checkpoints)
    (hsize : e.size ≤ (leavesOf c input first).length) {seq : Count}
    (hseq : seq ∈ proofPositions input.receipts e.size) :
    ∃ proof, proofAt c input.receipts (leavesOf c input first) e.size seq = some proof ∧
      ValidProof c input.receipts e.stored.checkpoint proof := by
  obtain ⟨hlt, r, hr, rfl⟩ := mem_proofPositions hseq
  obtain ⟨r', hfind, hr', hseq'⟩ := findSeq_eq_some hr
  have htake : ((leavesOf c input first).take e.size).length = e.size := List.length_take_of_le hsize
  have hleaf : ((leavesOf c input first).take e.size)[r.seq.1]? = some (receiptHash c r'.toUnsignedReceipt) := by
    rw [List.getElem?_take_of_lt hlt, ← hseq']
    exact h.leaves r' hr' (by rw [hseq']; omega)
  obtain ⟨path, hpath⟩ : ∃ path,
      MerkleTree.inclusionProof c.tree ((leavesOf c input first).take e.size) r.seq.1 = some path := by
    rw [MerkleTree.inclusionProof, if_pos (by omega)]
    exact ⟨_, rfl⟩
  refine ⟨⟨r.seq, receiptHashHex c r'.toUnsignedReceipt, path.map Digest.hex⟩, ?_, r',
    merkleRoot c ((leavesOf c input first).take e.size), hfind, rfl, ?_, h.roots e he hsize⟩
  · rw [proofAt, hfind]
    show (MerkleTree.inclusionProof c.tree ((leavesOf c input first).take e.size) r.seq.1).bind _ = _
    rw [hpath]
    rfl
  · have hback : (path.map Digest.hex).map digestOfHex = path := by
      rw [List.map_map]
      exact List.map_id'' (fun d => digestOfHex_hex d) path
    have hfit : (leavesOf c input first).length < 2 ^ 32 := h.leaves_fit
    have hroot := rootFromInclusionProof_inclusionProof c (by omega) hleaf hpath
    rw [htake] at hroot
    rw [hback]
    exact hroot

/-- The proofs for a checkpoint can be made, and hold. -/
theorem proofsFor_valid {e : CheckpointInput} (he : e ∈ input.checkpoints) :
    ∃ proofs, proofsFor c input.receipts (leavesOf c input first) e.size = some proofs ∧
      ∀ proof ∈ proofs, ValidProof c input.receipts e.stored.checkpoint proof := by
  unfold proofsFor
  by_cases hsize : e.size ≤ (leavesOf c input first).length
  · rw [if_pos hsize]
    obtain ⟨proofs, hproofs, hall⟩ := exists_mapM_eq_some fun seq hseq =>
      (proofAt_valid h he hsize hseq).imp fun _ hp => hp.1
    refine ⟨proofs, hproofs, fun proof hproof => ?_⟩
    obtain ⟨seq, hseq, hmade⟩ := exists_of_forall₂ hall hproof
    obtain ⟨proof', hmade', hvalid⟩ := proofAt_valid h he hsize hseq
    rw [hmade] at hmade'
    rwa [Option.some.inj hmade']
  · rw [if_neg hsize]
    exact ⟨[], rfl, by simp⟩

/-- A line of `checkpoints.jsonl` can be made, and holds. -/
theorem entryOf_valid {e : CheckpointInput} (he : e ∈ input.checkpoints) :
    ∃ entry, entryOf c input.receipts (leavesOf c input first) e = some entry ∧
      entry.checkpoint = e.stored.checkpoint ∧ entry.timestamps.length = e.timestamps.length ∧
      ∀ proof ∈ entry.proofs, ValidProof c input.receipts e.stored.checkpoint proof := by
  obtain ⟨proofs, hproofs, hall⟩ := proofsFor_valid h he
  exact ⟨⟨e.stored.checkpoint, proofs, anchorsOf e⟩, by rw [entryOf, hproofs]; rfl, rfl,
    List.length_mapIdx, hall⟩

/-- **What an archive holds.** -/
theorem buildArchive_eq : ∃ entries,
    (relevant first last input.checkpoints).mapM
        (entryOf c input.receipts (leavesOf c input first)) = some entries ∧
      List.Forall₂ (fun e entry => entryOf c input.receipts (leavesOf c input first) e = some entry)
        (relevant first last input.checkpoints) entries ∧
      buildArchive c input = some ⟨⟨manifestOf input first last entries, input.receipts,
        indexOf input.receipts, openingsOf input.receipts input.openings,
        subjectsOf input.receipts input.subjects, entries⟩,
        (relevant first last input.checkpoints).flatMap tokensOf⟩ := by
  obtain ⟨entries, hentries, hall⟩ := exists_mapM_eq_some fun e he =>
    (entryOf_valid h (mem_of_mem_relevant he)).imp fun _ hp => hp.1
  refine ⟨entries, hentries, hall, ?_⟩
  rw [buildArchive]
  simp only [h.run.head, h.last, Option.bind_eq_bind, Option.bind_some, hentries]
  rfl

end Valid

/-- Sums agree where their parts do. -/
theorem sum_lengths {chosen : List CheckpointInput} {entries : List CheckpointEntry}
    {R : CheckpointInput → CheckpointEntry → Prop} (hall : List.Forall₂ R chosen entries)
    (hlen : ∀ e entry, e ∈ chosen → R e entry → entry.timestamps.length = e.timestamps.length) :
    tokenCount entries = (chosen.flatMap fun e => e.timestamps).length := by
  induction hall with
  | nil => rfl
  | cons hR _ ih =>
      have htail := ih fun e entry he => hlen e entry (by simp [he])
      rw [tokenCount] at htail ⊢
      rw [List.map_cons, List.sum_cons, List.flatMap_cons, List.length_append, htail,
        hlen _ _ (by simp) hR]

/-- The higher version has the larger number. -/
theorem number_higherVersion (a b : ReceiptVersion) :
    (higherVersion a b).number = max a.number b.number := by
  unfold higherVersion
  split_ifs with h
  · exact (max_eq_right h.le).symm
  · exact (max_eq_left (not_lt.mp h)).symm

/-- The highest of some versions has the largest number. -/
theorem number_foldl_higherVersion (receipts : List Receipt) (v : ReceiptVersion) :
    (receipts.foldl (fun highest r => higherVersion highest r.v) v).number
      = receipts.foldl (fun highest r => max highest r.v.number) v.number := by
  induction receipts generalizing v with
  | nil => rfl
  | cons r rest ih => rw [List.foldl_cons, List.foldl_cons, ih, number_higherVersion]

/-- The version of an archive is the one the verifier computes. -/
theorem number_versionOf {first : Receipt} {receipts : List Receipt}
    (h : receipts.head? = some first) :
    (versionOf first receipts).number = highestVersion receipts := by
  rw [versionOf, number_foldl_higherVersion, highestVersion]
  obtain ⟨rest, rfl⟩ : ∃ rest, receipts = first :: rest := ⟨_, List.eq_cons_of_mem_head? h⟩
  rw [List.foldl_cons, List.foldl_cons, max_self, Nat.zero_max]

/-- The index lists the documents the receipts declare. -/
theorem indexedArtifacts_indexOf (receipts : List Receipt) :
    indexedArtifacts (indexOf receipts) = declaredArtifacts receipts := by
  rw [indexedArtifacts, indexOf, declaredArtifacts, List.map_flatMap]
  simp only [List.map_map]
  rfl

/-- **What the exporter builds is valid**, for whoever does not ask for particular keys. -/
theorem built_valid {o : VerifyOptions} (ho : o.trustedKeyIds = none) {input : ArchiveInput}
    {table : List (Hex 16 × Bytes)} {first last : Receipt} (h : Exportable c input table first last) :
    ∃ built, buildArchive c input = some built ∧ built.content.receipts = input.receipts ∧
      built.content.Valid o c table first last ∧
      List.Forall₂ (fun e entry => entryOf c input.receipts (leavesOf c input first) e = some entry)
        (relevant first last input.checkpoints) built.content.checkpoints := by
  obtain ⟨entries, -, hall, hbuilt⟩ := buildArchive_eq h
  have hexpected : ∀ {keyId : Hex 16} {key : Bytes}, table.lookup keyId = some key →
      Expected o table keyId key := fun hkey => ⟨hkey, fun trusted ht => by simp [ho] at ht⟩
  have hlen : entries.length = (relevant first last input.checkpoints).length := hall.length_eq.symm
  have htokens : tokenCount entries
      = ((relevant first last input.checkpoints).flatMap fun e => e.timestamps).length := by
    refine sum_lengths hall fun e entry he hentry => ?_
    obtain ⟨entry', hentry', -, hlen, -⟩ := entryOf_valid h (mem_of_mem_relevant he)
    rw [hentry] at hentry'
    rwa [Option.some.inj hentry']
  refine ⟨_, hbuilt, rfl, ⟨{
    published := h.published
    head := h.run.head
    tail := h.last
    system := fun r hr => (h.run.system r hr).trans h.system
    sequence := h.run.seq
    genesis := h.genesis
    links := h.run.links
    signed := fun r hr => (h.signed r hr).imp fun key hkey => ⟨hexpected hkey.1, hkey.2⟩
    artifacts := by rw [indexedArtifacts_indexOf]
    openings := fun e he => ?_
    openedOnce := h.openedOnce.sublist ((List.filter_sublist).map _)
    subjects := fun e he => by simpa [subjectsOf] using (List.mem_filter.mp he).2
    namedOnce := h.namedOnce.sublist ((List.filter_sublist).map _)
    checkpoints := fun entry hentry => ?_
    manifest := ⟨rfl, rfl, rfl, rfl, arrayCount_of_lt input.receipts_fit, ?_, ?_,
      number_versionOf h.run.head⟩ }, hall⟩⟩
  · obtain ⟨hmem, hany⟩ := List.mem_filter.mp he
    obtain ⟨r, hr, hseq⟩ := List.any_eq_true.mp hany
    have hseq : r.seq = e.seq := by simpa using hseq
    obtain ⟨r', hfind, hr', hseq'⟩ := findSeq_eq_some hr
    rw [hseq] at hfind hseq'
    exact ⟨r', hfind, h.salted e hmem r' hr' hseq'⟩
  · obtain ⟨e, he, hmade⟩ := exists_of_forall₂ hall hentry
    have hmem := mem_of_mem_relevant he
    obtain ⟨entry', hmade', hcheckpoint, -, hproofs⟩ := entryOf_valid h hmem
    rw [hmade] at hmade'
    obtain rfl := Option.some.inj hmade'
    refine ⟨?_, ?_, fun hre => ?_, fun proof hproof => ?_⟩
    · rw [hcheckpoint]
      exact h.checkpointSystem e hmem
    · rw [hcheckpoint]
      exact (h.checkpointSigned e hmem).imp fun key hkey => ⟨hexpected hkey.1, hkey.2⟩
    · rw [hcheckpoint] at hre ⊢
      exact h.rebuilt e hmem hre
    · rw [hcheckpoint]
      exact hproofs proof hproof
  · have hfit : input.checkpoints.length < 2 ^ 32 := input.checkpoints_fit
    have hle := length_relevant_le first last input.checkpoints
    exact arrayCount_of_lt (by omega)
  · have hfit : (input.checkpoints.flatMap fun e => e.timestamps).length < 2 ^ 32 := input.tokens_fit
    have hle := length_tokens_relevant_le first last input.checkpoints
    exact arrayCount_of_lt (by omega)

-- ── Receipts alone ───────────────────────────────────────────────────────────────

/-- An export of receipts with no checkpoint and nothing disclosed. -/
def ArchiveInput.bare (systemId : SystemId) (keys : NonEmpty ManifestKey) (receipts : List Receipt)
    (hfit : FitsArray receipts) : ArchiveInput where
  sigilloVersion := ⟨js "0", by decide⟩
  systemId := systemId
  receipts := receipts
  checkpoints := []
  keys := keys
  exportedAt := newYear
  chainLeaves := some []
  openings := []
  subjects := []
  receipts_fit := hfit
  checkpoints_fit := by decide
  tokens_fit := by decide

/-- Where there is no checkpoint, a signed run of receipts is all there is to check. -/
theorem exportable_bare {systemId : SystemId} {keys : NonEmpty ManifestKey} {receipts : List Receipt}
    (hfit : FitsArray receipts) {table : List (Hex 16 × Bytes)} {first last : Receipt}
    (hrun : SoundReceipts c first receipts) (hlast : receipts.getLast? = some last)
    (hsystem : first.systemId = systemId)
    (hgenesis : first.seq.1 = 0 → first.action.kind = .genesis ∧
      first.action.name.1 = first.systemId.1 ∧ first.prevHash = GENESIS_PREV_HASH)
    (hpublished : foldEach (manifestKey c) 1 [] keys.1 = .ok table)
    (hsigned : ∀ r ∈ receipts, ∃ key, table.lookup r.keyId = some key ∧
      verifyReceiptSignature c r key = true) :
    Exportable c (.bare systemId keys receipts hfit) table first last where
  run := hrun
  last := hlast
  system := hsystem
  genesis := hgenesis
  published := hpublished
  signed := hsigned
  checkpointSystem := by simp [ArchiveInput.bare]
  checkpointSigned := by simp [ArchiveInput.bare]
  rebuilt := by simp [ArchiveInput.bare]
  leaves := by simp [leavesOf, ArchiveInput.bare]
  leaves_fit := by simp [FitsArray, leavesOf, ArchiveInput.bare]
  roots := by simp [ArchiveInput.bare]
  salted := by simp [ArchiveInput.bare]
  openedOnce := List.nodup_nil
  namedOnce := List.nodup_nil

theorem isName_a : 1 ≤ (js "a").length ∧ (js "a").length ≤ MAX_NAME := by decide

/-- A version 1 receipt of one system with nothing in it. -/
def plainReceipt (seq : Count) (kind : ActionKind) (prevHash : Hex 64) : Receipt where
  systemId := ⟨js "s", by decide⟩
  seq := seq
  tsEvent := newYear
  tsReceived := newYear
  action := ⟨kind, ⟨js "s", by decide⟩⟩
  inputHash := none
  outputHash := none
  outcome := .ok
  source := ⟨.api, none, none⟩
  prevHash := prevHash
  keyId := toyKey.keyId
  detail := .v1 ⟨⟨js "a", isName_a⟩, none⟩
  schemes := trivial
  sig := signDigest toyKey ⟨List.replicate 32 0, length_zeros⟩

/-- The toy key, as a manifest lists it. -/
def plainKeys : NonEmpty ManifestKey := ⟨[⟨toyKey.keyId, toyKey.publicKeyBase64⟩], by decide⟩

/-- The verifier's table of a published key whose raw bytes hash to its identifier. -/
theorem plainKeys_published (hkey : (c.sha256 (List.replicate 32 0)).1 = List.replicate 32 0) :
    foldEach (manifestKey c) 1 [] plainKeys.1 = .ok [(toyKey.keyId, List.replicate 32 0)] := by
  have hraw : base64Decode toyKey.publicKeyBase64.1 = List.replicate 32 0 :=
    base64Decode_encode _
  have hid : keyIdFromRawPublicKey c (List.replicate 32 0) = toyKey.keyId.1 := by
    show (toHex (c.sha256 (List.replicate 32 0)).1).take 16 = toyKey.keyId.1
    rw [hkey]
    decide
  simp only [plainKeys, foldEach, manifestKey, hraw, hid]
  rfl

/-- **An archive of plain receipts** is accepted when they are a run and every signature is good. -/
theorem plain_accepted {o : VerifyOptions} (ho : o.trustedKeyIds = none)
    (hkey : (c.sha256 (List.replicate 32 0)).1 = List.replicate 32 0)
    (hverify : ∀ key message signature, c.verify key message signature = true)
    {receipts : List Receipt} (hfit : FitsArray receipts) {first : Receipt}
    (hrun : SoundReceipts c first receipts) (hsystem : first.systemId = ⟨js "s", by decide⟩)
    (hgenesis : first.seq.1 = 0 → first.action.kind = .genesis ∧
      first.action.name.1 = first.systemId.1 ∧ first.prevHash = GENESIS_PREV_HASH)
    (hkeys : ∀ r ∈ receipts, r.keyId = toyKey.keyId) :
    ∃ b v, verifyBundle o c b = .ok v ∧ v.receipts = receipts ∧ v.linkedCheckpoints = [] ∧
      v.summary.systemId = ⟨js "s", by decide⟩ := by
  obtain ⟨last, hlast⟩ : ∃ last, receipts.getLast? = some last :=
    Option.isSome_iff_exists.mp (by rw [List.getLast?_isSome]; exact hrun.ne_nil)
  have hexport := exportable_bare hfit hrun hlast hsystem hgenesis
    (plainKeys_published hkey) fun r hr => ⟨List.replicate 32 0, by rw [hkeys r hr]; rfl, hverify _ _ _⟩
  obtain ⟨built, hbuilt, hreceipts, hvalid, hall⟩ := built_valid ho hexport
  have hnone : built.content.checkpoints = [] := by
    have hrel : relevant first last [] = [] := by simp [relevant, bySize, relevantFrom]
    change List.Forall₂ _ (relevant first last []) _ at hall
    rw [hrel] at hall
    exact List.forall₂_nil_left_iff.mp hall
  refine ⟨built.content.files, _, hvalid.verifyBundle_files, hreceipts, ?_, ?_⟩
  · refine (List.map_eq_nil_iff (f := LinkedCheckpoint.entry)).mp ?_
    rw [Export.verified, Export.linked_state, hnone]
    rfl
  · have hfirst : first ∈ built.content.receipts := by
      rw [hreceipts]
      exact List.mem_of_mem_head? hrun.head
    exact (hvalid.system first hfirst).symm.trans hsystem

/-- Options that ask for no particular key. -/
def anyKey : VerifyOptions := ⟨none, fun _ => [], fun _ _ => []⟩

/-- A genesis by the toy key. -/
def plainGenesis : Receipt := plainReceipt ⟨0, isCount_zero⟩ .genesis
  GENESIS_PREV_HASH

end Sigillo
