import Sigillo.Verifier
import Sigillo.Fallible

/-!
# What the verifier accepts

The verifier reads and checks in turns, and stops at its first failure. What it accepts is said here
without order, of the decoded files (`Export`):

* **`verifyBundle_eq_ok`** — a bundle is accepted exactly when its lines read as an export that is
  `Valid`, and what comes out is a function of that export.

What later modules use of an accepted export is read off from there: its receipts are a linked run
(`SoundReceipts`), a checkpoint tied to them is over their hashes (`SoundCheckpoint`). -/

namespace Sigillo

open DoubleArith Utf16Text JsonText JsonParse JsonSchema HexBase64 IsoTime Fallible

-- ── Loops ────────────────────────────────────────────────────────────────────────

/-- A loop of checks passes when every item passes. -/
theorem checkEach_ok {α : Type} {check : ℕ → α → Option Failure} {line : ℕ} {items : List α} :
    checkEach check line items = .ok () ↔
      ∀ i a, items[i]? = some a → check (line + i) a = none := by
  induction items generalizing line with
  | nil => simp [checkEach]
  | cons a rest ih =>
      rw [checkEach]
      constructor
      · intro h i b hb
        cases hc : check line a with
        | some failure => simp [hc] at h
        | none =>
            rw [hc] at h
            cases i with
            | zero =>
                obtain rfl := Option.some.inj hb
                exact hc
            | succ i =>
                rw [show line + (i + 1) = line + 1 + i by omega]
                exact ih.mp h i b hb
      · intro h
        have ha := h 0 a rfl
        rw [Nat.add_zero] at ha
        rw [ha]
        refine ih.mpr fun i b hb => ?_
        rw [show line + 1 + i = line + (i + 1) by omega]
        exact h (i + 1) b hb

/-- A loop of checks that do not depend on the line. -/
theorem checkEach_ok_of_forall {α : Type} {check : ℕ → α → Option Failure} {line : ℕ}
    {items : List α} {P : α → Prop} (h : ∀ line a, check line a = none ↔ P a) :
    checkEach check line items = .ok () ↔ ∀ a ∈ items, P a := by
  rw [checkEach_ok]
  constructor
  · intro hall a ha
    obtain ⟨i, hi⟩ := List.mem_iff_getElem?.mp ha
    exact (h _ a).mp (hall i a hi)
  · intro hall i a hi
    exact (h _ a).mpr (hall a (List.mem_of_getElem? hi))

/-- A fold over lines passes exactly if the first does and the rest after it. -/
theorem foldEach_cons_ok {α σ : Type} {step : ℕ → σ → α → Except Failure σ} {line : ℕ} {s s' : σ}
    {a : α} {rest : List α} : foldEach step line s (a :: rest) = .ok s' ↔
      ∃ next, step line s a = .ok next ∧ foldEach step (line + 1) next rest = .ok s' := by
  rw [foldEach]
  cases step line s a with
  | error failure => simp
  | ok next => simp

/-- A text read by a schema. -/
def ReadsAs {α : Type} (codec : Codec α) (text : JsString) (a : α) : Prop :=
  (jsonParse text).bind codec.decode = some a

/-- An entry is read exactly if it is JSON of the shape. -/
theorem readEntry_ok {o : VerifyOptions} {α : Type} {json schema : VerificationCheck}
    {codec : Codec α} {location text : JsString} {a : α} :
    readEntry o json schema codec location text = .ok a ↔ ReadsAs codec text a := by
  unfold readEntry ReadsAs
  cases jsonParse text with
  | none => simp
  | some value =>
      simp only [Option.bind_some]
      cases codec.decode value with
      | none => simp
      | some entry => simp

/-- A file is read in full when each of its lines reads. -/
theorem foldLines_ok {o : VerifyOptions} {α σ : Type} {json schema : VerificationCheck}
    {codec : Codec α} {place : ℕ → JsString} {step : ℕ → σ → α → Except Failure σ} {line : ℕ}
    {s s' : σ} {lines : List JsString} :
    foldLines o json schema codec place step line s lines = .ok s' ↔
      ∃ entries, List.Forall₂ (ReadsAs codec) lines entries ∧
        foldEach step line s entries = .ok s' := by
  induction lines generalizing line s with
  | nil =>
      constructor
      · intro h
        exact ⟨[], .nil, h⟩
      · rintro ⟨entries, hread, h⟩
        obtain rfl := List.forall₂_nil_left_iff.mp hread
        exact h
  | cons text rest ih =>
      rw [foldLines, foldEach_cons_ok]
      constructor
      · rintro ⟨next, hstep, hrest⟩
        cases hr : readEntry o json schema codec (place line) text with
        | error failure => simp [hr] at hstep
        | ok entry =>
            rw [hr] at hstep
            obtain ⟨entries, hread, hfold⟩ := ih.mp hrest
            exact ⟨entry :: entries, .cons (readEntry_ok.mp hr) hread,
              foldEach_cons_ok.mpr ⟨next, hstep, hfold⟩⟩
      · rintro ⟨entries, hread, hfold⟩
        obtain ⟨entry, rest', hr, hrest', rfl⟩ := List.forall₂_cons_left_iff.mp hread
        obtain ⟨next, hstep, hrest⟩ := foldEach_cons_ok.mp hfold
        refine ⟨next, ?_, ih.mpr ⟨rest', hrest', hrest⟩⟩
        rw [readEntry_ok.mpr hr]
        exact hstep

/-- Collecting the entries gives them all. -/
theorem foldEach_collect {α : Type} {line : ℕ} {start items all : List α} :
    foldEach (fun _ acc a => .ok (acc ++ [a])) line start items = .ok all ↔ start ++ items = all := by
  induction items generalizing line start with
  | nil => simp [foldEach]
  | cons a rest ih =>
      rw [foldEach_cons_ok]
      constructor
      · rintro ⟨next, hnext, h⟩
        obtain rfl := Except.ok.inj hnext
        simpa using ih.mp h
      · intro h
        exact ⟨_, rfl, ih.mpr (by simpa using h)⟩

/-- A loop that takes each item's key, and refuses one it took before. -/
theorem foldEach_keys {α κ : Type} {step : ℕ → List κ → α → Except Failure (List κ)} {P : α → Prop}
    {key : α → κ} (hstep : ∀ line taken a next, step line taken a = .ok next ↔
      P a ∧ key a ∉ taken ∧ next = taken ++ [key a])
    {line : ℕ} {taken all : List κ} {items : List α} (htaken : taken.Nodup) :
    foldEach step line taken items = .ok all ↔
      (∀ a ∈ items, P a) ∧ (taken ++ items.map key).Nodup ∧ all = taken ++ items.map key := by
  induction items generalizing line taken with
  | nil => simp [foldEach, htaken, eq_comm]
  | cons a rest ih =>
      rw [foldEach_cons_ok]
      constructor
      · rintro ⟨next, hnext, h⟩
        obtain ⟨hP, hfresh, rfl⟩ := (hstep _ _ _ _).mp hnext
        obtain ⟨hall, hnodup, rfl⟩ := (ih (List.nodup_append.mpr ⟨htaken, List.nodup_singleton _,
          fun x hx y hy => by rw [List.mem_singleton.mp hy]; rintro rfl; exact hfresh hx⟩)).mp h
        refine ⟨by simpa using ⟨hP, hall⟩, by simpa using hnodup, by simp⟩
      · rintro ⟨hall, hnodup, rfl⟩
        have hfresh : key a ∉ taken := by
          intro hmem
          exact (List.nodup_append.mp hnodup).2.2 _ hmem _ (by simp) rfl
        refine ⟨taken ++ [key a], (hstep _ _ _ _).mpr ⟨hall a (by simp), hfresh, rfl⟩, ?_⟩
        rw [ih]
        · exact ⟨fun b hb => hall b (by simp [hb]), by simpa using hnodup, by simp⟩
        · have : (taken ++ [key a]).Sublist (taken ++ (a :: rest).map key) :=
            (List.append_sublist_append_left _).mpr (by simp)
          exact hnodup.sublist this

-- ── The decoded files ────────────────────────────────────────────────────────────

/-- **The files of an export, read.** -/
structure Export where
  manifest : Manifest
  receipts : List Receipt
  artifactsIndex : List ArtifactsIndexEntry
  openings : List OpeningEntry
  subjects : List SubjectEntry
  checkpoints : List CheckpointEntry

/-- The lines of a file are read as the entries. -/
def LinesRead {α : Type} (codec : Codec α) (text : JsString) (entries : List α) : Prop :=
  List.Forall₂ (ReadsAs codec) (jsonLines text) entries

/-- An export is what a bundle's files hold. -/
structure Export.ReadFrom (x : Export) (b : Bundle) : Prop where
  manifest : ReadsAs manifestSchema b.manifestJson x.manifest
  receipts : LinesRead receiptSchema b.receiptsJsonl x.receipts
  artifactsIndex :
    LinesRead artifactsIndexEntrySchema (b.artifactsIndexJsonl.getD []) x.artifactsIndex
  openings : LinesRead openingEntrySchema (b.openingsJsonl.getD []) x.openings
  subjects : LinesRead subjectEntrySchema (b.subjectsJsonl.getD []) x.subjects
  checkpoints : LinesRead checkpointEntrySchema (b.checkpointsJsonl.getD []) x.checkpoints

variable (o : VerifyOptions) (c : Crypto)

/-- The key is published, and expected if the verifier was told which to expect. -/
def Expected (keys : List (Hex 16 × Bytes)) (keyId : Hex 16) (key : Bytes) : Prop :=
  keys.lookup keyId = some key ∧ ∀ trusted, o.trustedKeyIds = some trusted → keyId ∈ trusted

/-- A proof is for a receipt of the export, and rebuilds the checkpoint's root. -/
def ValidProof (receipts : List Receipt) (checkpoint : Checkpoint) (proof : InclusionProofEntry) :
    Prop :=
  ∃ r rebuilt, findSeq receipts proof.seq = some r ∧
    receiptHashHex c r.toUnsignedReceipt = proof.receiptHash ∧
    rootFromInclusionProof c (receiptHash c r.toUnsignedReceipt).1 proof.seq.1 checkpoint.treeSize.1
      (proof.path.map digestOfHex) = .ok rebuilt ∧
    rebuilt.hex = checkpoint.rootHash

/-- What is asked of a checkpoint. -/
structure ValidCheckpoint (keys : List (Hex 16 × Bytes)) (x : Export) (e : CheckpointEntry) :
    Prop where
  system : e.checkpoint.systemId = x.manifest.systemId
  signed : ∃ key, Expected o keys e.checkpoint.keyId key ∧
    verifyCheckpointSignature c e.checkpoint key = true
  root : rebuildable x.receipts e.checkpoint.treeSize.1 = true →
    recomputedRoot c x.receipts e.checkpoint.treeSize.1 = e.checkpoint.rootHash
  proofs : ∀ proof ∈ e.proofs, ValidProof c x.receipts e.checkpoint proof

/-- The manifest declares what the export holds. -/
structure ManifestAgrees (x : Export) (first last : Receipt) : Prop where
  fromSeq : first.seq = x.manifest.range.fromSeq
  toSeq : last.seq = x.manifest.range.toSeq
  fromTs : x.manifest.range.fromTs = first.tsReceived
  toTs : x.manifest.range.toTs = last.tsReceived
  receipts : x.manifest.counts.receipts.1 = x.receipts.length
  checkpoints : x.manifest.counts.checkpoints = x.checkpoints.length
  timestamps : x.manifest.counts.timestamps = tokenCount x.checkpoints
  version : x.manifest.receiptVersion.number = highestVersion x.receipts

/-- The documents of an index, as they are compared. -/
def indexedArtifacts (entries : List ArtifactsIndexEntry) : List JsString :=
  entries.map fun e => artifactKey e.seq e.role e.label.1 e.sha256 e.text

/-- What an opening is told apart by. -/
def openingKey (e : OpeningEntry) : JsString := countText e.seq.1 ++ 0x3A :: e.role.name

/-- **An export that passes every check.** -/
structure Export.Valid (x : Export) (keys : List (Hex 16 × Bytes)) (first last : Receipt) : Prop where
  published : keysById c x.manifest = .ok keys
  head : x.receipts.head? = some first
  tail : x.receipts.getLast? = some last
  system : ∀ r ∈ x.receipts, r.systemId = x.manifest.systemId
  sequence : ∀ i r, x.receipts[i]? = some r → r.seq.1 = expectedSeqAt first i
  genesis : first.seq.1 = 0 → first.action.kind = .genesis ∧ first.action.name.1 = first.systemId.1 ∧
    first.prevHash = GENESIS_PREV_HASH
  links : ∀ i p r, x.receipts[i]? = some p → x.receipts[i + 1]? = some r →
    r.prevHash = receiptHashHex c p.toUnsignedReceipt
  signed : ∀ r ∈ x.receipts, ∃ key, Expected o keys r.keyId key ∧
    verifyReceiptSignature c r key = true
  artifacts : sortedText (declaredArtifacts x.receipts)
    = sortedText (indexedArtifacts x.artifactsIndex)
  openings : ∀ e ∈ x.openings, ∃ r, findSeq x.receipts e.seq = some r ∧
    r.hashScheme e.role = some .salted
  openedOnce : (x.openings.map openingKey).Nodup
  subjects : ∀ e ∈ x.subjects, e.token.1 ∈ x.receipts.filterMap fun r => r.onBehalfOf
  namedOnce : (x.subjects.map fun e => e.token.1).Nodup
  checkpoints : ∀ e ∈ x.checkpoints, ValidCheckpoint o c keys x e
  manifest : ManifestAgrees x first last

/-- One checkpoint after another, the first at `line`. -/
def CheckpointState.addAll (receipts : List Receipt) :
    ℕ → CheckpointState → List CheckpointEntry → CheckpointState
  | _, s, [] => s
  | line, s, e :: rest => addAll receipts (line + 1) (s.add receipts line e) rest

/-- What the checkpoints add up to. -/
def Export.state (x : Export) : CheckpointState :=
  CheckpointState.addAll x.receipts 1 .start x.checkpoints

/-- What the verifier returns for a valid export. -/
def Export.verified (x : Export) (keys : List (Hex 16 × Bytes)) (first last : Receipt) : Verified where
  summary := {
    systemId := x.manifest.systemId
    receipts := x.receipts.length
    firstSeq := first.seq
    lastSeq := last.seq
    keyIds := keys.map Prod.fst
    checkpoints := x.state.checkpoints.length
    inclusionProofs := x.state.proofsChecked
    rootsRecomputed := x.state.rootsRecomputed
    artifactsIndexed := x.artifactsIndex.length
    unlinkedCheckpoints := x.state.unlinked
    unanchoredReceipts := (unanchoredReceipts x.receipts x.state.anchoredThrough).length
    openingsDisclosed := x.openings.length
    subjectsDisclosed := x.subjects.length }
  receipts := x.receipts
  linkedCheckpoints := x.state.linkedCheckpoints
  unanchored := unanchoredReceipts x.receipts x.state.anchoredThrough

-- ── One check at a time ──────────────────────────────────────────────────────────

variable {o c}

/-- A statement's key is given exactly if it is the one expected. -/
theorem statementKey_ok {keys : List (Hex 16 × Bytes)} {keyId : Hex 16} {location what : JsString}
    {key : Bytes} : statementKey o keys keyId location what = .ok key ↔ Expected o keys keyId key := by
  unfold statementKey Expected
  cases keys.lookup keyId with
  | none => simp
  | some published =>
      cases o.trustedKeyIds with
      | none => simp
      | some trusted =>
          by_cases hmem : keyId ∈ trusted
          · simp [hmem]
          · simp [hmem]

/-- A receipt passes exactly if it is of the system. -/
theorem checkSystem_none {m : Manifest} {line : ℕ} {r : Receipt} :
    checkSystem m line r = none ↔ r.systemId = m.systemId := by
  simp [checkSystem]

/-- The start passes exactly if the first receipt is at it. -/
theorem checkStart_ok {m : Manifest} {first : Receipt} :
    checkStart m first = .ok () ↔ first.seq = m.range.fromSeq := by
  by_cases h : first.seq = m.range.fromSeq
  · simp [checkStart, h]
  · simp [checkStart, h]

/-- A receipt passes exactly if it is at its position. -/
theorem checkSequence_none {receipts : List Receipt} {first r : Receipt} {line : ℕ} :
    checkSequence receipts first line r = none ↔ r.seq.1 = expectedSeqAt first (line - 1) := by
  simp [checkSequence]

/-- The first receipt passes exactly if at position zero it is a genesis. -/
theorem checkGenesis_ok {first : Receipt} :
    checkGenesis first = .ok () ↔ (first.seq.1 = 0 → first.action.kind = .genesis ∧
      first.action.name.1 = first.systemId.1 ∧ first.prevHash = GENESIS_PREV_HASH) := by
  unfold checkGenesis
  by_cases h0 : first.seq.1 = 0
  · rw [if_pos h0]
    by_cases hkind : first.action.kind = .genesis
    · by_cases hname : first.action.name.1 = first.systemId.1
      · by_cases hprev : first.prevHash = GENESIS_PREV_HASH
        · simp [hkind, hname, hprev]
        · simp [hkind, hname, hprev, h0]
      · simp [hkind, hname, h0]
    · simp [hkind, h0]
  · simp [h0]

/-- A pair passes exactly if the second names the first's hash. -/
theorem checkLink_none {line : ℕ} {pair : Receipt × Receipt} :
    checkLink c line pair = none ↔ pair.2.prevHash = receiptHashHex c pair.1.toUnsignedReceipt := by
  simp [checkLink]

/-- A receipt passes exactly if an expected key verifies it. -/
theorem checkSignature_none {keys : List (Hex 16 × Bytes)} {line : ℕ} {r : Receipt} :
    checkSignature o c keys line r = none ↔
      ∃ key, Expected o keys r.keyId key ∧ verifyReceiptSignature c r key = true := by
  unfold checkSignature
  cases hk : statementKey o keys r.keyId (atReceipt line) (js "receipt seq " ++ countText r.seq.1) with
  | error failure =>
      refine iff_of_false (by simp) ?_
      rintro ⟨key, hkey, -⟩
      rw [statementKey_ok.mpr hkey] at hk
      cases hk
  | ok key =>
      have hkey := statementKey_ok.mp hk
      constructor
      · intro h
        refine ⟨key, hkey, ?_⟩
        by_contra hne
        simp [hne] at h
      · rintro ⟨key', hkey', hsig⟩
        obtain rfl : key = key' := Option.some.inj (hkey.1.symm.trans hkey'.1)
        simp [hsig]

/-- All pass exactly if all are of the system. -/
theorem checkEach_system {m : Manifest} {line : ℕ} {receipts : List Receipt} :
    checkEach (checkSystem m) line receipts = .ok () ↔ ∀ r ∈ receipts, r.systemId = m.systemId :=
  checkEach_ok_of_forall fun _ _ => checkSystem_none

/-- All pass exactly if each is verified by an expected key. -/
theorem checkEach_signature {keys : List (Hex 16 × Bytes)} {line : ℕ} {receipts : List Receipt} :
    checkEach (checkSignature o c keys) line receipts = .ok () ↔ ∀ r ∈ receipts,
      ∃ key, Expected o keys r.keyId key ∧ verifyReceiptSignature c r key = true := by
  have hcheck : ∀ line r, checkSignature o c keys line r = none ↔
      ∃ key, Expected o keys r.keyId key ∧ verifyReceiptSignature c r key = true :=
    fun _ _ => checkSignature_none
  exact checkEach_ok_of_forall hcheck

/-- The index passes exactly if it is read and lists what the receipts declare. -/
theorem checkArtifacts_ok {b : Bundle} {receipts : List Receipt} {entries : List ArtifactsIndexEntry} :
    checkArtifacts o b receipts = .ok entries ↔
      LinesRead artifactsIndexEntrySchema (b.artifactsIndexJsonl.getD []) entries ∧
        sortedText (declaredArtifacts receipts) = sortedText (indexedArtifacts entries) := by
  unfold checkArtifacts
  cases hf : foldLines o .artifactsIndex .artifactsIndex artifactsIndexEntrySchema
      (atLine (js "artifacts-index.jsonl")) (fun _ entries entry => .ok (entries ++ [entry])) 1 []
      (jsonLines (b.artifactsIndexJsonl.getD [])) with
  | error failure =>
      refine iff_of_false (by simp) ?_
      rintro ⟨hread, -⟩
      rw [foldLines_ok.mpr ⟨entries, hread, foldEach_collect.mpr rfl⟩] at hf
      cases hf
  | ok read =>
      obtain ⟨entries', hread', hcollect⟩ := foldLines_ok.mp hf
      obtain rfl : entries' = read := foldEach_collect.mp hcollect
      constructor
      · intro h
        by_cases hs : sortedText (declaredArtifacts receipts)
            = sortedText (indexedArtifacts entries')
        · have hs' := hs
          unfold indexedArtifacts at hs'
          simp only [hs', ne_eq, not_true_eq_false, if_false, Except.ok.injEq] at h
          exact h ▸ ⟨hread', hs⟩
        · unfold indexedArtifacts at hs
          simp [hs] at h
      · rintro ⟨hread, hs⟩
        have hf' : foldLines o .artifactsIndex .artifactsIndex artifactsIndexEntrySchema
            (atLine (js "artifacts-index.jsonl")) (fun _ entries entry => .ok (entries ++ [entry])) 1
            [] (jsonLines (b.artifactsIndexJsonl.getD [])) = .ok entries :=
          foldLines_ok.mpr ⟨entries, hread, foldEach_collect.mpr (List.nil_append entries)⟩
        rw [hf] at hf'
        obtain rfl := Except.ok.inj hf'
        unfold indexedArtifacts at hs
        simp [hs]

/-- An opening passes exactly if it opens a digest of its receipt and none was opened twice. -/
theorem checkOpening_ok {receipts : List Receipt} {line : ℕ} {opened next : List JsString}
    {e : OpeningEntry} : checkOpening receipts line opened e = .ok next ↔
      (∃ r, findSeq receipts e.seq = some r ∧ r.hashScheme e.role = some .salted) ∧
        openingKey e ∉ opened ∧ next = opened ++ [openingKey e] := by
  unfold checkOpening openingKey
  cases findSeq receipts e.seq with
  | none => simp
  | some r =>
      by_cases hsalted : r.hashScheme e.role = some .salted
      · by_cases hfresh : countText e.seq.1 ++ 0x3A :: e.role.name ∈ opened
        · simp [hsalted, hfresh]
        · simp [hsalted, hfresh, eq_comm]
      · simp [hsalted]

/-- A subject passes exactly if a receipt has its token and none is there twice. -/
theorem checkSubject_ok {receipts : List Receipt} {line : ℕ} {tokens next : List JsString}
    {e : SubjectEntry} : checkSubject receipts line tokens e = .ok next ↔
      (e.token.1 ∈ receipts.filterMap fun r => r.onBehalfOf) ∧
        e.token.1 ∉ tokens ∧ next = tokens ++ [e.token.1] := by
  unfold checkSubject
  by_cases hused : e.token.1 ∈ receipts.filterMap fun r => r.onBehalfOf
  · rw [if_neg (not_not.mpr hused)]
    by_cases hfresh : e.token.1 ∈ tokens
    · simp [hfresh]
    · simp [hfresh, hused, eq_comm]
  · rw [if_pos hused]
    simp [hused]

/-- All openings pass exactly if each does and no two are of one digest. -/
theorem foldEach_checkOpening {receipts : List Receipt} {line : ℕ} {all : List JsString}
    {entries : List OpeningEntry} : foldEach (checkOpening receipts) line [] entries = .ok all ↔
      (∀ e ∈ entries, ∃ r, findSeq receipts e.seq = some r ∧ r.hashScheme e.role = some .salted) ∧
        (entries.map openingKey).Nodup ∧ all = entries.map openingKey := by
  have hstep : ∀ line taken e next, checkOpening receipts line taken e = .ok next ↔
      (∃ r, findSeq receipts e.seq = some r ∧ r.hashScheme e.role = some .salted) ∧
        openingKey e ∉ taken ∧ next = taken ++ [openingKey e] := fun _ _ _ _ => checkOpening_ok
  exact foldEach_keys hstep List.nodup_nil

/-- All subjects pass exactly if each does and no two are of one token. -/
theorem foldEach_checkSubject {receipts : List Receipt} {line : ℕ} {all : List JsString}
    {entries : List SubjectEntry} : foldEach (checkSubject receipts) line [] entries = .ok all ↔
      (∀ e ∈ entries, e.token.1 ∈ receipts.filterMap fun r => r.onBehalfOf) ∧
        (entries.map fun e => e.token.1).Nodup ∧ all = entries.map fun e => e.token.1 := by
  have hstep : ∀ line tokens e next, checkSubject receipts line tokens e = .ok next ↔
      (e.token.1 ∈ receipts.filterMap fun r => r.onBehalfOf) ∧
        e.token.1 ∉ tokens ∧ next = tokens ++ [e.token.1] := fun _ _ _ _ => checkSubject_ok
  exact foldEach_keys hstep List.nodup_nil

/-- An inclusion proof passes exactly if it leads from its receipt to the root. -/
theorem checkProof_none {receipts : List Receipt} {checkpoint : Checkpoint} {location : JsString}
    {line : ℕ} {proof : InclusionProofEntry} :
    checkProof c receipts checkpoint location line proof = none ↔
      ValidProof c receipts checkpoint proof := by
  unfold checkProof ValidProof
  cases findSeq receipts proof.seq with
  | none => simp
  | some r =>
      by_cases hhash : receiptHashHex c r.toUnsignedReceipt = proof.receiptHash
      · cases hroot : rootFromInclusionProof c (receiptHash c r.toUnsignedReceipt).1 proof.seq.1
            checkpoint.treeSize.1 (proof.path.map digestOfHex) with
        | error message => simp [hhash, hroot]
        | ok rebuilt => simp [hhash, hroot, -Subtype.exists]
      · simp [hhash]

/-- A checkpoint passes exactly if it is valid. -/
theorem checkCheckpoint_ok {keys : List (Hex 16 × Bytes)} {x : Export} {line : ℕ}
    {e : CheckpointEntry} : checkCheckpoint o c x.manifest keys x.receipts line e = .ok () ↔
      ValidCheckpoint o c keys x e := by
  rw [checkCheckpoint]
  by_cases hsys : e.checkpoint.systemId = x.manifest.systemId
  · rw [if_neg (not_not.mpr hsys)]
    cases hkey : statementKey o keys e.checkpoint.keyId (atCheckpoint line) (js "the checkpoint") with
    | error failure =>
        refine iff_of_false (by simp) ?_
        rintro ⟨-, ⟨key, hkey', -⟩, -, -⟩
        rw [statementKey_ok.mpr hkey'] at hkey
        cases hkey
    | ok key =>
        have hexp := statementKey_ok.mp hkey
        have hproofs : checkEach (checkProof c x.receipts e.checkpoint (atCheckpoint line)) 1 e.proofs
            = .ok () ↔ ∀ proof ∈ e.proofs, ValidProof c x.receipts e.checkpoint proof :=
          checkEach_ok_of_forall fun _ _ => checkProof_none
        constructor
        · intro h
          by_cases hsig : verifyCheckpointSignature c e.checkpoint key = true
          · by_cases hroot : rebuildable x.receipts e.checkpoint.treeSize.1 = true ∧
              recomputedRoot c x.receipts e.checkpoint.treeSize.1 ≠ e.checkpoint.rootHash
            · simp [hsig, hroot] at h
            · simp only [hsig, not_true_eq_false, if_false, if_neg hroot, hproofs] at h
              refine ⟨hsys, ⟨key, hexp, hsig⟩, fun hre => ?_, h⟩
              by_contra hne
              exact hroot ⟨hre, hne⟩
          · simp [hsig] at h
        · rintro ⟨-, ⟨key', hexp', hsig⟩, hroot, hall⟩
          obtain rfl : key = key' := Option.some.inj (hexp.1.symm.trans hexp'.1)
          have hroot' : ¬ (rebuildable x.receipts e.checkpoint.treeSize.1 = true ∧
              recomputedRoot c x.receipts e.checkpoint.treeSize.1 ≠ e.checkpoint.rootHash) :=
            fun h => h.2 (hroot h.1)
          simp only [hsig, not_true_eq_false, if_false, if_neg hroot', hproofs]
          exact hall
  · rw [if_pos hsys]
    exact iff_of_false (by simp) fun h => hsys h.system

/-- All checkpoints pass exactly if each is valid and they grow. -/
theorem foldEach_checkpointStep {keys : List (Hex 16 × Bytes)} {x : Export} {line : ℕ}
    {s s' : CheckpointState} {entries : List CheckpointEntry} :
    foldEach (checkpointStep o c x.manifest keys x.receipts) line s entries = .ok s' ↔
      (∀ e ∈ entries, ValidCheckpoint o c keys x e) ∧
        s' = CheckpointState.addAll x.receipts line s entries := by
  induction entries generalizing line s with
  | nil => simp [foldEach, CheckpointState.addAll, eq_comm]
  | cons e rest ih =>
      rw [foldEach_cons_ok, List.forall_mem_cons]
      have hstep : ∀ next, checkpointStep o c x.manifest keys x.receipts line s e = .ok next ↔
          ValidCheckpoint o c keys x e ∧ next = s.add x.receipts line e := by
        intro next
        unfold checkpointStep
        have hcheck : checkCheckpoint o c x.manifest keys x.receipts line e = .ok () ↔
            ValidCheckpoint o c keys x e := checkCheckpoint_ok
        rw [← hcheck]
        cases checkCheckpoint o c x.manifest keys x.receipts line e with
        | error failure => simp
        | ok u => simp [eq_comm]
      constructor
      · rintro ⟨next, hnext, hrest⟩
        obtain ⟨hvalid, rfl⟩ := (hstep next).mp hnext
        obtain ⟨hall, rfl⟩ := ih.mp hrest
        exact ⟨⟨hvalid, hall⟩, rfl⟩
      · rintro ⟨⟨hvalid, hall⟩, rfl⟩
        exact ⟨_, (hstep _).mpr ⟨hvalid, rfl⟩, ih.mpr ⟨hall, rfl⟩⟩

/-- The manifest passes exactly if it agrees with the files. -/
theorem checkManifest_ok {x : Export} {first last : Receipt} :
    checkManifest x.manifest x.receipts first last x.checkpoints = .ok () ∧
      first.seq = x.manifest.range.fromSeq ↔ ManifestAgrees x first last := by
  unfold checkManifest
  constructor
  · rintro ⟨h, hstart⟩
    simp only at h
    split_ifs at h with h1 h2 h3 h4 h5 h6
    rw [not_or, not_not, not_not] at h2
    exact ⟨hstart, not_not.mp h1, h2.1, h2.2, not_not.mp h3, not_not.mp h4, not_not.mp h5,
      not_not.mp h6⟩
  · rintro ⟨hstart, h1, h2, h3, h4, h5, h6, h7⟩
    refine ⟨?_, hstart⟩
    simp [h1, h2, h3, h4, h5, h6, h7]

/-- The receipts are read exactly if there is one and every line is one. -/
theorem readReceipts_ok {b : Bundle} {receipts : List Receipt} :
    readReceipts o b = .ok receipts ↔
      receipts ≠ [] ∧ LinesRead receiptSchema b.receiptsJsonl receipts := by
  unfold readReceipts LinesRead
  by_cases hnil : jsonLines b.receiptsJsonl = []
  · rw [if_pos hnil]
    refine iff_of_false (by simp) ?_
    rintro ⟨hne, hread⟩
    rw [hnil] at hread
    exact hne (List.forall₂_nil_left_iff.mp hread)
  · rw [if_neg hnil, foldLines_ok]
    constructor
    · rintro ⟨entries, hread, hcollect⟩
      obtain rfl := foldEach_collect.mp hcollect
      refine ⟨?_, hread⟩
      rintro rfl
      exact hnil (List.forall₂_nil_right_iff.mp hread)
    · rintro ⟨-, hread⟩
      exact ⟨receipts, hread, foldEach_collect.mpr rfl⟩

/-- The pairs of neighbours of a list. -/
theorem getElem?_zip_tail {α : Type} {items : List α} {i : ℕ} {pair : α × α} :
    (items.zip items.tail)[i]? = some pair ↔
      items[i]? = some pair.1 ∧ items[i + 1]? = some pair.2 := by
  rw [List.getElem?_zip_eq_some, List.getElem?_tail]

-- ── All of them ──────────────────────────────────────────────────────────────────

/-- The checkpoints are read into the state in their order. -/
theorem CheckpointState.checkpoints_addAll {receipts : List Receipt} {line : ℕ} {s : CheckpointState}
    {entries : List CheckpointEntry} :
    (CheckpointState.addAll receipts line s entries).checkpoints = s.checkpoints ++ entries := by
  induction entries generalizing line s with
  | nil => simp [addAll]
  | cons e rest ih =>
      rw [addAll, ih]
      simp [CheckpointState.add]

/-- The linked ones among them are those a root or a proof ties to the receipts. -/
theorem CheckpointState.linked_addAll {receipts : List Receipt} {line : ℕ} {s : CheckpointState}
    {entries : List CheckpointEntry} :
    (CheckpointState.addAll receipts line s entries).linkedCheckpoints.map LinkedCheckpoint.entry
      = s.linkedCheckpoints.map LinkedCheckpoint.entry ++ entries.filter (isLinked receipts) := by
  induction entries generalizing line s with
  | nil => simp [addAll]
  | cons e rest ih =>
      rw [addAll, ih]
      by_cases hl : isLinked receipts e = true
      · simp [CheckpointState.add, hl]
      · simp [CheckpointState.add, hl]

/-- The checkpoints tied to the receipts. -/
theorem Export.linked_state (x : Export) :
    x.state.linkedCheckpoints.map LinkedCheckpoint.entry
      = x.checkpoints.filter (isLinked x.receipts) := by
  rw [Export.state, CheckpointState.linked_addAll]
  rfl

@[simp] theorem Export.checkpoints_state (x : Export) : x.state.checkpoints = x.checkpoints :=
  CheckpointState.checkpoints_addAll

/-- What is accepted is a valid export. -/
theorem Export.Valid.of_verifyBundle {b : Bundle} {v : Verified} (h : verifyBundle o c b = .ok v) :
    ∃ x keys first last, Export.ReadFrom x b ∧ x.Valid o c keys first last ∧
      v = x.verified keys first last := by
  unfold verifyBundle at h
  obtain ⟨manifest, hm, h⟩ := bind_eq_ok.mp h
  obtain ⟨keys, hk, h⟩ := bind_eq_ok.mp h
  obtain ⟨receipts, hr, h⟩ := bind_eq_ok.mp h
  obtain ⟨_, hsys, h⟩ := bind_eq_ok.mp h
  cases hfirst : receipts.head? with
  | none => simp [hfirst] at h
  | some first =>
  cases hlast : receipts.getLast? with
  | none => simp [hfirst, hlast] at h
  | some last =>
  simp only [hfirst, hlast] at h
  obtain ⟨_, hstart, h⟩ := bind_eq_ok.mp h
  obtain ⟨_, hseq, h⟩ := bind_eq_ok.mp h
  obtain ⟨_, hgen, h⟩ := bind_eq_ok.mp h
  obtain ⟨_, hlink, h⟩ := bind_eq_ok.mp h
  obtain ⟨_, hsig, h⟩ := bind_eq_ok.mp h
  obtain ⟨artifacts, hart, h⟩ := bind_eq_ok.mp h
  obtain ⟨opened, hop, h⟩ := bind_eq_ok.mp h
  obtain ⟨named, hnamed, h⟩ := bind_eq_ok.mp h
  obtain ⟨state, hstate, h⟩ := bind_eq_ok.mp h
  obtain ⟨_, hman, h⟩ := bind_eq_ok.mp h
  obtain rfl := Except.ok.inj h
  obtain ⟨hartread, hartsorted⟩ := checkArtifacts_ok.mp hart
  obtain ⟨openings, hopread, hopfold⟩ := foldLines_ok.mp hop
  obtain ⟨hopall, hopnodup, rfl⟩ := foldEach_checkOpening.mp hopfold
  obtain ⟨subjects, hsubread, hsubfold⟩ := foldLines_ok.mp hnamed
  obtain ⟨hsuball, hsubnodup, rfl⟩ := foldEach_checkSubject.mp hsubfold
  obtain ⟨checkpoints, hcpread, hcpfold⟩ := foldLines_ok.mp hstate
  let x : Export := ⟨manifest, receipts, artifacts, openings, subjects, checkpoints⟩
  obtain ⟨hcpall, hcpstate⟩ := (foldEach_checkpointStep (x := x)).mp hcpfold
  obtain rfl : state = x.state := hcpstate
  rw [x.checkpoints_state] at hman
  refine ⟨x, keys, first, last, ?_, ?_, ?_⟩
  · exact ⟨readEntry_ok.mp hm, (readReceipts_ok.mp hr).2, hartread, hopread, hsubread, hcpread⟩
  · exact {
      published := hk
      head := hfirst
      tail := hlast
      system := checkEach_system.mp hsys
      sequence := fun i r hi => by
        have := checkSequence_none.mp (checkEach_ok.mp hseq i r hi)
        rwa [Nat.add_sub_cancel_left] at this
      genesis := checkGenesis_ok.mp hgen
      links := fun i p r hp hr =>
        checkLink_none.mp (checkEach_ok.mp hlink i (p, r) (getElem?_zip_tail.mpr ⟨hp, hr⟩))
      signed := checkEach_signature.mp hsig
      artifacts := hartsorted
      openings := hopall
      openedOnce := hopnodup
      subjects := hsuball
      namedOnce := hsubnodup
      checkpoints := hcpall
      manifest := checkManifest_ok.mp ⟨hman, checkStart_ok.mp hstart⟩ }
  · simp only [Export.verified, List.length_map]
    rfl

/-- A valid export is accepted. -/
theorem Export.Valid.verifyBundle {x : Export} {keys : List (Hex 16 × Bytes)} {first last : Receipt}
    (hx : x.Valid o c keys first last) {b : Bundle} (hb : x.ReadFrom b) :
    verifyBundle o c b = .ok (x.verified keys first last) := by
  obtain ⟨hman, hstart⟩ := checkManifest_ok.mpr hx.manifest
  have hne : x.receipts ≠ [] := by
    intro hnil
    have := hx.head
    rw [hnil] at this
    cases this
  unfold Sigillo.verifyBundle
  refine bind_eq_ok.mpr ⟨x.manifest, readEntry_ok.mpr hb.manifest, ?_⟩
  refine bind_eq_ok.mpr ⟨keys, hx.published, ?_⟩
  refine bind_eq_ok.mpr ⟨x.receipts, readReceipts_ok.mpr ⟨hne, hb.receipts⟩, ?_⟩
  refine bind_eq_ok.mpr ⟨(), checkEach_system.mpr hx.system, ?_⟩
  simp only [hx.head, hx.tail]
  refine bind_eq_ok.mpr ⟨(), checkStart_ok.mpr hstart, ?_⟩
  refine bind_eq_ok.mpr ⟨(), checkEach_ok.mpr fun i r hi => ?_, ?_⟩
  · rw [checkSequence_none, Nat.add_sub_cancel_left]
    exact hx.sequence i r hi
  refine bind_eq_ok.mpr ⟨(), checkGenesis_ok.mpr hx.genesis, ?_⟩
  refine bind_eq_ok.mpr ⟨(), checkEach_ok.mpr fun i pair hi => ?_, ?_⟩
  · obtain ⟨hp, hr⟩ := getElem?_zip_tail.mp hi
    exact checkLink_none.mpr (hx.links i _ _ hp hr)
  refine bind_eq_ok.mpr ⟨(), checkEach_signature.mpr hx.signed, ?_⟩
  refine bind_eq_ok.mpr ⟨x.artifactsIndex,
    checkArtifacts_ok.mpr ⟨hb.artifactsIndex, hx.artifacts⟩, ?_⟩
  refine bind_eq_ok.mpr ⟨_, foldLines_ok.mpr ⟨_, hb.openings,
    foldEach_checkOpening.mpr ⟨hx.openings, hx.openedOnce, rfl⟩⟩, ?_⟩
  refine bind_eq_ok.mpr ⟨_, foldLines_ok.mpr ⟨_, hb.subjects,
    foldEach_checkSubject.mpr ⟨hx.subjects, hx.namedOnce, rfl⟩⟩, ?_⟩
  refine bind_eq_ok.mpr ⟨x.state, foldLines_ok.mpr ⟨_, hb.checkpoints,
    foldEach_checkpointStep.mpr ⟨hx.checkpoints, rfl⟩⟩, ?_⟩
  refine bind_eq_ok.mpr ⟨(), ?_, ?_⟩
  · rw [x.checkpoints_state]
    exact hman
  · simp only [Export.verified, List.length_map]
    rfl

/-- A linked checkpoint of an accepted export is tied to its receipts, and passed its checks. -/
theorem Export.Valid.linked {x : Export} {keys : List (Hex 16 × Bytes)} {first last : Receipt}
    (hx : x.Valid o c keys first last) {l : LinkedCheckpoint}
    (hl : l ∈ (x.verified keys first last).linkedCheckpoints) :
    isLinked x.receipts l.entry = true ∧ ValidCheckpoint o c keys x l.entry := by
  have hmem := List.mem_map_of_mem (f := LinkedCheckpoint.entry) hl
  rw [Export.verified, x.linked_state] at hmem
  obtain ⟨hmem, hlinked⟩ := List.mem_filter.mp hmem
  exact ⟨hlinked, hx.checkpoints _ hmem⟩

/-- **A bundle is accepted exactly when it reads as a valid export.** -/
theorem verifyBundle_eq_ok {b : Bundle} {v : Verified} :
    verifyBundle o c b = .ok v ↔ ∃ x keys first last, Export.ReadFrom x b ∧
      x.Valid o c keys first last ∧ v = x.verified keys first last := by
  constructor
  · exact Export.Valid.of_verifyBundle
  · rintro ⟨x, keys, first, last, hb, hx, rfl⟩
    exact hx.verifyBundle hb

end Sigillo
