import Sigillo.Exporter
import Sigillo.GrowingChain
import Sigillo.JoinedLines

/-!
# The index against the receipts

The documents of the index and those the receipts declare are compared as one text: a line for each,
its members joined by NUL, the lines sorted and joined by newlines. A line tells its document
(**`artifactLine_injective`**), but a label may hold both separators, so a line may begin with another
and a newline. Where none does, the texts are the same exactly where the documents are
(**`checkArtifacts_iff`**); where one does, one document passes for two (**`index_spells_two`**). -/

namespace Sigillo

open DoubleArith Utf16Text JsonText JsonParse JsonSchema HexBase64 JoinedLines

-- ── One line ─────────────────────────────────────────────────────────────────────

/-- A document as it is compared. -/
def artifactLine (e : ArtifactsIndexEntry) : JsString := artifactKey e.seq e.role e.label.1 e.sha256 e.text

theorem not_mem_countText {u : UInt16} (hu : ¬ NumberChar u) (n : Count) : u ∉ countText n.1 := by
  intro hmem
  rw [countText, JsNumber.ofNat_of_isDouble n.2.1] at hmem
  exact hu (numberChar_numberToString hmem)

theorem nul_not_numberChar : ¬ NumberChar 0 := by
  rw [NumberChar]
  decide

theorem newline_not_numberChar : ¬ NumberChar 0x0A := by
  rw [NumberChar]
  decide

theorem nul_not_mem_roleName (role : ArtifactRole) : (0 : UInt16) ∉ role.name := by
  cases role with
  | input => decide
  | output => decide

theorem countText_inj {m n : Count} (h : countText m.1 = countText n.1) : m = n := by
  have hend : NumEnd [] := by
    rintro u r hr
    cases hr
  have hm := parse_countText m.2.1 hend
  rw [h, parse_countText n.2.1 hend] at hm
  have hq := (Prod.mk.inj (Option.some.inj hm)).1
  exact Subtype.ext (by exact_mod_cast (JsNumber.fin.inj hq).symm)

theorem roleName_inj {a b : ArtifactRole} (h : a.name = b.name) : a = b := by
  cases a <;> cases b <;> first | rfl | exact absurd h (by decide)

/-- What stands after the label: the digest, and the fingerprint's rule and digest. -/
def digestsText (sha256 : Hex 64) (text : Option ArtifactText) : JsString :=
  0 :: sha256.1 ++ 0 :: (if text.isSome then js "sigillo-text/1" else []) ++ 0 :: (text.map fun t => t.sha256.1).getD []

theorem digestsText_length (sha256 : Hex 64) (text : Option ArtifactText) :
    (digestsText sha256 text).length = if text.isSome then 145 else 67 := by
  have hsha : sha256.1.length = 64 := sha256.2.1
  have hcanon : (js "sigillo-text/1").length = 14 := by decide
  cases text with
  | none =>
      rw [digestsText]
      simp only [List.length_append, List.length_cons, hsha]
      rfl
  | some t =>
      have ht : t.sha256.1.length = 64 := t.sha256.2.1
      rw [digestsText]
      simp only [List.length_append, List.length_cons, hsha, Option.isSome_some, if_true, hcanon, Option.map_some,
        Option.getD_some, ht]

/-- With a fingerprint the line ends in a digit, without in NUL. -/
theorem getLast_digestsText (sha256 : Hex 64) (text : Option ArtifactText) :
    (digestsText sha256 text).getLast? = some 0 ↔ text = none := by
  cases text with
  | none =>
      have hform : digestsText sha256 none = (0 :: sha256.1 ++ [0]) ++ [0] := rfl
      rw [hform]
      exact iff_of_true List.getLast?_concat rfl
  | some t =>
      have hne : t.sha256.1 ≠ [] := by
        intro hnil
        have hlen := t.sha256.2.1
        rw [hnil] at hlen
        exact absurd hlen (by decide)
      refine iff_of_false (fun hlast => ?_) (by simp)
      rw [digestsText, Option.map_some, Option.getD_some, List.getLast?_append, List.getLast?_cons,
        List.getLast?_eq_some_getLast hne] at hlast
      have hzero : t.sha256.1.getLast hne = 0 := by simpa using hlast
      have hhex := t.sha256.2.2 _ (List.getLast_mem hne)
      rw [hzero] at hhex
      exact absurd hhex (by decide)

/-- The label ends where the digests begin, whatever it holds. -/
theorem label_digests_inj {a b : JsString} {s t : Hex 64} {x y : Option ArtifactText}
    (h : a ++ digestsText s x = b ++ digestsText t y) : a = b ∧ s = t ∧ x = y := by
  have hlast : (x = none ↔ y = none) := by
    have hne : ∀ (u : Hex 64) (z : Option ArtifactText), digestsText u z ≠ [] := by
      intro u z
      rw [digestsText]
      simp
    rw [← getLast_digestsText s x, ← getLast_digestsText t y,
      ← List.getLast?_append_of_ne_nil a (hne s x), ← List.getLast?_append_of_ne_nil b (hne t y), h]
  have hsome : x.isSome = y.isSome := by
    cases x <;> cases y <;> simp at hlast ⊢
  obtain ⟨hlabel, hdigests⟩ := List.append_inj' h (by rw [digestsText_length, digestsText_length, hsome])
  have hfinger : ∀ z : Option ArtifactText,
      ((z.map fun f => f.sha256.1).getD []).length = if z.isSome then 64 else 0 := by
    intro z
    cases z with
    | none => rfl
    | some f => exact f.sha256.2.1
  rw [digestsText, digestsText, hsome] at hdigests
  obtain ⟨hfront, hback⟩ := List.append_inj' hdigests (by simp only [List.length_cons, hfinger, hsome])
  have hsha := List.append_cancel_right hfront
  refine ⟨hlabel, Subtype.ext (List.cons.inj hsha).2, ?_⟩
  have htext := (List.cons.inj hback).2
  cases x with
  | none =>
      cases y with
      | none => rfl
      | some g => exact absurd hsome (by simp)
  | some f =>
      cases y with
      | none => exact absurd hsome (by simp)
      | some g =>
          obtain ⟨f⟩ := f
          obtain ⟨g⟩ := g
          rw [Option.some.injEq, ArtifactText.mk.injEq]
          exact Subtype.ext htext

theorem artifactLine_eq (e : ArtifactsIndexEntry) : artifactLine e
    = countText e.seq.1 ++ 0 :: (e.role.name ++ 0 :: (e.label.1 ++ digestsText e.sha256 e.text)) := by
  rw [artifactLine, artifactKey, digestsText]
  simp only [List.append_assoc, List.cons_append]

/-- **A line tells its document.** -/
theorem artifactLine_injective : Function.Injective artifactLine := by
  intro x y h
  rw [artifactLine_eq, artifactLine_eq] at h
  obtain ⟨hseq, h⟩ := append_mark_inj (not_mem_countText nul_not_numberChar _) (not_mem_countText nul_not_numberChar _) h
  obtain ⟨hrole, h⟩ := append_mark_inj (nul_not_mem_roleName x.role) (nul_not_mem_roleName y.role) h
  obtain ⟨hlabel, hsha, htext⟩ := label_digests_inj h
  cases x
  cases y
  rw [ArtifactsIndexEntry.mk.injEq]
  exact ⟨hsha, countText_inj hseq, roleName_inj hrole, Subtype.ext hlabel, htext⟩

-- ── The whole index ──────────────────────────────────────────────────────────────

/-- No document's line, a newline after it, begins that of a document of the other side. -/
def Apart (declared indexed : List ArtifactsIndexEntry) : Prop :=
  ∀ x ∈ declared, ∀ y ∈ indexed, ¬ Begins 0x0A (artifactLine x) (artifactLine y) ∧
    ¬ Begins 0x0A (artifactLine y) (artifactLine x)

theorem artifactLine_ne_nil (e : ArtifactsIndexEntry) : artifactLine e ≠ [] := by
  rw [artifactLine, artifactKey]
  simp

theorem sortedText_eq_joined (lines : List JsString) : sortedText lines = joined 0x0A (lines.mergeSort lexLe) := rfl

/-- **The same documents have the same text**, in whatever order they are listed and whatever their
    labels hold. -/
theorem sortedText_of_perm {declared indexed : List ArtifactsIndexEntry} (hperm : indexed.Perm declared) :
    sortedText (declared.map artifactLine) = sortedText (indexed.map artifactLine) := by
  have hlines := hperm.map artifactLine
  have hsorted : (indexed.map artifactLine).mergeSort lexLe = (declared.map artifactLine).mergeSort lexLe := by
    have hpairs : ∀ lines : List JsString, (lines.mergeSort lexLe).Pairwise fun a b => lexLe a b = true :=
      List.pairwise_mergeSort (fun a b d => lexLe_trans) lexLe_total
    refine List.Perm.eq_of_pairwise (fun a b _ _ => lexLe_antisymm) (hpairs _) (hpairs _) ?_
    exact (List.mergeSort_perm _ lexLe).trans (hlines.trans (List.mergeSort_perm _ lexLe).symm)
  rw [sortedText_eq_joined, sortedText_eq_joined, hsorted]

/-- **The documents are compared as they are**, where their lines are apart. -/
theorem sortedText_eq_iff {declared indexed : List ArtifactsIndexEntry} (hapart : Apart declared indexed) :
    sortedText (declared.map artifactLine) = sortedText (indexed.map artifactLine) ↔ indexed.Perm declared := by
  have hmem : ∀ {entries : List ArtifactsIndexEntry} {line : JsString},
      line ∈ (entries.map artifactLine).mergeSort lexLe → ∃ e ∈ entries, artifactLine e = line := by
    intro entries line hline
    rw [List.mem_mergeSort] at hline
    exact List.mem_map.mp hline
  have hnonempty : ∀ {entries : List ArtifactsIndexEntry},
      ∀ line ∈ (entries.map artifactLine).mergeSort lexLe, line ≠ [] := by
    intro entries line hline
    obtain ⟨e, -, rfl⟩ := hmem hline
    exact artifactLine_ne_nil e
  refine ⟨fun h => ?_, sortedText_of_perm⟩
  rw [sortedText_eq_joined, sortedText_eq_joined] at h
  have hsorted := joined_inj hnonempty hnonempty (fun x hx y hy => ?_) h
  · have hperm : (indexed.map artifactLine).Perm (declared.map artifactLine) :=
      (List.mergeSort_perm _ lexLe).symm.trans (hsorted ▸ List.mergeSort_perm _ lexLe)
    exact (List.map_perm_map_iff artifactLine_injective).mp hperm
  · obtain ⟨d, hd, rfl⟩ := hmem hx
    obtain ⟨e, he, rfl⟩ := hmem hy
    exact hapart d hd e he

theorem declaredArtifacts_eq (receipts : List Receipt) :
    declaredArtifacts receipts = (indexOf receipts).map artifactLine :=
  (indexedArtifacts_indexOf receipts).symm

/-- **An index of what the receipts declare always passes**, whatever their labels hold. -/
theorem checkArtifacts_of_perm {o : VerifyOptions} {b : Bundle} {receipts : List Receipt}
    {entries : List ArtifactsIndexEntry}
    (hread : LinesRead artifactsIndexEntrySchema (b.artifactsIndexJsonl.getD []) entries)
    (hperm : entries.Perm (indexOf receipts)) : checkArtifacts o b receipts = .ok entries := by
  rw [checkArtifacts_ok, declaredArtifacts_eq]
  exact ⟨hread, sortedText_of_perm hperm⟩

/-- **The check passes for the documents the receipts declare, and no others**, where the lines are apart. -/
theorem checkArtifacts_iff (o : VerifyOptions) (b : Bundle) (receipts : List Receipt)
    (entries : List ArtifactsIndexEntry)
    (hread : LinesRead artifactsIndexEntrySchema (b.artifactsIndexJsonl.getD []) entries)
    (hapart : Apart (indexOf receipts) entries) :
    checkArtifacts o b receipts = .ok entries ↔ entries.Perm (indexOf receipts) := by
  refine ⟨fun hok => ?_, checkArtifacts_of_perm hread⟩
  rw [checkArtifacts_ok, declaredArtifacts_eq] at hok
  exact (sortedText_eq_iff hapart).mp hok.2

/-- What a line has outside its label: no newline. -/
theorem newline_mem_artifactLine {e : ArtifactsIndexEntry} (h : (0x0A : UInt16) ∈ artifactLine e) :
    (0x0A : UInt16) ∈ e.label.1 := by
  have hrole : (0x0A : UInt16) ∉ e.role.name := by
    cases e.role with
    | input => decide
    | output => decide
  have hhex : ∀ d : Hex 64, (0x0A : UInt16) ∉ d.1 := fun d hmem => absurd (d.2.2 _ hmem) (by decide)
  have hdigests : (0x0A : UInt16) ∉ digestsText e.sha256 e.text := by
    rw [digestsText]
    cases e.text with
    | none => simp [hhex]
    | some t =>
        have hcanon : (0x0A : UInt16) ∉ js "sigillo-text/1" := by decide
        simp [hhex, hcanon]
  rw [artifactLine_eq] at h
  simp only [List.mem_append, List.mem_cons] at h
  rcases h with h | h | h | h | h | h
  · exact absurd h (not_mem_countText newline_not_numberChar e.seq)
  · exact absurd h (by decide)
  · exact absurd h hrole
  · exact absurd h (by decide)
  · exact h
  · exact absurd h hdigests

/-- **Labels of one line each keep their documents apart.** -/
theorem apart_of_no_newline {declared indexed : List ArtifactsIndexEntry}
    (hdeclared : ∀ e ∈ declared, (0x0A : UInt16) ∉ e.label.1) (hindexed : ∀ e ∈ indexed, (0x0A : UInt16) ∉ e.label.1) :
    Apart declared indexed := by
  have hnot : ∀ x y : ArtifactsIndexEntry, (0x0A : UInt16) ∉ y.label.1 →
      ¬ Begins 0x0A (artifactLine x) (artifactLine y) := by
    intro x y hy hbegins
    refine hy (newline_mem_artifactLine (hbegins.subset ?_))
    exact List.mem_append_right _ (List.mem_singleton_self _)
  exact fun x hx y hy => ⟨hnot x y (hindexed y hy), hnot y x (hdeclared x hx)⟩

/-- The first position. -/
def firstPosition : Count := ⟨1, isCount_one⟩

/-- The digest of zeros. -/
def zeroDigest : Hex 64 := ⟨List.replicate 64 0x30, isHex_zeros64⟩

/-- A receipt that declares one document, by its label. -/
def labelledReceipt (label : Text MAX_NAME) : Receipt :=
  { plainReceipt firstPosition .toolCall GENESIS_PREV_HASH with
    detail := .v2 ⟨⟨js "a", isName_a⟩, none⟩
      (some ⟨[⟨.input, label, ⟨js "text/plain", by decide⟩, zeroDigest⟩], le_rfl⟩) none
    schemes := trivial }

/-- The entry of a document with a label. -/
def labelledEntry (label : Text MAX_NAME) : ArtifactsIndexEntry := ⟨zeroDigest, firstPosition, .input, label, none⟩

/-- The index of a bundle, and nothing else. -/
def indexBundle (entries : List ArtifactsIndexEntry) : Bundle :=
  ⟨[], [], none, some (jsonl (entries.map artifactsIndexEntrySchema.encode)), none, none⟩

/-- A document labelled `x`. -/
def documentX : ArtifactsIndexEntry := labelledEntry ⟨js "x", by decide⟩

/-- A document labelled `y`. -/
def documentY : ArtifactsIndexEntry := labelledEntry ⟨js "y", by decide⟩

/-- Two receipts, each with a document. -/
def twoLabelled : List Receipt := [labelledReceipt documentX.label, labelledReceipt documentY.label]

/-- Two declared documents pass in another order, and not where one of them is listed twice. -/
theorem checkArtifacts_iff_two :
    checkArtifacts anyKey (indexBundle [documentY, documentX]) twoLabelled = .ok [documentY, documentX] ∧
    checkArtifacts anyKey (indexBundle [documentX, documentX]) twoLabelled ≠ .ok [documentX, documentX] := by
  have hplain : ∀ e ∈ [documentX, documentY], (0x0A : UInt16) ∉ e.label.1 := by decide
  have hiff : ∀ entries, (∀ e ∈ entries, (0x0A : UInt16) ∉ e.label.1) →
      (checkArtifacts anyKey (indexBundle entries) twoLabelled = .ok entries ↔
        entries.Perm [documentX, documentY]) :=
    fun entries hentries => checkArtifacts_iff anyKey (indexBundle entries) twoLabelled entries
      (linesRead_written (fun _ => ⟨_, rfl⟩) entries) (apart_of_no_newline hplain hentries)
  constructor
  · exact (hiff [documentY, documentX] (by decide)).mpr (List.Perm.swap ..)
  · rw [Ne, hiff [documentX, documentX] (by decide)]
    decide

-- ── A label that spells a boundary ───────────────────────────────────────────────

/-- **One document passes for two**, where its line is theirs. -/
theorem index_spells_two {e x y : ArtifactsIndexEntry}
    (hline : artifactLine e = artifactLine x ++ 0x0A :: artifactLine y)
    (hle : lexLe (artifactLine x) (artifactLine y) = true) :
    sortedText ([e].map artifactLine) = sortedText ([x, y].map artifactLine) := by
  have htwo : [artifactLine x, artifactLine y].mergeSort lexLe = [artifactLine x, artifactLine y] :=
    List.mergeSort_of_pairwise (by simpa using hle)
  show joined 0x0A ([artifactLine e].mergeSort lexLe) = joined 0x0A ([artifactLine x, artifactLine y].mergeSort lexLe)
  rw [htwo, List.mergeSort_singleton, joined_cons, joined_cons, following, following, joined_cons, following,
    List.append_nil, List.append_nil, hline]

/-- The index is the one part of an export that only its check looks at. -/
theorem Export.Valid.withIndex {o : VerifyOptions} {c : Crypto} {x : Export} {keys : List (Hex 16 × Bytes)}
    {first last : Receipt} (hx : x.Valid o c keys first last) {entries : List ArtifactsIndexEntry}
    (hentries : sortedText (declaredArtifacts x.receipts) = sortedText (indexedArtifacts entries)) :
    ({ x with artifactsIndex := entries } : Export).Valid o c keys first last where
  published := hx.published
  head := hx.head
  tail := hx.tail
  system := hx.system
  sequence := hx.sequence
  genesis := hx.genesis
  links := hx.links
  signed := hx.signed
  artifacts := hentries
  openings := hx.openings
  openedOnce := hx.openedOnce
  subjects := hx.subjects
  namedOnce := hx.namedOnce
  checkpoints e he :=
    have h := hx.checkpoints e he
    ⟨h.system, h.signed, h.root, h.proofs⟩
  manifest :=
    have h := hx.manifest
    ⟨h.fromSeq, h.toSeq, h.fromTs, h.toTs, h.receipts, h.checkpoints, h.timestamps, h.version⟩

/-- A label that goes on, after its `x`, as a line does, to the label of a second line. -/
def spelledLabel : Text MAX_NAME :=
  ⟨js "x" ++ 0 :: zeroDigest.1 ++ [0, 0, 0x0A] ++ js "1" ++ 0 :: js "input" ++ 0 :: js "y", by decide⟩

/-- A receipt with it. -/
def spelledReceipt : Receipt := labelledReceipt spelledLabel

/-- The index of the two other documents. -/
def spelledIndex : List ArtifactsIndexEntry := [documentX, documentY]

/-- **An export is accepted that indexes two documents where its receipt declares one.** -/
theorem two_indexed_for_one : ∃ b v entries, verifyBundle anyKey toyCrypto b = .ok v ∧
    LinesRead artifactsIndexEntrySchema (b.artifactsIndexJsonl.getD []) entries ∧
    ¬ entries.Perm (indexOf v.receipts) := by
  have hfit : FitsArray [spelledReceipt] := by decide
  have hexport : Exportable toyCrypto (.bare ⟨js "s", by decide⟩ plainKeys [spelledReceipt] hfit)
      [(toyKey.keyId, List.replicate 32 0)] spelledReceipt spelledReceipt :=
    exportable_bare hfit (soundReceipts_singleton toyCrypto spelledReceipt) rfl rfl (fun h => absurd h (by decide))
      (plainKeys_published rfl) fun r hr => ⟨List.replicate 32 0, by rw [List.mem_singleton.mp hr]; rfl, rfl⟩
  have hasked : anyKey.trustedKeyIds = none := rfl
  obtain ⟨built, -, hreceipts, hvalid, -⟩ := built_valid hasked hexport
  have hspelled : sortedText (declaredArtifacts built.content.receipts) = sortedText (indexedArtifacts spelledIndex) := by
    rw [hreceipts]
    exact index_spells_two (e := labelledEntry spelledLabel) (by decide +kernel)
      (by decide +kernel)
  have hindexed := hvalid.withIndex hspelled
  refine ⟨_, _, spelledIndex, hindexed.verifyBundle_files,
    (Export.readFrom_files _).artifactsIndex, fun hperm => ?_⟩
  have hlen := hperm.length_eq
  have hone : (indexOf built.content.receipts).length = 1 := by
    rw [hreceipts]
    rfl
  exact absurd (hlen.trans hone) (by decide)

end Sigillo
