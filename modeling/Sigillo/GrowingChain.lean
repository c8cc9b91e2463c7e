import Sigillo.PreviousExport
import Sigillo.ReceiptChain

/-!
# Exports of a growing chain

A chain only grows: receipts, checkpoints over ever larger trees, tokens. Two windows of it exported
at two moments are never held against each other (**`honest_export_not_accused`**): what the exporter
leaves out of the later archive is nothing the comparison asks for. -/

namespace Sigillo

open DoubleArith Utf16Text JsonText JsonParse HexBase64 IsoTime Fallible

variable {c : Crypto}

-- ── Moments ──────────────────────────────────────────────────────────────────────

/-- **What the store holds of one system at a moment.** -/
structure ChainRecord (c : Crypto) where
  systemId : SystemId
  receipts : List Receipt
  checkpoints : List CheckpointInput
  chain : IsChain c systemId receipts
  /-- The chain is read into one array. -/
  receipts_fit : FitsArray receipts
  increasing : checkpoints.Pairwise fun a b => a.size < b.size

/-- The same checkpoint, with at least the tokens it had. -/
structure SameCheckpoint (before after : CheckpointInput) : Prop where
  stored : after.stored = before.stored
  tokens : before.timestamps ⊆ after.timestamps

theorem SameCheckpoint.size {before after : CheckpointInput} (h : SameCheckpoint before after) :
    after.size = before.size := by
  rw [CheckpointInput.size, h.stored, CheckpointInput.size]

/-- **Nothing but additions** between two moments. -/
structure Grows (before after : ChainRecord c) : Prop where
  systemId : after.systemId = before.systemId
  receipts : before.receipts <+: after.receipts
  checkpoints : ∃ kept added, after.checkpoints = kept ++ added ∧
    List.Forall₂ SameCheckpoint before.checkpoints kept

/-- The input of an export of a window at a moment. -/
structure WindowOf (moment : ChainRecord c) (input : ArchiveInput) : Prop where
  systemId : input.systemId = moment.systemId
  receipts : input.receipts <:+: moment.receipts
  checkpoints : input.checkpoints = moment.checkpoints

/-- The tokens of an archive, by file name. -/
def tokenMap (tokens : List ZipEntry) (name : JsString) : Option Bytes :=
  (tokens.find? fun e => e.name == name).map fun e => e.data

/-- The checkpoints and the tokens of an archive. -/
def BuiltArchive.anchors (built : BuiltArchive) : AnchorSet :=
  ⟨built.content.checkpoints, tokenMap built.tokens⟩

-- ── The names of tokens ──────────────────────────────────────────────────────────

/-- A count is read back from its text. -/
theorem parse_countText {n : ℕ} (hn : IsDouble (n : ℚ)) {rest : JsString} (hrest : NumEnd rest) :
    parseNumber (countText n ++ rest) = some (.fin n hn, rest) := by
  rw [countText, JsNumber.ofNat_of_isDouble hn]
  exact parseNumber_numberToString hn hrest

/-- **Two tokens of one name are one token of one checkpoint.** -/
theorem tokenPath_injective {m n i j : ℕ} (hm : IsDouble (m : ℚ)) (hn : IsDouble (n : ℚ))
    (hi : i < 2 ^ 32) (hj : j < 2 ^ 32) (h : tokenPath m i = tokenPath n j) : m = n ∧ i = j := by
  have htext := congrArg Subtype.val h
  simp only [tokenPath, List.append_cancel_left_eq, List.append_cancel_right_eq] at htext
  have hdash : ∀ rest, NumEnd (0x2D :: rest) := by
    rintro rest u r hr
    obtain ⟨rfl, -⟩ := List.cons.inj hr
    decide
  have hend : NumEnd [] := by
    rintro u r hr
    cases hr
  have hsize := parse_countText hm (hdash (countText (i + 1)))
  rw [htext, parse_countText hn (hdash _)] at hsize
  obtain ⟨hmn, hrest⟩ := Prod.mk.inj (Option.some.inj hsize)
  have hindex := parse_countText (isDouble_natCast (show i + 1 ≤ 2 ^ 53 by omega)) hend
  rw [← (List.cons.inj hrest).2,
    parse_countText (isDouble_natCast (show j + 1 ≤ 2 ^ 53 by omega)) hend] at hindex
  obtain ⟨hij, -⟩ := Prod.mk.inj (Option.some.inj hindex)
  have hmn' : (n : ℚ) = m := by simpa using hmn
  have hij' : ((j + 1 : ℕ) : ℚ) = ((i + 1 : ℕ) : ℚ) := by simpa using hij
  refine ⟨by exact_mod_cast hmn'.symm, ?_⟩
  have : j + 1 = i + 1 := by exact_mod_cast hij'
  omega

-- ── What an archive holds ────────────────────────────────────────────────────────

/-- What `buildArchive` gives, when it gives anything. -/
theorem buildArchive_some {input : ArchiveInput} {built : BuiltArchive}
    (h : buildArchive c input = some built) : ∃ first last,
      input.receipts.head? = some first ∧ input.receipts.getLast? = some last ∧
      built.content.receipts = input.receipts ∧
      (relevant first last input.checkpoints).mapM
        (entryOf c input.receipts (leavesOf c input first)) = some built.content.checkpoints ∧
      built.tokens = (relevant first last input.checkpoints).flatMap tokensOf := by
  rw [buildArchive] at h
  simp only [Option.bind_eq_bind, Option.bind_eq_some_iff] at h
  obtain ⟨first, hfirst, last, hlast, entries, hentries, h⟩ := h
  obtain rfl := Option.some.inj h
  exact ⟨first, last, hfirst, hlast, rfl, hentries, rfl⟩

/-- Checkpoints that come in order of size are not moved. -/
theorem relevant_of_increasing {first last : Receipt} {checkpoints : List CheckpointInput}
    (hsorted : checkpoints.Pairwise fun a b => a.size < b.size) :
    relevant first last checkpoints = relevantFrom first last checkpoints := by
  rw [relevant, bySize, List.mergeSort_of_pairwise (hsorted.imp fun h => by simpa using h.le)]

/-- Which checkpoints are relevant, when they come in order of size. -/
theorem mem_relevant {first last : Receipt} {checkpoints : List CheckpointInput}
    (hsorted : checkpoints.Pairwise fun a b => a.size < b.size) (hle : first.seq.1 ≤ last.seq.1)
    {e : CheckpointInput} : e ∈ relevant first last checkpoints ↔
      e ∈ checkpoints ∧ first.seq.1 < e.size ∧
        ∀ g ∈ checkpoints, g.size < e.size → g.size ≤ last.seq.1 := by
  rw [relevant_of_increasing hsorted]
  induction checkpoints with
  | nil => simp [relevantFrom]
  | cons g rest ih =>
      obtain ⟨hg, hrest⟩ := List.pairwise_cons.mp hsorted
      have ih := ih hrest
      rw [relevantFrom]
      split_ifs with hbefore hcovers
      · rw [ih]
        constructor
        · rintro ⟨he, hfirst, hall⟩
          refine ⟨by simp [he], hfirst, fun x hx hxe => ?_⟩
          rcases List.mem_cons.mp hx with rfl | hx
          · exact hbefore.trans hle
          · exact hall x hx hxe
        · rintro ⟨he, hfirst, hall⟩
          rcases List.mem_cons.mp he with rfl | he
          · omega
          · exact ⟨he, hfirst, fun x hx => hall x (by simp [hx])⟩
      · rw [List.mem_singleton]
        constructor
        · rintro rfl
          refine ⟨by simp, by omega, fun x hx hxe => ?_⟩
          rcases List.mem_cons.mp hx with rfl | hx
          · omega
          · have := hg x hx
            omega
        · rintro ⟨he, -, hall⟩
          rcases List.mem_cons.mp he with rfl | he
          · rfl
          · have := hall g (by simp) (hg e he)
            omega
      · rw [List.mem_cons, ih]
        constructor
        · rintro (rfl | ⟨he, hfirst, hall⟩)
          · refine ⟨by simp, by omega, fun x hx hxe => ?_⟩
            rcases List.mem_cons.mp hx with rfl | hx
            · omega
            · have := hg x hx
              omega
          · refine ⟨by simp [he], hfirst, fun x hx hxe => ?_⟩
            rcases List.mem_cons.mp hx with rfl | hx
            · omega
            · exact hall x hx hxe
        · rintro ⟨he, hfirst, hall⟩
          rcases List.mem_cons.mp he with rfl | he
          · exact .inl rfl
          · exact .inr ⟨he, hfirst, fun x hx => hall x (by simp [hx])⟩

theorem length_timestamps_lt {input : ArchiveInput} {e : CheckpointInput}
    (he : e ∈ input.checkpoints) : e.timestamps.length < 2 ^ 32 := by
  refine lt_of_le_of_lt ?_ input.tokens_fit
  rw [List.length_flatMap]
  exact List.le_sum_of_mem (List.mem_map_of_mem he)

/-- In a list in order of size, a size stands for one checkpoint. -/
theorem eq_of_size {checkpoints : List CheckpointInput}
    (hsorted : checkpoints.Pairwise fun a b => a.size < b.size) {e g : CheckpointInput}
    (he : e ∈ checkpoints) (hg : g ∈ checkpoints) (h : e.size = g.size) : e = g := by
  induction checkpoints with
  | nil => cases he
  | cons x rest ih =>
      obtain ⟨hx, hrest⟩ := List.pairwise_cons.mp hsorted
      rcases List.mem_cons.mp he with rfl | he'
      · rcases List.mem_cons.mp hg with rfl | hg'
        · rfl
        · have := hx g hg'
          omega
      · rcases List.mem_cons.mp hg with rfl | hg'
        · have := hx e he'
          omega
        · exact ih hrest he' hg'

theorem getElem?_anchorsOf {e : CheckpointInput} {i : ℕ} {stamp : ExportTimestamp}
    (h : (anchorsOf e)[i]? = some stamp) : ∃ t, e.timestamps[i]? = some t ∧
      stamp = ⟨t.tsaUrl, t.obtainedAt, tokenPath e.size i⟩ := by
  rw [anchorsOf, List.getElem?_mapIdx] at h
  obtain ⟨t, ht, rfl⟩ := Option.map_eq_some_iff.mp h
  exact ⟨t, ht, rfl⟩

theorem mem_anchorsOf {e : CheckpointInput} {i : ℕ} {t : StoredTimestamp}
    (h : e.timestamps[i]? = some t) : (⟨t.tsaUrl, t.obtainedAt, tokenPath e.size i⟩ : ExportTimestamp)
      ∈ anchorsOf e := by
  refine List.mem_of_getElem? (i := i) ?_
  rw [anchorsOf, List.getElem?_mapIdx, h, Option.map_some]

/-- **A token is found in the archive under the name its checkpoint gives it.** -/
theorem tokenMap_tokens {input : ArchiveInput} {first last : Receipt}
    (hsorted : input.checkpoints.Pairwise fun a b => a.size < b.size) {e : CheckpointInput}
    (he : e ∈ relevant first last input.checkpoints) {i : ℕ} {t : StoredTimestamp}
    (ht : e.timestamps[i]? = some t) :
    tokenMap ((relevant first last input.checkpoints).flatMap tokensOf) (tokenPath e.size i).1
      = some (base64Decode t.tokenBase64) := by
  have hmem := mem_of_mem_relevant he
  have hilt := (List.getElem?_eq_some_iff.mp ht).1
  have hfit := length_timestamps_lt hmem
  rw [tokenMap]
  cases hf : ((relevant first last input.checkpoints).flatMap tokensOf).find? fun x =>
      x.name == (tokenPath e.size i).1 with
  | none =>
      have hnot := List.find?_eq_none.mp hf ⟨(tokenPath e.size i).1, base64Decode t.tokenBase64⟩
        (List.mem_flatMap.mpr ⟨e, he, List.mem_mapIdx.mpr ⟨i, hilt, by
          rw [(List.getElem?_eq_some_iff.mp ht).2]⟩⟩)
      simp at hnot
  | some x =>
      obtain ⟨g, hg, hx⟩ := List.mem_flatMap.mp (List.mem_of_find?_eq_some hf)
      obtain ⟨j, hj, rfl⟩ := List.mem_mapIdx.mp hx
      have hname : tokenPath g.size j = tokenPath e.size i :=
        Subtype.ext (by simpa using List.find?_some hf)
      have hgmem := mem_of_mem_relevant hg
      have hjlt := length_timestamps_lt hgmem
      obtain ⟨hsize, rfl⟩ := tokenPath_injective g.stored.checkpoint.treeSize.2.1
        e.stored.checkpoint.treeSize.2.1 (by omega) (by omega) hname
      obtain rfl := eq_of_size hsorted hgmem hmem hsize
      rw [Option.map_some, (List.getElem?_eq_some_iff.mp ht).2]

-- ── Two exports ──────────────────────────────────────────────────────────────────

section TwoExports

variable {before after : ChainRecord c} (hgrows : Grows before after)
  {earlier later : ArchiveInput} (hearlier : WindowOf before earlier) (hlater : WindowOf after later)
include hgrows hearlier hlater

omit hlater in
/-- What the earlier window holds is in the later chain. -/
theorem mem_later_chain {p : Receipt} (hp : p ∈ earlier.receipts) : p ∈ after.receipts :=
  hgrows.receipts.subset (hearlier.receipts.subset hp)

/-- **The receipts of the two are never held against each other.** -/
theorem compareWithPrevious_honest {first last last' : Receipt}
    (hfirst : later.receipts.head? = some first) (hlast : later.receipts.getLast? = some last)
    (hlast' : earlier.receipts.getLast? = some last') (hreaches : last'.seq.1 ≤ last.seq.1)
    (hfollows : first.seq.1 ≤ last'.seq.1 + 1) :
    compareWithPrevious c later.receipts earlier.receipts = .ok () := by
  have hfirstmem : first ∈ after.receipts :=
    hlater.receipts.subset (List.mem_of_mem_head? hfirst)
  have hlast'mem : last' ∈ after.receipts :=
    mem_later_chain hgrows hearlier (List.mem_of_getLast? hlast')
  have hsystem : ∀ r ∈ after.receipts, r.systemId = after.systemId := by
    intro r hr
    obtain ⟨n, hn⟩ := List.mem_iff_getElem?.mp hr
    exact (after.chain n r hn).systemId
  obtain ⟨n, hn⟩ := List.mem_iff_getElem?.mp hlast'mem
  have hseq := after.chain.seq_eq hn
  have hfit : after.receipts.length < 2 ^ 32 := after.receipts_fit
  have hnlt := (List.getElem?_eq_some_iff.mp hn).1
  have hround : roundNat (last'.seq.1 + 1) = last'.seq.1 + 1 := roundNat_of_le (by omega)
  refine compareWithPrevious_ok.mpr ⟨first, last, last', hfirst, hlast, hlast',
    (hsystem first hfirstmem).trans (hsystem last' hlast'mem).symm, fun r hr h hh => ?_, hreaches,
    by rwa [hround], fun htouch => ?_⟩
  · -- one position of the chain, one receipt
    obtain ⟨p, hp, rfl⟩ := Option.map_eq_some_iff.mp hh
    have hpseq : p.seq = r.seq := by simpa using List.find?_some hp
    have hpmem := List.mem_reverse.mp (List.mem_of_find?_eq_some hp)
    rw [after.chain.eq_of_seq (mem_later_chain hgrows hearlier hpmem)
      (hlater.receipts.subset hr) (congrArg Subtype.val hpseq)]
  · rw [hround] at htouch
    obtain ⟨m, hm⟩ := List.mem_iff_getElem?.mp hfirstmem
    have hmseq := after.chain.seq_eq hm
    have hmn : m = n + 1 := by omega
    have hprev := (after.chain m first hm).prevHash
    rw [hmn, prevHashAfter_take c hn] at hprev
    rw [hprev, hashBefore]
    -- the previous export's receipt at its last position is its last receipt
    have hlast'in : last' ∈ earlier.receipts := List.mem_of_getLast? hlast'
    obtain ⟨p, hp, hpmem, hpseq⟩ := findSeq_eq_some (List.mem_reverse.mpr hlast'in)
    have hsame : p = last' := after.chain.eq_of_seq
      (mem_later_chain hgrows hearlier (List.mem_reverse.mp hpmem)) hlast'mem
      (congrArg Subtype.val hpseq)
    rw [hp, hsame]
    rfl

/-- **A checkpoint the earlier archive holds is in the later one**, unless it is wholly before it. -/
theorem relevant_later {first last first' last' : Receipt}
    (hle : first.seq.1 ≤ last.seq.1) (hle' : first'.seq.1 ≤ last'.seq.1)
    (hreaches : last'.seq.1 ≤ last.seq.1) {e : CheckpointInput}
    (he : e ∈ relevant first' last' earlier.checkpoints) (hlt : first.seq.1 < e.size) :
    ∃ g ∈ relevant first last later.checkpoints, SameCheckpoint e g := by
  rw [hearlier.checkpoints, mem_relevant before.increasing hle'] at he
  obtain ⟨hemem, -, hall⟩ := he
  obtain ⟨kept, added, hsplit, hkept⟩ := hgrows.checkpoints
  obtain ⟨g, hg, hsame⟩ := exists_of_forall₂ hkept.flip hemem
  refine ⟨g, ?_, hsame⟩
  rw [hlater.checkpoints, mem_relevant after.increasing hle]
  have hincreasing := after.increasing
  rw [hsplit] at hincreasing
  refine ⟨by simp [hsplit, hg], by rwa [hsame.size], fun x hx hxg => ?_⟩
  rw [hsplit, List.mem_append] at hx
  rcases hx with hx | hx
  · -- `x` was there before, and `e` was relevant then
    obtain ⟨x', hx', hsame'⟩ := exists_of_forall₂ hkept hx
    have := hall x' hx' (by rw [← hsame'.size, ← hsame.size]; exact hxg)
    rw [hsame'.size]
    exact this.trans hreaches
  · -- what was added since covers more
    have := (List.pairwise_append.mp hincreasing).2.2 g hg x hx
    omega

/-- **Every checkpoint and token asked for is there.** -/
theorem compareAnchors_honest {first last first' last' : Receipt} {new old : BuiltArchive}
    (hle : first.seq.1 ≤ last.seq.1) (hle' : first'.seq.1 ≤ last'.seq.1)
    (hreaches : last'.seq.1 ≤ last.seq.1)
    (hnew : List.Forall₂ (fun e entry => entryOf c later.receipts (leavesOf c later first) e = some entry)
      (relevant first last later.checkpoints) new.content.checkpoints)
    (htokens : new.tokens = (relevant first last later.checkpoints).flatMap tokensOf)
    (hold : List.Forall₂
      (fun e entry => entryOf c earlier.receipts (leavesOf c earlier first') e = some entry)
      (relevant first' last' earlier.checkpoints) old.content.checkpoints)
    (htokens' : old.tokens = (relevant first' last' earlier.checkpoints).flatMap tokensOf) :
    compareAnchorsWithPrevious new.anchors old.anchors first.seq = .ok () := by
  refine checkEach_ok.mpr fun i entry hi => ?_
  obtain ⟨e, he, hentry⟩ := exists_of_forall₂ hold (List.mem_of_getElem? hi)
  obtain ⟨proofs, -, rfl⟩ := Option.map_eq_some_iff.mp hentry
  by_cases hbefore : e.size ≤ first.seq.1
  · rw [checkAnchored]
    exact if_pos hbefore
  obtain ⟨g, hg, hsame⟩ := relevant_later hgrows hearlier hlater hle hle' hreaches he
    (not_le.mp hbefore)
  have hsorted : earlier.checkpoints.Pairwise fun a b => a.size < b.size := by
    rw [hearlier.checkpoints]
    exact before.increasing
  have hsorted' : later.checkpoints.Pairwise fun a b => a.size < b.size := by
    rw [hlater.checkpoints]
    exact after.increasing
  cases hf : new.anchors.checkpoints.find? fun entry => entry.checkpoint.treeSize.1 == e.size with
  | none =>
      obtain ⟨now, hnow, hmade⟩ := exists_of_forall₂ hnew.flip hg
      obtain ⟨proofs', -, rfl⟩ := Option.map_eq_some_iff.mp hmade
      have hnot := List.find?_eq_none.mp hf _ hnow
      exact absurd (beq_iff_eq.mpr hsame.size) hnot
  | some now =>
      -- the checkpoint found is the one over as many receipts
      obtain ⟨g', hg', hmade⟩ := exists_of_forall₂ hnew (List.mem_of_find?_eq_some hf)
      obtain ⟨proofs', -, rfl⟩ := Option.map_eq_some_iff.mp hmade
      have hsize := beq_iff_eq.mp (List.find?_some (p := fun x : CheckpointEntry =>
        x.checkpoint.treeSize.1 == e.size) hf)
      obtain rfl := eq_of_size hsorted' (mem_of_mem_relevant hg') (mem_of_mem_relevant hg)
        (hsize.trans hsame.size.symm)
      have hstamps : checkEach (checkTokens new.anchors old.anchors e.size
          ⟨g'.stored.checkpoint, proofs', anchorsOf g'⟩) 1 (anchorsOf e) = .ok () := by
        refine checkEach_ok.mpr fun j stamp hj => checkTokens_none.mpr fun token htoken => ?_
        obtain ⟨t, ht, rfl⟩ := getElem?_anchorsOf hj
        change tokenMap old.tokens (tokenPath e.size j).1 = some token at htoken
        rw [htokens', tokenMap_tokens hsorted he ht] at htoken
        obtain ⟨k, hk⟩ := List.mem_iff_getElem?.mp (hsame.tokens (List.mem_of_getElem? ht))
        refine ⟨⟨t.tsaUrl, t.obtainedAt, tokenPath g'.size k⟩, mem_anchorsOf hk, rfl, ?_⟩
        change tokenMap new.tokens (tokenPath g'.size k).1 = some token
        rw [htokens, tokenMap_tokens hsorted' hg' hk]
        exact htoken
      have hstored : g'.stored.checkpoint = e.stored.checkpoint :=
        congrArg (fun x => x.checkpoint) hsame.stored
      exact checkAnchored_of_found hf (congrArg (fun x => x.rootHash) hstored)
        (congrArg (fun x => x.sig) hstored) hstamps

end TwoExports

/-- A window of a chain starts no later than it ends. -/
theorem window_le {systemId : SystemId} {chain window : List Receipt} (hchain : IsChain c systemId chain)
    (hwithin : window <:+: chain) {first last : Receipt} (hfirst : window.head? = some first)
    (hlast : window.getLast? = some last) : first.seq.1 ≤ last.seq.1 := by
  obtain ⟨pre, post, rfl⟩ := hwithin
  have hpos : 0 < window.length := by
    cases window with
    | nil => cases hfirst
    | cons r rest => exact Nat.succ_pos _
  have hat : ∀ i r, window[i]? = some r → r.seq.1 = pre.length + i := by
    intro i r hr
    have hlt := (List.getElem?_eq_some_iff.mp hr).1
    refine hchain.seq_eq ?_
    rw [List.append_assoc, List.getElem?_append_right (Nat.le_add_right _ _), Nat.add_sub_cancel_left,
      List.getElem?_append_left hlt]
    exact hr
  rw [List.head?_eq_getElem?] at hfirst
  rw [List.getLast?_eq_getElem?] at hlast
  rw [hat _ _ hfirst, hat _ _ hlast]
  omega

/-- **An honest later export is never accused** of a receipt, a checkpoint or a token removed. -/
theorem honest_export_not_accused {before after : ChainRecord c} {earlier later : ArchiveInput}
    {old new : BuiltArchive} {first last last' : Receipt} (hgrows : Grows before after)
    (hearlier : WindowOf before earlier) (hlater : WindowOf after later)
    (hold : buildArchive c earlier = some old) (hnew : buildArchive c later = some new)
    (hfirst : later.receipts.head? = some first) (hlast : later.receipts.getLast? = some last)
    (hlast' : earlier.receipts.getLast? = some last') (hreaches : last'.seq.1 ≤ last.seq.1)
    (hfollows : first.seq.1 ≤ last'.seq.1 + 1) :
    compareWithPrevious c new.content.receipts old.content.receipts = .ok () ∧
    compareAnchorsWithPrevious new.anchors old.anchors first.seq = .ok () := by
  obtain ⟨f, l, hf, hl, hreceipts, hentries, htokens⟩ := buildArchive_some hnew
  obtain rfl := Option.some.inj (hfirst.symm.trans hf)
  obtain rfl := Option.some.inj (hlast.symm.trans hl)
  obtain ⟨f', l', hf', hl', hreceipts', hentries', htokens'⟩ := buildArchive_some hold
  obtain rfl := Option.some.inj (hlast'.symm.trans hl')
  rw [hreceipts, hreceipts']
  constructor
  · exact compareWithPrevious_honest hgrows hearlier hlater hfirst hlast hlast' hreaches hfollows
  · exact compareAnchors_honest hgrows hearlier hlater (window_le after.chain hlater.receipts hf hl)
      (window_le before.chain hearlier.receipts hf' hl') hreaches (mapM_eq_some.mp hentries) htokens
      (mapM_eq_some.mp hentries') htokens'

-- ── A chain that grew ────────────────────────────────────────────────────────────

/-- The hashes of a chain, as the exporter is given them. -/
def leafTexts (chain : List Receipt) : List (Hex 64) :=
  chain.map fun r => receiptHashHex linkCrypto r.toUnsignedReceipt

/-- An export of a window of a moment, with the hash of every receipt of the chain. -/
def plainWindow (moment : ChainRecord linkCrypto) (receipts : List Receipt) (hfit : FitsArray receipts)
    (hcheckpoints : FitsArray moment.checkpoints)
    (htokens : FitsArray (moment.checkpoints.flatMap fun e => e.timestamps)) : ArchiveInput :=
  { ArchiveInput.bare moment.systemId plainKeys receipts hfit with
    checkpoints := moment.checkpoints
    chainLeaves := some (leafTexts moment.receipts)
    checkpoints_fit := hcheckpoints
    tokens_fit := htokens }

/-- The signed checkpoint over the first receipts of a plain chain. -/
def checkpointOver (chain : List Receipt) (size : PosCount) : StoredCheckpoint where
  id := size.1
  checkpoint := {
    systemId := plainGenesis.systemId
    treeSize := size
    rootHash := recomputedRoot linkCrypto chain size.1
    ts := newYear
    keyId := toyKey.keyId
    sig := signDigest toyKey ⟨List.replicate 32 0, length_zeros⟩ }

theorem map_leafTexts (chain : List Receipt) :
    (leafTexts chain).map digestOfHex = receiptHashes linkCrypto chain := by
  rw [leafTexts, List.map_map, receiptHashes]
  exact List.map_congr_left fun r _ => digestOfHex_hex _

/-- **A window of a plain chain is something to export**, with every checkpoint over the chain. -/
theorem exportable_plainWindow {moment : ChainRecord linkCrypto} {window : List Receipt} {first last : Receipt}
    {hfit : FitsArray window} {hcheckpoints : FitsArray moment.checkpoints}
    {htokens : FitsArray (moment.checkpoints.flatMap fun e => e.timestamps)}
    (hwithin : window <:+: moment.receipts) (hrun : SoundReceipts linkCrypto first window)
    (hlast : window.getLast? = some last) (hsystem : moment.systemId = plainGenesis.systemId)
    (hplain : ∀ r ∈ moment.receipts, r.keyId = toyKey.keyId ∧ r.action.name.1 = r.systemId.1)
    (hover : ∀ e ∈ moment.checkpoints, ∃ size, e.stored = checkpointOver moment.receipts size ∧
      size.1 ≤ moment.receipts.length) :
    Exportable linkCrypto (plainWindow moment window hfit hcheckpoints htokens)
      [(toyKey.keyId, List.replicate 32 0)] first last := by
  have hfirst : first ∈ moment.receipts := hwithin.subset (List.mem_of_mem_head? hrun.head)
  have hat : ∀ r ∈ window, moment.receipts[r.seq.1]? = some r := by
    intro r hr
    obtain ⟨n, hn⟩ := List.mem_iff_getElem?.mp (hwithin.subset hr)
    rwa [moment.chain.seq_eq hn]
  have hleaves : leavesOf linkCrypto (plainWindow moment window hfit hcheckpoints htokens) first
      = receiptHashes linkCrypto moment.receipts := map_leafTexts _
  have hgenesis := moment.chain first.seq.1 first (hat first (List.mem_of_mem_head? hrun.head))
  have hzeros : (linkCrypto.sha256 (List.replicate 32 0)).1 = List.replicate 32 0 := by decide +kernel
  have hkey : [(toyKey.keyId, List.replicate 32 (0 : UInt8))].lookup toyKey.keyId
      = some (List.replicate 32 0) := List.lookup_cons_self
  exact {
    run := hrun
    last := hlast
    system := hgenesis.systemId
    genesis := fun h => ⟨hgenesis.genesis.mp h, (hplain first hfirst).2, by
      rw [hgenesis.prevHash, h, List.take_zero]
      rfl⟩
    published := plainKeys_published hzeros
    signed := fun r hr => ⟨_, by rw [(hplain r (hwithin.subset hr)).1]; exact hkey, rfl⟩
    checkpointSystem := fun e he => by
      obtain ⟨size, hsize, -⟩ := hover e he
      rw [hsize]
      exact hsystem.symm
    checkpointSigned := fun e he => by
      obtain ⟨size, hsize, -⟩ := hover e he
      rw [hsize]
      exact ⟨_, hkey, rfl⟩
    rebuilt := fun e he hre => by
      obtain ⟨size, hsize, -⟩ := hover e he
      obtain ⟨hzero, hle⟩ : first.seq.1 = 0 ∧ e.size ≤ window.length := by
        have hhead := hrun.head
        simp only [rebuildable, Bool.and_eq_true, decide_eq_true_eq, beq_iff_eq] at hre
        change (window.head?.map fun r => r.seq.1) = some 0 ∧ _ at hre
        rw [hhead] at hre
        exact ⟨Option.some.inj hre.1, hre.2⟩
      -- a window from position 0 is the chain's beginning
      obtain ⟨before, after, hchain⟩ := hwithin
      have hnone : before = [] := by
        have hseq : first.seq.1 = before.length := moment.chain.seq_eq (by
          rw [← hchain, List.append_assoc, List.getElem?_append_right le_rfl, Nat.sub_self,
            ← List.head?_eq_getElem?, List.head?_append, hrun.head]
          rfl)
        exact List.length_eq_zero_iff.mp (hseq.symm.trans hzero)
      have htake : window.take e.size = moment.receipts.take e.size := by
        rw [← hchain, hnone, List.nil_append, List.take_append_of_le_length hle]
      change recomputedRoot linkCrypto window e.size = _
      rw [recomputedRoot, htake, CheckpointInput.size, hsize]
      rfl
    leaves := fun r hr _ => by
      rw [hleaves, receiptHashes, List.getElem?_map, hat r hr]
      rfl
    leaves_fit := by
      rw [hleaves, FitsArray, length_receiptHashes]
      exact moment.receipts_fit
    roots := fun e he _ => by
      obtain ⟨size, hsize, -⟩ := hover e he
      rw [hleaves, ← receiptHashes_take, CheckpointInput.size, hsize]
      rfl
    salted := fun e he => absurd he List.not_mem_nil
    openedOnce := List.nodup_nil
    namedOnce := List.nodup_nil }

/-- The plain chain of two receipts, and with the third. -/
def plainTwo : List Receipt := [plainGenesis, plainSecond]

/-- A receipt more. -/
def plainThree : List Receipt := [plainGenesis, plainSecond, plainThird]

theorem plainThree_isChain : IsChain linkCrypto plainGenesis.systemId plainThree := by
  have hgenesis : IsChain linkCrypto plainGenesis.systemId [plainGenesis] :=
    (isChain_nil _).append ⟨rfl, rfl, iff_of_true rfl rfl, rfl⟩
  have htwo : IsChain linkCrypto plainGenesis.systemId [plainGenesis, plainSecond] :=
    hgenesis.append ⟨rfl, rfl, iff_of_false (by decide) (by decide), rfl⟩
  exact htwo.append ⟨rfl, rfl, iff_of_false (by decide) (by decide), rfl⟩

/-- A token of an authority, one byte long. -/
def plainToken (authority : SomeText) (byte : UInt8) : StoredTimestamp :=
  ⟨authority, base64Encode [byte], newYear⟩

/-- A token over the first two. -/
def tokenA : StoredTimestamp := plainToken ⟨js "a", by decide⟩ 1

/-- A token over all three. -/
def tokenB : StoredTimestamp := plainToken ⟨js "b", by decide⟩ 2

/-- The size of the first checkpoint. -/
def sizeTwo : PosCount := ⟨2, isDouble_natCast (by norm_num), by norm_num⟩

/-- The size of the second. -/
def sizeThree : PosCount := ⟨3, isDouble_natCast (by norm_num), by norm_num⟩

/-- Two receipts, with a checkpoint over them and one token. -/
def firstMoment : ChainRecord linkCrypto where
  systemId := plainGenesis.systemId
  receipts := plainTwo
  checkpoints := [⟨checkpointOver plainTwo sizeTwo, [tokenA]⟩]
  chain := plainThree_isChain.take 2
  receipts_fit := by decide
  increasing := List.pairwise_singleton _ _

/-- A receipt later: the checkpoint got a token of another authority, and there is one more. -/
def secondMoment : ChainRecord linkCrypto where
  systemId := plainGenesis.systemId
  receipts := plainThree
  checkpoints := [⟨checkpointOver plainThree sizeTwo, [tokenB, tokenA]⟩,
    ⟨checkpointOver plainThree sizeThree, [tokenA]⟩]
  chain := plainThree_isChain
  receipts_fit := by decide
  increasing := List.pairwise_pair.mpr (show 2 < 3 by norm_num)

theorem firstMoment_grows : Grows firstMoment secondMoment :=
  ⟨rfl, ⟨[plainThird], rfl⟩, [_], [_], rfl, .cons ⟨rfl, List.subset_cons_self _ _⟩ .nil⟩

/-- The export of the first moment, and a later one that starts at its last receipt. -/
def firstExport : ArchiveInput := plainWindow firstMoment plainTwo (by decide) (by decide) (by decide)

/-- The export of the later moment. -/
def secondExport : ArchiveInput :=
  plainWindow secondMoment [plainSecond, plainThird] (by decide) (by decide) (by decide)

theorem exportable_first : Exportable linkCrypto firstExport [(toyKey.keyId, List.replicate 32 0)]
    plainGenesis plainSecond := by
  refine exportable_plainWindow List.infix_rfl plain_early rfl rfl ?_ ?_
  · rintro r hr
    rcases List.mem_pair.mp hr with rfl | rfl <;> exact ⟨rfl, rfl⟩
  · rintro e he
    rw [List.mem_singleton.mp he]
    exact ⟨sizeTwo, rfl, le_rfl⟩

theorem exportable_second : Exportable linkCrypto secondExport [(toyKey.keyId, List.replicate 32 0)]
    plainSecond plainThird := by
  refine exportable_plainWindow ⟨[plainGenesis], [], rfl⟩ plain_late rfl rfl ?_ ?_
  · rintro r hr
    rcases List.mem_cons.mp hr with rfl | hr
    · exact ⟨rfl, rfl⟩
    rcases List.mem_pair.mp hr with rfl | rfl <;> exact ⟨rfl, rfl⟩
  · rintro e he
    rcases List.mem_pair.mp he with rfl | rfl
    · exact ⟨sizeTwo, rfl, Nat.le_succ 2⟩
    · exact ⟨sizeThree, rfl, le_rfl⟩

/-- **A later window is not accused of anything by an earlier one**: the two overlap in one receipt,
    and a receipt, a checkpoint and a token came between. -/
theorem grown_record_not_accused : ∃ old new,
    buildArchive linkCrypto firstExport = some old ∧ buildArchive linkCrypto secondExport = some new ∧
    old.content.receipts = [plainGenesis, plainSecond] ∧
    new.content.receipts = [plainSecond, plainThird] ∧
    old.content.checkpoints.length = 1 ∧ new.content.checkpoints.length = 2 ∧
    old.tokens.map ZipEntry.data = [[1]] ∧ new.tokens.map ZipEntry.data = [[2], [1], [1]] ∧
    compareWithPrevious linkCrypto new.content.receipts old.content.receipts = .ok () ∧
    compareAnchorsWithPrevious new.anchors old.anchors plainSecond.seq = .ok () := by
  obtain ⟨old, hold, hreceipts, -, hall⟩ := built_valid (o := anyKey) rfl exportable_first
  obtain ⟨new, hnew, hreceipts', -, hall'⟩ := built_valid (o := anyKey) rfl exportable_second
  obtain ⟨hcompare, hanchors⟩ := honest_export_not_accused firstMoment_grows ⟨rfl, List.infix_rfl, rfl⟩
    ⟨rfl, ⟨[plainGenesis], [], rfl⟩, rfl⟩ hold hnew rfl rfl rfl (Nat.le_succ 1) (Nat.le_succ 1)
  have hchosen : relevant plainGenesis plainSecond firstExport.checkpoints = firstMoment.checkpoints :=
    relevant_of_increasing firstMoment.increasing
  have hchosen' : relevant plainSecond plainThird secondExport.checkpoints = secondMoment.checkpoints :=
    relevant_of_increasing secondMoment.increasing
  obtain ⟨f, l, hf, hl, -, -, htokens⟩ := buildArchive_some hold
  obtain ⟨f', l', hf', hl', -, -, htokens'⟩ := buildArchive_some hnew
  obtain rfl : plainGenesis = f := Option.some.inj hf
  obtain rfl : plainSecond = l := Option.some.inj hl
  obtain rfl : plainSecond = f' := Option.some.inj hf'
  obtain rfl : plainThird = l' := Option.some.inj hl'
  rw [hchosen] at hall htokens
  rw [hchosen'] at hall' htokens'
  refine ⟨old, new, hold, hnew, hreceipts, hreceipts', hall.length_eq.symm, hall'.length_eq.symm, ?_, ?_,
    hcompare, hanchors⟩
  · rw [htokens]
    decide +kernel
  · rw [htokens']
    decide +kernel

end Sigillo
