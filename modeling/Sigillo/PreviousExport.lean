import Sigillo.OneHistory

/-!
# Against an earlier export

An archive on its own cannot show that receipts, checkpoints or tokens were cut from its end; an
earlier export of the chain can. `compareWithPrevious` holds the receipts of the two against each
other, `compareAnchorsWithPrevious` the checkpoints and tokens. -/

namespace Sigillo

open DoubleArith Utf16Text JsonText HexBase64 HashLinks

variable (c : Crypto)

-- ── Receipts ─────────────────────────────────────────────────────────────────────

/-- `before.get(seq)`: the hash of the previous export's receipt at a position, the last one where
    a position stands twice. -/
def hashBefore (previous : List Receipt) (seq : Count) : Option (Hex 64) :=
  (findSeq previous.reverse seq).map fun r => receiptHashHex c r.toUnsignedReceipt

/-- The export does not go on from the one before. -/
def previousExport (location detail : JsString) : Failure := ⟨.previousExport, location, detail⟩

/-- A receipt both exports hold is the same receipt in both. -/
def checkUnchanged (previous : List Receipt) (line : ℕ) (r : Receipt) : Option Failure :=
  match hashBefore c previous r.seq with
  | none => none
  | some earlier =>
      if earlier ≠ receiptHashHex c r.toUnsignedReceipt then
        some (previousExport (atReceipt line) (js "receipt seq " ++ countText r.seq.1
          ++ js " is not the receipt seq " ++ countText r.seq.1
          ++ js " of the previous export: the history has been rewritten"))
      else none

/-- `compareWithPrevious`: nothing cut from the end, nothing rewritten. -/
def compareWithPrevious (current previous : List Receipt) : Except Failure Unit :=
  match current.head?, current.getLast?, previous.getLast? with
  | some firstNow, some lastNow, some lastBefore =>
      if firstNow.systemId ≠ lastBefore.systemId then
        .error (previousExport (js "manifest.json") (js "this export is of system "
          ++ firstNow.systemId.1 ++ js ", the previous one of " ++ lastBefore.systemId.1))
      else
        match checkEach (checkUnchanged c previous) 1 current with
        | .error failure => .error failure
        | .ok () =>
            if lastNow.seq.1 < lastBefore.seq.1 then
              .error (previousExport (js "manifest.json") (js "this export ends at seq "
                ++ countText lastNow.seq.1 ++ js ", but the previous one already reached seq "
                ++ countText lastBefore.seq.1 ++ js ": receipts are missing from the end"))
            else if firstNow.seq.1 > roundNat (lastBefore.seq.1 + 1) then
              .error (previousExport (atReceipt 1) (js "this export starts at seq "
                ++ countText firstNow.seq.1 ++ js " and the previous one ends at seq "
                ++ countText lastBefore.seq.1 ++ js ": they neither overlap nor follow each other"))
            else if firstNow.seq.1 = roundNat (lastBefore.seq.1 + 1) ∧
                some firstNow.prevHash ≠ hashBefore c previous lastBefore.seq then
              .error (previousExport (atReceipt 1) (js "receipt seq " ++ countText firstNow.seq.1
                ++ js " does not link to the last receipt of the previous export"))
            else .ok ()
  | _, _, _ => .error (previousExport (js "receipts.jsonl")
      (js "one of the two exports holds no receipts"))

-- ── Checkpoints and tokens ───────────────────────────────────────────────────────

/-- The checkpoints of an export and the timestamp tokens it holds, by file name. -/
structure AnchorSet where
  checkpoints : List CheckpointEntry
  tokens : JsString → Option Bytes

/-- The token `stamp` names in the previous export is held here too. -/
def keepsToken (current previous : AnchorSet) (now : CheckpointEntry) (stamp : ExportTimestamp) :
    Bool :=
  match previous.tokens stamp.file.1 with
  | none => true
  | some wanted => now.timestamps.any fun candidate =>
      candidate.tsaUrl == stamp.tsaUrl && current.tokens candidate.file.1 == some wanted

/-- A token of the earlier export is in the later. -/
def checkTokens (current previous : AnchorSet) (size : ℕ) (now : CheckpointEntry) (_ : ℕ)
    (stamp : ExportTimestamp) : Option Failure :=
  if keepsToken current previous now stamp then none
  else some (previousExport (js "checkpoints.jsonl") (js "the previous export holds a timestamp token "
    ++ js "from " ++ stamp.tsaUrl.1 ++ js " over the checkpoint of " ++ countText size
    ++ js " receipts, and this one does not: " ++ js "a token has been removed or replaced"))

/-- A checkpoint over more receipts than the first position is still here, with its tokens. -/
def checkAnchored (current previous : AnchorSet) (firstSeq : Count) (_ : ℕ) (before : CheckpointEntry) :
    Option Failure :=
  let size := before.checkpoint.treeSize.1
  if size ≤ firstSeq.1 then none
  else
    match current.checkpoints.find? fun entry => entry.checkpoint.treeSize.1 == size with
    | none => some (previousExport (js "checkpoints.jsonl") (js "the previous export holds the "
        ++ js "checkpoint over " ++ countText size ++ js " receipts, and this one does not: "
        ++ js "a checkpoint has been removed"))
    | some now =>
        if now.checkpoint.rootHash ≠ before.checkpoint.rootHash ∨
            now.checkpoint.sig ≠ before.checkpoint.sig then
          some (previousExport (js "checkpoints.jsonl") (js "the checkpoint over " ++ countText size
            ++ js " receipts is not the one in " ++ js "the previous export: it has been replaced"))
        else
          match checkEach (checkTokens current previous size now) 1 before.timestamps with
          | .error failure => some failure
          | .ok () => none

/-- **The anchors of the earlier export are those of the later.** -/
def compareAnchorsWithPrevious (current previous : AnchorSet) (firstSeq : Count) :
    Except Failure Unit :=
  checkEach (checkAnchored current previous firstSeq) 1 previous.checkpoints

-- ── What a comparison that finds nothing says ────────────────────────────────────

variable {c}

theorem checkUnchanged_none {previous : List Receipt} {line : ℕ} {r : Receipt} :
    checkUnchanged c previous line r = none ↔
      ∀ h, hashBefore c previous r.seq = some h → h = receiptHashHex c r.toUnsignedReceipt := by
  unfold checkUnchanged
  cases hashBefore c previous r.seq with
  | none => simp
  | some earlier => simp

/-- The checks of `compareWithPrevious`, without their order. -/
structure PassesComparison (c : Crypto) (current previous : List Receipt)
    (firstNow lastNow lastBefore : Receipt) : Prop where
  first : current.head? = some firstNow
  last : current.getLast? = some lastNow
  before : previous.getLast? = some lastBefore
  system : firstNow.systemId = lastBefore.systemId
  unchanged : ∀ r ∈ current, ∀ h, hashBefore c previous r.seq = some h →
    h = receiptHashHex c r.toUnsignedReceipt
  reaches : lastBefore.seq.1 ≤ lastNow.seq.1
  follows : firstNow.seq.1 ≤ roundNat (lastBefore.seq.1 + 1)
  links : firstNow.seq.1 = roundNat (lastBefore.seq.1 + 1) →
    hashBefore c previous lastBefore.seq = some firstNow.prevHash

theorem compareWithPrevious_ok {current previous : List Receipt} :
    compareWithPrevious c current previous = .ok () ↔
      ∃ firstNow lastNow lastBefore,
        PassesComparison c current previous firstNow lastNow lastBefore := by
  unfold compareWithPrevious
  cases hfirst : current.head? with
  | none =>
      refine iff_of_false (by simp) ?_
      rintro ⟨_, _, _, h⟩
      rw [h.first] at hfirst
      cases hfirst
  | some firstNow =>
  cases hlast : current.getLast? with
  | none =>
      refine iff_of_false (by simp) ?_
      rintro ⟨_, _, _, h⟩
      rw [h.last] at hlast
      cases hlast
  | some lastNow =>
  cases hbefore : previous.getLast? with
  | none =>
      refine iff_of_false (by simp) ?_
      rintro ⟨_, _, _, h⟩
      rw [h.before] at hbefore
      cases hbefore
  | some lastBefore =>
  have hcheck : checkEach (checkUnchanged c previous) 1 current = .ok () ↔
      ∀ r ∈ current, ∀ h, hashBefore c previous r.seq = some h →
        h = receiptHashHex c r.toUnsignedReceipt :=
    checkEach_ok_of_forall fun _ _ => checkUnchanged_none
  constructor
  · intro h
    refine ⟨firstNow, lastNow, lastBefore, ?_⟩
    by_cases hsys : firstNow.systemId = lastBefore.systemId
    · cases hc : checkEach (checkUnchanged c previous) 1 current with
      | error failure => simp [hsys, hc] at h
      | ok u =>
          simp only [hsys, ne_eq, not_true_eq_false, if_false, hc] at h
          split_ifs at h with hreach hfollow hlink
          refine ⟨hfirst, hlast, hbefore, hsys, hcheck.mp hc, not_lt.mp hreach, not_lt.mp hfollow,
            fun heq => ?_⟩
          by_contra hne
          exact hlink ⟨heq, fun h => hne h.symm⟩
    · simp [hsys] at h
  · rintro ⟨_, _, _, h⟩
    obtain rfl := Option.some.inj (hfirst.symm.trans h.first)
    obtain rfl := Option.some.inj (hlast.symm.trans h.last)
    obtain rfl := Option.some.inj (hbefore.symm.trans h.before)
    have hlink : ¬ (firstNow.seq.1 = roundNat (lastBefore.seq.1 + 1) ∧
        some firstNow.prevHash ≠ hashBefore c previous lastBefore.seq) :=
      fun hl => hl.2 (h.links hl.1).symm
    simp only [h.system, ne_eq, not_true_eq_false, if_false, hcheck.mpr h.unchanged,
      if_neg (not_lt.mpr h.reaches), if_neg (not_lt.mpr h.follows)]
    exact if_neg hlink

/-- The receipt that answers for a position is the last one there. -/
theorem findSeq_reverse {previous : List Receipt} {p : Receipt} (hp : p ∈ previous) :
    ∃ i last, previous[i]? = some last ∧ last.seq = p.seq ∧
      findSeq previous.reverse p.seq = some last ∧
      ∀ (j : ℕ) (r : Receipt), previous[j]? = some r → r.seq = p.seq → j ≤ i := by
  cases hf : findSeq previous.reverse p.seq with
  | none =>
      have := List.find?_eq_none.mp hf p (List.mem_reverse.mpr hp)
      simp at this
  | some last =>
      obtain ⟨hlast, as, bs, hsplit, has⟩ := List.find?_eq_some_iff_append.mp hf
      have hprev : previous = bs.reverse ++ last :: as.reverse := by
        rw [← List.reverse_reverse previous, hsplit]
        simp
      refine ⟨bs.length, last, ?_, by simpa using hlast, rfl, fun j r hr hseq => ?_⟩
      · rw [hprev, List.getElem?_append_right (by simp)]
        simp
      · by_contra hlt
        rw [hprev, List.getElem?_append_right (by simp; omega), List.length_reverse,
          show j - bs.length = (j - bs.length - 1) + 1 by omega, List.getElem?_cons_succ] at hr
        have hmem := List.mem_reverse.mp (List.mem_of_getElem? hr)
        simpa [hseq] using has r hmem

section Comparison

variable {current previous : List Receipt} {firstNow lastNow lastBefore firstBefore : Receipt}
  (hnow : SoundReceipts c firstNow current) (hbefore : SoundReceipts c firstBefore previous)
  (hS : Set.InjOn c.sha256 (hashedBytes current ∪ hashedBytes previous))
  (hpass : PassesComparison c current previous firstNow lastNow lastBefore)

include hnow hpass in
/-- The current export holds every position of the previous one from its own first on. -/
theorem exists_now {p : Receipt} (hle : p.seq.1 ≤ lastBefore.seq.1)
    (hfirst : firstNow.seq.1 ≤ p.seq.1) : ∃ q ∈ current, q.seq = p.seq :=
  hnow.exists_at hpass.last hfirst (hle.trans hpass.reaches)

include hS hpass in
/-- Where the previous export holds a position, its last receipt there is the current one's. -/
theorem last_kept {q p : Receipt} (hq : q ∈ current) (hp : p ∈ previous)
    (hf : findSeq previous.reverse q.seq = some p) : q.toUnsignedReceipt = p.toUnsignedReceipt := by
  have hhash := hpass.unchanged q hq (receiptHashHex c p.toUnsignedReceipt)
    (by rw [hashBefore, hf]; rfl)
  exact (content_eq_of_hash hS Set.subset_union_right Set.subset_union_left hp hq hhash).symm

include hnow hbefore hS hpass in
/-- Two receipts of the previous export at one position of the current one are one receipt. -/
theorem repeated_kept {i : ℕ} {p x q : Receipt} (hp : previous[i]? = some p)
    (hx : previous[i + 1]? = some x) (hpx : p.seq = x.seq) (hq : q ∈ current) (hqx : q.seq = x.seq)
    (hsame : ∀ q ∈ current, q.seq = x.seq → q.toUnsignedReceipt = x.toUnsignedReceipt)
    (hlast : lastBefore.seq = x.seq →
      hashBefore c previous x.seq = some (receiptHashHex c x.toUnsignedReceipt)) :
    p.toUnsignedReceipt = x.toUnsignedReceipt := by
  have hprev : ∀ q ∈ current, q.seq = x.seq →
      q.prevHash = receiptHashHex c p.toUnsignedReceipt := by
    intro q hq hqx
    rw [← hbefore.links i p x hp hx]
    exact congrArg (fun u => u.prevHash) (hsame q hq hqx)
  have hpmem := List.mem_of_getElem? hp
  have hxmem := List.mem_of_getElem? hx
  obtain ⟨j, hj⟩ := List.mem_iff_getElem?.mp hq
  have hcontent : ∀ {a b : Receipt}, a ∈ current → b ∈ previous →
      receiptHashHex c a.toUnsignedReceipt = receiptHashHex c b.toUnsignedReceipt →
      a.toUnsignedReceipt = b.toUnsignedReceipt := fun ha hb hh =>
    content_eq_of_hash hS Set.subset_union_left Set.subset_union_right ha hb hh
  -- a receipt of the current export with one before it is linked to that one
  have hstep : ∀ k q₀ q₁, current[k]? = some q₀ → current[k + 1]? = some q₁ → q₁.seq = x.seq →
      p.toUnsignedReceipt = x.toUnsignedReceipt := by
    intro k q₀ q₁ h₀ h₁ hq₁
    have hq₀ : q₀.toUnsignedReceipt = p.toUnsignedReceipt := by
      refine hcontent (List.mem_of_getElem? h₀) hpmem ?_
      rw [← hnow.links k q₀ q₁ h₀ h₁]
      exact hprev q₁ (List.mem_of_getElem? h₁) hq₁
    have hseq₀ : q₀.seq = x.seq := (congrArg (fun u => u.seq) hq₀).trans hpx
    exact hq₀.symm.trans (hsame q₀ (List.mem_of_getElem? h₀) hseq₀)
  cases j with
  | succ j =>
      have hlt := (List.getElem?_eq_some_iff.mp hj).1
      exact hstep j _ q (List.getElem?_eq_getElem (show j < current.length by omega)) hj hqx
  | zero =>
      -- the position is the first of the current export, where the count is stuck
      rw [← List.head?_eq_getElem?, hpass.first] at hj
      obtain rfl := Option.some.inj hj
      have hstuck := hbefore.repeated hp hx hpx
      rw [hpx, ← hqx] at hstuck
      cases h₁ : current[1]? with
      | some q₁ =>
          refine hstep 0 firstNow q₁ (by rw [← List.head?_eq_getElem?]; exact hpass.first) h₁ ?_
          rw [← hqx]
          exact Subtype.ext ((hnow.seq 1 q₁ h₁).trans hstuck)
      | none =>
          -- it is also the last of both, and the link between the two was checked
          have hlen : current.length = 1 := by
            have := List.getElem?_eq_none_iff.mp h₁
            have := List.length_pos_iff.mpr hnow.ne_nil
            omega
          have hlastnow : lastNow = firstNow := by
            have := hpass.last
            rw [List.getLast?_eq_getElem?, hlen, ← List.head?_eq_getElem?, hpass.first] at this
            exact (Option.some.inj this).symm
          have hle := hpass.reaches
          have hge := hbefore.le_last hpass.before hxmem
          rw [hlastnow] at hle
          rw [← hqx] at hge
          have hL : lastBefore.seq = firstNow.seq := Subtype.ext (le_antisymm hle hge)
          have hlink := hpass.links (by rw [hL, hstuck])
          rw [hL, hqx, hlast (hL.trans hqx)] at hlink
          refine content_eq_of_hash hS Set.subset_union_right Set.subset_union_right hpmem hxmem ?_
          rw [← hprev firstNow hq hqx]
          exact (Option.some.inj hlink).symm

include hnow hbefore hS hpass in
/-- **A receipt of the previous export from the current one's first position on is in it.** -/
theorem kept {p q : Receipt} (hp : p ∈ previous) (hq : q ∈ current) (hqp : q.seq = p.seq) :
    q.toUnsignedReceipt = p.toUnsignedReceipt := by
  obtain ⟨k, x, hk, hx, hf, hmax⟩ := findSeq_reverse hp
  have hlastX : ∀ q ∈ current, q.seq = x.seq → q.toUnsignedReceipt = x.toUnsignedReceipt :=
    fun q hq hqx => last_kept hS hpass hq (List.mem_of_getElem? hk) (by rw [hqx, hx]; exact hf)
  have hhash : lastBefore.seq = x.seq →
      hashBefore c previous x.seq = some (receiptHashHex c x.toUnsignedReceipt) := by
    intro _
    rw [hashBefore, hx, hf]
    rfl
  -- from the last receipt at the position back to any other
  have hback : ∀ d i r, i + d = k → previous[i]? = some r → r.seq = p.seq →
      r.toUnsignedReceipt = x.toUnsignedReceipt := by
    intro d
    induction d with
    | zero =>
        intro i r hi hr hseq
        rw [Nat.add_zero] at hi
        rw [hi, hk] at hr
        rw [Option.some.inj hr]
    | succ d ih =>
        intro i r hi hr hseq
        have hlt := (List.getElem?_eq_some_iff.mp hk).1
        have hnext := List.getElem?_eq_getElem (show i + 1 < previous.length by omega)
        generalize previous[i + 1] = y at hnext
        have hy : y.seq = p.seq := by
          refine Subtype.ext (le_antisymm ?_ ?_)
          · rw [← hx]
            exact hbefore.seq_mono hnext hk (by omega)
          · rw [← hseq]
            exact hbefore.seq_mono hr hnext (by omega)
        have hyx := ih (i + 1) y (by omega) hnext hy
        have hseqy : x.seq = y.seq := hx.trans hy.symm
        rw [← hyx]
        refine repeated_kept hnow hbefore hS hpass hr hnext (hseq.trans hy.symm) hq
          (hqp.trans hy.symm) (fun q hq hqy => ?_) (fun h => ?_)
        · rw [hyx]
          exact hlastX q hq (hqy.trans hseqy.symm)
        · rw [hyx]
          exact hhash (h.trans hseqy.symm)
  obtain ⟨i, hi⟩ := List.mem_iff_getElem?.mp hp
  have hik := hmax i p hi rfl
  rw [hback (k - i) i p (by omega) hi rfl]
  exact hlastX q hq (hqp.trans hx.symm)

include hpass in
/-- Where the previous export ends before the current one starts, the two touch. -/
theorem successive_of_touching (hlt : lastBefore.seq.1 < firstNow.seq.1) :
    FollowsInCount c lastBefore firstNow := by
  have htouch : firstNow.seq.1 = roundNat (lastBefore.seq.1 + 1) :=
    le_antisymm hpass.follows (roundNat_le firstNow.seq.2.1 hlt)
  have hmem : lastBefore ∈ previous := List.mem_of_getLast? hpass.before
  have hhash : hashBefore c previous lastBefore.seq
      = some (receiptHashHex c lastBefore.toUnsignedReceipt) := by
    obtain ⟨l, hl⟩ : ∃ l, previous.reverse = lastBefore :: l := by
      have := hpass.before
      rw [← List.head?_reverse] at this
      exact ⟨_, List.eq_cons_of_mem_head? this⟩
    rw [hashBefore, findSeq, hl, List.find?_cons_of_pos (by simp)]
    rfl
  refine ⟨?_, hlt.le, fun n hn => ?_, fun hsmall => ?_⟩
  · have := hpass.links htouch
    rw [hhash] at this
    exact (Option.some.inj this).symm
  · rw [htouch]
    exact roundNat_le n.2.1 hn
  · rw [htouch, roundNat_of_le (by omega)]

/-- The receipts of the previous export before the current one's first, then the current ones. -/
def unionOf (first : Receipt) (current previous : List Receipt) : List Receipt :=
  (previous.takeWhile fun r => decide (r.seq.1 < first.seq.1)) ++ current

include hnow hbefore hS hpass in
/-- **The two exports are one after the other in the count.** -/
theorem isChain_unionOf : (unionOf firstNow current previous).IsChain (FollowsInCount c) := by
  let early : Receipt → Bool := fun r => decide (r.seq.1 < firstNow.seq.1)
  have hsplit : previous.takeWhile early ++ previous.dropWhile early = previous :=
    List.takeWhile_append_dropWhile
  have hchain := hbefore.isChain
  rw [← hsplit] at hchain
  obtain ⟨hearly, -, hjoin⟩ := List.isChain_append.mp hchain
  refine hearly.append hnow.isChain fun p hp q hq => ?_
  obtain rfl := Option.some.inj (hpass.first.symm.trans hq)
  have hplt : p.seq.1 < firstNow.seq.1 := by
    simpa [early] using List.mem_takeWhile_imp (List.mem_of_getLast? hp)
  cases hrest : previous.dropWhile early with
  | nil =>
      -- the previous export ends before this one starts
      rw [hrest, List.append_nil] at hsplit
      rw [hsplit] at hp
      obtain rfl := Option.some.inj (hpass.before.symm.trans hp)
      exact successive_of_touching hpass hplt
  | cons r rest =>
      -- the next receipt of the previous export stands at the first position of this one
      have hpr : FollowsInCount c p r := hjoin p hp r (by rw [hrest]; rfl)
      have hrge : firstNow.seq.1 ≤ r.seq.1 := by
        have hnot := List.head_dropWhile_not early (by rw [hrest]; simp)
        simp only [hrest, List.head_cons, early, decide_eq_false_iff_not, not_lt] at hnot
        exact hnot
      have hseq : r.seq = firstNow.seq := Subtype.ext (le_antisymm (hpr.noGap _ hplt) hrge)
      have hcontent := kept hnow hbefore hS hpass (p := r) (q := firstNow)
        (by rw [← hsplit, hrest]; simp) (List.mem_of_mem_head? hpass.first) hseq.symm
      refine ⟨?_, hplt.le, ?_, ?_⟩
      · rw [← hpr.link]
        exact congrArg (fun u => u.prevHash) hcontent
      · rw [← hseq]
        exact hpr.noGap
      · rw [← hseq]
        exact hpr.next

end Comparison

-- ── Anchors ──────────────────────────────────────────────────────────────────────

/-- What an earlier checkpoint asks of the current export: the same checkpoint, with every token. -/
def KeepsCheckpoint (current previous : AnchorSet) (before : CheckpointEntry) : Prop :=
  ∃ now ∈ current.checkpoints, now.checkpoint.treeSize = before.checkpoint.treeSize ∧
    now.checkpoint.rootHash = before.checkpoint.rootHash ∧
    now.checkpoint.sig = before.checkpoint.sig ∧
    ∀ stamp ∈ before.timestamps, ∀ token, previous.tokens stamp.file.1 = some token →
      ∃ kept ∈ now.timestamps, kept.tsaUrl = stamp.tsaUrl ∧ current.tokens kept.file.1 = some token

theorem checkTokens_none {current previous : AnchorSet} {size line : ℕ} {now : CheckpointEntry}
    {stamp : ExportTimestamp} : checkTokens current previous size now line stamp = none ↔
      ∀ token, previous.tokens stamp.file.1 = some token →
        ∃ kept ∈ now.timestamps, kept.tsaUrl = stamp.tsaUrl ∧
          current.tokens kept.file.1 = some token := by
  unfold checkTokens keepsToken
  cases previous.tokens stamp.file.1 with
  | none => simp
  | some wanted => simp [Subtype.ext_iff]

/-- The checkpoint found, unreplaced and with every token, is what was asked for. -/
theorem checkAnchored_of_found {current previous : AnchorSet} {firstSeq : Count} {line : ℕ}
    {before now : CheckpointEntry}
    (hf : current.checkpoints.find? (fun entry =>
      entry.checkpoint.treeSize.1 == before.checkpoint.treeSize.1) = some now)
    (hroot : now.checkpoint.rootHash = before.checkpoint.rootHash)
    (hsig : now.checkpoint.sig = before.checkpoint.sig)
    (hstamps : checkEach (checkTokens current previous before.checkpoint.treeSize.1 now) 1
      before.timestamps = .ok ()) : checkAnchored current previous firstSeq line before = none := by
  unfold checkAnchored
  by_cases hbefore : before.checkpoint.treeSize.1 ≤ firstSeq.1
  · exact if_pos hbefore
  · simp [hf, hroot, hsig, hstamps]

theorem keepsCheckpoint_of_checkAnchored {current previous : AnchorSet} {firstSeq : Count}
    {line : ℕ} {before : CheckpointEntry} (h : checkAnchored current previous firstSeq line before = none)
    (hlt : firstSeq.1 < before.checkpoint.treeSize.1) : KeepsCheckpoint current previous before := by
  unfold checkAnchored at h
  rw [if_neg (not_le.mpr hlt)] at h
  cases hf : current.checkpoints.find? fun entry =>
      entry.checkpoint.treeSize.1 == before.checkpoint.treeSize.1 with
  | none => simp [hf] at h
  | some now =>
      have hsize : now.checkpoint.treeSize = before.checkpoint.treeSize :=
        Subtype.ext (by simpa using List.find?_some hf)
      simp only [hf] at h
      split_ifs at h with hdiffers
      rw [not_or, not_not, not_not] at hdiffers
      refine ⟨now, List.mem_of_find?_eq_some hf, hsize, hdiffers.1, hdiffers.2, ?_⟩
      cases hc : checkEach (checkTokens current previous before.checkpoint.treeSize.1 now) 1
          before.timestamps with
      | error failure => simp [hc] at h
      | ok u =>
          intro stamp hstamp
          obtain ⟨i, hi⟩ := List.mem_iff_getElem?.mp hstamp
          exact checkTokens_none.mp (checkEach_ok.mp hc i stamp hi)

-- ── Both comparisons ─────────────────────────────────────────────────────────────

/-- **The current export goes on from the previous one**: together they are one run of positions, each
    receipt linked to the one before; what both cover is the same in both; the current one reaches at
    least as far; and where the two only touch, the link between them holds. -/
structure Extends (c : Crypto) (first : Receipt) (current previous : List Receipt) : Prop where
  run : (unionOf first current previous).IsChain (Successive c)
  kept : ∀ p ∈ previous, first.seq.1 ≤ p.seq.1 →
    ∃ q ∈ current, q.seq = p.seq ∧ q.toUnsignedReceipt = p.toUnsignedReceipt
  reaches : ∀ p ∈ previous, ∃ q ∈ current, p.seq.1 ≤ q.seq.1
  touches : ∀ p, previous.getLast? = some p → p.seq.1 < first.seq.1 →
    first.prevHash = receiptHashHex c p.toUnsignedReceipt

/-- **The count is exact**: a receipt that another follows stands below 2 ^ 53, in the current export
    and in what the previous one holds before it. -/
structure CountIsExact (first : Receipt) (current previous : List Receipt) : Prop where
  current : ∀ r ∈ current.dropLast, r.seq.1 < 2 ^ 53
  previous : ∀ p ∈ previous, p.seq.1 < first.seq.1 → p.seq.1 < 2 ^ 53

/-- Of receipts in order of position, those below a bound are the first ones. -/
theorem mem_takeWhile_iff {receipts : List Receipt} (hsorted : receipts.Pairwise fun a b => a.seq.1 ≤ b.seq.1)
    {bound : ℕ} {p : Receipt} :
    p ∈ receipts.takeWhile (fun r => decide (r.seq.1 < bound)) ↔ p ∈ receipts ∧ p.seq.1 < bound := by
  induction receipts with
  | nil => simp
  | cons r rest ih =>
      obtain ⟨hr, hrest⟩ := List.pairwise_cons.mp hsorted
      rw [List.takeWhile_cons]
      by_cases hlt : r.seq.1 < bound
      · rw [if_pos (decide_eq_true hlt), List.mem_cons, ih hrest, List.mem_cons]
        constructor
        · rintro (rfl | ⟨hp, hbound⟩)
          · exact ⟨.inl rfl, hlt⟩
          · exact ⟨.inr hp, hbound⟩
        · rintro ⟨rfl | hp, hbound⟩
          · exact .inl rfl
          · exact .inr ⟨hp, hbound⟩
      · -- nothing after a receipt that is not below the bound is
        rw [if_neg (by simpa using hlt)]
        refine iff_of_false List.not_mem_nil ?_
        rintro ⟨hp, hbound⟩
        rcases List.mem_cons.mp hp with rfl | hp
        · exact hlt hbound
        · have hle := hr p hp
          omega

theorem SoundReceipts.pairwise_le {f : Receipt} {receipts : List Receipt} (h : SoundReceipts c f receipts) :
    receipts.Pairwise fun a b => a.seq.1 ≤ b.seq.1 :=
  List.pairwise_iff_getElem.mpr fun _ _ hi hj hij =>
    h.seq_mono (List.getElem?_eq_getElem hi) (List.getElem?_eq_getElem hj) hij.le

/-- **The two exports are one run of positions exactly where the count is exact.** -/
theorem isChain_unionOf_iff {f g : Receipt} {current previous : List Receipt}
    (hnow : SoundReceipts c f current) (hbefore : SoundReceipts c g previous)
    (hchain : (unionOf f current previous).IsChain (FollowsInCount c)) :
    (unionOf f current previous).IsChain (Successive c) ↔ CountIsExact f current previous := by
  rw [isChain_successive_iff hchain, unionOf, List.dropLast_append_of_ne_nil hnow.ne_nil]
  constructor
  · intro h
    exact ⟨fun r hr => h r (List.mem_append_right _ hr),
      fun p hp hlt => h p (List.mem_append_left _ ((mem_takeWhile_iff hbefore.pairwise_le).mpr ⟨hp, hlt⟩))⟩
  · intro h r hr
    rcases List.mem_append.mp hr with hearly | hlate
    · obtain ⟨hmem, hlt⟩ := (mem_takeWhile_iff hbefore.pairwise_le).mp hearly
      exact h.previous r hmem hlt
    · exact h.current r hlate

/-- **Comparisons that find nothing** show that the current export goes on from the previous one, and
    that it kept every checkpoint over more receipts than its first position, with its tokens,
    exactly where the verifier's count of positions is exact. -/
theorem extends_iff {o o' : VerifyOptions} {b b' : Bundle} {current previous : Verified}
    (hcurrent : verifyBundle o c b = .ok current) (hprevious : verifyBundle o' c b' = .ok previous)
    (hS : Set.InjOn c.sha256 (hashedBytes current.receipts ∪ hashedBytes previous.receipts))
    (hcompare : compareWithPrevious c current.receipts previous.receipts = .ok ()) :
    ∃ first, current.receipts.head? = some first ∧
      ((Extends c first current.receipts previous.receipts ∧
        ∀ now before, compareAnchorsWithPrevious now before first.seq = .ok () →
          ∀ e ∈ before.checkpoints, first.seq.1 < e.checkpoint.treeSize.1 →
            KeepsCheckpoint now before e) ↔
        CountIsExact first current.receipts previous.receipts) := by
  obtain ⟨first, lastNow, lastBefore, hpass⟩ := compareWithPrevious_ok.mp hcompare
  obtain ⟨f, hnow, -⟩ := soundReceipts_of_verifyBundle hcurrent
  obtain ⟨g, hbefore, -⟩ := soundReceipts_of_verifyBundle hprevious
  obtain rfl : f = first := Option.some.inj (hnow.head.symm.trans hpass.first)
  have hrun := isChain_unionOf_iff hnow hbefore (isChain_unionOf hnow hbefore hS hpass)
  refine ⟨f, hpass.first, fun h => hrun.mp h.1.run, fun hexact => ⟨⟨hrun.mpr hexact, fun p hp hfirst => ?_,
    fun p hp => ?_, fun p hp hlt => ?_⟩, fun now before hanchors e he hlt => ?_⟩⟩
  · obtain ⟨q, hq, hqp⟩ := exists_now hnow hpass (hbefore.le_last hpass.before hp) hfirst
    exact ⟨q, hq, hqp, kept hnow hbefore hS hpass hp hq hqp⟩
  · exact ⟨lastNow, List.mem_of_getLast? hpass.last,
      (hbefore.le_last hpass.before hp).trans hpass.reaches⟩
  · obtain rfl := Option.some.inj (hpass.before.symm.trans hp)
    exact (successive_of_touching hpass hlt).link
  · obtain ⟨i, hi⟩ := List.mem_iff_getElem?.mp he
    exact keepsCheckpoint_of_checkAnchored (checkEach_ok.mp hanchors i e hi) hlt

-- ── Short chains ─────────────────────────────────────────────────────────────────

/-- The last receipt of a list answers for its position. -/
theorem hashBefore_concat (before : List Receipt) (last : Receipt) :
    hashBefore c (before ++ [last]) last.seq = some (receiptHashHex c last.toUnsignedReceipt) := by
  rw [hashBefore, List.reverse_append, findSeq]
  simp

/-- Two windows that overlap in one receipt pass the comparison. -/
theorem plain_compares : compareWithPrevious linkCrypto [plainSecond, plainThird] [plainGenesis, plainSecond]
    = .ok () := by
  have hbefore : hashBefore linkCrypto [plainGenesis, plainSecond] plainSecond.seq
      = some (receiptHashHex linkCrypto plainSecond.toUnsignedReceipt) := hashBefore_concat [plainGenesis] _
  have hnone : hashBefore linkCrypto [plainGenesis, plainSecond] plainThird.seq = none := rfl
  have hround : roundNat (1 + 1) = 2 := roundNat_of_le (by norm_num)
  refine compareWithPrevious_ok.mpr ⟨plainSecond, plainThird, plainSecond, rfl, rfl, rfl, rfl,
    fun r hr h hh => ?_, Nat.le_succ 1, ?_, fun htouch => ?_⟩
  · rcases List.mem_pair.mp hr with rfl | rfl
    · exact (Option.some.inj (hbefore.symm.trans hh)).symm
    · rw [hnone] at hh
      cases hh
  · rw [show roundNat (plainSecond.seq.1 + 1) = 2 from hround]
    exact Nat.le_succ 1
  · rw [show roundNat (plainSecond.seq.1 + 1) = 2 from hround] at htouch
    exact absurd htouch (by decide)

/-- **A later window of a chain that grew goes on from an earlier one**, here with one receipt in
    common and one receipt more. -/
theorem plain_extends : ∃ b b' v w, verifyBundle anyKey linkCrypto b = .ok v ∧
    verifyBundle anyKey linkCrypto b' = .ok w ∧ v.receipts = [plainSecond, plainThird] ∧
    w.receipts = [plainGenesis, plainSecond] ∧ Extends linkCrypto plainSecond v.receipts w.receipts ∧
    ∀ now before, compareAnchorsWithPrevious now before plainSecond.seq = .ok () →
      ∀ e ∈ before.checkpoints, plainSecond.seq.1 < e.checkpoint.treeSize.1 → KeepsCheckpoint now before e := by
  obtain ⟨b, v, hv, hvr, -⟩ := plain_run_accepted (by decide) plain_late
    (by rintro r hr; rcases List.mem_pair.mp hr with rfl | rfl <;> exact ⟨_, _, _, rfl⟩)
    (fun h => absurd h (by decide))
  obtain ⟨b', w, hw, hwr, -⟩ := plain_run_accepted (by decide) plain_early
    (by rintro r hr; rcases List.mem_pair.mp hr with rfl | rfl <;> exact ⟨_, _, _, rfl⟩)
    (fun _ => ⟨rfl, rfl⟩)
  have hS : Set.InjOn linkCrypto.sha256 (hashedBytes v.receipts ∪ hashedBytes w.receipts) := by
    refine Set.InjOn.mono ?_ (injOn_plain plainGenesis.seq plainSecond.seq plainThird.seq .genesis)
    rw [hvr, hwr]
    rintro bytes (⟨r, hr, rfl⟩ | ⟨r, hr, rfl⟩)
    · exact ⟨r, List.mem_cons_of_mem _ hr, rfl⟩
    · rcases List.mem_pair.mp hr with rfl | rfl
      · exact ⟨plainGenesis, List.mem_cons_self, rfl⟩
      · exact ⟨plainSecond, List.mem_cons_of_mem _ List.mem_cons_self, rfl⟩
  obtain ⟨first, hfirst, hextends⟩ := extends_iff hv hw hS (by rw [hvr, hwr]; exact plain_compares)
  rw [hvr] at hfirst
  obtain rfl := Option.some.inj hfirst
  obtain ⟨h, hanchors⟩ := hextends.mpr ⟨by rw [hvr]; decide, by rw [hwr]; decide⟩
  exact ⟨b, b', v, w, hv, hw, hvr, hwr, h, hanchors⟩

-- ── Where the count stands still ─────────────────────────────────────────────────

/-- The last position the verifier counts past exactly. -/
def lastExact : Receipt :=
  plainFirst ⟨2 ^ 53 - 1, isDouble_natCast (by norm_num), Nat.zero_le _⟩ .toolCall

/-- The next position, and the receipt that stands there once more. -/
def atLimit : Receipt := plainAfter stuckSeq lastExact

/-- The receipt after the last exact position. -/
def atLimitAgain : Receipt := plainAfter stuckSeq atLimit

/-- **An archive with one position twice goes through as the continuation of an honest one**, and the
    two are no run of positions. -/
theorem repeated_position_accepted : ∃ b b' v w, verifyBundle anyKey linkCrypto b = .ok v ∧
    verifyBundle anyKey linkCrypto b' = .ok w ∧
    Set.InjOn linkCrypto.sha256 (hashedBytes v.receipts ∪ hashedBytes w.receipts) ∧
    compareWithPrevious linkCrypto v.receipts w.receipts = .ok () ∧
    v.receipts.head? = some atLimit ∧ ¬ Extends linkCrypto atLimit v.receipts w.receipts := by
  have hlimit : roundNat (2 ^ 53 - 1 + 1) = 2 ^ 53 := roundNat_of_le (by norm_num)
  have hstuck : roundNat (2 ^ 53 + 1) = 2 ^ 53 := by decide +kernel
  obtain ⟨b, v, hv, hvr, -⟩ := @plain_run_accepted [atLimit, atLimitAgain] _ (by decide)
    (plain_pair hstuck.symm)
    (by rintro r hr; rcases List.mem_pair.mp hr with rfl | rfl <;> exact ⟨_, _, _, rfl⟩)
    (fun h => absurd h (by decide))
  obtain ⟨b', w, hw, hwr, -⟩ := @plain_run_accepted [lastExact] _ (by decide)
    (soundReceipts_singleton _ _)
    (by rintro r hr; rw [List.mem_singleton.mp hr]; exact ⟨_, _, _, rfl⟩)
    (fun h => absurd h (by decide))
  refine ⟨b, b', v, w, hv, hw, ?_, ?_, by rw [hvr]; rfl, fun h => ?_⟩
  · refine Set.InjOn.mono ?_ (injOn_plain lastExact.seq stuckSeq stuckSeq .toolCall)
    rw [hvr, hwr]
    rintro bytes (⟨r, hr, rfl⟩ | ⟨r, hr, rfl⟩)
    · exact ⟨r, List.mem_cons_of_mem _ hr, rfl⟩
    · exact ⟨r, by rw [List.mem_singleton.mp hr]; exact List.mem_cons_self, rfl⟩
  · have hnone : hashBefore linkCrypto [lastExact] stuckSeq = none := by decide +kernel
    rw [hvr, hwr]
    refine compareWithPrevious_ok.mpr ⟨atLimit, atLimitAgain, lastExact, rfl, rfl, rfl, rfl,
      fun r hr h hh => ?_, by decide, ?_, fun _ => ?_⟩
    · rcases List.mem_pair.mp hr with rfl | rfl
      · exact absurd (hnone.symm.trans hh) (by simp)
      · exact absurd (hnone.symm.trans hh) (by simp)
    · rw [show roundNat (lastExact.seq.1 + 1) = 2 ^ 53 from hlimit]
      exact le_rfl
    · exact (hashBefore_concat [] lastExact).trans (congrArg some (plainAfter_prevHash stuckSeq lastExact).symm)
  · have hrun := h.run
    rw [hvr, hwr] at hrun
    have hpair : [lastExact, atLimit, atLimitAgain].IsChain (Successive linkCrypto) := hrun
    have hseq := (List.isChain_cons_cons.mp (List.isChain_cons_cons.mp hpair).2).1.seq
    exact absurd hseq (by decide)

end Sigillo
