import Sigillo.AnchorOrders
import Sigillo.JoinedLines

/-!
# What `anchorTimes` tells of the attested times

`anchorTimes` against its declarative reading: every receipt under an attested tree in one range, the
rest unproven, an error where the times say so, and nothing that depends on the order of the
checkpoints. It is so exactly where trees of one size agree (**`anchorTimes_meets_iff`**): of two
checkpoints over as many receipts that are attested different times, the one that stands first in the
file makes the other an error or not. -/

namespace Sigillo

open Utf16Text JsonText JsonParse IsoTime EcmaText LastLargest JoinedLines

variable {readDate : DateReader} {checkpoints : List AnchoredCheckpoint} {options : AnchorTimeOptions}

-- ── The attested times ───────────────────────────────────────────────────────────

/-- A receipt is attested at a time exactly if a proven checkpoint over it is. -/
theorem attestedOver_iff {seq : ℕ} {time : ℤ} : AttestedOver readDate checkpoints seq time ↔
    ∃ x ∈ provenCheckpoints readDate checkpoints, seq < x.treeSize ∧ x.provenAt = time := by
  rw [← exists_proven (P := fun size t => seq < size ∧ t = time)]
  constructor
  · rintro ⟨entry, hentry, hsize, htime⟩
    exact ⟨entry, hentry, time, htime, hsize, rfl⟩
  · rintro ⟨entry, hentry, t, htime, hsize, rfl⟩
    exact ⟨entry, hentry, hsize, htime⟩

/-- The earliest time over a receipt is that of the proven checkpoints over it. -/
theorem earliestOver_iff {seq : ℕ} {time : ℤ} : EarliestOver readDate checkpoints seq time ↔
    EarliestHolding (provenCheckpoints readDate checkpoints) seq time := by
  rw [EarliestOver, EarliestHolding, attestedOver_iff]
  simp only [attestedOver_iff]
  refine and_congr_right fun _ => ⟨fun h x hx hsize => h _ ⟨x, hx, hsize, rfl⟩, ?_⟩
  rintro h - ⟨x, hx, hsize, rfl⟩
  exact h x hx hsize

/-- There is one earliest time. -/
theorem EarliestHolding.unique {l : List ProvenCheckpoint} {seq : ℕ} {s t : ℤ} (hs : EarliestHolding l seq s)
    (ht : EarliestHolding l seq t) : s = t := by
  obtain ⟨⟨a, ha, hasize, rfl⟩, hmina⟩ := hs
  obtain ⟨⟨b, hb, hbsize, rfl⟩, hminb⟩ := ht
  exact le_antisymm (hmina b hb hbsize) (hminb a ha hasize)

/-- Checkpoints agree exactly if those proven do. -/
theorem sizesAgree_iff : SizesAgree readDate checkpoints ↔ ProvenAgree (provenCheckpoints readDate checkpoints) := by
  constructor
  · intro h a ha b hb hsize hlt
    obtain ⟨x, hx, hxa⟩ := mem_provenCheckpoints.mp ha
    obtain ⟨y, hy, hyb⟩ := mem_provenCheckpoints.mp hb
    obtain ⟨ta, hta, rfl⟩ := Option.map_eq_some_iff.mp hxa
    obtain ⟨tb, htb, rfl⟩ := Option.map_eq_some_iff.mp hyb
    obtain ⟨d, hd, td, htd, hdsize, hdtime⟩ := h x hx y hy ta tb hta htb hsize hlt
    exact exists_proven (P := fun size t => size < x.treeSize ∧ tb < t) |>.mp ⟨d, hd, td, htd, hdsize, hdtime⟩
  · intro h x hx y hy ta tb hta htb hsize hlt
    have ha : (⟨x.line, x.treeSize, x.ts, ta⟩ : ProvenCheckpoint) ∈ provenCheckpoints readDate checkpoints :=
      mem_provenCheckpoints.mpr ⟨x, hx, by rw [AnchoredCheckpoint.proven, hta]; rfl⟩
    have hb : (⟨y.line, y.treeSize, y.ts, tb⟩ : ProvenCheckpoint) ∈ provenCheckpoints readDate checkpoints :=
      mem_provenCheckpoints.mpr ⟨y, hy, by rw [AnchoredCheckpoint.proven, htb]; rfl⟩
    exact exists_proven (P := fun size t => size < x.treeSize ∧ tb < t) |>.mpr (h _ ha _ hb hsize hlt)

/-- No attested time is past the range of a date. -/
theorem provenAt_inRange {x : ProvenCheckpoint} (hx : x ∈ provenCheckpoints readDate checkpoints) :
    |x.provenAt| ≤ maxTime := by
  obtain ⟨entry, -, hproven⟩ := mem_provenCheckpoints.mp hx
  obtain ⟨time, htime, rfl⟩ := Option.map_eq_some_iff.mp hproven
  obtain ⟨text, -, htext⟩ := List.mem_filterMap.mp (List.min?_mem htime)
  exact readDate.inRange htext

-- ── The window ───────────────────────────────────────────────────────────────────

/-- The last position of a run without gaps. -/
theorem Contiguous.lastSeq {receipts : List ReceivedReceipt} (h : Contiguous receipts) :
    lastSeqOf receipts = firstSeqOf receipts + receipts.length - 1 := by
  rw [lastSeqOf]
  cases hlast : receipts.getLast? with
  | none =>
      rw [List.getLast?_eq_none_iff] at hlast
      rw [hlast]
      rfl
  | some r =>
      rw [List.getLast?_eq_getElem?] at hlast
      obtain ⟨hlen, -⟩ := List.getElem?_eq_some_iff.mp hlast
      show (r.seq : ℤ) = _
      rw [h _ r hlast]
      omega

/-- Every position is between the first and the last. -/
theorem Contiguous.bounds {receipts : List ReceivedReceipt} (h : Contiguous receipts) {r : ReceivedReceipt}
    (hr : r ∈ receipts) : firstSeqOf receipts ≤ r.seq ∧ r.seq ≤ lastSeqOf receipts := by
  obtain ⟨i, hlen, hi⟩ := List.mem_iff_getElem.mp hr
  have hseq := h i r (List.getElem?_eq_some_iff.mpr ⟨hlen, hi⟩)
  rw [h.lastSeq]
  omega

/-- The receipts from a position of the window on. -/
theorem Contiguous.length_filter {receipts : List ReceivedReceipt} (h : Contiguous receipts) {n : ℤ}
    (hfirst : firstSeqOf receipts ≤ n) (hlast : n ≤ lastSeqOf receipts + 1) :
    ((receipts.filter fun r => decide (n ≤ r.seq)).length : ℤ) = lastSeqOf receipts + 1 - n := by
  obtain ⟨k, hk⟩ := Int.eq_ofNat_of_zero_le (show 0 ≤ n - firstSeqOf receipts by omega)
  have hseq : ∀ (i : ℕ) (hi : i < receipts.length), (receipts[i].seq : ℤ) = firstSeqOf receipts + i :=
    fun i hi => h i _ (List.getElem?_eq_getElem hi)
  have hbefore : (receipts.take k).filter (fun r => decide (n ≤ r.seq)) = [] := by
    rw [List.filter_eq_nil_iff]
    intro r hr
    obtain ⟨i, hi, rfl⟩ := List.mem_take_iff_getElem.mp hr
    have := hseq i (by omega)
    rw [decide_eq_true_eq]
    omega
  have hafter : (receipts.drop k).filter (fun r => decide (n ≤ r.seq)) = receipts.drop k := by
    rw [List.filter_eq_self]
    intro r hr
    obtain ⟨i, hi, rfl⟩ := List.mem_drop_iff_getElem.mp hr
    have := hseq (k + i) (by omega)
    rw [decide_eq_true_eq]
    omega
  have hsplit : receipts.filter (fun r => decide (n ≤ r.seq)) = receipts.drop k := by
    rw [← List.take_append_drop k receipts, List.filter_append, hbefore, hafter, List.nil_append,
      List.take_append_drop]
  rw [hsplit, List.length_drop]
  have := h.lastSeq
  omega

-- ── What it tells ────────────────────────────────────────────────────────────────

/-- The ranges of the walk over the proven checkpoints. -/
def walked (readDate : DateReader) (options : AnchorTimeOptions) : List CoveredRange :=
  (walkDown (firstSeqOf options.receipts) (lastSeqOf options.receipts) 0
    (provenCheckpoints readDate options.checkpoints)).2

/-- The errors: those of the times, then those of the order. -/
theorem anchorTimes_errors : (anchorTimes readDate options).errors
    = (walked readDate options).filterMap (timeErrorOf options.clockToleranceMs options.receipts)
      ++ orderErrors none (provenCheckpoints readDate options.checkpoints) := rfl

/-- What is left unproven: the receipts after the last covered. -/
theorem anchorTimes_unproven : (anchorTimes readDate options).unproven
    = unprovenAfter (coveredThrough (firstSeqOf options.receipts) (walked readDate options))
        (lastSeqOf options.receipts) := rfl

/-- The ranges that hold a position. -/
theorem filter_ranges (seq : ℕ) : (anchorTimes readDate options).ranges.filter (AnchorRange.holds seq)
    = ((walked readDate options).filter (CoveredRange.holds seq)).map fun range =>
        ⟨range.fromSeq, range.toSeq, isoText range.earliest.provenAt⟩ := by
  show ((walked readDate options).map _).filter _ = _
  rw [List.filter_map]
  rfl

/-- **Every receipt under an attested tree is in one range, by the earliest time.** -/
theorem walked_holds (h : Contiguous options.receipts) {r : ReceivedReceipt} (hr : r ∈ options.receipts) {time : ℤ}
    (htime : EarliestOver readDate options.checkpoints r.seq time) :
    ∃ q, (walked readDate options).filter (CoveredRange.holds r.seq) = [q] ∧ q.earliest.provenAt = time := by
  rw [earliestOver_iff] at htime
  obtain ⟨hfirst, hlast⟩ := h.bounds hr
  obtain ⟨x, hx, hsize, -⟩ := htime.1
  obtain ⟨q, hq, hearliest⟩ := (walkDown_holds (bySize_provenCheckpoints readDate options.checkpoints) hfirst hlast
    (Nat.zero_le _)).2 ⟨x, hx, hsize⟩
  exact ⟨q, hq, hearliest.unique htime⟩

/-- A range's time is the earliest over each position in it. -/
theorem earliestOver_of_mem (h : Contiguous options.receipts) {r : ReceivedReceipt} (hr : r ∈ options.receipts)
    {q : CoveredRange} (hq : q ∈ walked readDate options) (hholds : q.holds r.seq = true) :
    EarliestOver readDate options.checkpoints r.seq q.earliest.provenAt := by
  rw [earliestOver_iff]
  obtain ⟨hfirst, hlast⟩ := h.bounds hr
  have hmem : q ∈ (walked readDate options).filter (CoveredRange.holds r.seq) := List.mem_filter.mpr ⟨hq, hholds⟩
  obtain ⟨hnone, hsome⟩ := walkDown_holds (bySize_provenCheckpoints readDate options.checkpoints) hfirst hlast
    (Nat.zero_le _)
  by_cases hexists : ∃ x ∈ provenCheckpoints readDate options.checkpoints, r.seq < x.treeSize
  · obtain ⟨p, hp, hearliest⟩ := hsome hexists
    have hqp : q = p := List.mem_singleton.mp (hp ▸ hmem)
    exact hqp ▸ hearliest
  · have hempty := hnone fun x hx => not_lt.mp fun hlt => hexists ⟨x, hx, hlt⟩
    rw [walked, hempty] at hmem
    exact absurd hmem List.not_mem_nil

/-- The covered ranges follow one another. -/
theorem walked_ordered (readDate : DateReader) (options : AnchorTimeOptions) :
    (walked readDate options).Pairwise (fun a b => a.toSeq < b.fromSeq) ∧
      ∀ q ∈ walked readDate options, firstSeqOf options.receipts ≤ q.fromSeq ∧ ((0 : ℕ) : ℤ) ≤ q.fromSeq ∧
      q.fromSeq ≤ q.toSeq ∧ q.toSeq ≤ lastSeqOf options.receipts :=
  walkDown_ordered _ _ (bySize_provenCheckpoints readDate options.checkpoints) fun x _ => Nat.zero_le x.treeSize

/-- **A position is proven up to the end of the largest attested tree.** -/
theorem le_coveredThrough_iff (h : Contiguous options.receipts) {r : ReceivedReceipt} (hr : r ∈ options.receipts) :
    (r.seq : ℤ) ≤ coveredThrough (firstSeqOf options.receipts) (walked readDate options) ↔
      ∃ time, AttestedOver readDate options.checkpoints r.seq time := by
  obtain ⟨hfirst, hlast⟩ := h.bounds hr
  obtain ⟨hpairs, hmembers⟩ := walked_ordered readDate options
  simp only [attestedOver_iff]
  obtain ⟨hnone, hsome⟩ := walkDown_holds (bySize_provenCheckpoints readDate options.checkpoints) hfirst hlast
    (Nat.zero_le _)
  rcases (walked readDate options).eq_nil_or_concat with hnil | ⟨before, last, hconcat⟩
  · rw [hnil, coveredThrough]
    constructor
    · intro hle
      exact absurd hle (by simp only [List.getLast?_nil]; omega)
    · rintro ⟨-, x, hx, hsize, rfl⟩
      obtain ⟨q, hq, -⟩ := hsome ⟨x, hx, hsize⟩
      rw [← walked, hnil] at hq
      exact absurd hq (by simp)
  · rw [List.concat_eq_append] at hconcat
    have hcovered : coveredThrough (firstSeqOf options.receipts) (walked readDate options) = last.toSeq := by
      rw [coveredThrough, hconcat, List.getLast?_concat]
    rw [hcovered]
    constructor
    · intro hle
      have hlastMem : last ∈ walked readDate options := by
        rw [hconcat]
        exact List.mem_append_right _ (List.mem_singleton_self last)
      obtain ⟨-, x, hx, b, -, -, -, hto, -⟩ :=
        (exists_walkDown_iff (bySize_provenCheckpoints readDate options.checkpoints) (fun x _ => Nat.zero_le _) last).mp
          ⟨last, hlastMem, rfl, rfl, rfl, rfl⟩
      exact ⟨x.provenAt, x, hx, by omega, rfl⟩
    · rintro ⟨-, x, hx, hsize, rfl⟩
      obtain ⟨q, hq, -⟩ := hsome ⟨x, hx, hsize⟩
      have hqmem : q ∈ (walked readDate options).filter (CoveredRange.holds r.seq) := by
        rw [walked, hq]
        exact List.mem_singleton_self q
      obtain ⟨hqwalked, hholds⟩ := List.mem_filter.mp hqmem
      have hseq := (CoveredRange.holds_eq_true.mp hholds).2
      rw [hconcat, List.pairwise_append] at hpairs
      rw [hconcat] at hqwalked
      rcases List.mem_append.mp hqwalked with hqbefore | hqlast
      · have hlt := hpairs.2.2 q hqbefore last (List.mem_singleton_self last)
        have hnonempty := hmembers last (hconcat ▸ List.mem_append_right _ (List.mem_singleton_self last))
        omega
      · rw [List.mem_singleton.mp hqlast] at hseq
        exact hseq

/-- An error of the times names the time. -/
theorem check_of_mem_timeErrors {p : AnchorTimeProblem}
    (hp : p ∈ (walked readDate options).filterMap (timeErrorOf options.clockToleranceMs options.receipts)) :
    p.check = .time := by
  obtain ⟨q, -, hq⟩ := List.mem_filterMap.mp hp
  obtain ⟨index, -, hindex⟩ := Option.bind_eq_some_iff.mp hq
  obtain ⟨r, -, rfl⟩ := Option.map_eq_some_iff.mp hindex
  rfl

/-- An error of the order names the order. -/
theorem check_of_mem_orderErrors {p : AnchorTimeProblem} {l : List ProvenCheckpoint} (hp : p ∈ orderErrors none l) :
    p.check = .order := by
  obtain ⟨-, entry, -, m, -, -, -, rfl⟩ := mem_orderErrors_none_iff.mp hp
  rfl

/-- A range has an error where one of its receipts offends. -/
theorem exists_timeErrorOf {clockToleranceMs : ℤ} {receipts : List ReceivedReceipt} {q : CoveredRange} :
    (∃ p, timeErrorOf clockToleranceMs receipts q = some p) ↔ ∃ r ∈ receipts, offends clockToleranceMs q r = true := by
  rw [timeErrorOf]
  cases hindex : receipts.findIdx? (offends clockToleranceMs q) with
  | none =>
      rw [List.findIdx?_eq_none_iff] at hindex
      constructor
      · rintro ⟨p, hp⟩
        exact absurd hp (by simp)
      · rintro ⟨r, hr, hoffends⟩
        rw [hindex r hr] at hoffends
        exact absurd hoffends (by simp)
  | some index =>
      obtain ⟨hlen, hoffends, -⟩ := List.findIdx?_eq_some_iff_getElem.mp hindex
      constructor
      · intro _
        exact ⟨_, List.getElem_mem hlen, hoffends⟩
      · intro _
        exact ⟨timeError index receipts[index] q.earliest, by rw [Option.bind_some, List.getElem?_eq_getElem hlen]; rfl⟩

/-- A receipt offends a range that holds it where it was received after the time of the range. -/
theorem offends_eq_true {clockToleranceMs : ℤ} {q : CoveredRange} {r : ReceivedReceipt} :
    offends clockToleranceMs q r = true ↔
      q.holds r.seq = true ∧ q.earliest.provenAt + clockToleranceMs < dateParse r.tsReceived := by
  rw [offends, ← CoveredRange.holds, Bool.and_eq_true, decide_eq_true_eq]

/-- **There is an error of the times** exactly if a receipt was received after its earliest time. -/
theorem exists_time_iff (h : Contiguous options.receipts) :
    (∃ p ∈ (anchorTimes readDate options).errors, p.check = .time) ↔
      ∃ r ∈ options.receipts, ∃ time, EarliestOver readDate options.checkpoints r.seq time ∧
        time + options.clockToleranceMs < dateParse r.tsReceived := by
  rw [anchorTimes_errors]
  constructor
  · rintro ⟨p, hp, hcheck⟩
    rcases List.mem_append.mp hp with hp | hp
    · obtain ⟨q, hq, hqp⟩ := List.mem_filterMap.mp hp
      obtain ⟨r, hr, hoffends⟩ := exists_timeErrorOf.mp ⟨p, hqp⟩
      obtain ⟨hholds, hlt⟩ := offends_eq_true.mp hoffends
      exact ⟨r, hr, _, earliestOver_of_mem h hr hq hholds, hlt⟩
    · rw [check_of_mem_orderErrors hp] at hcheck
      exact absurd hcheck (by decide)
  · rintro ⟨r, hr, time, htime, hlt⟩
    obtain ⟨q, hq, rfl⟩ := walked_holds h hr htime
    have hmem : q ∈ (walked readDate options).filter (CoveredRange.holds r.seq) := hq ▸ List.mem_singleton_self q
    obtain ⟨hqwalked, hholds⟩ := List.mem_filter.mp hmem
    obtain ⟨p, hp⟩ := exists_timeErrorOf.mpr ⟨r, hr, offends_eq_true.mpr ⟨hholds, hlt⟩⟩
    have hpmem : p ∈ (walked readDate options).filterMap (timeErrorOf options.clockToleranceMs options.receipts) :=
      List.mem_filterMap.mpr ⟨q, hqwalked, hp⟩
    exact ⟨p, List.mem_append_left _ hpmem, check_of_mem_timeErrors hpmem⟩

/-- **There is an error of the order** exactly if a larger checkpoint is proven earlier. -/
theorem exists_order_iff (hagree : SizesAgree readDate options.checkpoints) :
    (∃ p ∈ (anchorTimes readDate options).errors, p.check = .order) ↔
      ∃ a ∈ options.checkpoints, ∃ b ∈ options.checkpoints, a.treeSize < b.treeSize ∧
        ∃ ta tb, a.attested readDate = some ta ∧ b.attested readDate = some tb ∧ tb < ta := by
  rw [anchorTimes_errors]
  have hbysize := bySize_provenCheckpoints readDate options.checkpoints
  constructor
  · rintro ⟨p, hp, hcheck⟩
    rcases List.mem_append.mp hp with hp | hp
    · rw [check_of_mem_timeErrors hp] at hcheck
      exact absurd hcheck (by decide)
    · obtain ⟨e, he, m, hm, hsize, hlt, -, -⟩ := (mem_orderErrors_of_agree hbysize (sizesAgree_iff.mp hagree)).mp hp
      obtain ⟨a, ha, hma⟩ := mem_provenCheckpoints.mp hm
      obtain ⟨b, hb, heb⟩ := mem_provenCheckpoints.mp he
      obtain ⟨ta, hta, rfl⟩ := Option.map_eq_some_iff.mp hma
      obtain ⟨tb, htb, rfl⟩ := Option.map_eq_some_iff.mp heb
      exact ⟨a, ha, b, hb, hsize, ta, tb, hta, htb, hlt⟩
  · rintro ⟨a, ha, b, hb, hsize, ta, tb, hta, htb, hlt⟩
    have hma : (⟨a.line, a.treeSize, a.ts, ta⟩ : ProvenCheckpoint) ∈ provenCheckpoints readDate options.checkpoints :=
      mem_provenCheckpoints.mpr ⟨a, ha, by rw [AnchoredCheckpoint.proven, hta]; rfl⟩
    have hmb : (⟨b.line, b.treeSize, b.ts, tb⟩ : ProvenCheckpoint) ∈ provenCheckpoints readDate options.checkpoints :=
      mem_provenCheckpoints.mpr ⟨b, hb, by rw [AnchoredCheckpoint.proven, htb]; rfl⟩
    obtain ⟨p, hp⟩ := exists_orderError hbysize hma hmb hsize hlt
    exact ⟨p, List.mem_append_right _ hp, check_of_mem_orderErrors hp⟩

-- ── Whatever the order of the checkpoints ────────────────────────────────────────

/-- The order of the checkpoints changes nothing of what is proven. -/
theorem mem_provenCheckpoints_of_perm {other : List AnchoredCheckpoint} (readDate : DateReader) (hperm : other.Perm checkpoints)
    (x : ProvenCheckpoint) :
    x ∈ provenCheckpoints readDate other ↔ x ∈ provenCheckpoints readDate checkpoints := by
  rw [mem_provenCheckpoints, mem_provenCheckpoints]
  simp only [hperm.mem_iff]

/-- Nor whether they agree. -/
theorem SizesAgree.of_perm {other : List AnchoredCheckpoint} (hperm : other.Perm checkpoints)
    (h : SizesAgree readDate checkpoints) : SizesAgree readDate other := by
  intro a ha b hb ta tb hta htb hsize hlt
  obtain ⟨d, hd, hrest⟩ := h a (hperm.mem_iff.mp ha) b (hperm.mem_iff.mp hb) ta tb hta htb hsize hlt
  exact ⟨d, hperm.mem_iff.mpr hd, hrest⟩

/-- Nor the errors of the times. -/
theorem timeErrors_of_perm {other : List AnchoredCheckpoint} (hperm : other.Perm options.checkpoints)
    {p : AnchorTimeProblem}
    (hp : p ∈ (walked readDate { options with checkpoints := other }).filterMap
      (timeErrorOf options.clockToleranceMs options.receipts)) :
    p ∈ (walked readDate options).filterMap (timeErrorOf options.clockToleranceMs options.receipts) := by
  obtain ⟨q, hq, hqp⟩ := List.mem_filterMap.mp hp
  have hunder := (exists_walkDown_iff (bySize_provenCheckpoints readDate other) (fun x _ => Nat.zero_le _) q).mp
    ⟨q, hq, rfl, rfl, rfl, rfl⟩
  obtain ⟨r, hr, hsame⟩ := (exists_walkDown_iff (bySize_provenCheckpoints readDate options.checkpoints)
    (fun x _ => Nat.zero_le _) q).mpr (hunder.of_mem_iff (mem_provenCheckpoints_of_perm readDate hperm))
  exact List.mem_filterMap.mpr ⟨r, hr, by rw [timeErrorOf_congr hsame, hqp]⟩

/-- **The order of the checkpoints changes none of the errors**, where those of one size agree. -/
theorem errors_of_perm (options : AnchorTimeOptions) {other : List AnchoredCheckpoint} (hperm : other.Perm options.checkpoints)
    (hagree : SizesAgree readDate options.checkpoints) {p : AnchorTimeProblem}
    (hp : p ∈ (anchorTimes readDate { options with checkpoints := other }).errors) :
    p ∈ (anchorTimes readDate options).errors := by
  rw [anchorTimes_errors] at hp ⊢
  rcases List.mem_append.mp hp with hp | hp
  · exact List.mem_append_left _ (timeErrors_of_perm hperm hp)
  · refine List.mem_append_right _ ?_
    have hsame := mem_provenCheckpoints_of_perm readDate hperm
    obtain ⟨e, he, m, hm, hsize, hlt, hmax, rfl⟩ := (mem_orderErrors_of_agree (bySize_provenCheckpoints readDate other)
      (sizesAgree_iff.mp (hagree.of_perm hperm))).mp hp
    exact (mem_orderErrors_of_agree (bySize_provenCheckpoints readDate options.checkpoints)
      (sizesAgree_iff.mp hagree)).mpr ⟨e, (hsame e).mp he, m, (hsame m).mp hm, hsize, hlt,
        fun y hy => hmax y ((hsame y).mpr hy), rfl⟩

/-- **Nor any of the warnings.** -/
theorem warnings_of_perm (options : AnchorTimeOptions) {other : List AnchoredCheckpoint} (hperm : other.Perm options.checkpoints)
    {p : AnchorTimeProblem} (hp : p ∈ (anchorTimes readDate { options with checkpoints := other }).warnings) :
    p ∈ (anchorTimes readDate options).warnings := by
  obtain ⟨x, hx, rfl⟩ := List.mem_map.mp hp
  obtain ⟨hx, hlate⟩ := List.mem_filter.mp hx
  exact List.mem_map.mpr ⟨x, List.mem_filter.mpr ⟨(mem_provenCheckpoints_of_perm readDate hperm x).mp hx, hlate⟩, rfl⟩

/-- **Where trees of one size agree, the times prove what they should.** -/
theorem meetsTimes_of_agree (h : Contiguous options.receipts) (hagree : SizesAgree readDate options.checkpoints) :
    MeetsTimes readDate options where
  covered := by
    intro r hr time htime
    obtain ⟨q, hq, rfl⟩ := walked_holds h hr htime
    exact ⟨_, by rw [filter_ranges, hq]; rfl, rfl⟩
  suffix := by
    intro r hr
    obtain ⟨-, hlast⟩ := h.bounds hr
    rw [← le_coveredThrough_iff h hr, anchorTimes_unproven, unprovenAfter]
    constructor
    · intro hnot
      have hcovered : ¬ lastSeqOf options.receipts ≤
          coveredThrough (firstSeqOf options.receipts) (walked readDate options) := by omega
      refine ⟨_, if_neg hcovered, ?_, hlast⟩
      show coveredThrough (firstSeqOf options.receipts) (walked readDate options) + 1 ≤ r.seq
      omega
    · rintro ⟨u, hu, hfrom, -⟩
      by_cases hle : lastSeqOf options.receipts ≤
          coveredThrough (firstSeqOf options.receipts) (walked readDate options)
      · rw [if_pos hle] at hu
        exact absurd hu (by simp)
      · rw [if_neg hle] at hu
        have hfromEq : coveredThrough (firstSeqOf options.receipts) (walked readDate options) + 1 = u.fromSeq :=
          congrArg Unproven.fromSeq (Option.some.inj hu)
        omega
  counted := by
    intro u hu
    rw [anchorTimes_unproven, unprovenAfter] at hu
    obtain ⟨-, hmembers⟩ := walked_ordered readDate options
    have hfirst : firstSeqOf options.receipts - 1 ≤
        coveredThrough (firstSeqOf options.receipts) (walked readDate options) := by
      rw [coveredThrough]
      cases hlast : (walked readDate options).getLast? with
      | none => exact le_refl _
      | some q =>
          have hq := hmembers q (List.mem_of_getLast? hlast)
          show firstSeqOf options.receipts - 1 ≤ q.toSeq
          omega
    by_cases hle : lastSeqOf options.receipts ≤
        coveredThrough (firstSeqOf options.receipts) (walked readDate options)
    · rw [if_pos hle] at hu
      exact absurd hu (by simp)
    · rw [if_neg hle] at hu
      obtain rfl := (Option.some.inj hu).symm
      refine ⟨rfl, ?_, ?_⟩
      · show lastSeqOf options.receipts - coveredThrough (firstSeqOf options.receipts) (walked readDate options) = _
        rw [h.length_filter (by dsimp only; omega) (by dsimp only; omega)]
        dsimp only
        omega
      · show 0 < lastSeqOf options.receipts - coveredThrough _ _
        omega
  time := exists_time_iff h
  order := exists_order_iff hagree
  anyOrder := by
    intro other hperm p
    have hback : options.checkpoints.Perm ({ options with checkpoints := other } : AnchorTimeOptions).checkpoints :=
      hperm.symm
    exact ⟨⟨errors_of_perm options hperm hagree, errors_of_perm _ hback (hagree.of_perm hperm)⟩,
      ⟨warnings_of_perm options hperm, warnings_of_perm _ hback⟩⟩

-- ── Where trees of one size do not agree ─────────────────────────────────────────

/-- No blank in a number. -/
theorem space_not_mem_intText (n : ℕ) : (0x20 : UInt16) ∉ intText n := by
  intro hmem
  have hdigit := isDigit_of_mem_decimal _ (show (0x20 : UInt16) ∈ decimal n from hmem)
  exact absurd hdigit (by decide)

/-- Nothing but digits and its own marks in a date. -/
theorem not_mem_isoText {u : UInt16} (hdigit : isDigit u = false) (hmark : u ∉ dateMarks) (time : ℤ) :
    u ∉ isoText time := by
  intro hmem
  rcases mem_isoText u hmem with h | h
  · rw [hdigit] at h
    exact absurd h (by simp)
  · exact hmark h

/-- The text of a number tells it apart. -/
theorem intText_natCast_inj {m n : ℕ} (h : intText m = intText n) : m = n := by
  have hdecimal : decimal m = decimal n := h
  rw [← digitsValue_decimal m, hdecimal, digitsValue_decimal]

/-- **An error of the order names both trees and both times.** -/
theorem orderError_inj {e m x y : ProvenCheckpoint} (he : |e.provenAt| ≤ maxTime) (hm : |m.provenAt| ≤ maxTime)
    (hx : |x.provenAt| ≤ maxTime) (hy : |y.provenAt| ≤ maxTime) (h : orderError e m = orderError x y) :
    (e.treeSize = x.treeSize ∧ e.provenAt = x.provenAt) ∧ m.treeSize = y.treeSize ∧ m.provenAt = y.provenAt := by
  have hdetail := congrArg AnchorTimeProblem.detail h
  have h1 := List.append_cancel_left hdetail
  obtain ⟨hsize, h2⟩ := append_mark_inj (space_not_mem_intText _) (space_not_mem_intText _) h1
  have h3 := List.append_cancel_left h2
  obtain ⟨htime, h4⟩ := append_mark_inj (not_mem_isoText (by decide) (by decide) _)
    (not_mem_isoText (by decide) (by decide) _) h3
  have h5 := List.append_cancel_left h4
  obtain ⟨hlatestSize, h6⟩ := append_mark_inj (space_not_mem_intText _) (space_not_mem_intText _) h5
  have h7 := List.append_cancel_left h6
  obtain ⟨hlatestTime, -⟩ := append_mark_inj (not_mem_isoText (by decide) (by decide) _)
    (not_mem_isoText (by decide) (by decide) _) h7
  exact ⟨⟨intText_natCast_inj hsize, isoText_inj he hx htime⟩,
    intText_natCast_inj hlatestSize, isoText_inj hm hy hlatestTime⟩

/-- Trees by size, and of one size by something of their times. -/
def SizeThen (key : ℤ → ℤ) (l : List ProvenCheckpoint) : Prop :=
  l.Pairwise fun a b => a.treeSize < b.treeSize ∨ a.treeSize = b.treeSize ∧ key a.provenAt ≤ key b.provenAt

/-- What is sorted by size first is sorted by size. -/
theorem SizeThen.bySize {key : ℤ → ℤ} {l : List ProvenCheckpoint} (h : SizeThen key l) : BySize l :=
  h.imp fun hab => by omega

/-- The checkpoints can stand so in the file. -/
theorem exists_sizeThen (readDate : DateReader) (key : ℤ → ℤ) (checkpoints : List AnchoredCheckpoint) :
    ∃ other, other.Perm checkpoints ∧ SizeThen key (provenCheckpoints readDate other) := by
  let time : AnchoredCheckpoint → ℤ := fun a => key ((a.attested readDate).getD 0)
  let le : AnchoredCheckpoint → AnchoredCheckpoint → Bool := fun a b =>
    decide (a.treeSize < b.treeSize ∨ a.treeSize = b.treeSize ∧ time a ≤ time b)
  have hpairs : (checkpoints.mergeSort le).Pairwise fun a b => le a b := by
    refine List.pairwise_mergeSort (fun a b c hab hbc => ?_) (fun a b => ?_) checkpoints
    · simp only [le, decide_eq_true_eq] at hab hbc ⊢
      omega
    · simp only [le, Bool.or_eq_true, decide_eq_true_eq]
      omega
  have hsorted : sortedBySize (checkpoints.mergeSort le) = checkpoints.mergeSort le := by
    refine List.mergeSort_of_pairwise (hpairs.imp fun {a b} hab => ?_)
    simp only [le, decide_eq_true_eq] at hab ⊢
    omega
  refine ⟨checkpoints.mergeSort le, List.mergeSort_perm _ _, ?_⟩
  rw [SizeThen, provenCheckpoints, hsorted]
  refine List.Pairwise.filterMap _ (fun a b hab x hx y hy => ?_) hpairs
  obtain ⟨ta, hta, rfl⟩ := Option.map_eq_some_iff.mp hx
  obtain ⟨tb, htb, rfl⟩ := Option.map_eq_some_iff.mp hy
  have hle := of_decide_eq_true hab
  simp only [time, hta, htb, Option.getD_some] at hle
  exact hle

/-- **Two orders of one file that come to the same errors** hold only trees of one size that agree:
    where the later of two times comes first, it is the latest, and an error that the other order has
    not. -/
theorem provenAgree_of_orders {l k : List ProvenCheckpoint} (hl : SizeThen id l) (hk : SizeThen Neg.neg k)
    (hsame : ∀ x, x ∈ k ↔ x ∈ l) (hrange : ∀ x ∈ l, |x.provenAt| ≤ maxTime)
    (herrors : ∀ p ∈ orderErrors none k, p ∈ orderErrors none l) : ProvenAgree l := by
  intro a ha b hb hsize hlt
  by_contra hnone
  -- in the falling order the later time stands before the earlier
  obtain ⟨before, after, hsplit⟩ := List.append_of_mem ((hsame a).mpr ha)
  have hbbefore : b ∈ before := by
    have hbk := (hsame b).mpr hb
    rw [hsplit] at hbk
    rcases List.mem_append.mp hbk with hbk | hbk
    · exact hbk
    · rcases List.mem_cons.mp hbk with rfl | hbafter
      · exact absurd hlt (lt_irrefl _)
      · rw [SizeThen, hsplit, List.pairwise_append, List.pairwise_cons] at hk
        have := hk.2.1.1 b hbafter
        omega
  have hkBefore : BySize before := (List.pairwise_append.mp (hsplit ▸ hk.bySize)).1
  obtain ⟨m, hm⟩ := exists_isLatest (f := ProvenCheckpoint.provenAt) hbbefore
  have hmb : b.provenAt ≤ m.provenAt := hm.le hbbefore
  have hml : m ∈ l := (hsame m).mp (hsplit ▸ List.mem_append_left _ hm.mem)
  have herror := herrors _ (mem_orderErrors_none_iff.mpr ⟨before, a, after, m, hsplit, hm, hlt.trans_le hmb, rfl⟩)
  -- in the rising one what makes it an error is a smaller tree
  obtain ⟨ahead, x, behind, y, hsplit', hy, hxy, htext⟩ := mem_orderErrors_none_iff.mp herror
  have hxl : x ∈ l := by
    rw [hsplit']
    exact List.mem_append_right _ (List.mem_cons_self ..)
  have hyl : y ∈ l := by
    rw [hsplit']
    exact List.mem_append_left _ hy.mem
  obtain ⟨⟨hax, htx⟩, hmy, hty⟩ := orderError_inj (hrange a ha) (hrange m hml) (hrange x hxl) (hrange y hyl) htext
  rw [SizeThen, hsplit', List.pairwise_append] at hl
  have hyx := hl.2.2 y hy.mem x (List.mem_cons_self ..)
  have hysmaller : y.treeSize < a.treeSize := by
    rcases hyx with h | ⟨-, h⟩
    · omega
    · exact absurd h (not_le.mpr hxy)
  have hyb : y.provenAt ≤ b.provenAt := by
    by_contra hgt
    exact hnone ⟨y, hyl, hysmaller, not_le.mp hgt⟩
  have hbm := hm.key_le hkBefore hbbefore (by omega)
  omega

/-- **What the attested times prove, if and only if trees of one size agree.** -/
theorem anchorTimes_meets_iff (readDate : DateReader) (options : AnchorTimeOptions)
    (h : Contiguous options.receipts) :
    MeetsTimes readDate options ↔ SizesAgree readDate options.checkpoints := by
  constructor
  · intro hmeets
    obtain ⟨rising, hrising, hl⟩ := exists_sizeThen readDate id options.checkpoints
    obtain ⟨falling, hfalling, hk⟩ := exists_sizeThen readDate Neg.neg options.checkpoints
    have hagree : ProvenAgree (provenCheckpoints readDate rising) := by
      refine provenAgree_of_orders hl hk (fun x => ?_) (fun x hx => provenAt_inRange hx) (fun p hp => ?_)
      · rw [mem_provenCheckpoints_of_perm readDate hfalling, mem_provenCheckpoints_of_perm readDate hrising]
      · have hfell : p ∈ (anchorTimes readDate { options with checkpoints := falling }).errors :=
          List.mem_append_right _ hp
        have hrose := ((hmeets.anyOrder rising hrising p).1.mpr) ((hmeets.anyOrder falling hfalling p).1.mp hfell)
        rcases List.mem_append.mp hrose with htime | horder
        · have htimeCheck := check_of_mem_timeErrors htime
          rw [check_of_mem_orderErrors hp] at htimeCheck
          exact absurd htimeCheck (by decide)
        · exact horder
    exact (sizesAgree_iff.mpr hagree).of_perm hrising.symm
  · exact meetsTimes_of_agree h

-- ── Two checkpoints over one receipt ─────────────────────────────────────────────

/-- What `Date.parse` makes of the times a receipt may have. -/
def isoReader : DateReader where
  parse text := if h : IsTimestamp text then (some (dateParse ⟨text, h⟩)).filter fun n => decide (|n| ≤ maxTime) else none
  inRange := by
    intro text time h
    by_cases hts : IsTimestamp text
    · rw [dif_pos hts] at h
      exact of_decide_eq_true (Option.filter_eq_some_iff.mp h).2
    · rw [dif_neg hts] at h
      exact absurd h (by simp)

/-- A second after the new year. -/
def secondNewYear : JsString := js "2026-01-01T00:00:01.000Z"

/-- One receipt, received at the new year. -/
def onceReceived : List ReceivedReceipt := [⟨0, newYear⟩]

/-- A checkpoint over it that a token attests a second later. -/
def stampedLater : AnchoredCheckpoint := ⟨1, 1, newYear, [secondNewYear]⟩

/-- One of the same size that a token attests at the new year. -/
def stampedFirst : AnchoredCheckpoint := ⟨2, 1, newYear, [newYear.1]⟩

theorem onceReceived_contiguous : Contiguous onceReceived := by
  intro i r hi
  cases i with
  | zero =>
      obtain rfl := Option.some.inj hi
      rfl
  | succ i => exact absurd hi (by simp [onceReceived])

/-- The time the first is attested at. -/
theorem attested_stampedLater : stampedLater.attested isoReader = some 1767225601000 := by decide +kernel

/-- Three receipts, of which two are under trees: the larger of the two is attested first. -/
def threeReceived : List ReceivedReceipt := [⟨0, newYear⟩, ⟨1, newYear⟩, ⟨2, newYear⟩]

/-- A checkpoint over two receipts, attested at the new year. -/
def stampedOver : AnchoredCheckpoint := ⟨2, 2, newYear, [newYear.1]⟩

/-- The time it is attested at. -/
theorem attested_stampedOver : stampedOver.attested isoReader = some 1767225600000 := by decide +kernel

/-- The three are without gaps. -/
theorem threeReceived_contiguous : Contiguous threeReceived := by
  rintro (_ | _ | _ | i) r hi
  · obtain rfl := Option.some.inj hi
    rfl
  · obtain rfl := Option.some.inj hi
    rfl
  · obtain rfl := Option.some.inj hi
    rfl
  · exact absurd hi (by simp [threeReceived])

/-- Trees of two sizes: the order is found broken, and the third receipt unproven. -/
theorem anchorTimes_meets_iff_three :
    let options : AnchorTimeOptions := ⟨threeReceived, [stampedLater, stampedOver], 300000, 3600000⟩
    MeetsTimes isoReader options ∧ (∃ p ∈ (anchorTimes isoReader options).errors, p.check = .order) ∧
      ∃ u, (anchorTimes isoReader options).unproven = some u ∧ u.fromSeq ≤ 2 ∧ 2 ≤ u.toSeq := by
  intro options
  have hsizes : ∀ a ∈ [stampedLater, stampedOver], ∀ b ∈ [stampedLater, stampedOver], a.treeSize = b.treeSize →
      a.genTimes = b.genTimes := by decide
  have hmeets : MeetsTimes isoReader options := by
    refine (anchorTimes_meets_iff isoReader options threeReceived_contiguous).mpr ?_
    intro a ha b hb ta tb hta htb hsize hlt
    rw [AnchoredCheckpoint.attested, hsizes a ha b hb hsize, ← AnchoredCheckpoint.attested, htb] at hta
    exact absurd hlt (by rw [Option.some.inj hta]; exact lt_irrefl _)
  refine ⟨hmeets, hmeets.order.mpr ⟨stampedLater, List.mem_cons_self, stampedOver, by simp [options], by decide,
    _, _, attested_stampedLater, attested_stampedOver, by decide⟩, ?_⟩
  refine (hmeets.suffix ⟨2, newYear⟩ (by simp [options, threeReceived])).mp ?_
  rintro ⟨time, entry, hentry, hsize, -⟩
  have hsmall : ∀ entry ∈ [stampedLater, stampedOver], entry.treeSize ≤ 2 := by decide
  exact absurd (hsmall entry hentry) (not_le.mpr hsize)

/-- **The order rule breaks for two checkpoints over one receipt**: there is no smaller tree. -/
theorem same_size_error : Contiguous onceReceived ∧
    ¬ MeetsTimes isoReader ⟨onceReceived, [stampedLater, stampedFirst], 300000, 3600000⟩ := by
  refine ⟨onceReceived_contiguous, fun hmeets => ?_⟩
  have hsorted : sortedBySize [stampedLater, stampedFirst] = [stampedLater, stampedFirst] :=
    List.mergeSort_of_pairwise (by decide)
  have hproven : provenCheckpoints isoReader [stampedLater, stampedFirst]
      = [⟨1, 1, newYear, 1767225601000⟩, ⟨2, 1, newYear, 1767225600000⟩] := by
    have hfirst : stampedFirst.attested isoReader = some 1767225600000 := by decide +kernel
    rw [provenCheckpoints, hsorted]
    simp only [List.filterMap, AnchoredCheckpoint.proven, attested_stampedLater, hfirst, Option.map_some]
    rfl
  have herror : orderError ⟨2, 1, newYear, 1767225600000⟩ ⟨1, 1, newYear, 1767225601000⟩
      ∈ (anchorTimes isoReader ⟨onceReceived, [stampedLater, stampedFirst], 300000, 3600000⟩).errors := by
    rw [anchorTimes_errors, hproven]
    exact List.mem_append_right _ (List.mem_cons_self ..)
  obtain ⟨a, ha, b, hb, hsize, -⟩ := hmeets.order.mp ⟨_, herror, rfl⟩
  have hone : ∀ x ∈ [stampedLater, stampedFirst], x.treeSize = 1 := by decide
  rw [hone a ha, hone b hb] at hsize
  exact absurd hsize (lt_irrefl 1)

end Sigillo
