import Sigillo.AnchorTimes

/-!
# What the attested times prove

The reading of `anchorTimes` that does not follow its scans: every receipt under an attested tree is
in one range, by the earliest time of a tree that holds it; the rest is unproven; a receipt is out of
time, or two trees out of order, exactly when their times say so. All of it holds wherever trees of
one size are attested one time, or are older than a smaller tree is; and exactly there the order of
the checkpoints makes no difference (**`anchorTimes_meets_iff`**). -/

namespace Sigillo

open Utf16Text JsonText JsonParse IsoTime EcmaText LastLargest

-- ── The declarative reading ──────────────────────────────────────────────────────

/-- A time attested of a tree that holds a position. -/
def AttestedOver (readDate : DateReader) (checkpoints : List AnchoredCheckpoint) (seq : ℕ) (time : ℤ) : Prop :=
  ∃ entry ∈ checkpoints, seq < entry.treeSize ∧ entry.attested readDate = some time

/-- The earliest of them. -/
def EarliestOver (readDate : DateReader) (checkpoints : List AnchoredCheckpoint) (seq : ℕ) (time : ℤ) : Prop :=
  AttestedOver readDate checkpoints seq time ∧
    ∀ other, AttestedOver readDate checkpoints seq other → time ≤ other

/-- Receipts at one position after the other. -/
def Contiguous (receipts : List ReceivedReceipt) : Prop :=
  ∀ (i : ℕ) (r : ReceivedReceipt), receipts[i]? = some r → (r.seq : ℤ) = firstSeqOf receipts + i

/-- A position is in the range. -/
def AnchorRange.holds (seq : ℕ) (range : AnchorRange) : Bool :=
  decide (range.fromSeq ≤ seq) && decide (seq ≤ range.toSeq)

/-- **What the attested times prove**, and which of the rules are broken. -/
structure MeetsTimes (readDate : DateReader) (options : AnchorTimeOptions) : Prop where
  covered : ∀ r ∈ options.receipts, ∀ time, EarliestOver readDate options.checkpoints r.seq time →
    ∃ range, (anchorTimes readDate options).ranges.filter (AnchorRange.holds r.seq) = [range] ∧
      range.existedBy = isoText time
  suffix : ∀ r ∈ options.receipts, (¬ ∃ time, AttestedOver readDate options.checkpoints r.seq time) ↔
    ∃ u, (anchorTimes readDate options).unproven = some u ∧ u.fromSeq ≤ r.seq ∧ r.seq ≤ u.toSeq
  counted : ∀ u, (anchorTimes readDate options).unproven = some u → u.toSeq = lastSeqOf options.receipts ∧
    u.count = (options.receipts.filter fun r => decide (u.fromSeq ≤ r.seq)).length ∧ 0 < u.count
  time : (∃ p ∈ (anchorTimes readDate options).errors, p.check = .time) ↔
    ∃ r ∈ options.receipts, ∃ time, EarliestOver readDate options.checkpoints r.seq time ∧
      time + options.clockToleranceMs < dateParse r.tsReceived
  order : (∃ p ∈ (anchorTimes readDate options).errors, p.check = .order) ↔
    ∃ a ∈ options.checkpoints, ∃ b ∈ options.checkpoints, a.treeSize < b.treeSize ∧
      ∃ ta tb, a.attested readDate = some ta ∧ b.attested readDate = some tb ∧ tb < ta
  anyOrder : ∀ checkpoints, checkpoints.Perm options.checkpoints → ∀ p,
    (p ∈ (anchorTimes readDate { options with checkpoints }).errors ↔ p ∈ (anchorTimes readDate options).errors) ∧
    (p ∈ (anchorTimes readDate { options with checkpoints }).warnings ↔
      p ∈ (anchorTimes readDate options).warnings)

/-- **Trees of one size agree**: they are attested one time, or a smaller tree a later one. -/
def SizesAgree (readDate : DateReader) (checkpoints : List AnchoredCheckpoint) : Prop :=
  ∀ a ∈ checkpoints, ∀ b ∈ checkpoints, ∀ ta tb, a.attested readDate = some ta → b.attested readDate = some tb →
    a.treeSize = b.treeSize → ta < tb →
    ∃ d ∈ checkpoints, ∃ td, d.attested readDate = some td ∧ d.treeSize < a.treeSize ∧ tb < td

-- ── The checkpoints by size ──────────────────────────────────────────────────────

variable {readDate : DateReader} {checkpoints : List AnchoredCheckpoint}

theorem mem_provenCheckpoints {x : ProvenCheckpoint} : x ∈ provenCheckpoints readDate checkpoints ↔
    ∃ entry ∈ checkpoints, entry.proven readDate = some x := by
  rw [provenCheckpoints, List.mem_filterMap]
  simp only [sortedBySize, List.mem_mergeSort]

/-- A time that is attested is that of a proven checkpoint. -/
theorem exists_proven {P : ℕ → ℤ → Prop} :
    (∃ entry ∈ checkpoints, ∃ time, entry.attested readDate = some time ∧ P entry.treeSize time) ↔
      ∃ x ∈ provenCheckpoints readDate checkpoints, P x.treeSize x.provenAt := by
  constructor
  · rintro ⟨entry, hentry, time, htime, hP⟩
    refine ⟨⟨entry.line, entry.treeSize, entry.ts, time⟩, mem_provenCheckpoints.mpr ⟨entry, hentry, ?_⟩, hP⟩
    rw [AnchoredCheckpoint.proven, htime]
    rfl
  · rintro ⟨x, hx, hP⟩
    obtain ⟨entry, hentry, hproven⟩ := mem_provenCheckpoints.mp hx
    obtain ⟨time, htime, rfl⟩ := Option.map_eq_some_iff.mp hproven
    exact ⟨entry, hentry, time, htime, hP⟩

/-- No tree comes before a smaller one. -/
def BySize (l : List ProvenCheckpoint) : Prop := l.Pairwise fun a b => a.treeSize ≤ b.treeSize

theorem bySize_provenCheckpoints (readDate : DateReader) (checkpoints : List AnchoredCheckpoint) :
    BySize (provenCheckpoints readDate checkpoints) := by
  have hsorted : (sortedBySize checkpoints).Pairwise fun a b => a.treeSize ≤ b.treeSize := by
    refine (List.pairwise_mergeSort (fun a b d hab hbd => ?_) (fun a b => ?_) checkpoints).imp fun h =>
      of_decide_eq_true h
    · rw [decide_eq_true_eq] at *
      exact hab.trans hbd
    · rw [Bool.or_eq_true, decide_eq_true_eq, decide_eq_true_eq]
      exact Nat.le_total _ _
  refine List.Pairwise.filterMap _ (fun a b hab x hx y hy => ?_) hsorted
  obtain ⟨ta, -, rfl⟩ := Option.map_eq_some_iff.mp hx
  obtain ⟨tb, -, rfl⟩ := Option.map_eq_some_iff.mp hy
  exact hab

-- ── Down from the largest tree ───────────────────────────────────────────────────

/-- The earliest time a walk has met is that of the scan. -/
theorem walkDown_fst (firstSeq lastSeq : ℤ) (below : ℕ) (l : List ProvenCheckpoint) :
    (walkDown firstSeq lastSeq below l).1 = earliest ProvenCheckpoint.provenAt l := by
  induction l generalizing below with
  | nil => rfl
  | cons entry larger ih =>
      show some (earlier entry (walkDown firstSeq lastSeq entry.treeSize larger).1) = _
      rw [ih, earliest]
      cases earliest ProvenCheckpoint.provenAt larger with
      | none => rfl
      | some best =>
          show some (if entry.provenAt < best.provenAt then entry else best) = _
          rw [apply_ite some]

/-- **The ranges of a walk**: its first entry's own, unless it is empty, and those of larger trees. -/
theorem walkDown_cons (firstSeq lastSeq : ℤ) (below : ℕ) (entry : ProvenCheckpoint)
    (larger : List ProvenCheckpoint) :
    ∃ m, IsEarliest ProvenCheckpoint.provenAt (entry :: larger) m ∧
      (walkDown firstSeq lastSeq below (entry :: larger)).2 =
        if min lastSeq (entry.treeSize - 1) < max firstSeq below
        then (walkDown firstSeq lastSeq entry.treeSize larger).2
        else ⟨max firstSeq below, min lastSeq (entry.treeSize - 1), m⟩
          :: (walkDown firstSeq lastSeq entry.treeSize larger).2 := by
  obtain ⟨m, hm, hearliest⟩ := earliest_cons (f := ProvenCheckpoint.provenAt) entry larger
  have hfound := walkDown_fst firstSeq lastSeq below (entry :: larger)
  rw [hm] at hfound
  exact ⟨m, hearliest, by rw [← Option.some.inj hfound]; rfl⟩

/-- The ranges follow one another, and start in the window and at a tree's end. -/
theorem walkDown_ordered (firstSeq lastSeq : ℤ) {below : ℕ} {l : List ProvenCheckpoint}
    (hl : BySize l) (hbelow : ∀ x ∈ l, below ≤ x.treeSize) :
    (walkDown firstSeq lastSeq below l).2.Pairwise (fun a b => a.toSeq < b.fromSeq) ∧
      ∀ q ∈ (walkDown firstSeq lastSeq below l).2,
        firstSeq ≤ q.fromSeq ∧ below ≤ q.fromSeq ∧ q.fromSeq ≤ q.toSeq ∧ q.toSeq ≤ lastSeq := by
  induction l generalizing below with
  | nil => exact ⟨List.Pairwise.nil, fun q hq => absurd hq List.not_mem_nil⟩
  | cons entry larger ih =>
      obtain ⟨hle, hlarger⟩ := List.pairwise_cons.mp hl
      obtain ⟨hpairs, hmembers⟩ := ih hlarger hle
      have hentry : below ≤ entry.treeSize := hbelow entry (List.mem_cons_self ..)
      obtain ⟨m, -, hwalk⟩ := walkDown_cons firstSeq lastSeq below entry larger
      have hrest : ∀ q ∈ (walkDown firstSeq lastSeq entry.treeSize larger).2,
          firstSeq ≤ q.fromSeq ∧ below ≤ q.fromSeq ∧ q.fromSeq ≤ q.toSeq ∧ q.toSeq ≤ lastSeq := fun q hq => by
        obtain ⟨h1, h2, h3, h4⟩ := hmembers q hq
        exact ⟨h1, by omega, h3, h4⟩
      rw [hwalk]
      by_cases hempty : min lastSeq (entry.treeSize - 1) < max firstSeq below
      · rw [if_pos hempty]
        exact ⟨hpairs, hrest⟩
      · rw [if_neg hempty]
        refine ⟨List.pairwise_cons.mpr ⟨fun q hq => ?_, hpairs⟩, List.forall_mem_cons.mpr ⟨?_, hrest⟩⟩
        · have := hmembers q hq
          show min lastSeq (entry.treeSize - 1) < q.fromSeq
          omega
        · show firstSeq ≤ max firstSeq (below : ℤ) ∧ below ≤ max firstSeq (below : ℤ) ∧
            max firstSeq (below : ℤ) ≤ min lastSeq (entry.treeSize - 1) ∧
            min lastSeq (entry.treeSize - 1) ≤ lastSeq
          omega

/-- The earliest time of the trees that hold a position, wherever they stand. -/
def EarliestHolding (l : List ProvenCheckpoint) (seq : ℕ) (time : ℤ) : Prop :=
  (∃ x ∈ l, seq < x.treeSize ∧ x.provenAt = time) ∧ ∀ x ∈ l, seq < x.treeSize → time ≤ x.provenAt

/-- A position is in the range. -/
def CoveredRange.holds (seq : ℕ) (range : CoveredRange) : Bool :=
  decide (range.fromSeq ≤ seq) && decide (seq ≤ range.toSeq)

theorem CoveredRange.holds_eq_true {range : CoveredRange} {seq : ℕ} :
    range.holds seq = true ↔ range.fromSeq ≤ seq ∧ seq ≤ range.toSeq := by
  rw [CoveredRange.holds, Bool.and_eq_true, decide_eq_true_eq, decide_eq_true_eq]

/-- **A position of the window is in one range if a tree holds it, and in none otherwise**; the range's
    time is the earliest. -/
theorem walkDown_holds {firstSeq lastSeq : ℤ} {seq below : ℕ} {l : List ProvenCheckpoint}
    (hl : BySize l) (hfirst : firstSeq ≤ seq) (hlast : seq ≤ lastSeq)
    (hbelow : below ≤ seq) :
    ((∀ x ∈ l, x.treeSize ≤ seq) → (walkDown firstSeq lastSeq below l).2.filter (CoveredRange.holds seq) = []) ∧
    ((∃ x ∈ l, seq < x.treeSize) →
      ∃ q, (walkDown firstSeq lastSeq below l).2.filter (CoveredRange.holds seq) = [q] ∧
        EarliestHolding l seq q.earliest.provenAt) := by
  induction l generalizing below with
  | nil => exact ⟨fun _ => rfl, fun ⟨x, hx, _⟩ => absurd hx List.not_mem_nil⟩
  | cons entry larger ih =>
      obtain ⟨hle, hlarger⟩ := List.pairwise_cons.mp hl
      obtain ⟨m, hm, hwalk⟩ := walkDown_cons firstSeq lastSeq below entry larger
      by_cases hin : seq < entry.treeSize
      · -- the first entry's own range holds the position, and the others start past it
        refine ⟨fun hnone => absurd (hnone entry (List.mem_cons_self ..)) (by omega), fun _ => ?_⟩
        have hnonempty : ¬ min lastSeq ((entry.treeSize : ℤ) - 1) < max firstSeq below := by omega
        obtain ⟨-, hmembers⟩ := walkDown_ordered firstSeq lastSeq hlarger hle
        have hrest : (walkDown firstSeq lastSeq entry.treeSize larger).2.filter (CoveredRange.holds seq) = [] := by
          rw [List.filter_eq_nil_iff]
          intro q hq hholds
          have h1 := hmembers q hq
          have h2 := CoveredRange.holds_eq_true.mp hholds
          omega
        rw [hwalk, if_neg hnonempty]
        have hholds : CoveredRange.holds seq ⟨max firstSeq below, min lastSeq (entry.treeSize - 1), m⟩ = true := by
          rw [CoveredRange.holds_eq_true]
          constructor
          · show max firstSeq (below : ℤ) ≤ seq
            omega
          · show (seq : ℤ) ≤ min lastSeq (entry.treeSize - 1)
            omega
        refine ⟨_, by rw [List.filter_cons_of_pos hholds, hrest], ?_⟩
        · refine ⟨⟨m, hm.mem, ?_, rfl⟩, fun x hx _ => hm.le hx⟩
          rcases List.mem_cons.mp hm.mem with rfl | hlater
          · exact hin
          · exact lt_of_lt_of_le hin (hle m hlater)
      · -- the position is past the first entry's tree
        have hsame : (walkDown firstSeq lastSeq below (entry :: larger)).2.filter (CoveredRange.holds seq)
            = (walkDown firstSeq lastSeq entry.treeSize larger).2.filter (CoveredRange.holds seq) := by
          rw [hwalk]
          by_cases hempty : min lastSeq ((entry.treeSize : ℤ) - 1) < max firstSeq below
          · rw [if_pos hempty]
          · rw [if_neg hempty, List.filter_cons_of_neg]
            intro hholds
            have hto : (seq : ℤ) ≤ min lastSeq (entry.treeSize - 1) := (CoveredRange.holds_eq_true.mp hholds).2
            omega
        obtain ⟨hnone, hsome⟩ := ih hlarger (not_lt.mp hin)
        rw [hsame]
        refine ⟨fun h => hnone fun x hx => h x (List.mem_cons_of_mem _ hx), fun ⟨x, hx, hseq⟩ => ?_⟩
        rcases List.mem_cons.mp hx with rfl | hx
        · exact absurd hseq hin
        · obtain ⟨q, hq, ⟨y, hy, hyseq, hytime⟩, hmin⟩ := hsome ⟨x, hx, hseq⟩
          refine ⟨q, hq, ⟨y, List.mem_cons_of_mem _ hy, hyseq, hytime⟩, fun z hz hzseq => ?_⟩
          rcases List.mem_cons.mp hz with rfl | hz
          · exact absurd hzseq hin
          · exact hmin z hz hzseq

end Sigillo
