import Sigillo.AnchorRules

/-!
# The order of the checkpoints

Which ranges, errors and warnings come of the attested times, told without an order of the
checkpoints: trees of one size stand in the order of the file, and only where they are attested
different times does that order show. -/

namespace Sigillo

open Utf16Text JsonText JsonParse IsoTime EcmaText LastLargest

-- ── The ranges ───────────────────────────────────────────────────────────────────

/-- The earliest time of the trees of a size or more, and of those attested it the largest. -/
def EarliestFrom (l : List ProvenCheckpoint) (size : ℕ) (treeSize : ℕ) (time : ℤ) : Prop :=
  (∃ e ∈ l, size ≤ e.treeSize ∧ e.treeSize = treeSize ∧ e.provenAt = time) ∧
    ∀ y ∈ l, size ≤ y.treeSize → time ≤ y.provenAt ∧ (y.provenAt = time → y.treeSize ≤ treeSize)

theorem EarliestFrom.unique {l : List ProvenCheckpoint} {size m n : ℕ} {s t : ℤ} (hs : EarliestFrom l size m s)
    (ht : EarliestFrom l size n t) : m = n ∧ s = t := by
  obtain ⟨⟨a, ha, hasize, rfl, rfl⟩, hmina⟩ := hs
  obtain ⟨⟨b, hb, hbsize, rfl, rfl⟩, hminb⟩ := ht
  obtain ⟨hab, hsizeB⟩ := hmina b hb hbsize
  obtain ⟨hba, hsizeA⟩ := hminb a ha hasize
  have htime : a.provenAt = b.provenAt := le_antisymm hab hba
  exact ⟨Nat.le_antisymm (hsizeA htime) (hsizeB htime.symm), htime⟩

/-- Two ranges that tell the same. -/
structure CoveredRange.Same (q r : CoveredRange) : Prop where
  fromSeq : q.fromSeq = r.fromSeq
  toSeq : q.toSeq = r.toSeq
  treeSize : q.earliest.treeSize = r.earliest.treeSize
  provenAt : q.earliest.provenAt = r.earliest.provenAt

/-- **The range under one of the trees**: from the end of the next smaller one. -/
def RangeUnder (firstSeq lastSeq : ℤ) (below : ℕ) (l : List ProvenCheckpoint) (q : CoveredRange) : Prop :=
  q.fromSeq ≤ q.toSeq ∧ ∃ x ∈ l, ∃ b : ℕ, (b = below ∨ ∃ y ∈ l, y.treeSize = b) ∧
    (∀ y ∈ l, y.treeSize ≤ b ∨ x.treeSize ≤ y.treeSize) ∧ q.fromSeq = max firstSeq b ∧
    q.toSeq = min lastSeq (x.treeSize - 1) ∧ EarliestFrom l x.treeSize q.earliest.treeSize q.earliest.provenAt

variable {firstSeq lastSeq : ℤ}

theorem earliestFrom_of_isEarliest {entry : ProvenCheckpoint} {larger : List ProvenCheckpoint} {m : ProvenCheckpoint}
    (hl : BySize (entry :: larger)) (hm : IsEarliest ProvenCheckpoint.provenAt (entry :: larger) m) :
    EarliestFrom (entry :: larger) entry.treeSize m.treeSize m.provenAt := by
  refine ⟨⟨m, hm.mem, ?_, rfl, rfl⟩, fun y hy _ => ⟨hm.le hy, fun hsame => hm.key_le hl hy hsame⟩⟩
  rcases List.mem_cons.mp hm.mem with rfl | hlater
  · exact le_refl _
  · exact (List.pairwise_cons.mp hl).1 m hlater

/-- A tree that all others are as large as changes nothing above it. -/
theorem earliestFrom_cons {entry : ProvenCheckpoint} {larger : List ProvenCheckpoint} {size n : ℕ} {t : ℤ}
    (hentry : entry.treeSize < size) :
    EarliestFrom (entry :: larger) size n t ↔ EarliestFrom larger size n t := by
  constructor
  · rintro ⟨⟨e, he, hsize, hn, ht⟩, hmin⟩
    refine ⟨?_, fun y hy => hmin y (List.mem_cons_of_mem _ hy)⟩
    rcases List.mem_cons.mp he with rfl | he
    · exact absurd hsize (not_le.mpr hentry)
    · exact ⟨e, he, hsize, hn, ht⟩
  · rintro ⟨⟨e, he, hsize, hn, ht⟩, hmin⟩
    refine ⟨⟨e, List.mem_cons_of_mem _ he, hsize, hn, ht⟩, fun y hy hysize => ?_⟩
    rcases List.mem_cons.mp hy with rfl | hy
    · exact absurd hysize (not_le.mpr hentry)
    · exact hmin y hy hysize

/-- **The walk finds the ranges under the trees**, and no others. -/
theorem exists_walkDown_iff {below : ℕ} {l : List ProvenCheckpoint} (hl : BySize l)
    (hbelow : ∀ x ∈ l, below ≤ x.treeSize) (q : CoveredRange) :
    (∃ r ∈ (walkDown firstSeq lastSeq below l).2, r.Same q) ↔ RangeUnder firstSeq lastSeq below l q := by
  induction l generalizing below with
  | nil =>
      constructor
      · rintro ⟨r, hr, -⟩
        exact absurd hr List.not_mem_nil
      · rintro ⟨-, x, hx, -⟩
        exact absurd hx List.not_mem_nil
  | cons entry larger ih =>
      obtain ⟨hle, hlarger⟩ := List.pairwise_cons.mp hl
      have hentry : below ≤ entry.treeSize := hbelow entry (List.mem_cons_self ..)
      obtain ⟨m, hm, hwalk⟩ := walkDown_cons firstSeq lastSeq below entry larger
      have hown := earliestFrom_of_isEarliest hl hm
      constructor
      · rintro ⟨r, hr, hsame⟩
        -- the first entry's own range, or one of a larger tree
        have hcases : (¬ min lastSeq ((entry.treeSize : ℤ) - 1) < max firstSeq below ∧
            r = ⟨max firstSeq below, min lastSeq (entry.treeSize - 1), m⟩) ∨
            r ∈ (walkDown firstSeq lastSeq entry.treeSize larger).2 := by
          rw [hwalk] at hr
          by_cases hempty : min lastSeq ((entry.treeSize : ℤ) - 1) < max firstSeq below
          · rw [if_pos hempty] at hr
            exact .inr hr
          · rw [if_neg hempty] at hr
            exact (List.mem_cons.mp hr).imp (fun h => ⟨hempty, h⟩) id
        rcases hcases with ⟨hnonempty, rfl⟩ | hr
        · refine ⟨?_, entry, List.mem_cons_self .., below, .inl rfl, fun y hy => .inr ?_, hsame.fromSeq.symm,
            hsame.toSeq.symm, ?_⟩
          · rw [← hsame.fromSeq, ← hsame.toSeq]
            exact not_lt.mp hnonempty
          · rcases List.mem_cons.mp hy with rfl | hy
            · exact le_refl _
            · exact hle y hy
          · rw [← hsame.treeSize, ← hsame.provenAt]
            exact hown
        · obtain ⟨hq, x, hx, b, hb, hbetween, hfrom, hto, hearliest⟩ := (ih hlarger hle).mp ⟨r, hr, hsame⟩
          have hbEntry : entry.treeSize ≤ b := by
            rcases hb with rfl | ⟨y, hy, rfl⟩
            · exact le_refl _
            · exact hle y hy
          have hbx : b < x.treeSize := by omega
          refine ⟨hq, x, List.mem_cons_of_mem _ hx, b, .inr ?_, fun y hy => ?_, hfrom, hto,
            (earliestFrom_cons (lt_of_le_of_lt hbEntry hbx)).mpr hearliest⟩
          · rcases hb with rfl | ⟨y, hy, rfl⟩
            · exact ⟨entry, List.mem_cons_self .., rfl⟩
            · exact ⟨y, List.mem_cons_of_mem _ hy, rfl⟩
          · rcases List.mem_cons.mp hy with rfl | hy
            · exact .inl hbEntry
            · exact hbetween y hy
      · rintro ⟨hq, x, hx, b, hb, hbetween, hfrom, hto, hearliest⟩
        have hbx : b < x.treeSize := by omega
        have hxEntry : entry.treeSize ≤ x.treeSize := by
          rcases List.mem_cons.mp hx with rfl | hx
          · exact le_refl _
          · exact hle x hx
        rcases hxEntry.eq_or_lt with heq | hlt
        · -- under the smallest tree: nothing of the list is below it
          have hbBelow : b = below := by
            rcases hb with rfl | ⟨y, hy, rfl⟩
            · rfl
            · have hyEntry : entry.treeSize ≤ y.treeSize := by
                rcases List.mem_cons.mp hy with rfl | hy
                · exact le_refl _
                · exact hle y hy
              omega
          subst hbBelow
          rw [← heq] at hto hearliest
          obtain ⟨hsize, htime⟩ := hown.unique hearliest
          have hnonempty : ¬ min lastSeq ((entry.treeSize : ℤ) - 1) < max firstSeq b := by omega
          refine ⟨⟨max firstSeq b, min lastSeq (entry.treeSize - 1), m⟩, ?_, hfrom.symm, hto.symm, hsize, htime⟩
          rw [hwalk, if_neg hnonempty]
          exact List.mem_cons_self ..
        · have hxLarger : x ∈ larger := by
            rcases List.mem_cons.mp hx with rfl | hx
            · exact absurd hlt (lt_irrefl _)
            · exact hx
          have hbEntry : entry.treeSize ≤ b := by
            rcases hbetween entry (List.mem_cons_self ..) with h | h
            · exact h
            · omega
          have hbLarger : b = entry.treeSize ∨ ∃ y ∈ larger, y.treeSize = b := by
            rcases hb with hbBelow | ⟨y, hy, hyb⟩
            · exact .inl (Nat.le_antisymm (hbBelow ▸ hentry) hbEntry)
            · rcases List.mem_cons.mp hy with rfl | hy
              · exact .inl hyb.symm
              · exact .inr ⟨y, hy, hyb⟩
          obtain ⟨r, hr, hsame⟩ := (ih hlarger hle).mpr ⟨hq, x, hxLarger, b, hbLarger,
            fun y hy => hbetween y (List.mem_cons_of_mem _ hy), hfrom, hto, (earliestFrom_cons hlt).mp hearliest⟩
          refine ⟨r, ?_, hsame⟩
          rw [hwalk]
          by_cases hempty : min lastSeq ((entry.treeSize : ℤ) - 1) < max firstSeq below
          · rw [if_pos hempty]
            exact hr
          · rw [if_neg hempty]
            exact List.mem_cons_of_mem _ hr

/-- What is under the trees does not depend on their order. -/
theorem RangeUnder.of_mem_iff {below : ℕ} {l k : List ProvenCheckpoint} (hsame : ∀ x, x ∈ l ↔ x ∈ k)
    {q : CoveredRange} (h : RangeUnder firstSeq lastSeq below l q) : RangeUnder firstSeq lastSeq below k q := by
  obtain ⟨hq, x, hx, b, hb, hbetween, hfrom, hto, ⟨e, he, hesize⟩, hmin⟩ := h
  exact ⟨hq, x, (hsame x).mp hx, b, hb.imp id fun ⟨y, hy, hyb⟩ => ⟨y, (hsame y).mp hy, hyb⟩,
    fun y hy => hbetween y ((hsame y).mpr hy), hfrom, hto, ⟨e, (hsame e).mp he, hesize⟩,
    fun y hy => hmin y ((hsame y).mpr hy)⟩

theorem timeErrorOf_congr {clockToleranceMs : ℤ} {receipts : List ReceivedReceipt} {q r : CoveredRange}
    (h : q.Same r) : timeErrorOf clockToleranceMs receipts q = timeErrorOf clockToleranceMs receipts r := by
  have hoffends : offends clockToleranceMs q = offends clockToleranceMs r := by
    funext receipt
    rw [offends, offends, h.fromSeq, h.toSeq, h.provenAt]
  have herror : ∀ index receipt, timeError index receipt q.earliest = timeError index receipt r.earliest := by
    intro index receipt
    rw [timeError, timeError, h.treeSize, h.provenAt]
  rw [timeErrorOf, timeErrorOf, hoffends]
  simp only [herror]

-- ── The errors of the order ──────────────────────────────────────────────────────

/-- An error of the order, and the largest time before it. -/
theorem mem_orderErrors_iff {best : Option ProvenCheckpoint} {l : List ProvenCheckpoint} {p : AnchorTimeProblem} :
    p ∈ orderErrors best l ↔ ∃ before entry after m, l = before ++ entry :: after ∧
      latest ProvenCheckpoint.provenAt best before = some m ∧ entry.provenAt < m.provenAt ∧
      p = orderError entry m := by
  induction l generalizing best with
  | nil =>
      rw [orderErrors]
      constructor
      · intro hp
        exact absurd hp List.not_mem_nil
      · rintro ⟨before, entry, after, m, hsplit, -⟩
        exact absurd hsplit.symm (List.append_ne_nil_of_right_ne_nil _ (List.cons_ne_nil _ _))
  | cons x rest ih =>
      -- the errors past the first entry, by what is the latest after it
      have hstep : ∀ next : Option ProvenCheckpoint,
          (∀ before, latest ProvenCheckpoint.provenAt best (x :: before) = latest ProvenCheckpoint.provenAt next before) →
          (p ∈ orderErrors next rest ↔ ∃ before entry after m, x :: rest = (x :: before) ++ entry :: after ∧
            latest ProvenCheckpoint.provenAt best (x :: before) = some m ∧ entry.provenAt < m.provenAt ∧
            p = orderError entry m) := by
        intro next hnext
        rw [ih]
        constructor
        · rintro ⟨before, entry, after, m, rfl, hm, h⟩
          exact ⟨before, entry, after, m, rfl, (hnext before).trans hm, h⟩
        · rintro ⟨before, entry, after, m, hsplit, hm, h⟩
          exact ⟨before, entry, after, m, (List.cons.inj hsplit).2, (hnext before).symm.trans hm, h⟩
      have hsplit : (∃ before entry after m, x :: rest = before ++ entry :: after ∧
            latest ProvenCheckpoint.provenAt best before = some m ∧ entry.provenAt < m.provenAt ∧
            p = orderError entry m) ↔
          (∃ m, best = some m ∧ x.provenAt < m.provenAt ∧ p = orderError x m) ∨
          ∃ before entry after m, x :: rest = (x :: before) ++ entry :: after ∧
            latest ProvenCheckpoint.provenAt best (x :: before) = some m ∧ entry.provenAt < m.provenAt ∧
            p = orderError entry m := by
        constructor
        · rintro ⟨before, entry, after, m, heq, hm, h⟩
          cases before with
          | nil =>
              obtain ⟨rfl, rfl⟩ := List.cons.inj heq
              rw [latest] at hm
              exact .inl ⟨m, hm, h⟩
          | cons b before =>
              obtain ⟨rfl, rfl⟩ := List.cons.inj heq
              exact .inr ⟨before, entry, after, m, rfl, hm, h⟩
        · rintro (⟨m, hm, h⟩ | ⟨before, entry, after, m, heq, h⟩)
          · exact ⟨[], x, rest, m, rfl, by rw [latest, hm], h⟩
          · exact ⟨x :: before, entry, after, m, heq, h⟩
      rw [hsplit]
      cases best with
      | none =>
          rw [orderErrors, hstep (some x) fun before => by rw [latest]]
          constructor
          · exact .inr
          · rintro (⟨m, hm, -⟩ | h)
            · exact absurd hm (by simp)
            · exact h
      | some best =>
          rw [orderErrors]
          by_cases hlt : x.provenAt < best.provenAt
          · rw [if_pos hlt, List.mem_cons, hstep (some best) fun before => by rw [latest, if_pos hlt]]
            refine or_congr_left ⟨fun h => ⟨best, rfl, hlt, h⟩, ?_⟩
            rintro ⟨m, hm, -, h⟩
            rw [h, Option.some.inj hm]
          · rw [if_neg hlt, hstep (some x) fun before => by rw [latest, if_neg hlt]]
            constructor
            · exact .inr
            · rintro (⟨m, hm, hlt', -⟩ | h)
              · exact absurd (Option.some.inj hm ▸ hlt') hlt
              · exact h

/-- **An error of the order**: an entry with an earlier time than the latest of those before it. -/
theorem mem_orderErrors_none_iff {l : List ProvenCheckpoint} {p : AnchorTimeProblem} :
    p ∈ orderErrors none l ↔ ∃ before entry after m, l = before ++ entry :: after ∧
      IsLatest ProvenCheckpoint.provenAt before m ∧ entry.provenAt < m.provenAt ∧ p = orderError entry m := by
  rw [mem_orderErrors_iff]
  simp only [latest_none_eq_some_iff]

/-- **Trees of one size agree**, told of the proven checkpoints. -/
def ProvenAgree (l : List ProvenCheckpoint) : Prop :=
  ∀ a ∈ l, ∀ b ∈ l, a.treeSize = b.treeSize → a.provenAt < b.provenAt →
    ∃ d ∈ l, d.treeSize < a.treeSize ∧ b.provenAt < d.provenAt

theorem orderError_congr {entry m n : ProvenCheckpoint} (hsize : m.treeSize = n.treeSize)
    (htime : m.provenAt = n.provenAt) : orderError entry m = orderError entry n := by
  rw [orderError, orderError, hsize, htime]

/-- Where an entry stands, the smaller trees are before it. -/
theorem BySize.mem_before {before after : List ProvenCheckpoint} {entry y : ProvenCheckpoint}
    (hl : BySize (before ++ entry :: after)) (hy : y ∈ before ++ entry :: after)
    (hlt : y.treeSize < entry.treeSize) : y ∈ before := by
  obtain ⟨-, hafter, -⟩ := List.pairwise_append.mp hl
  rcases List.mem_append.mp hy with hy | hy
  · exact hy
  · rcases List.mem_cons.mp hy with rfl | hy
    · exact absurd hlt (lt_irrefl _)
    · exact absurd ((List.pairwise_cons.mp hafter).1 y hy) (not_le.mpr hlt)

theorem BySize.le_of_mem_before {before after : List ProvenCheckpoint} {entry y : ProvenCheckpoint}
    (hl : BySize (before ++ entry :: after)) (hy : y ∈ before) : y.treeSize ≤ entry.treeSize :=
  (List.pairwise_append.mp hl).2.2 y hy entry (List.mem_cons_self ..)

/-- **A smaller tree that is younger is an error**, whatever else is attested. -/
theorem exists_orderError {l : List ProvenCheckpoint} (hl : BySize l) {a b : ProvenCheckpoint} (ha : a ∈ l)
    (hb : b ∈ l) (hsize : a.treeSize < b.treeSize) (htime : b.provenAt < a.provenAt) :
    ∃ p, p ∈ orderErrors none l := by
  obtain ⟨before, after, rfl⟩ := List.append_of_mem hb
  have habefore : a ∈ before := hl.mem_before ha hsize
  obtain ⟨m, hm⟩ := exists_isLatest (f := ProvenCheckpoint.provenAt) habefore
  exact ⟨_, mem_orderErrors_none_iff.mpr ⟨before, b, after, m, rfl, hm, htime.trans_le (hm.le habefore), rfl⟩⟩

/-- **The errors of the order, where trees of one size agree**: an entry is earlier than the latest of
    the smaller trees. -/
theorem mem_orderErrors_of_agree {l : List ProvenCheckpoint} (hl : BySize l) (hagree : ProvenAgree l)
    {p : AnchorTimeProblem} :
    p ∈ orderErrors none l ↔ ∃ e ∈ l, ∃ m ∈ l, m.treeSize < e.treeSize ∧ e.provenAt < m.provenAt ∧
      (∀ y ∈ l, y.treeSize < e.treeSize →
        y.provenAt ≤ m.provenAt ∧ (y.provenAt = m.provenAt → y.treeSize ≤ m.treeSize)) ∧ p = orderError e m := by
  rw [mem_orderErrors_none_iff]
  constructor
  · rintro ⟨before, e, after, m, rfl, hm, hlt, rfl⟩
    have hbefore : BySize before := (List.pairwise_append.mp hl).1
    have hmem : ∀ {y}, y ∈ before → y ∈ before ++ e :: after := fun hy => List.mem_append_left _ hy
    refine ⟨e, by simp, m, hmem hm.mem, ?_, hlt, fun y hy hsize => ?_, rfl⟩
    · rcases (hl.le_of_mem_before hm.mem).eq_or_lt with heq | hsize
      · -- a later time of a tree of the same size is not the latest
        obtain ⟨d, hd, hdsize, hdtime⟩ := hagree e (by simp) m (hmem hm.mem) heq.symm hlt
        exact absurd (hm.le (hl.mem_before hd hdsize)) (not_le.mpr hdtime)
      · exact hsize
    · have hybefore := hl.mem_before hy hsize
      exact ⟨hm.le hybefore, fun hsame => hm.key_le hbefore hybefore hsame⟩
  · rintro ⟨e, he, m, hm, hsize, hlt, hmax, rfl⟩
    obtain ⟨before, after, rfl⟩ := List.append_of_mem he
    have hbefore : BySize before := (List.pairwise_append.mp hl).1
    have hmbefore : m ∈ before := hl.mem_before hm hsize
    obtain ⟨n, hn⟩ := exists_isLatest (f := ProvenCheckpoint.provenAt) hmbefore
    have hmem : n ∈ before ++ e :: after := List.mem_append_left _ hn.mem
    have hle : m.provenAt ≤ n.provenAt := hn.le hmbefore
    have hnsize : n.treeSize < e.treeSize := by
      rcases (hl.le_of_mem_before hn.mem).eq_or_lt with heq | hlt'
      · obtain ⟨d, hd, hdsize, hdtime⟩ := hagree e he n hmem heq.symm (hlt.trans_le hle)
        exact absurd (hn.le (hl.mem_before hd hdsize)) (not_le.mpr hdtime)
      · exact hlt'
    have htime : m.provenAt = n.provenAt := le_antisymm hle (hmax n hmem hnsize).1
    have hsizes : m.treeSize = n.treeSize :=
      Nat.le_antisymm (hn.key_le hbefore hmbefore htime) ((hmax n hmem hnsize).2 htime.symm)
    exact ⟨before, e, after, n, rfl, hn, hlt.trans_le hle, orderError_congr hsizes htime⟩

end Sigillo
