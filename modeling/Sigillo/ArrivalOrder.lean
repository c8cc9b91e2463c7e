import Sigillo.RecordableSpans
import Sigillo.StableOrder

/-!
# The order of arrival

A batch is put in order by start and span identifier. Both may be those of another span too, of
another trace: such two keep the order they came in, and so does the chain. A batch is recorded the
same whatever order it arrives in exactly where it holds no such two (**`adaptSpans_arrival_iff`**). -/

namespace Sigillo

open DoubleArith Utf16Text JsonText JsonSchema HexBase64 IsoTime Fallible Otlp StableOrder

/-- What orders an action in its batch. -/
def OrderedAction.key (o : OrderedAction) : ℤ × JsString := (o.startUnixNano, o.spanId)

theorem orderedAction_le : OrdersBy OrderedAction.key OrderedAction.le where
  trans a b c hab hbc := by
    rw [OrderedAction.le] at hab hbc ⊢
    by_cases h₁ : a.startUnixNano = b.startUnixNano
    · rw [if_neg (not_not.mpr h₁)] at hab
      by_cases h₂ : b.startUnixNano = c.startUnixNano
      · rw [if_neg (not_not.mpr h₂)] at hbc
        rw [if_neg (not_not.mpr (h₁.trans h₂))]
        exact lexLe_trans hab hbc
      · rw [if_pos h₂] at hbc
        rwa [if_pos (h₁ ▸ h₂), h₁]
    · rw [if_pos h₁, decide_eq_true_iff] at hab
      by_cases h₂ : b.startUnixNano = c.startUnixNano
      · rw [if_pos (h₂ ▸ h₁), decide_eq_true_iff]
        exact h₂ ▸ hab
      · rw [if_pos h₂, decide_eq_true_iff] at hbc
        rw [if_pos (hab.trans hbc).ne, decide_eq_true_iff]
        exact hab.trans hbc
  total a b := by
    rw [OrderedAction.le, OrderedAction.le]
    rcases lt_trichotomy a.startUnixNano b.startUnixNano with h | h | h
    · rw [if_pos h.ne, decide_eq_true h, Bool.true_or]
    · rw [if_neg (not_not.mpr h), if_neg (not_not.mpr h.symm)]
      exact lexLe_total _ _
    · rw [if_pos h.ne', if_pos h.ne, decide_eq_true h, Bool.or_true]
  key_eq {a b} hab hba := by
    rw [OrderedAction.le] at hab hba
    by_cases h : a.startUnixNano = b.startUnixNano
    · rw [if_neg (not_not.mpr h)] at hab
      rw [if_neg (not_not.mpr h.symm)] at hba
      exact Prod.ext h (lexLe_antisymm hab hba)
    · rw [if_pos h, decide_eq_true_iff] at hab
      rw [if_pos (Ne.symm h), decide_eq_true_iff] at hba
      exact absurd hab hba.asymm
  of_key {a b c d} hac hbd := by
    obtain ⟨hastart, haspan⟩ := Prod.mk.inj hac
    obtain ⟨hbstart, hbspan⟩ := Prod.mk.inj hbd
    rw [OrderedAction.le, OrderedAction.le, hastart, haspan, hbstart, hbspan]

variable {u : Unicode}

-- ── What a span adds to its batch ────────────────────────────────────────────────

/-- What a span is adapted to, nothing where its start is no date. -/
def adaptedOf (u : Unicode) (span : OtlpSpan) : AdaptedSpan :=
  match adaptSpan u span with
  | .ok adapted => adapted
  | .error _ => ⟨none, []⟩

theorem adaptSpans_eq {spans : List OtlpSpan} (hdates : ∀ span ∈ spans, ∀ r, readSpan u span = some r → StartIsDate span) :
    adaptSpans u spans = .ok
      { actions := ((spans.filterMap fun s => recorded (adaptedOf u s)).mergeSort OrderedAction.le).map
          OrderedAction.toAdaptedAction
        ignored := (spans.filter fun s => (recorded (adaptedOf u s)).isNone).length
        unknown := (spans.flatMap fun s => (adaptedOf u s).unknown).dedup.mergeSort lexLe
        rawContentHashed := ((spans.filterMap fun s => (adaptedOf u s).action).map rawCount).sum } := by
  have hadapted : spans.mapM (adaptSpan u) = .ok (spans.map (adaptedOf u)) := by
    refine mapM_eq_ok.mpr (List.forall₂_map_right_iff.mpr (List.forall₂_same.mpr fun span hspan => ?_))
    obtain ⟨x, hx⟩ := adaptSpan_isOk.mpr (hdates span hspan)
    rw [adaptedOf, hx]
  rw [adaptSpans, hadapted]
  show Except.ok _ = Except.ok _
  rw [List.filterMap_map, List.filterMap_map, List.filter_map, List.length_map, List.flatMap_map]
  rfl

/-- **A span that is recorded as an action.** -/
def IsRecorded (u : Unicode) (span : OtlpSpan) : Prop :=
  ∃ r, readSpan u span = some r ∧ CONNECTION_PREFIX.isPrefixOf (cap r.name 256) = false

/-- The record of a span says when it started, and which span of which trace it was. -/
theorem recorded_adaptedOf {span : OtlpSpan} {o : OrderedAction} (h : recorded (adaptedOf u span) = some o) :
    IsRecorded u span ∧ o.key = (span.startUnixNano, span.spanId.1) ∧ o.source.traceId = some span.traceId.1 := by
  obtain ⟨haction, hown⟩ := recorded_eq_some.mp h
  rw [adaptedOf] at haction
  cases hspan : adaptSpan u span with
  | error e =>
      rw [hspan] at haction
      cases haction
  | ok x =>
      rw [hspan] at haction
      rcases adaptSpan_eq_ok hspan with ⟨-, hnone⟩ | ⟨r, hr, -, hrecord⟩
      · rw [hnone] at haction
        cases haction
      · rw [hrecord] at haction
        obtain rfl := Option.some.inj haction
        exact ⟨⟨r, hr, hown⟩, rfl, rfl⟩

theorem recorded_of_isRecorded {span : OtlpSpan} (h : IsRecorded u span) (hdate : StartIsDate span) :
    ∃ o, recorded (adaptedOf u span) = some o := by
  obtain ⟨r, hr, hown⟩ := h
  obtain ⟨x, hx⟩ := adaptSpan_isOk.mpr fun r' hr' => hdate
  rcases adaptSpan_eq_ok hx with ⟨hnone, -⟩ | ⟨r', hr', -, hrecord⟩
  · rw [hnone] at hr
    cases hr
  · obtain rfl := Option.some.inj (hr.symm.trans hr')
    refine ⟨r.record span (isoText (millisOf span.startUnixNano)), recorded_eq_some.mpr ⟨?_, hown⟩⟩
    rw [adaptedOf, hx]
    exact hrecord

-- ── Batches in another order ─────────────────────────────────────────────────────

/-- **No two actions of different traces share their start and span identifier.** -/
def NoSharedPlace (u : Unicode) (spans : List OtlpSpan) : Prop :=
  ∀ a ∈ spans, ∀ b ∈ spans, IsRecorded u a → IsRecorded u b → a.startUnixNano = b.startUnixNano →
    a.spanId = b.spanId → a.traceId = b.traceId

/-- Each action starts on a date. -/
def AllDated (u : Unicode) (spans : List OtlpSpan) : Prop :=
  ∀ span ∈ spans, ∀ r, readSpan u span = some r → StartIsDate span

/-- Spans that share no place are adapted the same in any order. -/
theorem adaptSpans_perm {spans arrived : List OtlpSpan}
    (hdistinct : (spans.map fun s => (s.traceId, s.spanId)).Nodup) (hperm : spans.Perm arrived)
    (hdates : AllDated u spans) (hplaces : NoSharedPlace u spans) : adaptSpans u arrived = adaptSpans u spans := by
  have hdates' : AllDated u arrived := fun span hspan => hdates span (hperm.mem_iff.mpr hspan)
  have hsorted : (arrived.filterMap fun s => recorded (adaptedOf u s)).mergeSort OrderedAction.le
      = (spans.filterMap fun s => recorded (adaptedOf u s)).mergeSort OrderedAction.le := by
    refine (mergeSort_of_perm orderedAction_le (hperm.filterMap _) fun a ha b hb hkey => ?_).symm
    obtain ⟨s, hs, hsa⟩ := List.mem_filterMap.mp ha
    obtain ⟨t, ht, htb⟩ := List.mem_filterMap.mp hb
    obtain ⟨hsrec, hskey, -⟩ := recorded_adaptedOf hsa
    obtain ⟨htrec, htkey, -⟩ := recorded_adaptedOf htb
    rw [hskey, htkey] at hkey
    obtain ⟨hstart, hid⟩ := Prod.mk.inj hkey
    have hspanId : s.spanId = t.spanId := Subtype.ext hid
    have htrace := hplaces s hs t ht hsrec htrec hstart hspanId
    have hsame : s = t := List.inj_on_of_nodup_map hdistinct hs ht (Prod.ext htrace hspanId)
    rw [hsame, htb] at hsa
    exact (Option.some.inj hsa).symm
  have hunknown : (arrived.flatMap fun s => (adaptedOf u s).unknown).dedup.mergeSort lexLe
      = (spans.flatMap fun s => (adaptedOf u s).unknown).dedup.mergeSort lexLe := by
    have hpairs : ∀ l : List JsString, (l.mergeSort lexLe).Pairwise fun a b => lexLe a b = true :=
      List.pairwise_mergeSort (fun a b d => lexLe_trans) lexLe_total
    refine (List.Perm.eq_of_pairwise (fun a b _ _ => lexLe_antisymm) (hpairs _) (hpairs _) ?_).symm
    exact (List.mergeSort_perm _ _).trans (((hperm.flatMap_right _).dedup).trans (List.mergeSort_perm _ _).symm)
  rw [adaptSpans_eq hdates, adaptSpans_eq hdates', hsorted, hunknown, (hperm.filter _).length_eq,
    ((hperm.filterMap _).map rawCount).sum_eq]

/-- Two actions of different traces that share their place are recorded in the order they arrive in. -/
theorem adaptSpans_swap {a b : OtlpSpan} {rest : List OtlpSpan} (hdates : AllDated u (a :: b :: rest))
    (ha : IsRecorded u a) (hb : IsRecorded u b) (hstart : a.startUnixNano = b.startUnixNano)
    (hid : a.spanId = b.spanId) (htrace : a.traceId ≠ b.traceId) :
    adaptSpans u (a :: b :: rest) ≠ adaptSpans u (b :: a :: rest) := by
  intro hboth
  have hperm : (a :: b :: rest).Perm (b :: a :: rest) := List.Perm.swap b a rest
  rw [adaptSpans_eq hdates, adaptSpans_eq fun span hspan => hdates span (hperm.mem_iff.mpr hspan)] at hboth
  have hactions := congrArg AdaptedBatch.actions (Except.ok.inj hboth)
  obtain ⟨r, hr, -⟩ := id ha
  obtain ⟨oa, hoa⟩ := recorded_of_isRecorded ha (hdates a List.mem_cons_self r hr)
  obtain ⟨r', hr', -⟩ := id hb
  obtain ⟨ob, hob⟩ := recorded_of_isRecorded hb (hdates b (List.mem_cons_of_mem _ List.mem_cons_self) r' hr')
  obtain ⟨-, hkeyA, htraceA⟩ := recorded_adaptedOf hoa
  obtain ⟨-, hkeyB, htraceB⟩ := recorded_adaptedOf hob
  simp only [List.filterMap_cons, hoa, hob] at hactions
  refine mergeSort_swap orderedAction_le ?_ ?_ ?_ hactions
  · intro x y hkey haction
    cases x
    cases y
    cases haction
    obtain ⟨hx, hy⟩ := Prod.mk.inj hkey
    cases hx
    cases hy
    rfl
  · rw [hkeyA, hkeyB, hstart, hid]
  · intro heq
    rw [heq, htraceB] at htraceA
    exact htrace (Subtype.ext (Option.some.inj htraceA).symm)

/-- **A batch is recorded the same in whatever order its spans arrive** exactly where no two of its actions, of
    different traces, share their start and span identifier. -/
theorem adaptSpans_arrival_iff (u : Unicode) {spans : List OtlpSpan}
    (hdistinct : (spans.map fun s => (s.traceId, s.spanId)).Nodup) :
    (∀ arrived, spans.Perm arrived → adaptSpans u arrived = adaptSpans u spans) ↔
      (AllDated u spans → NoSharedPlace u spans) := by
  constructor
  · intro hsame hdates a ha b hb hrecA hrecB hstart hid
    by_contra htrace
    obtain ⟨before, after, rfl⟩ := List.append_of_mem ha
    have hb' : b ∈ before ++ after := by
      rcases List.mem_append.mp hb with hb | hb
      · exact List.mem_append_left _ hb
      · rcases List.mem_cons.mp hb with rfl | hb
        · exact absurd rfl htrace
        · exact List.mem_append_right _ hb
    obtain ⟨rest, hrest⟩ : ∃ rest, (before ++ after).Perm (b :: rest) := by
      obtain ⟨l, m, hlm⟩ := List.append_of_mem hb'
      exact ⟨l ++ m, hlm ▸ List.perm_middle⟩
    have hfirst : (before ++ a :: after).Perm (a :: b :: rest) := List.perm_middle.trans (hrest.cons a)
    have hsecond : (before ++ a :: after).Perm (b :: a :: rest) := hfirst.trans (List.Perm.swap b a rest)
    exact adaptSpans_swap (fun span hspan => hdates span (hfirst.mem_iff.mpr hspan)) hrecA hrecB hstart hid htrace
      ((hsame _ hfirst).trans (hsame _ hsecond).symm)
  · intro h arrived hperm
    by_cases hdates : AllDated u spans
    · exact adaptSpans_perm hdistinct hperm hdates (h hdates)
    · -- neither order is adapted, and there is one way to fail
      have hfails : ∀ l : List OtlpSpan, ¬ AllDated u l → adaptSpans u l = .error .invalidTimeValue := by
        intro l hl
        cases hresult : adaptSpans u l with
        | error e =>
            cases e
            rfl
        | ok batch => exact absurd (adaptSpans_isOk.mp ⟨batch, hresult⟩) hl
      rw [hfails spans hdates, hfails arrived fun hall => hdates fun span hspan => hall span (hperm.mem_iff.mp hspan)]

/-- The same call in another trace. -/
def otherTraceSpan : OtlpSpan := { unnamedSpan with traceId := ⟨List.replicate 32 0x32, by decide⟩ }

/-- That call a nanosecond later. -/
def laterSpan : OtlpSpan := { otherTraceSpan with startUnixNano := 2 }

/-- Two calls of two traces under one span identifier, one after the other, are recorded the same
    whichever of them arrives first. -/
theorem adaptSpans_arrival_two :
    adaptSpans ⟨id, id, id⟩ [laterSpan, unnamedSpan] = adaptSpans ⟨id, id, id⟩ [unnamedSpan, laterSpan] := by
  have hstarts : ∀ a ∈ [unnamedSpan, laterSpan], ∀ b ∈ [unnamedSpan, laterSpan],
      a.startUnixNano = b.startUnixNano → a.traceId = b.traceId := by decide
  have hnodup : ([unnamedSpan, laterSpan].map fun s => (s.traceId, s.spanId)).Nodup := by decide
  refine (adaptSpans_arrival_iff ⟨id, id, id⟩ hnodup).mpr ?_ _ (List.Perm.swap ..)
  exact fun _ a ha b hb _ _ hstart _ => hstarts a ha b hb hstart

/-- **Two traces' spans with one start and one span identifier** stand in the chain in the order they arrived. -/
theorem adaptSpans_arrival_swapped : ¬ ∀ (u : Unicode) (spans arrived : List OtlpSpan),
    (spans.map fun s => (s.traceId, s.spanId)).Nodup → spans.Perm arrived →
      adaptSpans u arrived = adaptSpans u spans := by
  intro h
  have hboth := h ⟨id, id, id⟩ [unnamedSpan, otherTraceSpan] [otherTraceSpan, unnamedSpan] (by decide)
    (List.Perm.swap _ _ _)
  have hdates : AllDated ⟨id, id, id⟩ [unnamedSpan, otherTraceSpan] := by
    intro span hspan r _
    have hstart : span.startUnixNano = 1 := by
      rcases List.mem_cons.mp hspan with rfl | hspan
      · rfl
      · exact List.mem_singleton.mp hspan ▸ rfl
    rw [StartIsDate, hstart]
    decide
  exact adaptSpans_swap hdates ⟨readGenAi unnamedSpan, rfl, by decide⟩ ⟨readGenAi otherTraceSpan, rfl, by decide⟩ rfl rfl
    (by decide) hboth.symm

end Sigillo
