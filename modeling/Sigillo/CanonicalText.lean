import Sigillo.DocumentText
import Sigillo.ScalarText
import Sigillo.NormalForm
import Sigillo.SpacedWords

/-!
# The canonical text is a normal form

`sigillo-text/1` takes characters out, composes what is left, makes one space of every run of white space
and trims. None of the steps makes new work for another: no composition crosses white space, so the rule
composes a text word by word (**`canonicalOf_eq`**), and two texts with the same words have one canonical
text (**`canonicalText_normal`**). -/

namespace Sigillo

open Utf16Text JsonText NormalForm SpacedWords

-- ── White space ──────────────────────────────────────────────────────────────────

/-- What is left of a run of white space at the end, until it is trimmed. -/
def endSpace (s : JsString) : JsString := if s.getLast?.any isWhiteSpace then [0x20] else []

/-- Blanks at the end, before another unit. -/
theorem endSpace_cons (v u : UInt16) (s : JsString) : endSpace (v :: u :: s) = endSpace (u :: s) := by
  rw [endSpace, endSpace, List.getLast?_cons_cons]

/-- A run of blanks becomes one. -/
theorem endSpace_white {s : JsString} (h : ∀ u ∈ s, isWhiteSpace u = true) (hne : s ≠ []) : endSpace s = [0x20] := by
  cases hlast : s.getLast? with
  | none => exact absurd (List.getLast?_eq_none_iff.mp hlast) hne
  | some u =>
      rw [endSpace, hlast, Option.any_some, h u (List.mem_of_getLast? hlast)]
      rfl

/-- Collapsing white space, `word` read so far, and right after a space. -/
theorem collapseSpaces_words (s : JsString) :
    (∀ word, word ≠ [] → word ++ collapseSpaces false s = spaced 0x20 (wordsFrom isWhiteSpace word s) ++ endSpace s) ∧
    collapseSpaces true s = if words isWhiteSpace s = [] then [] else
      spaced 0x20 (words isWhiteSpace s) ++ endSpace s := by
  induction s with
  | nil =>
      refine ⟨fun word hword => ?_, rfl⟩
      show word ++ [] = spaced 0x20 (pending word) ++ []
      rw [pending_of_ne_nil hword]
      rfl
  | cons u s ih =>
      cases hu : isWhiteSpace u with
      | true =>
          have hfalse : collapseSpaces false (u :: s) = 0x20 :: collapseSpaces true s := by
            rw [collapseSpaces, hu]
            rfl
          have htrue : collapseSpaces true (u :: s) = collapseSpaces true s := by
            rw [collapseSpaces, hu]
            rfl
          have hend : words isWhiteSpace s ≠ [] → endSpace (u :: s) = endSpace s := by
            intro hne
            cases s with
            | nil => exact absurd rfl hne
            | cons v s => exact endSpace_cons u v s
          refine ⟨fun word hword => ?_, ?_⟩
          · rw [hfalse, ih.2, wordsFrom_blank hu, pending_of_ne_nil hword]
            by_cases hnone : words isWhiteSpace s = []
            · have hall : ∀ v ∈ u :: s, isWhiteSpace v = true :=
                List.forall_mem_cons.mpr ⟨hu, blanks_of_words hnone⟩
              rw [if_pos hnone, hnone, endSpace_white hall (List.cons_ne_nil _ _)]
              rfl
            · rw [if_neg hnone, hend hnone, List.singleton_append, spaced_cons hnone, List.append_assoc]
              rfl
          · rw [htrue, ih.2, words_cons_blank hu]
            split_ifs with hnone
            · rfl
            · rw [hend hnone]
      | false =>
          have hcons : ∀ inRun, collapseSpaces inRun (u :: s) = u :: collapseSpaces false s := fun inRun => by
            rw [collapseSpaces, hu]
            rfl
          have hend : endSpace (u :: s) = endSpace s := by
            cases s with
            | nil =>
                show (if isWhiteSpace u = true then [0x20] else []) = []
                rw [hu]
                rfl
            | cons v s => exact endSpace_cons u v s
          have hword : ∀ word : JsString, word ++ u :: collapseSpaces false s
              = spaced 0x20 (wordsFrom isWhiteSpace (word ++ [u]) s) ++ endSpace s := fun word => by
            rw [← ih.1 (word ++ [u]) (by simp), List.append_assoc]
            rfl
          refine ⟨fun word _ => ?_, ?_⟩
          · rw [hcons, wordsFrom_cons hu, hend]
            exact hword word
          · rw [hcons, words_cons hu, hend, if_neg (wordsFrom_ne_nil (List.cons_ne_nil _ _) s)]
            exact hword []

/-- The end of a collapsed text, trimmed. -/
theorem trimmedEnd {ws : List JsString} (hws : ∀ w ∈ ws, IsWord isWhiteSpace w) (s : JsString) :
    (if (spaced 0x20 ws ++ endSpace s).getLast? = some 0x20 then (spaced 0x20 ws ++ endSpace s).dropLast
      else spaced 0x20 ws ++ endSpace s) = spaced 0x20 ws := by
  unfold endSpace
  split_ifs with hend hlast hlast
  · exact List.dropLast_concat
  · exact absurd List.getLast?_concat hlast
  · rw [List.append_nil] at hlast
    have := getLast_spaced (by decide) hws hlast
    exact absurd this (by decide)
  · exact List.append_nil _

/-- **Collapsed and trimmed, a text is its words with a space between them.** -/
theorem trimSpaces_collapseSpaces (s : JsString) :
    trimSpaces (collapseSpaces false s) = spaced 0x20 (words isWhiteSpace s) := by
  have hws : ∀ w ∈ words isWhiteSpace s, IsWord isWhiteSpace w := fun w hw => isWord_of_mem hw
  cases s with
  | nil => rfl
  | cons u s =>
      cases hu : isWhiteSpace u with
      | true =>
          rw [words_cons_blank hu] at hws ⊢
          have hfalse : collapseSpaces false (u :: s) = 0x20 :: collapseSpaces true s := by
            rw [collapseSpaces, hu]
            rfl
          rw [hfalse, (collapseSpaces_words s).2]
          split_ifs with hnone
          · rw [hnone]
            rfl
          · exact trimmedEnd hws s
      | false =>
          have hfalse : collapseSpaces false (u :: s) = [u] ++ collapseSpaces false s := by
            rw [collapseSpaces, hu]
            rfl
          rw [words_cons hu] at hws ⊢
          have hsplit := (collapseSpaces_words s).1 [u] (List.cons_ne_nil _ _)
          have hhead : ([u] ++ collapseSpaces false s).head? ≠ some 0x20 := by
            intro h
            obtain rfl := Option.some.inj h
            exact absurd hu (by decide)
          rw [hfalse, trimSpaces, if_neg hhead]
          show (if ([u] ++ collapseSpaces false s).getLast? = some 0x20
            then ([u] ++ collapseSpaces false s).dropLast else [u] ++ collapseSpaces false s) = _
          rw [hsplit]
          exact trimmedEnd hws s

-- ── Characters ───────────────────────────────────────────────────────────────────

/-- A code point that is a unit of text, and passes a test of units. -/
def atPoint (test : UInt16 → Bool) (cp : ℕ) : Bool := decide (cp < 0x10000) && test cp.toUInt16

/-- A test at a unit's code point is the test. -/
theorem atPoint_toNat (test : UInt16 → Bool) (u : UInt16) : atPoint test u.toNat = test u := by
  have hlt : u.toNat < 0x10000 := u.toNat_lt
  have hback : u.toNat.toUInt16 = u := UInt16.toNat_inj.mp (toUInt16_toNat hlt)
  rw [atPoint, hback, decide_eq_true hlt, Bool.true_and]

/-- A code point that passes is a unit that does. -/
theorem exists_of_atPoint {test : UInt16 → Bool} {cp : ℕ} (h : atPoint test cp = true) :
    ∃ u, test u = true ∧ u.toNat = cp := by
  rw [atPoint, Bool.and_eq_true, decide_eq_true_eq] at h
  exact ⟨cp.toUInt16, h.2, toUInt16_toNat h.1⟩

/-- A blank is a plain unit. -/
theorem isWhiteSpace_plain {u : UInt16} (h : isWhiteSpace u = true) : Plain u := by
  have hlow : u.toNat < 0xD800 := by
    simp only [isWhiteSpace, Bool.or_eq_true, Bool.and_eq_true, decide_eq_true_eq, beq_iff_eq, UInt16.le_iff_toNat_le,
      ← UInt16.toNat_inj] at h
    simp only [UInt16.reduceToNat] at h
    omega
  constructor
  · rw [← Bool.not_eq_true, isHigh_iff]
    omega
  · rw [← Bool.not_eq_true, isLow_iff]
    omega

/-- What is removed is a plain unit. -/
theorem isRemoved_plain {u : UInt16} (h : isRemoved u = true) : Plain u := by
  simp only [isRemoved, Bool.or_eq_true, beq_iff_eq] at h
  rcases h with ((rfl | rfl) | rfl) | rfl <;> decide

/-- No blank is removed. -/
theorem isRemoved_of_white {u : UInt16} (h : isWhiteSpace u = true) : isRemoved u = false := by
  rw [← Bool.not_eq_true]
  intro hr
  simp only [isRemoved, Bool.or_eq_true, beq_iff_eq] at hr
  rcases hr with ((rfl | rfl) | rfl) | rfl <;> exact absurd h (by decide)

/-- A text, as its characters. -/
abbrev IsScalar (cp : ℕ) : Prop := cp < 0x110000 ∧ isSurrogate cp = false

section
variable {test : UInt16 → Bool} (htest : ∀ u, test u = true → Plain u)
include htest

/-- The units of a character: none where it is tested for, else all of them. -/
theorem filter_unitsOf {cp : ℕ} (h : IsScalar cp) :
    (unitsOf cp).filter (fun u => !test u) = if atPoint test cp then [] else unitsOf cp := by
  rcases unitsOf_cases h.1 h.2 with ⟨u, hunits, -, rfl⟩ | ⟨hi, lo, hunits, hhi, hlo, rfl⟩
  · rw [hunits, atPoint_toNat]
    cases hu : test u with
    | true => simp [hu]
    | false => simp [hu]
  · -- neither half of a pair is tested for, and a pair is past the units
    have hhi' : test hi = false := by
      rw [← Bool.not_eq_true]
      intro ht
      rw [(htest hi ht).1] at hhi
      cases hhi
    have hlo' : test lo = false := by
      rw [← Bool.not_eq_true]
      intro ht
      rw [(htest lo ht).2] at hlo
      cases hlo
    have hpast : atPoint test (pairPoint hi lo) = false := by
      have hbig : ¬ pairPoint hi lo < 0x10000 := by
        unfold pairPoint
        omega
      rw [atPoint, decide_eq_false hbig, Bool.false_and]
    rw [hunits, hpast]
    simp [hhi', hlo']

/-- Units are filtered as their code points are. -/
theorem filter_flatMap_unitsOf {l : List ℕ} (h : ∀ cp ∈ l, IsScalar cp) :
    (l.flatMap unitsOf).filter (fun u => !test u) = (Tables.without (atPoint test) l).flatMap unitsOf := by
  induction l with
  | nil => rfl
  | cons cp l ih =>
      obtain ⟨hcp, hrest⟩ := List.forall_mem_cons.mp h
      rw [List.flatMap_cons, List.filter_append, filter_unitsOf htest hcp, ih hrest]
      cases hat : atPoint test cp with
      | true => simp [Tables.without, hat]
      | false => simp [Tables.without, hat]

/-- A plain unit is in a text where its character is. -/
theorem any_flatMap_unitsOf {l : List ℕ} (h : ∀ cp ∈ l, IsScalar cp) :
    (∀ u ∈ l.flatMap unitsOf, test u = false) ↔ ∀ cp ∈ l, atPoint test cp = false := by
  have hfilter := filter_flatMap_unitsOf htest h
  constructor
  · intro hnone cp hcp
    have hunits : ∀ u ∈ unitsOf cp, test u = false := fun u hu =>
      hnone u (List.mem_flatMap.mpr ⟨cp, hcp, hu⟩)
    rw [← Bool.not_eq_true]
    intro hat
    have hkept := List.filter_eq_self.mpr fun u hu => by
      show (!test u) = true
      rw [hunits u hu]
      rfl
    rw [filter_unitsOf htest (h cp hcp), if_pos hat] at hkept
    rcases unitsOf_cases (h cp hcp).1 (h cp hcp).2 with ⟨u, hu, -⟩ | ⟨hi, lo, hu, -⟩
    · rw [hu] at hkept
      cases hkept
    · rw [hu] at hkept
      cases hkept
  · intro hnone u hu
    obtain ⟨cp, hcp, hu⟩ := List.mem_flatMap.mp hu
    have hkept := filter_unitsOf htest (h cp hcp)
    rw [hnone cp hcp, if_neg (by decide)] at hkept
    have := List.filter_eq_self.mp hkept u hu
    rwa [Bool.not_eq_true'] at this

end

-- ── The tables of Unicode ────────────────────────────────────────────────────────

/-- What Unicode says of scalar values, of white space and of the four characters taken out: none of them
    takes part in a composition. -/
structure IsUnicode (T : Tables ℕ) : Prop where
  scalar_decompose : ∀ a b, IsScalar a → b ∈ T.decompose a → IsScalar b
  scalar_compose : ∀ a b c, IsScalar a → IsScalar b → T.compose a b = some c → IsScalar c
  /-- U+2000 and U+2001 are U+2002 and U+2003, every other one itself. -/
  white : ∀ w, isWhiteSpace w = true → ∃ w', isWhiteSpace w' = true ∧ T.decompose w.toNat = [w'.toNat] ∧
    Tables.Boundary T w'.toNat
  white_only : ∀ a b, atPoint isWhiteSpace b = true → b ∈ T.decompose a → atPoint isWhiteSpace a = true
  removed : Tables.Separate T (atPoint isRemoved)

/-- `String.prototype.normalize("NFC")` is the composed form of the text's characters. -/
def IsNfc (u : Unicode) (T : Tables ℕ) : Prop :=
  ∀ s, isWellFormed s = true → u.normalize s = (T.composed (points s)).flatMap unitsOf

variable {u : Unicode} {T : Tables ℕ}

/-- The code points of well-formed text are scalar values. -/
theorem scalar_points {s : JsString} (h : isWellFormed s = true) : ∀ cp ∈ points s, IsScalar cp := fun cp hcp =>
  ⟨points_lt cp hcp, by simpa using List.all_eq_true.mp h cp hcp⟩

/-- Composing keeps scalar values. -/
theorem IsUnicode.scalar_composed (hT : IsUnicode T) {l : List ℕ} (h : ∀ cp ∈ l, IsScalar cp) :
    ∀ cp ∈ T.composed l, IsScalar cp :=
  Tables.forall_composed hT.scalar_compose hT.scalar_decompose h

/-- Normalizing composes the code points. -/
theorem points_normalize (hu : IsNfc u T) (hT : IsUnicode T) {s : JsString} (h : isWellFormed s = true) :
    points (u.normalize s) = T.composed (points s) := by
  rw [hu s h]
  exact points_flatMap_unitsOf (hT.scalar_composed (scalar_points h))

/-- Normalizing keeps text well-formed. -/
theorem isWellFormed_normalize (hu : IsNfc u T) (hT : IsUnicode T) {s : JsString} (h : isWellFormed s = true) :
    isWellFormed (u.normalize s) = true := by
  rw [hu s h]
  exact isWellFormed_flatMap_unitsOf (hT.scalar_composed (scalar_points h))

/-- What was normalized stays. -/
theorem normalize_normalize (hu : IsNfc u T) (hT : IsUnicode T) {s : JsString} (h : isWellFormed s = true) :
    u.normalize (u.normalize s) = u.normalize s := by
  rw [hu _ (isWellFormed_normalize hu hT h), points_normalize hu hT h, Tables.composed_composed, hu s h]

/-- **White space keeps what is before it from what is behind it.** -/
theorem normalize_white (hu : IsNfc u T) (hT : IsUnicode T) {a b : JsString} {w : UInt16}
    (hw : isWhiteSpace w = true) (h : isWellFormed (a ++ w :: b) = true) :
    isWellFormed a = true ∧ isWellFormed b = true ∧
      ∃ w', isWhiteSpace w' = true ∧ u.normalize (a ++ w :: b) = u.normalize a ++ w' :: u.normalize b := by
  have hplain := isWhiteSpace_plain hw
  have ha : isWellFormed a = true := scalars_iff.mp ((scalars_iff.mpr h).before hplain rfl)
  have hb : isWellFormed b = true := scalars_iff.mp ((scalars_iff.mpr h).after hplain rfl)
  obtain ⟨w', hw', hdec, hboundary⟩ := hT.white w hw
  have hpoints : points (a ++ w :: b) = points a ++ w.toNat :: points b := by
    have hscalar : ∀ cp ∈ points a ++ w.toNat :: points b, IsScalar cp :=
      List.forall_mem_append.mpr ⟨scalar_points ha, List.forall_mem_cons.mpr
        ⟨⟨Nat.lt_trans w.toNat_lt (by decide), hplain.isSurrogate⟩, scalar_points hb⟩⟩
    have hback := points_flatMap_unitsOf hscalar
    rwa [List.flatMap_append, List.flatMap_cons, flatMap_unitsOf_points, flatMap_unitsOf_points, unitsOf_toNat]
      at hback
  refine ⟨ha, hb, w', hw', ?_⟩
  rw [hu _ h, hpoints, Tables.composed_boundary hdec hboundary, List.flatMap_append, List.flatMap_cons,
    unitsOf_toNat, hu a ha, hu b hb]
  rfl

/-- What the composed text is tested for, its characters are. -/
theorem normalize_none {test : UInt16 → Bool} (htest : ∀ v, test v = true → Plain v)
    (hback : ∀ c, atPoint test c = true → ∃ b ∈ T.decompose c, ∀ a, b ∈ T.decompose a → atPoint test a = true)
    (hu : IsNfc u T) (hT : IsUnicode T) {s : JsString} (h : isWellFormed s = true)
    (hs : ∀ v ∈ s, test v = false) : ∀ v ∈ u.normalize s, test v = false := by
  rw [hu s h]
  refine (any_flatMap_unitsOf htest (hT.scalar_composed (scalar_points h))).mpr fun c hc => ?_
  rw [← Bool.not_eq_true]
  intro hat
  obtain ⟨b, hb, honly⟩ := hback c hat
  obtain ⟨a, ha, hab⟩ := Tables.mem_composed hc hb
  have hnone := (any_flatMap_unitsOf htest (scalar_points h)).mp (by rwa [flatMap_unitsOf_points]) a ha
  rw [honly a hab] at hnone
  cases hnone

/-- A scalar value has a unit. -/
theorem unitsOf_ne_nil {cp : ℕ} (h : IsScalar cp) : unitsOf cp ≠ [] := by
  rcases unitsOf_cases h.1 h.2 with ⟨v, hv, -⟩ | ⟨hi, lo, hv, -⟩
  · rw [hv]
    exact List.cons_ne_nil _ _
  · rw [hv]
    exact List.cons_ne_nil _ _

/-- A word is composed to a word. -/
theorem isWord_normalize (hu : IsNfc u T) (hT : IsUnicode T) {s : JsString} (h : isWellFormed s = true)
    (hs : IsWord isWhiteSpace s) : IsWord isWhiteSpace (u.normalize s) := by
  constructor
  · rw [hu s h]
    intro hnil
    have hpoints : points s ≠ [] := fun hempty => hs.ne_nil (by rw [← flatMap_unitsOf_points s, hempty]; rfl)
    obtain ⟨c, hc⟩ := List.exists_mem_of_ne_nil _ (Tables.composed_ne_nil hpoints)
    exact unitsOf_ne_nil (hT.scalar_composed (scalar_points h) c hc) (List.flatMap_eq_nil_iff.mp hnil c hc)
  · refine normalize_none (fun _ => isWhiteSpace_plain) (fun c hc => ?_) hu hT h hs.solid
    obtain ⟨w, hw, rfl⟩ := exists_of_atPoint hc
    obtain ⟨w', hw', hdec, -⟩ := hT.white w hw
    refine ⟨w'.toNat, by rw [hdec]; exact List.mem_singleton_self _, fun a ha => ?_⟩
    exact hT.white_only a w'.toNat (by rw [atPoint_toNat, hw']) ha

/-- Nothing that is taken out comes back. -/
theorem removed_normalize (hu : IsNfc u T) (hT : IsUnicode T) {s : JsString} (h : isWellFormed s = true)
    (hs : ∀ v ∈ s, isRemoved v = false) : ∀ v ∈ u.normalize s, isRemoved v = false :=
  normalize_none (fun _ => isRemoved_plain)
    (fun c hc => ⟨c, by rw [hT.removed.alone c hc]; exact List.mem_singleton_self _,
      fun a ha => hT.removed.only a c hc ha⟩) hu hT h hs

/-- **Induction over a text cut at its white space.** -/
theorem cut_induct {P : JsString → Prop} (nil : P [])
    (word : ∀ s, isWellFormed s = true → IsWord isWhiteSpace s → P s)
    (cut : ∀ a w b, isWellFormed (a ++ w :: b) = true → isWhiteSpace w = true → P a → P b → P (a ++ w :: b))
    {s : JsString} (h : isWellFormed s = true) : P s := by
  induction hn : s.length using Nat.strong_induction_on generalizing s with
  | _ n ih =>
      by_cases hwhite : ∃ w ∈ s, isWhiteSpace w = true
      · -- both parts are well-formed text, and shorter
        obtain ⟨w, hmem, hw⟩ := hwhite
        obtain ⟨a, b, rfl⟩ := List.append_of_mem hmem
        have hplain := isWhiteSpace_plain hw
        have ha := scalars_iff.mp ((scalars_iff.mpr h).before hplain rfl)
        have hb := scalars_iff.mp ((scalars_iff.mpr h).after hplain rfl)
        rw [List.length_append, List.length_cons] at hn
        exact cut a w b h hw (ih a.length (by omega) ha rfl) (ih b.length (by omega) hb rfl)
      · have hsolid : ∀ v ∈ s, isWhiteSpace v = false := fun v hv =>
          Bool.eq_false_iff.mpr fun hv' => hwhite ⟨v, hv, hv'⟩
        by_cases hne : s = []
        · rw [hne]
          exact nil
        · exact word s h ⟨hne, hsolid⟩

/-- **The words of a composed text** are those of the text, composed. -/
theorem words_normalize (hu : IsNfc u T) (hT : IsUnicode T) {s : JsString} (h : isWellFormed s = true) :
    words isWhiteSpace (u.normalize s) = (words isWhiteSpace s).map u.normalize := by
  refine cut_induct (P := fun s => words isWhiteSpace (u.normalize s) = (words isWhiteSpace s).map u.normalize)
    ?_ ?_ ?_ h
  · rw [hu [] rfl]
    rfl
  · intro s hs hword
    rw [hword.words, (isWord_normalize hu hT hs hword).words]
    rfl
  · intro a w b hs hw ha hb
    obtain ⟨-, -, w', hw', heq⟩ := normalize_white hu hT hw hs
    rw [heq, words_append_blank hw', words_append_blank hw, List.map_append, ha, hb]

/-- The words of well-formed text are. -/
theorem isWellFormed_words {s : JsString} (h : isWellFormed s = true) :
    ∀ w ∈ words isWhiteSpace s, isWellFormed w = true := by
  refine cut_induct (P := fun s => ∀ w ∈ words isWhiteSpace s, isWellFormed w = true) ?_ ?_ ?_ h
  · exact List.forall_mem_nil _
  · intro s hs hword w hw
    rw [hword.words] at hw
    rwa [List.mem_singleton.mp hw]
  · intro a w b _ hw ha hb
    rw [words_append_blank hw]
    exact List.forall_mem_append.mpr ⟨ha, hb⟩

-- ── The rule, word by word ───────────────────────────────────────────────────────

/-- A text without the characters that are taken out. -/
def visible (s : JsString) : JsString := s.filter fun unit => !isRemoved unit

/-- What is visible of well-formed text is, code point by code point. -/
theorem points_visible {s : JsString} (h : isWellFormed s = true) :
    isWellFormed (visible s) = true ∧ points (visible s) = Tables.without (atPoint isRemoved) (points s) := by
  have hscalar : ∀ cp ∈ Tables.without (atPoint isRemoved) (points s), IsScalar cp := fun cp hcp =>
    scalar_points h cp (List.mem_filter.mp hcp).1
  have hsplit := filter_flatMap_unitsOf (fun _ => isRemoved_plain) (scalar_points h)
  rw [flatMap_unitsOf_points] at hsplit
  rw [visible, hsplit]
  exact ⟨isWellFormed_flatMap_unitsOf hscalar, points_flatMap_unitsOf hscalar⟩

/-- **The canonical text is made word by word.** -/
theorem canonicalOf_eq (hu : IsNfc u T) (hT : IsUnicode T) {s : JsString} (h : isWellFormed s = true) :
    canonicalOf u s = spaced 0x20 ((words isWhiteSpace (visible s)).map u.normalize) := by
  rw [canonicalOf, trimSpaces_collapseSpaces, ← words_normalize hu hT (points_visible h).1]
  rfl

-- ── A normal form ────────────────────────────────────────────────────────────────

/-- Well-formed words with blanks between them are. -/
theorem isWellFormed_spaced {ws : List JsString} (h : ∀ w ∈ ws, isWellFormed w = true) :
    isWellFormed (spaced 0x20 ws) = true := by
  induction ws with
  | nil => rfl
  | cons w rest ih =>
      obtain ⟨hw, hrest⟩ := List.forall_mem_cons.mp h
      cases rest with
      | nil => exact hw
      | cons next rest =>
          rw [spaced_cons (List.cons_ne_nil _ _)]
          exact scalars_iff.mp ((scalars_iff.mpr hw).append (.unit (by decide) (scalars_iff.mpr (ih hrest))))

/-- **Of a canonical text the rule leaves everything as it is.** -/
theorem canonicalOf_canonicalOf (hu : IsNfc u T) (hT : IsUnicode T) {s : JsString} (h : isWellFormed s = true) :
    isWellFormed (canonicalOf u s) = true ∧ canonicalOf u (canonicalOf u s) = canonicalOf u s := by
  have hvisible := (points_visible h).1
  -- what is known of the words of a canonical text
  have hwords : ∀ w ∈ (words isWhiteSpace (visible s)).map u.normalize, isWellFormed w = true ∧
      IsWord isWhiteSpace w ∧ (∀ v ∈ w, isRemoved v = false) ∧ u.normalize w = w := by
    intro w hw
    obtain ⟨w, hmem, rfl⟩ := List.mem_map.mp hw
    have hwell := isWellFormed_words hvisible w hmem
    refine ⟨isWellFormed_normalize hu hT hwell, isWord_normalize hu hT hwell (isWord_of_mem hmem),
      removed_normalize hu hT hwell fun v hv => ?_, normalize_normalize hu hT hwell⟩
    have hkept := (List.mem_filter.mp (mem_of_mem_words hmem hv)).2
    rwa [Bool.not_eq_true'] at hkept
  rw [canonicalOf_eq hu hT h]
  have hwell := isWellFormed_spaced fun w hw => (hwords w hw).1
  refine ⟨hwell, ?_⟩
  have hsame : visible (spaced 0x20 ((words isWhiteSpace (visible s)).map u.normalize))
      = spaced 0x20 ((words isWhiteSpace (visible s)).map u.normalize) := by
    refine List.filter_eq_self.mpr fun v hv => ?_
    rw [Bool.not_eq_true']
    rcases mem_spaced hv with rfl | ⟨w, hw, hv⟩
    · decide
    · exact (hwords w hw).2.2.1 v hv
  rw [canonicalOf_eq hu hT hwell, hsame, words_spaced (by decide) fun w hw => (hwords w hw).2.1]
  congr 1
  exact (List.map_congr_left fun w hw => (hwords w hw).2.2.2).trans (List.map_id _)

/-- **Texts that are one document**: the second is the first with characters put in that the rule takes out,
    or taken out, with another run of white space for one of its own, with white space at its ends, or
    written with canonically equivalent characters. -/
inductive Respelled (T : Tables ℕ) : JsString → JsString → Prop
  | removed (s t : JsString) (h : visible s = visible t) : Respelled T s t
  | run (front run other back : JsString) (hrun : ∀ v ∈ run, isWhiteSpace v = true) (hne : run ≠ [])
      (hother : ∀ v ∈ other, isWhiteSpace v = true) (hother_ne : other ≠ []) :
      Respelled T (front ++ run ++ back) (front ++ other ++ back)
  | ends (front s back : JsString) (hfront : ∀ v ∈ front, isWhiteSpace v = true)
      (hback : ∀ v ∈ back, isWhiteSpace v = true) : Respelled T s (front ++ s ++ back)
  | equivalent (s t : JsString) (h : T.canonical (points s) = T.canonical (points t)) : Respelled T s t

/-- Part by part. -/
theorem visible_append (s t : JsString) : visible (s ++ t) = visible s ++ visible t := List.filter_append ..

/-- Blanks are visible. -/
theorem visible_white {run : JsString} (h : ∀ v ∈ run, isWhiteSpace v = true) : visible run = run :=
  List.filter_eq_self.mpr fun v hv => by rw [isRemoved_of_white (h v hv)]; rfl

/-- **Respelled texts have one canonical text.** -/
theorem Respelled.canonicalOf_eq {s t : JsString} (h : Respelled T s t) (hu : IsNfc u T) (hT : IsUnicode T)
    (hs : isWellFormed s = true) (ht : isWellFormed t = true) : canonicalOf u s = canonicalOf u t := by
  rw [Sigillo.canonicalOf_eq hu hT hs, Sigillo.canonicalOf_eq hu hT ht]
  cases h with
  | removed s t h => rw [h]
  | run front run other back hrun hne hother hother_ne =>
      rw [visible_append, visible_append, visible_append, visible_append, visible_white hrun,
        visible_white hother, words_append_run hrun hne, words_append_run hother hother_ne]
  | ends front s back hfront hback =>
      rw [visible_append, visible_append, visible_white hfront, visible_white hback, words_append_blanks hback,
        words_blanks_append hfront]
  | equivalent s t h =>
      obtain ⟨hs', hps⟩ := points_visible hs
      obtain ⟨ht', hpt⟩ := points_visible ht
      rw [← words_normalize hu hT hs', ← words_normalize hu hT ht', hu _ hs', hu _ ht', hps, hpt,
        Tables.composed_congr (hT.removed.canonical_without h)]

/-- **`sigillo-text/1` is a normal form**: a canonical text is its own, and one document has one. -/
theorem canonicalText_normal (hu : IsNfc u T) (hT : IsUnicode T) :
    (∀ bytes c, sigilloCanonicalText u bytes = some c → sigilloCanonicalText u (utf8Encode c) = some c) ∧
    ∀ s t, isWellFormed s = true → isWellFormed t = true → Respelled T s t ∨ Respelled T t s →
      sigilloCanonicalText u (utf8Encode s) = sigilloCanonicalText u (utf8Encode t) := by
  constructor
  · intro bytes c h
    obtain ⟨text, htext, hc⟩ := Option.bind_eq_some_iff.mp h
    obtain ⟨hwell, -⟩ := sigilloDecodeUtf8_eq_some.mp htext
    obtain ⟨hcanonical, hsame⟩ := canonicalOf_canonicalOf hu hT hwell
    have hnonempty : canonicalOf u text ≠ [] := fun hnil => by
      simp only [hnil, if_pos] at hc
      cases hc
    simp only [if_neg hnonempty] at hc
    obtain rfl := Option.some.inj hc
    rw [sigilloCanonicalText, sigilloDecodeUtf8_utf8Encode hcanonical]
    simp only [Option.bind_some, hsame, if_neg hnonempty]
  · intro s t hs ht h
    have heq : canonicalOf u s = canonicalOf u t :=
      h.elim (fun h => h.canonicalOf_eq hu hT hs ht) fun h => (h.canonicalOf_eq hu hT ht hs).symm
    rw [sigilloCanonicalText, sigilloCanonicalText, sigilloDecodeUtf8_utf8Encode hs,
      sigilloDecodeUtf8_utf8Encode ht, Option.bind_some, Option.bind_some, heq]

/-- The tables for e with its acute accent, and for white space. -/
def someTables : Tables ℕ where
  ccc cp := if cp = 0x301 then 230 else 0
  decompose cp :=
    if cp = 0xE9 then [0x65, 0x301] else if cp = 0x2000 then [0x2002] else if cp = 0x2001 then [0x2003] else [cp]
  compose a b := if a = 0x65 ∧ b = 0x301 then some 0xE9 else none
  decompose_ne_nil a := by split_ifs <;> simp
  decompose_full a b hb := by
    split_ifs at hb with h1 h2 h3
    · rcases List.mem_cons.mp hb with rfl | hb
      · rfl
      · rw [List.mem_singleton.mp hb]
        rfl
    · rw [List.mem_singleton.mp hb]
      rfl
    · rw [List.mem_singleton.mp hb]
      rfl
    · rw [List.mem_singleton.mp hb, if_neg h1, if_neg h2, if_neg h3]
  decompose_compose a b c h := by
    split_ifs at h with hab
    obtain ⟨rfl, rfl⟩ := hab
    obtain rfl := Option.some.inj h
    rfl
  starter_compose a b c h := by
    split_ifs at h
    obtain rfl := Option.some.inj h
    rfl

/-- What the toy tables decompose to. -/
theorem mem_someTables {a b : ℕ} (h : b ∈ someTables.decompose a) :
    a = 0xE9 ∧ (b = 0x65 ∨ b = 0x301) ∨ a = 0x2000 ∧ b = 0x2002 ∨ a = 0x2001 ∧ b = 0x2003 ∨ b = a := by
  simp only [someTables] at h
  split_ifs at h with h1 h2 h3
  · simp only [List.mem_cons, List.not_mem_nil, or_false] at h
    exact .inl ⟨h1, h⟩
  · exact .inr (.inl ⟨h2, List.mem_singleton.mp h⟩)
  · exact .inr (.inr (.inl ⟨h3, List.mem_singleton.mp h⟩))
  · exact .inr (.inr (.inr (List.mem_singleton.mp h)))

/-- Blanks are boundaries in them. -/
theorem someTables_boundary {v : UInt16} (hv : isWhiteSpace v = true) : Tables.Boundary someTables v.toNat := by
  have hne : ∀ other : UInt16, isWhiteSpace other = false → v.toNat ≠ other.toNat := by
    intro other hother heq
    obtain rfl := UInt16.toNat_inj.mp heq
    rw [hother] at hv
    cases hv
  have haccent : v.toNat ≠ 0x301 := hne 0x301 (by decide)
  have hletter : v.toNat ≠ 0x65 := hne 0x65 (by decide)
  exact ⟨if_neg haccent, fun a => if_neg fun h => haccent h.2, fun b => if_neg fun h => hletter h.1⟩

/-- They are as documented. -/
theorem someTables_isUnicode : IsUnicode someTables where
  scalar_decompose a b ha hb := by
    rcases mem_someTables hb with ⟨-, rfl | rfl⟩ | ⟨-, rfl⟩ | ⟨-, rfl⟩ | rfl
    · decide
    · decide
    · decide
    · decide
    · exact ha
  scalar_compose a b c _ _ h := by
    simp only [someTables] at h
    split_ifs at h
    obtain rfl := Option.some.inj h
    decide
  white w hw := by
    by_cases h0 : w = 0x2000
    · subst h0
      exact ⟨0x2002, by decide, by decide, someTables_boundary (by decide)⟩
    · by_cases h1 : w = 0x2001
      · subst h1
        exact ⟨0x2003, by decide, by decide, someTables_boundary (by decide)⟩
      · have hletter : w.toNat ≠ 0xE9 := by
          intro heq
          obtain rfl : w = 0xE9 := UInt16.toNat_inj.mp heq
          exact absurd hw (by decide)
        have h0' : w.toNat ≠ 0x2000 := fun heq => h0 (UInt16.toNat_inj.mp heq)
        have h1' : w.toNat ≠ 0x2001 := fun heq => h1 (UInt16.toNat_inj.mp heq)
        refine ⟨w, hw, ?_, someTables_boundary hw⟩
        simp only [someTables, if_neg hletter, if_neg h0', if_neg h1']
  white_only a b hb hmem := by
    rcases mem_someTables hmem with ⟨-, rfl | rfl⟩ | ⟨rfl, -⟩ | ⟨rfl, -⟩ | rfl
    · exact absurd hb (by decide)
    · exact absurd hb (by decide)
    · decide
    · decide
    · exact hb
  removed :=
    { starter := fun a ha => by
        have hne : a ≠ 0x301 := fun h => by
          subst h
          exact absurd ha (by decide)
        exact if_neg hne
      alone := fun a ha => by
        have hne : ∀ b, atPoint isRemoved b = false → a ≠ b := fun b hb h => by
          rw [h, hb] at ha
          cases ha
        simp only [someTables, if_neg (hne 0xE9 (by decide)), if_neg (hne 0x2000 (by decide)),
          if_neg (hne 0x2001 (by decide))]
      only := fun a b hb hmem => by
        rcases mem_someTables hmem with ⟨-, rfl | rfl⟩ | ⟨-, rfl⟩ | ⟨-, rfl⟩ | rfl
        · exact absurd hb (by decide)
        · exact absurd hb (by decide)
        · exact absurd hb (by decide)
        · exact absurd hb (by decide)
        · exact hb }

/-- A runtime of these characters. -/
def someUnicode : Unicode :=
  { normalize := fun s => (someTables.composed (points s)).flatMap unitsOf, toLowerCase := id, toUpperCase := id }

example : sigilloCanonicalText someUnicode (utf8Encode [0x20, 0x65, 0xAD, 0x301, 0x2000, 0x09, 0x61])
    = some [0xE9, 0x20, 0x61] := by decide +kernel

/-- A letter with its accent, composed or not, before one kind of blank or another. -/
theorem canonicalText_normal_accent :
    sigilloCanonicalText someUnicode (utf8Encode [0xE9, 0x20, 0x61]) = some [0xE9, 0x20, 0x61] ∧
    sigilloCanonicalText someUnicode (utf8Encode [0x65, 0x301, 0x20, 0x61])
      = sigilloCanonicalText someUnicode (utf8Encode [0xE9, 0x20, 0x61]) :=
  have h := canonicalText_normal (u := someUnicode) (fun _ _ => rfl) someTables_isUnicode
  ⟨h.1 (utf8Encode [0x20, 0x65, 0xAD, 0x301, 0x2000, 0x09, 0x61]) _ (by decide +kernel),
    h.2 _ _ (by decide) (by decide) (.inl (.equivalent _ _ (by decide +kernel)))⟩

end Sigillo
