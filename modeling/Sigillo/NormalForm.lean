import Mathlib.Data.List.Basic
import Mathlib.Tactic.SplitIfs

/-!
# Canonical composition

The normalization of a text whose characters decompose, carry a combining class and compose in pairs, over
any such tables:

* **`Tables.canonical`** — every character decomposed, runs of marks put in order: two texts are canonically
  equivalent when they agree in it;
* **`Tables.composed`** — the composed form of that;
* **`composed_composed`** — composing again changes nothing, and **`composed_congr`**: equivalent texts have
  one composed form;
* **`composed_boundary`** — a character nothing composes with splits the text into two that are composed
  apart. -/

namespace NormalForm

variable {α : Type}

/-- What is known of each character. -/
structure Tables (α : Type) where
  /-- The combining class: `0` for a starter. -/
  ccc : α → ℕ
  /-- The canonical decomposition mapping, applied until nothing decomposes. -/
  decompose : α → List α
  /-- The primary composite of two characters. -/
  compose : α → α → Option α
  decompose_ne_nil : ∀ a, decompose a ≠ []
  decompose_full : ∀ a, ∀ b ∈ decompose a, decompose b = [b]
  decompose_compose : ∀ a b c, compose a b = some c → decompose c = decompose a ++ decompose b
  starter_compose : ∀ a b c, compose a b = some c → ccc c = 0

namespace Tables

variable (T : Tables α)

-- ── The order of marks ───────────────────────────────────────────────────────────

/-- `a` moved behind every mark of a lower class that follows it. -/
def place (a : α) : List α → List α
  | [] => [a]
  | b :: rest => if 0 < T.ccc b ∧ T.ccc b < T.ccc a then b :: place a rest else a :: b :: rest

/-- The canonical order. -/
def reorder (l : List α) : List α := l.foldr T.place []

/-- Each character decomposed. -/
def decomposed (l : List α) : List α := l.flatMap T.decompose

/-- **The canonical decomposition of a text.** -/
def canonical (l : List α) : List α := T.reorder (T.decomposed l)

-- ── Composition ──────────────────────────────────────────────────────────────────

/-- The text from its last starter `L` on: `marks` are those between it and the character looked at. -/
def composeFrom (L : α) (marks : List α) : List α → List α
  | [] => L :: marks
  | C :: rest =>
      -- not blocked: every mark in between is of a lower class
      match if marks.all (fun B => decide (T.ccc B < T.ccc C)) then T.compose L C else none with
      | some P => composeFrom P marks rest
      | none =>
          if T.ccc C = 0 then (L :: marks) ++ composeFrom C [] rest else composeFrom L (marks ++ [C]) rest

/-- Marks with no starter before them stay as they are. -/
def composeAll : List α → List α
  | [] => []
  | C :: rest => if T.ccc C = 0 then T.composeFrom C [] rest else C :: composeAll rest

/-- **The composed form.** -/
def composed (l : List α) : List α := T.composeAll (T.canonical l)

-- ── Placing ──────────────────────────────────────────────────────────────────────

variable {T}

/-- Placing adds the character. -/
theorem mem_place {a b : α} {l : List α} : b ∈ T.place a l ↔ b = a ∨ b ∈ l := by
  induction l with
  | nil => simp [place]
  | cons c rest ih =>
      unfold place
      split_ifs with h
      · rw [List.mem_cons, ih, List.mem_cons]
        tauto
      · rw [List.mem_cons]

/-- Reordering keeps the characters. -/
theorem mem_reorder {b : α} {l : List α} : b ∈ T.reorder l ↔ b ∈ l := by
  induction l with
  | nil => exact Iff.rfl
  | cons a rest ih =>
      show b ∈ T.place a (T.reorder rest) ↔ _
      rw [mem_place, ih, List.mem_cons]

/-- A mark passes one of a higher class. -/
theorem place_pass {a b : α} (h : 0 < T.ccc b ∧ T.ccc b < T.ccc a) (l : List α) :
    T.place a (b :: l) = b :: T.place a l := if_pos h

/-- A character stays before one of no higher class. -/
theorem place_stay {a b : α} (h : ¬ (0 < T.ccc b ∧ T.ccc b < T.ccc a)) (l : List α) :
    T.place a (b :: l) = a :: b :: l := if_neg h

/-- Marks of two classes are placed in either order. -/
theorem place_place {a b : α} (hb : 0 < T.ccc b) (hab : T.ccc b < T.ccc a) (l : List α) :
    T.place a (T.place b l) = T.place b (T.place a l) := by
  have hba : ¬ (0 < T.ccc a ∧ T.ccc a < T.ccc b) := by omega
  induction l with
  | nil =>
      show T.place a [b] = T.place b [a]
      rw [place_pass ⟨hb, hab⟩, place_stay hba]
      rfl
  | cons c rest ih =>
      by_cases hcb : 0 < T.ccc c ∧ T.ccc c < T.ccc b
      · have hca : 0 < T.ccc c ∧ T.ccc c < T.ccc a := by omega
        rw [place_pass hcb, place_pass hca, ih, place_pass hca, place_pass hcb]
      · rw [place_stay hcb, place_pass ⟨hb, hab⟩]
        by_cases hca : 0 < T.ccc c ∧ T.ccc c < T.ccc a
        · rw [place_pass hca, place_stay hcb]
        · rw [place_stay hca, place_stay hba]

/-- The end is reordered first. -/
theorem reorder_append (l m : List α) : T.reorder (l ++ m) = l.foldr T.place (T.reorder m) :=
  List.foldr_append ..

/-- What is placed first may be placed last. -/
theorem foldr_place (a : α) (l m : List α) :
    (T.place a l).foldr T.place m = T.place a (l.foldr T.place m) := by
  induction l with
  | nil => rfl
  | cons b rest ih =>
      by_cases h : 0 < T.ccc b ∧ T.ccc b < T.ccc a
      · rw [place_pass h]
        show T.place b ((T.place a rest).foldr T.place m) = T.place a (T.place b (rest.foldr T.place m))
        rw [ih, ← place_place h.1 h.2]
      · rw [place_stay h]
        rfl

/-- Order may be made before a text is taken further. -/
theorem foldr_reorder (l m : List α) : (T.reorder l).foldr T.place m = l.foldr T.place m := by
  induction l with
  | nil => rfl
  | cons a rest ih =>
      show (T.place a (T.reorder rest)).foldr T.place m = _
      rw [foldr_place, ih]
      rfl

/-- What was reordered stays. -/
theorem reorder_reorder (l : List α) : T.reorder (T.reorder l) = T.reorder l := foldr_reorder l []

/-- The end may be reordered before. -/
theorem reorder_append_reorder (l m : List α) : T.reorder (l ++ T.reorder m) = T.reorder (l ++ m) := by
  rw [reorder_append, reorder_append, reorder_reorder]

/-- A mark passes marks of lower classes. -/
theorem reorder_mark {C : α} {marks : List α} (hmarks : ∀ B ∈ marks, 0 < T.ccc B ∧ T.ccc B < T.ccc C)
    (l m : List α) : T.reorder (l ++ C :: (marks ++ m)) = T.reorder (l ++ (marks ++ C :: m)) := by
  rw [reorder_append, reorder_append]
  congr 1
  induction marks with
  | nil => rfl
  | cons B rest ih =>
      have hB := hmarks B (by simp)
      show T.place C (T.place B (T.reorder (rest ++ m))) = T.place B (T.reorder (rest ++ C :: m))
      rw [place_place hB.1 hB.2, ← ih fun B' hB' => hmarks B' (by simp [hB'])]
      rfl

/-- A starter stays where it is. -/
theorem place_starter {w : α} (hw : T.ccc w = 0) (l : List α) : T.place w l = w :: l := by
  cases l with
  | nil => rfl
  | cons b rest => rw [place, if_neg (by omega)]

/-- Nothing passes a starter. -/
theorem place_append_starter {w : α} (hw : T.ccc w = 0) (a : α) (l m : List α) :
    T.place a (l ++ w :: m) = T.place a l ++ w :: m := by
  induction l with
  | nil =>
      show T.place a (w :: m) = [a] ++ w :: m
      rw [place, if_neg (by omega)]
      rfl
  | cons b rest ih =>
      rw [List.cons_append, place, place]
      split_ifs with h
      · rw [ih]
        rfl
      · rfl

/-- Nothing passes a starter. -/
theorem reorder_starter {w : α} (hw : T.ccc w = 0) (l m : List α) :
    T.reorder (l ++ w :: m) = T.reorder l ++ w :: T.reorder m := by
  induction l with
  | nil => exact place_starter hw _
  | cons a rest ih =>
      show T.place a (T.reorder (rest ++ w :: m)) = T.place a (T.reorder rest) ++ w :: T.reorder m
      rw [ih, place_append_starter hw]

-- ── Decomposing ──────────────────────────────────────────────────────────────────

/-- None of the characters decomposes. -/
def Full (T : Tables α) (l : List α) : Prop := ∀ b ∈ l, T.decompose b = [b]

/-- The empty text. -/
theorem full_nil : Full T [] := List.forall_mem_nil _

/-- What is decomposed already stays. -/
theorem Full.decomposed {l : List α} (h : Full T l) : T.decomposed l = l := by
  induction l with
  | nil => rfl
  | cons a rest ih =>
      show T.decompose a ++ T.decomposed rest = a :: rest
      rw [h a (by simp), ih fun b hb => h b (by simp [hb])]
      rfl

/-- Texts are decomposed one after the other. -/
theorem decomposed_append (l m : List α) : T.decomposed (l ++ m) = T.decomposed l ++ T.decomposed m :=
  List.flatMap_append

/-- A character of the canonical order is one of a decomposition. -/
theorem mem_canonical {b : α} {l : List α} : b ∈ T.canonical l ↔ ∃ a ∈ l, b ∈ T.decompose a := by
  rw [canonical, mem_reorder, decomposed, List.mem_flatMap]

/-- The canonical order is decomposed. -/
theorem full_canonical (l : List α) : Full T (T.canonical l) := by
  intro b hb
  obtain ⟨a, -, hab⟩ := mem_canonical.mp hb
  exact T.decompose_full a b hab

/-- **Composing keeps a text canonically what it is.** -/
theorem canonical_composeFrom {L : α} {marks rest : List α} (hmarks : Full T marks)
    (hpos : ∀ B ∈ marks, 0 < T.ccc B) (hrest : Full T rest) :
    T.canonical (T.composeFrom L marks rest) = T.reorder (T.decompose L ++ (marks ++ rest)) := by
  induction rest generalizing L marks with
  | nil =>
      show T.reorder (T.decompose L ++ T.decomposed marks) = _
      rw [hmarks.decomposed, List.append_nil]
  | cons C rest ih =>
      have hC : T.decompose C = [C] := hrest C (by simp)
      have hrest' : Full T rest := fun b hb => hrest b (by simp [hb])
      unfold composeFrom
      cases hP : (if marks.all (fun B => decide (T.ccc B < T.ccc C)) then T.compose L C else none) with
      | some P =>
          -- the composite stands for `L` and, past the marks in between, `C`
          split_ifs at hP with hall
          have hlower : ∀ B ∈ marks, 0 < T.ccc B ∧ T.ccc B < T.ccc C := fun B hB =>
            ⟨hpos B hB, of_decide_eq_true (List.all_eq_true.mp hall B hB)⟩
          show T.canonical (T.composeFrom P marks rest) = _
          rw [ih hmarks hpos hrest', T.decompose_compose L C P hP, hC, List.append_assoc]
          exact reorder_mark hlower _ _
      | none =>
          show T.canonical (if T.ccc C = 0 then (L :: marks) ++ T.composeFrom C [] rest
            else T.composeFrom L (marks ++ [C]) rest) = _
          split_ifs with hstarter
          · have hnext : T.canonical (T.composeFrom C [] rest) = T.reorder (C :: rest) := by
              rw [ih full_nil (List.forall_mem_nil _) hrest', hC]
              rfl
            rw [canonical, decomposed_append, ← reorder_append_reorder]
            show T.reorder ((T.decompose L ++ T.decomposed marks) ++ T.canonical (T.composeFrom C [] rest)) = _
            rw [hnext, hmarks.decomposed, reorder_append_reorder, List.append_assoc]
          · rw [ih ?_ ?_ hrest', List.append_assoc]
            · rfl
            · intro b hb
              rcases List.mem_append.mp hb with hb | hb
              · exact hmarks b hb
              · rw [List.mem_singleton.mp hb, hC]
            · intro b hb
              rcases List.mem_append.mp hb with hb | hb
              · exact hpos b hb
              · rw [List.mem_singleton.mp hb]
                omega

/-- Composing keeps a text canonically what it is. -/
theorem canonical_composeAll {l : List α} (hl : Full T l) : T.canonical (T.composeAll l) = T.reorder l := by
  induction l with
  | nil => rfl
  | cons C rest ih =>
      have hrest : Full T rest := fun b hb => hl b (by simp [hb])
      unfold composeAll
      split_ifs with h
      · rw [canonical_composeFrom full_nil (List.forall_mem_nil _) hrest, hl C (by simp)]
        rfl
      · show T.reorder (T.decompose C ++ T.decomposed (T.composeAll rest)) = _
        rw [← reorder_append_reorder, ← canonical, ih hrest, reorder_append_reorder, hl C (by simp)]
        rfl

/-- **A text is canonically equivalent to its composed form.** -/
theorem canonical_composed (l : List α) : T.canonical (T.composed l) = T.canonical l := by
  rw [composed, canonical_composeAll (full_canonical l)]
  exact reorder_reorder _

/-- **Equivalent texts have one composed form.** -/
theorem composed_congr {l m : List α} (h : T.canonical l = T.canonical m) : T.composed l = T.composed m := by
  rw [composed, composed, h]

/-- **The composed form is its own.** -/
theorem composed_composed (l : List α) : T.composed (T.composed l) = T.composed l :=
  composed_congr (canonical_composed l)

@[simp] theorem composed_nil : T.composed [] = [] := rfl

/-- Nothing of a text is lost altogether. -/
theorem composed_ne_nil {l : List α} (h : l ≠ []) : T.composed l ≠ [] := by
  intro hnil
  obtain ⟨a, rest, rfl⟩ := List.exists_cons_of_ne_nil h
  obtain ⟨b, hb⟩ := List.exists_mem_of_ne_nil _ (T.decompose_ne_nil a)
  have hmem : b ∈ T.canonical (T.composed (a :: rest)) := by
    rw [canonical_composed]
    exact mem_canonical.mpr ⟨a, by simp, hb⟩
  rw [hnil] at hmem
  exact nomatch hmem

/-- What a character of the composed form decomposes to came of the text. -/
theorem mem_composed {l : List α} {c b : α} (hc : c ∈ T.composed l) (hb : b ∈ T.decompose c) :
    ∃ a ∈ l, b ∈ T.decompose a := by
  have hmem : b ∈ T.canonical (T.composed l) := mem_canonical.mpr ⟨c, hc, hb⟩
  rw [canonical_composed] at hmem
  exact mem_canonical.mp hmem

/-- What holds of every character and of every composite holds throughout. -/
theorem forall_composeFrom {P : α → Prop} (hP : ∀ a b c, P a → P b → T.compose a b = some c → P c) {L : α}
    {marks rest : List α} (hL : P L) (hmarks : ∀ b ∈ marks, P b) (hrest : ∀ b ∈ rest, P b) :
    ∀ b ∈ T.composeFrom L marks rest, P b := by
  induction rest generalizing L marks with
  | nil => exact List.forall_mem_cons.mpr ⟨hL, hmarks⟩
  | cons C rest ih =>
      obtain ⟨hC, hrest⟩ := List.forall_mem_cons.mp hrest
      unfold composeFrom
      cases hcomposite : (if marks.all (fun B => decide (T.ccc B < T.ccc C)) then T.compose L C else none) with
      | some p =>
          split_ifs at hcomposite
          exact ih (hP L C p hL hC hcomposite) hmarks hrest
      | none =>
          show ∀ b ∈ (if T.ccc C = 0 then (L :: marks) ++ T.composeFrom C [] rest
            else T.composeFrom L (marks ++ [C]) rest), P b
          split_ifs
          · exact List.forall_mem_append.mpr ⟨List.forall_mem_cons.mpr ⟨hL, hmarks⟩,
              ih hC (List.forall_mem_nil _) hrest⟩
          · exact ih hL (List.forall_mem_append.mpr ⟨hmarks, List.forall_mem_singleton.mpr hC⟩) hrest

/-- What decomposing and composing keep holds of the composed text. -/
theorem forall_composed {P : α → Prop} (hP : ∀ a b c, P a → P b → T.compose a b = some c → P c)
    (hdec : ∀ a b, P a → b ∈ T.decompose a → P b) {l : List α} (hl : ∀ a ∈ l, P a) :
    ∀ b ∈ T.composed l, P b := by
  have hcanonical : ∀ b ∈ T.canonical l, P b := by
    intro b hb
    obtain ⟨a, ha, hab⟩ := mem_canonical.mp hb
    exact hdec a b (hl a ha) hab
  show ∀ b ∈ T.composeAll (T.canonical l), P b
  revert hcanonical
  induction T.canonical l with
  | nil => exact fun _ => List.forall_mem_nil _
  | cons C rest ih =>
      intro hcanonical
      obtain ⟨hC, hrest⟩ := List.forall_mem_cons.mp hcanonical
      unfold composeAll
      split_ifs
      · exact forall_composeFrom hP hC (List.forall_mem_nil _) hrest
      · exact List.forall_mem_cons.mpr ⟨hC, ih hrest⟩

-- ── Boundaries ───────────────────────────────────────────────────────────────────

/-- A starter that composes with nothing. -/
structure Boundary (T : Tables α) (w : α) : Prop where
  starter : T.ccc w = 0
  before : ∀ a, T.compose a w = none
  after : ∀ b, T.compose w b = none

/-- A boundary composes with nothing after it. -/
theorem Boundary.composeFrom {w : α} (hw : Boundary T w) (marks l : List α) :
    T.composeFrom w marks l = w :: (marks ++ T.composeAll l) := by
  induction l generalizing marks with
  | nil =>
      show w :: marks = w :: (marks ++ [])
      rw [List.append_nil]
  | cons C rest ih =>
      unfold Tables.composeFrom composeAll
      rw [hw.after C, ite_self]
      show (if T.ccc C = 0 then (w :: marks) ++ T.composeFrom C [] rest
        else T.composeFrom w (marks ++ [C]) rest) = _
      split_ifs with h
      · rfl
      · rw [ih, List.append_assoc]
        rfl

/-- Nothing composes with a boundary after it. -/
theorem Boundary.composeFrom_append {w : α} (hw : Boundary T w) (L : α) (marks l m : List α) :
    T.composeFrom L marks (l ++ w :: m) = T.composeFrom L marks l ++ w :: T.composeAll m := by
  induction l generalizing L marks with
  | nil =>
      show T.composeFrom L marks (w :: m) = (L :: marks) ++ w :: T.composeAll m
      unfold Tables.composeFrom
      rw [hw.before L, ite_self]
      show (if T.ccc w = 0 then (L :: marks) ++ T.composeFrom w [] m
        else T.composeFrom L (marks ++ [w]) m) = _
      rw [if_pos hw.starter, hw.composeFrom]
      rfl
  | cons C rest ih =>
      rw [List.cons_append]
      unfold Tables.composeFrom
      cases (if marks.all (fun B => decide (T.ccc B < T.ccc C)) then T.compose L C else none) with
      | some P => exact ih P marks
      | none =>
          show (if T.ccc C = 0 then (L :: marks) ++ T.composeFrom C [] (rest ++ w :: m)
              else T.composeFrom L (marks ++ [C]) (rest ++ w :: m))
            = (if T.ccc C = 0 then (L :: marks) ++ T.composeFrom C [] rest
              else T.composeFrom L (marks ++ [C]) rest) ++ w :: T.composeAll m
          split_ifs with h
          · rw [ih, List.append_assoc]
          · exact ih L (marks ++ [C])

/-- Text is composed on each side of a boundary. -/
theorem Boundary.composeAll_append {w : α} (hw : Boundary T w) (l m : List α) :
    T.composeAll (l ++ w :: m) = T.composeAll l ++ w :: T.composeAll m := by
  induction l with
  | nil =>
      show T.composeAll (w :: m) = w :: T.composeAll m
      rw [composeAll, if_pos hw.starter, hw.composeFrom]
      rfl
  | cons C rest ih =>
      rw [List.cons_append, composeAll, composeAll]
      split_ifs with h
      · exact hw.composeFrom_append C [] rest m
      · rw [ih]
        rfl

/-- **At a boundary the two sides are composed apart.** -/
theorem composed_boundary {w w' : α} (hdec : T.decompose w = [w']) (hw : Boundary T w') (l m : List α) :
    T.composed (l ++ w :: m) = T.composed l ++ w' :: T.composed m := by
  have hsplit : T.canonical (l ++ w :: m) = T.canonical l ++ w' :: T.canonical m := by
    rw [canonical, decomposed_append]
    show T.reorder (T.decomposed l ++ (T.decompose w ++ T.decomposed m)) = _
    rw [hdec]
    exact reorder_starter hw.starter _ _
  rw [composed, hsplit, hw.composeAll_append]
  rfl

-- ── Leaving characters out ───────────────────────────────────────────────────────

/-- Starters that neither decompose nor are part of what decomposes. -/
structure Separate (T : Tables α) (p : α → Bool) : Prop where
  starter : ∀ a, p a = true → T.ccc a = 0
  alone : ∀ a, p a = true → T.decompose a = [a]
  only : ∀ a b, p b = true → b ∈ T.decompose a → p a = true

/-- What is left when they are taken out. -/
def without (p : α → Bool) (l : List α) : List α := l.filter fun a => !p a

/-- What stands apart may be left out before decomposing. -/
theorem Separate.decomposed_without {p : α → Bool} (h : Separate T p) (l : List α) :
    T.decomposed (without p l) = without p (T.decomposed l) := by
  induction l with
  | nil => rfl
  | cons a rest ih =>
      show T.decomposed (without p (a :: rest)) = without p (T.decompose a ++ T.decomposed rest)
      have hsplit : without p (T.decompose a ++ T.decomposed rest)
          = without p (T.decompose a) ++ without p (T.decomposed rest) := List.filter_append ..
      rw [hsplit, ← ih]
      by_cases ha : p a = true
      · have hone : without p (T.decompose a) = [] := by
          rw [h.alone a ha]
          simp [without, ha]
        rw [hone]
        simp [without, ha]
      · have hall : without p (T.decompose a) = T.decompose a := by
          refine List.filter_eq_self.mpr fun b hb => ?_
          rw [Bool.not_eq_true', Bool.eq_false_iff]
          exact fun hpb => ha (h.only a b hpb hb)
        rw [hall]
        simp [without, ha, Tables.decomposed]

/-- It may be left out before placing. -/
theorem Separate.reorder_place {p : α → Bool} (h : Separate T p) (a : α) (l : List α) :
    T.reorder (without p (T.place a l)) = T.reorder (without p (a :: l)) := by
  induction l with
  | nil => rfl
  | cons b rest ih =>
      unfold place
      split_ifs with hab
      · -- neither of two marks is left out
        have hb : p b = false := Bool.eq_false_iff.mpr fun hp => by have := h.starter b hp; omega
        have ha : p a = false := Bool.eq_false_iff.mpr fun hp => by have := h.starter a hp; omega
        have h1 : without p (b :: T.place a rest) = b :: without p (T.place a rest) := by simp [without, hb]
        have h2 : without p (a :: b :: rest) = a :: b :: without p rest := by simp [without, ha, hb]
        have h3 : without p (a :: rest) = a :: without p rest := by simp [without, ha]
        rw [h1, h2]
        show T.place b (T.reorder (without p (T.place a rest))) = T.place a (T.place b (T.reorder (without p rest)))
        rw [ih, h3, place_place hab.1 hab.2]
        rfl
      · rfl

/-- It may be left out before reordering. -/
theorem Separate.reorder_without {p : α → Bool} (h : Separate T p) (l : List α) :
    T.reorder (without p (T.reorder l)) = T.reorder (without p l) := by
  induction l with
  | nil => rfl
  | cons a rest ih =>
      show T.reorder (without p (T.place a (T.reorder rest))) = _
      rw [h.reorder_place]
      by_cases ha : p a = true
      · have hl : ∀ l, without p (a :: l) = without p l := fun l => by simp [without, ha]
        rw [hl, hl, ih]
      · have hl : ∀ l, without p (a :: l) = a :: without p l := fun l => by simp [without, ha]
        rw [hl, hl]
        show T.place a (T.reorder (without p (T.reorder rest))) = T.place a (T.reorder (without p rest))
        rw [ih]

/-- **Equivalent texts stay equivalent when such characters are left out.** -/
theorem Separate.canonical_without {p : α → Bool} (h : Separate T p) {l m : List α}
    (heq : T.canonical l = T.canonical m) : T.canonical (without p l) = T.canonical (without p m) := by
  have hform : ∀ l, T.canonical (without p l) = T.reorder (without p (T.canonical l)) := fun l => by
    rw [canonical, h.decomposed_without, canonical, h.reorder_without]
  rw [hform, hform, heq]

end Tables

end NormalForm
