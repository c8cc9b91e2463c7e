import Mathlib.Data.List.Basic

/-!
# Texts put together with separators

Two texts before a mark that neither holds are known by what is put together (**`append_mark_inj`**).
Lines joined by a separator they may hold are, where no line of one side begins one of the other, the
separator included (**`joined_inj`**). -/

namespace JoinedLines

variable {α : Type} {sep : α}

/-- Two texts with no mark in them are known by what stands before the first mark. -/
theorem append_mark_inj {mark : α} {a b rest more : List α} (ha : mark ∉ a) (hb : mark ∉ b)
    (h : a ++ mark :: rest = b ++ mark :: more) : a = b ∧ rest = more := by
  rcases List.append_eq_append_iff.mp h with ⟨c, rfl, hc⟩ | ⟨c, rfl, hc⟩
  · cases c with
    | nil => exact ⟨(List.append_nil a).symm, (List.cons.inj hc).2⟩
    | cons x c =>
        obtain ⟨rfl, -⟩ := List.cons.inj hc
        exact absurd (List.mem_append_right _ (List.mem_cons_self ..)) hb
  · cases c with
    | nil => exact ⟨List.append_nil b, (List.cons.inj hc).2.symm⟩
    | cons x c =>
        obtain ⟨rfl, -⟩ := List.cons.inj hc
        exact absurd (List.mem_append_right _ (List.mem_cons_self ..)) ha

/-- Lines with a separator between them. -/
def joined (sep : α) (lines : List (List α)) : List α := (lines.intersperse [sep]).flatten

/-- What follows the first line. -/
def following (sep : α) : List (List α) → List α
  | [] => []
  | line :: lines => sep :: joined sep (line :: lines)

theorem joined_cons (line : List α) (lines : List (List α)) :
    joined sep (line :: lines) = line ++ following sep lines := by
  cases lines with
  | nil =>
      rw [following, joined, List.intersperse_singleton, List.flatten_singleton, List.append_nil]
  | cons next lines =>
      rw [following, joined, List.intersperse_cons_cons, List.flatten_cons, List.flatten_cons]
      rfl

/-- A line that begins with another and a separator. -/
def Begins (sep : α) (a b : List α) : Prop := a ++ [sep] <+: b

/-- The next character after a line that does not begin with the other is not taken from it. -/
theorem begins_of_append {a b c : List α} {xs ys : List (List α)} (hc : c ≠ []) (hb : b = a ++ c)
    (h : following sep xs = c ++ following sep ys) : Begins sep a b := by
  cases xs with
  | nil => exact absurd (List.append_eq_nil_iff.mp h.symm).1 hc
  | cons x xs =>
      cases c with
      | nil => exact absurd rfl hc
      | cons u c =>
          obtain ⟨rfl, -⟩ := List.cons.inj h
          exact ⟨c, by rw [hb, List.append_assoc]; rfl⟩

/-- **Joined lines are the same lines**, where no line of one side begins one of the other. -/
theorem joined_inj {xs ys : List (List α)} (hx : ∀ x ∈ xs, x ≠ []) (hy : ∀ y ∈ ys, y ≠ [])
    (hapart : ∀ x ∈ xs, ∀ y ∈ ys, ¬ Begins sep x y ∧ ¬ Begins sep y x)
    (h : joined sep xs = joined sep ys) : xs = ys := by
  induction xs generalizing ys with
  | nil =>
      cases ys with
      | nil => rfl
      | cons y ys =>
          rw [joined_cons] at h
          exact absurd (List.append_eq_nil_iff.mp h.symm).1 (hy y (List.mem_cons_self ..))
  | cons x xs ih =>
      cases ys with
      | nil =>
          rw [joined_cons] at h
          exact absurd (List.append_eq_nil_iff.mp h).1 (hx x (List.mem_cons_self ..))
      | cons y ys =>
          obtain ⟨hxy, hyx⟩ := hapart x (List.mem_cons_self ..) y (List.mem_cons_self ..)
          rw [joined_cons, joined_cons] at h
          have hsame : x = y ∧ following sep xs = following sep ys := by
            rcases List.append_eq_append_iff.mp h with ⟨c, hc, hrest⟩ | ⟨c, hc, hrest⟩
            · by_cases hnil : c = []
              · subst hnil
                exact ⟨by rw [hc, List.append_nil], hrest⟩
              · exact absurd (begins_of_append hnil hc hrest) hxy
            · by_cases hnil : c = []
              · subst hnil
                exact ⟨by rw [hc, List.append_nil], hrest.symm⟩
              · exact absurd (begins_of_append hnil hc hrest) hyx
          obtain ⟨rfl, hrest⟩ := hsame
          rw [ih (fun z hz => hx z (List.mem_cons_of_mem _ hz)) (fun z hz => hy z (List.mem_cons_of_mem _ hz))
            (fun z hz w hw => hapart z (List.mem_cons_of_mem _ hz) w (List.mem_cons_of_mem _ hw))]
          cases xs with
          | nil =>
              cases ys with
              | nil => rfl
              | cons y ys => exact absurd hrest (by simp [following])
          | cons x' xs =>
              cases ys with
              | nil => exact absurd hrest (by simp [following])
              | cons y ys => exact (List.cons.inj hrest).2

end JoinedLines
