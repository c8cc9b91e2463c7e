import Mathlib.Data.List.Basic
import Mathlib.Tactic.SplitIfs

/-!
# Words and the spaces between them

A list cut where its members are blank: `words` are the pieces that are left, `spaced` puts one space between
any two of them.

* **`words_append_blank`** — what stands on the two sides of a blank is cut apart;
* **`words_spaced`** — words put together come apart again. -/

namespace SpacedWords

variable {α : Type} (blank : α → Bool)

/-- The word read so far, where there is one. -/
def pending (word : List α) : List (List α) := match word with
  | [] => []
  | u :: rest => [u :: rest]

def wordsFrom (word : List α) : List α → List (List α)
  | [] => pending word
  | u :: rest => if blank u then pending word ++ wordsFrom [] rest else wordsFrom (word ++ [u]) rest

/-- The longest pieces without a blank. -/
def words (l : List α) : List (List α) := wordsFrom blank [] l

/-- One space between any two. -/
def spaced (space : α) : List (List α) → List α
  | [] => []
  | [word] => word
  | word :: next :: rest => word ++ space :: spaced space (next :: rest)

variable {blank}

@[simp] theorem words_nil : words blank [] = [] := rfl

theorem words_cons_blank {u : α} (h : blank u = true) (l : List α) : words blank (u :: l) = words blank l := by
  show (if blank u then pending [] ++ wordsFrom blank [] l else wordsFrom blank ([] ++ [u]) l) = _
  rw [if_pos h]
  rfl

theorem words_cons {u : α} (h : blank u = false) (l : List α) :
    words blank (u :: l) = wordsFrom blank [u] l := by
  show (if blank u then pending [] ++ wordsFrom blank [] l else wordsFrom blank ([] ++ [u]) l) = _
  rw [h]
  rfl

theorem wordsFrom_blank {u : α} (h : blank u = true) (word l : List α) :
    wordsFrom blank word (u :: l) = pending word ++ words blank l := if_pos h

theorem wordsFrom_cons {u : α} (h : blank u = false) (word l : List α) :
    wordsFrom blank word (u :: l) = wordsFrom blank (word ++ [u]) l := by
  rw [wordsFrom, h]
  rfl

theorem wordsFrom_append_blank {u : α} (h : blank u = true) (word l m : List α) :
    wordsFrom blank word (l ++ u :: m) = wordsFrom blank word l ++ words blank m := by
  induction l generalizing word with
  | nil => exact wordsFrom_blank h word m
  | cons v rest ih =>
      rw [List.cons_append]
      cases hv : blank v with
      | true =>
          have hrest : words blank (rest ++ u :: m) = words blank rest ++ words blank m := ih []
          rw [wordsFrom_blank hv, wordsFrom_blank hv, hrest, List.append_assoc]
      | false => rw [wordsFrom_cons hv, wordsFrom_cons hv, ih]

/-- **A blank cuts a list in two.** -/
theorem words_append_blank {u : α} (h : blank u = true) (l m : List α) :
    words blank (l ++ u :: m) = words blank l ++ words blank m := wordsFrom_append_blank h [] l m

/-- Blanks in front cut nothing off. -/
theorem words_blanks_append {run : List α} (h : ∀ u ∈ run, blank u = true) (l : List α) :
    words blank (run ++ l) = words blank l := by
  induction run with
  | nil => rfl
  | cons u rest ih =>
      rw [List.cons_append, words_cons_blank (h u (by simp)), ih fun v hv => h v (by simp [hv])]

/-- **A run of blanks cuts as one does.** -/
theorem words_append_run {run : List α} (h : ∀ u ∈ run, blank u = true) (hne : run ≠ []) (l m : List α) :
    words blank (l ++ run ++ m) = words blank l ++ words blank m := by
  obtain ⟨u, rest, rfl⟩ := List.exists_cons_of_ne_nil hne
  rw [List.append_assoc, List.cons_append, words_append_blank (h u (by simp)),
    words_blanks_append fun v hv => h v (by simp [hv])]

theorem words_append_blanks {run : List α} (h : ∀ u ∈ run, blank u = true) (l : List α) :
    words blank (l ++ run) = words blank l := by
  cases run with
  | nil => rw [List.append_nil]
  | cons u rest =>
      have hrest : words blank rest = [] := by
        have hnone := words_blanks_append (fun v hv => h v (List.mem_cons_of_mem u hv)) []
        rwa [List.append_nil] at hnone
      rw [words_append_blank (h u (by simp)), hrest, List.append_nil]

/-- A word: something, and no blank in it. -/
structure IsWord (blank : α → Bool) (word : List α) : Prop where
  ne_nil : word ≠ []
  solid : ∀ u ∈ word, blank u = false

theorem pending_of_ne_nil {word : List α} (h : word ≠ []) : pending word = [word] := by
  obtain ⟨u, rest, rfl⟩ := List.exists_cons_of_ne_nil h
  rfl

theorem wordsFrom_solid {l : List α} (h : ∀ u ∈ l, blank u = false) (word : List α) :
    wordsFrom blank word l = pending (word ++ l) := by
  induction l generalizing word with
  | nil =>
      rw [List.append_nil]
      rfl
  | cons u rest ih =>
      rw [wordsFrom_cons (h u (by simp)), ih fun v hv => h v (by simp [hv]), List.append_assoc]
      rfl

theorem IsWord.words {word : List α} (h : IsWord blank word) : words blank word = [word] := by
  rw [SpacedWords.words, wordsFrom_solid h.solid, List.nil_append, pending_of_ne_nil h.ne_nil]

theorem isWord_of_mem_wordsFrom {word : List α} (hword : ∀ u ∈ word, blank u = false) {l w : List α}
    (h : w ∈ wordsFrom blank word l) : IsWord blank w := by
  have hpending : ∀ {word : List α}, (∀ u ∈ word, blank u = false) → w ∈ pending word → IsWord blank w := by
    intro word hword hw
    cases word with
    | nil => exact nomatch hw
    | cons u rest =>
        obtain rfl := List.mem_singleton.mp hw
        exact ⟨List.cons_ne_nil _ _, hword⟩
  induction l generalizing word with
  | nil => exact hpending hword h
  | cons u rest ih =>
      cases hu : blank u with
      | true =>
          rw [wordsFrom_blank hu] at h
          rcases List.mem_append.mp h with h | h
          · exact hpending hword h
          · exact ih (List.forall_mem_nil _) h
      | false =>
          rw [wordsFrom_cons hu] at h
          refine ih (fun v hv => ?_) h
          rcases List.mem_append.mp hv with hv | hv
          · exact hword v hv
          · rw [List.mem_singleton.mp hv]
            exact hu

theorem isWord_of_mem {l w : List α} (h : w ∈ words blank l) : IsWord blank w :=
  isWord_of_mem_wordsFrom (List.forall_mem_nil _) h

/-- Words come of the list they were cut from. -/
theorem mem_of_mem_wordsFrom {word l w : List α} (h : w ∈ wordsFrom blank word l) {u : α} (hu : u ∈ w) :
    u ∈ word ++ l := by
  have hpending : ∀ {word : List α}, w ∈ pending word → u ∈ word := by
    intro word hw
    cases word with
    | nil => exact nomatch hw
    | cons v rest =>
        obtain rfl := List.mem_singleton.mp hw
        exact hu
  induction l generalizing word with
  | nil => exact List.mem_append_left _ (hpending h)
  | cons v rest ih =>
      cases hv : blank v with
      | true =>
          rw [wordsFrom_blank hv] at h
          rcases List.mem_append.mp h with h | h
          · exact List.mem_append_left _ (hpending h)
          · have := ih h
            rw [List.nil_append] at this
            exact List.mem_append_right _ (List.mem_cons_of_mem _ this)
      | false =>
          rw [wordsFrom_cons hv] at h
          have := ih h
          rwa [List.append_assoc] at this

theorem mem_of_mem_words {l w : List α} (h : w ∈ words blank l) {u : α} (hu : u ∈ w) : u ∈ l :=
  by
  have := mem_of_mem_wordsFrom h hu
  rwa [List.nil_append] at this

/-- Where there is no word, every member is blank. -/
theorem blanks_of_wordsFrom {word l : List α} (h : wordsFrom blank word l = []) :
    word = [] ∧ ∀ u ∈ l, blank u = true := by
  induction l generalizing word with
  | nil =>
      cases word with
      | nil => exact ⟨rfl, List.forall_mem_nil _⟩
      | cons u rest => exact nomatch h
  | cons v rest ih =>
      cases hv : blank v with
      | true =>
          rw [wordsFrom_blank hv, List.append_eq_nil_iff] at h
          refine ⟨?_, List.forall_mem_cons.mpr ⟨hv, (ih h.2).2⟩⟩
          cases word with
          | nil => rfl
          | cons u rest => exact nomatch h.1
      | false =>
          rw [wordsFrom_cons hv] at h
          exact absurd (ih h).1 (by simp)

theorem blanks_of_words {l : List α} (h : words blank l = []) : ∀ u ∈ l, blank u = true :=
  (blanks_of_wordsFrom h).2

theorem wordsFrom_ne_nil {word : List α} (h : word ≠ []) (l : List α) : wordsFrom blank word l ≠ [] :=
  fun hnil => h (blanks_of_wordsFrom hnil).1

-- ── Spaces ───────────────────────────────────────────────────────────────────────

theorem spaced_cons {ws : List (List α)} (h : ws ≠ []) (space : α) (w : List α) :
    spaced space (w :: ws) = w ++ space :: spaced space ws := by
  obtain ⟨next, rest, rfl⟩ := List.exists_cons_of_ne_nil h
  rfl

/-- **Words that are put together come apart again.** -/
theorem words_spaced {space : α} (hspace : blank space = true) {ws : List (List α)}
    (h : ∀ w ∈ ws, IsWord blank w) : words blank (spaced space ws) = ws := by
  induction ws with
  | nil => rfl
  | cons w rest ih =>
      have hw := h w (by simp)
      have hrest : ∀ v ∈ rest, IsWord blank v := fun v hv => h v (by simp [hv])
      cases rest with
      | nil => exact hw.words
      | cons next rest =>
          rw [spaced_cons (List.cons_ne_nil _ _), words_append_blank hspace, hw.words, ih hrest]
          rfl

theorem mem_spaced {space u : α} {ws : List (List α)} (h : u ∈ spaced space ws) :
    u = space ∨ ∃ w ∈ ws, u ∈ w := by
  induction ws with
  | nil => exact nomatch h
  | cons w rest ih =>
      cases rest with
      | nil => exact .inr ⟨w, by simp, h⟩
      | cons next rest =>
          rw [spaced_cons (List.cons_ne_nil _ _)] at h
          rcases List.mem_append.mp h with h | h
          · exact .inr ⟨w, by simp, h⟩
          · rcases List.mem_cons.mp h with h | h
            · exact .inl h
            · exact (ih h).imp id fun ⟨v, hv, hu⟩ => ⟨v, by simp [hv], hu⟩

theorem getLast_spaced {space u : α} (hspace : blank space = true) {ws : List (List α)} (h : ∀ w ∈ ws, IsWord blank w)
    (hu : (spaced space ws).getLast? = some u) : blank u = false := by
  induction ws with
  | nil => exact nomatch hu
  | cons w rest ih =>
      cases rest with
      | nil => exact (h w (by simp)).solid u (List.mem_of_getLast? hu)
      | cons next rest =>
          have hrest : ∀ v ∈ next :: rest, IsWord blank v := fun v hv => h v (by simp [hv])
          refine ih hrest ?_
          rw [spaced_cons (List.cons_ne_nil _ _), List.getLast?_append, List.getLast?_cons] at hu
          cases hlast : (spaced space (next :: rest)).getLast? with
          | none =>
              have hwords := words_spaced hspace hrest
              rw [List.getLast?_eq_none_iff.mp hlast] at hwords
              exact nomatch hwords
          | some v =>
              rw [hlast] at hu
              exact hu

end SpacedWords
