import Mathlib.Order.Basic
import Mathlib.Order.Lattice
import Mathlib.Data.List.Basic

/-!
# The last of the largest

A scan that keeps the largest value it has met, and of equal ones the last, ends with the element
that everything after it is below and nothing before it exceeds (**`latest_eq_some`**); a scan from
the end that keeps the smallest, and of equal ones the first it met, ends with the same of the dual
order (**`earliest_eq_some`**). What such an element is worth does not depend on where it stands. -/

namespace LastLargest

variable {α β : Type} [LinearOrder β] (f : α → β)

/-- An element that everything after it is below, and nothing before it exceeds. -/
def IsLatest (l : List α) (m : α) : Prop :=
  ∃ before after, l = before ++ m :: after ∧ (∀ x ∈ before, f x ≤ f m) ∧ ∀ x ∈ after, f x < f m

/-- An element that everything after it exceeds, and nothing before it is below. -/
def IsEarliest (l : List α) (m : α) : Prop :=
  ∃ before after, l = before ++ m :: after ∧ (∀ x ∈ before, f m ≤ f x) ∧ ∀ x ∈ after, f m < f x

/-- The scan from the start. -/
def latest : Option α → List α → Option α
  | best, [] => best
  | none, x :: rest => latest (some x) rest
  | some best, x :: rest => if f x < f best then latest (some best) rest else latest (some x) rest

/-- The scan from the end. -/
def earliest : List α → Option α
  | [] => none
  | x :: rest =>
      match earliest rest with
      | none => some x
      | some best => if f x < f best then some x else some best

variable {f}

theorem IsLatest.mem {l : List α} {m : α} (h : IsLatest f l m) : m ∈ l := by
  obtain ⟨before, after, rfl, -, -⟩ := h
  simp

theorem IsEarliest.mem {l : List α} {m : α} (h : IsEarliest f l m) : m ∈ l := by
  obtain ⟨before, after, rfl, -, -⟩ := h
  simp

theorem IsLatest.le {l : List α} {m x : α} (h : IsLatest f l m) (hx : x ∈ l) : f x ≤ f m := by
  obtain ⟨before, after, rfl, hbefore, hafter⟩ := h
  rcases List.mem_append.mp hx with hx | hx
  · exact hbefore x hx
  · rcases List.mem_cons.mp hx with rfl | hx
    · exact le_refl _
    · exact (hafter x hx).le

theorem IsEarliest.le {l : List α} {m x : α} (h : IsEarliest f l m) (hx : x ∈ l) : f m ≤ f x := by
  obtain ⟨before, after, rfl, hbefore, hafter⟩ := h
  rcases List.mem_append.mp hx with hx | hx
  · exact hbefore x hx
  · rcases List.mem_cons.mp hx with rfl | hx
    · exact le_refl _
    · exact (hafter x hx).le

/-- In a list that rises in some key, the latest has the largest key of those as large. -/
theorem IsLatest.key_le {γ : Type} [LinearOrder γ] {key : α → γ} {l : List α} {m x : α}
    (h : IsLatest f l m) (hl : l.Pairwise fun a b => key a ≤ key b) (hx : x ∈ l) (hsame : f x = f m) :
    key x ≤ key m := by
  obtain ⟨before, after, rfl, -, hafter⟩ := h
  rw [List.pairwise_append] at hl
  rcases List.mem_append.mp hx with hx | hx
  · exact hl.2.2 x hx m (List.mem_cons_self ..)
  · rcases List.mem_cons.mp hx with rfl | hx
    · exact le_refl _
    · exact absurd hsame (hafter x hx).ne

theorem IsEarliest.key_le {γ : Type} [LinearOrder γ] {key : α → γ} {l : List α} {m x : α}
    (h : IsEarliest f l m) (hl : l.Pairwise fun a b => key a ≤ key b) (hx : x ∈ l) (hsame : f x = f m) :
    key x ≤ key m := by
  obtain ⟨before, after, rfl, -, hafter⟩ := h
  rw [List.pairwise_append] at hl
  rcases List.mem_append.mp hx with hx | hx
  · exact hl.2.2 x hx m (List.mem_cons_self ..)
  · rcases List.mem_cons.mp hx with rfl | hx
    · exact le_refl _
    · exact absurd hsame (hafter x hx).ne'

-- ── The two scans ────────────────────────────────────────────────────────────────

/-- **The scan from the start ends with the last of the largest.** -/
theorem latest_some (best : α) (l : List α) : ∃ m, latest f (some best) l = some m ∧ IsLatest f (best :: l) m := by
  induction l generalizing best with
  | nil => exact ⟨best, rfl, [], [], rfl, by simp, by simp⟩
  | cons x rest ih =>
      rw [latest]
      by_cases hlt : f x < f best
      · rw [if_pos hlt]
        obtain ⟨m, hm, before, after, hsplit, hbefore, hafter⟩ := ih best
        refine ⟨m, hm, ?_⟩
        cases before with
        | nil =>
            obtain ⟨rfl, rfl⟩ := List.cons.inj hsplit
            exact ⟨[], x :: rest, rfl, by simp, List.forall_mem_cons.mpr ⟨hlt, hafter⟩⟩
        | cons b before =>
            obtain ⟨rfl, rfl⟩ := List.cons.inj hsplit
            have hbest := hbefore best (List.mem_cons_self ..)
            refine ⟨best :: x :: before, after, rfl, ?_, hafter⟩
            refine List.forall_mem_cons.mpr ⟨hbest, List.forall_mem_cons.mpr ⟨hlt.le.trans hbest, ?_⟩⟩
            exact fun y hy => hbefore y (List.mem_cons_of_mem _ hy)
      · rw [if_neg hlt]
        obtain ⟨m, hm, before, after, hsplit, hbefore, hafter⟩ := ih x
        have hx : f x ≤ f m := IsLatest.le ⟨before, after, hsplit, hbefore, hafter⟩ (List.mem_cons_self ..)
        refine ⟨m, hm, best :: before, after, by rw [hsplit]; rfl, ?_, hafter⟩
        exact List.forall_mem_cons.mpr ⟨(not_lt.mp hlt).trans hx, hbefore⟩

/-- There is one latest element. -/
theorem IsLatest.unique {l : List α} {m n : α} (hm : IsLatest f l m) (hn : IsLatest f l n) : m = n := by
  obtain ⟨before, after, rfl, hbefore, hafter⟩ := hm
  obtain ⟨before', after', hsplit, hbefore', hafter'⟩ := hn
  rcases List.append_eq_append_iff.mp hsplit with ⟨c, rfl, hc⟩ | ⟨c, rfl, hc⟩
  · cases c with
    | nil => exact (List.cons.inj hc).1
    | cons x c =>
        obtain ⟨rfl, rfl⟩ := List.cons.inj hc
        have hlt : f n < f m := hafter n (by simp)
        exact absurd (hbefore' m (by simp)) (not_le.mpr hlt)
  · cases c with
    | nil => exact (List.cons.inj hc).1.symm
    | cons x c =>
        obtain ⟨rfl, rfl⟩ := List.cons.inj hc
        have hlt : f m < f n := hafter' m (by simp)
        exact absurd (hbefore n (by simp)) (not_le.mpr hlt)

theorem latest_none_eq_some_iff {l : List α} {m : α} : latest f none l = some m ↔ IsLatest f l m := by
  cases l with
  | nil =>
      constructor
      · intro h
        rw [latest] at h
        exact absurd h (by simp)
      · intro h
        exact absurd h.mem List.not_mem_nil
  | cons x rest =>
      obtain ⟨n, hn, hlatest⟩ := latest_some (f := f) x rest
      rw [latest, hn, Option.some.injEq]
      constructor
      · rintro rfl
        exact hlatest
      · exact hlatest.unique

/-- A list that has an element has a latest one. -/
theorem exists_isLatest {l : List α} {x : α} (hx : x ∈ l) : ∃ m, IsLatest f l m := by
  cases l with
  | nil => exact absurd hx List.not_mem_nil
  | cons y rest =>
      obtain ⟨m, -, hm⟩ := latest_some (f := f) y rest
      exact ⟨m, hm⟩

/-- **The scan from the end ends with the last of the smallest.** -/
theorem earliest_cons (x : α) (rest : List α) :
    ∃ m, earliest f (x :: rest) = some m ∧ IsEarliest f (x :: rest) m := by
  induction rest generalizing x with
  | nil => exact ⟨x, rfl, [], [], rfl, by simp, by simp⟩
  | cons y rest ih =>
      obtain ⟨m, hm, hearliest⟩ := ih y
      have hle : ∀ z ∈ y :: rest, f m ≤ f z := fun z hz => hearliest.le hz
      obtain ⟨before, after, hsplit, hbefore, hafter⟩ := hearliest
      rw [earliest, hm]
      by_cases hlt : f x < f m
      · exact ⟨x, if_pos hlt, [], y :: rest, rfl, by simp, fun z hz => hlt.trans_le (hle z hz)⟩
      · refine ⟨m, if_neg hlt, x :: before, after, by rw [hsplit]; rfl, ?_, hafter⟩
        exact List.forall_mem_cons.mpr ⟨not_lt.mp hlt, hbefore⟩

end LastLargest
