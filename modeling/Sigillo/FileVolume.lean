import Sigillo.AssocList
import Sigillo.Utf16Text

/-!
# Files, and the writes a crash can cut short

A directory of files by name, the three writes a program that cares about crashes makes to it
(append, replace, rename), and what a crash leaves: the writes made so far, and of the next one
either nothing or, when it is not a rename, some of its bytes. -/

namespace FileVolume

open Utf16Text

/-- **A directory**: no name twice. -/
structure Volume where
  files : List (JsString × Bytes)
  nodup : (files.map Prod.fst).Nodup

namespace Volume

/-- Nothing on it. -/
def empty : Volume := ⟨[], by simp⟩

/-- The contents of a file. -/
def read (v : Volume) (name : JsString) : Option Bytes := v.files.lookup name

/-- The directory without a file. -/
def remove (v : Volume) (name : JsString) : Volume where
  files := v.files.filter fun f => f.1 != name
  nodup := v.nodup.sublist ((List.filter_sublist).map Prod.fst)

theorem not_mem_remove (v : Volume) (name : JsString) :
    name ∉ (v.remove name).files.map Prod.fst := by
  intro h
  obtain ⟨f, hf, rfl⟩ := List.mem_map.mp h
  have := (List.mem_filter.mp hf).2
  simp at this

/-- The directory with a file's contents replaced, or the file added. -/
def write (v : Volume) (name : JsString) (bytes : Bytes) : Volume where
  files := (name, bytes) :: (v.remove name).files
  nodup := by
    rw [List.map_cons, List.nodup_cons]
    exact ⟨v.not_mem_remove name, (v.remove name).nodup⟩

@[simp] theorem read_empty (name : JsString) : empty.read name = none := rfl

theorem read_remove (v : Volume) (name other : JsString) :
    (v.remove name).read other = if other = name then none else v.read other := by
  obtain ⟨files, hnd⟩ := v
  show (files.filter fun f => f.1 != name).lookup other = if other = name then none
    else files.lookup other
  clear hnd
  induction files with
  | nil => simp
  | cons f files ih =>
      obtain ⟨a, b⟩ := f
      by_cases ha : a = name
      · subst ha
        rw [List.filter_cons_of_neg (by simp), ih]
        split_ifs with ho
        · rfl
        · rw [List.lookup_cons, beq_false_of_ne ho]
      · rw [List.filter_cons_of_pos (by simpa using ha), List.lookup_cons, List.lookup_cons, ih]
        by_cases ho : other = a
        · subst ho
          simp [ha]
        · simp [beq_false_of_ne ho]

@[simp] theorem read_write_self (v : Volume) (name : JsString) (bytes : Bytes) :
    (v.write name bytes).read name = some bytes := List.lookup_cons_self

theorem read_write_of_ne (v : Volume) {name other : JsString} (h : other ≠ name) (bytes : Bytes) :
    (v.write name bytes).read other = v.read other := by
  have hread : (v.write name bytes).read other = (v.remove name).read other := by
    show List.lookup other ((name, bytes) :: _) = _
    rw [List.lookup_cons, beq_false_of_ne h]
    rfl
  rw [hread, read_remove, if_neg h]

theorem mem_files_iff (v : Volume) {name : JsString} {bytes : Bytes} :
    (name, bytes) ∈ v.files ↔ v.read name = some bytes :=
  (AssocList.lookup_eq_some_iff_mem v.nodup).symm

end Volume

/-- A write. -/
inductive Op where
  | append (name : JsString) (bytes : Bytes)
  | replace (name : JsString) (bytes : Bytes)
  | rename (source target : JsString)

namespace Op

/-- A write that completed. -/
def apply (v : Volume) : Op → Volume
  | .append name bytes => v.write name ((v.read name).getD [] ++ bytes)
  | .replace name bytes => v.write name bytes
  | .rename source target =>
      match v.read source with
      | some bytes => (v.remove source).write target bytes
      | none => v

/-- A write cut short after some bytes; a rename happens or does not. -/
def torn (v : Volume) (count : ℕ) : Op → Volume
  | .append name bytes => v.write name ((v.read name).getD [] ++ bytes.take count)
  | .replace name bytes => v.write name (bytes.take count)
  | .rename _ _ => v

end Op

/-- Some writes, one after another. -/
def applyAll (v : Volume) (ops : List Op) : Volume := ops.foldl Op.apply v

/-- **What a crash leaves**: `done` writes completed, and the next one not begun, or cut short
    after `cut` bytes. -/
def crashed (v : Volume) (ops : List Op) (done : ℕ) (cut : Option ℕ) : Volume :=
  match ops.drop done, cut with
  | op :: _, some count => op.torn (applyAll v (ops.take done)) count
  | _, _ => applyAll v (ops.take done)

/-- **The directory of a state with a journal beside it**, after a line is appended to the journal,
    the state written aside and renamed over the old one, cut short anywhere: before the rename
    only the journal and the file aside have changed. -/
theorem crashed_journalled (v : Volume) (journal aside target : JsString) (line state : Bytes)
    (done : ℕ) (cut : Option ℕ) :
    let v₁ := v.write journal ((v.read journal).getD [] ++ line)
    let v₂ := crashed v [.append journal line, .replace aside state, .rename aside target] done cut
    (3 ≤ done ∧ v₂ = ((v₁.write aside state).remove aside).write target state) ∨
      (done < 3 ∧ (v₂ = v ∨ (∃ n, v₂ = v.write journal ((v.read journal).getD [] ++ line.take n)) ∨
        v₂ = v₁ ∨ ∃ n, v₂ = v₁.write aside (state.take n))) := by
  match done, cut with
  | 0, none => exact .inr ⟨by omega, .inl rfl⟩
  | 0, some n => exact .inr ⟨by omega, .inr (.inl ⟨n, rfl⟩)⟩
  | 1, none => exact .inr ⟨by omega, .inr (.inr (.inl rfl))⟩
  | 1, some n => exact .inr ⟨by omega, .inr (.inr (.inr ⟨n, rfl⟩))⟩
  | 2, none | 2, some _ =>
      refine .inr ⟨by omega, .inr (.inr (.inr ⟨state.length, ?_⟩))⟩
      rw [List.take_length]
      rfl
  | n + 3, cut =>
      refine .inl ⟨by omega, ?_⟩
      have hread := Volume.read_write_self
        (v.write journal ((v.read journal).getD [] ++ line)) aside state
      simp [crashed, applyAll, Op.apply, hread]

end FileVolume
