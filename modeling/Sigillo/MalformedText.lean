import Sigillo.JsonSize

/-!
# Strings that are not well-formed

RFC 8785 is defined over well-formed Unicode. Server and signer alike look for the first string of
a value that holds half of a surrogate pair, and name its path. -/

namespace Sigillo

open Utf16Text JsonText

/-- A member's name after the path of the object that holds it. -/
def pathTo (path key : JsString) : JsString := if path = [] then key else path ++ 0x2E :: key

mutual
/-- The path of the first string in a value that is not well-formed Unicode. -/
def malformedStringIn : Json → JsString → Option JsString
  | .str s, path => if isWellFormed s then none else some path
  | .arr items, path => malformedItem 0 items path
  | .obj members, path => malformedMember members path
  | _, _ => none

/-- The first malformed text of an array's items. -/
def malformedItem : ℕ → List Json → JsString → Option JsString
  | _, [], _ => none
  | index, v :: vs, path =>
      match malformedStringIn v (pathTo path (decimal index)) with
      | some found => some found
      | none => malformedItem (index + 1) vs path

/-- The first malformed text of an object's members. -/
def malformedMember : List (JsString × Json) → JsString → Option JsString
  | [], _ => none
  | (key, v) :: ms, path =>
      match malformedStringIn v (pathTo path key) with
      | some found => some found
      | none => malformedMember ms path
end

mutual
/-- **Nothing is found malformed** exactly when every text is well-formed. -/
theorem malformedStringIn_eq_none : ∀ (v : Json) (path : JsString),
    malformedStringIn v path = none ↔ ∀ s ∈ texts v, isWellFormed s = true
  | .null, path => by simp [malformedStringIn, texts]
  | .bool b, path => by simp [malformedStringIn, texts]
  | .num x, path => by simp [malformedStringIn, texts]
  | .str s, path => by simp [malformedStringIn, texts]
  | .arr items, path => by
      rw [malformedStringIn, texts, malformedItem_eq_none items path 0]
  | .obj members, path => by
      rw [malformedStringIn, texts, malformedMember_eq_none members path]

theorem malformedItem_eq_none : ∀ (vs : List Json) (path : JsString) (i : ℕ),
    malformedItem i vs path = none ↔ ∀ s ∈ textsOfItems vs, isWellFormed s = true
  | [], path, i => by simp [malformedItem, textsOfItems]
  | v :: vs, path, i => by
      rw [malformedItem, textsOfItems, List.forall_mem_append,
        ← malformedStringIn_eq_none v (pathTo path (decimal i)),
        ← malformedItem_eq_none vs path (i + 1)]
      cases malformedStringIn v (pathTo path (decimal i)) with
      | none => simp
      | some found => simp

theorem malformedMember_eq_none : ∀ (ms : List (JsString × Json)) (path : JsString),
    malformedMember ms path = none ↔ ∀ s ∈ textsOfMembers ms, isWellFormed s = true
  | [], path => by simp [malformedMember, textsOfMembers]
  | (k, v) :: ms, path => by
      rw [malformedMember, textsOfMembers, List.forall_mem_append,
        ← malformedStringIn_eq_none v (pathTo path k), ← malformedMember_eq_none ms path]
      cases malformedStringIn v (pathTo path k) with
      | none => simp
      | some found => simp
end

end Sigillo
