import Sigillo.JsonBytes

/-!
# The size of a canonical form

The bytes of a value's canonical form, counted over the value itself, and the texts it holds. The
order of an object's members changes neither (**`jsonSize_sortKeys`**, **`mem_texts_sortKeys`**), so
both can be read off a value as it was put together; **`length_canonicalBytes`** ties the count to
the bytes. -/

namespace JsonText

open DoubleArith Utf16Text

-- ── Texts and their bytes ────────────────────────────────────────────────────────

/-- The bytes of a text in UTF-8. -/
def textBytes (s : JsString) : ℕ := (utf8Encode s).length

/-- The bytes of two texts of scalar values. -/
theorem Scalars.utf8Encode_append {s : JsString} (hs : Scalars s) (t : JsString) :
    utf8Encode (s ++ t) = utf8Encode s ++ utf8Encode t := by
  obtain ⟨l, rfl, hl⟩ := hs
  have hpoints : points (l.flatMap unitsOf ++ t) = l ++ points t := by
    induction l with
    | nil => rfl
    | cons cp l ih =>
        obtain ⟨hmax, hsur⟩ := hl cp (by simp)
        rw [List.flatMap_cons, List.append_assoc, points_unitsOf_append hmax hsur,
          ih fun c hc => hl c (by simp [hc])]
        rfl
  rw [utf8Encode, utf8Encode, hpoints, points_flatMap_unitsOf hl, List.flatMap_append, utf8Encode]

/-- The bytes of texts one after the other, the first made of whole characters. -/
theorem textBytes_append {s : JsString} (hs : Scalars s) (t : JsString) :
    textBytes (s ++ t) = textBytes s + textBytes t := by
  rw [textBytes, Scalars.utf8Encode_append hs, List.length_append, textBytes, textBytes]

/-- ASCII is one byte a unit. -/
theorem textBytes_ascii {s : JsString} (h : ∀ u ∈ s, u.toNat < 0x80) : textBytes s = s.length := by
  induction s with
  | nil => rfl
  | cons u s ih =>
      have hu := h u (by simp)
      have hone : textBytes [u] = 1 := by
        have hns : isSurrogate u.toNat = false := by
          rw [← Bool.not_eq_true, isSurrogate_iff]
          omega
        rw [textBytes, ← unitsOf_toNat u, ← List.append_nil (unitsOf u.toNat), utf8Encode,
          points_unitsOf_append (by omega) hns]
        simp only [List.flatMap_cons, hns, Bool.false_eq_true, if_false, encodePoint, if_pos hu]
        rfl
      have hscalars : Scalars [u] := .of_ascii (by simpa using hu)
      rw [← List.singleton_append, textBytes_append hscalars, hone, List.length_append,
        ih fun v hv => h v (by simp [hv]), List.length_singleton]

-- ── Values ───────────────────────────────────────────────────────────────────────

/-- The bytes of a text between its quotes. -/
def quotedSize (s : JsString) : ℕ := textBytes (quote s)

/-- A character that is one byte and stands for itself between quotes. -/
def isPlainUnit (u : UInt16) : Bool :=
  decide (0x20 ≤ u.toNat ∧ u.toNat < 0x80 ∧ u.toNat ≠ 0x22 ∧ u.toNat ≠ 0x5C)

/-- A text of units that stand for themselves in JSON. -/
def PlainText (s : JsString) : Prop := ∀ u ∈ s, isPlainUnit u = true

instance : DecidablePred PlainText := fun s => inferInstanceAs (Decidable (∀ u ∈ s, _))

/-- Printable ASCII but for the quote and the backslash. -/
theorem isPlainUnit_iff {u : UInt16} : isPlainUnit u = true ↔
    0x20 ≤ u.toNat ∧ u.toNat < 0x80 ∧ u.toNat ≠ 0x22 ∧ u.toNat ≠ 0x5C := by
  rw [isPlainUnit, decide_eq_true_eq]

/-- Plain text is well-formed. -/
theorem PlainText.isWellFormed {s : JsString} (h : PlainText s) : isWellFormed s = true :=
  (Scalars.of_ascii fun u hu => (isPlainUnit_iff.mp (h u hu)).2.1).isWellFormed

/-- Plain text is quoted as it is. -/
theorem quote_plain {s : JsString} (h : PlainText s) : quote s = 0x22 :: s ++ [0x22] := by
  have hbody : (points s).flatMap escapePoint = s := by
    induction s with
    | nil => rfl
    | cons u s ih =>
        obtain ⟨hlo, hhi, hquote, hslash⟩ := isPlainUnit_iff.mp (h u (by simp))
        have hns : isSurrogate u.toNat = false := by
          rw [← Bool.not_eq_true, isSurrogate_iff]
          omega
        have hescape : escapePoint u.toNat = [u] := by
          rw [escapePoint, if_neg (by omega), if_neg (by omega), if_neg (by omega), if_neg (by omega),
            if_neg (by omega), if_neg hquote, if_neg hslash, if_neg (by simp [hns]; omega), unitsOf_toNat]
        have hpoints : points (unitsOf u.toNat ++ s) = u.toNat :: points s :=
          points_unitsOf_append (by omega) hns s
        rw [unitsOf_toNat] at hpoints
        rw [← List.singleton_append, hpoints, List.flatMap_cons, hescape,
          ih fun v hv => h v (by simp [hv])]
  rw [quote, hbody]

/-- Plain text with its two quotes. -/
theorem quotedSize_plain {s : JsString} (h : PlainText s) : quotedSize s = s.length + 2 := by
  have hascii : ∀ u ∈ 0x22 :: s ++ [0x22], u.toNat < 0x80 := by
    intro u hu
    simp only [List.cons_append, List.mem_cons, List.mem_append, List.not_mem_nil, or_false] at hu
    rcases hu with rfl | hu | rfl
    · decide
    · exact (isPlainUnit_iff.mp (h u hu)).2.1
    · decide
  rw [quotedSize, quote_plain h, textBytes_ascii hascii]
  simp

mutual
/-- **The bytes of a value's canonical form.** Behind its bracket each item has one sign before it,
    the bracket or a comma. -/
def jsonSize : Json → ℕ
  | .null => 4
  | .bool b => if b then 4 else 5
  | .num (.fin q h) => (numberToString (.fin q h)).length
  | .num (.infinity _) => 4
  | .str s => quotedSize s
  | .arr [] => 2
  | .arr (v :: vs) => 1 + itemsSize (v :: vs)
  | .obj [] => 2
  | .obj (m :: ms) => 1 + membersSize (m :: ms)

/-- The items of an array, each with what stands before it. -/
def itemsSize : List Json → ℕ
  | [] => 0
  | v :: vs => 1 + jsonSize v + itemsSize vs

/-- The members of an object, each with what stands around it. -/
def membersSize : List (JsString × Json) → ℕ
  | [] => 0
  | (k, v) :: ms => 2 + quotedSize k + jsonSize v + membersSize ms
end

/-- The sum over the members. -/
theorem membersSize_eq (ms : List (JsString × Json)) :
    membersSize ms = (ms.map fun m => 2 + quotedSize m.1 + jsonSize m.2).sum := by
  induction ms with
  | nil => rfl
  | cons m ms ih => rw [membersSize, ih, List.map_cons, List.sum_cons]

/-- Their order changes nothing. -/
theorem membersSize_perm {ms ns : List (JsString × Json)} (h : ms.Perm ns) :
    membersSize ms = membersSize ns := by
  rw [membersSize_eq, membersSize_eq]
  exact (h.map _).sum_eq

/-- Members behind members. -/
theorem membersSize_append (ms ns : List (JsString × Json)) :
    membersSize (ms ++ ns) = membersSize ms + membersSize ns := by
  rw [membersSize_eq, List.map_append, List.sum_append, ← membersSize_eq, ← membersSize_eq]

/-- An object of at least one member. -/
theorem jsonSize_obj {ms : List (JsString × Json)} (h : ms ≠ []) :
    jsonSize (.obj ms) = 1 + membersSize ms := by
  cases ms with
  | nil => exact absurd rfl h
  | cons m ms => rw [jsonSize]

/-- An array with something in it. -/
theorem jsonSize_arr {vs : List Json} (h : vs ≠ []) : jsonSize (.arr vs) = 1 + itemsSize vs := by
  cases vs with
  | nil => exact absurd rfl h
  | cons v vs => rw [jsonSize]

mutual
/-- **The order of members adds no byte and takes none.** -/
theorem jsonSize_sortKeys : ∀ v : Json, jsonSize (sortKeys v) = jsonSize v
  | .null => by rw [sortKeys]
  | .bool b => by rw [sortKeys]
  | .num x => by rw [sortKeys]
  | .str s => by rw [sortKeys]
  | .arr [] => by rw [sortKeys, sortKeysItems]
  | .arr (v :: vs) => by
      rw [sortKeys, jsonSize_arr (by simp [sortKeysItems]), itemsSize_sortKeys,
        jsonSize_arr (by simp)]
  | .obj [] => by rw [sortKeys, sortKeysMembers, List.mergeSort_nil]
  | .obj (m :: ms) => by
      have hne : sortedMembers (m :: ms) ≠ [] := by
        rw [← List.length_pos_iff, (sortedMembers_perm (m :: ms)).length_eq]
        simp
      rw [sortKeys_obj, jsonSize_obj hne, membersSize_perm (sortedMembers_perm (m :: ms)),
        ← sortKeysMembers_eq, membersSize_sortKeys, jsonSize_obj (by simp)]

/-- Sorting changes no item's size. -/
theorem itemsSize_sortKeys : ∀ vs : List Json, itemsSize (sortKeysItems vs) = itemsSize vs
  | [] => by rw [sortKeysItems]
  | v :: vs => by
      rw [sortKeysItems, itemsSize, itemsSize, jsonSize_sortKeys v, itemsSize_sortKeys vs]

/-- Sorting changes no member's size. -/
theorem membersSize_sortKeys : ∀ ms : List (JsString × Json),
    membersSize (sortKeysMembers ms) = membersSize ms
  | [] => by rw [sortKeysMembers]
  | (k, v) :: ms => by
      rw [sortKeysMembers, membersSize, membersSize, jsonSize_sortKeys v, membersSize_sortKeys ms]
end

/-- A number is ASCII. -/
theorem textBytes_number {q : ℚ} {h : IsDouble q} :
    textBytes (numberToString (.fin q h)) = (numberToString (.fin q h)).length :=
  textBytes_ascii fun _ hu => (numberChar_numberToString hu).range.2

/-- JSON is written in scalar values. -/
theorem scalars_stringifyAt (v : Json) (depth : ℕ) : Scalars (stringifyAt 0 depth v) :=
  (scalars_property 0).stringifyAt v depth

/-- A sign, and what stands behind it. -/
theorem textBytes_cons {u : UInt16} (hu : u.toNat < 0x80) (s : JsString) :
    textBytes (u :: s) = 1 + textBytes s := by
  have hone : ∀ v ∈ [u], v.toNat < 0x80 := by simpa using hu
  rw [← List.singleton_append, textBytes_append (.of_ascii hone), textBytes_ascii hone,
    List.length_singleton]

mutual
/-- **JSON takes the bytes of its size.** -/
theorem textBytes_stringifyAt : ∀ (v : Json) (depth : ℕ), textBytes (stringifyAt 0 depth v) = jsonSize v
  | .null, depth => by
      rw [stringifyAt, jsonSize]
      rfl
  | .bool true, depth => by
      rw [stringifyAt, jsonSize]
      rfl
  | .bool false, depth => by
      rw [stringifyAt, jsonSize]
      rfl
  | .num (.fin q h), depth => by rw [stringifyAt, jsonSize, textBytes_number]
  | .num (.infinity _), depth => by
      rw [stringifyAt, jsonSize]
      rfl
  | .str s, depth => by rw [stringifyAt, jsonSize, quotedSize]
  | .arr [], depth => by
      rw [stringifyAt, jsonSize]
      rfl
  | .arr (v :: vs), depth => by
      have hitems := (scalars_property 0).stringifyItems vs (depth + 1)
      simp only [stringifyAt, gap, if_pos, List.cons_append, List.nil_append, List.append_nil,
        List.append_assoc]
      rw [textBytes_cons (by decide), textBytes_append (scalars_stringifyAt v _),
        textBytes_append hitems, textBytes_stringifyAt v, textBytes_stringifyItems vs, jsonSize, itemsSize,
        textBytes_ascii (s := [0x5D]) (by decide), List.length_singleton]
      omega
  | .obj [], depth => by
      rw [stringifyAt, jsonSize]
      rfl
  | .obj ((k, v) :: ms), depth => by
      have hmembers := (scalars_property 0).stringifyMembers ms (depth + 1)
      simp only [stringifyAt, gap, colon, if_pos, List.cons_append, List.nil_append, List.append_nil,
        List.append_assoc]
      rw [textBytes_cons (by decide), textBytes_append (scalars_quote k), textBytes_cons (by decide),
        textBytes_append (scalars_stringifyAt v _), textBytes_append hmembers,
        textBytes_stringifyAt v, textBytes_stringifyMembers ms, jsonSize, membersSize,
        textBytes_ascii (s := [0x7D]) (by decide), List.length_singleton, quotedSize]
      omega

/-- The items take theirs. -/
theorem textBytes_stringifyItems : ∀ (vs : List Json) (depth : ℕ),
    textBytes (stringifyItems 0 depth vs) = itemsSize vs
  | [], depth => by
      rw [stringifyItems, itemsSize]
      rfl
  | v :: vs, depth => by
      simp only [stringifyItems, gap, if_pos, List.nil_append, List.cons_append]
      rw [textBytes_cons (by decide), textBytes_append (scalars_stringifyAt v _),
        textBytes_stringifyAt v, textBytes_stringifyItems vs, itemsSize]
      omega

/-- The members take theirs. -/
theorem textBytes_stringifyMembers : ∀ (ms : List (JsString × Json)) (depth : ℕ),
    textBytes (stringifyMembers 0 depth ms) = membersSize ms
  | [], depth => by
      rw [stringifyMembers, membersSize]
      rfl
  | (k, v) :: ms, depth => by
      simp only [stringifyMembers, gap, colon, if_pos, List.nil_append, List.cons_append,
        List.append_assoc]
      rw [textBytes_cons (by decide), textBytes_append (scalars_quote k), textBytes_cons (by decide),
        textBytes_append (scalars_stringifyAt v _), textBytes_stringifyAt v,
        textBytes_stringifyMembers ms, membersSize, quotedSize]
      omega
end

/-- **The bytes of a canonical form, counted over the value.** -/
theorem length_canonicalBytes (v : Json) : (canonicalBytes v).length = jsonSize v := by
  have h := textBytes_stringifyAt (sortKeys v) 0
  rw [jsonSize_sortKeys] at h
  exact h

-- ── The texts in a value ─────────────────────────────────────────────────────────

mutual
/-- The strings of a value, the names of members left out. -/
def texts : Json → List JsString
  | .str s => [s]
  | .arr items => textsOfItems items
  | .obj members => textsOfMembers members
  | _ => []

/-- The texts in the items of an array. -/
def textsOfItems : List Json → List JsString
  | [] => []
  | v :: vs => texts v ++ textsOfItems vs

/-- The texts in the values of an object. -/
def textsOfMembers : List (JsString × Json) → List JsString
  | [] => []
  | (_, v) :: ms => texts v ++ textsOfMembers ms
end

/-- Item by item. -/
theorem textsOfItems_eq (vs : List Json) : textsOfItems vs = vs.flatMap texts := by
  induction vs with
  | nil => rfl
  | cons v vs ih => rw [textsOfItems, ih, List.flatMap_cons]

/-- Member by member. -/
theorem textsOfMembers_eq (ms : List (JsString × Json)) :
    textsOfMembers ms = ms.flatMap fun m => texts m.2 := by
  induction ms with
  | nil => rfl
  | cons m ms ih => rw [textsOfMembers, ih, List.flatMap_cons]

/-- Every text of an object is one of a member's value. -/
theorem forall_texts_obj {P : JsString → Prop} {ms : List (JsString × Json)} :
    (∀ s ∈ texts (.obj ms), P s) ↔ ∀ m ∈ ms, ∀ s ∈ texts m.2, P s := by
  rw [texts, textsOfMembers_eq, List.forall_mem_flatMap]

/-- Every text of an array is one of an item. -/
theorem forall_texts_arr {P : JsString → Prop} {vs : List Json} :
    (∀ s ∈ texts (.arr vs), P s) ↔ ∀ v ∈ vs, ∀ s ∈ texts v, P s := by
  rw [texts, textsOfItems_eq, List.forall_mem_flatMap]

mutual
/-- **A value holds the texts its sorted form holds.** -/
theorem mem_texts_sortKeys {s : JsString} : ∀ v : Json, s ∈ texts (sortKeys v) ↔ s ∈ texts v
  | .null => by rw [sortKeys]
  | .bool b => by rw [sortKeys]
  | .num x => by rw [sortKeys]
  | .str s => by rw [sortKeys]
  | .arr items => by rw [sortKeys, texts, texts, mem_textsOfItems_sortKeys items]
  | .obj members => by
      have hperm := (sortedMembers_perm members).flatMap_right (f := fun m => texts m.2)
      rw [sortKeys_obj, texts, texts, ← mem_textsOfMembers_sortKeys members, textsOfMembers_eq,
        hperm.mem_iff, ← textsOfMembers_eq, ← sortKeysMembers_eq]

/-- Sorting keeps the texts of the items. -/
theorem mem_textsOfItems_sortKeys {s : JsString} : ∀ vs : List Json,
    s ∈ textsOfItems (sortKeysItems vs) ↔ s ∈ textsOfItems vs
  | [] => by rw [sortKeysItems]
  | v :: vs => by
      rw [sortKeysItems, textsOfItems, textsOfItems, List.mem_append, List.mem_append,
        mem_texts_sortKeys v, mem_textsOfItems_sortKeys vs]

/-- Sorting keeps the texts of the members. -/
theorem mem_textsOfMembers_sortKeys {s : JsString} : ∀ ms : List (JsString × Json),
    s ∈ textsOfMembers (sortKeysMembers ms) ↔ s ∈ textsOfMembers ms
  | [] => by rw [sortKeysMembers]
  | (k, v) :: ms => by
      rw [sortKeysMembers, textsOfMembers, textsOfMembers, List.mem_append, List.mem_append,
        mem_texts_sortKeys v, mem_textsOfMembers_sortKeys ms]
end

end JsonText
