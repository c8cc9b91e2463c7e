import Sigillo.JsonSchema
import Sigillo.JsonReading

/-!
# JSON texts as bytes

A text `JSON.stringify` wrote is made of whole characters, so its UTF-8 bytes decode to it; without
an indent it has no line feed, so a file of such texts, one to a line, splits back into them. The
bytes of an object cut short anywhere read as nothing (`jsonParse_torn_bytes`), and the canonical
bytes of a value of a schema determine it (`canonicalBytes_injective`). -/

namespace JsonText

open DoubleArith Utf16Text JsonParse JsonSchema

-- ── A property of every text written ─────────────────────────────────────────────

/-- A property of texts that concatenation keeps and that the pieces of a JSON text have. -/
structure TextProperty (indent : ℕ) (P : JsString → Prop) : Prop where
  nil : P []
  append : ∀ {s t}, P s → P t → P (s ++ t)
  token : ∀ u ∈ ([0x5B, 0x5D, 0x7B, 0x7D, 0x2C, 0x3A, 0x20] : List UInt16), P [u]
  name : ∀ s ∈ ["null", "true", "false"], P (js s)
  gap : ∀ depth, P (gap indent depth)
  number : ∀ (q : ℚ) (h : IsDouble q), P (numberToString (.fin q h))
  quote : ∀ s, P (quote s)

theorem TextProperty.cons {indent : ℕ} {P : JsString → Prop} (hP : TextProperty indent P)
    {u : UInt16} (hu : u ∈ ([0x5B, 0x5D, 0x7B, 0x7D, 0x2C, 0x3A, 0x20] : List UInt16))
    {s : JsString} (hs : P s) : P (u :: s) := hP.append (hP.token u hu) hs

theorem TextProperty.colon {indent : ℕ} {P : JsString → Prop} (hP : TextProperty indent P) :
    P (colon indent) := by
  unfold JsonText.colon
  split_ifs
  · exact hP.token _ (by simp)
  · exact hP.cons (by simp) (hP.token _ (by simp))

mutual
/-- **Every text written of a value has a property its pieces have.** -/
theorem TextProperty.stringifyAt {indent : ℕ} {P : JsString → Prop} (hP : TextProperty indent P) :
    ∀ (v : Json) (depth : ℕ), P (stringifyAt indent depth v)
  | .null, depth => by
      rw [JsonText.stringifyAt]
      exact hP.name _ (by simp)
  | .bool b, depth => by
      rw [JsonText.stringifyAt]
      split_ifs
      · exact hP.name _ (by simp)
      · exact hP.name _ (by simp)
  | .num (.fin q h), depth => by
      rw [JsonText.stringifyAt]
      exact hP.number q h
  | .num (.infinity _), depth => by
      rw [JsonText.stringifyAt]
      exact hP.name _ (by simp)
  | .str s, depth => by
      rw [JsonText.stringifyAt]
      exact hP.quote s
  | .arr [], depth => by
      rw [JsonText.stringifyAt]
      exact hP.cons (u := 0x5B) (by simp) (hP.token 0x5D (by simp))
  | .arr (v :: vs), depth => by
      rw [JsonText.stringifyAt]
      refine hP.append (hP.append (hP.append (hP.cons (by simp) (hP.append (hP.gap _)
        (TextProperty.stringifyAt hP v _))) (TextProperty.stringifyItems hP vs _)) (hP.gap _))
        (hP.token _ (by simp))
  | .obj [], depth => by
      rw [JsonText.stringifyAt]
      exact hP.cons (u := 0x7B) (by simp) (hP.token 0x7D (by simp))
  | .obj ((k, v) :: ms), depth => by
      rw [JsonText.stringifyAt]
      refine hP.append (hP.append (hP.append (hP.cons (by simp) (hP.append (hP.append
        (hP.append (hP.gap _) (hP.quote _)) hP.colon) (TextProperty.stringifyAt hP v _)))
        (TextProperty.stringifyMembers hP ms _)) (hP.gap _)) (hP.token _ (by simp))

theorem TextProperty.stringifyItems {indent : ℕ} {P : JsString → Prop} (hP : TextProperty indent P) :
    ∀ (vs : List Json) (depth : ℕ), P (stringifyItems indent depth vs)
  | [], depth => by
      rw [JsonText.stringifyItems]
      exact hP.nil
  | v :: vs, depth => by
      rw [JsonText.stringifyItems]
      exact hP.append (hP.cons (by simp) (hP.append (hP.gap depth) (TextProperty.stringifyAt hP v depth)))
        (TextProperty.stringifyItems hP vs depth)

theorem TextProperty.stringifyMembers {indent : ℕ} {P : JsString → Prop}
    (hP : TextProperty indent P) :
    ∀ (ms : List (JsString × Json)) (depth : ℕ), P (stringifyMembers indent depth ms)
  | [], depth => by
      rw [JsonText.stringifyMembers]
      exact hP.nil
  | (k, v) :: ms, depth => by
      rw [JsonText.stringifyMembers]
      exact hP.append (hP.cons (by simp) (hP.append (hP.append (hP.append (hP.gap depth) (hP.quote _))
        hP.colon) (TextProperty.stringifyAt hP v depth))) (TextProperty.stringifyMembers hP ms depth)
end

-- ── The pieces ───────────────────────────────────────────────────────────────────

/-- A character of a number: a digit, the point, or what an exponent is written with. -/
def NumberChar (u : UInt16) : Prop :=
  isDigit u = true ∨ u = 0x2E ∨ u = 0x65 ∨ u = 0x2B ∨ u = 0x2D

theorem NumberChar.range {u : UInt16} (h : NumberChar u) : 0x20 ≤ u.toNat ∧ u.toNat < 0x80 := by
  rcases h with h | rfl | rfl | rfl | rfl
  · have : 0x30 ≤ u.toNat ∧ u.toNat ≤ 0x39 := by simpa [isDigit] using h
    omega
  all_goals decide

theorem numberChar_decimal {n : ℕ} {u : UInt16} (h : u ∈ decimal n) : NumberChar u :=
  .inl (isDigit_of_mem_decimal u h)

theorem numberChar_layoutDigits {s k : ℕ} {n : ℤ} {u : UInt16} (h : u ∈ layoutDigits s k n) :
    NumberChar u := by
  have hexp : ∀ e : ℤ, u ∈ exponentText e → NumberChar u := by
    intro e he
    rw [exponentText, List.mem_append] at he
    rcases he with he | he
    · split_ifs at he
      · exact .inr (.inr (.inr (.inr (List.mem_singleton.mp he))))
      · exact .inr (.inr (.inr (.inl (List.mem_singleton.mp he))))
    · exact numberChar_decimal he
  unfold layoutDigits at h
  simp only at h
  split_ifs at h
  · exact numberChar_decimal h
  · rcases List.mem_append.mp h with h | h
    · exact numberChar_decimal (List.mem_of_mem_take h)
    · rcases List.mem_cons.mp h with rfl | h
      · exact .inr (.inl rfl)
      · exact numberChar_decimal (List.mem_of_mem_drop h)
  · simp only [List.mem_append, List.mem_cons, List.not_mem_nil, or_false,
      List.mem_replicate] at h
    rcases h with ((rfl | rfl) | ⟨-, rfl⟩) | h
    · exact .inl (by decide)
    · exact .inr (.inl rfl)
    · exact .inl (by decide)
    · exact numberChar_decimal h
  · rcases List.mem_append.mp h with h | h
    · exact numberChar_decimal h
    · rcases List.mem_cons.mp h with rfl | h
      · exact .inr (.inr (.inl rfl))
      · exact hexp _ h
  · simp only [List.mem_append, List.mem_cons] at h
    rcases h with (h | rfl | h) | rfl | h
    · exact numberChar_decimal (List.mem_of_mem_take h)
    · exact .inr (.inl rfl)
    · exact numberChar_decimal (List.mem_of_mem_drop h)
    · exact .inr (.inr (.inl rfl))
    · exact hexp _ h

theorem numberChar_positiveText {q : ℚ} {u : UInt16} (hu : u ∈ positiveText q) : NumberChar u := by
  unfold positiveText at hu
  split at hu
  · exact numberChar_layoutDigits hu
  · cases hu

theorem numberChar_numberToString {q : ℚ} {h : IsDouble q} {u : UInt16}
    (hu : u ∈ numberToString (.fin q h)) : NumberChar u := by
  simp only [numberToString] at hu
  split_ifs at hu
  · rw [List.mem_singleton.mp hu]
    exact .inl (by decide)
  · rcases List.mem_cons.mp hu with rfl | hu
    · exact .inr (.inr (.inr (.inr rfl)))
    · exact numberChar_positiveText hu
  · exact numberChar_positiveText hu

/-- What one code point is escaped to: ASCII without control characters, or the point itself. -/
theorem escapePoint_cases {cp : ℕ} (hmax : cp < 0x110000) :
    (∀ u ∈ escapePoint cp, 0x20 ≤ u.toNat ∧ u.toNat < 0x80) ∨
      (escapePoint cp = unitsOf cp ∧ 0x20 ≤ cp ∧ isSurrogate cp = false) := by
  have hhex : ∀ d, d < 16 → 0x20 ≤ (hexDigit d).toNat ∧ (hexDigit d).toNat < 0x80 := by
    intro d hd
    rw [hexDigit_toNat hd]
    split_ifs <;> omega
  unfold escapePoint
  split_ifs with h1 h2 h3 h4 h5 h6 h7 h8
  iterate 7 exact .inl (by decide)
  · left
    intro u hu
    simp only [unicodeEscape, List.mem_cons, List.not_mem_nil, or_false] at hu
    rcases hu with rfl | rfl | rfl | rfl | rfl | rfl
    · decide
    · decide
    all_goals exact hhex _ (by omega)
  · right
    refine ⟨rfl, by omega, ?_⟩
    cases hs : isSurrogate cp with
    | false => rfl
    | true => exact absurd (.inr hs) h8

theorem scalars_quote (s : JsString) : Scalars (quote s) := by
  have hq : Scalars [0x22] := .of_ascii (by decide)
  have hbody : ∀ l : List ℕ, (∀ cp ∈ l, cp < 0x110000) → Scalars (l.flatMap escapePoint) := by
    intro l hl
    induction l with
    | nil => exact .nil
    | cons cp l ih =>
        rw [List.flatMap_cons]
        refine Scalars.append ?_ (ih fun c hc => hl c (by simp [hc]))
        rcases escapePoint_cases (hl cp (by simp)) with h | ⟨h, -, hsur⟩
        · exact .of_ascii fun u hu => (h u hu).2
        · rw [h]
          exact .point (hl cp (by simp)) hsur
  exact (hq.append (hbody _ points_lt)).append hq

/-- No control character is written in a string. -/
theorem quote_no_control (s : JsString) : ∀ u ∈ quote s, 0x20 ≤ u.toNat := by
  intro u hu
  rw [quote, List.mem_append, List.mem_cons, List.mem_flatMap, List.mem_singleton] at hu
  rcases hu with (rfl | ⟨cp, hcp, hu⟩) | rfl
  · decide
  · rcases escapePoint_cases (points_lt cp hcp) with h | ⟨h, hge, -⟩
    · exact (h u hu).1
    · have hmax := points_lt cp hcp
      rw [h] at hu
      unfold unitsOf at hu
      split_ifs at hu with hlt
      · rw [List.mem_singleton.mp hu, toUInt16_toNat hlt]
        exact hge
      · simp only [List.mem_cons, List.not_mem_nil, or_false] at hu
        rcases hu with rfl | rfl
        · rw [toUInt16_toNat (by omega)]; omega
        · rw [toUInt16_toNat (by omega)]; omega
  · decide

-- ── Bytes ────────────────────────────────────────────────────────────────────────

theorem scalars_property (indent : ℕ) : TextProperty indent Scalars where
  nil := .nil
  append := Scalars.append
  token := by
    intro u hu
    refine .of_ascii ?_
    simp only [List.mem_cons, List.not_mem_nil, or_false] at hu
    rcases hu with rfl | rfl | rfl | rfl | rfl | rfl | rfl <;> decide
  name := by
    intro s hs
    refine .of_ascii ?_
    simp only [List.mem_cons, List.not_mem_nil, or_false] at hs
    rcases hs with rfl | rfl | rfl <;> decide
  gap := by
    intro depth
    refine .of_ascii ?_
    unfold gap
    split_ifs
    · simp
    · intro u hu
      rcases List.mem_cons.mp hu with rfl | hu
      · decide
      · rw [(List.mem_replicate.mp hu).2]; decide
  number n h := .of_ascii fun u hu => (numberChar_numberToString hu).range.2
  quote := scalars_quote

theorem isWellFormed_stringifyAt (indent depth : ℕ) (v : Json) :
    isWellFormed (stringifyAt indent depth v) = true :=
  ((scalars_property indent).stringifyAt v depth).isWellFormed

/-- Without an indent, nothing below the space is written. -/
theorem control_property : TextProperty 0 fun s => ∀ u ∈ s, 0x20 ≤ u.toNat where
  nil := by simp
  append hs ht u hu := (List.mem_append.mp hu).elim (hs u) (ht u)
  token := by
    intro u hu
    simp only [List.mem_cons, List.not_mem_nil, or_false] at hu
    rcases hu with rfl | rfl | rfl | rfl | rfl | rfl | rfl <;> decide
  name := by
    intro s hs
    simp only [List.mem_cons, List.not_mem_nil, or_false] at hs
    rcases hs with rfl | rfl | rfl <;> decide
  gap depth := by simp [gap]
  number n h u hu := (numberChar_numberToString hu).range.1
  quote := quote_no_control

/-- **A compact text has no line feed.** -/
theorem newline_not_mem_stringify (v : Json) : (0x0A : UInt16) ∉ stringify v := by
  intro hmem
  exact absurd (control_property.stringifyAt v 0 _ hmem) (by decide)

/-- **The bytes of an object, cut short anywhere, read as nothing.** -/
theorem jsonParse_torn_bytes {members : List (JsString × Json)} (h : Regular (.obj members))
    {p q : Bytes} (hcut : utf8Encode (stringify (.obj members)) = p ++ q) (hq : q ≠ []) :
    jsonParse (utf8Decode p) = none := by
  obtain ⟨a, b, hab, hb, hdec⟩ := utf8Decode_take (isWellFormed_stringifyAt 0 0 _) hcut hq
  obtain ⟨h1, h2⟩ := jsonParse_torn 0 h hab hb
  rcases hdec with hdec | hdec
  · rw [hdec, h1]
  · rw [hdec, h2]

/-- RFC 8785, as the bytes that are hashed. -/
def canonicalBytes (v : Json) : Bytes := utf8Encode (canonicalJson v)

/-- **Values of one schema with the same canonical bytes are the same value.** -/
theorem canonicalBytes_injective {α : Type} (c : Codec α) {a b : α}
    (h : canonicalBytes (c.encode a) = canonicalBytes (c.encode b)) : a = b :=
  c.canonical_injective (utf8Encode_injective (isWellFormed_stringifyAt 0 0 _)
    (isWellFormed_stringifyAt 0 0 _) h)

-- ── Lines ────────────────────────────────────────────────────────────────────────

/-- `text.split("\n")`. -/
def splitLines : JsString → List JsString
  | [] => [[]]
  | u :: rest =>
      if u = 0x0A then [] :: splitLines rest
      else match splitLines rest with
        | [] => [[u]]
        | line :: lines => (u :: line) :: lines

theorem splitLines_ne_nil (s : JsString) : splitLines s ≠ [] := by
  cases s with
  | nil => simp [splitLines]
  | cons u s =>
      unfold splitLines
      split_ifs
      · simp
      · split <;> simp

/-- **A line feed ends a line**: what is before it and what is after it split apart. -/
theorem splitLines_append (a b : JsString) :
    splitLines (a ++ 0x0A :: b) = splitLines a ++ splitLines b := by
  induction a with
  | nil => simp [splitLines]
  | cons u a ih =>
      simp only [List.cons_append, splitLines]
      rw [ih]
      split_ifs
      · rfl
      · cases ha : splitLines a with
        | nil => exact absurd ha (splitLines_ne_nil a)
        | cons line lines => rfl

theorem splitLines_of_not_mem {a : JsString} (h : (0x0A : UInt16) ∉ a) : splitLines a = [a] := by
  induction a with
  | nil => rfl
  | cons u a ih =>
      rw [List.mem_cons, not_or] at h
      rw [splitLines, if_neg (Ne.symm h.1), ih h.2]

end JsonText
