import Sigillo.JsonText

/-!
# Python strings

A Python string is a list of code points, and half of a surrogate pair is one like any other: it may
stand alone, and two halves side by side are still two. What `json.dumps(_, ensure_ascii=False)` and
`str.encode` make of it, beside what JavaScript makes of the same text in UTF-16:

* **`encode_dumps`** — without a surrogate the two give the same bytes;
* **`encode_dumps_eq_error`** — with one, Python raises. -/

namespace PythonText

open Utf16Text JsonText

/-- `str`. -/
abbrev Str := {s : List ℕ // ∀ cp ∈ s, cp < 0x110000}

/-- The same text in UTF-16. -/
def Str.units (s : Str) : JsString := s.1.flatMap unitsOf

/-- A JavaScript string as Python holds it. -/
def Str.ofUnits (s : JsString) : Str := ⟨points s, points_lt⟩

/-- Text that has a form in UTF-8. -/
def Str.Encodable (s : Str) : Prop := ∀ cp ∈ s.1, isSurrogate cp = false

instance (s : Str) : Decidable s.Encodable := by
  unfold Str.Encodable
  infer_instance

theorem units_ofUnits (s : JsString) : (Str.ofUnits s).units = s := flatMap_unitsOf_points s

-- ── Bytes ────────────────────────────────────────────────────────────────────────

/-- What the calls below may raise. -/
inductive Raised where
  | unicodeEncodeError
  | valueError (message : JsString)
deriving DecidableEq

/-- `s.encode("utf-8")`. -/
def encode : List ℕ → Except Raised Bytes
  | [] => .ok []
  | cp :: rest =>
      if isSurrogate cp then .error .unicodeEncodeError
      else (encode rest).map (encodePoint cp ++ ·)

/-- `s.encode("ascii")`. -/
def encodeAscii : List ℕ → Except Raised Bytes
  | [] => .ok []
  | cp :: rest =>
      if cp < 0x80 then (encodeAscii rest).map (cp.toUInt8 :: ·) else .error .unicodeEncodeError

theorem encode_of_scalar {s : List ℕ} (h : ∀ cp ∈ s, isSurrogate cp = false) :
    encode s = .ok (s.flatMap encodePoint) := by
  induction s with
  | nil => rfl
  | cons cp rest ih =>
      have hcp : ¬ isSurrogate cp = true := by
        rw [h cp (List.mem_cons_self ..)]
        exact Bool.false_ne_true
      rw [encode, if_neg hcp, ih fun cp hcp => h cp (List.mem_cons_of_mem _ hcp)]
      rfl

theorem encode_eq_error {s : List ℕ} (h : ∃ cp ∈ s, isSurrogate cp = true) :
    encode s = .error .unicodeEncodeError := by
  induction s with
  | nil =>
      obtain ⟨cp, hcp, -⟩ := h
      cases hcp
  | cons cp rest ih =>
      rw [encode]
      by_cases hcp : isSurrogate cp = true
      · rw [if_pos hcp]
      · obtain ⟨other, hother, hsur⟩ := h
        rcases List.mem_cons.mp hother with rfl | hrest
        · exact absurd hsur hcp
        · rw [if_neg hcp, ih ⟨other, hrest, hsur⟩]
          rfl

theorem exists_surrogate {s : Str} (h : ¬ s.Encodable) : ∃ cp ∈ s.1, isSurrogate cp = true := by
  by_contra hnone
  refine h fun cp hcp => ?_
  rw [← Bool.not_eq_true]
  intro hsur
  exact hnone ⟨cp, hcp, hsur⟩

theorem encodeAscii_of_ascii {s : List ℕ} (h : ∀ cp ∈ s, cp < 0x80) :
    encodeAscii s = .ok (s.map Nat.toUInt8) := by
  induction s with
  | nil => rfl
  | cons cp rest ih =>
      rw [encodeAscii, if_pos (h cp (List.mem_cons_self ..)),
        ih fun cp hcp => h cp (List.mem_cons_of_mem _ hcp)]
      rfl

theorem isWellFormed_units {s : Str} (h : s.Encodable) : isWellFormed s.units = true :=
  isWellFormed_flatMap_unitsOf fun cp hcp => ⟨s.2 cp hcp, h cp hcp⟩

theorem points_units {s : Str} (h : s.Encodable) : points s.units = s.1 :=
  points_flatMap_unitsOf fun cp hcp => ⟨s.2 cp hcp, h cp hcp⟩

/-- **Where Python encodes a text, JavaScript's bytes of it are the same.** -/
theorem encode_eq_utf8Encode {s : Str} (h : s.Encodable) : encode s.1 = .ok (utf8Encode s.units) := by
  rw [encode_of_scalar h, utf8Encode_of_wellFormed (isWellFormed_units h), points_units h]

-- ── JSON ─────────────────────────────────────────────────────────────────────────

/-- A digit of `format(_, "x")`. -/
def hexPoint (d : ℕ) : ℕ := if d < 10 then 0x30 + d else 0x57 + d

/-- A code point inside a string of `json.dumps`: the named escapes, `\u` and four digits for any
    other control character, and everything else as it is. -/
def escape (cp : ℕ) : List ℕ :=
  if cp = 0x5C then [0x5C, 0x5C]
  else if cp = 0x22 then [0x5C, 0x22]
  else if cp = 0x08 then [0x5C, 0x62]
  else if cp = 0x0C then [0x5C, 0x66]
  else if cp = 0x0A then [0x5C, 0x6E]
  else if cp = 0x0D then [0x5C, 0x72]
  else if cp = 0x09 then [0x5C, 0x74]
  else if cp < 0x20 then [0x5C, 0x75, 0x30, 0x30, hexPoint (cp / 0x10), hexPoint (cp % 0x10)]
  else [cp]

/-- `json.dumps(s, ensure_ascii=False)`. -/
def dumps (s : List ℕ) : List ℕ := 0x22 :: s.flatMap escape ++ [0x22]

/-- An escape is ASCII, and only control characters, quotes and backslashes have one. -/
theorem mem_escape {cp e : ℕ} (h : e ∈ escape cp) : e < 0x80 ∨ e = cp := by
  have hhex : ∀ d, d < 0x10 → hexPoint d < 0x80 := by
    intro d hd
    unfold hexPoint
    split_ifs <;> omega
  have hhigh : cp < 0x20 → hexPoint (cp / 0x10) < 0x80 := fun hcp => hhex _ (by omega)
  have hlow : cp < 0x20 → hexPoint (cp % 0x10) < 0x80 := fun hcp => hhex _ (by omega)
  unfold escape at h
  split_ifs at h
  all_goals
    simp only [List.mem_cons, List.not_mem_nil, or_false] at h
    omega

theorem escape_surrogate {cp : ℕ} (h : isSurrogate cp = true) : escape cp = [cp] := by
  rw [isSurrogate_iff] at h
  unfold escape
  rw [if_neg (by omega), if_neg (by omega), if_neg (by omega), if_neg (by omega), if_neg (by omega),
    if_neg (by omega), if_neg (by omega), if_neg (by omega)]

/-- The two escapes of a control character, one digit after the other. -/
theorem escape_control : ∀ cp < 0x20, (escape cp).flatMap unitsOf = escapePoint cp := by decide +kernel

/-- **The escapes are JavaScript's**, except that a surrogate has none. -/
theorem flatMap_escape {cp : ℕ} (hsur : isSurrogate cp = false) :
    (escape cp).flatMap unitsOf = escapePoint cp := by
  by_cases hcontrol : cp < 0x20
  · exact escape_control cp hcontrol
  by_cases hquote : cp = 0x22
  · subst hquote
    decide +kernel
  by_cases hslash : cp = 0x5C
  · subst hslash
    decide +kernel
  · have hplain : escape cp = [cp] := by
      unfold escape
      rw [if_neg hslash, if_neg hquote, if_neg (by omega), if_neg (by omega), if_neg (by omega),
        if_neg (by omega), if_neg (by omega), if_neg hcontrol]
    have hpoint : escapePoint cp = unitsOf cp := by
      unfold escapePoint
      rw [if_neg (by omega), if_neg (by omega), if_neg (by omega), if_neg (by omega),
        if_neg (by omega), if_neg hquote, if_neg hslash, if_neg]
      rw [hsur]
      simpa using hcontrol
    rw [hplain, hpoint, List.flatMap_cons, List.flatMap_nil, List.append_nil]

theorem dumps_lt (s : Str) : ∀ cp ∈ dumps s.1, cp < 0x110000 := by
  intro cp hcp
  rw [dumps, List.cons_append, List.mem_cons, List.mem_append, List.mem_singleton, List.mem_flatMap] at hcp
  rcases hcp with rfl | ⟨e, he, hcp⟩ | rfl
  · omega
  · rcases mem_escape hcp with hlt | rfl
    · omega
    · exact s.2 cp he
  · omega

theorem dumps_scalar {s : Str} (h : s.Encodable) : ∀ cp ∈ dumps s.1, isSurrogate cp = false := by
  have hascii : ∀ e, e < 0x80 → isSurrogate e = false := by
    intro e he
    rw [← Bool.not_eq_true, isSurrogate_iff]
    omega
  intro cp hcp
  rw [dumps, List.cons_append, List.mem_cons, List.mem_append, List.mem_singleton, List.mem_flatMap] at hcp
  rcases hcp with rfl | ⟨e, he, hcp⟩ | rfl
  · exact hascii _ (by omega)
  · rcases mem_escape hcp with hlt | rfl
    · exact hascii cp hlt
    · exact h cp he
  · exact hascii _ (by omega)

theorem flatMap_dumps {s : Str} (h : s.Encodable) : (dumps s.1).flatMap unitsOf = quote s.units := by
  have hbody : (s.1.flatMap escape).flatMap unitsOf = s.1.flatMap escapePoint := by
    rw [List.flatMap_assoc]
    exact List.flatMap_congr fun cp hcp => flatMap_escape (h cp hcp)
  rw [dumps, quote, points_units h, List.cons_append, List.flatMap_cons, List.flatMap_append, hbody]
  rfl

/-- **The JSON of a text is the same bytes in either language.** -/
theorem encode_dumps {s : Str} (h : s.Encodable) : encode (dumps s.1) = .ok (utf8Encode (quote s.units)) := by
  have hscalar : ∀ cp ∈ dumps s.1, cp < 0x110000 ∧ isSurrogate cp = false := fun cp hcp =>
    ⟨dumps_lt s cp hcp, dumps_scalar h cp hcp⟩
  have hwf : isWellFormed (quote s.units) = true := by
    rw [← flatMap_dumps h]
    exact isWellFormed_flatMap_unitsOf hscalar
  rw [encode_of_scalar (dumps_scalar h), utf8Encode_of_wellFormed hwf, ← flatMap_dumps h,
    points_flatMap_unitsOf hscalar]

/-- **Python has no bytes for the JSON of a text that holds a surrogate.** -/
theorem encode_dumps_eq_error {s : Str} (h : ¬ s.Encodable) :
    encode (dumps s.1) = .error .unicodeEncodeError := by
  obtain ⟨cp, hcp, hsur⟩ := exists_surrogate h
  refine encode_eq_error ⟨cp, ?_, hsur⟩
  rw [dumps, List.cons_append, List.mem_cons, List.mem_append, List.mem_flatMap]
  refine .inr (.inl ⟨cp, hcp, ?_⟩)
  rw [escape_surrogate hsur]
  exact List.mem_singleton_self cp

end PythonText
