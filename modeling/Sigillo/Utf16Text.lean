import Mathlib.Data.List.Basic
import Mathlib.Tactic.SplitIfs
import Mathlib.Tactic.Cases

/-!
# JavaScript strings and their UTF-8 bytes

A JavaScript string is a list of UTF-16 code units, lone surrogates included.  This file
models the two conversions a runtime offers and proves them inverse where they can be:

* **`utf8Encode`** — what `TextEncoder` and a file write produce: a lone surrogate becomes
  U+FFFD;
* **`utf8Decode`** — what a UTF-8 read produces: the WHATWG decoder, one byte at a time,
  each maximal ill-formed run becoming one U+FFFD;
* **`utf8Decode_utf8Encode`** — on well-formed text the bytes decode to the text;
* **`utf8Decode_newline`** — a line feed always ends whatever came before it, so a file
  can be split into lines before or after it is decoded. -/

namespace Utf16Text

/-- A JavaScript string. -/
abbrev JsString := List UInt16

/-- A `Uint8Array`. -/
abbrev Bytes := List UInt8

instance : LawfulBEq JsString := inferInstance

/-- What holds of every unit of a text is decided unit by unit, not over the whole type. -/
instance (priority := high) decidableForallMem {α : Type} (l : List α) (p : α → Prop)
    [DecidablePred p] : Decidable (∀ x ∈ l, p x) := List.decidableBAll p l

/-- A high surrogate, the first half of a pair. -/
def isHigh (u : UInt16) : Bool := decide (0xD800 ≤ u.toNat ∧ u.toNat < 0xDC00)

/-- A low surrogate, the second half. -/
def isLow (u : UInt16) : Bool := decide (0xDC00 ≤ u.toNat ∧ u.toNat < 0xE000)

/-- The code point a surrogate pair stands for. -/
def pairPoint (hi lo : UInt16) : ℕ := 0x10000 + (hi.toNat - 0xD800) * 0x400 + (lo.toNat - 0xDC00)

/-- The code units of a code point. -/
def unitsOf (cp : ℕ) : JsString :=
  if cp < 0x10000 then [cp.toUInt16]
  else [(0xD800 + (cp - 0x10000) / 0x400).toUInt16, (0xDC00 + (cp - 0x10000) % 0x400).toUInt16]

/-- The string a source literal denotes. -/
def js (s : String) : JsString := s.toList.flatMap fun c => unitsOf c.toNat

/-- Half of a surrogate pair, on its own. -/
def isSurrogate (cp : ℕ) : Bool := decide (0xD800 ≤ cp ∧ cp < 0xE000)

/-- The code points of a string, a lone surrogate standing for itself; `pending` is the
    high surrogate just read. -/
def pointsFrom : Option UInt16 → JsString → List ℕ
  | none, [] => []
  | some hi, [] => [hi.toNat]
  | none, u :: rest => if isHigh u then pointsFrom (some u) rest else u.toNat :: pointsFrom none rest
  | some hi, u :: rest =>
      if isLow u then pairPoint hi u :: pointsFrom none rest
      else if isHigh u then hi.toNat :: pointsFrom (some u) rest
      else hi.toNat :: u.toNat :: pointsFrom none rest

/-- The code points of a text, where a lone surrogate is one of its own. -/
def points (s : JsString) : List ℕ := pointsFrom none s

/-- `String.prototype.isWellFormed`: no surrogate stands alone. -/
def isWellFormed (s : JsString) : Bool := (points s).all fun cp => !isSurrogate cp

/-- Strings in UTF-16 code unit order, as `Array.prototype.sort` and `<` compare them. -/
def lexLe : JsString → JsString → Bool
  | [], _ => true
  | _ :: _, [] => false
  | a :: as, b :: bs => if a = b then lexLe as bs else decide (a.toNat < b.toNat)

-- ── Encoding ─────────────────────────────────────────────────────────────────────

/-- The UTF-8 bytes of a scalar value. -/
def encodePoint (cp : ℕ) : Bytes :=
  if cp < 0x80 then [cp.toUInt8]
  else if cp < 0x800 then [(0xC0 + cp / 0x40).toUInt8, (0x80 + cp % 0x40).toUInt8]
  else if cp < 0x10000 then
    [(0xE0 + cp / 0x1000).toUInt8, (0x80 + cp / 0x40 % 0x40).toUInt8, (0x80 + cp % 0x40).toUInt8]
  else
    [(0xF0 + cp / 0x40000).toUInt8, (0x80 + cp / 0x1000 % 0x40).toUInt8,
     (0x80 + cp / 0x40 % 0x40).toUInt8, (0x80 + cp % 0x40).toUInt8]

/-- `new TextEncoder().encode(s)`: a lone surrogate is written as U+FFFD. -/
def utf8Encode (s : JsString) : Bytes :=
  (points s).flatMap fun cp => encodePoint (if isSurrogate cp then 0xFFFD else cp)

-- ── Decoding ─────────────────────────────────────────────────────────────────────

/-- Where the decoder stands between bytes: the continuation bytes still owed, and the
    value gathered so far. -/
inductive DecState where
  | start
  | tail1 (cp : ℕ)
  | tail2 (cp : ℕ)
  | tail3 (cp : ℕ)
  | afterE0
  | afterED
  | afterF0
  | afterF4
deriving DecidableEq

/-- What the decoder does with the first byte of a character. -/
def lead (b : UInt8) : JsString × DecState :=
  let n := b.toNat
  if n < 0x80 then ([n.toUInt16], .start)
  else if n < 0xC2 then ([0xFFFD], .start)
  else if n < 0xE0 then ([], .tail1 (n - 0xC0))
  else if n = 0xE0 then ([], .afterE0)
  else if n = 0xED then ([], .afterED)
  else if n < 0xF0 then ([], .tail2 (n - 0xE0))
  else if n = 0xF0 then ([], .afterF0)
  else if n = 0xF4 then ([], .afterF4)
  else if n < 0xF4 then ([], .tail3 (n - 0xF0))
  else ([0xFFFD], .start)

/-- A byte outside the range the character needs ends it: U+FFFD, and the byte is read
    again as a first byte. -/
def interrupt (b : UInt8) : JsString × DecState := (0xFFFD :: (lead b).1, (lead b).2)

/-- One byte of the WHATWG decoder: what it outputs, and where it stands next. -/
def decodeStep (st : DecState) (b : UInt8) : JsString × DecState :=
  let n := b.toNat
  let low := n - 0x80
  match st with
  | .start => lead b
  | .tail1 cp => if 0x80 ≤ n ∧ n ≤ 0xBF then (unitsOf (cp * 0x40 + low), .start) else interrupt b
  | .tail2 cp => if 0x80 ≤ n ∧ n ≤ 0xBF then ([], .tail1 (cp * 0x40 + low)) else interrupt b
  | .tail3 cp => if 0x80 ≤ n ∧ n ≤ 0xBF then ([], .tail2 (cp * 0x40 + low)) else interrupt b
  | .afterE0 => if 0xA0 ≤ n ∧ n ≤ 0xBF then ([], .tail1 low) else interrupt b
  | .afterED => if 0x80 ≤ n ∧ n ≤ 0x9F then ([], .tail1 (0xD * 0x40 + low)) else interrupt b
  | .afterF0 => if 0x90 ≤ n ∧ n ≤ 0xBF then ([], .tail2 low) else interrupt b
  | .afterF4 => if 0x80 ≤ n ∧ n ≤ 0x8F then ([], .tail2 (4 * 0x40 + low)) else interrupt b

/-- The decoder from a state on; bytes that end inside a sequence give one replacement character. -/
def decodeFrom : DecState → Bytes → JsString
  | .start, [] => []
  | _, [] => [0xFFFD]
  | st, b :: bs => (decodeStep st b).1 ++ decodeFrom (decodeStep st b).2 bs

/-- `buffer.toString("utf8")`: the decoder from its start, the byte order mark kept. -/
def utf8Decode (bs : Bytes) : JsString := decodeFrom .start bs

@[simp] theorem decodeFrom_cons (st : DecState) (b : UInt8) (bs : Bytes) :
    decodeFrom st (b :: bs) = (decodeStep st b).1 ++ decodeFrom (decodeStep st b).2 bs := by
  cases st <;> rfl

@[simp] theorem utf8Decode_nil : utf8Decode [] = [] := rfl

/-- A byte's number is read back. -/
theorem toUInt8_toNat {n : ℕ} (h : n < 256) : n.toUInt8.toNat = n := by
  simp [Nat.toUInt8, Nat.mod_eq_of_lt h]

/-- A unit's number is read back. -/
theorem toUInt16_toNat {n : ℕ} (h : n < 65536) : n.toUInt16.toNat = n := by
  simp [Nat.toUInt16, Nat.mod_eq_of_lt h]

/-- A unit is its number's unit. -/
theorem toNat_toUInt16 (u : UInt16) : u.toNat.toUInt16 = u := by
  apply UInt16.toNat.inj
  exact toUInt16_toNat u.toNat_lt

-- ── The decoder on the bytes of one character ────────────────────────────────────

/-- An ASCII byte is its own character. -/
theorem lead_ascii {k : ℕ} (hk : k < 0x80) : lead k.toUInt8 = ([k.toUInt16], .start) := by
  have hb : k.toUInt8.toNat = k := toUInt8_toNat (by omega)
  simp only [lead, hb, if_pos hk]

/-- The lead byte of two. -/
theorem lead_two {k : ℕ} (h1 : 2 ≤ k) (h2 : k < 0x20) :
    lead (0xC0 + k).toUInt8 = ([], .tail1 k) := by
  have hb : (0xC0 + k).toUInt8.toNat = 0xC0 + k := toUInt8_toNat (by omega)
  simp only [lead, hb]
  rw [if_neg (by omega), if_neg (by omega), if_pos (by omega), Nat.add_sub_cancel_left]

/-- The lead byte of three, with the two that bound the byte after them. -/
theorem lead_three {k : ℕ} (hk : k < 0x10) :
    lead (0xE0 + k).toUInt8 =
      ([], if k = 0 then .afterE0 else if k = 0xD then .afterED else .tail2 k) := by
  have hb : (0xE0 + k).toUInt8.toNat = 0xE0 + k := toUInt8_toNat (by omega)
  simp only [lead, hb]
  rw [if_neg (by omega), if_neg (by omega), if_neg (by omega)]
  by_cases h0 : k = 0
  · rw [if_pos (by omega), if_pos h0]
  · by_cases hD : k = 0xD
    · rw [if_neg (by omega), if_pos (by omega), if_neg h0, if_pos hD]
    · rw [if_neg (by omega), if_neg (by omega), if_pos (by omega), if_neg h0, if_neg hD,
        Nat.add_sub_cancel_left]

/-- The lead byte of four, with the two that bound the byte after them. -/
theorem lead_four {k : ℕ} (hk : k < 5) :
    lead (0xF0 + k).toUInt8 =
      ([], if k = 0 then .afterF0 else if k = 4 then .afterF4 else .tail3 k) := by
  have hb : (0xF0 + k).toUInt8.toNat = 0xF0 + k := toUInt8_toNat (by omega)
  simp only [lead, hb]
  rw [if_neg (by omega), if_neg (by omega), if_neg (by omega), if_neg (by omega),
    if_neg (by omega), if_neg (by omega)]
  by_cases h0 : k = 0
  · rw [if_pos (by omega), if_pos h0]
  · by_cases h4 : k = 4
    · rw [if_neg (by omega), if_pos (by omega), if_neg h0, if_pos h4]
    · rw [if_neg (by omega), if_neg (by omega), if_pos (by omega), if_neg h0, if_neg h4,
        Nat.add_sub_cancel_left]

@[simp] theorem decodeStep_start (b : UInt8) : decodeStep .start b = lead b := rfl

/-- The number of a continuation byte. -/
theorem tail_toNat {k : ℕ} (hk : k < 0x40) : (0x80 + k).toUInt8.toNat = 0x80 + k :=
  toUInt8_toNat (by omega)

/-- The last continuation byte completes the character. -/
theorem decodeStep_tail1 {k : ℕ} (hk : k < 0x40) (cp : ℕ) :
    decodeStep (.tail1 cp) (0x80 + k).toUInt8 = (unitsOf (cp * 0x40 + k), .start) := by
  simp only [decodeStep, tail_toNat hk, Nat.add_sub_cancel_left]
  rw [if_pos (by omega)]

/-- The continuation byte before the last adds its six bits. -/
theorem decodeStep_tail2 {k : ℕ} (hk : k < 0x40) (cp : ℕ) :
    decodeStep (.tail2 cp) (0x80 + k).toUInt8 = ([], .tail1 (cp * 0x40 + k)) := by
  simp only [decodeStep, tail_toNat hk, Nat.add_sub_cancel_left]
  rw [if_pos (by omega)]

/-- The first of three continuation bytes adds its six bits. -/
theorem decodeStep_tail3 {k : ℕ} (hk : k < 0x40) (cp : ℕ) :
    decodeStep (.tail3 cp) (0x80 + k).toUInt8 = ([], .tail2 (cp * 0x40 + k)) := by
  simp only [decodeStep, tail_toNat hk, Nat.add_sub_cancel_left]
  rw [if_pos (by omega)]

/-- The second byte of a three-byte character, whichever range its first byte asks for. -/
theorem decodeStep_three {k j : ℕ} (hj : j < 0x40) (hE0 : k = 0 → 0x20 ≤ j)
    (hED : k = 0xD → j < 0x20) :
    decodeStep (if k = 0 then .afterE0 else if k = 0xD then .afterED else .tail2 k)
      (0x80 + j).toUInt8 = ([], .tail1 (k * 0x40 + j)) := by
  by_cases h0 : k = 0
  · rw [if_pos h0]
    simp only [decodeStep, tail_toNat hj, Nat.add_sub_cancel_left]
    rw [if_pos (by have := hE0 h0; omega), h0, Nat.zero_mul, Nat.zero_add]
  · rw [if_neg h0]
    by_cases hD : k = 0xD
    · rw [if_pos hD]
      simp only [decodeStep, tail_toNat hj, Nat.add_sub_cancel_left]
      rw [if_pos (by have := hED hD; omega), hD]
    · rw [if_neg hD]
      exact decodeStep_tail2 hj k

/-- The second byte of a four-byte character, whichever range its first byte asks for. -/
theorem decodeStep_four {k j : ℕ} (hj : j < 0x40) (hF0 : k = 0 → 0x10 ≤ j)
    (hF4 : k = 4 → j < 0x10) :
    decodeStep (if k = 0 then .afterF0 else if k = 4 then .afterF4 else .tail3 k)
      (0x80 + j).toUInt8 = ([], .tail2 (k * 0x40 + j)) := by
  by_cases h0 : k = 0
  · rw [if_pos h0]
    simp only [decodeStep, tail_toNat hj, Nat.add_sub_cancel_left]
    rw [if_pos (by have := hF0 h0; omega), h0, Nat.zero_mul, Nat.zero_add]
  · rw [if_neg h0]
    by_cases h4 : k = 4
    · rw [if_pos h4]
      simp only [decodeStep, tail_toNat hj, Nat.add_sub_cancel_left]
      rw [if_pos (by have := hF4 h4; omega), h4]
    · rw [if_neg h4]
      exact decodeStep_tail3 hj k

/-- **The decoder reads a scalar value back** and stands at its start again. -/
theorem decodeFrom_encodePoint {cp : ℕ} (hmax : cp < 0x110000) (hsur : isSurrogate cp = false)
    (rest : Bytes) :
    decodeFrom .start (encodePoint cp ++ rest) = unitsOf cp ++ decodeFrom .start rest := by
  simp only [isSurrogate, decide_eq_false_iff_not] at hsur
  have hlow : cp % 0x40 < 0x40 := by omega
  have hmid : cp / 0x40 % 0x40 < 0x40 := by omega
  unfold encodePoint
  split_ifs with h1 h2 h3
  · rw [List.singleton_append, decodeFrom_cons]
    simp only [decodeStep_start, lead_ascii h1, unitsOf, if_pos (show cp < 0x10000 by omega)]
  · simp only [List.cons_append, List.nil_append, decodeFrom_cons, decodeStep_start,
      lead_two (k := cp / 0x40) (by omega) (by omega), decodeStep_tail1 hlow]
    rw [show cp / 0x40 * 0x40 + cp % 0x40 = cp by omega]
  · simp only [List.cons_append, List.nil_append, decodeFrom_cons, decodeStep_start,
      lead_three (k := cp / 0x1000) (by omega),
      decodeStep_three (k := cp / 0x1000) hmid (by omega) (by omega), decodeStep_tail1 hlow]
    rw [show (cp / 0x1000 * 0x40 + cp / 0x40 % 0x40) * 0x40 + cp % 0x40 = cp by omega]
  · have hhigh : cp / 0x1000 % 0x40 < 0x40 := by omega
    simp only [List.cons_append, List.nil_append, decodeFrom_cons, decodeStep_start,
      lead_four (k := cp / 0x40000) (by omega),
      decodeStep_four (k := cp / 0x40000) hhigh (by omega) (by omega),
      decodeStep_tail2 hmid, decodeStep_tail1 hlow]
    rw [show ((cp / 0x40000 * 0x40 + cp / 0x1000 % 0x40) * 0x40 + cp / 0x40 % 0x40) * 0x40
      + cp % 0x40 = cp by omega]

-- ── Round trips ──────────────────────────────────────────────────────────────────

/-- The range of the high surrogates. -/
theorem isHigh_iff {u : UInt16} : isHigh u = true ↔ 0xD800 ≤ u.toNat ∧ u.toNat < 0xDC00 := by
  simp [isHigh]

/-- The range of the low surrogates. -/
theorem isLow_iff {u : UInt16} : isLow u = true ↔ 0xDC00 ≤ u.toNat ∧ u.toNat < 0xE000 := by
  simp [isLow]

/-- A unit is the one unit of its own code point. -/
theorem unitsOf_toNat (u : UInt16) : unitsOf u.toNat = [u] := by
  have := u.toNat_lt
  rw [unitsOf, if_pos (by omega), toNat_toUInt16]

/-- A pair is the two units of its code point. -/
theorem unitsOf_pairPoint {hi lo : UInt16} (hh : isHigh hi = true) (hl : isLow lo = true) :
    unitsOf (pairPoint hi lo) = [hi, lo] := by
  rw [isHigh_iff] at hh
  rw [isLow_iff] at hl
  have hge : ¬ pairPoint hi lo < 0x10000 := by unfold pairPoint; omega
  have h1 : 0xD800 + (pairPoint hi lo - 0x10000) / 0x400 = hi.toNat := by unfold pairPoint; omega
  have h2 : 0xDC00 + (pairPoint hi lo - 0x10000) % 0x400 = lo.toNat := by unfold pairPoint; omega
  rw [unitsOf, if_neg hge, h1, h2, toNat_toUInt16, toNat_toUInt16]

/-- Every string is the units of its code points. -/
theorem flatMap_unitsOf_pointsFrom (pending : Option UInt16)
    (hp : ∀ hi, pending = some hi → isHigh hi = true) (s : JsString) :
    (pointsFrom pending s).flatMap unitsOf = pending.toList ++ s := by
  induction s generalizing pending with
  | nil =>
      cases pending with
      | none => rfl
      | some hi => simp [pointsFrom, unitsOf_toNat]
  | cons u rest ih =>
      cases pending with
      | none =>
          simp only [pointsFrom]
          split_ifs with hu
          · rw [ih (some u) (by rintro hi ⟨⟩; exact hu)]
            simp
          · rw [List.flatMap_cons, ih none (by simp), unitsOf_toNat]
            simp
      | some hi =>
          have hhi := hp hi rfl
          simp only [pointsFrom]
          split_ifs with hu hu'
          · rw [List.flatMap_cons, ih none (by simp), unitsOf_pairPoint hhi hu]
            simp
          · rw [List.flatMap_cons, ih (some u) (by rintro hi ⟨⟩; exact hu'), unitsOf_toNat]
            simp
          · rw [List.flatMap_cons, List.flatMap_cons, ih none (by simp), unitsOf_toNat,
              unitsOf_toNat]
            simp

/-- **A text is the units of its code points.** -/
theorem flatMap_unitsOf_points (s : JsString) : (points s).flatMap unitsOf = s := by
  simpa [points] using flatMap_unitsOf_pointsFrom none (by simp) s

/-- A pair stands for a code point. -/
theorem pairPoint_lt {hi lo : UInt16} (hh : isHigh hi = true) (hl : isLow lo = true) :
    pairPoint hi lo < 0x110000 := by
  rw [isHigh_iff] at hh
  rw [isLow_iff] at hl
  unfold pairPoint
  omega

/-- A code point of a string is below U+110000. -/
theorem pointsFrom_lt (pending : Option UInt16) (hp : ∀ hi, pending = some hi → isHigh hi = true)
    (s : JsString) : ∀ cp ∈ pointsFrom pending s, cp < 0x110000 := by
  have hunit : ∀ u : UInt16, u.toNat < 0x110000 := fun u => by have := u.toNat_lt; omega
  induction s generalizing pending with
  | nil => cases pending <;> simp [pointsFrom, hunit]
  | cons u rest ih =>
      cases pending with
      | none =>
          simp only [pointsFrom]
          split_ifs with hu
          · exact ih (some u) (by rintro hi ⟨⟩; exact hu)
          · simpa [hunit] using ih none (by simp)
      | some hi =>
          simp only [pointsFrom]
          split_ifs with hu hu'
          · simpa [pairPoint_lt (hp hi rfl) hu] using ih none (by simp)
          · simpa [hunit] using ih (some u) (by rintro hi ⟨⟩; exact hu')
          · simpa [hunit] using ih none (by simp)

/-- The code points of a text are in range. -/
theorem points_lt {s : JsString} : ∀ cp ∈ points s, cp < 0x110000 :=
  pointsFrom_lt none (by simp) s

/-- The range of the surrogates. -/
theorem isSurrogate_iff {cp : ℕ} : isSurrogate cp = true ↔ 0xD800 ≤ cp ∧ cp < 0xE000 := by
  simp [isSurrogate]

/-- The units of a scalar value read back as that one code point. -/
theorem points_unitsOf_append {cp : ℕ} (hmax : cp < 0x110000) (hsur : isSurrogate cp = false)
    (s : JsString) : points (unitsOf cp ++ s) = cp :: points s := by
  have hns : ¬ (0xD800 ≤ cp ∧ cp < 0xE000) := by
    rw [← isSurrogate_iff]; simp [hsur]
  unfold unitsOf points
  split_ifs with h
  · have hb : cp.toUInt16.toNat = cp := toUInt16_toNat h
    have hnh : ¬ isHigh cp.toUInt16 = true := by rw [isHigh_iff, hb]; omega
    simp only [List.singleton_append, pointsFrom, if_neg hnh, hb]
  · have hb1 : (0xD800 + (cp - 0x10000) / 0x400).toUInt16.toNat
        = 0xD800 + (cp - 0x10000) / 0x400 := toUInt16_toNat (by omega)
    have hb2 : (0xDC00 + (cp - 0x10000) % 0x400).toUInt16.toNat
        = 0xDC00 + (cp - 0x10000) % 0x400 := toUInt16_toNat (by omega)
    have hh : isHigh (0xD800 + (cp - 0x10000) / 0x400).toUInt16 = true := by
      rw [isHigh_iff, hb1]; omega
    have hl : isLow (0xDC00 + (cp - 0x10000) % 0x400).toUInt16 = true := by
      rw [isLow_iff, hb2]; omega
    have hpair : pairPoint (0xD800 + (cp - 0x10000) / 0x400).toUInt16
        (0xDC00 + (cp - 0x10000) % 0x400).toUInt16 = cp := by
      unfold pairPoint
      rw [hb1, hb2]
      omega
    simp only [List.cons_append, List.nil_append, pointsFrom, if_pos hh, if_pos hl, hpair]

/-- **Scalar values are the code points of their units.** -/
theorem points_flatMap_unitsOf {l : List ℕ}
    (h : ∀ cp ∈ l, cp < 0x110000 ∧ isSurrogate cp = false) :
    points (l.flatMap unitsOf) = l := by
  induction l with
  | nil => rfl
  | cons cp l ih =>
      obtain ⟨hlt, hsur⟩ := h cp (by simp)
      rw [List.flatMap_cons, points_unitsOf_append hlt hsur, ih fun c hc => h c (by simp [hc])]

/-- A string made of the units of scalar values is well formed. -/
theorem isWellFormed_flatMap_unitsOf {l : List ℕ}
    (h : ∀ cp ∈ l, cp < 0x110000 ∧ isSurrogate cp = false) :
    isWellFormed (l.flatMap unitsOf) = true := by
  rw [isWellFormed, points_flatMap_unitsOf h, List.all_eq_true]
  intro cp hcp
  simp [(h cp hcp).2]

/-- A character of a literal is a scalar value. -/
theorem scalar_of_char (c : Char) : c.toNat < 0x110000 ∧ isSurrogate c.toNat = false := by
  have hv := c.valid
  have hn : c.toNat = c.val.toNat := rfl
  have hv' : c.val.toNat < 0xD800 ∨ 0xDFFF < c.val.toNat ∧ c.val.toNat < 0x110000 := hv
  refine ⟨by omega, ?_⟩
  simp only [isSurrogate, decide_eq_false_iff_not]
  omega

/-- The code points of a literal are its characters. -/
theorem points_js (s : String) : points (js s) = s.toList.map Char.toNat := by
  have : js s = (s.toList.map Char.toNat).flatMap unitsOf := by
    rw [js, List.flatMap_map]
  rw [this, points_flatMap_unitsOf]
  intro cp hcp
  obtain ⟨c, -, rfl⟩ := List.mem_map.mp hcp
  exact scalar_of_char c

/-- A literal is well-formed text. -/
@[simp] theorem isWellFormed_js (s : String) : isWellFormed (js s) = true := by
  rw [isWellFormed, points_js, List.all_eq_true]
  intro cp hcp
  obtain ⟨c, -, rfl⟩ := List.mem_map.mp hcp
  simp [(scalar_of_char c).2]

/-- Two literals denote one string only if they are the same literal. -/
@[simp] theorem js_inj {a b : String} : js a = js b ↔ a = b := by
  constructor
  · intro h
    have hp : a.toList.map Char.toNat = b.toList.map Char.toNat := by
      rw [← points_js, ← points_js, h]
    have hinj : Function.Injective Char.toNat := fun c d hcd => Char.ext (UInt32.toNat.inj hcd)
    have hl : a.toList = b.toList := List.map_injective_iff.mpr hinj hp
    exact String.toList_injective hl
  · rintro rfl; rfl

/-- The bytes of a run of scalar values decode to their units. -/
theorem utf8Decode_flatMap_encodePoint {l : List ℕ}
    (h : ∀ cp ∈ l, cp < 0x110000 ∧ isSurrogate cp = false) (rest : Bytes) :
    utf8Decode (l.flatMap encodePoint ++ rest) = l.flatMap unitsOf ++ utf8Decode rest := by
  induction l with
  | nil => rfl
  | cons cp l ih =>
      obtain ⟨hlt, hsur⟩ := h cp (by simp)
      rw [List.flatMap_cons, List.flatMap_cons, List.append_assoc, utf8Decode,
        decodeFrom_encodePoint hlt hsur]
      have := ih (fun c hc => h c (by simp [hc]))
      rw [utf8Decode] at this
      rw [this, List.append_assoc]

/-- Well-formed text is encoded without replacements. -/
theorem utf8Encode_of_wellFormed {s : JsString} (h : isWellFormed s = true) :
    utf8Encode s = (points s).flatMap encodePoint := by
  unfold utf8Encode
  apply List.flatMap_congr
  intro cp hcp
  have : isSurrogate cp = false := by
    simpa using List.all_eq_true.mp h cp hcp
  rw [this]
  simp

/-- The bytes of well-formed text decode to it, whatever follows them. -/
theorem utf8Decode_utf8Encode_append {s : JsString} (h : isWellFormed s = true) (rest : Bytes) :
    utf8Decode (utf8Encode s ++ rest) = s ++ utf8Decode rest := by
  rw [utf8Encode_of_wellFormed h, utf8Decode_flatMap_encodePoint, flatMap_unitsOf_points]
  intro cp hcp
  refine ⟨points_lt cp hcp, ?_⟩
  simpa using List.all_eq_true.mp h cp hcp

/-- **Well-formed text survives its bytes.** -/
theorem utf8Decode_utf8Encode {s : JsString} (h : isWellFormed s = true) :
    utf8Decode (utf8Encode s) = s := by
  have := utf8Decode_utf8Encode_append h []
  simpa using this

/-- A line feed ends whatever character came before it. -/
theorem decodeStep_newline (st : DecState) :
    (decodeStep st 0x0A).2 = .start ∧
      (decodeStep st 0x0A).1 = decodeFrom st [] ++ [0x0A] := by
  cases st <;> exact ⟨rfl, rfl⟩

/-- **A line feed splits a file the same way before and after decoding.** -/
theorem decodeFrom_newline (st : DecState) (a b : Bytes) :
    decodeFrom st (a ++ 0x0A :: b) = decodeFrom st a ++ 0x0A :: utf8Decode b := by
  induction a generalizing st with
  | nil =>
      obtain ⟨h1, h2⟩ := decodeStep_newline st
      rw [List.nil_append, decodeFrom_cons, h1, h2, List.append_assoc]
      rfl
  | cons x a ih =>
      rw [List.cons_append, decodeFrom_cons, decodeFrom_cons, ih, List.append_assoc]

/-- **A newline splits bytes where it splits their text**: it is never inside a character. -/
theorem utf8Decode_newline (a b : Bytes) :
    utf8Decode (a ++ 0x0A :: b) = utf8Decode a ++ 0x0A :: utf8Decode b :=
  decodeFrom_newline .start a b

-- ── Cut bytes ────────────────────────────────────────────────────────────────────

/-- A character cut short decodes to one replacement character. -/
theorem utf8Decode_cut {cp : ℕ} (hmax : cp < 0x110000) (hsur : isSurrogate cp = false)
    {p q : Bytes} (hcut : encodePoint cp = p ++ q) (hp : p ≠ []) (hq : q ≠ []) :
    utf8Decode p = [0xFFFD] := by
  simp only [isSurrogate, decide_eq_false_iff_not] at hsur
  have hmid : cp / 0x40 % 0x40 < 0x40 := by omega
  obtain ⟨x, p, rfl⟩ := List.exists_cons_of_ne_nil hp
  obtain ⟨y, q, rfl⟩ := List.exists_cons_of_ne_nil hq
  have hend : ∀ st : DecState, st ≠ .start → decodeFrom st [] = [0xFFFD] := by
    intro st hst
    cases st with
    | start => exact absurd rfl hst
    | _ => rfl
  unfold encodePoint at hcut
  split_ifs at hcut with h1 h2 h3
  · simp at hcut
  · match p, hcut with
    | [], hcut =>
        obtain ⟨rfl, -⟩ := List.cons.inj hcut
        rw [utf8Decode, decodeFrom_cons, decodeStep_start,
          lead_two (k := cp / 0x40) (by omega) (by omega)]
        rfl
    | _ :: p, hcut => simp at hcut
  · have hne : (if cp / 0x1000 = 0 then DecState.afterE0
        else if cp / 0x1000 = 0xD then .afterED else .tail2 (cp / 0x1000)) ≠ .start := by
      split_ifs <;> simp
    match p, hcut with
    | [], hcut =>
        obtain ⟨rfl, -⟩ := List.cons.inj hcut
        rw [utf8Decode, decodeFrom_cons, decodeStep_start,
          lead_three (k := cp / 0x1000) (by omega), hend _ hne]
        rfl
    | [z], hcut =>
        simp only [List.cons_append, List.nil_append, List.cons.injEq] at hcut
        obtain ⟨rfl, rfl, -⟩ := hcut
        rw [utf8Decode, decodeFrom_cons, decodeStep_start,
          lead_three (k := cp / 0x1000) (by omega), decodeFrom_cons,
          decodeStep_three (k := cp / 0x1000) hmid (by omega) (by omega)]
        rfl
    | _ :: _ :: p, hcut => simp at hcut
  · have hhigh : cp / 0x1000 % 0x40 < 0x40 := by omega
    have hne : (if cp / 0x40000 = 0 then DecState.afterF0
        else if cp / 0x40000 = 4 then .afterF4 else .tail3 (cp / 0x40000)) ≠ .start := by
      split_ifs <;> simp
    match p, hcut with
    | [], hcut =>
        obtain ⟨rfl, -⟩ := List.cons.inj hcut
        rw [utf8Decode, decodeFrom_cons, decodeStep_start,
          lead_four (k := cp / 0x40000) (by omega), hend _ hne]
        rfl
    | [z], hcut =>
        simp only [List.cons_append, List.nil_append, List.cons.injEq] at hcut
        obtain ⟨rfl, rfl, -⟩ := hcut
        rw [utf8Decode, decodeFrom_cons, decodeStep_start,
          lead_four (k := cp / 0x40000) (by omega), decodeFrom_cons,
          decodeStep_four (k := cp / 0x40000) hhigh (by omega) (by omega)]
        rfl
    | [z, w], hcut =>
        simp only [List.cons_append, List.nil_append, List.cons.injEq] at hcut
        obtain ⟨rfl, rfl, rfl, -⟩ := hcut
        rw [utf8Decode, decodeFrom_cons, decodeStep_start,
          lead_four (k := cp / 0x40000) (by omega), decodeFrom_cons,
          decodeStep_four (k := cp / 0x40000) hhigh (by omega) (by omega), decodeFrom_cons,
          decodeStep_tail2 hmid]
        rfl
    | _ :: _ :: _ :: p, hcut => simp at hcut

/-- A code point has a byte. -/
theorem encodePoint_ne_nil (cp : ℕ) : encodePoint cp ≠ [] := by
  unfold encodePoint
  split_ifs <;> simp

/-- A code point has a unit. -/
theorem unitsOf_ne_nil (cp : ℕ) : unitsOf cp ≠ [] := by
  unfold unitsOf
  split_ifs <;> simp

/-- **Bytes cut short decode to a text cut short**, with a replacement character at the end when
    the cut fell inside a character. -/
theorem utf8Decode_take {s : JsString} (h : isWellFormed s = true) {p q : Bytes}
    (hcut : utf8Encode s = p ++ q) (hq : q ≠ []) :
    ∃ a b, s = a ++ b ∧ b ≠ [] ∧ (utf8Decode p = a ∨ utf8Decode p = a ++ [0xFFFD]) := by
  have hall : ∀ cp ∈ points s, cp < 0x110000 ∧ isSurrogate cp = false := fun cp hcp =>
    ⟨points_lt cp hcp, by simpa using List.all_eq_true.mp h cp hcp⟩
  rw [utf8Encode_of_wellFormed h] at hcut
  suffices key : ∀ (l : List ℕ) (p : Bytes), (∀ cp ∈ l, cp < 0x110000 ∧ isSurrogate cp = false) →
      l.flatMap encodePoint = p ++ q → ∃ a b, l.flatMap unitsOf = a ++ b ∧ b ≠ [] ∧
        (utf8Decode p = a ∨ utf8Decode p = a ++ [0xFFFD]) by
    have := key (points s) p hall hcut
    rwa [flatMap_unitsOf_points] at this
  intro l
  induction l with
  | nil =>
      intro p _ hcut
      exact absurd (List.append_eq_nil_iff.mp hcut.symm).2 hq
  | cons cp l ih =>
      intro p hl hcut
      obtain ⟨hmax, hsur⟩ := hl cp (by simp)
      have hb : (cp :: l).flatMap unitsOf ≠ [] := by
        simp [unitsOf_ne_nil]
      rw [List.flatMap_cons, List.append_eq_append_iff] at hcut
      rcases hcut with ⟨p', rfl, hp'⟩ | ⟨q', hcp, rfl⟩
      · obtain ⟨a, b, hab, hb', hdec⟩ := ih p' (fun c hc => hl c (by simp [hc])) hp'
        refine ⟨unitsOf cp ++ a, b, by rw [List.flatMap_cons, hab, List.append_assoc], hb', ?_⟩
        rw [utf8Decode, decodeFrom_encodePoint hmax hsur]
        rcases hdec with hdec | hdec
        · left
          rw [utf8Decode] at hdec
          rw [hdec]
        · right
          rw [utf8Decode] at hdec
          rw [hdec, List.append_assoc]
      · by_cases hp : p = []
        · subst hp
          exact ⟨[], _, rfl, hb, .inl rfl⟩
        · by_cases hq' : q' = []
          · subst hq'
            rw [List.append_nil] at hcp
            subst hcp
            refine ⟨unitsOf cp, l.flatMap unitsOf, by rw [List.flatMap_cons], ?_, .inl ?_⟩
            · intro hnil
              rw [List.flatMap_eq_nil_iff] at hnil
              cases l with
              | nil => exact hq rfl
              | cons c l => exact unitsOf_ne_nil c (hnil c (by simp))
            · have := decodeFrom_encodePoint hmax hsur []
              rw [List.append_nil] at this
              rw [utf8Decode, this]
              simp [decodeFrom]
          · exact ⟨[], _, rfl, hb, .inr (utf8Decode_cut hmax hsur hcp hp hq')⟩

/-- Well-formed texts with the same bytes are the same text. -/
theorem utf8Encode_injective {s t : JsString} (hs : isWellFormed s = true)
    (ht : isWellFormed t = true) (h : utf8Encode s = utf8Encode t) : s = t := by
  rw [← utf8Decode_utf8Encode hs, h, utf8Decode_utf8Encode ht]

-- ── Runs of characters ───────────────────────────────────────────────────────────

/-- A text made of whole characters, none of them a lone surrogate. -/
def Scalars (s : JsString) : Prop :=
  ∃ l : List ℕ, s = l.flatMap unitsOf ∧ ∀ cp ∈ l, cp < 0x110000 ∧ isSurrogate cp = false

/-- A text of scalar values is well-formed. -/
theorem Scalars.isWellFormed {s : JsString} (h : Scalars s) : isWellFormed s = true := by
  obtain ⟨l, rfl, hl⟩ := h
  exact isWellFormed_flatMap_unitsOf hl

/-- The empty text. -/
theorem Scalars.nil : Scalars [] := ⟨[], rfl, by simp⟩

/-- Scalar values behind scalar values. -/
theorem Scalars.append {s t : JsString} (hs : Scalars s) (ht : Scalars t) : Scalars (s ++ t) := by
  obtain ⟨l, rfl, hl⟩ := hs
  obtain ⟨m, rfl, hm⟩ := ht
  refine ⟨l ++ m, by rw [List.flatMap_append], ?_⟩
  intro cp hcp
  exact (List.mem_append.mp hcp).elim (hl cp) (hm cp)

/-- One scalar value. -/
theorem Scalars.point {cp : ℕ} (hmax : cp < 0x110000) (hsur : isSurrogate cp = false) :
    Scalars (unitsOf cp) := ⟨[cp], by simp, by simpa using ⟨hmax, hsur⟩⟩

/-- ASCII text is made of whole characters. -/
theorem Scalars.of_ascii {s : JsString} (h : ∀ u ∈ s, u.toNat < 0x80) : Scalars s := by
  induction s with
  | nil => exact .nil
  | cons u s ih =>
      have hu := h u (by simp)
      have hpoint : unitsOf u.toNat = [u] := unitsOf_toNat u
      have hone : Scalars [u] := hpoint ▸ Scalars.point (by omega) (by
        rw [← Bool.not_eq_true, isSurrogate_iff]
        omega)
      exact hone.append (ih fun v hv => h v (by simp [hv]))

end Utf16Text
