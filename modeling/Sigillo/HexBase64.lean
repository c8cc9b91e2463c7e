import Sigillo.JsonText
import Mathlib.Tactic.IntervalCases

/-!
# Hexadecimal and base64

The two ways this repository writes bytes in a text. `toHex` and `fromHex` are inverse between
bytes and lower-case hexadecimal text; `base64Encode` is the canonical encoder, and
`isCanonicalBase64` says that a text is what it writes for some bytes. -/

namespace HexBase64

open Utf16Text JsonText

-- ── Hexadecimal ──────────────────────────────────────────────────────────────────

/-- `[0-9a-f]`. -/
def isHexDigit (u : UInt16) : Bool :=
  decide ((0x30 ≤ u.toNat ∧ u.toNat ≤ 0x39) ∨ (0x61 ≤ u.toNat ∧ u.toNat ≤ 0x66))

/-- `^[0-9a-f]{n}$`. -/
def IsHex (n : ℕ) (s : JsString) : Prop := s.length = n ∧ ∀ u ∈ s, isHexDigit u = true

instance (n : ℕ) : DecidablePred (IsHex n) := fun _ => inferInstanceAs (Decidable (_ ∧ _))

/-- Two digits for each byte. -/
def toHex (bytes : Bytes) : JsString :=
  bytes.flatMap fun b => [hexDigit (b.toNat / 16), hexDigit (b.toNat % 16)]

/-- The value of a lower-case digit. -/
def digitOf (u : UInt16) : ℕ := if u.toNat ≤ 0x39 then u.toNat - 0x30 else u.toNat - 0x57

/-- The bytes a text of digits writes, two digits to a byte. -/
def fromHex : JsString → Bytes
  | a :: b :: rest => (digitOf a * 16 + digitOf b).toUInt8 :: fromHex rest
  | _ => []

/-- A digit's value is read back. -/
theorem digitOf_hexDigit {d : ℕ} (hd : d < 16) : digitOf (hexDigit d) = d := by
  rw [digitOf, hexDigit_toNat hd]
  by_cases h : d < 10
  · rw [if_pos h, if_pos (by omega)]; omega
  · rw [if_neg h, if_neg (by omega)]; omega

/-- A digit that is written is one. -/
theorem isHexDigit_hexDigit {d : ℕ} (hd : d < 16) : isHexDigit (hexDigit d) = true := by
  rw [isHexDigit, hexDigit_toNat hd, decide_eq_true_eq]
  split_ifs <;> omega

/-- A digit stands for four bits. -/
theorem digitOf_lt {u : UInt16} (h : isHexDigit u = true) : digitOf u < 16 := by
  rw [isHexDigit, decide_eq_true_eq] at h
  unfold digitOf
  split_ifs <;> omega

/-- A digit is written as it was read. -/
theorem hexDigit_digitOf {u : UInt16} (h : isHexDigit u = true) : hexDigit (digitOf u) = u := by
  have hlt := digitOf_lt h
  rw [isHexDigit, decide_eq_true_eq] at h
  apply UInt16.toNat_inj.mp
  rw [hexDigit_toNat hlt]
  unfold digitOf
  split_ifs <;> omega

/-- Bytes are written in two digits each. -/
theorem isHex_toHex (bytes : Bytes) : IsHex (2 * bytes.length) (toHex bytes) := by
  induction bytes with
  | nil => exact ⟨rfl, by simp [toHex]⟩
  | cons b bs ih =>
      have hb := b.toNat_lt
      refine ⟨?_, ?_⟩
      · have := ih.1
        simp only [toHex, List.flatMap_cons, List.length_append, List.length_cons,
          List.length_nil] at this ⊢
        omega
      · intro u hu
        simp only [toHex, List.flatMap_cons, List.mem_append, List.mem_cons, List.not_mem_nil,
          or_false] at hu
        rcases hu with (rfl | rfl) | hu
        · exact isHexDigit_hexDigit (by omega)
        · exact isHexDigit_hexDigit (by omega)
        · exact ih.2 u hu

/-- **Bytes are read back from their digits.** -/
theorem fromHex_toHex (bytes : Bytes) : fromHex (toHex bytes) = bytes := by
  induction bytes with
  | nil => rfl
  | cons b bs ih =>
      have hb := b.toNat_lt
      have hcons : toHex (b :: bs)
          = hexDigit (b.toNat / 16) :: hexDigit (b.toNat % 16) :: toHex bs := rfl
      rw [hcons, fromHex, ih, digitOf_hexDigit (by omega), digitOf_hexDigit (by omega)]
      congr 1
      apply UInt8.toNat_inj.mp
      rw [toUInt8_toNat (by omega)]
      omega

/-- **Digits are written back from their bytes.** -/
theorem toHex_fromHex {n : ℕ} {s : JsString} (h : IsHex (2 * n) s) : toHex (fromHex s) = s := by
  induction n generalizing s with
  | zero =>
      obtain rfl := List.length_eq_zero_iff.mp h.1
      rfl
  | succ n ih =>
      obtain ⟨hlen, hall⟩ := h
      match s, hlen, hall with
      | a :: b :: rest, hlen, hall =>
          have ha := hall a (by simp)
          have hb := hall b (by simp)
          have h1 := digitOf_lt ha
          have h2 := digitOf_lt hb
          have hrest := ih (s := rest) ⟨by simp at hlen; omega, fun u hu => hall u (by simp [hu])⟩
          have hcons : toHex (fromHex (a :: b :: rest))
              = hexDigit ((digitOf a * 16 + digitOf b).toUInt8.toNat / 16)
                :: hexDigit ((digitOf a * 16 + digitOf b).toUInt8.toNat % 16)
                :: toHex (fromHex rest) := rfl
          rw [hcons, hrest, toUInt8_toNat (by omega)]
          rw [show (digitOf a * 16 + digitOf b) / 16 = digitOf a by omega,
            show (digitOf a * 16 + digitOf b) % 16 = digitOf b by omega,
            hexDigit_digitOf ha, hexDigit_digitOf hb]

/-- Two digits are one byte. -/
theorem length_fromHex {n : ℕ} {s : JsString} (h : IsHex (2 * n) s) : (fromHex s).length = n := by
  have := (isHex_toHex (fromHex s)).1
  rw [toHex_fromHex h, h.1] at this
  omega

/-- Lower-case hexadecimal text of `n` characters. -/
abbrev Hex (n : ℕ) := {s : JsString // IsHex n s}

/-- The 32 bytes of a SHA-256 digest. -/
abbrev Digest := {b : Bytes // b.length = 32}

theorem length_zeros : (List.replicate 32 (0 : UInt8)).length = 32 := by decide

theorem length_ones : (List.replicate 32 (1 : UInt8)).length = 32 := by decide

theorem isHex_zeros16 : IsHex 16 (List.replicate 16 0x30) := by decide

theorem isHex_ones16 : IsHex 16 (List.replicate 16 0x31) := by decide

theorem isHex_ones32 : IsHex 32 (List.replicate 32 0x31) := by decide

theorem isHex_zeros64 : IsHex 64 (List.replicate 64 0x30) := by decide

/-- A digest as text. -/
def Digest.hex (d : Digest) : Hex 64 := ⟨toHex d.1, by have := isHex_toHex d.1; rwa [d.2] at this⟩

/-- The digest a text writes. -/
def digestOfHex (h : Hex 64) : Digest := ⟨fromHex h.1, length_fromHex (n := 32) h.2⟩

@[simp] theorem digestOfHex_hex (d : Digest) : digestOfHex (Digest.hex d) = d :=
  Subtype.ext (fromHex_toHex d.1)

@[simp] theorem hex_digestOfHex (h : Hex 64) : Digest.hex (digestOfHex h) = h :=
  Subtype.ext (toHex_fromHex (n := 32) h.2)

/-- The digits tell digests apart. -/
theorem Digest.hex_injective {d e : Digest} (h : Digest.hex d = Digest.hex e) : d = e := by
  rw [← digestOfHex_hex d, h, digestOfHex_hex]

-- ── Base64 ───────────────────────────────────────────────────────────────────────

/-- The character of a six-bit value. -/
def base64Char (v : ℕ) : UInt16 :=
  if v < 26 then (0x41 + v).toUInt16
  else if v < 52 then (0x61 + (v - 26)).toUInt16
  else if v < 62 then (0x30 + (v - 52)).toUInt16
  else if v = 62 then 0x2B else 0x2F

/-- The six-bit value of a character of the standard alphabet. -/
def base64Value (u : UInt16) : Option ℕ :=
  if 0x41 ≤ u.toNat ∧ u.toNat ≤ 0x5A then some (u.toNat - 0x41)
  else if 0x61 ≤ u.toNat ∧ u.toNat ≤ 0x7A then some (u.toNat - 0x61 + 26)
  else if 0x30 ≤ u.toNat ∧ u.toNat ≤ 0x39 then some (u.toNat - 0x30 + 52)
  else if u = 0x2B then some 62
  else if u = 0x2F then some 63
  else none

/-- `Buffer.from(bytes).toString("base64")`. -/
def base64Encode : Bytes → JsString
  | [] => []
  | [a] => [base64Char (a.toNat / 4), base64Char (a.toNat % 4 * 16), 0x3D, 0x3D]
  | [a, b] => [base64Char (a.toNat / 4), base64Char (a.toNat % 4 * 16 + b.toNat / 16),
      base64Char (b.toNat % 16 * 4), 0x3D]
  | a :: b :: c :: rest =>
      base64Char (a.toNat / 4) :: base64Char (a.toNat % 4 * 16 + b.toNat / 16)
        :: base64Char (b.toNat % 16 * 4 + c.toNat / 64) :: base64Char (c.toNat % 64)
        :: base64Encode rest

/-- The bytes a run of six-bit values writes; what a last group leaves over is dropped. -/
def sixBits : List ℕ → Bytes
  | w :: x :: y :: z :: rest =>
      (w * 4 + x / 16).toUInt8 :: (x % 16 * 16 + y / 4).toUInt8 :: (y % 4 * 64 + z).toUInt8
        :: sixBits rest
  | [w, x, y] => [(w * 4 + x / 16).toUInt8, (x % 16 * 16 + y / 4).toUInt8]
  | [w, x] => [(w * 4 + x / 16).toUInt8]
  | _ => []

/-- `Buffer.from(text, "base64")` of a text over the standard alphabet: it stops at the first
    `=` and passes over what is not of the alphabet. -/
def base64Decode (s : JsString) : Bytes :=
  sixBits ((s.takeWhile fun u => u != 0x3D).filterMap base64Value)

/-- The same of any text: the alphabet of URLs is read too. -/
def bufferFromBase64 (s : JsString) : Bytes :=
  base64Decode (s.map fun u => if u = 0x2D then 0x2B else if u = 0x5F then 0x2F else u)

/-- The text is the one spelling of its bytes that an encoder writes. -/
def IsCanonicalBase64 (s : JsString) : Prop := base64Encode (base64Decode s) = s

instance : DecidablePred IsCanonicalBase64 := fun _ => inferInstanceAs (Decidable (_ = _))

/-- A character's value is read back. -/
theorem base64Value_base64Char {v : ℕ} (hv : v < 64) : base64Value (base64Char v) = some v := by
  interval_cases v <;> rfl

/-- No value is written as the padding. -/
theorem base64Char_ne_pad {v : ℕ} (hv : v < 64) : base64Char v ≠ 0x3D := by
  interval_cases v <;> decide

/-- What comes before the padding starts with a character. -/
theorem takeWhile_base64Char {v : ℕ} (hv : v < 64) (s : JsString) :
    (base64Char v :: s).takeWhile (fun u => u != 0x3D)
      = base64Char v :: s.takeWhile (fun u => u != 0x3D) := by
  rw [List.takeWhile_cons_of_pos (by simpa using base64Char_ne_pad hv)]

/-- A character is one of those read. -/
theorem filterMap_base64Char {v : ℕ} (hv : v < 64) (s : JsString) :
    (base64Char v :: s).filterMap base64Value = v :: s.filterMap base64Value := by
  rw [List.filterMap_cons_some (base64Value_base64Char hv)]

/-- **What was encoded decodes.** -/
theorem base64Decode_encode (bytes : Bytes) : base64Decode (base64Encode bytes) = bytes := by
  have hbyte : ∀ (b : UInt8) (n : ℕ), n = b.toNat → n.toUInt8 = b := by
    rintro b n rfl
    exact UInt8.toNat_inj.mp (toUInt8_toNat b.toNat_lt)
  induction bytes using base64Encode.induct with
  | case1 => rfl
  | case2 a =>
      have ha := a.toNat_lt
      simp only [base64Decode, base64Encode]
      rw [takeWhile_base64Char (by omega), takeWhile_base64Char (by omega),
        filterMap_base64Char (by omega), filterMap_base64Char (by omega)]
      simp only [bne_self_eq_false, Bool.false_eq_true, not_false_eq_true,
        List.takeWhile_cons_of_neg, List.filterMap_nil, sixBits]
      rw [hbyte a _ (by omega)]
  | case3 a b =>
      have ha := a.toNat_lt
      have hb := b.toNat_lt
      simp only [base64Decode, base64Encode]
      rw [takeWhile_base64Char (by omega), takeWhile_base64Char (by omega),
        takeWhile_base64Char (by omega), filterMap_base64Char (by omega),
        filterMap_base64Char (by omega), filterMap_base64Char (by omega)]
      simp only [bne_self_eq_false, Bool.false_eq_true, not_false_eq_true,
        List.takeWhile_cons_of_neg, List.filterMap_nil, sixBits]
      rw [hbyte a _ (by omega), hbyte b _ (by omega)]
  | case4 a b c rest ih =>
      have ha := a.toNat_lt
      have hb := b.toNat_lt
      have hc := c.toNat_lt
      simp only [base64Decode, base64Encode] at ih ⊢
      rw [takeWhile_base64Char (by omega), takeWhile_base64Char (by omega),
        takeWhile_base64Char (by omega), takeWhile_base64Char (by omega),
        filterMap_base64Char (by omega), filterMap_base64Char (by omega),
        filterMap_base64Char (by omega), filterMap_base64Char (by omega), sixBits, ih,
        hbyte a _ (by omega), hbyte b _ (by omega), hbyte c _ (by omega)]

/-- What is encoded is canonical. -/
theorem isCanonicalBase64_encode (bytes : Bytes) : IsCanonicalBase64 (base64Encode bytes) := by
  rw [IsCanonicalBase64, base64Decode_encode]

/-- The characters of the standard alphabet. -/
def isBase64Char (u : UInt16) : Bool := (base64Value u).isSome

/-- `^[A-Za-z0-9+/]{86}==$`, and the one spelling of its 64 bytes. -/
def IsSignatureText (s : JsString) : Prop :=
  s.length = 88 ∧ (∀ u ∈ s.take 86, isBase64Char u = true) ∧ s.drop 86 = [0x3D, 0x3D]
    ∧ IsCanonicalBase64 s

instance : DecidablePred IsSignatureText := fun _ => inferInstanceAs (Decidable (_ ∧ _))

/-- `^[A-Za-z0-9+/]{43}=$`, and the one spelling of its 32 bytes. -/
def IsKeyText (s : JsString) : Prop :=
  s.length = 44 ∧ (∀ u ∈ s.take 43, isBase64Char u = true) ∧ s.drop 43 = [0x3D]
    ∧ IsCanonicalBase64 s

instance : DecidablePred IsKeyText := fun _ => inferInstanceAs (Decidable (_ ∧ _))

/-- A character that is written is of the alphabet. -/
theorem isBase64Char_base64Char {v : ℕ} (hv : v < 64) : isBase64Char (base64Char v) = true := by
  rw [isBase64Char, base64Value_base64Char hv]
  rfl

/-- The text of `3 n + 1` bytes: `4 n + 2` characters and two signs of padding. -/
theorem base64Encode_one {n : ℕ} {bytes : Bytes} (h : bytes.length = 3 * n + 1) :
    ∃ body, base64Encode bytes = body ++ [0x3D, 0x3D] ∧ body.length = 4 * n + 2 ∧
      ∀ u ∈ body, isBase64Char u = true := by
  induction n generalizing bytes with
  | zero =>
      match bytes, h with
      | [a], _ =>
          have ha := a.toNat_lt
          refine ⟨[_, _], rfl, rfl, ?_⟩
          simp only [List.mem_cons, List.not_mem_nil, or_false, forall_eq_or_imp, forall_eq]
          exact ⟨isBase64Char_base64Char (by omega), isBase64Char_base64Char (by omega)⟩
  | succ n ih =>
      match bytes, h with
      | a :: b :: c :: rest, h =>
          have ha := a.toNat_lt
          have hb := b.toNat_lt
          have hc := c.toNat_lt
          obtain ⟨body, hbody, hlen, hall⟩ := @ih rest (by simp at h; omega)
          refine ⟨_ :: _ :: _ :: _ :: body, by rw [base64Encode, hbody]; rfl, by simp; omega, ?_⟩
          simp only [List.mem_cons, forall_eq_or_imp]
          exact ⟨isBase64Char_base64Char (by omega), isBase64Char_base64Char (by omega),
            isBase64Char_base64Char (by omega), isBase64Char_base64Char (by omega), hall⟩

/-- The text of `3 n + 2` bytes: `4 n + 3` characters and one sign of padding. -/
theorem base64Encode_two {n : ℕ} {bytes : Bytes} (h : bytes.length = 3 * n + 2) :
    ∃ body, base64Encode bytes = body ++ [0x3D] ∧ body.length = 4 * n + 3 ∧
      ∀ u ∈ body, isBase64Char u = true := by
  induction n generalizing bytes with
  | zero =>
      match bytes, h with
      | [a, b], _ =>
          have ha := a.toNat_lt
          have hb := b.toNat_lt
          refine ⟨[_, _, _], rfl, rfl, ?_⟩
          simp only [List.mem_cons, List.not_mem_nil, or_false, forall_eq_or_imp, forall_eq]
          exact ⟨isBase64Char_base64Char (by omega), isBase64Char_base64Char (by omega),
            isBase64Char_base64Char (by omega)⟩
  | succ n ih =>
      match bytes, h with
      | a :: b :: c :: rest, h =>
          have ha := a.toNat_lt
          have hb := b.toNat_lt
          have hc := c.toNat_lt
          obtain ⟨body, hbody, hlen, hall⟩ := @ih rest (by simp at h; omega)
          refine ⟨_ :: _ :: _ :: _ :: body, by rw [base64Encode, hbody]; rfl, by simp; omega, ?_⟩
          simp only [List.mem_cons, forall_eq_or_imp]
          exact ⟨isBase64Char_base64Char (by omega), isBase64Char_base64Char (by omega),
            isBase64Char_base64Char (by omega), isBase64Char_base64Char (by omega), hall⟩

/-- The base64 of 64 bytes is the text of a signature. -/
theorem isSignatureText_encode {bytes : Bytes} (h : bytes.length = 64) :
    IsSignatureText (base64Encode bytes) := by
  obtain ⟨body, hbody, hlen, hall⟩ := base64Encode_one (n := 21) h
  have hcanon := isCanonicalBase64_encode bytes
  rw [hbody] at hcanon ⊢
  refine ⟨by simp [hlen], ?_, ?_, hcanon⟩
  · rwa [List.take_left' hlen]
  · rw [List.drop_left' hlen]

/-- The base64 of 32 bytes is the text of a public key. -/
theorem isKeyText_encode {bytes : Bytes} (h : bytes.length = 32) :
    IsKeyText (base64Encode bytes) := by
  obtain ⟨body, hbody, hlen, hall⟩ := base64Encode_two (n := 10) h
  have hcanon := isCanonicalBase64_encode bytes
  rw [hbody] at hcanon ⊢
  refine ⟨by simp [hlen], ?_, ?_, hcanon⟩
  · rwa [List.take_left' hlen]
  · rw [List.drop_left' hlen]

end HexBase64
