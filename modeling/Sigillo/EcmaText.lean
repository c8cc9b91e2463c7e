import Sigillo.JsonReading

/-!
# Strings as ECMAScript handles them

The methods of `String.prototype` the repository calls on what arrives from outside: `trim`,
`toWellFormed`, a conversion to a number.

* **`isWellFormed_toWellFormed`** — a string made well formed is, and is no longer than it was;
* **`stringToNumber_intText`** — `Number(text)` reads an integer back from its decimal text. -/

namespace EcmaText

open DoubleArith Utf16Text JsonText JsonParse

-- ── Blanks ───────────────────────────────────────────────────────────────────────

/-- White space and line terminators, as `trim` takes them. -/
def isSpace (u : UInt16) : Bool :=
  decide ((0x09 ≤ u.toNat ∧ u.toNat ≤ 0x0D) ∨ u = 0x20 ∨ u = 0xA0 ∨ u = 0x1680 ∨
    (0x2000 ≤ u.toNat ∧ u.toNat ≤ 0x200A) ∨ u = 0x2028 ∨ u = 0x2029 ∨ u = 0x202F ∨ u = 0x205F ∨
    u = 0x3000 ∨ u = 0xFEFF)

/-- `text.trim()`. -/
def trim (s : JsString) : JsString := ((s.dropWhile isSpace).reverse.dropWhile isSpace).reverse

/-- `text.trim().length > 0`. -/
def isBlank (s : JsString) : Bool := (trim s).isEmpty

/-- Nothing is left exactly of a list whose every element is dropped. -/
theorem dropWhile_eq_nil_iff {α : Type} {p : α → Bool} {l : List α} :
    l.dropWhile p = [] ↔ ∀ a ∈ l, p a = true := by
  induction l with
  | nil => simp
  | cons a rest ih =>
      by_cases ha : p a = true
      · rw [List.dropWhile_cons_of_pos ha, ih]
        simp [ha]
      · rw [List.dropWhile_cons_of_neg ha]
        simp [ha]

/-- What trims to nothing is all space. -/
theorem isBlank_iff {s : JsString} : isBlank s = true ↔ ∀ u ∈ s, isSpace u = true := by
  rw [isBlank, List.isEmpty_iff, trim, List.reverse_eq_nil_iff, dropWhile_eq_nil_iff]
  constructor
  · intro h
    by_contra hne
    have hdrop : s.dropWhile isSpace ≠ [] := fun hnil => hne (dropWhile_eq_nil_iff.mp hnil)
    have hhead := List.head_dropWhile_not isSpace hdrop
    rw [h _ (List.mem_reverse.mpr (List.head_mem hdrop))] at hhead
    cases hhead
  · intro h u hu
    exact h u ((List.dropWhile_sublist _).subset (List.mem_reverse.mp hu))

-- ── Well-formed strings ──────────────────────────────────────────────────────────

/-- `text.toWellFormed()`: U+FFFD in the place of a lone surrogate. -/
def toWellFormed (s : JsString) : JsString :=
  (points s).flatMap fun cp => if isSurrogate cp then [0xFFFD] else unitsOf cp

/-- `toWellFormed` replaces each lone surrogate. -/
theorem toWellFormed_eq (s : JsString) : toWellFormed s
    = ((points s).map fun cp => if isSurrogate cp then 0xFFFD else cp).flatMap unitsOf := by
  rw [toWellFormed, List.flatMap_map]
  refine List.flatMap_congr fun cp _ => ?_
  split_ifs
  · rfl
  · rfl

/-- **A string made well formed is.** -/
theorem isWellFormed_toWellFormed (s : JsString) : isWellFormed (toWellFormed s) = true := by
  rw [toWellFormed_eq]
  refine isWellFormed_flatMap_unitsOf fun cp hcp => ?_
  obtain ⟨p, hp, rfl⟩ := List.mem_map.mp hcp
  split_ifs with h
  · decide
  · exact ⟨points_lt p hp, by simpa using h⟩

/-- A surrogate is one unit. -/
theorem length_unitsOf_of_isSurrogate {cp : ℕ} (h : isSurrogate cp = true) :
    (unitsOf cp).length = 1 := by
  rw [isSurrogate_iff] at h
  rw [unitsOf, if_pos (by omega)]
  rfl

/-- A lone surrogate and its replacement are one unit each. -/
theorem length_toWellFormed (s : JsString) : (toWellFormed s).length = s.length := by
  conv_rhs => rw [← flatMap_unitsOf_points s]
  rw [toWellFormed, List.length_flatMap, List.length_flatMap]
  congr 1
  refine List.map_congr_left fun cp _ => ?_
  split_ifs with h
  · rw [length_unitsOf_of_isSurrogate h]
    rfl
  · rfl

/-- A string without the half of a surrogate pair it may end in. -/
def dropHalf (s : JsString) : JsString :=
  match s.getLast? with
  | some u => if isHigh u then s.dropLast else s
  | none => s

/-- Only the end of a text can be half a pair. -/
theorem dropHalf_append {a b : JsString} (hb : b ≠ []) : dropHalf (a ++ b) = a ++ dropHalf b := by
  obtain ⟨u, hu⟩ : ∃ u, b.getLast? = some u :=
    Option.isSome_iff_exists.mp (by rwa [List.getLast?_isSome])
  have hlast : (a ++ b).getLast? = some u := by rw [List.getLast?_append, hu]; rfl
  rw [dropHalf, dropHalf, hu, hlast]
  by_cases hhigh : isHigh u = true
  · simp only [if_pos hhigh]
    exact List.dropLast_append_of_ne_nil hb
  · simp only [if_neg hhigh]

/-- A text that does not end in a high surrogate stays. -/
theorem dropHalf_of_low {s : JsString} (h : ∀ u, s.getLast? = some u → isHigh u = false) :
    dropHalf s = s := by
  rw [dropHalf]
  cases hs : s.getLast? with
  | none => rfl
  | some u => simp [h u hs]

/-- The last unit of a character is no high surrogate. -/
theorem not_high_of_getLast_unitsOf {cp : ℕ} (hsur : isSurrogate cp = false) {u : UInt16}
    (hu : (unitsOf cp).getLast? = some u) (hmax : cp < 0x110000) : isHigh u = false := by
  rw [unitsOf] at hu
  by_cases hsmall : cp < 0x10000
  · rw [if_pos hsmall] at hu
    obtain rfl : cp.toUInt16 = u := by simpa using hu
    rw [← Bool.not_eq_true, isSurrogate_iff] at hsur
    rw [isHigh, toUInt16_toNat (by omega), decide_eq_false_iff_not]
    omega
  · rw [if_neg hsmall] at hu
    obtain rfl : (0xDC00 + (cp - 0x10000) % 0x400).toUInt16 = u := by simpa using hu
    rw [isHigh, toUInt16_toNat (by omega), decide_eq_false_iff_not]
    omega

/-- **A well-formed string cut anywhere**, less the half of a pair the cut may leave, is well formed. -/
theorem scalars_dropHalf_take {s : JsString} (hs : Scalars s) (n : ℕ) :
    Scalars (dropHalf (s.take n)) := by
  obtain ⟨l, rfl, hl⟩ := hs
  induction l generalizing n with
  | nil => simpa [dropHalf] using Scalars.nil
  | cons cp l ih =>
      obtain ⟨hmax, hsur⟩ := hl cp (by simp)
      have ih := fun n => ih n fun c hc => hl c (by simp [hc])
      rw [List.flatMap_cons, List.take_append]
      by_cases hlong : (unitsOf cp).length ≤ n
      · rw [List.take_of_length_le hlong]
        cases hrest : (l.flatMap unitsOf).take (n - (unitsOf cp).length) with
        | nil =>
            rw [List.append_nil, dropHalf_of_low fun u hu => not_high_of_getLast_unitsOf hsur hu hmax]
            exact .point hmax hsur
        | cons u rest =>
            rw [dropHalf_append (List.cons_ne_nil u rest), ← hrest]
            exact (Scalars.point hmax hsur).append (ih _)
      · -- the cut falls inside the character, or before it
        rw [show n - (unitsOf cp).length = 0 by omega, List.take_zero, List.append_nil]
        by_cases hsmall : cp < 0x10000
        · rw [unitsOf, if_pos hsmall] at hlong ⊢
          rw [List.length_singleton] at hlong
          rw [show n = 0 by omega]
          exact .nil
        · rw [unitsOf, if_neg hsmall] at hlong ⊢
          simp only [List.length_cons, List.length_nil] at hlong
          have hhigh : isHigh (0xD800 + (cp - 0x10000) / 0x400).toUInt16 = true := by
            rw [isHigh, toUInt16_toNat (by omega), decide_eq_true_eq]
            omega
          obtain rfl | rfl : n = 0 ∨ n = 1 := by omega
          · exact .nil
          · simp only [List.take_succ_cons, List.take_zero, dropHalf, List.getLast?_singleton, if_pos hhigh]
            exact .nil

/-- Well-formed text is made of scalar values. -/
theorem scalars_of_isWellFormed {s : JsString} (h : isWellFormed s = true) : Scalars s :=
  ⟨points s, (flatMap_unitsOf_points s).symm, fun cp hcp =>
    ⟨points_lt cp hcp, by simpa using List.all_eq_true.mp h cp hcp⟩⟩

/-- One unit goes at most. -/
theorem length_dropHalf (s : JsString) :
    (dropHalf s).length ≤ s.length ∧ s.length ≤ (dropHalf s).length + 1 := by
  rw [dropHalf]
  cases s.getLast? with
  | none => simp
  | some u =>
      by_cases hu : isHigh u = true
      · simp only [if_pos hu, List.length_dropLast]
        omega
      · simp [hu]

-- ── Numbers ──────────────────────────────────────────────────────────────────────

/-- The decimal text of an integer, `String(n)` of a bigint. -/
def intText (n : ℤ) : JsString := if n < 0 then 0x2D :: decimal n.natAbs else decimal n.natAbs

/-- The digits of a literal with a radix prefix. -/
def radixLiteral (radix : ℕ) (digits : JsString) : Option JsNumber :=
  if digits = [] then none
  else (digits.mapM fun u => (hexValue u).filter fun d => decide (d < radix)).map fun ds =>
    .ofNat (ds.foldl (fun acc d => acc * radix + d) 0)

/-- The exponent of a decimal literal, which ends it. -/
def decimalExponent : JsString → Option ℤ
  | [] => some 0
  | u :: rest =>
      if u ≠ 0x65 ∧ u ≠ 0x45 then none
      else
        let (negative, digits) := match rest with
          | 0x2D :: ds => (true, ds)
          | 0x2B :: ds => (false, ds)
          | ds => (false, ds)
        if digits = [] ∨ digits.any (fun u => !isDigit u) then none
        else some (if negative then -(digitsValue digits : ℤ) else digitsValue digits)

/-- A decimal literal without its sign. -/
def unsignedLiteral (s : JsString) : Option ℚ :=
  let whole := s.takeWhile isDigit
  let rest := s.dropWhile isDigit
  let (fraction, rest) := match rest with
    | 0x2E :: r => (r.takeWhile isDigit, r.dropWhile isDigit)
    | r => ([], r)
  if whole = [] ∧ fraction = [] then none
  else (decimalExponent rest).map fun e =>
    (digitsValue (whole ++ fraction) : ℚ) * (10 : ℚ) ^ (e - (fraction.length : ℤ))

/-- A decimal literal with its sign, as `Number` reads it. -/
def decimalLiteral (negative : Bool) (s : JsString) : Option JsNumber :=
  if s = js "Infinity" then some (.infinity negative)
  else (unsignedLiteral s).map fun q => .ofRat (if negative then -q else q)

/-- `Number(text)`; nothing where that is NaN. -/
def stringToNumber (s : JsString) : Option JsNumber :=
  match trim s with
  | [] => some (.ofNat 0)
  | u :: rest =>
      if u = 0x2D then decimalLiteral true rest
      else if u = 0x2B then decimalLiteral false rest
      else
        match u, rest with
        | 0x30, p :: digits =>
            if p = 0x78 ∨ p = 0x58 then radixLiteral 16 digits
            else if p = 0x6F ∨ p = 0x4F then radixLiteral 8 digits
            else if p = 0x62 ∨ p = 0x42 then radixLiteral 2 digits
            else decimalLiteral false (u :: rest)
        | _, _ => decimalLiteral false (u :: rest)

/-- `Number.isSafeInteger(x)`. -/
def isSafeInteger : JsNumber → Bool
  | .fin q _ => decide (q.den = 1 ∧ |q| < 2 ^ 53)
  | .infinity _ => false

example : stringToNumber (js " 0x1F\n") = some (.ofNat 31) := by decide +kernel

/-- Nothing of ASCII from the digits on is a blank. -/
theorem isSpace_eq_false {u : UInt16} (hlo : 0x30 ≤ u.toNat) (hhi : u.toNat < 0x80) :
    isSpace u = false := by
  have hne : ∀ v : UInt16, (v.toNat < 0x30 ∨ 0x80 ≤ v.toNat) → u ≠ v := by
    rintro v hv rfl
    omega
  simp only [isSpace, decide_eq_false_iff_not, not_or]
  refine ⟨by omega, hne _ (by decide), hne _ (by decide), hne _ (by decide), by omega,
    hne _ (by decide), hne _ (by decide), hne _ (by decide), hne _ (by decide), hne _ (by decide),
    hne _ (by decide)⟩

/-- A digit is no blank. -/
theorem isSpace_of_isDigit {u : UInt16} (h : isDigit u = true) : isSpace u = false := by
  simp only [isDigit, decide_eq_true_eq] at h
  exact isSpace_eq_false (by omega) (by omega)

/-- A text without spaces is not trimmed. -/
theorem trim_of_no_space {s : JsString} (h : ∀ u ∈ s, isSpace u = false) : trim s = s := by
  have hdrop : ∀ l : JsString, (∀ u ∈ l, isSpace u = false) → l.dropWhile isSpace = l := by
    intro l hl
    cases l with
    | nil => rfl
    | cons u rest => exact List.dropWhile_cons_of_neg (by simp [hl u (by simp)])
  rw [trim, hdrop s h, hdrop s.reverse fun u hu => h u (List.mem_reverse.mp hu), List.reverse_reverse]

/-- An integer is written without blanks. -/
theorem isSpace_of_mem_intText {n : ℤ} : ∀ u ∈ intText n, isSpace u = false := by
  have hdigits : ∀ u ∈ decimal n.natAbs, isSpace u = false := fun u hu =>
    isSpace_of_isDigit (isDigit_of_mem_decimal u hu)
  rw [intText]
  split_ifs
  · intro u hu
    rcases List.mem_cons.mp hu with rfl | hu
    · decide
    · exact hdigits u hu
  · exact hdigits

/-- The decimal digits of a number are read as its double. -/
theorem decimalLiteral_decimal (negative : Bool) (n : ℕ) :
    decimalLiteral negative (decimal n) = some (.ofRat (if negative then -(n : ℚ) else n)) := by
  have htake : (decimal n).takeWhile isDigit = decimal n :=
    List.takeWhile_eq_self_iff.mpr isDigit_of_mem_decimal
  have hdrop : (decimal n).dropWhile isDigit = [] := dropWhile_eq_nil_iff.mpr isDigit_of_mem_decimal
  have hword : decimal n ≠ js "Infinity" := by
    intro h
    have := isDigit_of_mem_decimal (n := n) 0x49 (by rw [h]; decide)
    exact absurd this (by decide)
  have hunsigned : unsignedLiteral (decimal n) = some (n : ℚ) := by
    rw [unsignedLiteral]
    simp only [htake, hdrop]
    rw [if_neg fun h => decimal_ne_nil n h.1]
    simp [decimalExponent]
  rw [decimalLiteral, if_neg hword, hunsigned, Option.map_some]

/-- **An integer is read back from its decimal text.** -/
theorem stringToNumber_intText (n : ℤ) : stringToNumber (intText n) = some (.ofRat n) := by
  rw [stringToNumber, trim_of_no_space isSpace_of_mem_intText, intText]
  by_cases hn : n < 0
  · rw [if_pos hn]
    simp only [if_pos]
    have hvalue : -((n.natAbs : ℕ) : ℚ) = n := by
      rw [Nat.cast_natAbs, abs_of_neg hn]
      push_cast
      ring
    rw [decimalLiteral_decimal, if_pos rfl, hvalue]
  · rw [if_neg hn]
    have hvalue : ((n.natAbs : ℕ) : ℚ) = n := by
      rw [Nat.cast_natAbs, abs_of_nonneg (not_lt.mp hn)]
    have hlit := decimalLiteral_decimal false n.natAbs
    rw [hvalue] at hlit
    cases hd : decimal n.natAbs with
    | nil => exact absurd hd (decimal_ne_nil _)
    | cons u rest =>
        have hu := isDigit_of_mem_decimal u (by rw [hd]; simp)
        have hminus : u ≠ 0x2D := by
          rintro rfl
          exact absurd hu (by decide)
        have hplus : u ≠ 0x2B := by
          rintro rfl
          exact absurd hu (by decide)
        rw [hd] at hlit
        simp only [if_neg hminus, if_neg hplus]
        split
        · -- a text of digits that starts with 0 is `0`
          rename_i p digits
          have := decimal_head n.natAbs
          rw [hd] at this
          simp at this
        · exact hlit

/-- An integer is rounded as its absolute value is. -/
theorem roundDouble_intCast (n : ℤ) :
    roundDouble (n : ℚ) = if n < 0 then -(roundNat n.natAbs : ℚ) else roundNat n.natAbs := by
  rw [roundNat_cast, roundDouble_natCast_eq, roundDouble, Nat.cast_natAbs]
  by_cases hn : n < 0
  · rw [if_pos (by exact_mod_cast hn), if_pos hn, abs_of_neg hn]
    push_cast
    rfl
  · rw [if_neg (by exact_mod_cast hn), if_neg hn, abs_of_nonneg (not_lt.mp hn)]

/-- The absolute value of a rounded integer. -/
theorem abs_roundDouble_intCast (n : ℤ) : |roundDouble (n : ℚ)| = (roundNat n.natAbs : ℚ) := by
  rw [roundDouble_intCast]
  split_ifs
  · rw [abs_neg, Nat.abs_cast]
  · rw [Nat.abs_cast]

/-- Every integer up to `2 ^ 53` from zero is a finite double. -/
theorem isDouble_intCast {n : ℤ} (hn : |n| ≤ 2 ^ 53) : IsDouble (n : ℚ) := by
  have hnat : n.natAbs ≤ 2 ^ 53 := by
    have := Int.natCast_natAbs n
    omega
  constructor
  · rw [roundDouble_intCast, roundNat_of_le hnat, Nat.cast_natAbs]
    split_ifs with hneg
    · rw [abs_of_neg hneg]
      push_cast
      ring
    · rw [abs_of_nonneg (not_lt.mp hneg)]
  · calc |(n : ℚ)| = ((|n| : ℤ) : ℚ) := by push_cast; rfl
      _ ≤ 2 ^ 53 := by exact_mod_cast hn
      _ < 2 ^ 1024 := pow_lt_pow_right₀ (by norm_num) (by norm_num)

/-- Rounding does not move a number across 2⁵³. -/
theorem roundNat_lt_iff {n : ℕ} : roundNat n < 2 ^ 53 ↔ n < 2 ^ 53 := by
  constructor
  · intro h
    by_contra hge
    have := roundNat_mono (not_lt.mp hge)
    rw [roundNat_of_le le_rfl] at this
    omega
  · intro h
    rwa [roundNat_of_le h.le]

/-- An integer is safe where a double holds it and its neighbours apart. -/
theorem isSafeInteger_ofRat_int (n : ℤ) : isSafeInteger (.ofRat n) = decide (|n| < 2 ^ 53) := by
  have hround : roundDouble (n : ℚ) = ((if n < 0 then -(roundNat n.natAbs : ℤ)
      else roundNat n.natAbs : ℤ) : ℚ) := by
    rw [roundDouble_intCast]
    split_ifs
    · push_cast
      rfl
    · push_cast
      rfl
  have habs := abs_roundDouble_intCast n
  have hlt : |n| < 2 ^ 53 ↔ n.natAbs < 2 ^ 53 := by
    rw [← Int.natCast_natAbs]
    norm_cast
  rw [JsNumber.ofRat]
  by_cases hbig : |roundDouble (n : ℚ)| < 2 ^ 1024
  · rw [dif_pos hbig]
    refine decide_eq_decide.mpr ?_
    rw [habs, hround, Rat.den_intCast, hlt, ← roundNat_lt_iff (n := n.natAbs)]
    norm_cast
    simp
  · rw [dif_neg hbig]
    refine (decide_eq_false fun h => hbig ?_).symm
    rw [habs]
    have := roundNat_lt_iff.mpr (hlt.mp h)
    calc (roundNat n.natAbs : ℚ) < 2 ^ 53 := by exact_mod_cast this
      _ ≤ 2 ^ 1024 := pow_le_pow_right₀ (by norm_num) (by norm_num)

end EcmaText
