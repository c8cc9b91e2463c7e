import Mathlib.Data.Int.Log
import Mathlib.Data.Rat.Floor
import Mathlib.Tactic.Linarith
import Mathlib.Tactic.Positivity
import Mathlib.Tactic.FieldSimp
import Mathlib.Tactic.NormNum

/-!
# IEEE 754 doubles as exact rationals

A JavaScript number is a binary64 double.  This file keeps a finite one as the
rational it denotes and rounds with **round-half-even** at 53 significant bits,
which is what literals and `+` do:

* **`roundDouble`** — the double nearest a rational (exponent unbounded above);
* **`roundDouble_scaled`** — `m * 2^u` with `m ≤ 2^53` is its own rounding, so every
  integer up to `2^53` is exact (`roundDouble_natCast`) and rounding is idempotent;
* **`roundDouble_natCast_mono`** — rounding never reorders two naturals;
* **`JsNumber`** — the numbers a JSON text can hold: a finite double, carrying the proof
  that it is one, or an infinity.

Negative zero is identified with zero: no operation used here can tell them apart. -/

namespace DoubleArith

-- ── Rounding a rational to an integer ────────────────────────────────────────────

/-- The integer nearest `x`, the even one when two are equally near. -/
def roundHalfEven (x : ℚ) : ℤ :=
  if x - ⌊x⌋ < 1 / 2 then ⌊x⌋
  else if 1 / 2 < x - ⌊x⌋ then ⌊x⌋ + 1
  else if ⌊x⌋ % 2 = 0 then ⌊x⌋ else ⌊x⌋ + 1

/-- An integer is already rounded. -/
@[simp] theorem roundHalfEven_intCast (m : ℤ) : roundHalfEven (m : ℚ) = m := by
  simp [roundHalfEven]

/-- Rounding never goes below the floor. -/
theorem floor_le_roundHalfEven (x : ℚ) : ⌊x⌋ ≤ roundHalfEven x := by
  unfold roundHalfEven
  split_ifs <;> omega

/-- Rounding goes one above the floor at most. -/
theorem roundHalfEven_le_floor_add_one (x : ℚ) : roundHalfEven x ≤ ⌊x⌋ + 1 := by
  unfold roundHalfEven
  split_ifs <;> omega

/-- Rounding to an integer is monotone. -/
theorem roundHalfEven_mono {x y : ℚ} (h : x ≤ y) : roundHalfEven x ≤ roundHalfEven y := by
  rcases lt_or_eq_of_le (Int.floor_mono h) with hlt | heq
  · have h1 := roundHalfEven_le_floor_add_one x
    have h2 := floor_le_roundHalfEven y
    omega
  · -- the same floor: only the fractional parts decide
    unfold roundHalfEven
    rw [← heq]
    split_ifs <;> first | omega | (exfalso; linarith)

/-- An integer below `x` stays below its rounding. -/
theorem le_roundHalfEven {m : ℤ} {x : ℚ} (h : (m : ℚ) ≤ x) : m ≤ roundHalfEven x := by
  have := roundHalfEven_mono h
  rwa [roundHalfEven_intCast] at this

/-- An integer above `x` stays above its rounding. -/
theorem roundHalfEven_le {m : ℤ} {x : ℚ} (h : x ≤ m) : roundHalfEven x ≤ m := by
  have := roundHalfEven_mono h
  rwa [roundHalfEven_intCast] at this

-- ── Rounding to 53 significant bits ──────────────────────────────────────────────

/-- The exponent of the last place of the doubles around `q`. -/
def ulpExp (q : ℚ) : ℤ := max (Int.log 2 q - 52) (-1074)

/-- The double nearest a rational that is zero or more. -/
def roundPos (q : ℚ) : ℚ := roundHalfEven (q / 2 ^ ulpExp q) * 2 ^ ulpExp q

/-- The double nearest `q`, its exponent unbounded above. -/
def roundDouble (q : ℚ) : ℚ := if q < 0 then -roundPos (-q) else roundPos q

/-- A power of two is positive. -/
theorem two_zpow_pos (u : ℤ) : (0 : ℚ) < 2 ^ u := zpow_pos (by norm_num) u

/-- A rational that is a whole number of its own last places is a double. -/
theorem roundPos_of_multiple {q : ℚ} {m : ℤ} (h : q = m * 2 ^ ulpExp q) : roundPos q = q := by
  have hpos := two_zpow_pos (ulpExp q)
  have hdiv : q / 2 ^ ulpExp q = m := by
    rw [div_eq_iff hpos.ne']
    exact h
  rw [roundPos, hdiv, roundHalfEven_intCast]
  exact h.symm

/-- The exponent of a scaled natural number. -/
theorem log_natCast_mul_zpow {m : ℕ} (hm : 0 < m) (u : ℤ) :
    Int.log 2 ((m : ℚ) * 2 ^ u) = Nat.log 2 m + u := by
  have hpos : (0 : ℚ) < (m : ℚ) * 2 ^ u := mul_pos (by exact_mod_cast hm) (two_zpow_pos u)
  have hlow : (2 : ℚ) ^ (Nat.log 2 m : ℤ) ≤ m := by
    rw [zpow_natCast]
    exact_mod_cast Nat.pow_log_le_self 2 hm.ne'
  have hhigh : (m : ℚ) < 2 ^ ((Nat.log 2 m : ℤ) + 1) := by
    have := Nat.lt_pow_succ_log_self (b := 2) (by norm_num) m
    have h2 : ((Nat.log 2 m : ℤ) + 1) = ((Nat.log 2 m + 1 : ℕ) : ℤ) := by push_cast; rfl
    rw [h2, zpow_natCast]
    exact_mod_cast this
  apply le_antisymm
  · have : ((2 : ℕ) : ℚ) ^ Int.log 2 ((m : ℚ) * 2 ^ u) < 2 ^ ((Nat.log 2 m : ℤ) + u + 1) := by
      refine lt_of_le_of_lt (Int.zpow_log_le_self (by norm_num) hpos) ?_
      have : (2 : ℚ) ^ ((Nat.log 2 m : ℤ) + u + 1) = 2 ^ ((Nat.log 2 m : ℤ) + 1) * 2 ^ u := by
        rw [← zpow_add₀ (by norm_num)]; congr 1; ring
      rw [this]
      exact mul_lt_mul_of_pos_right hhigh (two_zpow_pos u)
    have := (zpow_lt_zpow_iff_right₀ (by norm_num : (1 : ℚ) < 2)).mp (by exact_mod_cast this)
    omega
  · have : (2 : ℚ) ^ ((Nat.log 2 m : ℤ) + u) ≤ (m : ℚ) * 2 ^ u := by
      rw [zpow_add₀ (by norm_num)]
      exact mul_le_mul_of_nonneg_right hlow (two_zpow_pos u).le
    have h2 := lt_of_le_of_lt this (Int.lt_zpow_succ_log_self (b := 2) (by norm_num) _)
    have := (zpow_lt_zpow_iff_right₀ (by norm_num : (1 : ℚ) < 2)).mp (by exact_mod_cast h2)
    omega

/-- `m` units of a place no finer than the last one of a double are a double, while `m`
    has 53 bits at most. -/
theorem roundPos_scaled_lt {m : ℕ} (hm : m < 2 ^ 53) {u : ℤ} (hu : -1074 ≤ u) :
    roundPos ((m : ℚ) * 2 ^ u) = m * 2 ^ u := by
  rcases Nat.eq_zero_or_pos m with rfl | hpos
  · simp [roundPos, roundHalfEven]
  · have hlog : Nat.log 2 m ≤ 52 := by
      have := Nat.log_lt_of_lt_pow hpos.ne' hm
      omega
    set q : ℚ := (m : ℚ) * 2 ^ u with hq
    have hexp : ulpExp q ≤ u := by
      rw [ulpExp, hq, log_natCast_mul_zpow hpos]
      omega
    obtain ⟨d, hd⟩ := Int.eq_ofNat_of_zero_le (sub_nonneg.mpr hexp)
    apply roundPos_of_multiple (m := (m * 2 ^ d : ℕ))
    have hsplit : (2 : ℚ) ^ u = 2 ^ d * 2 ^ ulpExp q := by
      rw [← zpow_natCast, ← zpow_add₀ (by norm_num)]
      congr 1
      omega
    push_cast
    rw [mul_assoc, ← hsplit]

/-- A number of 53 bits stands for itself at every scale a double has. -/
theorem roundPos_scaled {m : ℕ} (hm : m ≤ 2 ^ 53) {u : ℤ} (hu : -1074 ≤ u) :
    roundPos ((m : ℚ) * 2 ^ u) = m * 2 ^ u := by
  rcases Nat.lt_or_eq_of_le hm with hlt | heq
  · exact roundPos_scaled_lt hlt hu
  · -- `2^53` units are `2^52` units of the next place up
    have hshift : (m : ℚ) * 2 ^ u = ((2 ^ 52 : ℕ) : ℚ) * 2 ^ (u + 1) := by
      rw [heq, zpow_add₀ (by norm_num)]
      push_cast
      ring
    rw [hshift]
    exact roundPos_scaled_lt (by norm_num) (by omega)

/-- What rounding returns: at most `2^53` units of a place no finer than the last one. -/
theorem roundPos_form {q : ℚ} (hq : 0 ≤ q) :
    ∃ m : ℕ, m ≤ 2 ^ 53 ∧ roundPos q = m * 2 ^ ulpExp q := by
  have hpos := two_zpow_pos (ulpExp q)
  have hnonneg : 0 ≤ roundHalfEven (q / 2 ^ ulpExp q) :=
    le_roundHalfEven (by push_cast; positivity)
  obtain ⟨m, hm⟩ := Int.eq_ofNat_of_zero_le hnonneg
  refine ⟨m, ?_, ?_⟩
  · have hle : roundHalfEven (q / 2 ^ ulpExp q) ≤ (2 ^ 53 : ℕ) := by
      apply roundHalfEven_le
      rw [div_le_iff₀ hpos]
      refine le_of_lt (lt_of_lt_of_le (Int.lt_zpow_succ_log_self (b := 2) (by norm_num) q) ?_)
      have : Int.log 2 q + 1 ≤ 53 + ulpExp q := by unfold ulpExp; omega
      calc ((2 : ℕ) : ℚ) ^ (Int.log 2 q + 1) ≤ (2 : ℚ) ^ (53 + ulpExp q) := by
            push_cast
            exact zpow_le_zpow_right₀ (by norm_num) this
        _ = ((2 ^ 53 : ℕ) : ℤ) * 2 ^ ulpExp q := by
            rw [zpow_add₀ (by norm_num)]; norm_num
    rw [hm] at hle
    exact_mod_cast hle
  · rw [roundPos, hm]; rfl

/-- Rounding keeps a number from going below zero. -/
theorem roundPos_nonneg {q : ℚ} (hq : 0 ≤ q) : 0 ≤ roundPos q := by
  obtain ⟨m, -, h⟩ := roundPos_form hq
  rw [h]
  have := two_zpow_pos (ulpExp q)
  positivity

/-- Rounding twice is rounding once. -/
theorem roundPos_idem {q : ℚ} (hq : 0 ≤ q) : roundPos (roundPos q) = roundPos q := by
  obtain ⟨m, hm, h⟩ := roundPos_form hq
  rw [h]
  exact roundPos_scaled hm (by unfold ulpExp; omega)

/-- A number that was rounded stays. -/
theorem roundDouble_idem (q : ℚ) : roundDouble (roundDouble q) = roundDouble q := by
  by_cases hq : q < 0
  · have hnn : 0 ≤ roundPos (-q) := roundPos_nonneg (by linarith)
    have hval : roundDouble q = -roundPos (-q) := if_pos hq
    rw [hval]
    by_cases hz : roundPos (-q) = 0
    · rw [hz, neg_zero]
      simp [roundDouble, roundPos, roundHalfEven]
    · have hneg : -roundPos (-q) < 0 := by
        have := lt_of_le_of_ne hnn (Ne.symm hz)
        linarith
      rw [roundDouble, if_pos hneg, neg_neg, roundPos_idem (by linarith)]
  · have hq' : 0 ≤ q := by linarith
    have hval : roundDouble q = roundPos q := if_neg hq
    have hnn := roundPos_nonneg hq'
    rw [hval, roundDouble, if_neg (by linarith), roundPos_idem hq']

/-- Every natural up to `2^53` is a double. -/
theorem roundDouble_natCast {n : ℕ} (hn : n ≤ 2 ^ 53) : roundDouble (n : ℚ) = n := by
  have hneg : ¬ ((n : ℚ) < 0) := by
    have : (0 : ℚ) ≤ n := Nat.cast_nonneg n
    linarith
  rw [roundDouble, if_neg hneg]
  have := roundPos_scaled hn (u := 0) (by norm_num)
  simpa using this

/-- A natural number is rounded as a positive one. -/
theorem roundDouble_natCast_eq (n : ℕ) : roundDouble (n : ℚ) = roundPos n := by
  have : (0 : ℚ) ≤ n := Nat.cast_nonneg n
  rw [roundDouble, if_neg (by linarith)]

/-- From 1 up, the last place is 52 binades below the number. -/
theorem ulpExp_of_one_le {q : ℚ} (h : 1 ≤ q) : ulpExp q = Int.log 2 q - 52 := by
  have h1 : Int.log 2 (1 : ℚ) ≤ Int.log 2 q := Int.log_mono_right one_pos h
  rw [Int.log_one_right] at h1
  unfold ulpExp
  omega

/-- A power of two in units of the last place. -/
theorem two_pow_mul_ulp (k : ℕ) (e : ℤ) :
    ((2 ^ k : ℕ) : ℚ) * 2 ^ (e - 52) = 2 ^ (e + k - 52) := by
  have : ((2 ^ k : ℕ) : ℚ) = (2 : ℚ) ^ (k : ℤ) := by rw [zpow_natCast]; push_cast; rfl
  rw [this, ← zpow_add₀ (by norm_num)]
  congr 1
  ring

/-- Rounding stays at or below the top of the binade. -/
theorem roundPos_le_binade {q : ℚ} (h : 1 ≤ q) : roundPos q ≤ 2 ^ (Int.log 2 q + 1) := by
  have hp := two_zpow_pos (ulpExp q)
  have htop : ((2 ^ 53 : ℕ) : ℚ) * 2 ^ ulpExp q = 2 ^ (Int.log 2 q + 1) := by
    rw [ulpExp_of_one_le h, two_pow_mul_ulp]
    congr 1
    push_cast
    ring
  have hint : roundHalfEven (q / 2 ^ ulpExp q) ≤ ((2 ^ 53 : ℕ) : ℤ) := by
    apply roundHalfEven_le
    rw [div_le_iff₀ hp]
    refine le_trans (Int.lt_zpow_succ_log_self (b := 2) (by norm_num) q).le (le_of_eq ?_)
    exact htop.symm
  rw [← htop, roundPos]
  exact mul_le_mul_of_nonneg_right (by exact_mod_cast hint) hp.le

/-- Rounding stays at or above the bottom of the binade. -/
theorem binade_le_roundPos {q : ℚ} (h : 1 ≤ q) : (2 : ℚ) ^ Int.log 2 q ≤ roundPos q := by
  have hp := two_zpow_pos (ulpExp q)
  have hbot : ((2 ^ 52 : ℕ) : ℚ) * 2 ^ ulpExp q = 2 ^ Int.log 2 q := by
    rw [ulpExp_of_one_le h, two_pow_mul_ulp]
    congr 1
    push_cast
    ring
  have hint : ((2 ^ 52 : ℕ) : ℤ) ≤ roundHalfEven (q / 2 ^ ulpExp q) := by
    apply le_roundHalfEven
    rw [le_div_iff₀ hp]
    refine le_trans (le_of_eq hbot) ?_
    exact Int.zpow_log_le_self (b := 2) (by norm_num) (by linarith)
  rw [← hbot, roundPos]
  exact mul_le_mul_of_nonneg_right (by exact_mod_cast hint) hp.le

/-- Rounding never reorders two rationals from 1 up. -/
theorem roundPos_mono {a b : ℚ} (ha : 1 ≤ a) (hab : a ≤ b) : roundPos a ≤ roundPos b := by
  rcases lt_or_eq_of_le (Int.log_mono_right (b := 2) (by linarith : 0 < a) hab) with hlt | heq
  · -- different binades: a power of two lies between
    calc roundPos a ≤ 2 ^ (Int.log 2 a + 1) := roundPos_le_binade ha
      _ ≤ 2 ^ Int.log 2 b := zpow_le_zpow_right₀ (by norm_num) (by omega)
      _ ≤ roundPos b := binade_le_roundPos (by linarith)
  · -- the same binade: the same last place
    have hsame : ulpExp a = ulpExp b := by unfold ulpExp; rw [heq]
    have hp := two_zpow_pos (ulpExp b)
    have hdiv : a / 2 ^ ulpExp b ≤ b / 2 ^ ulpExp b := div_le_div_of_nonneg_right hab hp.le
    rw [roundPos, roundPos, hsame]
    exact mul_le_mul_of_nonneg_right (by exact_mod_cast roundHalfEven_mono hdiv) hp.le

/-- Rounding never reorders two naturals. -/
theorem roundDouble_natCast_mono {a b : ℕ} (h : a ≤ b) :
    roundDouble (a : ℚ) ≤ roundDouble (b : ℚ) := by
  rw [roundDouble_natCast_eq, roundDouble_natCast_eq]
  rcases Nat.eq_zero_or_pos a with rfl | hapos
  · have hz : roundPos ((0 : ℕ) : ℚ) = 0 := by simp [roundPos, roundHalfEven]
    rw [hz]
    exact roundPos_nonneg (Nat.cast_nonneg b)
  · exact roundPos_mono (by exact_mod_cast hapos) (by exact_mod_cast h)

-- ── The numbers of JavaScript ────────────────────────────────────────────────────

/-- A rational is a finite double: it is its own rounding, below the overflow threshold. -/
def IsDouble (q : ℚ) : Prop := roundDouble q = q ∧ |q| < 2 ^ 1024

instance (q : ℚ) : Decidable (IsDouble q) := inferInstanceAs (Decidable (_ ∧ _))

/-- A number as a JSON text can write one: never NaN, but possibly past the largest
    double, which reads as an infinity. -/
inductive JsNumber where
  | fin (q : ℚ) (h : IsDouble q)
  | infinity (negative : Bool)
deriving DecidableEq

/-- The number a numeral or a sum denotes: its exact value, rounded. -/
def JsNumber.ofRat (q : ℚ) : JsNumber :=
  if h : |roundDouble q| < 2 ^ 1024 then .fin (roundDouble q) ⟨roundDouble_idem q, h⟩
  else .infinity (decide (q < 0))

/-- The double nearest a natural. -/
def JsNumber.ofNat (n : ℕ) : JsNumber := .ofRat n

/-- `Number.isInteger(x) && x >= 0`, with the value. -/
def JsNumber.toNat? : JsNumber → Option ℕ
  | .fin q _ => if q.den = 1 ∧ 0 ≤ q.num then some q.num.toNat else none
  | .infinity _ => none

/-- A double is what it rounds to. -/
theorem JsNumber.ofRat_of_isDouble {q : ℚ} (h : IsDouble q) : JsNumber.ofRat q = .fin q h := by
  have hlt : |roundDouble q| < 2 ^ 1024 := by rw [h.1]; exact h.2
  rw [ofRat, dif_pos hlt]
  simp only [h.1]

/-- Every natural up to `2^53` is a finite double. -/
theorem isDouble_natCast {n : ℕ} (hn : n ≤ 2 ^ 53) : IsDouble (n : ℚ) := by
  refine ⟨roundDouble_natCast hn, ?_⟩
  have h0 : (0 : ℚ) ≤ n := Nat.cast_nonneg n
  have h1 : (n : ℚ) ≤ 2 ^ 53 := by exact_mod_cast hn
  rw [abs_of_nonneg h0]
  exact lt_of_le_of_lt h1 (pow_lt_pow_right₀ (by norm_num) (by norm_num))

/-- A natural number that is a double is read exactly. -/
theorem JsNumber.ofNat_of_isDouble {n : ℕ} (h : IsDouble (n : ℚ)) :
    JsNumber.ofNat n = .fin n h := JsNumber.ofRat_of_isDouble h

@[simp] theorem JsNumber.toNat?_fin_natCast (n : ℕ) (h : IsDouble (n : ℚ)) :
    (JsNumber.fin n h).toNat? = some n := by
  simp [JsNumber.toNat?]

/-- A natural number that is a double is read back. -/
theorem JsNumber.toNat?_ofNat {n : ℕ} (h : IsDouble (n : ℚ)) :
    (JsNumber.ofNat n).toNat? = some n := by
  rw [JsNumber.ofNat_of_isDouble h, JsNumber.toNat?_fin_natCast]

/-- A number read as a natural is that natural, and a double. -/
theorem JsNumber.toNat?_eq_some {x : JsNumber} {n : ℕ} (h : x.toNat? = some n) :
    ∃ hd : IsDouble (n : ℚ), x = .fin n hd := by
  cases x with
  | infinity b => exact nomatch h
  | fin q hq =>
      simp only [JsNumber.toNat?] at h
      split_ifs at h with hc
      obtain ⟨hden, hnum⟩ := hc
      have hn : q.num.toNat = n := Option.some.inj h
      have hcast : ((q.num.toNat : ℤ) : ℚ) = (q.num : ℚ) := by rw [Int.toNat_of_nonneg hnum]
      have hq' : q = (n : ℚ) := by
        rw [← hn, ← Int.cast_natCast, hcast]
        conv_lhs => rw [← Rat.num_div_den q, hden]
        simp
      subst hq'
      exact ⟨hq, rfl⟩

-- ── Sums of naturals ─────────────────────────────────────────────────────────────

/-- A whole number of doubles' last places, rounded one way at `k - x`, is rounded so at `k + x`. -/
theorem roundHalfEven_reflect {k : ℤ} {x : ℚ} (hx : 0 ≤ x) (h : roundHalfEven (k - x) = k) :
    roundHalfEven (k + x) = k := by
  rcases eq_or_lt_of_le hx with rfl | hpos
  · rw [add_zero, roundHalfEven_intCast]
  have hhalf : x ≤ 1 / 2 := by
    by_contra hgt
    have hle : roundHalfEven (k - x) ≤ k := roundHalfEven_le (by linarith)
    have hfl : ⌊(k : ℚ) - x⌋ ≤ k - 1 := by
      have : ⌊(k : ℚ) - x⌋ < k := Int.floor_lt.mpr (by linarith)
      omega
    have hfle := Int.floor_le ((k : ℚ) - x)
    have hflt := Int.lt_floor_add_one ((k : ℚ) - x)
    unfold roundHalfEven at h
    split_ifs at h with h1 h2 h3
    · omega
    · have : ⌊(k : ℚ) - x⌋ = k - 1 := by omega
      rw [this] at h2
      push_cast at h2
      linarith
    · omega
    · have : ⌊(k : ℚ) - x⌋ = k - 1 := by omega
      rw [this] at h1 h2
      push_cast at h1 h2
      linarith
  have hfloor : ⌊(k : ℚ) + x⌋ = k := Int.floor_eq_iff.mpr ⟨by linarith, by linarith⟩
  have hfloor' : ⌊(k : ℚ) - x⌋ = k - 1 :=
    Int.floor_eq_iff.mpr ⟨by push_cast; linarith, by push_cast; linarith⟩
  have hdiff : (k : ℚ) + x - (k : ℤ) = x := by ring
  have hdiff' : (k : ℚ) - x - ((k - 1 : ℤ) : ℚ) = 1 - x := by push_cast; ring
  unfold roundHalfEven at h ⊢
  rw [hfloor, hdiff]
  rw [hfloor', hdiff'] at h
  split_ifs at h ⊢ <;> first | rfl | omega | (exfalso; linarith)

/-- The places of a natural from `2 ^ 53` up are naturals. -/
theorem roundDouble_of_large {n : ℕ} (hn : 2 ^ 53 ≤ n) :
    ∃ j : ℕ, 1 ≤ j ∧ 2 ^ (52 + j) ≤ n ∧ n < 2 ^ (53 + j) ∧
      roundDouble (n : ℚ) = roundHalfEven ((n : ℚ) / 2 ^ j) * 2 ^ j := by
  have hpos : n ≠ 0 := by
    have : 0 < 2 ^ 53 := Nat.two_pow_pos 53
    omega
  have hlog : 53 ≤ Nat.log 2 n := (Nat.le_log_iff_pow_le (by norm_num) hpos).mpr hn
  obtain ⟨j, hj⟩ := Nat.exists_eq_add_of_le (show 52 ≤ Nat.log 2 n by omega)
  have hlow := Nat.pow_log_le_self 2 hpos
  have hhigh := Nat.lt_pow_succ_log_self (b := 2) (by norm_num) n
  rw [hj] at hlow hhigh
  have hone : (1 : ℚ) ≤ n := by exact_mod_cast Nat.one_le_iff_ne_zero.mpr hpos
  have hulp : ulpExp (n : ℚ) = (j : ℤ) := by
    rw [ulpExp_of_one_le hone, Int.log_natCast, hj]
    push_cast
    ring
  refine ⟨j, by omega, hlow, by rwa [show 53 + j = 52 + j + 1 by omega], ?_⟩
  rw [roundDouble_natCast_eq, roundPos, hulp, zpow_natCast]

/-- **A double from `2 ^ 53` up is even**, so no two of them stand side by side. -/
theorem even_of_isDouble {n : ℕ} (h : IsDouble (n : ℚ)) (hn : 2 ^ 53 ≤ n) : Even n := by
  obtain ⟨j, hj, -, -, hround⟩ := roundDouble_of_large hn
  rw [h.1] at hround
  have hmul : (n : ℤ) = roundHalfEven ((n : ℚ) / 2 ^ j) * 2 ^ j := by exact_mod_cast hround
  have htwo : (2 : ℤ) ∣ 2 ^ j := dvd_pow_self 2 (by omega)
  rw [even_iff_two_dvd]
  exact_mod_cast hmul ▸ htwo.mul_left _

/-- The double nearest a natural, as a natural. -/
def roundNat (n : ℕ) : ℕ := (roundDouble n).num.toNat

/-- Rounding natural numbers is rounding them as rationals. -/
theorem roundNat_cast (n : ℕ) : (roundNat n : ℚ) = roundDouble n := by
  obtain ⟨m, hm⟩ : ∃ m : ℕ, roundDouble (n : ℚ) = m := by
    rcases Nat.lt_or_ge n (2 ^ 53) with hlt | hge
    · exact ⟨n, roundDouble_natCast hlt.le⟩
    · obtain ⟨j, -, -, -, hj⟩ := roundDouble_of_large hge
      have hnn : 0 ≤ roundHalfEven ((n : ℚ) / 2 ^ j) := le_roundHalfEven (by push_cast; positivity)
      obtain ⟨m, hm⟩ := Int.eq_ofNat_of_zero_le hnn
      exact ⟨m * 2 ^ j, by rw [hj, hm]; push_cast; rfl⟩
  rw [roundNat, hm]
  simp

/-- A natural number that is a double stays. -/
theorem roundNat_of_isDouble {n : ℕ} (h : IsDouble (n : ℚ)) : roundNat n = n := by
  have := roundNat_cast n
  rw [h.1] at this
  exact_mod_cast this

/-- Up to 2⁵³ every natural number stays. -/
theorem roundNat_of_le {n : ℕ} (h : n ≤ 2 ^ 53) : roundNat n = n :=
  roundNat_of_isDouble (isDouble_natCast h)

/-- Rounding keeps the order. -/
theorem roundNat_mono {a b : ℕ} (h : a ≤ b) : roundNat a ≤ roundNat b := by
  have := roundDouble_natCast_mono h
  rw [← roundNat_cast, ← roundNat_cast] at this
  exact_mod_cast this

/-- A double below a natural is below what it rounds to, and one above is above. -/
theorem le_roundNat {a b : ℕ} (ha : IsDouble (a : ℚ)) (h : a ≤ b) : a ≤ roundNat b := by
  have := roundNat_mono h
  rwa [roundNat_of_isDouble ha] at this

/-- What is below a double stays below it. -/
theorem roundNat_le {a b : ℕ} (hb : IsDouble (b : ℚ)) (h : a ≤ b) : roundNat a ≤ b := by
  have := roundNat_mono h
  rwa [roundNat_of_isDouble hb] at this

/-- **Where counting up stops on a double, counting on from it stops there too.** -/
theorem roundNat_succ_of_pred {n : ℕ} (h : roundNat n = n + 1) : roundNat (n + 2) = n + 1 := by
  have hn : 2 ^ 53 ≤ n := by
    by_contra hlt
    rw [roundNat_of_le (by omega)] at h
    omega
  obtain ⟨j, hj1, hlow, hhigh, hround⟩ := roundDouble_of_large hn
  have hp : (0 : ℚ) < 2 ^ j := by positivity
  rw [← roundNat_cast, h] at hround
  -- the double is a whole number of places
  obtain ⟨k, hk⟩ : ∃ k : ℤ, roundHalfEven ((n : ℚ) / 2 ^ j) = k := ⟨_, rfl⟩
  rw [hk] at hround
  have hnk : (n : ℚ) / 2 ^ j = k - 1 / 2 ^ j := by
    rw [eq_sub_iff_add_eq, ← add_div, div_eq_iff hp.ne', ← hround]
    push_cast
    ring
  have hnk' : ((n + 2 : ℕ) : ℚ) / 2 ^ j = k + 1 / 2 ^ j := by
    rw [← sub_eq_iff_eq_add, ← sub_div, div_eq_iff hp.ne', ← hround]
    push_cast
    ring
  have hnat : (n : ℤ) + 1 = k * 2 ^ j := by
    have : ((n : ℤ) + 1 : ℤ) = (k * 2 ^ j : ℤ) := by exact_mod_cast hround
    exact this
  obtain ⟨j', hj1', hlow', hhigh', hround'⟩ := roundDouble_of_large (show 2 ^ 53 ≤ n + 2 by omega)
  rw [← roundNat_cast] at hround'
  rcases Nat.lt_or_ge (n + 2) (2 ^ (53 + j)) with hlt | hge
  · -- the same binade
    have hjj : j' = j := by
      have h1 : 2 ^ (52 + j) < 2 ^ (53 + j') := by omega
      have h2 : 2 ^ (52 + j') < 2 ^ (53 + j) := by omega
      have h3 := (Nat.pow_lt_pow_iff_right (by norm_num)).mp h1
      have h4 := (Nat.pow_lt_pow_iff_right (by norm_num)).mp h2
      omega
    rw [hjj, hnk', roundHalfEven_reflect (by positivity) (by rw [← hnk, hk])] at hround'
    rw [← hround] at hround'
    exact_mod_cast hround'
  · -- the double is the power of two between two binades
    have hpow : n + 1 = 2 ^ (53 + j) := by
      by_contra hne
      have h2 : ((n + 2 : ℕ) : ℤ) = 2 ^ 53 * 2 ^ j := by
        have : n + 2 = 2 ^ 53 * 2 ^ j := by rw [← pow_add]; omega
        exact_mod_cast this
      have hdvd : (2 ^ j : ℤ) ∣ 1 := by
        have : (1 : ℤ) = (2 ^ 53 - k) * 2 ^ j := by push_cast at h2; linarith
        exact ⟨2 ^ 53 - k, by linarith⟩
      have hle := Int.le_of_dvd (by norm_num) hdvd
      have hge2 : (2 : ℤ) ^ 1 ≤ 2 ^ j := pow_le_pow_right₀ (by norm_num) hj1
      linarith
    have hjj : j' = j + 1 := by
      have h1 : 2 ^ (53 + j) < 2 ^ (53 + j') := by omega
      have h2 : 2 ^ (52 + j') < 2 ^ (54 + j) := by
        have : 2 ^ (54 + j) = 2 * 2 ^ (53 + j) := by rw [show 54 + j = 53 + j + 1 by omega, pow_succ]; ring
        have := Nat.two_pow_pos (53 + j)
        omega
      have h3 := (Nat.pow_lt_pow_iff_right (by norm_num)).mp h1
      have h4 := (Nat.pow_lt_pow_iff_right (by norm_num)).mp h2
      omega
    have hfrac : ((n + 2 : ℕ) : ℚ) / 2 ^ (j + 1) = (2 ^ 52 : ℤ) + 1 / 2 ^ (j + 1) := by
      have : ((n + 2 : ℕ) : ℚ) = 2 ^ 52 * 2 ^ (j + 1) + 1 := by
        rw [← pow_add, show 52 + (j + 1) = 53 + j by omega]
        exact_mod_cast congrArg (· + 1) hpow
      rw [this, add_div, mul_div_cancel_right₀ _ (by positivity)]
      push_cast
      rfl
    have hsmall : (1 : ℚ) / 2 ^ (j + 1) ≤ 1 / 4 := by
      have : (2 : ℚ) ^ 2 ≤ 2 ^ (j + 1) := pow_le_pow_right₀ (by norm_num) (by omega)
      exact one_div_le_one_div_of_le (by norm_num) (by linarith)
    have hpos : (0 : ℚ) < 1 / 2 ^ (j + 1) := by positivity
    have hfloor : ⌊((2 ^ 52 : ℤ) : ℚ) + 1 / 2 ^ (j + 1)⌋ = 2 ^ 52 :=
      Int.floor_eq_iff.mpr ⟨by push_cast; linarith, by push_cast; linarith⟩
    have hrhe : roundHalfEven (((2 ^ 52 : ℤ) : ℚ) + 1 / 2 ^ (j + 1)) = 2 ^ 52 := by
      unfold roundHalfEven
      rw [hfloor, if_pos (by linarith)]
    rw [hjj, hfrac, hrhe] at hround'
    have : ((roundNat (n + 2) : ℕ) : ℚ) = ((n + 1 : ℕ) : ℚ) := by
      rw [hround', hpow, show 53 + j = 52 + (j + 1) by omega, pow_add 2 52 (j + 1)]
      push_cast
      rfl
    exact_mod_cast this

end DoubleArith
