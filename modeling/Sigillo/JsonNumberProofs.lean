import Sigillo.JsonParse
import Mathlib.Tactic.Ring

/-!
# Printed numbers read back

`Number::toString` picks the fewest digits that round to the double, so reading the digits
and rounding gives the double back: **`parseNumber_numberToString`**, for every natural
that is a double. -/

namespace JsonParse

open DoubleArith Utf16Text JsonText

-- ── Digits ───────────────────────────────────────────────────────────────────────

/-- The text goes on with no digit. -/
def NoDigit (s : JsString) : Prop := ∀ u r, s = u :: r → isDigit u = false

/-- The text goes on with nothing a numeral could absorb. -/
def NumEnd (s : JsString) : Prop :=
  ∀ u r, s = u :: r → isDigit u = false ∧ u ≠ 0x2E ∧ u ≠ 0x65 ∧ u ≠ 0x45

theorem NumEnd.noDigit {s : JsString} (h : NumEnd s) : NoDigit s := fun u r hs => (h u r hs).1

theorem takeWhile_digits {ds rest : JsString} (hds : ∀ u ∈ ds, isDigit u = true)
    (hr : NoDigit rest) : (ds ++ rest).takeWhile isDigit = ds := by
  rw [List.takeWhile_append_of_pos hds]
  cases rest with
  | nil => simp
  | cons u r => simp [hr u r rfl]

theorem dropWhile_digits {ds rest : JsString} (hds : ∀ u ∈ ds, isDigit u = true)
    (hr : NoDigit rest) : (ds ++ rest).dropWhile isDigit = rest := by
  rw [List.dropWhile_append_of_pos hds]
  cases rest with
  | nil => simp
  | cons u r => simp [hr u r rfl]

theorem digit_toNat {d : ℕ} (hd : d < 10) : (0x30 + d).toUInt16.toNat = 0x30 + d :=
  toUInt16_toNat (by omega)

theorem isDigit_digit {d : ℕ} (hd : d < 10) : isDigit (0x30 + d).toUInt16 = true := by
  rw [isDigit, digit_toNat hd]
  simp
  omega

theorem isDigit_of_mem_decimal {n : ℕ} : ∀ u ∈ decimal n, isDigit u = true := by
  intro u hu
  unfold decimal at hu
  split_ifs at hu
  · rw [List.mem_singleton.mp hu]; decide
  · obtain ⟨d, hd, rfl⟩ := List.mem_map.mp hu
    exact isDigit_digit (Nat.digits_lt_base (by norm_num) (List.mem_reverse.mp hd))

theorem decimal_ne_nil (n : ℕ) : decimal n ≠ [] := by
  unfold decimal
  split_ifs with h
  · simp
  · simp [Nat.digits_ne_nil_iff_ne_zero, h]

theorem digitsValue_append (a b : JsString) :
    digitsValue (a ++ b) = digitsValue a * 10 ^ b.length + digitsValue b := by
  have key : ∀ (b : JsString) (acc : ℕ),
      b.foldl (fun acc u => acc * 10 + (u.toNat - 0x30)) acc
        = acc * 10 ^ b.length + digitsValue b := by
    intro b
    induction b with
    | nil => intro acc; simp [digitsValue]
    | cons u b ih =>
        intro acc
        have hz := ih (0 * 10 + (u.toNat - 0x30))
        simp only [digitsValue, List.foldl_cons, List.length_cons] at *
        rw [ih, hz]
        ring
  unfold digitsValue
  rw [List.foldl_append]
  exact key b _

/-- The decimal digits of a natural denote it. -/
@[simp] theorem digitsValue_decimal (n : ℕ) : digitsValue (decimal n) = n := by
  have key : ∀ l : List ℕ, (∀ d ∈ l, d < 10) →
      digitsValue (l.reverse.map fun d => (0x30 + d).toUInt16) = Nat.ofDigits 10 l := by
    intro l hl
    induction l with
    | nil => rfl
    | cons d l ih =>
        have hd := hl d (by simp)
        rw [List.reverse_cons, List.map_append, digitsValue_append,
          ih fun e he => hl e (by simp [he]), Nat.ofDigits_cons]
        have hval : (0x30 + d).toUInt16.toNat - 0x30 = d := by rw [digit_toNat hd]; omega
        simp only [List.map_cons, List.map_nil, List.length_cons, List.length_nil, digitsValue,
          List.foldl_cons, List.foldl_nil, hval]
        push_cast
        ring
  unfold decimal
  split_ifs with h
  · subst h; rfl
  · rw [key _ fun d hd => Nat.digits_lt_base (by norm_num) hd, Nat.ofDigits_digits]

/-- No leading zero, except in zero itself. -/
theorem decimal_head (n : ℕ) : ¬ ((decimal n).head? = some 0x30 ∧ 1 < (decimal n).length) := by
  unfold decimal
  split_ifs with h
  · simp
  · rintro ⟨hhead, -⟩
    have hne : Nat.digits 10 n ≠ [] := Nat.digits_ne_nil_iff_ne_zero.mpr h
    have hlast := Nat.getLast_digit_ne_zero 10 h
    rw [List.head?_map, List.head?_reverse, List.getLast?_eq_getLast_of_ne_nil hne] at hhead
    have hlt : (Nat.digits 10 n).getLast hne < 10 :=
      Nat.digits_lt_base (by norm_num) (List.getLast_mem hne)
    have := congrArg UInt16.toNat (Option.some.inj hhead)
    rw [digit_toNat hlt] at this
    apply hlast
    have h30 : (0x30 : UInt16).toNat = 0x30 := rfl
    omega

theorem length_decimal {s k : ℕ} (hk : 1 ≤ k) (hlo : 10 ^ (k - 1) ≤ s) (hhi : s < 10 ^ k) :
    (decimal s).length = k := by
  have hs : s ≠ 0 := by
    have : 0 < 10 ^ (k - 1) := by positivity
    omega
  unfold decimal
  rw [if_neg hs, List.length_map, List.length_reverse, Nat.length_digits 10 s (by norm_num) hs]
  have : Nat.log 10 s = k - 1 := by
    rw [Nat.log_eq_iff (Or.inr ⟨by norm_num, hs⟩)]
    refine ⟨hlo, ?_⟩
    rwa [Nat.sub_add_cancel hk]
  omega

-- ── Numerals ─────────────────────────────────────────────────────────────────────

theorem parseFraction_of_ne {s : JsString} (h : ∀ u r, s = u :: r → u ≠ 0x2E) :
    parseFraction s = some ([], s) := by
  cases s with
  | nil => rfl
  | cons u r => simp [parseFraction, h u r rfl]

theorem parseExponent_of_numEnd {s : JsString} (h : NumEnd s) :
    parseExponent s = some (0, s) := by
  cases s with
  | nil => rfl
  | cons u r =>
      obtain ⟨-, -, h1, h2⟩ := h u r rfl
      simp [parseExponent, h1, h2]

theorem parseExponent_exponentText {e : ℕ} {rest : JsString} (h : NumEnd rest) :
    parseExponent (0x65 :: exponentText e ++ rest) = some ((e : ℤ), rest) := by
  have hneg : ¬ ((e : ℤ) < 0) := by omega
  have htake : (decimal e ++ rest).takeWhile isDigit = decimal e :=
    takeWhile_digits isDigit_of_mem_decimal h.noDigit
  have hdrop : (decimal e ++ rest).dropWhile isDigit = rest :=
    dropWhile_digits isDigit_of_mem_decimal h.noDigit
  have hsign : ∀ s, parseSign (0x2B :: s) = (false, s) := fun s => by simp [parseSign]
  simp only [exponentText, if_neg hneg, Int.natAbs_natCast, List.cons_append, List.nil_append,
    parseExponent, hsign, true_or, if_true, htake, hdrop, if_neg (decimal_ne_nil e),
    digitsValue_decimal]
  simp

/-- A whole numeral with no point and no exponent. -/
theorem parseUnsigned_decimal {m : ℕ} {rest : JsString} (h : NumEnd rest) :
    parseUnsigned (decimal m ++ rest) = some ((m : ℚ), rest) := by
  have htake : (decimal m ++ rest).takeWhile isDigit = decimal m :=
    takeWhile_digits isDigit_of_mem_decimal h.noDigit
  have hdrop : (decimal m ++ rest).dropWhile isDigit = rest :=
    dropWhile_digits isDigit_of_mem_decimal h.noDigit
  simp only [parseUnsigned, htake, hdrop]
  rw [if_neg (by have := decimal_head m; have := decimal_ne_nil m; tauto),
    parseFraction_of_ne fun u r hs => (h u r hs).2.1]
  simp [parseExponent_of_numEnd h]

/-- A numeral with an exponent and no point. -/
theorem parseUnsigned_exponent {m e : ℕ} {rest : JsString} (h : NumEnd rest) :
    parseUnsigned (decimal m ++ 0x65 :: exponentText e ++ rest)
      = some ((m : ℚ) * 10 ^ (e : ℤ), rest) := by
  have hstop : NoDigit (0x65 :: exponentText e ++ rest) := by
    intro u r hs
    obtain ⟨rfl, -⟩ := List.cons.inj hs
    decide
  have htake := takeWhile_digits (isDigit_of_mem_decimal (n := m)) hstop
  have hdrop := dropWhile_digits (isDigit_of_mem_decimal (n := m)) hstop
  rw [List.append_assoc]
  simp only [parseUnsigned, htake, hdrop]
  rw [if_neg (by have := decimal_head m; have := decimal_ne_nil m; tauto),
    parseFraction_of_ne fun u r hs => by obtain ⟨rfl, -⟩ := List.cons.inj hs; decide]
  simp only [Option.bind_eq_bind, Option.bind_some, parseExponent_exponentText h]
  simp

/-- A numeral with one digit, a point, more digits and an exponent. -/
theorem parseUnsigned_point {s k e : ℕ} (hk : 2 ≤ k) (hlen : (decimal s).length = k)
    {rest : JsString} (h : NumEnd rest) :
    parseUnsigned ((decimal s).take 1 ++ 0x2E :: (decimal s).drop 1
        ++ 0x65 :: exponentText e ++ rest)
      = some ((s : ℚ) * 10 ^ ((e : ℤ) - (k - 1 : ℕ)), rest) := by
  have hstop : NoDigit (0x2E :: ((decimal s).drop 1 ++ (0x65 :: exponentText e ++ rest))) := by
    intro u r hs
    obtain ⟨rfl, -⟩ := List.cons.inj hs
    decide
  have hstop' : NoDigit (0x65 :: exponentText e ++ rest) := by
    intro u r hs
    obtain ⟨rfl, -⟩ := List.cons.inj hs
    decide
  have hint : ∀ u ∈ (decimal s).take 1, isDigit u = true :=
    fun u hu => isDigit_of_mem_decimal u (List.mem_of_mem_take hu)
  have hfrac : ∀ u ∈ (decimal s).drop 1, isDigit u = true :=
    fun u hu => isDigit_of_mem_decimal u (List.mem_of_mem_drop hu)
  have hlen1 : ((decimal s).take 1).length = 1 := by rw [List.length_take, hlen]; omega
  have hne : (decimal s).take 1 ≠ [] := by
    intro hnil
    rw [hnil] at hlen1
    exact absurd hlen1 (by simp)
  have hne' : (decimal s).drop 1 ≠ [] := by
    intro hnil
    have : ((decimal s).drop 1).length = 0 := by rw [hnil]; rfl
    rw [List.length_drop, hlen] at this
    omega
  have hshape : (decimal s).take 1 ++ 0x2E :: (decimal s).drop 1 ++ 0x65 :: exponentText e ++ rest
      = (decimal s).take 1
        ++ (0x2E :: ((decimal s).drop 1 ++ (0x65 :: exponentText e ++ rest))) := by simp
  rw [hshape]
  simp only [parseUnsigned, takeWhile_digits hint hstop, dropWhile_digits hint hstop]
  rw [if_neg (by rintro (h0 | ⟨-, h1⟩); exacts [hne h0, by omega])]
  simp only [parseFraction, if_pos, takeWhile_digits hfrac hstop', dropWhile_digits hfrac hstop',
    if_neg hne', Option.bind_eq_bind, Option.bind_some, parseExponent_exponentText h,
    List.take_append_drop, digitsValue_decimal]
  rw [List.length_drop, hlen]

-- ── The shortest digits ──────────────────────────────────────────────────────────

/-- What the digits picked at one scale are: `k` digits that round to the number. -/
theorem shortestAt_spec {q : ℚ} {n : ℤ} {k s : ℕ} {n' : ℤ} (hk : 1 ≤ k)
    (hlo : (10 : ℚ) ^ (n - 1) ≤ q) (hhi : q < 10 ^ n) (h : shortestAt q n k = some (s, n')) :
    roundDouble ((s : ℚ) * 10 ^ (n' - k)) = q ∧ 10 ^ (k - 1) ≤ s ∧ s < 10 ^ k ∧ n ≤ n' := by
  have hupos : (0 : ℚ) < 10 ^ (n - k) := zpow_pos (by norm_num) _
  have hfloor0 : 0 ≤ ⌊q / 10 ^ (n - k)⌋ := by
    apply Int.floor_nonneg.mpr
    have : (0 : ℚ) < 10 ^ (n - 1) := zpow_pos (by norm_num) _
    exact div_nonneg (by linarith) hupos.le
  -- the digits below the number are `k` of them
  have hlow : 10 ^ (k - 1) ≤ (⌊q / 10 ^ (n - k)⌋).toNat := by
    have : ((10 ^ (k - 1) : ℕ) : ℤ) ≤ ⌊q / 10 ^ (n - k)⌋ := by
      rw [Int.le_floor, le_div_iff₀ hupos]
      refine le_trans (le_of_eq ?_) hlo
      push_cast
      rw [← zpow_natCast, ← zpow_add₀ (by norm_num)]
      congr 1
      omega
    omega
  have hhigh : (⌊q / 10 ^ (n - k)⌋).toNat < 10 ^ k := by
    have : ⌊q / 10 ^ (n - k)⌋ < ((10 ^ k : ℕ) : ℤ) := by
      rw [Int.floor_lt, div_lt_iff₀ hupos]
      refine lt_of_lt_of_le hhi (le_of_eq ?_)
      push_cast
      rw [← zpow_natCast, ← zpow_add₀ (by norm_num)]
      congr 1
      omega
    omega
  generalize hlo' : (⌊q / 10 ^ (n - k)⌋).toNat = lo at hlow hhigh
  unfold shortestAt at h
  simp only [hlo'] at h
  split_ifs at h with h1 h2 h3
  · obtain ⟨rfl, rfl⟩ := Prod.mk.inj (Option.some.inj h)
    simp only [Bool.and_eq_true, decide_eq_true_eq] at h1
    exact ⟨h1.1.2, hlow, hhigh, le_refl _⟩
  · obtain ⟨rfl, rfl⟩ := Prod.mk.inj (Option.some.inj h)
    have hround := of_decide_eq_true h2
    rw [h3] at hround
    refine ⟨?_, le_refl _, Nat.pow_lt_pow_right (by norm_num) (by omega), by omega⟩
    rw [← hround]
    congr 1
    push_cast
    rw [← zpow_natCast, ← zpow_natCast, ← zpow_add₀ (by norm_num), ← zpow_add₀ (by norm_num)]
    congr 1
    omega
  · obtain ⟨rfl, rfl⟩ := Prod.mk.inj (Option.some.inj h)
    exact ⟨of_decide_eq_true h2, by omega, by omega, le_refl _⟩

/-- The search stops at the first count of digits that will do. -/
theorem shortestFrom_spec {q : ℚ} {n : ℤ} {k₀ : ℕ} (h₀ : shortestAt q n k₀ ≠ none) :
    ∀ (fuel k : ℕ), k ≤ k₀ → k₀ < k + fuel →
      ∃ s k' n', shortestFrom q n fuel k = some (s, k', n') ∧ k ≤ k' ∧ k' ≤ k₀ ∧
        shortestAt q n k' = some (s, n') := by
  intro fuel
  induction fuel with
  | zero => intro k h1 h2; omega
  | succ fuel ih =>
      intro k h1 h2
      cases hat : shortestAt q n k with
      | some p => exact ⟨p.1, k, p.2, by simp [shortestFrom, hat], le_refl _, h1, hat⟩
      | none =>
          have hne : k ≠ k₀ := by rintro rfl; exact h₀ hat
          obtain ⟨s, k', n', hf, hk', hle, hat'⟩ := ih (k + 1) (by omega) (by omega)
          exact ⟨s, k', n', by simp [shortestFrom, hat, hf], by omega, hle, hat'⟩

theorem two_pow_le_ten_pow {e : ℕ} (he : e ≤ 3 * 767) : (2 : ℕ) ^ e ≤ 10 ^ 767 := by
  calc (2 : ℕ) ^ e ≤ 2 ^ (3 * 767) := Nat.pow_le_pow_right (by norm_num) he
    _ = (2 ^ 3) ^ 767 := pow_mul 2 3 767
    _ ≤ 10 ^ 767 := Nat.pow_le_pow_left (by norm_num) 767

/-- A natural that is a double has digits, no more than it is long. -/
theorem shortest_natCast {m : ℕ} (hm : 0 < m) (hd : IsDouble (m : ℚ)) :
    ∃ s k n, shortest (m : ℚ) = some (s, k, n) ∧ 1 ≤ k ∧ (k : ℤ) ≤ n ∧
      10 ^ (k - 1) ≤ s ∧ s < 10 ^ k ∧ roundDouble ((s : ℚ) * 10 ^ (n - k)) = m := by
  have hmq : (0 : ℚ) < m := by exact_mod_cast hm
  have hlog : Int.log 10 (m : ℚ) = Nat.log 10 m := Int.log_natCast 10 m
  have hlow : (10 : ℚ) ^ (Int.log 10 (m : ℚ) + 1 - 1) ≤ m := by
    rw [add_sub_cancel_right]
    exact_mod_cast Int.zpow_log_le_self (b := 10) (by norm_num) hmq
  have hhigh : (m : ℚ) < 10 ^ (Int.log 10 (m : ℚ) + 1) := by
    exact_mod_cast Int.lt_zpow_succ_log_self (b := 10) (by norm_num) (m : ℚ)
  have hsize : Nat.log 10 m < 767 := by
    apply Nat.log_lt_of_lt_pow hm.ne'
    have hlt : (m : ℚ) < 2 ^ 1024 := by
      have := hd.2
      rwa [abs_of_pos hmq] at this
    have hlt' : m < 2 ^ 1024 := by exact_mod_cast hlt
    exact lt_of_lt_of_le hlt' (two_pow_le_ten_pow (by omega))
  -- all the digits of the number will do
  have hall : shortestAt (m : ℚ) (Int.log 10 (m : ℚ) + 1) (Nat.log 10 m + 1) ≠ none := by
    have hunit : (10 : ℚ) ^ (Int.log 10 (m : ℚ) + 1 - ((Nat.log 10 m + 1 : ℕ) : ℤ)) = 1 := by
      rw [hlog]
      push_cast
      rw [sub_self, zpow_zero]
    have hfl : (⌊(m : ℚ) / 1⌋).toNat = m := by simp
    have hok : (decide (10 ^ (Nat.log 10 m + 1 - 1) ≤ m)
        && decide (roundDouble ((m : ℚ) * 1) = m)) = true := by
      simp [hd.1, Nat.pow_log_le_self 10 hm.ne']
    unfold shortestAt
    simp only [hunit, hfl, hok, Bool.true_and]
    split_ifs with h1 h2 h3
    · simp
    · simp
    · simp
    · simp only [Bool.or_eq_true, Bool.not_eq_true'] at h1
      simp only [Bool.not_eq_true] at h2
      tauto
  obtain ⟨s, k, n, hf, hk, hkle, hat⟩ :=
    shortestFrom_spec hall 768 1 (by omega) (by omega)
  obtain ⟨hr, hs1, hs2, hn⟩ := shortestAt_spec hk hlow hhigh hat
  refine ⟨s, k, n, hf, hk, ?_, hs1, hs2, hr⟩
  rw [hlog] at hn
  omega

-- ── The round trip ───────────────────────────────────────────────────────────────

/-- **The digits printed for a positive natural read back to it.** -/
theorem parseUnsigned_positiveText {m : ℕ} (hm : 0 < m) (hd : IsDouble (m : ℚ))
    {rest : JsString} (h : NumEnd rest) :
    ∃ q : ℚ, parseUnsigned (positiveText (m : ℚ) ++ rest) = some (q, rest) ∧
      roundDouble q = m := by
  obtain ⟨s, k, n, hsh, hk, hkn, hs1, hs2, hr⟩ := shortest_natCast hm hd
  refine ⟨(s : ℚ) * 10 ^ (n - k), ?_, hr⟩
  rw [positiveText, hsh]
  simp only [layoutDigits]
  by_cases h21 : n ≤ 21
  · rw [if_pos ⟨hkn, h21⟩, parseUnsigned_decimal h]
    congr 2
    push_cast
    rw [← zpow_natCast, Int.toNat_of_nonneg (by omega)]
  · obtain ⟨e, he⟩ := Int.eq_ofNat_of_zero_le (show 0 ≤ n - 1 by omega)
    rw [if_neg (by omega), if_neg (by omega), if_neg (by omega), he]
    by_cases h1 : k = 1
    · rw [if_pos h1, parseUnsigned_exponent h]
      congr 2
      rw [h1, ← he]
      norm_num
    · have hexp : (e : ℤ) - ((k - 1 : ℕ) : ℤ) = n - k := by omega
      rw [if_neg h1, parseUnsigned_point (k := k) (by omega) (length_decimal hk hs1 hs2) h, hexp]

theorem positiveText_head {m : ℕ} (hm : 0 < m) (hd : IsDouble (m : ℚ)) :
    ∃ u r, positiveText (m : ℚ) = u :: r ∧ isDigit u = true := by
  have hdec : ∀ j : ℕ, ∀ t : JsString, ∃ u r, decimal j ++ t = u :: r ∧ isDigit u = true := by
    intro j t
    cases hj : decimal j with
    | nil => exact absurd hj (decimal_ne_nil j)
    | cons u r =>
        exact ⟨u, r ++ t, rfl, isDigit_of_mem_decimal (n := j) u (by rw [hj]; simp)⟩
  obtain ⟨s, k, n, hsh, hk, hkn, hs1, hs2, -⟩ := shortest_natCast hm hd
  rw [positiveText, hsh]
  simp only [layoutDigits]
  by_cases h21 : n ≤ 21
  · rw [if_pos ⟨hkn, h21⟩]
    simpa using hdec (s * 10 ^ (n - k).toNat) []
  · rw [if_neg (by omega), if_neg (by omega), if_neg (by omega)]
    split_ifs with h1
    · exact hdec s _
    · cases hs : decimal s with
      | nil => exact absurd hs (decimal_ne_nil s)
      | cons u r =>
          exact ⟨u, _, rfl, isDigit_of_mem_decimal (n := s) u (by rw [hs]; simp)⟩

/-- The text of a natural starts with a digit. -/
theorem numberToString_head {m : ℕ} (hd : IsDouble (m : ℚ)) :
    ∃ u r, numberToString (.fin m hd) = u :: r ∧ isDigit u = true := by
  rcases Nat.eq_zero_or_pos m with rfl | hm
  · exact ⟨0x30, [], by simp [numberToString], by decide⟩
  · have hne : (m : ℚ) ≠ 0 := by exact_mod_cast hm.ne'
    have hnn : ¬ (m : ℚ) < 0 := by
      have : (0 : ℚ) ≤ m := Nat.cast_nonneg m
      linarith
    simp only [numberToString, if_neg hne, if_neg hnn]
    exact positiveText_head hm hd

/-- **`JSON.parse` reads back the text of a natural.** -/
theorem parseNumber_numberToString {m : ℕ} (hd : IsDouble (m : ℚ)) {rest : JsString}
    (h : NumEnd rest) :
    parseNumber (numberToString (.fin m hd) ++ rest) = some (.fin m hd, rest) := by
  obtain ⟨q, hq, hround⟩ : ∃ q : ℚ,
      parseUnsigned (numberToString (.fin m hd) ++ rest) = some (q, rest) ∧
        roundDouble q = m := by
    rcases Nat.eq_zero_or_pos m with rfl | hm
    · refine ⟨0, ?_, by simpa using hd.1⟩
      have := parseUnsigned_decimal (m := 0) h
      simpa [numberToString, decimal] using this
    · have hne : (m : ℚ) ≠ 0 := by exact_mod_cast hm.ne'
      have hnn : ¬ (m : ℚ) < 0 := by
        have : (0 : ℚ) ≤ m := Nat.cast_nonneg m
        linarith
      simp only [numberToString, if_neg hne, if_neg hnn]
      exact parseUnsigned_positiveText hm hd h
  obtain ⟨u, r, hhead, hdig⟩ := numberToString_head hd
  have hminus : u ≠ 0x2D := by rintro rfl; exact absurd hdig (by decide)
  have hval : JsNumber.ofRat q = .fin m hd := by
    have hlt : |roundDouble q| < 2 ^ 1024 := by rw [hround]; exact hd.2
    rw [JsNumber.ofRat, dif_pos hlt]
    simp only [hround]
  rw [hhead] at hq ⊢
  simp only [List.cons_append, parseNumber, if_neg hminus]
  rw [← List.cons_append, hq]
  simp [hval]

end JsonParse
