import Sigillo.DateText
import Sigillo.JsonCanonical

/-!
# Dates in order

The text of a date is in the order of its day: four digits of the year, two of the month, two of the
day, each with zeros before it, so that a date compares as text as it does in time (**`dateOf_le`**).
Its instant is that of its day (**`dateUTC_real`**). -/

namespace IsoTime

open DoubleArith Utf16Text JsonText JsonParse EcmaText

-- ── Texts of one length ──────────────────────────────────────────────────────────

theorem lexLe_self (a : JsString) : lexLe a a = true := by
  induction a with
  | nil => rfl
  | cons u a ih => rw [lexLe, if_pos rfl, ih]

theorem lexLe_append_self (a : JsString) {x y : JsString} (h : lexLe x y = true) : lexLe (a ++ x) (a ++ y) = true := by
  induction a with
  | nil => exact h
  | cons u a ih =>
      show lexLe (u :: (a ++ x)) (u :: (a ++ y)) = true
      rw [lexLe, if_pos rfl, ih]

/-- Of texts that differ in beginnings of one length, the beginnings decide. -/
theorem lexLe_append_of_ne {a b : JsString} (hlen : a.length = b.length) (hne : a ≠ b) (h : lexLe a b = true)
    (x y : JsString) : lexLe (a ++ x) (b ++ y) = true := by
  induction a generalizing b with
  | nil =>
      rw [List.length_nil] at hlen
      exact absurd (List.eq_nil_of_length_eq_zero hlen.symm).symm hne
  | cons u a ih =>
      cases b with
      | nil => cases hlen
      | cons v b =>
          show lexLe (u :: (a ++ x)) (v :: (b ++ y)) = true
          rw [lexLe] at h ⊢
          by_cases huv : u = v
          · rw [if_pos huv] at h ⊢
            exact ih (Nat.succ.inj hlen) (fun hab => hne (by rw [huv, hab])) h
          · rwa [if_neg huv] at h ⊢

/-- **Numbers in as many digits** are in their order. -/
theorem lexLe_padded {n j k : ℕ} (h : j ≤ k) (hk : k < 10 ^ n) : lexLe (padded n j) (padded n k) = true := by
  induction n generalizing j k with
  | zero => rfl
  | succ n ih =>
      rw [padded, padded]
      have hk' : k / 10 < 10 ^ n := by
        rw [pow_succ] at hk
        exact Nat.div_lt_of_lt_mul (by rwa [Nat.mul_comm])
      have hhigh : lexLe (padded n (j / 10)) (padded n (k / 10)) = true := ih (Nat.div_le_div_right h) hk'
      by_cases heq : padded n (j / 10) = padded n (k / 10)
      · have hsame : j / 10 = k / 10 := padded_inj ((Nat.div_le_div_right h).trans_lt hk') hk' heq
        rw [heq]
        refine lexLe_append_self _ ?_
        rw [lexLe]
        by_cases hdigit : (0x30 + j % 10).toUInt16 = (0x30 + k % 10).toUInt16
        · rw [if_pos hdigit]
          rfl
        · rw [if_neg hdigit, decide_eq_true_iff]
          have hmod : ∀ m : ℕ, (0x30 + m % 10).toUInt16.toNat = 0x30 + m % 10 := fun m =>
            digit_toNat (Nat.mod_lt m (by norm_num))
          have hne : j % 10 ≠ k % 10 := fun h => hdigit (by rw [h])
          rw [hmod, hmod]
          omega
      · exact lexLe_append_of_ne (by rw [length_padded, length_padded]) heq hhigh _ _

-- ── Days ─────────────────────────────────────────────────────────────────────────

/-- `YYYY-MM-DD`. -/
def dateOf (year month day : ℕ) : JsString :=
  padded 4 year ++ 0x2D :: padded 2 month ++ 0x2D :: padded 2 day

/-- The day, counted from the start of year 0. -/
def dayNumber (year month day : ℕ) : ℕ := daysBeforeYear year + daysBeforeMonth year month + (day - 1)

theorem daysInMonth_le (y m : ℕ) : daysInMonth y m ≤ 31 := by
  rw [daysInMonth]
  split_ifs <;> omega

theorem daysBeforeMonth_lt {y m n : ℕ} (hm : 1 ≤ m) (h : m < n) :
    daysBeforeMonth y m + daysInMonth y m ≤ daysBeforeMonth y n := by
  induction n, h using Nat.le_induction with
  | base => exact (daysBeforeMonth_succ hm).ge
  | succ n hn ih =>
      rw [daysBeforeMonth_succ (hm.trans (Nat.le_of_lt hn))]
      exact ih.trans (Nat.le_add_right _ _)

theorem daysBeforeYear_lt {y z : ℕ} (h : y < z) :
    daysBeforeYear y + (if isLeapYear y then 366 else 365) ≤ daysBeforeYear z := by
  induction z, h using Nat.le_induction with
  | base => exact (daysBeforeYear_succ y).ge
  | succ z hz ih =>
      rw [daysBeforeYear_succ]
      exact ih.trans (Nat.le_add_right _ _)

/-- The days of a year before the end of a month of it. -/
theorem dayOfYear_lt {y m d : ℕ} (hm1 : 1 ≤ m) (hm12 : m ≤ 12) (hd1 : 1 ≤ d) (hd : d ≤ daysInMonth y m) :
    daysBeforeMonth y m + (d - 1) < if isLeapYear y then 366 else 365 := by
  rw [← daysOfYear]
  rcases Nat.lt_or_eq_of_le hm12 with hlt | rfl
  · have hnext := daysBeforeMonth_lt (y := y) hm1 hlt
    omega
  · omega

/-- **A day is of one date.** -/
theorem dayNumber_inj {y m d y' m' d' : ℕ} (hm1 : 1 ≤ m) (hm12 : m ≤ 12) (hd1 : 1 ≤ d) (hd : d ≤ daysInMonth y m)
    (hm1' : 1 ≤ m') (hm12' : m' ≤ 12) (hd1' : 1 ≤ d') (hd' : d' ≤ daysInMonth y' m')
    (h : dayNumber y m d = dayNumber y' m' d') : y = y' ∧ m = m' ∧ d = d' := by
  have hday := dayOfYear_lt hm1 hm12 hd1 hd
  have hday' := dayOfYear_lt hm1' hm12' hd1' hd'
  rw [dayNumber, dayNumber] at h
  have hyear : y = y' := by
    rcases Nat.lt_trichotomy y y' with hlt | heq | hgt
    · have hlater := daysBeforeYear_lt hlt
      omega
    · exact heq
    · have hlater := daysBeforeYear_lt hgt
      omega
  subst hyear
  have hmonth : m = m' := by
    rcases Nat.lt_trichotomy m m' with hlt | heq | hgt
    · have hlater := daysBeforeMonth_lt (y := y) hm1 hlt
      omega
    · exact heq
    · have hlater := daysBeforeMonth_lt (y := y) hm1' hgt
      omega
  subst hmonth
  exact ⟨rfl, rfl, by omega⟩

/-- **An earlier day is an earlier text.** -/
theorem dateOf_le {y m d y' m' d' : ℕ} (hy' : y' < 10000) (hm1 : 1 ≤ m) (hm12 : m ≤ 12) (hd1 : 1 ≤ d)
    (hd : d ≤ daysInMonth y m) (hm1' : 1 ≤ m') (hm12' : m' ≤ 12) (hd1' : 1 ≤ d') (hd' : d' ≤ daysInMonth y' m')
    (h : dayNumber y m d ≤ dayNumber y' m' d') : lexLe (dateOf y m d) (dateOf y' m' d') = true := by
  have hday := dayOfYear_lt hm1 hm12 hd1 hd
  have hday' := dayOfYear_lt hm1' hm12' hd1' hd'
  rw [dayNumber, dayNumber] at h
  have hyear : y ≤ y' := by
    by_contra hnot
    have hlater := daysBeforeYear_lt (Nat.lt_of_not_le hnot)
    omega
  have hlast : d' < 10 ^ 2 := lt_of_le_of_lt (hd'.trans (daysInMonth_le _ _)) (by norm_num)
  have hpart : ∀ n k : ℕ, lexLe (0x2D :: padded n k) (0x2D :: padded n k) = true := fun n k => lexLe_self _
  rw [dateOf, dateOf, List.append_assoc, List.append_assoc]
  by_cases hyeq : y = y'
  · subst hyeq
    refine lexLe_append_self _ ?_
    show lexLe (0x2D :: (padded 2 m ++ _)) (0x2D :: (padded 2 m' ++ _)) = true
    rw [lexLe, if_pos rfl]
    have hmonth : m ≤ m' := by
      by_contra hnot
      have hlater := daysBeforeMonth_lt (y := y) hm1' (Nat.lt_of_not_le hnot)
      omega
    by_cases hmeq : m = m'
    · subst hmeq
      refine lexLe_append_self _ ?_
      rw [lexLe, if_pos rfl]
      exact lexLe_padded (by omega) hlast
    · have hm' : m' < 10 ^ 2 := lt_of_le_of_lt hm12' (by norm_num)
      refine lexLe_append_of_ne (by rw [length_padded, length_padded]) (fun heq => hmeq ?_) (lexLe_padded hmonth hm') _ _
      exact padded_inj (hmonth.trans_lt hm') hm' heq
  · have hfour : y' < 10 ^ 4 := hy'
    refine lexLe_append_of_ne (by rw [length_padded, length_padded]) (fun heq => hyeq ?_) (lexLe_padded hyear hfour) _ _
    exact padded_inj (hyear.trans_lt hfour) hfour heq

-- ── The instant of a date ────────────────────────────────────────────────────────

/-- `Date.UTC(year, month - 1, day, hours, minutes, seconds, millis)`: a year below 100 is one of the last century's,
    and what is past its end goes over into the next. -/
def dateUTC (year month day hours minutes seconds millis : ℕ) : ℤ :=
  let fullYear := if year ≤ 99 then 1900 + year else year
  let y := fullYear - 1 + (month + 11) / 12
  let m := (month + 11) % 12 + 1
  (daysBeforeYear y + daysBeforeMonth y m + (day : ℤ) - 1) * msPerDay
    + (((hours * 60 + minutes) * 60 + seconds) * 1000 + millis : ℕ) - epochOffset

/-- A real date goes over into nothing. -/
theorem dateUTC_real {year month day : ℕ} (hyear : 100 ≤ year) (hmonth : 1 ≤ month ∧ month ≤ 12) (hday : 1 ≤ day)
    (hours minutes seconds millis : ℕ) :
    dateUTC year month day hours minutes seconds millis + epochOffset
      = (dayNumber year month day * msPerDay + (((hours * 60 + minutes) * 60 + seconds) * 1000 + millis) : ℕ) := by
  have hy : year - 1 + (month + 11) / 12 = year := by omega
  have hm : (month + 11) % 12 + 1 = month := by omega
  rw [dateUTC, if_neg (by omega), hy, hm, dayNumber]
  push_cast [Nat.cast_sub hday]
  ring

end IsoTime
