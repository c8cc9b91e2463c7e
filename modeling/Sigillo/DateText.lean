import Sigillo.IsoTime
import Sigillo.EcmaText

/-!
# Dates as they are printed

`new Date(time).toISOString()`: nothing for a time past the range of a date, a year of six digits
and a sign before year 0 and after 9999, and else the one spelling a receipt accepts
(**`isTimestamp_isoText`**), which reads back as the same time (**`dateParse_isoText`**). -/

namespace IsoTime

open DoubleArith Utf16Text JsonText JsonParse EcmaText

-- ── Digits ───────────────────────────────────────────────────────────────────────

/-- A number in some digits, with zeros before it. -/
def padded : ℕ → ℕ → JsString
  | 0, _ => []
  | n + 1, k => padded n (k / 10) ++ [(0x30 + k % 10).toUInt16]

@[simp] theorem length_padded (n k : ℕ) : (padded n k).length = n := by
  induction n generalizing k with
  | zero => rfl
  | succ n ih => rw [padded, List.length_append, ih, List.length_singleton]

/-- A number that has room is read back. -/
theorem digitsValue_padded {n k : ℕ} (h : k < 10 ^ n) : digitsValue (padded n k) = k := by
  induction n generalizing k with
  | zero =>
      rw [pow_zero, Nat.lt_one_iff] at h
      rw [h]
      rfl
  | succ n ih =>
      have hk : k / 10 < 10 ^ n := by
        rw [pow_succ] at h
        exact Nat.div_lt_of_lt_mul (by rwa [Nat.mul_comm])
      rw [padded, digitsValue_append, ih hk, List.length_singleton]
      have hd : digitsValue [(0x30 + k % 10).toUInt16] = k % 10 := by
        simp only [digitsValue, List.foldl_cons, List.foldl_nil]
        rw [digit_toNat (Nat.mod_lt k (by norm_num))]
        omega
      rw [hd]
      omega

-- ── The calendar ─────────────────────────────────────────────────────────────────

/-- The days of 400 years, after which the calendar repeats. -/
def daysPerEra : ℕ := 146097

/-- The milliseconds of a day. -/
def msPerDay : ℕ := 86400000

/-- The year of a day in its era. -/
def yearOfDay (dayOfEra : ℕ) : ℕ := Nat.findGreatest (fun y => daysBeforeYear y ≤ dayOfEra) 399

/-- The month of a day in its year. -/
def monthOfDay (y dayOfYear : ℕ) : ℕ := Nat.findGreatest (fun m => daysBeforeMonth y m ≤ dayOfYear) 12

/-- A day, by its year, its month and its place in the month. -/
structure CalendarDay where
  year : ℤ
  month : ℕ
  day : ℕ
deriving DecidableEq

/-- The date of a day, counted from the start of year 0. -/
def calendarDay (days : ℤ) : CalendarDay :=
  let dayOfEra := (days % daysPerEra).toNat
  let y := yearOfDay dayOfEra
  let dayOfYear := dayOfEra - daysBeforeYear y
  let m := monthOfDay y dayOfYear
  ⟨days / daysPerEra * 400 + y, m, dayOfYear - daysBeforeMonth y m + 1⟩

/-- Four digits, or else a sign and six. -/
def yearText (y : ℤ) : JsString :=
  if 0 ≤ y ∧ y ≤ 9999 then padded 4 y.toNat
  else (if y < 0 then 0x2D else 0x2B) :: padded 6 y.natAbs

/-- The text of a time within the range of a date. -/
def isoText (time : ℤ) : JsString :=
  let sinceZero := time + epochOffset
  let date := calendarDay (sinceZero / msPerDay)
  let ms := (sinceZero % msPerDay).toNat
  yearText date.year ++ 0x2D :: padded 2 date.month ++ 0x2D :: padded 2 date.day
    ++ 0x54 :: padded 2 (ms / 3600000) ++ 0x3A :: padded 2 (ms / 60000 % 60)
    ++ 0x3A :: padded 2 (ms / 1000 % 60) ++ 0x2E :: padded 3 (ms % 1000) ++ [0x5A]

/-- The last time a `Date` holds, in milliseconds on either side of 1970. -/
def maxTime : ℕ := 8640000000000000

/-- `new Date(time).toISOString()`; `none` is the `RangeError` of a time that is no date. -/
def toISOString (time : JsNumber) : Option JsString :=
  match time with
  | .fin q _ => if |q| ≤ maxTime then some (isoText (if q < 0 then ⌈q⌉ else ⌊q⌋)) else none
  | .infinity _ => none

-- ── Days and months ──────────────────────────────────────────────────────────────

/-- A year more. -/
theorem daysBeforeYear_succ (y : ℕ) :
    daysBeforeYear (y + 1) = daysBeforeYear y + if isLeapYear y then 366 else 365 := by
  have h4 : (y + 1 + 3) / 4 = (y + 3) / 4 + if y % 4 = 0 then 1 else 0 := by split_ifs <;> omega
  have h100 : (y + 1 + 99) / 100 = (y + 99) / 100 + if y % 100 = 0 then 1 else 0 := by
    split_ifs <;> omega
  have h400 : (y + 1 + 399) / 400 = (y + 399) / 400 + if y % 400 = 0 then 1 else 0 := by
    split_ifs <;> omega
  have hle : (y + 99) / 100 ≤ (y + 3) / 4 := by omega
  have hleap : isLeapYear y = decide (y % 4 = 0 ∧ (y % 100 ≠ 0 ∨ y % 400 = 0)) :=
    Bool.eq_iff_iff.mpr (by simp [isLeapYear])
  rw [daysBeforeYear, daysBeforeYear, h4, h100, h400, hleap]
  generalize (y + 3) / 4 = a at *
  generalize (y + 99) / 100 = b at *
  generalize (y + 399) / 400 = c at *
  -- each hundredth year is a fourth one, and each four-hundredth a hundredth
  by_cases hy4 : y % 4 = 0
  · by_cases hy100 : y % 100 = 0
    · by_cases hy400 : y % 400 = 0
      · simp [hy4, hy100, hy400]
        omega
      · simp [hy4, hy100, hy400]
        omega
    · have hy400 : y % 400 ≠ 0 := by omega
      simp [hy4, hy100, hy400]
      omega
  · have hy100 : y % 100 ≠ 0 := by omega
    have hy400 : y % 400 ≠ 0 := by omega
    simp [hy4, hy100, hy400]
    omega

/-- Years of an era. -/
theorem daysBeforeYear_era (e y : ℕ) :
    daysBeforeYear (e * 400 + y) = e * daysPerEra + daysBeforeYear y := by
  unfold daysBeforeYear daysPerEra
  omega

/-- Leap years come again every era. -/
theorem isLeapYear_era (e y : ℕ) : isLeapYear (e * 400 + y) = isLeapYear y := by
  have h4 : (e * 400 + y) % 4 = y % 4 := by omega
  have h100 : (e * 400 + y) % 100 = y % 100 := by omega
  have h400 : (e * 400 + y) % 400 = y % 400 := by omega
  rw [isLeapYear, h4, h100, h400, isLeapYear]

/-- So do the months' days. -/
theorem daysInMonth_era (e y m : ℕ) : daysInMonth (e * 400 + y) m = daysInMonth y m := by
  rw [daysInMonth, isLeapYear_era, daysInMonth]

/-- So do the days before them. -/
theorem daysBeforeMonth_era (e y m : ℕ) :
    daysBeforeMonth (e * 400 + y) m = daysBeforeMonth y m := by
  simp only [daysBeforeMonth, daysInMonth_era]

/-- A month more. -/
theorem daysBeforeMonth_succ {y m : ℕ} (hm : 1 ≤ m) :
    daysBeforeMonth y (m + 1) = daysBeforeMonth y m + daysInMonth y m := by
  obtain ⟨k, rfl⟩ := Nat.exists_eq_add_of_le' hm
  simp [daysBeforeMonth, List.range_succ]

/-- The days of a year. -/
theorem daysOfYear (y : ℕ) :
    daysBeforeMonth y 12 + daysInMonth y 12 = if isLeapYear y then 366 else 365 := by
  simp only [daysBeforeMonth, daysInMonth, List.range_succ]
  cases isLeapYear y <;> rfl

/-- **The year of a day** starts no later than the day, and ends after it. -/
theorem yearOfDay_spec {d : ℕ} (hd : d < daysPerEra) :
    daysBeforeYear (yearOfDay d) ≤ d ∧ d < daysBeforeYear (yearOfDay d + 1) ∧ yearOfDay d ≤ 399 := by
  have hle : yearOfDay d ≤ 399 := Nat.findGreatest_le 399
  have hstart : daysBeforeYear (yearOfDay d) ≤ d :=
    Nat.findGreatest_spec (P := fun y => daysBeforeYear y ≤ d) (Nat.zero_le 399) (Nat.zero_le d)
  refine ⟨hstart, ?_, hle⟩
  by_cases hlast : yearOfDay d = 399
  · have hera : daysBeforeYear (399 + 1) = daysPerEra := by decide
    rw [hlast, hera]
    exact hd
  · by_contra hnot
    exact Nat.findGreatest_is_greatest (P := fun y => daysBeforeYear y ≤ d)
      (Nat.lt_succ_self (yearOfDay d)) (by omega) (not_lt.mp hnot)

/-- **The month of a day of a year**, and that the day is one of the month's. -/
theorem monthOfDay_spec {y d : ℕ} (hd : d < if isLeapYear y then 366 else 365) :
    1 ≤ monthOfDay y d ∧ monthOfDay y d ≤ 12 ∧ daysBeforeMonth y (monthOfDay y d) ≤ d ∧
      d < daysBeforeMonth y (monthOfDay y d) + daysInMonth y (monthOfDay y d) := by
  have hle : monthOfDay y d ≤ 12 := Nat.findGreatest_le 12
  have hge : 1 ≤ monthOfDay y d := Nat.le_findGreatest (by norm_num) (Nat.zero_le d)
  refine ⟨hge, hle, Nat.findGreatest_spec (P := fun m => daysBeforeMonth y m ≤ d) (Nat.zero_le 12)
    (Nat.zero_le d), ?_⟩
  by_cases hlast : monthOfDay y d = 12
  · rw [hlast, daysOfYear]
    exact hd
  · rw [← daysBeforeMonth_succ hge]
    by_contra hnot
    exact Nat.findGreatest_is_greatest (P := fun m => daysBeforeMonth y m ≤ d)
      (Nat.lt_succ_self (monthOfDay y d)) (by omega) (not_lt.mp hnot)

-- ── The text ─────────────────────────────────────────────────────────────────────

/-- The places of the calendar text, each with what is written there. -/
def layout (year month day hour minute second ms : ℕ) : JsString :=
  padded 4 year ++ 0x2D :: padded 2 month ++ 0x2D :: padded 2 day ++ 0x54 :: padded 2 hour
    ++ 0x3A :: padded 2 minute ++ 0x3A :: padded 2 second ++ 0x2E :: padded 3 ms ++ [0x5A]

/-- A date that is written has the shape of one. -/
theorem hasShape_layout (year month day hour minute second ms : ℕ) :
    hasShape (layout year month day hour minute second ms) = true := by
  have hdigit : ∀ k : ℕ, isDigit (0x30 + UInt16.ofNat (k % 10)) = true := fun k => by
    simpa using isDigit_digit (Nat.mod_lt k (by norm_num))
  have hlength : (layout year month day hour minute second ms).length = 24 := by
    simp only [layout, List.length_append, List.length_cons, List.length_nil, length_padded]
  rw [hasShape, hlength, Bool.and_eq_true]
  refine ⟨rfl, List.all_eq_true.mpr fun i hi => ?_⟩
  rw [List.mem_range] at hi
  interval_cases i
  all_goals simp [layout, padded, separators, List.lookup_cons, hdigit]

section Reading

variable {year month day hour minute second ms : ℕ}

/-- The year is read back. -/
theorem field_layout_year (h : year < 10 ^ 4) :
    field (layout year month day hour minute second ms) 0 4 = year :=
  digitsValue_padded (n := 4) h

/-- The month is read back. -/
theorem field_layout_month (h : month < 10 ^ 2) :
    field (layout year month day hour minute second ms) 5 2 = month :=
  digitsValue_padded (n := 2) h

/-- The day is read back. -/
theorem field_layout_day (h : day < 10 ^ 2) :
    field (layout year month day hour minute second ms) 8 2 = day :=
  digitsValue_padded (n := 2) h

/-- The hour is read back. -/
theorem field_layout_hour (h : hour < 10 ^ 2) :
    field (layout year month day hour minute second ms) 11 2 = hour :=
  digitsValue_padded (n := 2) h

/-- The minute is read back. -/
theorem field_layout_minute (h : minute < 10 ^ 2) :
    field (layout year month day hour minute second ms) 14 2 = minute :=
  digitsValue_padded (n := 2) h

/-- The second is read back. -/
theorem field_layout_second (h : second < 10 ^ 2) :
    field (layout year month day hour minute second ms) 17 2 = second :=
  digitsValue_padded (n := 2) h

/-- The milliseconds are read back. -/
theorem field_layout_ms (h : ms < 10 ^ 3) :
    field (layout year month day hour minute second ms) 20 3 = ms :=
  digitsValue_padded (n := 3) h

end Reading

-- ── Printing and reading ─────────────────────────────────────────────────────────

/-- The milliseconds between the start of year 0 and that of year 10000. -/
def endOfYears : ℤ := 315569520000000

/-- The time is in one of the years that four digits write. -/
def InFourDigitYears (time : ℤ) : Prop := 0 ≤ time + epochOffset ∧ time + epochOffset < endOfYears

instance : DecidablePred InFourDigitYears := fun _ => inferInstanceAs (Decidable (_ ∧ _))

/-- **What a day's date is**: its year, month and place in the month, and the days before it. -/
theorem calendarDay_natCast (days : ℕ) : ∃ year : ℕ,
    (calendarDay days).year = year ∧ year = days / daysPerEra * 400 + yearOfDay (days % daysPerEra) ∧
    1 ≤ (calendarDay days).month ∧ (calendarDay days).month ≤ 12 ∧
    1 ≤ (calendarDay days).day ∧ (calendarDay days).day ≤ daysInMonth year (calendarDay days).month ∧
    daysBeforeYear year + daysBeforeMonth year (calendarDay days).month + ((calendarDay days).day - 1)
      = days := by
  have hmod : ((days : ℤ) % (daysPerEra : ℤ)).toNat = days % daysPerEra := by
    rw [← Int.natCast_emod, Int.toNat_natCast]
  have hsplit : days / daysPerEra * daysPerEra + days % daysPerEra = days := Nat.div_add_mod' days _
  obtain ⟨hstart, hend, hy⟩ := yearOfDay_spec (Nat.mod_lt days (show 0 < daysPerEra by decide))
  rw [daysBeforeYear_succ] at hend
  obtain ⟨hm1, hm12, hfirst, hlast⟩ := monthOfDay_spec (y := yearOfDay (days % daysPerEra))
    (d := days % daysPerEra - daysBeforeYear (yearOfDay (days % daysPerEra))) (by omega)
  refine ⟨days / daysPerEra * 400 + yearOfDay (days % daysPerEra), ?_, rfl, ?_⟩
  · rw [calendarDay, hmod, ← Int.natCast_ediv]
    push_cast
    rfl
  · rw [calendarDay, hmod, daysBeforeYear_era, daysBeforeMonth_era, daysInMonth_era]
    simp only [Nat.add_sub_cancel]
    refine ⟨hm1, hm12, Nat.succ_le_succ (Nat.zero_le _), ?_, ?_⟩
    · omega
    · omega

/-- Within the years of four digits the date's text has the places of a timestamp. -/
theorem isoText_eq_layout {time : ℤ} (h : InFourDigitYears time) :
    ∃ year month day ms : ℕ, isoText time
      = layout year month day (ms / 3600000) (ms / 60000 % 60) (ms / 1000 % 60) (ms % 1000) ∧
    year < 10000 ∧ 1 ≤ month ∧ month ≤ 12 ∧ 1 ≤ day ∧ day ≤ daysInMonth year month ∧ ms < msPerDay ∧
    time + epochOffset
      = ((daysBeforeYear year + daysBeforeMonth year month + (day - 1)) * msPerDay + ms : ℕ) := by
  obtain ⟨n, hn⟩ := Int.eq_ofNat_of_zero_le h.1
  have hhi : n < 315569520000000 := by
    have := h.2
    rw [hn, endOfYears] at this
    omega
  obtain ⟨year, hyear, hyearEq, hm1, hm12, hd1, hd, hdays⟩ := calendarDay_natCast (n / msPerDay)
  have hyear4 : year < 10000 := by
    have hday : n / msPerDay < 3652425 := by
      rw [msPerDay]
      omega
    have hlast : yearOfDay (n / msPerDay % daysPerEra) ≤ 399 := Nat.findGreatest_le 399
    have hera : n / msPerDay / daysPerEra < 25 := by
      rw [daysPerEra]
      omega
    omega
  have hms : n % msPerDay < msPerDay := Nat.mod_lt n (by rw [msPerDay]; norm_num)
  refine ⟨year, _, _, n % msPerDay, ?_, hyear4, hm1, hm12, hd1, hd, hms, ?_⟩
  · rw [isoText, hn, ← Int.natCast_ediv, ← Int.natCast_emod, Int.toNat_natCast, hyear, yearText,
      if_pos (by omega), Int.toNat_natCast, layout]
  · rw [hdays, hn, Nat.div_add_mod' n msPerDay]

/-- **A time within the years of four digits is printed as a timestamp.** -/
theorem isTimestamp_isoText {time : ℤ} (h : InFourDigitYears time) : IsTimestamp (isoText time) := by
  obtain ⟨year, month, day, ms, htext, hyear, hm1, hm12, hd1, hd, hms, -⟩ := isoText_eq_layout h
  have hday : daysInMonth year month ≤ 31 := by
    rw [daysInMonth]
    split_ifs <;> omega
  rw [msPerDay] at hms
  rw [htext, IsTimestamp, field_layout_year (by omega), field_layout_month (by omega),
    field_layout_day (by omega), field_layout_hour (by omega), field_layout_minute (by omega),
    field_layout_second (by omega)]
  exact ⟨hasShape_layout .., hm1, hm12, hd1, hd, by omega, by omega, by omega⟩

/-- **It reads back as the time it was printed of.** -/
theorem dateParse_isoText {time : ℤ} (h : InFourDigitYears time) :
    dateParse ⟨isoText time, isTimestamp_isoText h⟩ = time := by
  obtain ⟨year, month, day, ms, htext, hyear, hm1, hm12, hd1, hd, hms, htime⟩ := isoText_eq_layout h
  have hday : daysInMonth year month ≤ 31 := by
    rw [daysInMonth]
    split_ifs <;> omega
  rw [msPerDay] at hms htime
  simp only [dateParse, htext]
  rw [field_layout_year (by omega), field_layout_month (by omega),
    field_layout_day (by omega), field_layout_hour (by omega), field_layout_minute (by omega),
    field_layout_second (by omega), field_layout_ms (by omega)]
  generalize daysBeforeYear year + daysBeforeMonth year month + (day - 1) = days at *
  omega

/-- A time outside those years has its date in none of them. -/
theorem year_of_not_inFourDigitYears {time : ℤ} (h : ¬ InFourDigitYears time) :
    ¬ (0 ≤ (calendarDay ((time + epochOffset) / msPerDay)).year ∧
      (calendarDay ((time + epochOffset) / msPerDay)).year ≤ 9999) := by
  rintro ⟨hlo, hhi⟩
  refine h ?_
  have hy : yearOfDay ((time + epochOffset) / msPerDay % daysPerEra).toNat ≤ 399 :=
    Nat.findGreatest_le 399
  have hms : ((msPerDay : ℕ) : ℤ) = 86400000 := rfl
  have hera : ((daysPerEra : ℕ) : ℤ) = 146097 := rfl
  simp only [calendarDay, hms, hera] at hlo hhi
  rw [hms, hera] at hy
  rw [InFourDigitYears, endOfYears]
  constructor
  · omega
  · omega

/-- **A time outside those years is not**: its year takes seven characters. -/
theorem not_isTimestamp_isoText {time : ℤ} (h : ¬ InFourDigitYears time) :
    ¬ IsTimestamp (isoText time) := by
  intro hts
  have hlen : (isoText time).length = 24 := by
    have := hts.1
    rw [hasShape, Bool.and_eq_true, beq_iff_eq] at this
    exact this.1
  simp only [isoText, yearText, if_neg (year_of_not_inFourDigitYears h), List.length_append, List.length_cons,
    length_padded, List.length_nil] at hlen
  omega

example : isoText 253402300800000 = js "+010000-01-01T00:00:00.000Z" := by decide +kernel

-- ── One text for each time ───────────────────────────────────────────────────────

/-- What is printed of a date apart from its digits: the signs of a year, and what stands between. -/
def dateMarks : JsString := js "-+T:.Z"

/-- Padding is digits. -/
theorem isDigit_of_mem_padded {n k : ℕ} : ∀ u ∈ padded n k, isDigit u = true := by
  induction n generalizing k with
  | zero =>
      intro u hu
      exact absurd hu List.not_mem_nil
  | succ n ih =>
      intro u hu
      rcases List.mem_append.mp hu with hu | hu
      · exact ih u hu
      · rw [List.mem_singleton.mp hu]
        exact isDigit_digit (Nat.mod_lt k (by norm_num))

/-- A date is digits and its own marks. -/
theorem mem_isoText {time : ℤ} : ∀ u ∈ isoText time, isDigit u = true ∨ u ∈ dateMarks := by
  have hyear : ∀ y, ∀ u ∈ yearText y, isDigit u = true ∨ u ∈ dateMarks := by
    intro y u hu
    rw [yearText] at hu
    by_cases hy : 0 ≤ y ∧ y ≤ 9999
    · rw [if_pos hy] at hu
      exact .inl (isDigit_of_mem_padded u hu)
    · rw [if_neg hy] at hu
      rcases List.mem_cons.mp hu with rfl | hu
      · by_cases hneg : y < 0
        · rw [if_pos hneg]
          exact .inr (by decide)
        · rw [if_neg hneg]
          exact .inr (by decide)
      · exact .inl (isDigit_of_mem_padded u hu)
  have hmarked : ∀ (mark : UInt16) (n k : ℕ), mark ∈ dateMarks →
      ∀ u ∈ mark :: padded n k, isDigit u = true ∨ u ∈ dateMarks := by
    intro mark n k hmark u hu
    rcases List.mem_cons.mp hu with rfl | hu
    · exact .inr hmark
    · exact .inl (isDigit_of_mem_padded u hu)
  intro u hu
  rw [isoText] at hu
  simp only [List.mem_append] at hu
  obtain ((((((hu | hu) | hu) | hu) | hu) | hu) | hu) | hu := hu
  · exact hyear _ u hu
  all_goals first
    | exact hmarked _ _ _ (by decide) u hu
    | exact .inr (List.mem_singleton.mp hu ▸ by decide)

/-- Padded numbers are told apart. -/
theorem padded_inj {n j k : ℕ} (hj : j < 10 ^ n) (hk : k < 10 ^ n) (h : padded n j = padded n k) : j = k := by
  rw [← digitsValue_padded hj, ← digitsValue_padded hk, h]

/-- Years are told apart. -/
theorem yearText_inj {y z : ℤ} (hy : |y| ≤ 999999) (hz : |z| ≤ 999999) (h : yearText y = yearText z) :
    y = z := by
  rw [abs_le] at hy hz
  rw [yearText, yearText] at h
  by_cases hy4 : 0 ≤ y ∧ y ≤ 9999
  · by_cases hz4 : 0 ≤ z ∧ z ≤ 9999
    · rw [if_pos hy4, if_pos hz4] at h
      have heq := padded_inj (by omega) (by omega) h
      omega
    · rw [if_pos hy4, if_neg hz4] at h
      have hlen := congrArg List.length h
      rw [List.length_cons, length_padded, length_padded] at hlen
      omega
  · by_cases hz4 : 0 ≤ z ∧ z ≤ 9999
    · rw [if_neg hy4, if_pos hz4] at h
      have hlen := congrArg List.length h
      rw [List.length_cons, length_padded, length_padded] at hlen
      omega
    · rw [if_neg hy4, if_neg hz4] at h
      obtain ⟨hsign, hdigits⟩ := List.cons.inj h
      have heq := padded_inj (by omega) (by omega) hdigits
      by_cases hyneg : y < 0
      · by_cases hzneg : z < 0
        · omega
        · rw [if_pos hyneg, if_neg hzneg] at hsign
          exact absurd hsign (by decide)
      · by_cases hzneg : z < 0
        · rw [if_neg hyneg, if_pos hzneg] at hsign
          exact absurd hsign (by decide)
        · omega

/-- What the date of any day is, before year 0 too. -/
theorem calendarDay_intCast (days : ℤ) : ∃ (era : ℤ) (y : ℕ), y ≤ 399 ∧
    (calendarDay days).year = era * 400 + y ∧ (calendarDay days).month ≤ 12 ∧ (calendarDay days).day ≤ 31 ∧
    days = era * daysPerEra
      + (daysBeforeYear y + daysBeforeMonth y (calendarDay days).month + ((calendarDay days).day - 1) : ℕ) := by
  have hpos : 0 < (daysPerEra : ℤ) := by decide
  have hmod : ((days % daysPerEra).toNat : ℤ) = days % daysPerEra :=
    Int.toNat_of_nonneg (Int.emod_nonneg _ hpos.ne')
  have hlt : (days % daysPerEra).toNat < daysPerEra := by
    have := Int.emod_lt_of_pos days hpos
    omega
  have hsplit := Int.ediv_mul_add_emod days daysPerEra
  obtain ⟨hstart, hend, hy⟩ := yearOfDay_spec hlt
  rw [daysBeforeYear_succ] at hend
  obtain ⟨-, hm12, hfirst, hlast⟩ := monthOfDay_spec (y := yearOfDay (days % daysPerEra).toNat)
    (d := (days % daysPerEra).toNat - daysBeforeYear (yearOfDay (days % daysPerEra).toNat)) (by omega)
  have hday : ∀ y m, daysInMonth y m ≤ 31 := fun y m => by
    rw [daysInMonth]
    split_ifs <;> omega
  rw [calendarDay]
  dsimp only
  generalize yearOfDay (days % daysPerEra).toNat = y at *
  generalize monthOfDay y ((days % daysPerEra).toNat - daysBeforeYear y) = m at *
  have := hday y m
  exact ⟨days / daysPerEra, y, hy, rfl, hm12, by omega, by omega⟩

/-- A day is known by its date. -/
theorem calendarDay_inj {a b : ℤ} (h : calendarDay a = calendarDay b) : a = b := by
  obtain ⟨ea, ya, hya, hyearA, -, -, ha⟩ := calendarDay_intCast a
  obtain ⟨eb, yb, hyb, hyearB, -, -, hb⟩ := calendarDay_intCast b
  have hyear : ea * 400 + ya = eb * 400 + (yb : ℤ) := by rw [← hyearA, ← hyearB, h]
  obtain rfl : ea = eb := by omega
  obtain rfl : ya = yb := by omega
  rw [ha, hb, h]

/-- A day of `Date` is in a year of six digits. -/
theorem year_bound {days : ℤ} (h : |days| ≤ 200000000) : |(calendarDay days).year| ≤ 999999 := by
  have hy : yearOfDay (days % daysPerEra).toNat ≤ 399 := Nat.findGreatest_le 399
  have hera : ((daysPerEra : ℕ) : ℤ) = 146097 := rfl
  rw [abs_le] at h ⊢
  rw [calendarDay]
  dsimp only
  rw [hera] at hy ⊢
  constructor <;> omega

/-- **Two times within the range of a date are printed differently.** -/
theorem isoText_inj {s t : ℤ} (hs : |s| ≤ maxTime) (ht : |t| ≤ maxTime) (h : isoText s = isoText t) : s = t := by
  have hday : ((msPerDay : ℕ) : ℤ) = 86400000 := rfl
  have hoffset : epochOffset = 62167219200000 := rfl
  have hmax : ((maxTime : ℕ) : ℤ) = 8640000000000000 := rfl
  rw [abs_le, hmax] at hs ht
  simp only [isoText, hday] at h
  generalize hsDate : calendarDay ((s + epochOffset) / 86400000) = ds at h
  generalize htDate : calendarDay ((t + epochOffset) / 86400000) = dt at h
  obtain ⟨es, ys, -, -, hsm, hsd, -⟩ := calendarDay_intCast ((s + epochOffset) / 86400000)
  obtain ⟨et, yt, -, -, htm, htd, -⟩ := calendarDay_intCast ((t + epochOffset) / 86400000)
  rw [hsDate] at hsm hsd
  rw [htDate] at htm htd
  generalize hsMs : ((s + epochOffset) % 86400000).toNat = ms at h
  generalize htMs : ((t + epochOffset) % 86400000).toNat = mt at h
  -- the places after the year are as wide in both texts
  obtain ⟨h, -⟩ := List.append_inj' h rfl
  obtain ⟨h, hmilli⟩ := List.append_inj' h (by simp)
  obtain ⟨h, hsecond⟩ := List.append_inj' h (by simp)
  obtain ⟨h, hminute⟩ := List.append_inj' h (by simp)
  obtain ⟨h, hhour⟩ := List.append_inj' h (by simp)
  obtain ⟨h, hdayText⟩ := List.append_inj' h (by simp)
  obtain ⟨h, hmonth⟩ := List.append_inj' h (by simp)
  have hmilliEq := padded_inj (by omega) (by omega) (List.cons.inj hmilli).2
  have hsecondEq := padded_inj (by omega) (by omega) (List.cons.inj hsecond).2
  have hminuteEq := padded_inj (by omega) (by omega) (List.cons.inj hminute).2
  have hhourEq := padded_inj (by omega) (by omega) (List.cons.inj hhour).2
  have hmonthEq := padded_inj (by omega) (by omega) (List.cons.inj hmonth).2
  have hdayEq := padded_inj (by omega) (by omega) (List.cons.inj hdayText).2
  have hyearS : |ds.year| ≤ 999999 := hsDate ▸ year_bound (abs_le.mpr ⟨by omega, by omega⟩)
  have hyearT : |dt.year| ≤ 999999 := htDate ▸ year_bound (abs_le.mpr ⟨by omega, by omega⟩)
  have hyear := yearText_inj hyearS hyearT h
  have hdate : ds = dt := by
    cases ds
    cases dt
    rw [CalendarDay.mk.injEq]
    exact ⟨hyear, hmonthEq, hdayEq⟩
  rw [← hsDate, ← htDate] at hdate
  have hdays := calendarDay_inj hdate
  omega

/-- `toISOString` of a whole number. -/
theorem toISOString_ofRat (n : ℤ) :
    toISOString (.ofRat n) = if |n| ≤ maxTime then some (isoText n) else none := by
  by_cases hn : |n| ≤ 2 ^ 53
  · rw [JsNumber.ofRat_of_isDouble (isDouble_intCast hn), toISOString]
    have habs : |(n : ℚ)| ≤ maxTime ↔ |n| ≤ maxTime := by exact_mod_cast Iff.rfl
    rw [Int.ceil_intCast, Int.floor_intCast, ite_self]
    exact if_congr habs rfl rfl
  · have hfar : ¬ |n| ≤ maxTime := by
      intro hle
      rw [maxTime] at hle
      omega
    rw [if_neg hfar, JsNumber.ofRat]
    split_ifs with hfin
    · have hround : ¬ |roundDouble (n : ℚ)| ≤ maxTime := by
        have h53 : ¬ roundNat n.natAbs < 2 ^ 53 := by
          rw [roundNat_lt_iff]
          have := Int.natCast_natAbs n
          omega
        rw [abs_roundDouble_intCast, maxTime]
        intro hle
        have : roundNat n.natAbs ≤ 8640000000000000 := by exact_mod_cast hle
        omega
      exact if_neg hround
    · rfl

end IsoTime
