import Sigillo.DailyExport

/-!
# The days of the history

A day of the history starts at its local midnight, which is found in two reads of the zone's offset:
at midnight UTC, and at what the first read gives.

* **`Regular.midnight`** — where the clocks change away from midnight, each day starts at one
  instant, at 00:00 of the zone's clock;
* **`Regular.twoReads`** — two reads find it, if the offset differs by less than two hours between
  instants no more than 14 hours apart;
* **`localDayRange_partitions`** — the ranges of the days are then the instants whose local date each
  day is, and follow each other. -/

namespace Sigillo

open DoubleArith Utf16Text JsonText JsonParse EcmaText IsoTime

namespace TimeZone

-- ── Offsets ──────────────────────────────────────────────────────────────────────

/-- An hour. -/
def HOUR : ℤ := 3600000

/-- A day. -/
def DAY : ℤ := 86400000

/-- How far ahead of UTC the zone's clocks are at each instant, in milliseconds. -/
abbrev Offset := ℤ → ℤ

variable (offset : Offset)

/-- What the zone's clocks show, in milliseconds since 1970. -/
def clock (t : ℤ) : ℤ := t + offset t

/-- The day of the zone's clocks, counted from 1970. -/
def dayAt (t : ℤ) : ℤ := clock offset t / DAY

/-- The clocks change at an instant two hours after one midnight and two before the next. -/
def AwayFromMidnight (c : ℤ) : Prop :=
  ∃ k : ℤ, k * DAY + 2 * HOUR ≤ c + offset (c - 1) ∧ clock offset c ≤ (k + 1) * DAY - 2 * HOUR

/-- Within 14 hours of UTC, with changes of at most an hour, away from midnight. -/
structure Regular : Prop where
  within : ∀ t, |offset t| ≤ 14 * HOUR
  change : ∀ c, offset c ≠ offset (c - 1) →
    |offset c - offset (c - 1)| ≤ HOUR ∧ AwayFromMidnight offset c

/-- Instants no more than 14 hours apart have offsets less than two hours apart. -/
def FewChanges : Prop := ∀ s t, |s - t| ≤ 14 * HOUR → |offset s - offset t| < 2 * HOUR

variable {offset}

/-- It is a day from its midnight on to the next. -/
theorem dayAt_eq_iff (t n : ℤ) : dayAt offset t = n ↔ n * DAY ≤ clock offset t ∧ clock offset t < (n + 1) * DAY := by
  rw [dayAt, DAY]
  constructor
  · intro h
    omega
  · rintro ⟨hlo, hhi⟩
    omega

namespace Regular

variable (h : Regular offset)

include h

/-- **From one instant to the next** the day stays, or the clocks go on to its midnight. -/
theorem dayAt_step (t : ℤ) : dayAt offset t = dayAt offset (t - 1) ∨
    dayAt offset t = dayAt offset (t - 1) + 1 ∧ clock offset t = dayAt offset t * DAY := by
  by_cases hsame : offset t = offset (t - 1)
  · have hnext : clock offset t = clock offset (t - 1) + 1 := by
      rw [clock, clock, hsame]
      ring
    rw [dayAt, dayAt, hnext, DAY]
    omega
  · left
    obtain ⟨hjump, k, hafter, hbefore⟩ := h.change t hsame
    rw [abs_le] at hjump
    rw [clock] at hbefore
    rw [HOUR] at hjump hafter hbefore
    rw [DAY] at hafter hbefore
    have hk : dayAt offset t = k := by
      rw [dayAt_eq_iff, clock, DAY]
      constructor <;> omega
    have hk' : dayAt offset (t - 1) = k := by
      rw [dayAt_eq_iff, clock, DAY]
      constructor <;> omega
    rw [hk, hk']

/-- Days do not go back where the clock is regular. -/
theorem dayAt_mono : ∀ s t, s ≤ t → dayAt offset s ≤ dayAt offset t := by
  refine monotone_int_of_le_succ fun t => ?_
  have hstep := h.dayAt_step (t + 1)
  rw [add_sub_cancel_right] at hstep
  omega

/-- **A day starts at one instant**, at 00:00 of the zone's clocks. -/
theorem midnight (n : ℤ) : ∃ L, clock offset L = n * DAY ∧ ∀ t, L ≤ t ↔ n ≤ dayAt offset t := by
  have hwithin := h.within
  have hlate : n ≤ dayAt offset (n * DAY + 14 * HOUR) := by
    have hat := hwithin (n * DAY + 14 * HOUR)
    rw [abs_le] at hat
    rw [dayAt, clock, DAY] at *
    omega
  have hearly : ∀ t, n ≤ dayAt offset t → n * DAY - 14 * HOUR ≤ t := by
    intro t ht
    have hat := hwithin t
    rw [abs_le] at hat
    rw [dayAt, clock] at ht
    rw [DAY] at *
    omega
  obtain ⟨L, hL, hleast⟩ := Int.exists_least_of_bdd ⟨_, hearly⟩ ⟨_, hlate⟩
  have hbefore : dayAt offset (L - 1) < n := by
    by_contra hnot
    have := hleast (L - 1) (not_lt.mp hnot)
    omega
  have hstart : clock offset L = n * DAY := by
    rcases h.dayAt_step L with hsame | ⟨hnext, hclock⟩
    · omega
    · rw [hclock, show dayAt offset L = n by omega]
  exact ⟨L, hstart, fun t => ⟨fun ht => hL.trans (h.dayAt_mono L t ht), hleast t⟩⟩

/-- The clocks do not change in the two hours after midnight. -/
theorem steady_after {n L : ℤ} (hL : clock offset L = n * DAY) {t : ℤ} (hlo : L ≤ t) (hhi : t < L + 2 * HOUR) :
    offset t = offset L := by
  induction t, hlo using Int.leInduction with
  | base => rfl
  | succ t hlo ih =>
      have hsame := ih (by omega)
      rw [← hsame]
      by_contra hchange
      obtain ⟨hjump, k, hafter, hbefore⟩ := h.change (t + 1) (by rwa [add_sub_cancel_right])
      rw [add_sub_cancel_right, abs_le] at hjump
      rw [add_sub_cancel_right, hsame] at hafter
      rw [clock] at hL hbefore
      rw [HOUR, DAY] at *
      omega

/-- Nor in the two hours before it. -/
theorem steady_before {n L : ℤ} (hL : clock offset L = n * DAY) {t : ℤ} (hhi : t ≤ L) (hlo : L - 2 * HOUR ≤ t) :
    offset t = offset L := by
  induction t, hhi using Int.leInductionDown with
  | base => rfl
  | pred t hhi ih =>
      have hsame := ih (by omega)
      rw [← hsame]
      by_contra hchange
      obtain ⟨hjump, k, hafter, hbefore⟩ := h.change t (Ne.symm hchange)
      rw [abs_le] at hjump
      rw [clock, hsame] at hbefore
      rw [clock] at hL
      rw [HOUR, DAY] at *
      omega

/-- **Two reads find the midnight**: the first lands within two hours of it, where the offset is its own. -/
theorem twoReads (hfew : FewChanges offset) {n L : ℤ} (hL : clock offset L = n * DAY) :
    n * DAY - offset (n * DAY - offset (n * DAY)) = L := by
  have hwithin := h.within L
  rw [clock] at hL
  have hnear := hfew (n * DAY) L (by rwa [show n * DAY - L = offset L by omega])
  rw [abs_lt] at hnear
  have hread : offset (n * DAY - offset (n * DAY)) = offset L := by
    rcases le_total L (n * DAY - offset (n * DAY)) with hle | hle
    · exact h.steady_after hL hle (by omega)
    · exact h.steady_before hL hle (by omega)
  rw [hread]
  omega

end Regular

-- ── What a page shows of an instant ──────────────────────────────────────────────

/-- The date and the time of day, by the zone's clocks. -/
structure LocalTime where
  year : ℕ
  month : ℕ
  day : ℕ
  time : JsString

/-- The year as `Intl` gives it, without its era. -/
def shownYear (y : ℤ) : ℕ := if 0 < y then y.toNat else (1 - y).toNat

/-- `hh:mm:ss`. -/
def clockText (seconds : ℕ) : JsString :=
  padded 2 (seconds / 3600) ++ 0x3A :: (padded 2 (seconds / 60 % 60) ++ 0x3A :: padded 2 (seconds % 60))

variable (offset)

/-- `LOCAL_PARTS.formatToParts(instant)`. -/
def localParts (instant : ℤ) : LocalTime :=
  let sinceZero := clock offset instant + epochOffset
  let date := calendarDay (sinceZero / msPerDay)
  ⟨shownYear date.year, date.month, date.day, clockText (sinceZero % msPerDay / 1000).toNat⟩

/-- Of a text that `toISOString` printed: nothing for a year that four digits do not write. -/
def localTime (iso : JsString) : Option LocalTime :=
  if h : IsTimestamp iso then some (localParts offset (dateParse ⟨iso, h⟩)) else none

/-- Of an instant a `Date` holds. -/
def offsetAt (instant : ℤ) : Option ℤ := do
  let iso ← toISOString (.ofRat instant)
  match localTime offset iso with
  | none => return 0
  | some shown =>
      match (shown.time.splitOn 0x3A).map digitsValue with
      | [hours, minutes, seconds] =>
          let asIfUtc := dateUTC shown.year shown.month shown.day hours minutes seconds 0
          return asIfUtc - instant / 1000 * 1000
      | _ => none

/-- `localMidnight`. -/
def localMidnight (year month day : ℕ) : Option ℤ := do
  let utcMidnight := dateUTC year month day 0 0 0 0
  let guess ← offsetAt offset utcMidnight
  let result ← offsetAt offset (utcMidnight - guess)
  return utcMidnight - result

/-- The first and the last instant of a day. -/
structure DayRange where
  fromIso : JsString
  toIso : JsString

/-- Of a date as `YYYY-MM-DD`; nothing where a time on the way is past the range of a `Date`. -/
def localDayRange (date : JsString) : Option DayRange :=
  match (date.splitOn 0x2D).map digitsValue with
  | [year, month, day] => do
      let start ← localMidnight offset year month day
      let next ← localMidnight offset year month (day + 1)
      return ⟨← toISOString (.ofRat start), ← toISOString (.ofRat (next - 1 : ℤ))⟩
  | _ => none

/-- `String(n).padStart(2, "0")`. -/
def padStart2 (n : ℕ) : JsString := List.replicate (2 - (decimal n).length) 0x30 ++ decimal n

/-- Of a text that `toISOString` printed, as `localTime`. -/
def localDate (iso : JsString) : Option JsString :=
  (localTime offset iso).map fun shown =>
    decimal shown.year ++ 0x2D :: (padStart2 shown.month ++ 0x2D :: padStart2 shown.day)

-- ── Numbers and their texts ──────────────────────────────────────────────────────

/-- A year of four digits is not padded. -/
theorem decimal_eq_padded {n : ℕ} (hlo : 1000 ≤ n) (hhi : n < 10000) : decimal n = padded 4 n := by
  rw [decimal, if_neg (by omega), Nat.digits_def' (by norm_num) (by omega),
    Nat.digits_def' (by norm_num) (by omega), Nat.digits_def' (by norm_num) (by omega),
    Nat.digits_of_lt 10 (n / 10 / 10 / 10) (by omega) (by omega)]
  rw [padded, padded, padded, padded, padded, Nat.mod_eq_of_lt (show n / 10 / 10 / 10 < 10 by omega)]
  rfl

/-- Two digits, padded. -/
theorem padStart2_eq_padded {n : ℕ} (hhi : n < 100) : padStart2 n = padded 2 n := by
  by_cases hzero : n = 0
  · rw [hzero]
    decide
  by_cases hone : n < 10
  · rw [padStart2, decimal, if_neg hzero, Nat.digits_of_lt 10 n hzero hone, padded, padded, padded,
      Nat.mod_eq_of_lt hone, Nat.div_eq_of_lt hone]
    rfl
  · rw [padStart2, decimal, if_neg hzero, Nat.digits_def' (by norm_num) (by omega),
      Nat.digits_of_lt 10 (n / 10) (by omega) (by omega), padded, padded, padded,
      Nat.mod_eq_of_lt (show n / 10 < 10 by omega)]
    rfl

/-- A mark that is no digit is not in a number's text. -/
theorem not_mem_padded {u : UInt16} (hu : isDigit u = false) (n k : ℕ) : u ∉ padded n k := by
  intro hmem
  rw [isDigit_of_mem_padded u hmem] at hu
  cases hu

/-- Three numbers with marks between them are read back. -/
theorem numbers_three {u : UInt16} (hu : isDigit u = false) {i j k a b c : ℕ} (ha : a < 10 ^ i) (hb : b < 10 ^ j)
    (hc : c < 10 ^ k) :
    ((padded i a ++ u :: (padded j b ++ u :: padded k c)).splitOn u).map digitsValue = [a, b, c] := by
  rw [List.splitOn_append_cons_self_of_not_mem (not_mem_padded hu i a),
    List.splitOn_append_cons_self_of_not_mem (not_mem_padded hu j b),
    List.splitOn_eq_singleton (not_mem_padded hu k c)]
  simp only [List.map_cons, List.map_nil, digitsValue_padded ha, digitsValue_padded hb, digitsValue_padded hc]

/-- The numbers of a day's text. -/
theorem numbers_text (d : LocalDay) : (d.text.splitOn 0x2D).map digitsValue = [d.year, d.month, d.day] := by
  have hday := d.isDay.2.trans (daysInMonth_le _ _)
  have hmonth := d.isMonth.2
  rw [LocalDay.text, dateOf, List.append_assoc]
  exact numbers_three rfl d.isYear.2 (by omega) (by omega)

/-- The numbers of a clock's text. -/
theorem numbers_clockText {seconds : ℕ} (h : seconds < 86400) :
    ((clockText seconds).splitOn 0x3A).map digitsValue = [seconds / 3600, seconds / 60 % 60, seconds % 60] :=
  numbers_three rfl (by omega) (by omega) (by omega)

-- ── Reading the offset ───────────────────────────────────────────────────────────

/-- A day late enough is of a year from 100 on. -/
theorem hundred_le_year {year month day : ℕ} (hm1 : 1 ≤ month) (hm12 : month ≤ 12) (hd1 : 1 ≤ day)
    (hd : day ≤ daysInMonth year month) (h : 36525 ≤ dayNumber year month day) : ¬ year ≤ 99 := by
  intro hyear
  have hday := dayOfYear_lt hm1 hm12 hd1 hd
  have hnext := daysBeforeYear_lt (Nat.lt_succ_of_le hyear)
  have hhundred : daysBeforeYear 100 = 36525 := rfl
  rw [Nat.succ_eq_add_one, hhundred] at hnext
  rw [dayNumber] at h
  omega

/-- An instant of four-digit years is one of `Date`. -/
theorem abs_le_maxTime {t : ℤ} (ht : InFourDigitYears t) : |t| ≤ maxTime := by
  have hlo := ht.1
  have hhi := ht.2
  rw [epochOffset] at hlo hhi
  rw [endOfYears] at hhi
  rw [abs_le, maxTime]
  constructor <;> omega

/-- The local time of an instant's text. -/
theorem localTime_isoText {t : ℤ} (ht : InFourDigitYears t) :
    localTime offset (isoText t) = some (localParts offset t) := by
  rw [localTime, dif_pos (isTimestamp_isoText ht), dateParse_isoText ht]

/-- None outside the four-digit years. -/
theorem localTime_isoText_none {t : ℤ} (ht : ¬ InFourDigitYears t) : localTime offset (isoText t) = none :=
  dif_neg (not_isTimestamp_isoText ht)

/-- What two whole seconds, of the zone's clocks and of the instant, tell of the offset. -/
def offsetRead (t : ℤ) : ℤ := clock offset t / 1000 * 1000 - t / 1000 * 1000

/-- **The offset is read to the second**, of any instant shown in the year 100 or later. -/
theorem offsetAt_eq {t : ℤ} (ht : InFourDigitYears t) (hclock : 36525 * DAY ≤ clock offset t + epochOffset) :
    offsetAt offset t = some (offsetRead offset t) := by
  rw [DAY] at hclock
  obtain ⟨n, hn⟩ := Int.eq_ofNat_of_zero_le (show 0 ≤ clock offset t + epochOffset by omega)
  obtain ⟨year, hyear, -, hm1, hm12, hd1, hd, hdays⟩ := calendarDay_natCast (n / 86400000)
  have hlate := hundred_le_year hm1 hm12 hd1 hd (by rw [dayNumber, hdays]; omega)
  have hparts : localParts offset t = ⟨year, (calendarDay (n / 86400000 : ℕ)).month,
      (calendarDay (n / 86400000 : ℕ)).day, clockText (n % 86400000 / 1000)⟩ := by
    have hdate : calendarDay ((n : ℤ) / msPerDay) = calendarDay (n / 86400000 : ℕ) := rfl
    have htime : ((n : ℤ) % msPerDay / 1000).toNat = n % 86400000 / 1000 := rfl
    have hshown : shownYear year = year := by
      rw [shownYear, if_pos (by omega), Int.toNat_natCast]
    rw [localParts, hn, hdate, htime, hyear, hshown]
  rw [offsetAt, toISOString_ofRat, if_pos (abs_le_maxTime ht), Option.bind_eq_bind, Option.bind_some,
    localTime_isoText offset ht, hparts]
  dsimp only
  rw [numbers_clockText (by omega)]
  dsimp only
  have hutc := dateUTC_real (show 100 ≤ year by omega) ⟨hm1, hm12⟩ hd1 (n % 86400000 / 1000 / 3600)
    (n % 86400000 / 1000 / 60 % 60) (n % 86400000 / 1000 % 60) 0
  rw [dayNumber, hdays] at hutc
  rw [offsetRead, show clock offset t = n - epochOffset by omega]
  refine congrArg some ?_
  rw [epochOffset, msPerDay] at *
  omega

/-- The midnight UTC of a day counted from the start of year 0. -/
def utcMidnight (n : ℕ) : ℤ := n * DAY - epochOffset

/-- Where two reads end. -/
def midnightRead (n : ℕ) : ℤ := utcMidnight n - offsetRead offset (utcMidnight n - offsetRead offset (utcMidnight n))

/-- `Date.UTC` of a day's numbers is its midnight. -/
theorem dateUTC_midnight {year month day : ℕ} (hyear : 1000 ≤ year) (hmonth : 1 ≤ month ∧ month ≤ 12)
    (hday : 1 ≤ day) : dateUTC year month day 0 0 0 0 = utcMidnight (dayNumber year month day) := by
  have hutc := dateUTC_real (show 100 ≤ year by omega) hmonth hday 0 0 0 0
  rw [utcMidnight, DAY]
  rw [msPerDay] at hutc
  omega

/-- Both reads are of instants a `Date` holds. -/
theorem localMidnight_eq (hwithin : ∀ t, |offset t| ≤ 14 * HOUR) {year month day : ℕ} (hyear : 1000 ≤ year)
    (hmonth : 1 ≤ month ∧ month ≤ 12) (hday : 1 ≤ day) (hlast : dayNumber year month day ≤ 3652100) :
    localMidnight offset year month day = some (midnightRead offset (dayNumber year month day)) := by
  have hfirst : 365000 ≤ dayNumber year month day := by
    rw [dayNumber, daysBeforeYear]
    omega
  rw [localMidnight, dateUTC_midnight hyear hmonth hday, midnightRead]
  generalize hn : dayNumber year month day = n at *
  have hread : ∀ t, |t - utcMidnight n| ≤ 15 * HOUR → offsetAt offset t = some (offsetRead offset t) := by
    intro t ht
    have hat := hwithin t
    rw [utcMidnight] at ht
    rw [abs_le, HOUR] at ht hat
    rw [DAY] at ht
    refine offsetAt_eq offset ⟨by omega, ?_⟩ ?_
    · rw [endOfYears]
      omega
    · rw [DAY, clock]
      omega
  have hnear : |utcMidnight n - offsetRead offset (utcMidnight n) - utcMidnight n| ≤ 15 * HOUR := by
    have hat := hwithin (utcMidnight n)
    rw [offsetRead, clock]
    rw [abs_le, HOUR] at *
    constructor <;> omega
  have hzero : |utcMidnight n - utcMidnight n| ≤ 15 * HOUR := by
    rw [sub_self, abs_zero, HOUR]
    norm_num
  rw [hread _ hzero, Option.bind_eq_bind, Option.bind_some, hread _ hnear, Option.bind_some]
  rfl

/-- Where the offset is in whole seconds the reading is exact. -/
theorem offsetRead_eq {t : ℤ} (h : 1000 ∣ offset t) : offsetRead offset t = offset t := by
  rw [offsetRead, clock]
  omega

/-- The number of the day after. -/
theorem dayNumber_next (year month : ℕ) {day : ℕ} (hday : 1 ≤ day) :
    dayNumber year month (day + 1) = dayNumber year month day + 1 := by
  rw [dayNumber, dayNumber]
  omega

/-- A day of a year before 9999. -/
theorem number_le {d : LocalDay} (hyear : d.year ≤ 9998) : d.number < 3652060 := by
  have hday := dayOfYear_lt d.isMonth.1 d.isMonth.2 d.isDay.1 d.isDay.2
  have hnext := daysBeforeYear_lt (Nat.lt_succ_of_le hyear)
  have hlast : daysBeforeYear 9999 = 3652060 := rfl
  rw [Nat.succ_eq_add_one, hlast] at hnext
  rw [LocalDay.number, dayNumber]
  omega

/-- A midnight is an instant of `Date`. -/
theorem abs_midnightRead_le (hwithin : ∀ t, |offset t| ≤ 14 * HOUR) {n : ℕ} (hn : n ≤ 3652100) :
    |midnightRead offset n| ≤ maxTime - 1 := by
  rw [midnightRead]
  generalize ht : utcMidnight n - offsetRead offset (utcMidnight n) = t
  have hat := hwithin t
  rw [offsetRead, clock]
  rw [utcMidnight, DAY, epochOffset] at *
  rw [abs_le, HOUR] at hat
  rw [abs_le, maxTime]
  constructor <;> omega

/-- The range of a day with two midnights, whose times a `Date` holds. -/
theorem localDayRange_of {d : LocalDay} {start next : ℤ}
    (hstart : localMidnight offset d.year d.month d.day = some start)
    (hnext : localMidnight offset d.year d.month (d.day + 1) = some next) (hfrom : |start| ≤ maxTime)
    (hto : |next - 1| ≤ maxTime) :
    localDayRange offset d.text = some ⟨isoText start, isoText (next - 1)⟩ := by
  have hfromIso : toISOString (.ofRat start) = some (isoText start) := by
    rw [toISOString_ofRat, if_pos hfrom]
  have htoIso : toISOString (.ofRat (next - 1 : ℤ)) = some (isoText (next - 1)) := by
    rw [toISOString_ofRat, if_pos hto]
  rw [localDayRange, numbers_text]
  dsimp only
  rw [hstart, hnext, Option.bind_eq_bind, Option.bind_some, Option.bind_eq_bind, Option.bind_some, hfromIso,
    Option.bind_some, htoIso, Option.bind_some]
  rfl

/-- **The range of a day**: the two midnights, as they are read. -/
theorem localDayRange_eq (hwithin : ∀ t, |offset t| ≤ 14 * HOUR) {d : LocalDay} (hlast : d.number ≤ 3652099) :
    localDayRange offset d.text =
      some ⟨isoText (midnightRead offset d.number), isoText (midnightRead offset (d.number + 1) - 1)⟩ := by
  have hday := d.isDay.1
  have hnumber : dayNumber d.year d.month (d.day + 1) = d.number + 1 := dayNumber_next d.year d.month hday
  have hstart := localMidnight_eq offset hwithin d.isYear.1 d.isMonth hday (by rw [← LocalDay.number]; omega)
  have hnext := localMidnight_eq offset hwithin d.isYear.1 d.isMonth (Nat.le_add_left 1 d.day)
    (hnumber ▸ (by omega : d.number + 1 ≤ 3652100))
  rw [hnumber] at hnext
  have hnear := abs_midnightRead_le offset hwithin (show d.number + 1 ≤ 3652100 by omega)
  refine localDayRange_of offset hstart hnext ?_ ?_
  · exact (abs_midnightRead_le offset hwithin (show d.number ≤ 3652100 by omega)).trans (by omega)
  · rw [abs_le] at *
    constructor <;> omega

-- ── The date of an instant ───────────────────────────────────────────────────────

/-- The text of a date tells its numbers, of a year that four digits write. -/
theorem text_eq_iff {year month day : ℕ} (hm : month < 100) (hday : day < 100) (d : LocalDay) :
    decimal year ++ 0x2D :: (padStart2 month ++ 0x2D :: padStart2 day) = d.text ↔
      year = d.year ∧ month = d.month ∧ day = d.day := by
  have hyear4 := d.isYear.2
  have hmonth2 : d.month < 100 := by
    have := d.isMonth.2
    omega
  have hday2 : d.day < 100 := by
    have := d.isDay.2.trans (daysInMonth_le _ _)
    omega
  rw [LocalDay.text, dateOf, List.append_assoc, padStart2_eq_padded hm, padStart2_eq_padded hday]
  constructor
  · intro heq
    obtain ⟨hyear, hrest⟩ := List.append_inj' heq (by simp)
    obtain ⟨hmonth, hlast⟩ := List.append_inj' (List.cons.inj hrest).2 (by simp)
    refine ⟨?_, padded_inj hm hmonth2 hmonth, padded_inj hday hday2 (List.cons.inj hlast).2⟩
    rw [← digitsValue_decimal year, hyear, digitsValue_padded hyear4]
  · rintro ⟨rfl, rfl, rfl⟩
    rw [decimal_eq_padded d.isYear.1 hyear4]
    rfl

/-- The days from the start of year 0 to 1970. -/
def EPOCH_DAYS : ℤ := 719528

/-- A month has 31 days at most. -/
theorem daysBeforeMonth_le (y m : ℕ) : daysBeforeMonth y m ≤ 31 * (m - 1) := by
  have hsum := List.sum_le_card_nsmul ((List.range (m - 1)).map fun i => daysInMonth y (i + 1)) 31 fun k hk => by
    obtain ⟨i, -, rfl⟩ := List.mem_map.mp hk
    exact daysInMonth_le y (i + 1)
  rw [List.length_map, List.length_range] at hsum
  exact hsum.trans_eq (Nat.mul_comm _ _)

/-- A day before year 0 is shown in a year of fewer digits. -/
theorem shownYear_lt {days : ℤ} (hneg : days < 0) (hnear : -1 ≤ days) : shownYear (calendarDay days).year < 1000 := by
  obtain ⟨era, y, hy, hyear, hm, hday, hdays⟩ := calendarDay_intCast days
  have hmonth := daysBeforeMonth_le y (calendarDay days).month
  rw [show ((daysPerEra : ℕ) : ℤ) = 146097 from rfl, daysBeforeYear] at hdays
  rw [hyear, shownYear, if_neg (by omega)]
  omega

/-- **The date of an instant is the day of the zone's clocks.** -/
theorem localDate_iff (hwithin : ∀ t, |offset t| ≤ 14 * HOUR) {d : LocalDay} (hyear : d.year ≤ 9998) (t : ℤ) :
    localDate offset (isoText t) = some d.text ↔ dayAt offset t + EPOCH_DAYS = d.number := by
  have hat := hwithin t
  rw [abs_le, HOUR] at hat
  have hdays : (clock offset t + epochOffset) / (msPerDay : ℤ) = dayAt offset t + EPOCH_DAYS := by
    rw [dayAt, DAY, EPOCH_DAYS, show ((msPerDay : ℕ) : ℤ) = 86400000 from rfl, epochOffset]
    omega
  have hfirst : 365000 ≤ d.number := by
    have hthousand := d.isYear.1
    rw [LocalDay.number, dayNumber, daysBeforeYear]
    omega
  by_cases ht : InFourDigitYears t
  · rw [localDate, localTime_isoText offset ht, Option.map_some, Option.some_inj, localParts, hdays]
    dsimp only
    rcases lt_or_ge (dayAt offset t + EPOCH_DAYS) 0 with hneg | hpos
    · have hnear : -1 ≤ dayAt offset t + EPOCH_DAYS := by
        have hlo := ht.1
        rw [← hdays, clock, show ((msPerDay : ℕ) : ℤ) = 86400000 from rfl]
        omega
      obtain ⟨-, -, -, -, hm, hday, -⟩ := calendarDay_intCast (dayAt offset t + EPOCH_DAYS)
      have hshown := shownYear_lt hneg hnear
      have hthousand := d.isYear.1
      rw [text_eq_iff (by omega) (by omega)]
      exact iff_of_false (fun h => by omega) (by omega)
    · obtain ⟨n, hn⟩ := Int.eq_ofNat_of_zero_le hpos
      obtain ⟨year, hyearEq, -, hm1, hm12, hd1, hd, hnumber⟩ := calendarDay_natCast n
      have hd31 := hd.trans (daysInMonth_le _ _)
      rw [hn, text_eq_iff (by omega) (by omega), hyearEq, Int.natCast_inj]
      rw [← dayNumber] at hnumber
      constructor
      · rintro ⟨hy, hm, hday⟩
        have hsame : year = d.year := by
          have hthousand := d.isYear.1
          rw [shownYear] at hy
          by_cases hzero : 0 < (year : ℤ)
          · rw [if_pos hzero] at hy
            omega
          · rw [if_neg hzero] at hy
            omega
        rw [← hnumber, LocalDay.number, hsame, hm, hday]
      · intro hsame
        obtain ⟨hy, hm, hday⟩ := dayNumber_inj hm1 hm12 hd1 hd d.isMonth.1 d.isMonth.2 d.isDay.1 d.isDay.2
          (hnumber.trans hsame)
        have hthousand := d.isYear.1
        refine ⟨?_, hm, hday⟩
        rw [shownYear, if_pos (by omega)]
        omega
  · rw [localDate, localTime_isoText_none offset ht, Option.map_none]
    refine iff_of_false (Option.some_ne_none d.text).symm fun h => ht ?_
    have hlast := number_le hyear
    rw [← hdays, clock, show ((msPerDay : ℕ) : ℤ) = 86400000 from rfl] at h
    rw [InFourDigitYears, endOfYears]
    constructor <;> omega

-- ── The days partition time ──────────────────────────────────────────────────────

/-- The range of a day is of the instants whose date it is, and the next day's starts right after it. -/
def Partitions (d : LocalDay) : Prop :=
  ∃ first last : ℤ, |first| ≤ maxTime ∧ |last| ≤ maxTime ∧
    localDayRange offset d.text = some ⟨isoText first, isoText last⟩ ∧
    (∀ t : ℤ, first ≤ t ∧ t ≤ last ↔ localDate offset (isoText t) = some d.text) ∧
    ∀ next : LocalDay, next.number = d.number + 1 →
      (localDayRange offset next.text).map DayRange.fromIso = some (isoText (last + 1))

/-- A midnight that two reads find is the day's. -/
theorem midnightRead_eq (h : Regular offset) (hwhole : ∀ t, 1000 ∣ offset t) (hfew : FewChanges offset) (n : ℕ) :
    clock offset (midnightRead offset n) = (n - EPOCH_DAYS) * DAY ∧
      ∀ t, midnightRead offset n ≤ t ↔ n - EPOCH_DAYS ≤ dayAt offset t := by
  obtain ⟨L, hL, hstart⟩ := h.midnight (n - EPOCH_DAYS)
  have hread := h.twoReads hfew hL
  have hutc : utcMidnight n = (n - EPOCH_DAYS) * DAY := by
    rw [utcMidnight, EPOCH_DAYS, DAY, epochOffset]
    omega
  have hfound : midnightRead offset n = L := by
    rw [midnightRead, offsetRead_eq offset (hwhole _), offsetRead_eq offset (hwhole _), hutc, hread]
  rw [hfound]
  exact ⟨hL, hstart⟩

/-- **The days partition time**, in a zone whose offset is in whole seconds and changes by less than
    two hours in any 14. -/
theorem localDayRange_partitions (h : Regular offset) (hwhole : ∀ t, 1000 ∣ offset t) (hfew : FewChanges offset)
    (d : LocalDay) (hyear : d.year ≤ 9998) : Partitions offset d := by
  have hlast := number_le hyear
  have hstart := (midnightRead_eq offset h hwhole hfew d.number).2
  have hend := (midnightRead_eq offset h hwhole hfew (d.number + 1)).2
  have hnear := abs_midnightRead_le offset h.within (show d.number + 1 ≤ 3652100 by omega)
  refine ⟨midnightRead offset d.number, midnightRead offset (d.number + 1) - 1,
    (abs_midnightRead_le offset h.within (show d.number ≤ 3652100 by omega)).trans (by omega), ?_, localDayRange_eq offset h.within (by omega), fun t => ?_,
    fun next hnext => ?_⟩
  · rw [abs_le] at *
    constructor <;> omega
  · have hbefore := hstart t
    have hafter := hend t
    rw [localDate_iff offset h.within hyear]
    push_cast at hafter
    constructor
    · intro hin
      omega
    · intro hday
      omega
  · rw [localDayRange_eq offset h.within (by omega), hnext, sub_add_cancel]
    rfl

/-- An hour ahead of UTC, and in the summer of 2026 two. -/
def rome : Offset := fun t => if 1774746000000 ≤ t ∧ t < 1792890000000 then 2 * HOUR else HOUR

/-- The day the clocks go forward. -/
def summerDay : LocalDay := ⟨2026, 3, 29, isYear_2026, by decide, by decide⟩

/-- The day of 23 hours on which the summer starts. -/
theorem localDayRange_partitions_rome : Partitions rome summerDay := by
  have hone : ∀ t, rome t = 2 * HOUR ∨ rome t = HOUR := by
    intro t
    rw [rome]
    split_ifs
    · exact .inl rfl
    · exact .inr rfl
  refine localDayRange_partitions rome ⟨fun t => ?_, fun c hc => ?_⟩ (fun t => ?_) (fun s t _ => ?_) summerDay (by decide)
  · rcases hone t with h | h <;> rw [h, HOUR] <;> norm_num
  · -- the clocks change twice, from 02:00 to 03:00 and back
    have hwhen : c = 1774746000000 ∨ c = 1792890000000 := by
      by_contra hnot
      obtain ⟨hspring, hautumn⟩ := not_or.mp hnot
      refine hc ?_
      rw [rome, rome]
      exact if_congr (by omega) rfl rfl
    rcases hwhen with rfl | rfl
    · have hbefore : rome (1774746000000 - 1) = HOUR := if_neg (by omega)
      have hafter : rome 1774746000000 = 2 * HOUR := if_pos (by omega)
      rw [hafter, hbefore]
      refine ⟨by rw [HOUR]; norm_num, 20541, ?_, ?_⟩
      · rw [hbefore, HOUR, DAY]
        norm_num
      · rw [clock, hafter, HOUR, DAY]
        norm_num
    · have hbefore : rome (1792890000000 - 1) = 2 * HOUR := if_pos (by omega)
      have hafter : rome 1792890000000 = HOUR := if_neg (by omega)
      rw [hafter, hbefore]
      refine ⟨by rw [HOUR]; norm_num, 20751, ?_, ?_⟩
      · rw [hbefore, HOUR, DAY]
        norm_num
      · rw [clock, hafter, HOUR, DAY]
        norm_num
  · rcases hone t with h | h <;> rw [h, HOUR] <;> norm_num
  · rcases hone s with hs | hs <;> rcases hone t with ht | ht <;> rw [hs, ht, HOUR] <;> norm_num

variable {offset} in
/-- An instant of the day before what the reads end at is of no range. -/
theorem not_partitions (hwithin : ∀ t, |offset t| ≤ 14 * HOUR) {d : LocalDay} (hyear : d.year ≤ 9998) {t : ℤ}
    (hday : dayAt offset t + EPOCH_DAYS = d.number) (hbefore : t < midnightRead offset d.number) :
    ¬ Partitions offset d := by
  have hlast := number_le hyear
  rintro ⟨first, last, hfirst, -, hrange, hdate, -⟩
  rw [localDayRange_eq offset hwithin (by omega), Option.some_inj, DayRange.mk.injEq] at hrange
  have hnear := abs_midnightRead_le offset hwithin (show d.number ≤ 3652100 by omega)
  have hsame := isoText_inj (hnear.trans (by omega)) hfirst hrange.1
  have hin := (hdate t).mpr ((localDate_iff offset hwithin hyear t).mpr hday)
  omega

/-- Thirteen hours ahead, and three hours less in the hours from the third to the fifth of a day. -/
def backThrice : Offset := fun t =>
  if t < 1767276000000 then 13 * HOUR else if t < 1767279600000 then 12 * HOUR
  else if t < 1767283200000 then 11 * HOUR else 10 * HOUR

/-- A clock half a second ahead. -/
def halfSecond : Offset := fun _ => 500

/-- A day in winter. -/
def winterDay : LocalDay := ⟨2026, 1, 2, isYear_2026, isMonth_one, by decide⟩

/-- Its clock is regular. -/
theorem regular_backThrice : Regular backThrice := by
  refine ⟨fun t => ?_, fun c hc => ?_⟩
  · rw [backThrice, HOUR]
    split_ifs <;> norm_num
  · have hwhen : c = 1767276000000 ∨ c = 1767279600000 ∨ c = 1767283200000 := by
      by_contra hnot
      refine hc ?_
      rw [backThrice, backThrice]
      split_ifs <;> omega
    rcases hwhen with rfl | rfl | rfl <;> norm_num [backThrice, AwayFromMidnight, clock, HOUR, DAY] <;>
      exact ⟨20455, by norm_num, by norm_num⟩

/-- **Two reads do not settle it where the clocks change again and again**, nor an offset of half a second. -/
theorem localDayRange_misses :
    (Regular backThrice ∧ ¬ Partitions backThrice winterDay) ∧ Regular halfSecond ∧ ¬ Partitions halfSecond winterDay := by
  have hhalf : Regular halfSecond := ⟨fun t => by rw [halfSecond, HOUR]; norm_num, fun c hc => absurd rfl hc⟩
  have hnumber : winterDay.number = 739983 := by decide
  refine ⟨⟨regular_backThrice, ?_⟩, hhalf, ?_⟩
  · refine not_partitions regular_backThrice.within (by decide) (t := 1767265200000) ?_ ?_
    · rw [hnumber]
      norm_num [dayAt, clock, backThrice, HOUR, DAY, EPOCH_DAYS]
    · rw [hnumber]
      norm_num [midnightRead, utcMidnight, offsetRead, clock, backThrice, HOUR, DAY, epochOffset]
  · refine not_partitions hhalf.within (by decide) (t := 1767311999500) ?_ ?_
    · rw [hnumber]
      norm_num [dayAt, clock, halfSecond, DAY, EPOCH_DAYS]
    · rw [hnumber]
      norm_num [midnightRead, utcMidnight, offsetRead, clock, halfSecond, DAY, epochOffset]

end TimeZone

end Sigillo
