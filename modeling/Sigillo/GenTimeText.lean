import Sigillo.DateOrder
import Sigillo.StoredReceipts

/-!
# The text of an attested time

What `genTimeOfToken` makes of the contents of a `GeneralizedTime`: fourteen digits, a fraction if there is one,
and `Z`; the date is real when it is printed with the digits it was read from.

* **`isoOfGenTime`** — the end of the function, from the text on;
* **`isoOfGenTime_eq_some`** — exactly the texts it answers, and what it answers. -/

namespace Sigillo

open DoubleArith Utf16Text JsonText JsonParse IsoTime EcmaText

-- ── The code ─────────────────────────────────────────────────────────────────────

/-- The digits of `(\.\d+)?Z$`; none at all without a point. -/
def fractionDigits (rest : JsString) : Option JsString :=
  if rest = [0x5A] then some []
  else
    let digits := (rest.drop 1).dropLast
    if rest = 0x2E :: (digits ++ [0x5A]) ∧ digits ≠ [] ∧ digits.all isDigit = true then some digits else none

/-- `Math.floor(Number("0" + fraction) * 1000)`. -/
def fractionMillis (digits : JsString) : ℕ :=
  ⌊roundDouble (roundDouble (digitsValue digits / 10 ^ digits.length) * 1000)⌋.toNat

/-- A number of the text, before `Number`. -/
def part (value : JsString) (start count : ℕ) : JsString := (value.drop start).take count

/-- The date as it was read, in the spelling of `toISOString`. -/
def spelledDate (value : JsString) : JsString :=
  part value 0 4 ++ 0x2D :: part value 4 2 ++ 0x2D :: part value 6 2 ++ 0x54 :: part value 8 2
    ++ 0x3A :: part value 10 2 ++ 0x3A :: part value 12 2

/-- The first fourteen units are digits. -/
def hasDigits (value : JsString) : Bool := (part value 0 14).length == 14 && (part value 0 14).all isDigit

/-- **The time a text gives.** -/
def isoOfGenTime (value : JsString) : Option JsString :=
  if hasDigits value = false then none
  else
    match fractionDigits (value.drop 14) with
    | none => none
    | some digits =>
        let iso := isoText (dateUTC (field value 0 4) (field value 4 2) (field value 6 2) (field value 8 2)
          (field value 10 2) (field value 12 2) (fractionMillis digits))
        if iso.take 19 = spelledDate value then some iso else none

-- ── Digits ───────────────────────────────────────────────────────────────────────

/-- Digits are those of their number. -/
theorem padded_digitsValue {s : JsString} (h : s.all isDigit = true) : padded s.length (digitsValue s) = s := by
  induction s using List.reverseRecOn with
  | nil => rfl
  | append_singleton s u ih =>
      rw [List.all_append, Bool.and_eq_true, List.all_cons, List.all_nil, Bool.and_true] at h
      have hu : 0x30 ≤ u.toNat ∧ u.toNat ≤ 0x39 := of_decide_eq_true h.2
      have hvalue : digitsValue (s ++ [u]) = digitsValue s * 10 + (u.toNat - 0x30) := by
        rw [digitsValue, List.foldl_append]
        rfl
      rw [List.length_append, List.length_singleton, padded, hvalue]
      have hhigh : (digitsValue s * 10 + (u.toNat - 0x30)) / 10 = digitsValue s := by omega
      have hlow : 0x30 + (digitsValue s * 10 + (u.toNat - 0x30)) % 10 = u.toNat := by omega
      rw [hhigh, hlow, ih h.1]
      congr 2
      exact UInt16.ofNat_toNat

theorem digitsValue_lt {s : JsString} (h : s.all isDigit = true) : digitsValue s < 10 ^ s.length := by
  induction s using List.reverseRecOn with
  | nil => exact Nat.one_pos
  | append_singleton s u ih =>
      rw [List.all_append, Bool.and_eq_true, List.all_cons, List.all_nil, Bool.and_true] at h
      have hu : 0x30 ≤ u.toNat ∧ u.toNat ≤ 0x39 := of_decide_eq_true h.2
      have hs := ih h.1
      have hvalue : digitsValue (s ++ [u]) = digitsValue s * 10 + (u.toNat - 0x30) := by
        rw [digitsValue, List.foldl_append]
        rfl
      rw [hvalue, List.length_append, List.length_singleton, pow_succ]
      omega

/-- A part of the fourteen digits. -/
theorem part_spec {value : JsString} (h : hasDigits value = true) {start count : ℕ} (hin : start + count ≤ 14) :
    (part value start count).length = count ∧ (part value start count).all isDigit = true := by
  rw [hasDigits, Bool.and_eq_true, beq_iff_eq] at h
  obtain ⟨hlength, hall⟩ := h
  have hlong : 14 ≤ value.length := by
    rw [part, List.drop_zero, List.length_take] at hlength
    omega
  refine ⟨?_, ?_⟩
  · rw [part, List.length_take, List.length_drop]
    omega
  · rw [List.all_eq_true] at hall ⊢
    intro u hu
    refine hall u ?_
    rw [part, List.drop_zero]
    have hsub : (value.drop start).take count = ((value.take 14).drop start).take count := by
      rw [List.drop_take, List.take_take, Nat.min_eq_left (by omega)]
    rw [part, hsub] at hu
    exact List.mem_of_mem_drop (List.mem_of_mem_take hu)

theorem part_eq_padded {value : JsString} (h : hasDigits value = true) (start count : ℕ) (hin : start + count ≤ 14) :
    part value start count = padded count (field value start count) := by
  obtain ⟨hlength, hall⟩ := part_spec h hin
  have hdigits := padded_digitsValue hall
  rw [hlength] at hdigits
  exact hdigits.symm

theorem field_lt {value : JsString} (h : hasDigits value = true) (start count : ℕ) (hin : start + count ≤ 14) :
    field value start count < 10 ^ count := by
  obtain ⟨hlength, hall⟩ := part_spec h hin
  have hlt := digitsValue_lt hall
  rw [hlength] at hlt
  exact hlt

-- ── The texts it answers ─────────────────────────────────────────────────────────

/-- **A date and a time of day that exist**, with a fraction of a second or none. -/
structure IsRealTime (value : JsString) : Prop where
  digits : hasDigits value = true
  fraction : ∃ digits, fractionDigits (value.drop 14) = some digits
  month : 1 ≤ field value 4 2 ∧ field value 4 2 ≤ 12
  day : 1 ≤ field value 6 2 ∧ field value 6 2 ≤ daysInMonth (field value 0 4) (field value 4 2)
  time : field value 8 2 ≤ 23 ∧ field value 10 2 ≤ 59 ∧ field value 12 2 ≤ 59

/-- The milliseconds of a text. -/
def attestedMillis (value : JsString) : ℕ := fractionMillis ((fractionDigits (value.drop 14)).getD [])

/-- A real time of a year from 100 on, whose fraction is not read as a whole second. -/
structure Readable (value : JsString) : Prop where
  real : IsRealTime value
  year : 100 ≤ field value 0 4
  millis : attestedMillis value < 1000

/-- The time of a text, in the spelling of `toISOString`. -/
def isoSpelling (value : JsString) : JsString :=
  layout (field value 0 4) (field value 4 2) (field value 6 2) (field value 8 2) (field value 10 2)
    (field value 12 2) (attestedMillis value)

theorem take_layout (year month day hour minute second ms : ℕ) :
    (layout year month day hour minute second ms).take 19 = padded 4 year ++ 0x2D :: padded 2 month
      ++ 0x2D :: padded 2 day ++ 0x54 :: padded 2 hour ++ 0x3A :: padded 2 minute ++ 0x3A :: padded 2 second := rfl

theorem spelledDate_eq {value : JsString} (h : hasDigits value = true) : spelledDate value
    = padded 4 (field value 0 4) ++ 0x2D :: padded 2 (field value 4 2) ++ 0x2D :: padded 2 (field value 6 2)
      ++ 0x54 :: padded 2 (field value 8 2) ++ 0x3A :: padded 2 (field value 10 2)
      ++ 0x3A :: padded 2 (field value 12 2) := by
  rw [spelledDate, part_eq_padded h 0 4 (by norm_num), part_eq_padded h 4 2 (by norm_num),
    part_eq_padded h 6 2 (by norm_num), part_eq_padded h 8 2 (by norm_num), part_eq_padded h 10 2 (by norm_num),
    part_eq_padded h 12 2 (by norm_num)]

/-- Two dates spelled alike are one. -/
theorem spelling_inj {y m d h mi s y' m' d' h' mi' s' : ℕ}
    (hy : y < 10 ^ 4) (hm : m < 10 ^ 2) (hd : d < 10 ^ 2) (hh : h < 10 ^ 2) (hmi : mi < 10 ^ 2) (hs : s < 10 ^ 2)
    (hy' : y' < 10 ^ 4) (hm' : m' < 10 ^ 2) (hd' : d' < 10 ^ 2) (hh' : h' < 10 ^ 2) (hmi' : mi' < 10 ^ 2)
    (hs' : s' < 10 ^ 2)
    (heq : padded 4 y ++ 0x2D :: padded 2 m ++ 0x2D :: padded 2 d ++ 0x54 :: padded 2 h ++ 0x3A :: padded 2 mi
        ++ 0x3A :: padded 2 s
      = padded 4 y' ++ 0x2D :: padded 2 m' ++ 0x2D :: padded 2 d' ++ 0x54 :: padded 2 h' ++ 0x3A :: padded 2 mi'
        ++ 0x3A :: padded 2 s') :
    y = y' ∧ m = m' ∧ d = d' ∧ h = h' ∧ mi = mi' ∧ s = s' := by
  have hsplit : ∀ {a b : JsString} {n j k : ℕ} {u : UInt16}, a.length = b.length → j < 10 ^ n → k < 10 ^ n →
      a ++ u :: padded n j = b ++ u :: padded n k → a = b ∧ j = k := by
    intro a b n j k u hlen hj hk h
    obtain ⟨hab, hrest⟩ := List.append_inj h hlen
    exact ⟨hab, padded_inj hj hk (List.cons.inj hrest).2⟩
  obtain ⟨heq, hs⟩ := hsplit (by simp) hs hs' heq
  obtain ⟨heq, hmi⟩ := hsplit (by simp) hmi hmi' heq
  obtain ⟨heq, hh⟩ := hsplit (by simp) hh hh' heq
  obtain ⟨heq, hd⟩ := hsplit (by simp) hd hd' heq
  obtain ⟨heq, hm⟩ := hsplit (by simp) hm hm' heq
  exact ⟨padded_inj hy hy' heq, hm, hd, hh, hmi, hs⟩

/-- A time outside the years of four digits is printed with a sign. -/
theorem isoText_sign {time : ℤ} (h : ¬ InFourDigitYears time) :
    ∃ (u : UInt16) (rest : JsString), isoText time = u :: rest ∧ isDigit u = false := by
  have hyear := year_of_not_inFourDigitYears h
  rw [isoText, yearText, if_neg hyear]
  by_cases hneg : (calendarDay ((time + epochOffset) / msPerDay)).year < 0
  · rw [if_pos hneg]
    exact ⟨_, _, rfl, by decide⟩
  · rw [if_neg hneg]
    exact ⟨_, _, rfl, by decide⟩

/-- What is printed with the digits a text was read from is a real time. -/
theorem readable_of_spelled {value digits : JsString} (hdigits : hasDigits value = true)
    (hfraction : fractionDigits (value.drop 14) = some digits)
    (h : (isoText (dateUTC (field value 0 4) (field value 4 2) (field value 6 2) (field value 8 2)
      (field value 10 2) (field value 12 2) (fractionMillis digits))).take 19 = spelledDate value) :
    Readable value := by
  have hms : attestedMillis value = fractionMillis digits := by rw [attestedMillis, hfraction]; rfl
  have hdate : ∀ time : ℤ, time = dateUTC (field value 0 4) (field value 4 2) (field value 6 2) (field value 8 2)
      (field value 10 2) (field value 12 2) (fractionMillis digits) →
      (isoText time).take 19 = spelledDate value → Readable value := by
    intro time htime h
    rw [spelledDate_eq hdigits] at h
    have hyears : InFourDigitYears time := by
      by_contra hnot
      obtain ⟨u, rest, htext, hu⟩ := isoText_sign hnot
      have hfirst : isDigit u = true := by
        refine isDigit_of_mem_padded (n := 4) (k := field value 0 4) u ?_
        rw [htext] at h
        rw [(List.cons.inj h).1]
        exact List.mem_cons_self
      rw [hu] at hfirst
      cases hfirst
    obtain ⟨year, month, day, ms, htext, hyear, hm1, hm12, hd1, hd, hlt, hsum⟩ := isoText_eq_layout hyears
    have hd31 := hd.trans (daysInMonth_le year month)
    rw [msPerDay] at hlt
    rw [htext, take_layout] at h
    obtain ⟨hy, hm, hday, hhour, hminute, hsecond⟩ := spelling_inj (by omega) (by omega) (by omega) (by omega)
      (by omega) (by omega) (field_lt hdigits 0 4 (by norm_num)) (field_lt hdigits 4 2 (by norm_num))
      (field_lt hdigits 6 2 (by norm_num)) (field_lt hdigits 8 2 (by norm_num))
      (field_lt hdigits 10 2 (by norm_num)) (field_lt hdigits 12 2 (by norm_num)) h
    rw [← hy, ← hm, ← hday, ← hhour, ← hminute, ← hsecond] at htime
    have hreal : IsRealTime value := by
      refine ⟨hdigits, ⟨digits, hfraction⟩, ?_, ?_, ?_⟩
      · rw [← hm]
        exact ⟨hm1, hm12⟩
      · rw [← hy, ← hm, ← hday]
        exact ⟨hd1, hd⟩
      · rw [← hhour, ← hminute, ← hsecond]
        omega
    by_cases hold : 100 ≤ year
    · refine ⟨hreal, hy ▸ hold, ?_⟩
      rw [htime, dateUTC_real hold ⟨hm1, hm12⟩ hd1, dayNumber, msPerDay] at hsum
      rw [hms]
      omega
    · -- a year below 100 is printed as one of the last century's
      have hlater := daysBeforeYear_lt (show year < 1900 + year by omega)
      have hmonth' : month + 11 = month - 1 + 12 := by omega
      have hcentury : 1900 + year - 1 + (month + 11) / 12 = 1900 + year := by omega
      have hmonth : (month + 11) % 12 + 1 = month := by omega
      have hinside := dayOfYear_lt hm1 hm12 hd1 hd
      rw [htime, dateUTC, if_pos (by omega), hcentury, hmonth, msPerDay] at hsum
      push_cast at hsum
      omega
  exact hdate _ rfl h

/-- **Exactly the texts it answers, and what it answers.** -/
theorem isoOfGenTime_eq_some {value iso : JsString} :
    isoOfGenTime value = some iso ↔ Readable value ∧ iso = isoSpelling value := by
  have hprinted : Readable value → ∀ digits, fractionDigits (value.drop 14) = some digits →
      isoText (dateUTC (field value 0 4) (field value 4 2) (field value 6 2) (field value 8 2)
        (field value 10 2) (field value 12 2) (fractionMillis digits)) = isoSpelling value := by
    intro hreadable digits hfraction
    obtain ⟨⟨hdigits, -, ⟨hm1, hm12⟩, ⟨hd1, hd⟩, hhour, hminute, hsecond⟩, hyear, hmillis⟩ := hreadable
    have hms : attestedMillis value = fractionMillis digits := by rw [attestedMillis, hfraction]; rfl
    rw [hms] at hmillis
    have hsum := dateUTC_real hyear ⟨hm1, hm12⟩ hd1 (field value 8 2) (field value 10 2) (field value 12 2)
      (fractionMillis digits)
    have hy := field_lt hdigits 0 4 (by norm_num)
    have hbefore : dayNumber (field value 0 4) (field value 4 2) (field value 6 2) < 3652425 := by
      have hlater : daysBeforeYear (field value 0 4) + (if isLeapYear (field value 0 4) then 366 else 365)
          ≤ daysBeforeYear 10000 := daysBeforeYear_lt (by omega)
      have hend : daysBeforeYear 10000 = 3652425 := by decide
      have hinside := dayOfYear_lt hm1 hm12 hd1 hd
      rw [dayNumber]
      omega
    have hyears : InFourDigitYears (dateUTC (field value 0 4) (field value 4 2) (field value 6 2) (field value 8 2)
        (field value 10 2) (field value 12 2) (fractionMillis digits)) := by
      rw [InFourDigitYears, hsum, endOfYears, msPerDay]
      omega
    obtain ⟨year, month, day, ms, htext, -, hm1', hm12', hd1', hd', hlt, hsum'⟩ := isoText_eq_layout hyears
    rw [hsum] at hsum'
    have hsum' : dayNumber (field value 0 4) (field value 4 2) (field value 6 2) * msPerDay
        + (((field value 8 2 * 60 + field value 10 2) * 60 + field value 12 2) * 1000 + fractionMillis digits)
        = dayNumber year month day * msPerDay + ms := by exact_mod_cast hsum'
    rw [msPerDay] at hlt hsum'
    have hday : dayNumber (field value 0 4) (field value 4 2) (field value 6 2) = dayNumber year month day := by omega
    obtain ⟨rfl, rfl, rfl⟩ := dayNumber_inj hm1' hm12' hd1' hd' hm1 hm12 hd1 hd hday.symm
    have htime : ms = ((field value 8 2 * 60 + field value 10 2) * 60 + field value 12 2) * 1000
        + fractionMillis digits := by omega
    have h1 : ms / 3600000 = field value 8 2 := by omega
    have h2 : ms / 60000 % 60 = field value 10 2 := by omega
    have h3 : ms / 1000 % 60 = field value 12 2 := by omega
    have h4 : ms % 1000 = fractionMillis digits := by omega
    rw [htext, isoSpelling, hms, h1, h2, h3, h4]
  rw [isoOfGenTime]
  constructor
  · intro h
    by_cases hdigits : hasDigits value = false
    · rw [if_pos hdigits] at h
      cases h
    · rw [if_neg hdigits] at h
      rw [Bool.not_eq_false] at hdigits
      cases hfraction : fractionDigits (value.drop 14) with
      | none =>
          rw [hfraction] at h
          cases h
      | some digits =>
          rw [hfraction] at h
          dsimp only at h
          split_ifs at h with hspelled
          have hreadable := readable_of_spelled hdigits hfraction hspelled
          exact ⟨hreadable, (Option.some.inj h).symm.trans (hprinted hreadable digits hfraction)⟩
  · rintro ⟨hreadable, rfl⟩
    obtain ⟨digits, hfraction⟩ := hreadable.real.fraction
    have hdigits := hreadable.real.digits
    rw [if_neg (by rw [hdigits]; exact Bool.true_eq_false_eq_False), hfraction]
    dsimp only
    have hiso := hprinted hreadable digits hfraction
    rw [hiso, if_pos]
    rw [isoSpelling, take_layout, spelledDate_eq hdigits]

-- ── Milliseconds ─────────────────────────────────────────────────────────────────

/-- A fraction of milliseconds is read exactly: two roundings, and the floor of what they leave. -/
theorem floor_milliseconds : ∀ m : Fin 1000,
    ⌊roundDouble (roundDouble ((m.val : ℚ) / 1000) * 1000)⌋.toNat = m.val := by
  decide +kernel

/-- An instant of a year of four digits, as a token may attest it: with up to three digits of a fraction. -/
structure AttestedInstant where
  year : ℕ
  month : ℕ
  day : ℕ
  hour : ℕ
  minute : ℕ
  second : ℕ
  places : ℕ
  fraction : ℕ
  isYear : 1000 ≤ year ∧ year ≤ 9999
  isMonth : 1 ≤ month ∧ month ≤ 12
  isDay : 1 ≤ day ∧ day ≤ daysInMonth year month
  isTime : hour ≤ 23 ∧ minute ≤ 59 ∧ second ≤ 59
  isFraction : places ≤ 3 ∧ fraction < 10 ^ places

namespace AttestedInstant

/-- The fraction in milliseconds. -/
def milliseconds (t : AttestedInstant) : ℕ := t.fraction * 10 ^ (3 - t.places)

/-- The fraction behind its point. -/
def fractionText (t : AttestedInstant) : JsString := if t.places = 0 then [] else 0x2E :: padded t.places t.fraction

/-- Its `GeneralizedTime`. -/
def text (t : AttestedInstant) : JsString :=
  padded 4 t.year ++ padded 2 t.month ++ padded 2 t.day ++ padded 2 t.hour ++ padded 2 t.minute
    ++ padded 2 t.second ++ (t.fractionText ++ [0x5A])

/-- The same instant in ISO form. -/
def iso (t : AttestedInstant) : JsString :=
  layout t.year t.month t.day t.hour t.minute t.second t.milliseconds

theorem fractionDigits_text (t : AttestedInstant) :
    fractionDigits (t.text.drop 14) = some (padded t.places t.fraction) := by
  have hrest : t.text.drop 14 = t.fractionText ++ [0x5A] := rfl
  rw [hrest, fractionText]
  by_cases hnone : t.places = 0
  · rw [if_pos hnone, hnone]
    rfl
  · have hne : (padded t.places t.fraction) ≠ [] := by
      intro h
      have := congrArg List.length h
      rw [length_padded, List.length_nil] at this
      exact hnone this
    rw [if_neg hnone, fractionDigits, if_neg]
    · have hmiddle : ((0x2E :: padded t.places t.fraction ++ [0x5A] : JsString).drop 1).dropLast
          = padded t.places t.fraction := List.dropLast_concat
      dsimp only
      rw [hmiddle, if_pos]
      exact ⟨rfl, hne, List.all_eq_true.mpr isDigit_of_mem_padded⟩
    · intro h
      cases (List.cons.inj h).1

theorem milliseconds_lt (t : AttestedInstant) : t.milliseconds < 1000 := by
  obtain ⟨hplaces, hfraction⟩ := t.isFraction
  calc t.fraction * 10 ^ (3 - t.places) < 10 ^ t.places * 10 ^ (3 - t.places) :=
        Nat.mul_lt_mul_of_pos_right hfraction (pow_pos (by norm_num) _)
    _ = 10 ^ 3 := by rw [← pow_add, Nat.add_sub_cancel' hplaces]

theorem attestedMillis_text (t : AttestedInstant) : attestedMillis t.text = t.milliseconds := by
  obtain ⟨hplaces, hfraction⟩ := t.isFraction
  have hvalue : ((t.fraction : ℚ) / 10 ^ t.places) = (t.milliseconds : ℚ) / 1000 := by
    have hsplit : (1000 : ℚ) = 10 ^ t.places * 10 ^ (3 - t.places) := by
      rw [← pow_add, Nat.add_sub_cancel' hplaces]
      norm_num
    rw [hsplit, milliseconds]
    push_cast
    rw [mul_div_mul_right _ _ (by positivity)]
  rw [attestedMillis, t.fractionDigits_text, Option.getD_some, fractionMillis, digitsValue_padded hfraction, length_padded,
    hvalue]
  exact floor_milliseconds ⟨t.milliseconds, t.milliseconds_lt⟩

/-- **Its text is answered with the instant.** -/
theorem isoOfGenTime_text (t : AttestedInstant) : isoOfGenTime t.text = some t.iso := by
  have hd31 := t.isDay.2.trans (daysInMonth_le _ _)
  have hy := t.isYear
  have hm := t.isMonth
  have htime := t.isTime
  have hyear : field t.text 0 4 = t.year := digitsValue_padded (n := 4) (by omega)
  have hmonth : field t.text 4 2 = t.month := digitsValue_padded (n := 2) (by omega)
  have hday : field t.text 6 2 = t.day := digitsValue_padded (n := 2) (by omega)
  have hhour : field t.text 8 2 = t.hour := digitsValue_padded (n := 2) (by omega)
  have hminute : field t.text 10 2 = t.minute := digitsValue_padded (n := 2) (by omega)
  have hsecond : field t.text 12 2 = t.second := digitsValue_padded (n := 2) (by omega)
  have hdigits : hasDigits t.text = true := by
    have hfront : part t.text 0 14 = padded 4 t.year ++ padded 2 t.month ++ padded 2 t.day ++ padded 2 t.hour
        ++ padded 2 t.minute ++ padded 2 t.second := rfl
    have hall : ∀ n k, (padded n k).all isDigit = true := fun n k => List.all_eq_true.mpr isDigit_of_mem_padded
    rw [hasDigits, hfront]
    simp [hall]
  have hreal : IsRealTime t.text := by
    refine ⟨hdigits, ⟨_, t.fractionDigits_text⟩, ?_, ?_, ?_⟩
    · rw [hmonth]
      exact hm
    · rw [hyear, hmonth, hday]
      exact t.isDay
    · rw [hhour, hminute, hsecond]
      exact htime
  have hmillis : attestedMillis t.text < 1000 := by
    rw [t.attestedMillis_text]
    exact t.milliseconds_lt
  refine isoOfGenTime_eq_some.mpr ⟨⟨hreal, by omega, hmillis⟩, ?_⟩
  rw [isoSpelling, hyear, hmonth, hday, hhour, hminute, hsecond, t.attestedMillis_text]
  rfl

/-- A character of ASCII is one byte. -/
theorem utf8Encode_ascii_cons {u : UInt16} (h : u.toNat < 128) (s : JsString) :
    utf8Encode (u :: s) = u.toNat.toUInt8 :: utf8Encode s := by
  have hhigh : isHigh u = false := decide_eq_false (by omega)
  have hsurrogate : isSurrogate u.toNat = false := decide_eq_false (by omega)
  have hpoints : points (u :: s) = u.toNat :: points s := by
    rw [points, pointsFrom, hhigh]
    rfl
  rw [utf8Encode, hpoints, List.flatMap_cons, hsurrogate, if_neg Bool.false_ne_true, encodePoint, if_pos h]
  rfl

/-- Its bytes are read as its text. -/
theorem textDecode_text (t : AttestedInstant) : textDecode (utf8Encode t.text) = t.text := by
  have hascii : ∀ u ∈ t.text, u.toNat < 128 := by
    have hdigit : ∀ n k, ∀ u ∈ padded n k, u.toNat < 128 := by
      intro n k u hu
      have := of_decide_eq_true (isDigit_of_mem_padded u hu)
      omega
    intro u hu
    rw [text, fractionText] at hu
    simp only [List.mem_append, List.mem_singleton] at hu
    rcases hu with (((((hu | hu) | hu) | hu) | hu) | hu) | hu | rfl
    · exact hdigit _ _ u hu
    · exact hdigit _ _ u hu
    · exact hdigit _ _ u hu
    · exact hdigit _ _ u hu
    · exact hdigit _ _ u hu
    · exact hdigit _ _ u hu
    · split_ifs at hu
      · cases hu
      · rcases List.mem_cons.mp hu with rfl | hu
        · decide
        · exact hdigit _ _ u hu
    · decide
  have hnot : ¬ [0xEF, 0xBB, 0xBF] <+: utf8Encode t.text := by
    rintro ⟨rest, hrest⟩
    obtain ⟨u, units, htext⟩ : ∃ u units, t.text = u :: units := ⟨_, _, rfl⟩
    have hu := hascii u (htext ▸ List.mem_cons_self)
    rw [htext, utf8Encode_ascii_cons hu] at hrest
    have hlead : (0xEF : UInt8).toNat = u.toNat.toUInt8.toNat := congrArg UInt8.toNat (List.cons.inj hrest).1
    rw [Nat.toUInt8, UInt8.toNat_ofNat_of_lt' (by rw [UInt8.size]; omega)] at hlead
    have : (0xEF : UInt8).toNat = 239 := rfl
    omega
  rw [textDecode, if_neg hnot]
  exact utf8Decode_utf8Encode (Scalars.of_ascii hascii).isWellFormed

end AttestedInstant

end Sigillo
