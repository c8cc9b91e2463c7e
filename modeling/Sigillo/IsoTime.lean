import Sigillo.JsonParse

/-!
# Instants as text

The one spelling of an instant this repository accepts: `YYYY-MM-DDTHH:MM:SS.mmmZ`, a real
calendar instant in UTC. A date and its text determine each other, so a `Timestamp` stands for
both: what `Date.prototype.toISOString` prints for a year of four digits, and what `Date.parse`
reads. -/

namespace IsoTime

open Utf16Text JsonParse

/-- A gap in the calendar text: its digits are at the other places. -/
def separators : List (ℕ × UInt16) :=
  [(4, 0x2D), (7, 0x2D), (10, 0x54), (13, 0x3A), (16, 0x3A), (19, 0x2E), (23, 0x5A)]

/-- The number written at some places of a text. -/
def field (s : JsString) (start count : ℕ) : ℕ := digitsValue ((s.drop start).take count)

/-- A leap year. -/
def isLeapYear (y : ℕ) : Bool := y % 4 == 0 && (y % 100 != 0 || y % 400 == 0)

/-- The days of a month. -/
def daysInMonth (y m : ℕ) : ℕ :=
  if m = 2 then (if isLeapYear y then 29 else 28)
  else if m = 4 ∨ m = 6 ∨ m = 9 ∨ m = 11 then 30 else 31

theorem isMonth_one : 1 ≤ 1 ∧ 1 ≤ 12 := by decide

theorem isDay_one : 1 ≤ 1 ∧ 1 ≤ daysInMonth 2026 1 := by decide

/-- `^\d{4}-\d{2}-\d{2}T\d{2}:\d{2}:\d{2}\.\d{3}Z$`. -/
def hasShape (s : JsString) : Bool :=
  s.length == 24 && (List.range 24).all fun i =>
    match separators.lookup i with
    | some u => s[i]? == some u
    | none => s[i]?.map isDigit == some true

/-- The shape, and a date and a time of day that exist. -/
def IsTimestamp (s : JsString) : Prop :=
  hasShape s = true ∧
    1 ≤ field s 5 2 ∧ field s 5 2 ≤ 12 ∧
    1 ≤ field s 8 2 ∧ field s 8 2 ≤ daysInMonth (field s 0 4) (field s 5 2) ∧
    field s 11 2 ≤ 23 ∧ field s 14 2 ≤ 59 ∧ field s 17 2 ≤ 59

instance : DecidablePred IsTimestamp := fun _ => inferInstanceAs (Decidable (_ ∧ _))

/-- An instant, as the text that spells it. -/
abbrev Timestamp := {s : JsString // IsTimestamp s}

/-- The days of the years before `y`, of which year 0 is a leap year. -/
def daysBeforeYear (y : ℕ) : ℕ := 365 * y + (y + 3) / 4 - (y + 99) / 100 + (y + 399) / 400

/-- The days of a year before a month. -/
def daysBeforeMonth (y m : ℕ) : ℕ := ((List.range (m - 1)).map fun i => daysInMonth y (i + 1)).sum

/-- The milliseconds between the start of year 0 and 1970. -/
def epochOffset : ℤ := 62167219200000

/-- `Date.parse(text)`: the milliseconds since 1970. -/
def dateParse (t : Timestamp) : ℤ :=
  let y := field t.1 0 4
  let m := field t.1 5 2
  let days := daysBeforeYear y + daysBeforeMonth y m + (field t.1 8 2 - 1)
  let seconds := ((days * 24 + field t.1 11 2) * 60 + field t.1 14 2) * 60 + field t.1 17 2
  ((seconds * 1000 + field t.1 20 3 : ℕ) : ℤ) - epochOffset

example : IsTimestamp (js "2026-03-29T14:30:00.123Z") := by decide +kernel

example : dateParse ⟨js "2026-03-29T14:30:00.123Z", by decide +kernel⟩ = 1774794600123 := by
  decide +kernel

/-- A date to try things with. -/
def newYear : Timestamp := ⟨js "2026-01-01T00:00:00.000Z", by decide +kernel⟩

end IsoTime
