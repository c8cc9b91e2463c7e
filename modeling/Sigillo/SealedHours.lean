import Sigillo.EcmaText
import Sigillo.IsoTime

/-!
# Sealed hours

The weekly windows in which an account's key vault is kept closed: the check of a schedule, and whether
an instant falls inside one of its windows. What a time zone says of an instant is the platform's. -/

namespace Sigillo

open DoubleArith Utf16Text JsonText JsonParse EcmaText IsoTime

/-- A stretch of a week. -/
structure SealedWindow where
  /-- 0 is Sunday: the day the window starts. -/
  days : List ℤ
  /-- "HH:MM", local time. -/
  fromTime : JsString
  /-- "HH:MM". At or before `fromTime`, the window runs past midnight into the next day. -/
  toTime : JsString
deriving DecidableEq

/-- The stretches a vault is closed in. -/
structure VaultSchedule where
  timezone : JsString
  windows : List SealedWindow
deriving DecidableEq

/-- What the platform knows of time zones. -/
structure TimeZones where
  isTimezone : JsString → Bool
  /-- The weekday from Sunday, the hour and the minute of an instant. -/
  formatToParts : ℤ → JsString → ℤ × ℤ × ℤ

/-- The most stretches. -/
def MAX_WINDOWS : ℕ := 20

/-- The minutes of a week. -/
def MINUTES_IN_WEEK : ℤ := 7 * 24 * 60

/-- `/^([01]\d|2[0-3]):([0-5]\d)$/`. -/
def isClockTime (time : JsString) : Bool :=
  match time with
  | [a, b, colon, m, n] =>
      isDigit a && isDigit b && isDigit m && isDigit n && (colon == 0x3A) && decide (field time 0 2 < 24)
        && decide (field time 3 2 < 60)
  | _ => false

/-- The minutes of a clock's text. -/
def minutesOf (time : JsString) : ℤ := field time 0 2 * 60 + field time 3 2

/-- A window as it is kept. -/
def checkWindow (w : SealedWindow) : Except JsString SealedWindow :=
  if w.days = [] ∨ ¬ ∀ d ∈ w.days, 0 ≤ d ∧ d ≤ 6 then .error (js "a window needs at least one day")
  else if ¬ (isClockTime w.fromTime ∧ isClockTime w.toTime) then
    .error (js "times are written HH:MM, 24-hour")
  else if w.fromTime = w.toTime then
    .error (js "a window cannot start and " ++ js "end at the same time")
  else .ok { w with days := w.days.dedup.mergeSort (· ≤ ·) }

/-- **A schedule as it is kept**, or what is wrong with it. -/
def checkSchedule (zones : TimeZones) (input : VaultSchedule) : Except JsString VaultSchedule :=
  if ¬ zones.isTimezone input.timezone then
    .error (js "the time zone is not one we " ++ js "know (for example Europe/Rome)")
  else if MAX_WINDOWS < input.windows.length then
    .error (js "at most " ++ decimal MAX_WINDOWS ++ js " windows")
  else (input.windows.mapM checkWindow).map fun windows => { input with windows }

/-- Minutes since Sunday 00:00. -/
def minuteOfWeek (zones : TimeZones) (time : ℤ) (timezone : JsString) : ℤ :=
  let (weekday, hour, minute) := zones.formatToParts time timezone
  weekday * 1440 + hour * 60 + minute

/-- A week's minute falls inside a window. -/
def SealedWindow.covers (window : SealedWindow) (now : ℤ) : Bool :=
  let length := (minutesOf window.toTime - minutesOf window.fromTime + 1440) % 1440
  window.days.any fun day =>
    decide ((now - (day * 1440 + minutesOf window.fromTime) + MINUTES_IN_WEEK) % MINUTES_IN_WEEK < length)

/-- **Whether an instant falls inside one of the windows.** -/
def isSealedAt (zones : TimeZones) (schedule : VaultSchedule) (time : ℤ) : Bool :=
  if schedule.windows.length = 0 then false
  else
    let now := minuteOfWeek zones time schedule.timezone
    schedule.windows.any fun window => window.covers now

/-- A night that begins at 22:00 on a Friday is still running on Saturday at 05:59, and over at 06:00. -/
example : let window : SealedWindow := ⟨[5], js "22:00", js "06:00"⟩
    window.covers (6 * 1440 + 359) = true ∧ window.covers (6 * 1440 + 360) = false := by decide

end Sigillo
