import LadderChart.Number.Scalar
import LadderChart.Time.Calendar
import LadderChart.Time.Zone

/-!
Time labels, as `format_timestamp` and `format_time_label` make them by the pattern
`%Y-%m-%d %-I:%M:%S`: year, month and day, then the time on a clock of twelve hours without a padded
hour. Years have four digits at least, and a sign before zero and after 9999. The instants that have
a label are those of the calendar library, about half a million years.
-/

namespace LadderChart.Stamp
open Calendar

def earliest : Int := -8334601228800

def latest : Int := 8210266876799

def padded (width n : Nat) : List Char :=
  let digits := Digits.ofNat n
  Digits.text (Digits.zeros (width - digits.length) ++ digits)

def yearText (year : Int) : List Char :=
  if year < 0 then '-' :: padded 4 year.natAbs
  else if 9999 < year then '+' :: padded 4 year.natAbs
  else padded 4 year.natAbs

def clockHour (hour : Nat) : Nat := if hour % 12 = 0 then 12 else hour % 12

def text (m : Moment) : List Char :=
  yearText m.date.year ++ '-' :: padded 2 m.date.month ++ '-' :: padded 2 m.date.day
    ++ ' ' :: padded 1 (clockHour m.hour) ++ ':' :: padded 2 m.minute ++ ':' :: padded 2 m.second

/-- The label of an instant. That the instant is in range is looked at before the zone is. -/
def ofSeconds (seconds : Int) (zone : Zone) : Except Fault String :=
  if earliest ≤ seconds ∧ seconds ≤ latest then do
    zone.check
    return String.ofList (text (Moment.ofSeconds (seconds + zone.offset seconds)))
  else .error (.time (.outOfRange seconds))

/-- The label of a position on a time axis, rounded to the second. What has no label is written
as a whole number instead. -/
def label {α : Type} [Scalar α] (seconds : α) (zone : Zone) : String :=
  if Scalar.isFinite seconds then
    match ofSeconds (Scalar.nearest seconds) zone with
    | .ok text => text
    | .error _ => Scalar.fixed 0 seconds
  else "nan"

end LadderChart.Stamp
