/-!
The Gregorian calendar, extended over all years, and the time of day, without leap seconds. Days and
seconds are counted from the first of January 1970; a year starts in March here so that the leap day
is its last. The calendar library is taken to keep this calendar; that these functions do is proved.
-/

namespace LadderChart.Calendar

structure Date where
  year : Int
  month : Nat
  day : Nat
  deriving DecidableEq, Repr

structure Moment where
  date : Date
  hour : Nat
  minute : Nat
  second : Nat
  deriving DecidableEq, Repr

def secondsPerDay : Nat := 86400

/-- Days in 400 years, after which the calendar repeats. -/
def daysPerCycle : Nat := 146097

/-- Days from the first of March of the year zero to the first of January 1970. -/
def epochOffset : Int := 719468

def yearOfCycle (dayOfCycle : Nat) : Nat :=
  (dayOfCycle - dayOfCycle / 1460 + dayOfCycle / 36524 - dayOfCycle / 146096) / 365

def daysBeforeYear (year : Nat) : Nat := 365 * year + year / 4 - year / 100

/-- Days of a year before one of its months, counted from March. -/
def daysBeforeMonth (month : Nat) : Nat := (153 * month + 2) / 5

/-- January and February belong to the next year of the calendar. -/
def monthFromMarch (month : Nat) : Nat := if month < 10 then month + 3 else month - 9

def marchBased (month : Nat) : Nat := if 3 ≤ month then month - 3 else month + 9

def Date.ofDays (days : Int) : Date :=
  let shifted := days + epochOffset
  let cycle := shifted / daysPerCycle
  let dayOfCycle := (shifted % daysPerCycle).toNat
  let year := yearOfCycle dayOfCycle
  let dayOfYear := dayOfCycle - daysBeforeYear year
  let month := (5 * dayOfYear + 2) / 153
  -- months from January on belong to the next year
  let late : Int := if 10 ≤ month then 1 else 0
  { year := cycle * 400 + year + late
    month := monthFromMarch month
    day := dayOfYear - daysBeforeMonth month + 1 }

def Date.toDays (d : Date) : Int :=
  let year := if d.month ≤ 2 then d.year - 1 else d.year
  let dayOfYear := daysBeforeMonth (marchBased d.month) + d.day - 1
  year / 400 * daysPerCycle + (daysBeforeYear (year % 400).toNat + dayOfYear : Nat) - epochOffset

def Moment.ofSeconds (seconds : Int) : Moment :=
  let rest := (seconds % secondsPerDay).toNat
  { date := Date.ofDays (seconds / secondsPerDay)
    hour := rest / 3600
    minute := rest / 60 % 60
    second := rest % 60 }

def Moment.toSeconds (m : Moment) : Int :=
  m.date.toDays * secondsPerDay + (m.hour * 3600 + m.minute * 60 + m.second : Nat)

/-- Days since Sunday; the first of January 1970 was a Thursday. -/
def weekday (days : Int) : Int := (days + 4) % 7

def firstSunday (year : Int) (month : Nat) : Int :=
  let first := Date.toDays ⟨year, month, 1⟩
  first + (7 - weekday first) % 7

def lastSunday (year : Int) (month : Nat) : Int :=
  let last := Date.toDays ⟨year, month, 31⟩
  last - weekday last

end LadderChart.Calendar
