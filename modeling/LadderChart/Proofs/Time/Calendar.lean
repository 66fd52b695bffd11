import LadderChart.Time.Calendar
import Mathlib.Order.Monotone.Basic
import Mathlib.Tactic.IntervalCases
import Mathlib.Tactic.Linarith

/-!
The calendar against the rules of its months and years. A day lies in a year from March on, in a
month of that year, and has a place in the month. Where it lies moves on from one day to the next,
and so does its date.
-/

namespace LadderChart.Calendar

/-! ### Rules -/

def IsLeap (year : Int) : Prop := year % 4 = 0 ∧ (year % 100 = 0 → year % 400 = 0)

instance (year : Int) : Decidable (IsLeap year) :=
  inferInstanceAs (Decidable (year % 4 = 0 ∧ (year % 100 = 0 → year % 400 = 0)))

def monthLength (year : Int) : Nat → Nat
  | 2 => if IsLeap year then 29 else 28
  | 4 | 6 | 9 | 11 => 30
  | _ => 31

theorem monthLength_le (year : Int) (month : Nat) : monthLength year month ≤ 31 := by
  unfold monthLength
  split
  · split <;> decide
  all_goals decide

namespace Date

structure Valid (d : Date) : Prop where
  month : 1 ≤ d.month ∧ d.month ≤ 12
  day : 1 ≤ d.day ∧ d.day ≤ monthLength d.year d.month

def next (d : Date) : Date :=
  if d.day < monthLength d.year d.month then ⟨d.year, d.month, d.day + 1⟩
  else if d.month < 12 then ⟨d.year, d.month + 1, 1⟩
  else ⟨d.year + 1, 1, 1⟩

/-- A month that ends is followed by the next one of its year, or by January. -/
theorem next_last {d : Date} (last : d.day = monthLength d.year d.month) (small : d.month ≤ 12) :
    d.next = ⟨d.year + d.month / 12, d.month % 12 + 1, 1⟩ := by
  rw [next, if_neg (by omega)]
  split
  · rw [Nat.mod_eq_of_lt ‹_›, Int.ediv_eq_zero_of_lt (by omega) (by omega), add_zero]
  · have december : d.month = 12 := by omega
    rw [december]
    rfl

theorem next_injective {d e : Date} (valid : d.Valid) (valid' : e.Valid) (same : d.next = e.next) :
    d = e := by
  obtain ⟨⟨_, small⟩, first, inside⟩ := valid
  obtain ⟨⟨_, small'⟩, first', inside'⟩ := valid'
  rcases inside.lt_or_eq with more | last <;> rcases inside'.lt_or_eq with more' | last'
  · rw [next, if_pos more, next, if_pos more'] at same
    obtain ⟨year, month, day⟩ := d
    cases e
    simp only [mk.injEq] at same ⊢
    exact ⟨same.1, same.2.1, Nat.succ.inj same.2.2⟩
  -- only the first of a month comes after the last of one
  · rw [next_last last' small', next, if_pos more, mk.injEq] at same
    omega
  · rw [next_last last small, next, if_pos more', mk.injEq] at same
    omega
  · rw [next_last last small, next_last last' small', mk.injEq] at same
    obtain ⟨year, month, day⟩ := d
    obtain ⟨year', month', day'⟩ := e
    simp only at *
    obtain rfl : month = month' := by omega
    obtain rfl : year = year' := by omega
    rw [last, last']

end Date

/-- The date of a day by the rules alone, counted on or back from the first of January 1970. -/
inductive Dated : Int → Date → Prop
  | epoch : Dated 0 ⟨1970, 1, 1⟩
  | next {days : Int} {d : Date} : Dated days d → Dated (days + 1) d.next
  | back {days : Int} {d : Date} : d.Valid → Dated (days + 1) d.next → Dated days d

/-! ### Years from March on -/

/-- The leap day before the next March is the last day of such a year. -/
def marchLength (year : Int) : Nat := if IsLeap (year + 1) then 366 else 365

/-- Days from the first of March of the year zero to that of another. -/
def daysBefore (year : Int) : Int := 365 * year + year / 4 - year / 100 + year / 400

theorem daysBefore_succ (year : Int) :
    daysBefore (year + 1) = daysBefore year + marchLength year := by
  unfold daysBefore marchLength
  by_cases leap : IsLeap (year + 1)
  · rw [if_pos leap]
    unfold IsLeap at leap
    omega
  · rw [if_neg leap]
    unfold IsLeap at leap
    omega

theorem marchLength_bounds (year : Int) : 365 ≤ marchLength year ∧ marchLength year ≤ 366 := by
  unfold marchLength
  split <;> decide

theorem daysBefore_cycle (cycle : Int) {year : Nat} (below : year < 400) :
    daysBefore (cycle * 400 + year) = cycle * daysPerCycle + daysBeforeYear year := by
  unfold daysBefore daysBeforeYear daysPerCycle
  omega

theorem yearOfCycle_mono : Monotone yearOfCycle := by
  refine monotone_nat_of_le_succ fun day => Nat.div_le_div_right ?_
  omega

/-- The first and the last day of each year of a cycle fall into it, and so do those between. -/
theorem yearOfCycle_eq {year day : Nat} (below : year < 400) (inYear : day < marchLength year) :
    yearOfCycle (daysBeforeYear year + day) = year := by
  have ends : (List.range 400).all (fun year =>
      yearOfCycle (daysBeforeYear year) == year &&
      yearOfCycle (daysBeforeYear year + (marchLength year - 1)) == year) = true := by
    decide +kernel
  have both := List.all_eq_true.mp ends year (List.mem_range.mpr below)
  simp only [Bool.and_eq_true, beq_iff_eq] at both
  apply le_antisymm
  · conv_rhs => rw [← both.2]
    exact yearOfCycle_mono (by omega)
  · conv_lhs => rw [← both.1]
    exact yearOfCycle_mono (by omega)

theorem marchLength_cycle (cycle year : Int) :
    marchLength (cycle * 400 + year) = marchLength year := by
  unfold marchLength IsLeap
  congr 1
  simp only [eq_iff_iff]
  omega

/-! ### Where a day lies -/

/-- A day lies in a year and a month from March on, and has a place in that month. -/
structure Lies (days year : Int) (month day : Nat) : Prop where
  small : month < 12
  inMonth : daysBeforeMonth month + day < daysBeforeMonth (month + 1)
  inYear : daysBeforeMonth month + day < marchLength year
  total : days + epochOffset = daysBefore year + (daysBeforeMonth month + day : Nat)

/-- January and February belong to the next year of the calendar. -/
def marchDate (year : Int) (month day : Nat) : Date :=
  ⟨if 10 ≤ month then year + 1 else year, monthFromMarch month, day + 1⟩

theorem exists_year (shifted : Int) : ∃ (year : Int) (day : Nat),
    day < marchLength year ∧ shifted = daysBefore year + day := by
  induction shifted using Int.induction_on with
  | zero => exact ⟨0, 0, by decide, rfl⟩
  | succ n ih =>
      obtain ⟨year, day, inYear, total⟩ := ih
      by_cases last : day + 1 = marchLength year
      · have first := (marchLength_bounds (year + 1)).1
        refine ⟨year + 1, 0, by omega, ?_⟩
        rw [daysBefore_succ, total]
        omega
      · exact ⟨year, day + 1, by omega, by omega⟩
  | pred n ih =>
      obtain ⟨year, day, inYear, total⟩ := ih
      cases day with
      | zero =>
          have before := daysBefore_succ (year - 1)
          have long := (marchLength_bounds (year - 1)).1
          rw [sub_add_cancel] at before
          exact ⟨year - 1, marchLength (year - 1) - 1, by omega, by omega⟩
      | succ day => exact ⟨year, day, by omega, by omega⟩

theorem exists_lies (days : Int) : ∃ year month day, Lies days year month day := by
  obtain ⟨year, day, inYear, total⟩ := exists_year (days + epochOffset)
  have long := (marchLength_bounds year).2
  have start : daysBeforeMonth ((5 * day + 2) / 153) ≤ day := by
    unfold daysBeforeMonth
    omega
  refine ⟨year, (5 * day + 2) / 153, day - daysBeforeMonth ((5 * day + 2) / 153),
    by omega, ?_, ?_, ?_⟩ <;> rw [Nat.add_sub_cancel' start]
  · unfold daysBeforeMonth
    omega
  · exact inYear
  · exact total

theorem monthLength_march (year : Int) {month : Nat} (small : month < 12) :
    daysBeforeMonth month + monthLength (if 10 ≤ month then year + 1 else year)
      (monthFromMarch month) = min (daysBeforeMonth (month + 1)) (marchLength year) := by
  obtain ⟨least, most⟩ := marchLength_bounds year
  by_cases february : month = 11
  · subst february
    rw [min_eq_right (most.trans (by decide))]
    change daysBeforeMonth 11 + (if IsLeap (year + 1) then 29 else 28) = marchLength year
    unfold marchLength
    split <;> rfl
  · have earlier : month < 11 := by omega
    interval_cases month
    all_goals
      rw [min_eq_left (le_trans (by decide) least)]
      rfl

theorem marchDate_succ (year : Int) {month : Nat} (day : Nat) (small : month < 11) :
    marchDate year (month + 1) 0 = ⟨(marchDate year month day).year +
      (marchDate year month day).month / 12, (marchDate year month day).month % 12 + 1, 1⟩ := by
  interval_cases month <;> simp [marchDate, monthFromMarch]

namespace Lies
variable {days year : Int} {month day : Nat} (lies : Lies days year month day)
include lies

theorem ofDays_eq : Date.ofDays days = marchDate year month day := by
  obtain ⟨small, inMonth, inYear, total⟩ := lies
  generalize place : daysBeforeMonth month + day = dayOfYear at *
  have cycles : year / 400 * 400 + ((year % 400).toNat : Nat) = year := by omega
  have below : (year % 400).toNat < 400 := by omega
  generalize year / 400 = cycle, (year % 400).toNat = yearIn at *
  subst cycles
  rw [marchLength_cycle] at inYear
  rw [daysBefore_cycle _ below] at total
  have found := yearOfCycle_eq below inYear
  have short : daysBeforeYear yearIn + dayOfYear < daysPerCycle := by
    have long := (marchLength_bounds yearIn).2
    unfold daysBeforeYear daysPerCycle
    omega
  have quotient : (days + epochOffset) / daysPerCycle = cycle := by
    unfold daysPerCycle at *
    omega
  have rest : ((days + epochOffset) % daysPerCycle).toNat =
      daysBeforeYear yearIn + dayOfYear := by
    unfold daysPerCycle at *
    omega
  have monthOf : (5 * dayOfYear + 2) / 153 = month := by
    unfold daysBeforeMonth at *
    omega
  have place' : dayOfYear - daysBeforeMonth month = day := by omega
  simp only [Date.ofDays, rest, quotient, found, Nat.add_sub_cancel_left, monthOf, marchDate,
    place']
  split <;> simp only [add_zero]

theorem toDays_eq : (marchDate year month day).toDays = days := by
  obtain ⟨small, inMonth, inYear, total⟩ := lies
  have based : marchBased (monthFromMarch month) = month := by
    unfold marchBased monthFromMarch
    split <;> split <;> omega
  have cycles : year / 400 * 400 + ((year % 400).toNat : Nat) = year := by omega
  have before := daysBefore_cycle (year / 400) (show (year % 400).toNat < 400 by omega)
  rw [cycles] at before
  have started : (if (marchDate year month day).month ≤ 2 then (marchDate year month day).year - 1
      else (marchDate year month day).year) = year := by
    simp only [marchDate, monthFromMarch]
    split <;> split <;> omega
  rw [Date.toDays, started]
  simp only [marchDate, based]
  omega

theorem valid : (marchDate year month day).Valid := by
  have length := monthLength_march year lies.small
  obtain ⟨small, inMonth, inYear, _⟩ := lies
  refine ⟨?_, Nat.succ_pos day, ?_⟩
  · simp only [marchDate, monthFromMarch]
    split <;> omega
  · simp only [marchDate]
    omega

/-- The day after lies one place on, or first in the next month or the next year. -/
theorem next : ∃ year' month' day', Lies (days + 1) year' month' day' ∧
    marchDate year' month' day' = (marchDate year month day).next := by
  have length := monthLength_march year lies.small
  obtain ⟨least, most⟩ := marchLength_bounds year
  obtain ⟨small, inMonth, inYear, total⟩ := lies
  by_cases more : (marchDate year month day).day <
      monthLength (marchDate year month day).year (marchDate year month day).month
  · rw [Date.next, if_pos more]
    simp only [marchDate] at more
    exact ⟨year, month, day + 1, ⟨small, by omega, by omega, by omega⟩, rfl⟩
  · have last : (marchDate year month day).day =
        monthLength (marchDate year month day).year (marchDate year month day).month := by
      simp only [marchDate] at more ⊢
      omega
    rw [Date.next_last last (by simp only [marchDate, monthFromMarch]; split <;> omega)]
    simp only [marchDate] at last
    -- the year from March ends with February, which has its leap day or not
    by_cases february : month = 11
    · subst february
      rw [min_eq_right (most.trans (by decide))] at length
      refine ⟨year + 1, 0, 0, ⟨by decide, by decide, ?_, ?_⟩, ?_⟩
      · exact lt_of_lt_of_le (by decide) (marchLength_bounds (year + 1)).1
      · have start : daysBeforeMonth 0 = 0 := rfl
        rw [daysBefore_succ, start]
        omega
      · simp [marchDate, monthFromMarch]
    · have room : daysBeforeMonth (month + 1) < 365 ∧
          daysBeforeMonth (month + 1) < daysBeforeMonth (month + 1 + 1) := by
        unfold daysBeforeMonth
        omega
      rw [min_eq_left (room.1.le.trans least)] at length
      refine ⟨year, month + 1, 0, ⟨by omega, room.2, by omega, by omega⟩, ?_⟩
      exact marchDate_succ year day (by omega)

end Lies

/-! ### Dates -/

theorem ofDays_valid (days : Int) : (Date.ofDays days).Valid := by
  obtain ⟨_, _, _, lies⟩ := exists_lies days
  rw [lies.ofDays_eq]
  exact lies.valid

theorem ofDays_succ (days : Int) : Date.ofDays (days + 1) = (Date.ofDays days).next := by
  obtain ⟨_, _, _, lies⟩ := exists_lies days
  obtain ⟨_, _, _, lies', same⟩ := lies.next
  rw [lies.ofDays_eq, lies'.ofDays_eq, same]

theorem toDays_ofDays (days : Int) : (Date.ofDays days).toDays = days := by
  obtain ⟨_, _, _, lies⟩ := exists_lies days
  rw [lies.ofDays_eq, lies.toDays_eq]

theorem dated_ofDays (days : Int) : Dated days (Date.ofDays days) := by
  induction days using Int.induction_on with
  | zero => exact .epoch
  | succ n ih => exact ofDays_succ n ▸ ih.next
  | pred n ih =>
      refine .back (ofDays_valid _) ?_
      rw [← ofDays_succ, sub_add_cancel]
      exact ih

/-- Each day has one date. -/
theorem dated_iff {days : Int} {d : Date} : Dated days d ↔ d = Date.ofDays days := by
  constructor
  · intro dated
    induction dated with
    | epoch => rfl
    | next _ ih => rw [ofDays_succ, ih]
    | back valid _ ih =>
        rw [ofDays_succ] at ih
        exact Date.next_injective valid (ofDays_valid _) ih
  · rintro rfl
    exact dated_ofDays days

end LadderChart.Calendar
