import LadderChart.Proofs.Number.Fixed
import LadderChart.Proofs.Time.Calendar
import LadderChart.Time.Places
import LadderChart.Time.Stamp

/-!
What a time label says. It is read back as the date at the place of the label and the time on a
clock of twelve hours, so it determines the instant up to half a day.
-/

namespace LadderChart

namespace Calendar

/-- The same time in the first half of the day. -/
def Moment.forenoon (m : Moment) : Moment := { m with hour := m.hour % 12 }

theorem Moment.toSeconds_forenoon (seconds : Int) :
    (ofSeconds seconds).forenoon.toSeconds = seconds ∨
      (ofSeconds seconds).forenoon.toSeconds = seconds - 43200 := by
  simp only [toSeconds, forenoon, ofSeconds, toDays_ofDays, secondsPerDay]
  omega

end Calendar

namespace Stamp
open Calendar

/-! ### Reading -/

/-- Digits that fit a field, as a number, and what follows them. -/
def field? (fits : List Digit → Bool) (text : List Char) : Option (Nat × List Char) :=
  let found := Digits.scan text
  if fits found.1 then some (Digits.value found.1, found.2) else none

def after? (mark : Char) : List Char → Option (List Char)
  | [] => none
  | c :: rest => if c = mark then some rest else none

def year? (text : List Char) : Option (Int × List Char) :=
  let long : List Digit → Bool := fun digits => 4 ≤ digits.length
  match after? '-' text, after? '+' text with
  | some rest, _ => (field? long rest).map fun found => (-found.1, found.2)
  | _, some rest => (field? long rest).map fun found => (found.1, found.2)
  | none, none => (field? long text).map fun found => (found.1, found.2)

def pair? : List Char → Option (Nat × List Char) := field? fun digits => digits.length == 2

/-- A number without zeros before it. -/
def unpadded? : List Char → Option (Nat × List Char) :=
  field? fun digits => digits.head?.any (·.val != 0)

/-- A label as a date and a time; the hour is that of the clock. -/
def read? (text : List Char) : Option Moment := do
  let (year, text) ← year? text
  let (month, text) ← pair? (← after? '-' text)
  let (day, text) ← pair? (← after? '-' text)
  let (hour, text) ← unpadded? (← after? ' ' text)
  let (minute, text) ← pair? (← after? ':' text)
  let (second, text) ← pair? (← after? ':' text)
  if text = [] then some ⟨⟨year, month, day⟩, hour, minute, second⟩ else none

theorem field_padded {fits : List Digit → Bool} {width n : Nat} (rest : List Char)
    (stops : Digits.Stops rest)
    (fit : fits (Digits.zeros (width - (Digits.ofNat n).length) ++ Digits.ofNat n) = true) :
    field? fits (padded width n ++ rest) = some (n, rest) := by
  rw [field?, padded, Digits.scan_text _ _ stops, if_pos fit, Digits.value_padded]

theorem pair_padded {n : Nat} (rest : List Char) (stops : Digits.Stops rest) (below : n < 100) :
    pair? (padded 2 n ++ rest) = some (n, rest) := by
  refine field_padded rest stops ?_
  have short : (Digits.ofNat n).length ≤ 2 := Digits.length_ofNat_le (by decide) below
  rw [List.length_append, Digits.zeros, List.length_replicate, beq_iff_eq]
  omega

theorem unpadded_hour {n : Nat} (rest : List Char) (stops : Digits.Stops rest) (positive : n ≠ 0) :
    unpadded? (padded 1 n ++ rest) = some (n, rest) := by
  refine field_padded rest stops ?_
  obtain ⟨d, others, digits, first⟩ := Digits.ofNat_leading n positive
  simp [digits, Digits.zeros, first]

theorem after_mark (mark : Char) (rest : List Char) : after? mark (mark :: rest) = some rest :=
  if_pos rfl

theorem after_padded (mark : Char) (other : Digit.ofChar? mark = none) (width n : Nat)
    (rest : List Char) : after? mark (padded width n ++ rest) = none := by
  have filled : Digits.zeros (width - (Digits.ofNat n).length) ++ Digits.ofNat n ≠ [] :=
    List.append_ne_nil_of_right_ne_nil _ (Digits.ofNat_ne_nil n)
  obtain ⟨d, digits, starts⟩ := List.exists_cons_of_ne_nil filled
  have apart : d.char ≠ mark := by
    rintro rfl
    rw [Digits.ofChar_char] at other
    cases other
  rw [padded, starts, Digits.text, List.map_cons, List.cons_append, after?, if_neg apart]

theorem long_padded (n : Nat) (rest : List Char) (stops : Digits.Stops rest) :
    field? (fun digits => 4 ≤ digits.length) (padded 4 n ++ rest) = some (n, rest) := by
  refine field_padded rest stops ?_
  rw [List.length_append, Digits.zeros, List.length_replicate, decide_eq_true_eq]
  omega

theorem year_text (year : Int) (rest : List Char) (stops : Digits.Stops rest) :
    year? (yearText year ++ rest) = some (year, rest) := by
  have minus := after_padded '-' (by decide) 4 year.natAbs rest
  have plus := after_padded '+' (by decide) 4 year.natAbs rest
  have read := long_padded year.natAbs rest stops
  unfold yearText
  split
  · have size : -(year.natAbs : Int) = year := by omega
    simp only [List.cons_append, year?, after_mark, read, Option.map_some, size]
  · have size : (year.natAbs : Int) = year := by omega
    have other : after? '-' ('+' :: (padded 4 year.natAbs ++ rest)) = none := rfl
    split
    · simp only [List.cons_append, year?, after_mark, other, read, Option.map_some, size]
    · simp only [year?, minus, plus, read, Option.map_some, size]

theorem clockHour_bounds (hour : Nat) : 1 ≤ clockHour hour ∧ clockHour hour ≤ 12 := by
  unfold clockHour
  split <;> omega

theorem clockHour_mod (hour : Nat) : clockHour hour % 12 = hour % 12 := by
  unfold clockHour
  split <;> omega

def onClock (m : Moment) : Moment := { m with hour := clockHour m.hour }

theorem onClock_forenoon (m : Moment) : (onClock m).forenoon = m.forenoon := by
  simp only [onClock, Moment.forenoon, clockHour_mod]

/-- Nothing is written of the half of the day. -/
theorem text_forenoon (m : Moment) : text m.forenoon = text m := by
  have same : clockHour (m.hour % 12) = clockHour m.hour := by
    unfold clockHour
    rw [Nat.mod_mod]
  simp only [text, Moment.forenoon, same]

theorem read_text {m : Moment} (month : m.date.month < 100) (day : m.date.day < 100)
    (minute : m.minute < 100) (second : m.second < 100) :
    read? (text m) = some (onClock m) := by
  have hour : clockHour m.hour ≠ 0 := by
    have := clockHour_bounds m.hour
    omega
  have dash (rest : List Char) := Digits.stops_cons (c := '-') rest (by decide)
  have blank (rest : List Char) := Digits.stops_cons (c := ' ') rest (by decide)
  have colon (rest : List Char) := Digits.stops_cons (c := ':') rest (by decide)
  have last := pair_padded [] (fun _ none => by cases none) second
  rw [List.append_nil] at last
  simp only [text, List.append_assoc, List.cons_append, read?, year_text _ _ (dash _), after_mark,
    pair_padded _ (dash _) month, pair_padded _ (blank _) day, unpadded_hour _ (colon _) hour,
    pair_padded _ (colon _) minute, last, Option.bind_eq_bind, Option.bind_some, if_true, onClock]

/-! ### What labels say -/

/-- A label says the date, and the time of day up to its half. -/
def Tells (label : String) (seconds : Int) : Prop :=
  ∃ m, read? label.toList = some m ∧ Dated (seconds / secondsPerDay) m.date ∧
    1 ≤ m.hour ∧ m.hour ≤ 12 ∧
    (m.forenoon.toSeconds = seconds ∨ m.forenoon.toSeconds = seconds - 43200)

theorem read_moment (seconds : Int) :
    read? (text (Moment.ofSeconds seconds)) = some (onClock (Moment.ofSeconds seconds)) := by
  obtain ⟨⟨_, months⟩, _, days⟩ := ofDays_valid (seconds / secondsPerDay)
  have short := monthLength_le (Date.ofDays (seconds / secondsPerDay)).year
    (Date.ofDays (seconds / secondsPerDay)).month
  apply read_text <;> simp only [Moment.ofSeconds] <;> omega

theorem text_tells (seconds : Int) :
    Tells (String.ofList (text (Moment.ofSeconds seconds))) seconds := by
  rw [Tells, String.toList_ofList]
  obtain ⟨least, most⟩ := clockHour_bounds (Moment.ofSeconds seconds).hour
  refine ⟨_, read_moment seconds, dated_ofDays _, least, most, ?_⟩
  rw [onClock_forenoon]
  exact Moment.toSeconds_forenoon seconds

/-- Times of one date. -/
def SameDate (s t : Int) : Prop :=
  ∃ d, Dated (s / secondsPerDay) d ∧ Dated (t / secondsPerDay) d

theorem sameDate_iff {s t : Int} :
    SameDate s t ↔ s / secondsPerDay = t / secondsPerDay := by
  constructor
  · rintro ⟨d, dated, dated'⟩
    have days := congrArg Date.toDays ((dated_iff.mp dated).symm.trans (dated_iff.mp dated'))
    rwa [toDays_ofDays, toDays_ofDays] at days
  · intro same
    exact ⟨_, dated_ofDays _, same ▸ dated_ofDays _⟩

/-- Two times have one text exactly if they are of one date and no or twelve hours apart. -/
theorem text_eq_iff (s t : Int) :
    text (Moment.ofSeconds s) = text (Moment.ofSeconds t) ↔
      SameDate s t ∧ (s = t ∨ (s - t).natAbs = 43200) := by
  rw [sameDate_iff]
  constructor
  · intro same
    have read := Option.some.inj ((read_moment s).symm.trans (same ▸ read_moment t))
    have days := congrArg (fun m : Moment => m.date.toDays) read
    simp only [onClock, Moment.ofSeconds, toDays_ofDays] at days
    have forenoon := congrArg Moment.forenoon read
    rw [onClock_forenoon, onClock_forenoon] at forenoon
    refine ⟨days, ?_⟩
    -- each is that time of the forenoon or twelve hours later
    have early := Moment.toSeconds_forenoon s
    have late := Moment.toSeconds_forenoon t
    rw [forenoon] at early
    omega
  · rintro ⟨date, apart⟩
    have forenoon : (Moment.ofSeconds s).forenoon = (Moment.ofSeconds t).forenoon := by
      simp only [Moment.forenoon, Moment.ofSeconds, Moment.mk.injEq, date, true_and]
      unfold secondsPerDay at *
      omega
    rw [← text_forenoon, forenoon, text_forenoon]

/-! ### Labels -/

def InRange (seconds : Int) : Prop := earliest ≤ seconds ∧ seconds ≤ latest

theorem ofSeconds_outside {seconds : Int} (outside : ¬ InRange seconds) (zone : Zone) :
    ofSeconds seconds zone = .error (.time (.outOfRange seconds)) := if_neg outside

theorem ofSeconds_inside {seconds : Int} (inside : InRange seconds) (zone : Zone) :
    ofSeconds seconds zone = do
      zone.check
      return String.ofList (text (Moment.ofSeconds (seconds + zone.offset seconds))) := if_pos inside

theorem ofSeconds_fine {seconds : Int} {zone : Zone} (inside : InRange seconds)
    (fine : zone.check = .ok ()) : ofSeconds seconds zone =
      .ok (String.ofList (text (Moment.ofSeconds (seconds + zone.offset seconds)))) := by
  rw [ofSeconds_inside inside, fine]
  rfl

theorem fixed_check (minutes : Int16) :
    (Zone.fixed minutes).check = .ok () ↔ minutes.toInt.natAbs ≤ 840 := by
  rw [Zone.check, refuseIf_eq_ok, decide_eq_false_iff_not, not_lt]

/-- What the labels of a zone say that is so many minutes ahead. -/
structure Faithful (zone : Zone) (minutes : Int) : Prop where
  tells : ∀ t, InRange t → ∃ label, ofSeconds t zone = .ok label ∧ Tells label (t + minutes * 60)
  same : ∀ s t, InRange s → InRange t → (ofSeconds s zone = ofSeconds t zone ↔
    SameDate (s + minutes * 60) (t + minutes * 60) ∧ (s = t ∨ (s - t).natAbs = 43200))

theorem faithful {zone : Zone} {minutes : Int} (fine : zone.check = .ok ())
    (offset : ∀ t, zone.offset t = minutes * 60) : Faithful zone minutes := by
  constructor
  · intro t inside
    refine ⟨_, ofSeconds_fine inside fine, ?_⟩
    rw [offset]
    exact text_tells _
  · intro s t inside inside'
    rw [ofSeconds_fine inside fine, ofSeconds_fine inside' fine, offset, offset,
      Except.ok.injEq, String.ofList_inj, text_eq_iff, add_left_inj, add_sub_add_right_eq_sub]

/-- The label of a place is that of the offset in force there, in whole minutes or not. -/
structure InForce (p : Place) (t : Int) : Prop where
  tells : ∃ label, ofSeconds t (.place p) = .ok label ∧ Tells label (t + p.ahead t)
  utc : InRange (t + p.ahead t) → ofSeconds t (.place p) = ofSeconds (t + p.ahead t) .utc
  fixed : ∀ m : Int16, m.toInt.natAbs ≤ 840 → p.ahead t = m.toInt * 60 →
    ofSeconds t (.place p) = ofSeconds t (.fixed m)

theorem inForce {t : Int} (inside : InRange t) (p : Place) : InForce p t := by
  have made : ofSeconds t (.place p) =
      .ok (String.ofList (text (Moment.ofSeconds (t + p.ahead t)))) := ofSeconds_fine inside rfl
  refine ⟨⟨_, made, text_tells _⟩, ?_, ?_⟩
  · intro inside'
    rw [made, ofSeconds_fine inside' rfl]
    simp only [Zone.offset, add_zero]
  · intro m small ahead
    rw [made, ofSeconds_fine inside ((fixed_check m).mpr small)]
    simp only [Zone.offset, ahead]

/-- Labels in range are made, and say the local time up to its half of the day. Where a zone stays
at one offset, equal labels are of one date and no or twelve hours apart. A place has the labels of
the offset in force there. An instant out of range is refused before a wide offset is. -/
theorem labels_tell_time :
    Faithful .utc 0 ∧
    (∀ m : Int16, m.toInt.natAbs ≤ 840 → Faithful (.fixed m) m.toInt ∧
      ∀ t, InRange t → InRange (t + m.toInt * 60) →
        ofSeconds t (.fixed m) = ofSeconds (t + m.toInt * 60) .utc) ∧
    (∀ p t, InRange t → InForce p t) ∧
    (∀ zone t, ¬ InRange t → ofSeconds t zone = .error (.time (.outOfRange t))) ∧
    ∀ (m : Int16) t, 840 < m.toInt.natAbs → InRange t →
      ofSeconds t (.fixed m) = .error (.data .zoneOffset) := by
  refine ⟨?_, ?_, fun p t inside => inForce inside p,
    fun zone t outside => ofSeconds_outside outside zone, ?_⟩
  · exact faithful rfl fun _ => rfl
  · intro m small
    have fine := (fixed_check m).mpr small
    refine ⟨faithful fine fun _ => rfl, ?_⟩
    intro t inside inside'
    rw [ofSeconds_fine inside fine, ofSeconds_fine inside' rfl]
    simp only [Zone.offset, add_zero]
  · intro m t large inside
    rw [ofSeconds_inside inside, Zone.check, decide_eq_true large]
    rfl

/-- At either end of the range a wide offset leads into a year outside of it. Noon has the label of
midnight, unless there a new day has begun. In London the year 1970 began an hour ahead, and clocks
in Tokyo once showed the sun. -/
theorem ends_labelled :
    (ofSeconds earliest (.fixed (-840)) = .ok "-262144-12-31 10:00:00" ∧
      Tells "-262144-12-31 10:00:00" (earliest - 50400)) ∧
    (ofSeconds latest (.fixed 840) = .ok "+262143-01-01 1:59:59" ∧
      Tells "+262143-01-01 1:59:59" (latest + 50400)) ∧
    ofSeconds 43200 .utc = ofSeconds 0 .utc ∧
    ofSeconds 43200 (.fixed 720) ≠ ofSeconds 0 (.fixed 720) ∧
    ofSeconds 0 (.fixed 720) = ofSeconds 43200 .utc ∧
    (ofSeconds 0 (.place Clocks.london.place) = .ok "1970-01-01 1:00:00" ∧
      ofSeconds 0 (.place Clocks.london.place) = ofSeconds 0 (.fixed 60)) ∧
    (ofSeconds (-2587712401) (.place Clocks.tokyo.place) = .ok "1888-01-01 12:18:58" ∧
      Tells "1888-01-01 12:18:58" (-2587712401 + 33539)) ∧
    ofSeconds (latest + 1) (.fixed 841) = .error (.time (.outOfRange (latest + 1))) ∧
    ofSeconds latest (.fixed 841) = .error (.data .zoneOffset) := by
  obtain ⟨utc, fixed, places, outside, wide⟩ := labels_tell_time
  have first : InRange earliest := ⟨by decide, by decide⟩
  have last : InRange latest := ⟨by decide, by decide⟩
  have midnight : InRange 0 := ⟨by decide, by decide⟩
  have noon : InRange 43200 := ⟨by decide, by decide⟩
  have old : InRange (-2587712401) := ⟨by decide, by decide⟩
  refine ⟨⟨rfl, ?_⟩, ⟨rfl, ?_⟩, ?_, ?_, ?_, ⟨rfl, ?_⟩, ⟨rfl, ?_⟩, outside _ _ ?_,
    wide 841 _ (by decide) last⟩
  · obtain ⟨_, made, tells⟩ := (fixed (-840) (by decide)).1.tells earliest first
    cases made
    exact tells
  · obtain ⟨_, made, tells⟩ := (fixed 840 (by decide)).1.tells latest last
    cases made
    exact tells
  · rw [utc.same 43200 0 noon midnight, sameDate_iff]
    decide
  · rw [ne_eq, (fixed 720 (by decide)).1.same 43200 0 noon midnight, sameDate_iff]
    decide
  · exact (fixed 720 (by decide)).2 0 midnight noon
  · exact (places Clocks.london.place 0 midnight).fixed 60 (by decide) (by decide)
  · obtain ⟨_, made, tells⟩ := (places Clocks.tokyo.place _ old).tells
    cases made
    exact tells
  · exact fun inside => absurd inside.2 (by decide)

end Stamp
end LadderChart
