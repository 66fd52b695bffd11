import LadderChart.Json.Literal
import LadderChart.Proofs.Number.Text

/-!
A well-formed literal is read back from its text, as long as what follows is no part of a number.
The literals of integers and of doubles are well-formed.
-/

namespace LadderChart

namespace Digits

/-- No digit comes first. -/
def Stops (rest : List Char) : Prop := ∀ c ∈ rest.head?, Digit.ofChar? c = none

theorem scan_stops (rest : List Char) (stops : Stops rest) : scan rest = ([], rest) := by
  cases rest with
  | nil => rfl
  | cons c rest => simp [scan, stops c rfl]

theorem scan_text (digits : List Digit) (rest : List Char) (stops : Stops rest) :
    scan (text digits ++ rest) = (digits, rest) := by
  induction digits with
  | nil => exact scan_stops rest stops
  | cons d digits ih =>
      simp only [text] at ih
      simp [text, scan, ofChar_char, ih]

theorem char_ne_minus (d : Digit) : d.char ≠ '-' := by
  revert d
  decide

/-- A first digit, and it is not zero. -/
def Leading (digits : List Digit) : Prop := ∃ d rest, digits = d :: rest ∧ d.val ≠ 0

theorem collect_leading (steps n : Nat) (found : List Digit) (positive : n ≠ 0)
    (bound : n < Nat.pow 2 (steps + 1)) : Leading (collect steps n found) := by
  induction steps generalizing n found with
  | zero =>
      have one : n = 1 := by
        rw [Nat.pow_eq] at bound
        omega
      exact ⟨_, _, rfl, by subst one; decide⟩
  | succ steps ih =>
      by_cases small : n < 10
      · refine ⟨Fin.ofNat 10 n, found, by simp [collect, small], ?_⟩
        rwa [Fin.val_ofNat, Nat.mod_eq_of_lt small]
      · have shorter : n / 10 < Nat.pow 2 (steps + 1) := by
          rw [Nat.pow_eq, Nat.pow_succ] at bound
          rw [Nat.pow_eq]
          omega
        simpa [collect, small] using ih (n / 10) (Fin.ofNat 10 n :: found) (by omega) shorter

theorem ofNat_leading (n : Nat) (positive : n ≠ 0) : Leading (ofNat n) :=
  collect_leading n.log2 n [] positive Nat.lt_log2_self

theorem ofNat_ne_nil (n : Nat) : ofNat n ≠ [] := collect_ne_nil _ _ _

theorem Leading.zero_alone {digits : List Digit} (leading : Leading digits) (rest : List Digit)
    (starts : digits = 0 :: rest) : rest = [] := by
  obtain ⟨d, others, rfl, large⟩ := leading
  exact absurd (congrArg Fin.val (List.cons.inj starts).1) large

theorem Leading.ne_nil {digits : List Digit} (leading : Leading digits) : digits ≠ [] := by
  obtain ⟨d, others, rfl, _⟩ := leading
  exact List.cons_ne_nil _ _

theorem Leading.append {digits : List Digit} (leading : Leading digits) (others : List Digit) :
    Leading (digits ++ others) := by
  obtain ⟨d, rest, rfl, large⟩ := leading
  exact ⟨d, rest ++ others, rfl, large⟩

theorem Leading.take {digits : List Digit} (leading : Leading digits) (count : Nat)
    (positive : 0 < count) : Leading (digits.take count) := by
  obtain ⟨d, rest, rfl, large⟩ := leading
  obtain ⟨fewer, rfl⟩ := Nat.exists_eq_add_of_lt positive
  exact ⟨d, rest.take fewer, by simp, large⟩

theorem Leading.dropTrailingZeros {digits : List Digit} (leading : Leading digits) :
    Leading (dropTrailingZeros digits) := by
  obtain ⟨d, rest, rfl, large⟩ := leading
  have nonzero : d ≠ 0 := fun zero => large (congrArg Fin.val zero)
  have last : [d].dropWhile (· == 0) = [d] := by simp [nonzero]
  unfold Digits.dropTrailingZeros
  rw [List.reverse_cons, List.dropWhile_append, last]
  split
  · exact ⟨d, [], rfl, large⟩
  · exact ⟨d, (rest.reverse.dropWhile (· == 0)).reverse, by simp, large⟩

theorem ofNat_zero_alone (n : Nat) (rest : List Digit) (starts : ofNat n = 0 :: rest) :
    rest = [] := by
  by_cases zero : n = 0
  · subst zero
    have digits : ofNat 0 = [0] := by decide
    rw [digits] at starts
    exact (List.cons.inj starts).2.symm
  · exact (ofNat_leading n zero).zero_alone rest starts

end Digits

namespace Json.Literal

structure WellFormed (l : Literal) : Prop where
  whole : l.whole ≠ []
  zero : ∀ rest, l.whole = 0 :: rest → rest = []
  exponent : ∀ e, l.exponent = some e → e.2 ≠ []

theorem WellFormed.of_plain {l : Literal} (plain : l.exponent = none) (whole : l.whole ≠ [])
    (zero : ∀ rest, l.whole = 0 :: rest → rest = []) : l.WellFormed where
  whole := whole
  zero := zero
  exponent e written := by
    rw [plain] at written
    cases written

theorem WellFormed.of_zero {l : Literal} (plain : l.exponent = none) (zero : l.whole = [0]) :
    l.WellFormed := by
  refine .of_plain plain (by simp [zero]) fun rest starts => ?_
  rw [zero] at starts
  exact (List.cons.inj starts).2.symm

/-- What comes after a literal and is no part of it. -/
structure Closes (rest : List Char) : Prop where
  digit : Digits.Stops rest
  point : ∀ c ∈ rest.head?, c ≠ '.'
  mark : ∀ c ∈ rest.head?, ¬ (c = 'e' ∨ c = 'E')

theorem closes_nil : Closes [] := ⟨nofun, nofun, nofun⟩

theorem scanWhole_text (whole : List Digit) (rest : List Char) (written : whole ≠ [])
    (zero : ∀ others, whole = 0 :: others → others = []) (stops : Digits.Stops rest) :
    scanWhole (Digits.text whole ++ rest) = some (whole, rest) := by
  unfold scanWhole
  rw [Digits.scan_text whole rest stops]
  split
  · rename_i none
    exact absurd (congrArg Prod.fst none) written
  · rename_i zeros
    cases zeros
    exact absurd (zero _ rfl) (List.cons_ne_nil _ _)
  · rfl

theorem scanFraction_render (fraction : List Digit) (rest : List Char) (stops : Digits.Stops rest)
    (point : ∀ c ∈ rest.head?, c ≠ '.') :
    scanFraction (renderFraction fraction ++ rest) = some (fraction, rest) := by
  cases fraction with
  | nil =>
      cases rest with
      | nil => rfl
      | cons c rest =>
          have other := point c rfl
          unfold scanFraction
          split
          · rename_i starts
            exact absurd (List.cons.inj starts).1 other
          · rfl
  | cons d digits =>
      simp only [renderFraction, List.cons_append, scanFraction, Digits.scan_text _ _ stops]

theorem scanExponent_render (e : Option (Bool × List Digit)) (rest : List Char)
    (written : ∀ signed, e = some signed → signed.2 ≠ []) (closes : Closes rest) :
    scanExponent (renderExponent e ++ rest) = some (e, rest) := by
  match e with
  | none =>
      cases rest with
      | nil => rfl
      | cons c rest => simp [renderExponent, scanExponent, closes.mark c rfl]
  | some (negative, []) => exact absurd rfl (written _ rfl)
  | some (negative, d :: digits) =>
      have scanned := Digits.scan_text (d :: digits) rest closes.digit
      cases negative <;> simp [renderExponent, scanExponent, scanSign, scanned]

theorem renderExponent_stops (e : Option (Bool × List Digit)) (rest : List Char)
    (stops : Digits.Stops rest) : Digits.Stops (renderExponent e ++ rest) := by
  match e with
  | none => exact stops
  | some (_, _) =>
      intro c first
      cases first
      decide

theorem renderExponent_point (e : Option (Bool × List Digit)) (rest : List Char)
    (point : ∀ c ∈ rest.head?, c ≠ '.') : ∀ c ∈ (renderExponent e ++ rest).head?, c ≠ '.' := by
  match e with
  | none => exact point
  | some (_, _) =>
      intro c first
      cases first
      decide

theorem renderFraction_stops (fraction : List Digit) (rest : List Char)
    (stops : Digits.Stops rest) : Digits.Stops (renderFraction fraction ++ rest) := by
  cases fraction with
  | nil => exact stops
  | cons d digits =>
      intro c first
      cases first
      decide

theorem scan_render (l : Literal) (formed : l.WellFormed) (rest : List Char)
    (closes : Closes rest) : scan (l.render ++ rest) = some (l, rest) := by
  obtain ⟨negative, whole, fraction, exponent⟩ := l
  have stops := renderExponent_stops exponent rest closes.digit
  have wholeRead := scanWhole_text whole _ formed.whole formed.zero
    (renderFraction_stops fraction _ stops)
  have fractionRead := scanFraction_render fraction _ stops
    (renderExponent_point exponent rest closes.point)
  have exponentRead := scanExponent_render exponent rest formed.exponent closes
  match negative, whole with
  | _, [] => exact absurd rfl formed.whole
  | true, d :: digits => simp [scan, render, wholeRead, fractionRead, exponentRead]
  | false, d :: digits =>
      have unsigned := Digits.char_ne_minus d
      simp only [Digits.text, List.map_cons, List.cons_append] at wholeRead
      simp [scan, render, Digits.text, unsigned, wholeRead, fractionRead, exponentRead]

/-! ### Integers -/

theorem ofNat_wellFormed (n : Nat) : (ofNat n).WellFormed :=
  .of_plain rfl (Digits.ofNat_ne_nil n) (Digits.ofNat_zero_alone n)

theorem ofInt_wellFormed (n : Int) : (ofInt n).WellFormed :=
  .of_plain rfl (Digits.ofNat_ne_nil _) (Digits.ofNat_zero_alone _)

theorem integer?_ofNat (n : Nat) : (ofNat n).integer? = some (n : Int) := by
  simp [integer?, ofNat, Digits.value_ofNat]

theorem integer?_ofInt (n : Int) : (ofInt n).integer? = some n := by
  have whole : Digits.value (Digits.ofNat n.natAbs) = n.natAbs := Digits.value_ofNat _
  have integral : ¬((ofInt n).fraction ≠ [] ∨ (ofInt n).exponent ≠ none) := by simp [ofInt]
  rw [integer?, if_neg integral]
  by_cases negative : n < 0
  · have size : n.natAbs ≠ 0 := by omega
    have same : -(n.natAbs : Int) = n := by omega
    rw [ofInt, if_pos (decide_eq_true negative), whole, if_neg size, same]
  · have same : (n.natAbs : Int) = n := by omega
    rw [ofInt, if_neg (by simpa using negative), whole, same]

end Json.Literal

/-! ### Doubles -/

namespace Decimal

theorem ofGrid_leading (count : Nat) (unit : Int) (positive : count ≠ 0) :
    Digits.Leading (ofGrid count unit).digits :=
  (Digits.ofNat_leading count positive).dropTrailingZeros

theorem exact_leading (d : Double) (positive : d.significand ≠ 0) :
    Digits.Leading (exact d).digits := by
  have size : 0 < d.significand := Nat.pos_of_ne_zero positive
  have five : 0 < 5 := by decide
  unfold exact
  split
  · exact ofGrid_leading _ _ (Nat.ne_of_gt (Nat.mul_pos size (Nat.pow_pos Nat.two_pos)))
  · exact ofGrid_leading _ _ (Nat.ne_of_gt (Nat.mul_pos size (Nat.pow_pos five)))

theorem choose_holds (tie : Tie) (b : Basin) (count : Nat) (chosen : b.choose tie = some count) :
    b.holds count = true := by
  unfold Basin.choose at chosen
  simp only at chosen
  split at chosen
  · rename_i low high
    split at chosen
    · cases chosen
      exact low
    · split at chosen
      · cases chosen
        exact high
      · cases tie with
        | up =>
            cases chosen
            exact high
        | even =>
            cases chosen
            split
            · exact low
            · exact high
  · rename_i low high
    cases chosen
    exact low
  · rename_i low high
    cases chosen
    exact high
  · cases chosen

/-- Zero is outside a basin that lies above it. -/
theorem choose_positive (tie : Tie) (b : Basin) (above : 0 < b.low) (count : Nat)
    (chosen : b.choose tie = some count) : count ≠ 0 := by
  intro zero
  have held := choose_holds tie b count chosen
  simp only [Basin.holds, zero, Nat.zero_mul] at held
  split at held
  · simp only [Bool.and_eq_true, decide_eq_true_eq] at held
    omega
  · simp only [Bool.and_eq_true, decide_eq_true_eq] at held
    omega

theorem basin_low_positive (d : Double) (positive : d.significand ≠ 0) (unit : Int) :
    0 < ((Basin.ofDouble d).inUnits unit).low := by
  have size : 0 < 4 * d.significand - if d.footOfBinade then 1 else 2 := by
    split <;> omega
  exact Nat.mul_pos (Nat.mul_pos size (Nat.pow_pos Nat.two_pos)) (Nat.pow_pos (by decide))

theorem search_leading (tie : Tie) (d : Double) (positive : d.significand ≠ 0) (point : Int)
    (sizes : List Nat) (found : Decimal)
    (hit : search tie (Basin.ofDouble d) point sizes = some found) :
    Digits.Leading found.digits := by
  induction sizes with
  | nil => cases hit
  | cons n rest ih =>
      simp only [search] at hit
      split at hit
      · rename_i count chosen
        cases hit
        exact ofGrid_leading _ _ (choose_positive tie _ (basin_low_positive d positive _) _ chosen)
      · exact ih hit

theorem shortest_leading (tie : Tie) (d : Double) (positive : d.significand ≠ 0) :
    Digits.Leading (shortest tie d).digits := by
  unfold shortest
  simp only
  cases found : search tie (Basin.ofDouble d) (Basin.ofDouble d).point (List.range' 1 17) with
  | none => exact exact_leading d positive
  | some decimal => exact search_leading tie d positive _ _ decimal found

end Decimal

namespace Json.Literal

theorem ofDecimal_wellFormed (negative : Bool) (d : Decimal) (leading : Digits.Leading d.digits) :
    (ofDecimal negative d).WellFormed := by
  unfold ofDecimal
  simp only
  split
  · split
    · exact .of_zero rfl rfl
    · split
      · have long := leading.append (Digits.zeros (d.point.toNat - d.digits.length))
        exact .of_plain rfl long.ne_nil long.zero_alone
      · have short := leading.take d.point.toNat (by omega)
        exact .of_plain rfl short.ne_nil short.zero_alone
  · have first := leading.take 1 Nat.one_pos
    refine ⟨first.ne_nil, first.zero_alone, ?_⟩
    intro e written
    cases written
    exact Digits.ofNat_ne_nil _

theorem ofDouble?_wellFormed (x : Float) (l : Literal) (written : ofDouble? x = some l) :
    l.WellFormed := by
  unfold ofDouble? at written
  split at written
  · simp only at written
    split at written
    · cases written
      exact .of_zero rfl rfl
    · rename_i positive
      cases written
      exact ofDecimal_wellFormed _ _ (Decimal.shortest_leading .even _ positive)
  · cases written

theorem ofDouble?_finite (x : Float) (finite : x.isFinite = true) : ∃ l, ofDouble? x = some l := by
  unfold ofDouble?
  rw [if_pos finite]
  simp only
  split
  · exact ⟨_, rfl⟩
  · exact ⟨_, rfl⟩

end Json.Literal
end LadderChart
