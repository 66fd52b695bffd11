/-!
Whole numbers nearest to a fraction `num / den`. A half goes up, away from zero, or to the even
neighbour. All work on exact numerators and denominators.
-/

namespace LadderChart.Rounding

def halfUp (num den : Nat) : Nat := (2 * num + den) / (2 * den)

def halfEven (num den : Nat) : Nat :=
  let low := num / den
  let rest := 2 * (num % den)
  if rest < den then low
  else if den < rest then low + 1
  else if low % 2 = 0 then low else low + 1

def awayFromZero (q : Rat) : Int :=
  let magnitude : Int := halfUp q.num.natAbs q.den
  if q.num < 0 then -magnitude else magnitude

/-- Rounding takes one of the two neighbours, and never the farther one. -/
theorem halfEven_cases (num den : Nat) :
    (halfEven num den = num / den ∧ 2 * (num % den) ≤ den) ∨
      (halfEven num den = num / den + 1 ∧ den ≤ 2 * (num % den)) := by
  simp only [halfEven]
  split
  · exact .inl ⟨rfl, by omega⟩
  · split
    · exact .inr ⟨rfl, by omega⟩
    · split
      · exact .inl ⟨rfl, by omega⟩
      · exact .inr ⟨rfl, by omega⟩

theorem halfEven_half (num den : Nat) (half : 2 * (num % den) = den) :
    halfEven num den % 2 = 0 := by
  simp only [halfEven]
  rw [if_neg (by omega), if_neg (by omega)]
  split <;> omega

end LadderChart.Rounding
