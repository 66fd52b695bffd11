import LadderChart.Proofs.Number.Order

/-!
Sizes of doubles. A chain of operations on doubles of moderate size stays finite: each of them at
most doubles the bound that the exact result has. This is coarse, and enough for everything on a
canvas.
-/

namespace LadderChart

open Float.Model Float.Model.UnpackedFloat

/-- A finite double of bounded size. -/
structure Within (bound : ℚ) (x : Float) : Prop where
  finite : x.isFinite = true
  size : |Scalar.value x| ≤ bound

theorem room {bound : ℚ} (moderate : bound ≤ 2 ^ 200) : bound < overflow := by
  have half : 2 ^ 200 ≤ halfUnit := pow_le_pow_right₀ one_le_two (by norm_num)
  unfold overflow
  nlinarith

namespace Within
variable {a b : ℚ} {x y : Float}

theorem mono (within : Within a x) (le : a ≤ b) : Within b x :=
  ⟨within.finite, within.size.trans le⟩

theorem of_rounded {q : ℚ} (rounded : Rounded q x) (size : |q| ≤ a) (moderate : a ≤ 2 ^ 200) :
    Within (2 * a) x := by
  have inside : |q| < overflow := size.trans_lt (room moderate)
  refine ⟨rounded.finite_iff.mpr inside, (rounded.size inside).trans ?_⟩
  linarith

theorem add (first : Within a x) (second : Within b y) (moderate : a + b ≤ 2 ^ 200) :
    Within (2 * (a + b)) (x + y) := by
  refine of_rounded (add_rounded first.finite second.finite) ?_ moderate
  exact (abs_add_le _ _).trans (add_le_add first.size second.size)

theorem sub (first : Within a x) (second : Within b y) (moderate : a + b ≤ 2 ^ 200) :
    Within (2 * (a + b)) (x - y) := by
  refine of_rounded (sub_rounded first.finite second.finite) ?_ moderate
  exact (abs_sub _ _).trans (add_le_add first.size second.size)

theorem mul (first : Within a x) (second : Within b y) (moderate : a * b ≤ 2 ^ 200) :
    Within (2 * (a * b)) (x * y) := by
  refine of_rounded (mul_rounded first.finite second.finite) ?_ moderate
  rw [abs_mul]
  exact mul_le_mul first.size second.size (abs_nonneg _) ((abs_nonneg _).trans first.size)

theorem div (first : Within a x) (finite : y.isFinite = true) (pos : 0 < b)
    (least : b ≤ |Scalar.value y|) (moderate : a / b ≤ 2 ^ 200) : Within (2 * (a / b)) (x / y) := by
  have nonzero : Scalar.value y ≠ 0 := abs_pos.mp (pos.trans_le least)
  refine of_rounded (div_rounded first.finite finite nonzero) ?_ moderate
  rw [abs_div]
  exact div_le_div₀ ((abs_nonneg _).trans first.size) first.size pos least

theorem half (within : Within a x) (moderate : a ≤ 2 ^ 200) : Within (2 * a) (x / 2.0) := by
  have two : Scalar.value (2.0 : Float) = 2 := by decide
  have halved := within.div (b := 1) (show (2.0 : Float).isFinite = true by decide) one_pos
    (by rw [two]; norm_num) (by rwa [div_one])
  rwa [div_one] at halved

end Within

theorem within_half : Within 1 (0.5 : Float) := by
  constructor <;> decide

theorem within_one : Within 1 (1.0 : Float) := by
  constructor <;> decide

theorem value_float_one : Scalar.value (1.0 : Float) = 1 := by decide

/-- A number between zero and one is rounded to one. -/
theorem Rounded.share {q : ℚ} {x : Float} (rounded : Rounded q x) (nonneg : 0 ≤ q) (most : q ≤ 1) :
    Within 1 x ∧ 0 ≤ Scalar.value x := by
  have inside : |q| < overflow := by
    rw [abs_of_nonneg nonneg]
    exact most.trans_lt (room (by norm_num))
  have least := rounded.nonneg inside nonneg
  have below := rounded.le_of_le inside within_one.finite (value_float_one.symm ▸ most)
  refine ⟨⟨rounded.finite_iff.mpr inside, ?_⟩, least⟩
  rwa [abs_of_nonneg least, ← value_float_one]

/-! ### Comparisons -/

section Comparisons
variable {x : Float}

theorem zero_lt_iff (finite : x.isFinite = true) : (0.0 : Float) < x ↔ 0 < Scalar.value x := by
  rw [float_lt_iff_value finite_float_zero finite, value_float_zero]

theorem zero_le_iff (finite : x.isFinite = true) : (0.0 : Float) ≤ x ↔ 0 ≤ Scalar.value x := by
  rw [float_le_iff_value finite_float_zero finite, value_float_zero]

theorem le_zero_iff (finite : x.isFinite = true) : x ≤ (0.0 : Float) ↔ Scalar.value x ≤ 0 := by
  rw [float_le_iff_value finite finite_float_zero, value_float_zero]

theorem rank_float_zero : rank? (0.0 : Float).toModel.unpack = some (.of 0 0 0) := by
  decide

theorem zero_lt_infinity (infinite : x.toModel.unpack = .infinity .positive) : (0.0 : Float) < x :=
  (float_lt_iff _ _).mpr ⟨_, _, rank_float_zero, by rw [infinite]; rfl, by
    rw [Rank.of_lt]
    omega⟩

theorem infinity_le_zero (infinite : x.toModel.unpack = .infinity .negative) : x ≤ (0.0 : Float) :=
  (float_le_iff _ _).mpr ⟨_, _, by rw [infinite]; rfl, rank_float_zero, by
    rw [Rank.of_le]
    omega⟩

theorem finite_of_between {low high : Float} (finiteLow : low.isFinite = true)
    (finiteHigh : high.isFinite = true) (above : low ≤ x) (below : x ≤ high) :
    x.isFinite = true := by
  rw [float_le_iff] at above below
  obtain ⟨r, s, rankLow, rankX, up⟩ := above
  obtain ⟨s', t, rankX', rankHigh, down⟩ := below
  rw [isFinite_eq] at finiteLow finiteHigh ⊢
  generalize low.toModel.unpack = a at finiteLow rankLow
  generalize high.toModel.unpack = b at finiteHigh rankHigh
  cases unpacked : x.toModel.unpack with
  | notANumber =>
      rw [unpacked] at rankX
      cases rankX
  | zero sign => rfl
  | finite sign m e pos => rfl
  | infinity sign =>
      rw [unpacked] at rankX rankX'
      -- an infinity has the first or the last rank, and no finite double has either
      cases sign with
      | positive =>
          cases rankX'
          rcases b with s | _ | s | ⟨s, m, e, pos⟩ <;> (try cases s) <;> cases finiteHigh <;>
            cases rankHigh <;> simp [Rank.of_le] at down
      | negative =>
          cases rankX
          rcases a with s | _ | s | ⟨s, m, e, pos⟩ <;> (try cases s) <;> cases finiteLow <;>
            cases rankLow <;> simp [Rank.of_le] at up

/-- Doubles that compare equal are finite together and have the same value. -/
theorem value_of_beq {y : Float} (same : (x == y) = true) (finite : y.isFinite = true) :
    x.isFinite = true ∧ Scalar.value x = Scalar.value y := by
  obtain ⟨r, rankX, rankY⟩ := (float_beq_iff x y).mp same
  have up : x ≤ y := (float_le_iff x y).mpr ⟨r, r, rankX, rankY, le_refl r⟩
  have down : y ≤ x := (float_le_iff y x).mpr ⟨r, r, rankY, rankX, le_refl r⟩
  have finite' := finite_of_between finite finite down up
  exact ⟨finite', le_antisymm ((float_le_iff_value finite' finite).mp up)
    ((float_le_iff_value finite finite').mp down)⟩

end Comparisons

/-! ### Whole numbers -/

theorem value_ofNat {n : Nat} (small : n < 2 ^ 53) : Scalar.value (Float.ofNat n) = n := by
  have inside : |(n : ℚ)| < overflow := by
    apply room
    rw [Nat.abs_cast]
    have below : (n : ℚ) ≤ ((2 ^ 53 : ℕ) : ℚ) := Nat.cast_le.mpr small.le
    push_cast at below
    linarith
  exact (ofNat_rounded n).exact inside small (by norm_num : (-1074 : ℤ) ≤ 0) (by
    rw [zpow_zero, mul_one, Nat.abs_cast])

theorem finite_ofNat {n : Nat} (small : n < 2 ^ 53) : (Float.ofNat n).isFinite = true := by
  apply float_ofNat_finite
  have bound : Scalar.largestIndex = 2 ^ 64 - 1 := rfl
  omega

end LadderChart
