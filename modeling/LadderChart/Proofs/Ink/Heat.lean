import LadderChart.Ink.Heat
import LadderChart.Proofs.Number.Round

/-!
Heat without rounding, except to the byte of a channel. The intensity is the share of the top of the
range, brought between zero and one; the byte is the whole number nearest to 255 times as much. All
of these steps keep the order of weights, and the way back from a channel to its byte is exact.
-/

namespace LadderChart

namespace Scalar

theorem nearestByte_le {α : Type} [Scalar α] (x : α) : nearestByte x ≤ 255 := by
  unfold nearestByte saturate
  split
  · exact Nat.min_le_right _ 255
  · split
    · exact le_refl 255
    · exact Nat.zero_le 255

theorem nearestByte_mono {p q : Rat} (le : p ≤ q) : nearestByte p ≤ nearestByte q := by
  have rounded := Rounding.awayFromZero_mono le
  rw [nearestByte_rat, nearestByte_rat]
  omega

theorem nearestByte_natCast {n : Nat} (byte : n ≤ 255) : nearestByte (n : Rat) = n := by
  rw [nearestByte_rat, Rounding.awayFromZero_natCast]
  omega

/-- From zero to 255 nothing is cut off. -/
theorem nearestByte_near {q : Rat} (least : 0 ≤ q) (most : q ≤ 255) :
    |(nearestByte q : Rat) - q| ≤ 1 / 2 := by
  have low : Rounding.awayFromZero ((0 : Nat) : Rat) ≤ Rounding.awayFromZero q :=
    Rounding.awayFromZero_mono (by exact_mod_cast least)
  have high : Rounding.awayFromZero q ≤ Rounding.awayFromZero ((255 : Nat) : Rat) :=
    Rounding.awayFromZero_mono (by exact_mod_cast most)
  rw [Rounding.awayFromZero_natCast] at low high
  have whole : ((nearestByte q : Nat) : Int) = Rounding.awayFromZero q := by
    rw [nearestByte_rat]
    omega
  rw [← Int.cast_natCast, whole]
  exact Rounding.awayFromZero_near q

end Scalar

theorem Color.check_rat (c : Color Rat) (red : 0 ≤ c.red ∧ c.red ≤ 1)
    (green : 0 ≤ c.green ∧ c.green ≤ 1) (blue : 0 ≤ c.blue ∧ c.blue ≤ 1)
    (alpha : 0 ≤ c.alpha ∧ c.alpha ≤ 1) : c.check = .ok () := by
  have good : ∀ x : Rat, 0 ≤ x ∧ x ≤ 1 → badChannel x = false := by
    rintro x ⟨low, high⟩
    have low' : (0.0 : Rat) ≤ x := by norm_num; exact low
    have high' : x ≤ (1.0 : Rat) := by norm_num; exact high
    simp [badChannel, low', high']
  simp [check, badChannel?, good _ red, good _ green, good _ blue, good _ alpha]

theorem Color.blueByte_ofBytes (red green : Nat) {blue : Nat} (byte : blue ≤ 255) (alpha : Rat) :
    (ofBytes red green blue alpha).blueByte = blue := by
  have top : (255.0 : Rat) = 255 := by norm_num
  have byte' : (blue : Rat) ≤ 255 := by exact_mod_cast byte
  have share : (blue : Rat) / 255 ≤ 1 := (div_le_one (by norm_num)).mpr byte'
  have least : 0 ≤ (blue : Rat) / 255 := by positivity
  have back : (blue : Rat) / 255 * 255 = blue := div_mul_cancel₀ _ (by norm_num)
  simp only [blueByte, ofBytes, Scalar.ofNat_rat, top, Scalar.zero_rat, Scalar.one_rat]
  rw [Scalar.clamp_rat zero_le_one, min_eq_left share, max_eq_right least, back]
  exact Scalar.nearestByte_natCast byte

namespace Heat

theorem blueByte_le {α : Type} [Scalar α] (weight : α) (range : ColorRange α) :
    blueByte weight range ≤ 255 := Scalar.nearestByte_le _

theorem intensity_rat (weight : Rat) (range : ColorRange Rat) :
    intensity weight range =
      if range.high ≤ 0 then 0 else max 0 (min (weight / range.high) 1) := by
  simp only [intensity, Scalar.isFinite_rat, Scalar.zero_rat, Scalar.one_rat, not_true_eq_false,
    or_false, Scalar.clamp_rat zero_le_one]

variable (range : ColorRange Rat)

theorem intensity_bounds (weight : Rat) :
    0 ≤ intensity weight range ∧ intensity weight range ≤ 1 := by
  rw [intensity_rat]
  split
  · exact ⟨le_refl 0, zero_le_one⟩
  · exact ⟨le_max_left _ _, max_le zero_le_one (min_le_right _ _)⟩

theorem intensity_mono {a b : Rat} (le : a ≤ b) : intensity a range ≤ intensity b range := by
  rw [intensity_rat, intensity_rat]
  split
  · exact le_refl 0
  · rename_i positive
    have share := div_le_div_of_nonneg_right le (not_le.mp positive).le
    exact max_le_max (le_refl 0) (min_le_min share (le_refl 1))

theorem intensity_cold {weight : Rat} (cold : weight ≤ 0 ∨ range.high ≤ 0) :
    intensity weight range = 0 := by
  rw [intensity_rat]
  split
  · rfl
  · rename_i positive
    have share : weight / range.high ≤ 0 :=
      div_nonpos_of_nonpos_of_nonneg (cold.resolve_right positive) (not_le.mp positive).le
    exact max_eq_left ((min_le_left _ _).trans share)

variable {range}

theorem intensity_hot {weight : Rat} (positive : 0 < range.high) (hot : range.high ≤ weight) :
    intensity weight range = 1 := by
  rw [intensity_rat, if_neg (not_le.mpr positive),
    min_eq_right ((one_le_div positive).mpr hot), max_eq_right zero_le_one]

theorem intensity_share {weight : Rat} (positive : 0 < range.high) (least : 0 ≤ weight)
    (most : weight ≤ range.high) : intensity weight range = weight / range.high := by
  rw [intensity_rat, if_neg (not_le.mpr positive), min_eq_left ((div_le_one positive).mpr most),
    max_eq_right (div_nonneg least positive.le)]

theorem blueByte_rat (weight : Rat) :
    blueByte weight range = Scalar.nearestByte (255 * intensity weight range) := by
  have top : (255.0 : Rat) = 255 := by norm_num
  rw [blueByte, top]

variable (range)

theorem blueByte_mono {a b : Rat} (le : a ≤ b) : blueByte a range ≤ blueByte b range := by
  rw [blueByte_rat, blueByte_rat]
  exact Scalar.nearestByte_mono (mul_le_mul_of_nonneg_left (intensity_mono range le) (by norm_num))

theorem blueByte_cold {weight : Rat} (cold : weight ≤ 0 ∨ range.high ≤ 0) :
    blueByte weight range = 0 := by
  rw [blueByte_rat, intensity_cold range cold, mul_zero]
  exact Scalar.nearestByte_natCast (Nat.zero_le 255)

theorem blueByte_hot {weight : Rat} (positive : 0 < range.high) (hot : range.high ≤ weight) :
    blueByte weight range = 255 := by
  rw [blueByte_rat, intensity_hot positive hot, mul_one]
  exact Scalar.nearestByte_natCast (le_refl 255)

theorem blueByte_near {weight : Rat} (positive : 0 < range.high) (least : 0 ≤ weight)
    (most : weight ≤ range.high) :
    |(blueByte weight range : Rat) - 255 * weight / range.high| ≤ 1 / 2 := by
  obtain ⟨low, high⟩ := intensity_bounds range weight
  rw [mul_div_assoc, ← intensity_share positive least most, blueByte_rat]
  exact Scalar.nearestByte_near (by linarith) (by linarith)

theorem fill_check (weight : Rat) (range : ColorRange Rat) :
    (fill weight range).check = .ok () := by
  have byte : ((blueByte weight range : Nat) : Rat) ≤ 255 := by
    exact_mod_cast blueByte_le weight range
  apply Color.check_rat
  · simp only [fill, Color.ofBytes, Scalar.ofNat_rat]
    norm_num
  · simp only [fill, Color.ofBytes, Scalar.ofNat_rat]
    norm_num
  · simp only [fill, Color.ofBytes, Scalar.ofNat_rat]
    norm_num
    constructor
    · positivity
    · linarith
  · simp only [fill, Color.ofBytes]
    norm_num

/-- Heat follows the weight. Heavier is never less intense nor less blue; there is no blue up to
zero or without a positive top, and all of it from the top on; in between the byte is the one
nearest to the share of the top. Fills are good colours, and their blue can be read back. -/
theorem heat_follows_weight (range : ColorRange Rat) :
    (∀ a b, a ≤ b → 0 ≤ intensity a range ∧ intensity a range ≤ intensity b range ∧
      intensity b range ≤ 1 ∧ blueByte a range ≤ blueByte b range) ∧
    (∀ weight, weight ≤ 0 ∨ range.high ≤ 0 → blueByte weight range = 0) ∧
    (∀ weight, 0 < range.high → range.high ≤ weight → blueByte weight range = 255) ∧
    (∀ weight, (fill weight range).check = .ok () ∧
      (fill weight range).blueByte = blueByte weight range) ∧
    ∀ weight, 0 < range.high → 0 ≤ weight → weight ≤ range.high →
      |(blueByte weight range : Rat) - 255 * weight / range.high| ≤ 1 / 2 := by
  refine ⟨?_, fun _ => blueByte_cold range, fun _ => blueByte_hot range, ?_,
    fun _ => blueByte_near range⟩
  · intro a b le
    exact ⟨(intensity_bounds range a).1, intensity_mono range le, (intensity_bounds range b).2,
      blueByte_mono range le⟩
  · intro weight
    exact ⟨fill_check weight range, Color.blueByte_ofBytes 50 50 (blueByte_le weight range) 0.5⟩

/-- A weight under zero, one between two bytes and one over the top. -/
theorem eighths_follow_weight :
    let range : ColorRange Rat := ⟨-2, 8⟩
    blueByte (-1) range = 0 ∧ blueByte 3 range = 96 ∧ blueByte 9 range = 255 ∧
      intensity (-1) range ≤ intensity 3 range ∧ blueByte 3 range ≤ blueByte 9 range ∧
      (fill 3 range).blueByte = 96 ∧ |(blueByte 3 range : Rat) - 255 * 3 / 8| ≤ 1 / 2 := by
  obtain ⟨ordered, cold, hot, fills, near⟩ := heat_follows_weight ⟨-2, 8⟩
  have close := near 3 (by norm_num) (by norm_num) (by norm_num)
  have shown : blueByte 3 (⟨-2, 8⟩ : ColorRange Rat) = 96 := by
    -- no other whole number is that close to 95.625
    obtain ⟨least, most⟩ := abs_le.mp close
    have below : ((blueByte 3 (⟨-2, 8⟩ : ColorRange Rat) : Nat) : Rat) < (97 : Nat) := by
      push_cast
      linarith
    have above : ((95 : Nat) : Rat) < (blueByte 3 (⟨-2, 8⟩ : ColorRange Rat) : Nat) := by
      push_cast
      linarith
    rw [Nat.cast_lt] at below above
    omega
  exact ⟨cold _ (.inl (by norm_num)), shown, hot _ (by norm_num) (by norm_num),
    (ordered _ _ (by norm_num)).2.1, (ordered _ _ (by norm_num)).2.2.2,
    (fills 3).2.trans shown, close⟩

end Heat
end LadderChart
