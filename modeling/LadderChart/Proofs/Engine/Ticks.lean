import LadderChart.Proofs.Engine.Labels
import LadderChart.Proofs.Number.Fixed

/-!
The texts of the ticks of the ladder axis, without rounding of the ticks. A step is at least one
unit of the last place that is written, so texts rise from tick to tick. They do not if the step is
just one unit and the ticks fall halfway between two texts: then every other pair of neighbours
meets at the even text between them.
-/

namespace LadderChart

namespace Axes

theorem unit_le_step {step : Rat} (positive : 0 < step) : 1 ≤ step * 10 ^ labelPlaces step := by
  have size : Scalar.magnitude step = step := by
    rw [Scalar.magnitude_rat, abs_of_pos positive]
  have nonzero : (step == 0.0) = false := by
    rw [Scalar.zero_rat, beq_eq_false_iff_ne]
    exact positive.ne'
  simp only [labelPlaces, size, Scalar.one_rat, nonzero, Bool.false_eq_true, or_false]
  by_cases whole : 1 ≤ step
  · rw [if_pos whole, pow_zero, mul_one]
    exact whole
  · rw [if_neg whole]
    -- that many places reach the first digit of the step that is not zero
    have num : 0 < step.num := Rat.num_pos.mpr positive
    have digits := Digits.lt_count ((step.den - 1) / step.num.natAbs)
    rw [Nat.div_lt_iff_lt_mul (by omega)] at digits
    have den : step.den ≤ 10 ^ Fraction.leadingPlaces step * step.num.natAbs := by
      rw [Fraction.leadingPlaces]
      omega
    have parts : (step.den : Rat) ≤ 10 ^ Fraction.leadingPlaces step * step.num := by
      rw [← abs_of_pos num, Int.abs_eq_natAbs]
      exact_mod_cast den
    have filled : (0 : Rat) < step.den := Nat.cast_pos.mpr step.den_pos
    calc (1 : Rat) = step.den / step.den := (div_self filled.ne').symm
      _ ≤ 10 ^ Fraction.leadingPlaces step * step.num / step.den :=
        div_le_div_of_nonneg_right parts filled.le
      _ = step * 10 ^ Fraction.leadingPlaces step := by
        rw [mul_div_assoc, Rat.num_div_den, mul_comm]

def Rising (texts : List String) : Prop :=
  ∃ values : List Rat, texts.map (fun text => Fraction.read? text.toList) = values.map some ∧
    values.Pairwise (· < ·)

theorem Rising.nodup {texts : List String} (rising : Rising texts) : texts.Nodup := by
  obtain ⟨values, read, ordered⟩ := rising
  have apart : (values.map some).Nodup :=
    (ordered.imp fun less => less.ne).map some (fun _ _ other same => other (Option.some.inj same))
  rw [← read] at apart
  exact apart.of_map _

def tickTexts (low step : Rat) (ticks : Nat) : List String :=
  (List.range ticks).map fun k : Nat => valueText (low + step * k) step

/-- The step is one unit of the last place, and the low end falls halfway between two texts. Then
neighbours on either side of an even text meet there; of two ticks only, these may be the ends. -/
def Clash (low step : Rat) (ticks : Nat) : Prop :=
  step * 10 ^ labelPlaces step = 1 ∧
    ∃ k : Int, low * 10 ^ labelPlaces step = k + 1 / 2 ∧ (3 ≤ ticks ∨ k % 2 = 1)

section Ticks
variable {low step : Rat} {ticks : Nat}

theorem rising_iff_units : Rising (tickTexts low step ticks) ↔ ∀ i j : Nat, i < j → j < ticks →
    Fraction.units (labelPlaces step) (low + step * i) <
      Fraction.units (labelPlaces step) (low + step * j) := by
  have unit : (0 : Rat) < 10 ^ labelPlaces step := by positivity
  have read : (tickTexts low step ticks).map (fun text => Fraction.read? text.toList) =
      ((List.range ticks).map fun k : Nat =>
        (Fraction.units (labelPlaces step) (low + step * k) : Rat) / 10 ^ labelPlaces step).map
          some := by
    simp only [tickTexts, List.map_map]
    exact List.map_congr_left fun k _ => Fraction.read_fixed _ _
  constructor
  · rintro ⟨values, same, ordered⟩ i j before few
    rw [read, List.map_inj_right fun _ _ => Option.some.inj] at same
    rw [← same, List.pairwise_iff_getElem] at ordered
    have less := ordered i j (by simpa using before.trans few) (by simpa using few) before
    simp only [List.getElem_map, List.getElem_range, div_lt_div_iff_of_pos_right unit] at less
    exact_mod_cast less
  · intro less
    refine ⟨_, read, ?_⟩
    rw [List.pairwise_map]
    refine List.pairwise_lt_range.imp_of_mem ?_
    intro i j _ there before
    rw [div_lt_div_iff_of_pos_right unit]
    exact_mod_cast less i j before (List.mem_range.mp there)

variable (positive : 0 < step)
include positive

theorem rising_iff (room : 2 ≤ ticks) :
    Rising (tickTexts low step ticks) ↔ ¬ Clash low step ticks := by
  rw [rising_iff_units]
  generalize places : labelPlaces step = p
  have place (k : Nat) : (low + step * k) * 10 ^ p = low * 10 ^ p + step * 10 ^ p * k := by ring
  have nearest (k : Nat) : Rounding.NearestEven (low * 10 ^ p + step * 10 ^ p * k)
      (Fraction.units p (low + step * k)) := place k ▸ Fraction.units_nearest p _
  have unit := unit_le_step positive
  rw [places] at unit
  rw [Clash, places]
  constructor
  · rintro less ⟨one, k, half, several⟩
    rw [one] at nearest
    -- the first pair of neighbours on either side of an even text
    obtain ⟨i, even, inside⟩ : ∃ i : Nat, (k + i + 1) % 2 = 0 ∧ i + 1 < ticks := by
      by_cases odd : k % 2 = 1
      · exact ⟨0, by omega, by omega⟩
      · exact ⟨1, by omega, by omega⟩
    have below : |((k + i + 1 : Int) : Rat) - (low * 10 ^ p + 1 * (i : Nat))| = 1 / 2 := by
      have distance : ((k + i + 1 : Int) : Rat) - (low * 10 ^ p + 1 * (i : Nat)) = 1 / 2 := by
        rw [half]
        push_cast
        ring
      rw [distance, abs_of_pos one_half_pos]
    have above : |((k + i + 1 : Int) : Rat) - (low * 10 ^ p + 1 * (i + 1 : Nat))| = 1 / 2 := by
      have distance : ((k + i + 1 : Int) : Rat) - (low * 10 ^ p + 1 * (i + 1 : Nat)) = -(1 / 2) := by
        rw [half]
        push_cast
        ring
      rw [distance, abs_neg, abs_of_pos one_half_pos]
    have less := less i (i + 1) (Nat.lt_succ_self i) inside
    rw [(nearest i).eq_of_half even below, (nearest (i + 1)).eq_of_half even above] at less
    exact lt_irrefl _ less
  · intro clear i j before few
    have gap : (i : Rat) + 1 ≤ j := by exact_mod_cast before
    have apart : low * 10 ^ p + step * 10 ^ p * i + 1 ≤ low * 10 ^ p + step * 10 ^ p * j := by
      nlinarith
    rcases (nearest i).lt_or_meet (nearest j) apart with less | ⟨_, even, left, right⟩
    · exact less
    · -- they meet, so they are neighbours and their step is one unit
      exfalso
      apply clear
      have next : step * 10 ^ p * ((j : Rat) - i) = 1 := by linarith
      have one : step * 10 ^ p = 1 := by nlinarith
      rw [one, one_mul] at left
      refine ⟨one, Fraction.units p (low + step * i) - 1 - i, ?_, ?_⟩
      · push_cast
        linarith
      · omega

end Ticks

/-- The labels of both axes come first. For a range that spans, those of the rungs stand from the
foot of the plot up, and their texts differ and rise exactly if no neighbours meet. -/
def Legible (o : Options Rat) (s : Scene Rat) (written : List (Label Rat)) : Prop :=
  ∃ others, written = titleLabels o s ++ (columnLabels o s).map (beneath s) ++
      (rungLabels s).map (beside s) ++ others ∧
    ∀ low high, s.yScale.range = some (low, high) → low < high →
      let texts := (rungLabels s).map Prod.snd
      texts.length = rungTicks s ∧
      ((rungLabels s).map Prod.fst).Pairwise (· > ·) ∧
      (texts.Nodup ∧ Rising texts ↔
        ¬ Clash low (tickGap (high - low) (rungTicks s)) (rungTicks s))

theorem legible {o : Options Rat} {s : Scene Rat} {written : List (Label Rat)}
    (tall : 0 < s.box.height) (first : labels o s <+: written) : Legible o s written := by
  obtain ⟨others, rfl⟩ := first
  refine ⟨others, rfl, ?_⟩
  intro low high range spans
  have room := two_le_rungTicks s
  have positive : 0 < tickGap (high - low) (rungTicks s) :=
    div_pos (sub_pos.mpr spans) (parts_pos room)
  have rise : 0 < tickGap s.box.height (rungTicks s) := div_pos tall (parts_pos room)
  have texts : (rungLabels s).map Prod.snd =
      tickTexts low (tickGap (high - low) (rungTicks s)) (rungTicks s) := by
    rw [rungLabels_span range spans, List.map_map]
    rfl
  refine ⟨?_, ?_, ?_⟩
  · rw [texts, tickTexts, List.length_map, List.length_range]
  · rw [rungLabels_span range spans, List.map_map, List.pairwise_map]
    refine List.pairwise_lt_range.imp ?_
    intro i j before
    have less : (i : Rat) < j := by exact_mod_cast before
    exact sub_lt_sub_left (mul_lt_mul_of_pos_left less rise) _
  · rw [texts, ← rising_iff positive room]
    exact and_iff_right_of_imp Rising.nodup

end Axes

namespace Engine
variable {σ ρ : Type}

section Reachable
variable {backend : Backend ρ Rat} {screen : ρ} {config : Config σ Rat} {data : Dataset Rat}

variable (backend screen config data)

/-- In every full pass the texts of the ticks differ, and rise from the foot of the plot to its
head, exactly if their step is not one unit of the last place between ticks that fall halfway. -/
theorem ticks_told_apart :
    (∀ h ∈ openFrames backend screen config data, ∃ first,
      LaidOut backend screen config data first ∧ Axes.Legible first.options
        first.resolveScales.scene (Display.inkOf h.frame .main).labels) ∧
    ∀ e, openWith backend screen config data = .opened e →
      Axes.Legible e.options e.scene e.surfaces.canvas.ink.labels ∧
      ∀ calls c,
        ((e.run calls).settles c = true →
          Axes.Legible (e.run calls).options ((e.run calls).call c).engine.scene
            ((e.run calls).call c).engine.surfaces.canvas.ink.labels) ∧
        ∀ h ∈ (e.run calls).frames c, h.pass = .full →
          Axes.Legible (e.run calls).options ((e.run calls).call c).engine.scene
            (Display.inkOf h.frame .main).labels := by
  refine ⟨?_, ?_⟩
  · intro h handed
    obtain ⟨first, start, written⟩ := opening_headed handed
    exact ⟨first, start, Axes.legible start.tall written⟩
  intro e opened
  refine ⟨Axes.legible (reach_tall opened []) (opened_headed opened), ?_⟩
  intro calls c
  -- the plot keeps its height for life
  have passes (pass : (e.run calls).settles c = true) :
      0 < ((e.run calls).call c).engine.scene.box.height := by
    rw [settles_scene pass, show ((e.run calls).turn c).resolveScales.scene.box = _ from
      (turn_sameSetting (e.run calls) c).box]
    exact reach_tall opened calls
  constructor
  · intro pass
    exact Axes.legible (passes pass) (call_writes _ c pass).canvas
  · intro h handed full
    have pass := settles_of_full _ c h handed full
    exact Axes.legible (passes pass) ((call_writes _ c pass).frames h handed)

end Reachable

def halvesChart (high : Rat) : Opening Band (Recorder Rat) Rat :=
  openWith Recorder.backend .fresh (.standard (.ladder 400 300 ""))
    (.dense [1.0, 2.0] [[0.5], [high]] [[1.0], [2.0]] ⟨0.0, 2.0⟩)

def rungTexts (e : Engine Band (Recorder Rat) Rat) : List String :=
  (Axes.rungLabels e.scene).map Prod.snd

theorem spread_halves_told_apart : ∃ e, halvesChart 8.5 = .opened e ∧
    rungTexts e = ["0", "2", "4", "6", "8"] ∧
    (rungTexts e).Nodup ∧ Axes.Rising (rungTexts e) := by
  have evaluated : (halvesChart 8.5).passes (fun e =>
      decide (e.scene.yScale.range = some (1 / 2, 17 / 2) ∧ Axes.rungTicks e.scene = 5 ∧
        rungTexts e = ["0", "2", "4", "6", "8"])) = true := by
    decide +kernel
  obtain ⟨e, opened, test⟩ := (Opening.passes_iff _ _).mp evaluated
  obtain ⟨range, five, texts⟩ := of_decide_eq_true test
  obtain ⟨⟨_, _, apart⟩, _⟩ := (ticks_told_apart _ _ _ _).2 e opened
  refine ⟨e, opened, texts, (apart _ _ range (by norm_num)).2.2.mpr ?_⟩
  rintro ⟨one, _⟩
  rw [five] at one
  exact absurd one (by decide +kernel)

/-- In steps of one they meet in pairs. -/
theorem close_halves_meet : ∃ e low high, halvesChart 4.5 = .opened e ∧
    e.scene.yScale.range = some (low, high) ∧ low < high ∧
    rungTexts e = ["0", "2", "2", "4", "4"] ∧
    ¬ (rungTexts e).Nodup ∧ ¬ Axes.Rising (rungTexts e) := by
  have evaluated : (halvesChart 4.5).passes (fun e =>
      decide (e.scene.yScale.range = some (1 / 2, 9 / 2) ∧
        rungTexts e = ["0", "2", "2", "4", "4"])) = true := by
    decide +kernel
  obtain ⟨e, opened, test⟩ := (Opening.passes_iff _ _).mp evaluated
  obtain ⟨range, texts⟩ := of_decide_eq_true test
  have met : ¬ (rungTexts e).Nodup := by
    rw [texts]
    decide
  exact ⟨e, _, _, opened, range, by norm_num, texts, met, fun rising => met rising.nodup⟩

end Engine
end LadderChart
