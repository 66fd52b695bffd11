import LadderChart.Data.Records
import LadderChart.Proofs.Data.Extent
import LadderChart.Proofs.Data.Valid
import Mathlib.Data.List.Pairwise

/-!
A dataset made of records. Finite times are in the order of their values, so records are sorted by
a total order and what a stable sort promises holds: nothing is lost, the times ascend, and records
of one time keep their order. The three columns are read off the same sorted records.
-/

namespace LadderChart

/-- Finite numbers, and one weight for each rung. -/
structure Record.Sound (r : Record Float) : Prop where
  timestamp : r.timestamp.isFinite = true
  paired : r.rungs.length = r.weights.length
  finite : ∀ x ∈ r.rungs ++ r.weights, x.isFinite = true

theorem Record.sound_iff (r : Record Float) : r.timestamp.isFinite = true ∧
    r.rungs.length = r.weights.length ∧ (∀ x ∈ r.rungs ++ r.weights, x.isFinite = true) ↔ r.Sound :=
  ⟨fun ⟨timestamp, paired, finite⟩ => ⟨timestamp, paired, finite⟩,
    fun sound => ⟨sound.timestamp, sound.paired, sound.finite⟩⟩

instance (r : Record Float) : Decidable r.Sound := decidable_of_iff _ r.sound_iff

/-- The same records by time, those of one time in the order in which they came. -/
structure StablySorted (records ordered : List (Record Float)) : Prop where
  perm : ordered.Perm records
  ascending : ordered.Pairwise fun a b => a.timestamp ≤ b.timestamp
  stable : ∀ t : Float, ordered.filter (·.timestamp == t) = records.filter (·.timestamp == t)

def ColorRange.agrees {α : Type} [Scalar α] (r s : ColorRange α) : Bool :=
  r.low == s.low && r.high == s.high

/-- Datasets that compare equal: numbers are compared as numbers, so that the two zeros agree. -/
def Dataset.agrees {α : Type} [Scalar α] (d e : Dataset α) : Bool :=
  d.series == e.series && d.ladders == e.ladders && d.weights == e.weights &&
    d.colorRange.agrees e.colorRange

/-- The range that was given, or else the smallest and the largest weight; without a weight the
range is zero. -/
def Record.Ranged (records : List (Record Float)) : Option (ColorRange Float) → ColorRange Float → Prop
  | some given, range => range = given
  | none, range =>
      records.flatMap (·.weights) = [] ∧ range = .zero ∨
        Extent.Spans (records.flatMap (·.weights)) (some (range.low, range.high))

/-- Column by column the records in the order of time. -/
structure Dataset.Gathers (d : Dataset Float) (records : List (Record Float))
    (given : Option (ColorRange Float)) : Prop where
  valid : d.check = .ok ()
  columns : ∃ ordered, StablySorted records ordered ∧ d.series = ordered.map (·.timestamp) ∧
    d.ladders = ordered.map (fun r => some r.rungs) ∧
    d.weights = ordered.map (fun r => some r.weights)
  range : Record.Ranged records given d.colorRange

namespace Dataset

/-! ### The order of time -/

def byValue (a b : Record Float) : Bool :=
  decide (Scalar.value a.timestamp ≤ Scalar.value b.timestamp)

theorem byValue_trans (a b c : Record Float) (first : byValue a b = true)
    (second : byValue b c = true) : byValue a c = true := by
  simp only [byValue, decide_eq_true_eq] at first second ⊢
  exact first.trans second

theorem byValue_total (a b : Record Float) : (byValue a b || byValue b a) = true := by
  simp only [byValue, Bool.or_eq_true, decide_eq_true_eq]
  exact le_total _ _

theorem value_of_same {x y t : Float} (finiteX : x.isFinite = true) (finiteY : y.isFinite = true)
    (first : (x == t) = true) (second : (y == t) = true) : Scalar.value x = Scalar.value y := by
  obtain ⟨r, rankX, rankT⟩ := (float_beq_iff x t).mp first
  obtain ⟨s, rankY, rankT'⟩ := (float_beq_iff y t).mp second
  have same : r = s := Option.some.inj (rankT.symm.trans rankT')
  exact (float_beq_iff_value finiteX finiteY).mp
    ((float_beq_iff x y).mpr ⟨r, rankX, same ▸ rankY⟩)

section Sorted
variable {records : List (Record Float)}
  (finite : ∀ r ∈ records, r.timestamp.isFinite = true)
include finite

theorem inOrder_eq : inOrder records = records.mergeSort byValue := by
  have same := List.map_mergeSort (r := fun a b : Record Float =>
    !decide (b.timestamp < a.timestamp)) (s := byValue) (f := id) (l := records) (by
      intro a first b second
      have order := float_lt_iff_value (finite b second) (finite a first)
      simp only [byValue, order, id, ← decide_not, not_lt])
  rwa [List.map_id, List.map_id] at same

theorem inOrder_ascending :
    (inOrder records).Pairwise fun a b => a.timestamp ≤ b.timestamp := by
  rw [inOrder_eq finite]
  have perm := List.mergeSort_perm records byValue
  refine (List.pairwise_mergeSort byValue_trans byValue_total records).imp_of_mem ?_
  intro a b first second less
  rw [float_le_iff_value (finite a (perm.mem_iff.mp first)) (finite b (perm.mem_iff.mp second))]
  exact of_decide_eq_true less

/-- Records of one time are in order as they stand, so the sort leaves them where they are. -/
theorem filter_inOrder (t : Float) :
    (inOrder records).filter (·.timestamp == t) = records.filter (·.timestamp == t) := by
  rw [inOrder_eq finite]
  have level : (records.filter (·.timestamp == t)).Pairwise fun a b => byValue a b = true := by
    refine List.pairwise_of_forall_mem_list ?_
    intro a first b second
    obtain ⟨insideA, atA⟩ := List.mem_filter.mp first
    obtain ⟨insideB, atB⟩ := List.mem_filter.mp second
    exact decide_eq_true (value_of_same (finite a insideA) (finite b insideB) atA atB).le
  have kept := (List.sublist_mergeSort byValue_trans byValue_total level
    List.filter_sublist).filter (·.timestamp == t)
  rw [List.filter_filter] at kept
  simp only [Bool.and_self] at kept
  exact (kept.eq_of_length
    ((List.mergeSort_perm records byValue).filter _).length_eq.symm).symm

theorem inOrder_sorted : StablySorted records (inOrder records) where
  perm := List.mergeSort_perm records _
  ascending := inOrder_ascending finite
  stable := filter_inOrder finite

end Sorted

theorem apart_symm : Std.Symm fun a b : Record Float => (a.timestamp == b.timestamp) = false where
  symm a b apart := by
    rw [← Bool.not_eq_true, float_beq_iff] at apart ⊢
    rintro ⟨r, rankB, rankA⟩
    exact apart ⟨r, rankA, rankB⟩

/-- Without two records of one time there is one order. -/
theorem inOrder_unique {records shuffled : List (Record Float)}
    (finite : ∀ r ∈ records, r.timestamp.isFinite = true) (perm : shuffled.Perm records)
    (apart : records.Pairwise fun a b => (a.timestamp == b.timestamp) = false) :
    inOrder shuffled = inOrder records := by
  have finite' : ∀ r ∈ shuffled, r.timestamp.isFinite = true :=
    fun r member => finite r (perm.mem_iff.mp member)
  have first := inOrder_sorted finite'
  have second := inOrder_sorted finite
  refine List.Perm.eq_of_pairwise ?_ first.ascending second.ascending
    ((first.perm.trans perm).trans second.perm.symm)
  intro a b memberA memberB up down
  have insideA := perm.mem_iff.mp (first.perm.mem_iff.mp memberA)
  have insideB := second.perm.mem_iff.mp memberB
  rw [float_le_iff_value (finite a insideA) (finite b insideB)] at up
  rw [float_le_iff_value (finite b insideB) (finite a insideA)] at down
  by_contra distinct
  have same := (float_beq_iff_value (finite a insideA) (finite b insideB)).mpr (le_antisymm up down)
  have symm := apart_symm
  rw [apart.forall insideA insideB distinct] at same
  cases same

/-! ### The batch -/

theorem checkTimes_eq_ok (records : List (Record Float)) :
    checkTimes records = .ok () ↔ ∀ r ∈ records, r.timestamp.isFinite = true := by
  induction records with
  | nil => simp [checkTimes]
  | cons r rest ih =>
      simp only [checkTimes, both_eq_ok, refuseIf_eq_ok, ih, List.forall_mem_cons,
        Bool.not_eq_false']
      rfl

/-- The range with which a batch is assembled. -/
def rangeFor (records : List (Record Float)) :
    Option (ColorRange Float) → Except Fault (ColorRange Float)
  | some range => .ok range
  | none => observedRange records

theorem ofRecords_eq_ok (records : List (Record Float)) (given : Option (ColorRange Float))
    (d : Dataset Float) : ofRecords records given = .ok d ↔
      checkTimes records = .ok () ∧ ∃ range, rangeFor records given = .ok range ∧
        (assemble (inOrder records) range).check = .ok () ∧
        d = assemble (inOrder records) range := by
  have unfolded : ofRecords records given = (checkTimes records).bind fun _ =>
      (rangeFor records given).bind fun range =>
        (assemble (inOrder records) range).check.bind fun _ =>
          .ok (assemble (inOrder records) range) := by
    cases given <;> rfl
  rw [unfolded]
  cases times : checkTimes records with
  | error fault => simp [Except.bind]
  | ok done =>
      cases found : rangeFor records given with
      | error fault => simp [Except.bind]
      | ok range =>
          cases checked : (assemble (inOrder records) range).check with
          | error fault => simp [Except.bind, checked]
          | ok done => simp [Except.bind, checked, eq_comm]

theorem check_assemble (ordered : List (Record Float)) (range : ColorRange Float) :
    (assemble ordered range).check = .ok () ↔ range.check = .ok () ∧ ∀ r ∈ ordered, r.Sound := by
  have zipped : (ordered.map fun r => some r.rungs).zip (ordered.map fun r => some r.weights) =
      ordered.map fun r => (some r.rungs, some r.weights) := List.zip_map'
  have columns : (assemble ordered range).ladders.zip (assemble ordered range).weights =
      ordered.map fun r => (some r.rungs, some r.weights) := by
    simpa [assemble, dense, Function.comp_def] using zipped
  rw [check_eq_ok, ColorRange.check_eq_ok]
  constructor
  · intro valid
    refine ⟨valid.colors, ?_⟩
    intro r member
    have column := valid.columns (some r.rungs, some r.weights)
      (columns ▸ List.mem_map_of_mem member)
    exact ⟨valid.series _ (List.mem_map_of_mem member), column.1, column.2⟩
  · rintro ⟨colors, sound⟩
    refine ⟨colors, by simp [assemble, dense, length], by simp [assemble, dense, length], ?_, ?_⟩
    · intro column member
      rw [columns] at member
      obtain ⟨r, inside, rfl⟩ := List.mem_map.mp member
      exact ⟨(sound r inside).paired, (sound r inside).finite⟩
    · intro x member
      obtain ⟨r, inside, rfl⟩ := List.mem_map.mp member
      exact (sound r inside).timestamp

end Dataset

/-! ### The colour range -/

namespace Record
variable {records : List (Record Float)} (sound : ∀ r ∈ records, r.Sound)
include sound

theorem weights_finite : ∀ x ∈ records.flatMap (·.weights), x.isFinite = true := by
  intro x member
  obtain ⟨r, inside, weight⟩ := List.mem_flatMap.mp member
  exact (sound r inside).finite x (List.mem_append_right _ weight)

theorem rangeFor_found (given : Option (ColorRange Float))
    (made : ∀ range ∈ given, range.check = .ok ()) :
    ∃ range, Dataset.rangeFor records given = .ok range ∧ range.check = .ok () ∧
      Ranged records given range := by
  cases given with
  | some range => exact ⟨range, rfl, made range rfl, rfl⟩
  | none =>
      have finite := weights_finite sound
      have spans := Extent.of_spans _ fun x member => Scalar.Ordered.number_of_finite (finite x member)
      have proper := Extent.of_proper _ finite
      cases found : Extent.of (records.flatMap (·.weights)) with
      | none =>
          rw [found] at spans
          refine ⟨.zero, ?_, by decide, .inl ⟨spans, rfl⟩⟩
          simp [Dataset.rangeFor, Dataset.observedRange, found]
      | some bounds =>
          obtain ⟨low, high⟩ := bounds
          rw [found] at spans proper
          obtain ⟨finiteLow, finiteHigh, ordered⟩ := proper
          rw [float_le_iff_value finiteLow finiteHigh, ← not_lt,
            ← float_lt_iff_value finiteHigh finiteLow] at ordered
          have checked : (⟨low, high⟩ : ColorRange Float).check = .ok () :=
            (ColorRange.check_eq_ok _).mpr ⟨finiteLow, finiteHigh, ordered⟩
          refine ⟨⟨low, high⟩, ?_, checked, .inr spans⟩
          simp [Dataset.rangeFor, Dataset.observedRange, found, ColorRange.make, checked, bind,
            Except.bind, pure, Except.pure]

theorem Ranged.agrees {shuffled : List (Record Float)} (perm : shuffled.Perm records)
    {given : Option (ColorRange Float)} {r s : ColorRange Float} (checked : r.check = .ok ())
    (first : Ranged records given r) (second : Ranged shuffled given s) : s.agrees r = true := by
  obtain ⟨finiteLow, finiteHigh, _⟩ := (ColorRange.check_eq_ok r).mp checked
  have weights : (shuffled.flatMap (·.weights)).Perm (records.flatMap (·.weights)) :=
    perm.flatMap_right _
  have self : r.agrees r = true := by
    simp only [ColorRange.agrees, Bool.and_eq_true]
    exact ⟨float_beq_self finiteLow, float_beq_self finiteHigh⟩
  cases given with
  | some range =>
      have same : s = r := second.trans first.symm
      rwa [same]
  | none =>
      rcases first with ⟨empty, rfl⟩ | ⟨lowIn, highIn, between⟩
      · rcases second with ⟨_, rfl⟩ | ⟨lowIn, _, _⟩
        · exact self
        · rw [weights.mem_iff, empty] at lowIn
          cases lowIn
      · rcases second with ⟨empty, rfl⟩ | ⟨lowIn', highIn', between'⟩
        · rw [← weights.mem_iff, empty] at lowIn
          cases lowIn
        · have finite := weights_finite sound
          have finiteLow' := finite _ (weights.mem_iff.mp lowIn')
          have finiteHigh' := finite _ (weights.mem_iff.mp highIn')
          -- each bound is a weight of the other batch, so it lies between the bounds there
          have lowUp := (between' r.low (weights.mem_iff.mpr lowIn)).1
          have lowDown := (between s.low (weights.mem_iff.mp lowIn')).1
          have highUp := (between s.high (weights.mem_iff.mp highIn')).2
          have highDown := (between' r.high (weights.mem_iff.mpr highIn)).2
          rw [float_le_iff_value finiteLow' finiteLow] at lowUp
          rw [float_le_iff_value finiteLow finiteLow'] at lowDown
          rw [float_le_iff_value finiteHigh' finiteHigh] at highUp
          rw [float_le_iff_value finiteHigh finiteHigh'] at highDown
          simp only [ColorRange.agrees, Bool.and_eq_true]
          exact ⟨(float_beq_iff_value finiteLow' finiteLow).mpr (le_antisymm lowUp lowDown),
            (float_beq_iff_value finiteHigh' finiteHigh).mpr (le_antisymm highUp highDown)⟩

end Record

/-! ### Records to dataset -/

theorem beq_list_self {τ : Type} [BEq τ] {xs : List τ} (each : ∀ x ∈ xs, (x == x) = true) :
    (xs == xs) = true := by
  induction xs with
  | nil => rfl
  | cons x xs ih =>
      rw [List.forall_mem_cons] at each
      rw [List.cons_beq_cons, each.1, ih each.2, Bool.and_self]

namespace Dataset

theorem assemble_agrees {ordered : List (Record Float)} (sound : ∀ r ∈ ordered, r.Sound)
    {range range' : ColorRange Float} (same : range'.agrees range = true) :
    (assemble ordered range').agrees (assemble ordered range) = true := by
  have numbers : ∀ xs : List Float, (∀ x ∈ xs, x.isFinite = true) → (some xs == some xs) = true :=
    fun xs finite => beq_list_self fun x member => float_beq_self (finite x member)
  simp only [agrees, assemble, dense, same, Bool.and_true, Bool.and_eq_true]
  refine ⟨⟨beq_list_self ?_, beq_list_self ?_⟩, beq_list_self ?_⟩
  · intro t member
    obtain ⟨r, inside, rfl⟩ := List.mem_map.mp member
    exact float_beq_self (sound r inside).timestamp
  · intro rungs member
    obtain ⟨_, there, rfl⟩ := List.mem_map.mp member
    obtain ⟨r, inside, rfl⟩ := List.mem_map.mp there
    exact numbers r.rungs fun x rung => (sound r inside).finite x (List.mem_append_left _ rung)
  · intro weights member
    obtain ⟨_, there, rfl⟩ := List.mem_map.mp member
    obtain ⟨r, inside, rfl⟩ := List.mem_map.mp there
    exact numbers r.weights fun x weight => (sound r inside).finite x (List.mem_append_right _ weight)

section Batch
variable {records : List (Record Float)} {given : Option (ColorRange Float)}

theorem ofRecords_sound {d : Dataset Float} (built : ofRecords records given = .ok d) :
    ∀ r ∈ records, r.Sound := by
  obtain ⟨_, range, _, checked, _⟩ := (ofRecords_eq_ok records given d).mp built
  intro r member
  exact ((check_assemble _ range).mp checked).2 r ((List.mergeSort_perm records _).mem_iff.mpr member)

theorem ofRecords_built (sound : ∀ r ∈ records, r.Sound)
    (made : ∀ range ∈ given, range.check = .ok ()) :
    ∃ range, ofRecords records given = .ok (assemble (inOrder records) range) ∧
      (assemble (inOrder records) range).check = .ok () ∧ range.check = .ok () ∧
      Record.Ranged records given range := by
  obtain ⟨range, found, checked, ranged⟩ := Record.rangeFor_found sound given made
  have times := (checkTimes_eq_ok records).mpr fun r member => (sound r member).timestamp
  have accepted := (check_assemble (inOrder records) range).mpr ⟨checked, fun r member =>
    sound r ((List.mergeSort_perm records _).mem_iff.mp member)⟩
  exact ⟨range, (ofRecords_eq_ok _ _ _).mpr ⟨times, range, found, accepted, rfl⟩, accepted, checked,
    ranged⟩

theorem ofRecords_gathers {d : Dataset Float} (made : ∀ range ∈ given, range.check = .ok ())
    (built : ofRecords records given = .ok d) : d.Gathers records given := by
  have sound := ofRecords_sound built
  obtain ⟨range, same, accepted, _, ranged⟩ := ofRecords_built sound made
  obtain rfl : d = assemble (inOrder records) range := Except.ok.inj (built.symm.trans same)
  have sorted := inOrder_sorted fun r member => (sound r member).timestamp
  refine ⟨accepted, ⟨inOrder records, sorted, rfl, ?_, ?_⟩, ranged⟩
  · simp [assemble, dense]
  · simp [assemble, dense]

theorem ofRecords_shuffled {shuffled : List (Record Float)} {d : Dataset Float}
    (made : ∀ range ∈ given, range.check = .ok ())
    (apart : records.Pairwise fun a b => (a.timestamp == b.timestamp) = false)
    (perm : shuffled.Perm records) (built : ofRecords records given = .ok d) :
    ∃ d', ofRecords shuffled given = .ok d' ∧ d'.agrees d = true := by
  have sound := ofRecords_sound built
  obtain ⟨range, same, _, checked, ranged⟩ := ofRecords_built sound made
  obtain rfl : d = assemble (inOrder records) range := Except.ok.inj (built.symm.trans same)
  obtain ⟨range', built', _, _, ranged'⟩ :=
    ofRecords_built (fun r member => sound r (perm.mem_iff.mp member)) made
  rw [inOrder_unique (fun r member => (sound r member).timestamp) perm apart] at built'
  refine ⟨_, built', assemble_agrees ?_ (ranged.agrees sound perm checked ranged')⟩
  intro r member
  exact sound r ((List.mergeSort_perm records _).mem_iff.mp member)

/-- A batch becomes a dataset exactly if its records are sound. The dataset holds the records in the
order of time, whatever order they came in. -/
theorem records_gathered (records : List (Record Float)) (given : Option (ColorRange Float))
    (made : ∀ range ∈ given, range.check = .ok ()) :
    ((∃ d, ofRecords records given = .ok d) ↔ ∀ r ∈ records, r.Sound) ∧
    (∀ d, ofRecords records given = .ok d → d.Gathers records given) ∧
    (records.Pairwise (fun a b => (a.timestamp == b.timestamp) = false) →
      ∀ shuffled d, shuffled.Perm records → ofRecords records given = .ok d →
        ∃ d', ofRecords shuffled given = .ok d' ∧ d'.agrees d = true) := by
  refine ⟨⟨?_, ?_⟩, ?_, ?_⟩
  · rintro ⟨d, built⟩
    exact ofRecords_sound built
  · intro sound
    obtain ⟨range, built, _⟩ := ofRecords_built sound made
    exact ⟨_, built⟩
  · intro d built
    exact ofRecords_gathers made built
  · intro apart shuffled d perm built
    exact ofRecords_shuffled made apart perm built

end Batch

/-- A batch out of order, with two records of one time and both zeros. -/
def mixedRecords : List (Record Float) :=
  [⟨20.0, [5.0], [2.0]⟩, ⟨0.0, [1.0, 2.0], [1.0, 9.0]⟩, ⟨-0.0, [], []⟩, ⟨10.0, [3.0], [-4.0]⟩]

theorem mixed_records_gathered :
    (∀ range ∈ some (⟨-4.0, 9.0⟩ : ColorRange Float), range.check = .ok ()) ∧
    ∃ d, ofRecords mixedRecords (some ⟨-4.0, 9.0⟩) = .ok d ∧
      d.Gathers mixedRecords (some ⟨-4.0, 9.0⟩) := by
  have made : ∀ range ∈ some (⟨-4.0, 9.0⟩ : ColorRange Float), range.check = .ok () := by
    intro range same
    obtain rfl := Option.some.inj same
    decide
  obtain ⟨sound, gathers, _⟩ := records_gathered mixedRecords _ made
  obtain ⟨d, built⟩ := sound.mpr (by decide)
  exact ⟨made, d, built, gathers d built⟩

end Dataset
end LadderChart
