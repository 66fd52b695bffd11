import LadderChart.Engine.Snapshot
import LadderChart.Proofs.Chart.OptionsText
import LadderChart.Proofs.Engine.Sound
import LadderChart.Proofs.Plot.Charted

/-!
Snapshots written as text and read again. Apart from the pointer and the elements of the overlay,
which may be anything, all numbers of a reachable engine are finite, and its window is one that a
text can give.
-/

namespace LadderChart

open Json

/-! ### Parts -/

theorem Json.kept_index (n : Nat) (fits : n ≤ Scalar.largestIndex) : Kept index? (.nat n) n :=
  kept_nat Scalar.largestIndex n fits

theorem Json.kept_pair (p : Float × Float) (holds : Holds [p.1, p.2]) :
    Kept (pair? double?) (.ofPair p) p where
  written := by
    apply Written.list
    simp [written_double]
  back := by
    have back := holds.back
    simp only [List.forall_mem_cons] at back
    simp [pair?, ofPair, back]

theorem Viewport.kept (v : Viewport) : Kept Viewport.ofJson? v.toJson v where
  written := by
    apply Written.record
    simp [(kept_word _).written]
  back := by
    simp [ofJson?, toJson, fields?_record, Fields.required, Fields.get?, List.lookup,
      (kept_word _).back]

def Box.doubles (b : Box Float) : List Float := [b.left, b.top, b.width, b.height]

theorem Box.kept (b : Box Float) (holds : Holds b.doubles) : Kept Box.ofJson? b.toJson b where
  written := by
    apply Written.record
    simp [written_double]
  back := by
    have back := holds.back
    simp only [doubles, List.forall_mem_cons] at back
    simp [ofJson?, toJson, fields?_record, Fields.required, Fields.get?, List.lookup, back]

theorem Window.kept (w : Window) (fits : w.last ≤ Scalar.largestIndex) :
    Kept Window.ofJson? w.toJson w := by
  have first := kept_nat Scalar.largestIndex w.first (w.ordered.trans fits)
  have last := kept_nat Scalar.largestIndex w.last fits
  constructor
  · apply Written.record
    simp [first.written, last.written]
  · simp [ofJson?, toJson, fieldNames, fields?_record, Fields.required, Fields.get?, List.lookup,
      first.back, last.back, w.ordered]

def pairDoubles : Option (Float × Float) → List Float
  | some p => [p.1, p.2]
  | none => []

theorem Json.kept_optional_pair (p : Option (Float × Float)) (holds : Holds (pairDoubles p)) :
    Kept (Fields.nullable (pair? double?)) (.optional .ofPair p) p := by
  apply kept_optional
  rintro pair rfl
  exact ⟨kept_pair pair holds, by simp [ofPair]⟩

theorem Scale.kept (s : Scale Float) (holds : Holds (pairDoubles s.range)) :
    Kept Scale.ofJson? s.toJson s := by
  have range := kept_optional_pair s.range holds
  constructor
  · apply Written.record
    simp [range.written, s.distribution.kept.written]
  · simp [ofJson?, toJson, fields?_record, Fields.required, Fields.optional, Fields.get?,
      List.lookup, range.back, s.distribution.kept.back]

theorem Cursor.kept (c : Cursor Float) (holds : Holds (pairDoubles c.pointer))
    (fits : ∀ index, c.index = some index → index ≤ Scalar.largestIndex) :
    Kept Cursor.ofJson? c.toJson c := by
  have pointer := kept_optional_pair c.pointer holds
  have index : Kept (Fields.nullable index?) (.optional .nat c.index) c.index := by
    apply kept_optional
    intro index hovered
    exact ⟨kept_index index (fits index hovered), by simp [nat]⟩
  constructor
  · apply Written.record
    simp [pointer.written, index.written]
  · simp [ofJson?, toJson, fields?_record, Fields.optional, Fields.get?, List.lookup,
      pointer.back, index.back]

def Element.doubles (e : Element Float) : List Float := e.offset :: e.width :: e.fill.doubles

theorem Element.kept (e : Element Float) (holds : Holds e.doubles) :
    Kept Element.ofJson? e.toJson e := by
  have fill := e.fill.kept fun x member => holds x (by simp [doubles, member])
  have name : Kept (Fields.nullable string?) (.optional .string e.className) e.className := by
    apply kept_optional
    intro name _
    exact ⟨kept_string name, by simp [string]⟩
  have back := holds.back
  simp only [doubles, List.forall_mem_cons] at back
  constructor
  · apply Written.record
    simp [name.written, fill.written, Written.bool, written_double]
  · simp [ofJson?, toJson, fields?_record, Fields.required, Fields.optional, Fields.get?,
      List.lookup, name.back, fill.back, (kept_bool _).back, back]

namespace Snapshot

def doubles (s : Snapshot Float) : List Float :=
  s.pixelRatio :: s.colorRange.1 :: s.colorRange.2 :: s.box.doubles ++ pairDoubles s.xScale.range
    ++ pairDoubles s.yScale.range ++ pairDoubles s.cursor.pointer ++ s.overlay.flatMap Element.doubles

/-- Every index is a word. -/
structure Words (s : Snapshot Float) : Prop where
  length : s.length ≤ Scalar.largestIndex
  window : ∀ w, s.window = some w → w.last ≤ Scalar.largestIndex
  cursor : ∀ index, s.cursor.index = some index → index ≤ Scalar.largestIndex
  ink : ∀ entry ∈ s.ink.entries, entry.2 ≤ Scalar.largestIndex

theorem kept (s : Snapshot Float) (holds : Holds s.doubles) (words : s.Words) :
    Kept Snapshot.ofJson? s.toJson s := by
  have part : ∀ xs : List Float, (∀ x ∈ xs, x ∈ s.doubles) → Holds xs := fun xs inside x member =>
    holds x (inside x member)
  have ratio := holds.kept s.pixelRatio (by simp [doubles])
  have box := s.box.kept (part _ (by simp +contextual [doubles]))
  have length := kept_index s.length words.length
  have range := kept_pair s.colorRange (part _ (by simp [doubles]))
  have window : Kept (Fields.nullable Window.ofJson?) (.optional Window.toJson s.window) s.window := by
    apply kept_optional
    intro w shown
    exact ⟨w.kept (words.window w shown), by simp [Window.toJson, record]⟩
  have xScale := s.xScale.kept (part _ (by simp +contextual [doubles]))
  have yScale := s.yScale.kept (part _ (by simp +contextual [doubles]))
  have cursor := s.cursor.kept (part _ (by simp +contextual [doubles])) words.cursor
  have ids := kept_list s.pluginIds fun id _ => kept_string id
  have overlay := kept_list s.overlay fun e member => e.kept (part _ fun x inside => by
    simp only [doubles, List.mem_append, List.mem_flatMap]
    exact .inr ⟨e, member, inside⟩)
  have ink := s.ink.kept fun entry member => kept_index entry.2 (words.ink entry member)
  constructor
  · apply Written.record
    simp [s.viewport.kept.written, ratio.written, box.written, length.written, range.written,
      window.written, xScale.written, yScale.written, cursor.written, ids.written, overlay.written,
      ink.written]
  · apply read_then (fields?_record _ _ (by rfl) (by decide))
    apply read_then (Fields.required_found (by rfl) s.viewport.kept.back)
    apply read_then (Fields.required_found (by rfl) ratio.back)
    apply read_then (Fields.required_found (by rfl) box.back)
    apply read_then (Fields.required_found (by rfl) length.back)
    apply read_then (Fields.required_found (by rfl) range.back)
    apply read_then (Fields.optional_found (by rfl) window.back)
    apply read_then (Fields.required_found (by rfl) xScale.back)
    apply read_then (Fields.required_found (by rfl) yScale.back)
    apply read_then (Fields.required_found (by rfl) cursor.back)
    apply read_then (Fields.required_found (by rfl) ids.back)
    apply read_then (Fields.required_found (by rfl) overlay.back)
    apply read_then (Fields.required_found (by rfl) ink.back)
    rfl

theorem ofText?_toText (s : Snapshot Float) (holds : Holds s.doubles) (words : s.Words) :
    ofText? s.toText = some s := by
  have kept := s.kept holds words
  rw [ofText?, toText, ofString?_pretty s.toJson kept.written, Option.bind_some, kept.back]

end Snapshot

namespace Engine
variable {σ ρ : Type}

theorem range_finite {range : Option (Float × Float)} (proper : Extent.Proper range) :
    ∀ x ∈ pairDoubles range, x.isFinite = true := by
  cases range with
  | none => exact nofun
  | some bounds =>
      have finite : bounds.1.isFinite = true ∧ bounds.2.isFinite = true := ⟨proper.1, proper.2.1⟩
      simp [pairDoubles, finite]

/-- The pointer goes where it likes and the overlay shows what it is told; all other numbers are
finite. -/
theorem snapshot_finite {e : Engine σ ρ Float} (sound : Sound e) (charted : e.scene.Charted)
    (pointer : ∀ p, e.scene.cursor.pointer = some p → p.1.isFinite = true ∧ p.2.isFinite = true)
    (overlay : ∀ x ∈ e.surfaces.under.elements.flatMap Element.doubles, x.isFinite = true) :
    ∀ x ∈ e.snapshot.doubles, x.isFinite = true := by
  have colors := ((Dataset.check_eq_ok e.scene.data).mp sound.data).colors
  have low : e.scene.data.colorRange.low.isFinite = true := colors.1
  have high : e.scene.data.colorRange.high.isFinite = true := colors.2.1
  have box : ∀ x ∈ e.scene.box.doubles, x.isFinite = true := by
    simp [Box.doubles, charted.left.finite, charted.top.finite, charted.width.finite,
      charted.height.finite]
  have position : ∀ x ∈ pairDoubles e.scene.cursor.pointer, x.isFinite = true := by
    cases there : e.scene.cursor.pointer with
    | none => exact nofun
    | some p => simp [pairDoubles, pointer p there]
  have ratio := charted.ratio.finite
  have xRange := range_finite sound.xRange
  have yRange := range_finite sound.yRange
  simp only [Snapshot.doubles, snapshot, List.forall_mem_append, List.forall_mem_cons]
  exact ⟨⟨⟨⟨⟨ratio, low, high, box⟩, xRange⟩, yRange⟩, position⟩, overlay⟩

theorem snapshot_words {e : Engine σ ρ Float} (sound : Sound e)
    (words : e.scene.data.length ≤ Scalar.largestIndex)
    (ink : ∀ entry ∈ e.snapshot.ink.entries, entry.2 ≤ Scalar.largestIndex) :
    e.snapshot.Words where
  length := words
  window := fun w shown => ((sound.window_inside w shown).trans_le words).le
  cursor := by
    intro index hovered
    obtain ⟨⟨w, shown, inside⟩, _⟩ := sound.cursor index hovered
    have last := sound.window_inside w shown
    simp only [Window.contains, Bool.and_eq_true, decide_eq_true_eq] at inside
    omega
  ink := ink

/-- The snapshot of a reachable engine is read back from its text, whatever its plugins do, as long
as pointer and overlay are finite. Lengths and counts are words of 64 bits. -/
theorem snapshot_round_trip {backend : Backend ρ Float} {screen : ρ} {config : Config σ Float}
    {data : Dataset Float} {e : Engine σ ρ Float}
    (opened : openWith backend screen config data = .opened e)
    (words : data.length ≤ Scalar.largestIndex) (calls : List (Call Float))
    (fits : ∀ data, Call.setData data ∈ calls → data.length ≤ Scalar.largestIndex)
    (pointer : ∀ p, (e.run calls).scene.cursor.pointer = some p →
      p.1.isFinite = true ∧ p.2.isFinite = true)
    (overlay : ∀ x ∈ (e.run calls).surfaces.under.elements.flatMap Element.doubles,
      x.isFinite = true)
    (ink : ∀ entry ∈ (e.run calls).snapshot.ink.entries, entry.2 ≤ Scalar.largestIndex)
    (exact : ∀ x ∈ (e.run calls).snapshot.doubles, Literal.ReadsBack x) :
    Snapshot.ofText? (e.run calls).snapshot.toText = some (e.run calls).snapshot := by
  obtain ⟨sound, short⟩ := reach_sound_words opened words calls fits
  have finite := snapshot_finite sound (reach_charted opened calls) pointer overlay
  exact Snapshot.ofText?_toText _ (fun x member => ⟨finite x member, exact x member⟩)
    (snapshot_words sound short ink)

/-- The pointer over the second column: a band is shown, and the last pass left ink. -/
theorem two_columns_snapshot : ∃ e, twoColumnChart = .opened e ∧
    Snapshot.ofText? (e.run [.move 1300.0 100.0]).snapshot.toText =
      some (e.run [.move 1300.0 100.0]).snapshot := by
  have evaluated : twoColumnChart.passes (fun e =>
      decide (∀ p ∈ (e.run [.move 1300.0 100.0]).scene.cursor.pointer,
        p.1.isFinite = true ∧ p.2.isFinite = true) &&
      ((e.run [.move 1300.0 100.0]).surfaces.under.elements.flatMap Element.doubles).all
        Float.isFinite &&
      decide (∀ entry ∈ (e.run [.move 1300.0 100.0]).snapshot.ink.entries,
        entry.2 ≤ Scalar.largestIndex) &&
      decide (∀ x ∈ (e.run [.move 1300.0 100.0]).snapshot.doubles, Literal.ReadsBack x)) = true := by
    decide +kernel
  obtain ⟨e, opened, facts⟩ := (Opening.passes_iff _ _).mp evaluated
  simp only [Bool.and_eq_true, decide_eq_true_eq, List.all_eq_true] at facts
  obtain ⟨⟨⟨pointer, overlay⟩, ink⟩, exact⟩ := facts
  have short : twoColumns.length ≤ Scalar.largestIndex := by decide
  refine ⟨e, opened, snapshot_round_trip opened short _ ?_ pointer overlay ink exact⟩
  intro data member
  simp at member

end Engine
end LadderChart
