import LadderChart.Proofs.Chart.Options
import LadderChart.Proofs.Json.Kept
import LadderChart.Time.Places

/-!
Options written as text and read again. Zones are those of any lawful atlas; the doubles are such
that the reader of numbers gives back what was written.
-/

namespace LadderChart

open Json

/-! ### Parts -/

def Color.doubles (c : Color Float) : List Float := [c.red, c.green, c.blue, c.alpha]

theorem Color.kept (c : Color Float) (holds : Holds c.doubles) : Kept Color.ofJson? c.toJson c where
  written := by
    apply Written.record
    simp [written_double]
  back := by
    have back := holds.back
    simp only [doubles, List.forall_mem_cons] at back
    simp [ofJson?, toJson, fields?_record, Fields.required, Fields.get?, List.lookup, back]

def Insets.doubles (i : Insets Float) : List Float := [i.left, i.right, i.top, i.bottom]

theorem Insets.kept (i : Insets Float) (holds : Holds i.doubles) :
    Kept Insets.ofJson? i.toJson i where
  written := by
    apply Written.record
    simp [written_double]
  back := by
    have back := holds.back
    simp only [doubles, List.forall_mem_cons] at back
    simp [ofJson?, toJson, fields?_record, Fields.required, Fields.get?, List.lookup, back]

theorem Distribution.kept (d : Distribution) : Kept Distribution.ofJson? d.toJson d := by
  cases d with
  | ordinal => exact ⟨.text _, rfl⟩
  | linear => exact ⟨.text _, rfl⟩

theorem Zone.kept [Atlas] (lawful : Atlas.Lawful) (z : Zone) (listed : z.Listed) :
    Kept Zone.ofJson? z.toJson z := by
  cases z with
  | utc => exact ⟨.text _, rfl⟩
  | fixed minutes =>
      have least : -32768 ≤ minutes.toInt := minutes.le_toInt
      have most : minutes.toInt ≤ 32767 := minutes.toInt_le
      have same := integerIn?_ofInt _ _ _ least most
      have inner : Zone.minutes? (.record [("minutes", .number (.ofInt minutes.toInt))]) =
          some minutes := by
        simp [minutes?, fields?_record, Fields.required, Fields.get?, List.lookup, same]
      constructor
      · apply Written.record
        simp only [List.mem_singleton, forall_eq]
        apply Written.record
        simp only [List.mem_singleton, forall_eq]
        exact .number _ (Literal.ofInt_wellFormed _)
      · change (minutes? _).map Zone.fixed = _
        rw [inner, Option.map_some]
  | place p =>
      constructor
      · apply Written.record
        simp only [List.mem_singleton, forall_eq]
        exact .text p.name
      · obtain ⟨name, present⟩ := listed
        change ((some p.name).bind Atlas.place?).map Zone.place = _
        rw [Option.bind_some, lawful.found name p present, Option.map_some]

theorem Zone.ofJson?_listed [Atlas] (j : Json) (z : Zone) (parsed : ofJson? j = some z) :
    z.Listed := by
  unfold ofJson? at parsed
  split at parsed
  · cases parsed
    trivial
  · obtain ⟨minutes, _, rfl⟩ := Option.map_eq_some_iff.mp parsed
    trivial
  · obtain ⟨p, named, rfl⟩ := Option.map_eq_some_iff.mp parsed
    obtain ⟨name, _, present⟩ := Option.bind_eq_some_iff.mp named
    exact ⟨name, present⟩
  · cases parsed

theorem SeriesSpec.kept (s : SeriesSpec) : Kept SeriesSpec.ofJson? s.toJson s where
  written := by
    apply Written.record
    simp [Written.text]
  back := by
    simp [ofJson?, toJson, fields?_record, Fields.required, Fields.get?, List.lookup,
      (kept_string _).back]

theorem CrosshairOptions.kept (c : CrosshairOptions Float) (holds : Holds c.stroke.doubles) :
    Kept CrosshairOptions.ofJson? c.toJson c where
  written := by
    apply Written.record
    simp [Written.bool, (c.stroke.kept holds).written]
  back := by
    simp [ofJson?, toJson, fields?_record, Fields.required, Fields.get?, List.lookup,
      (kept_bool _).back, (c.stroke.kept holds).back]

/-- Of a scale everything is kept but its rule. -/
theorem ScaleOptions.kept (s : ScaleOptions Float) (plain : s.rule = none) :
    Kept ScaleOptions.ofJson? s.toJson s where
  written := by
    apply Written.record
    simp [Written.bool, s.distribution.kept.written]
  back := by
    obtain ⟨auto, distribution, time, rule⟩ := s
    cases plain
    simp [ofJson?, toJson, fields?_record, Fields.required, Fields.withDefault, Fields.get?,
      List.lookup, (kept_bool _).back, distribution.kept.back]

namespace Options

def doubles (o : Options Float) : List Float :=
  o.pixelRatio :: o.insets.doubles ++ o.crosshair.stroke.doubles
    ++ o.fills.entries.flatMap fun entry => entry.2.doubles

theorem mem_doubles_fill (o : Options Float) (entry : String × Color Float)
    (member : entry ∈ o.fills.entries) (x : Float) (inside : x ∈ entry.2.doubles) :
    x ∈ o.doubles := by
  simp only [doubles, List.mem_append, List.mem_flatMap]
  exact .inr ⟨entry, member, inside⟩

theorem kept [Atlas] (lawful : Atlas.Lawful) (o : Options Float) (listed : o.zone.Listed)
    (holds : Holds o.doubles) (plain : ∀ entry ∈ o.scales.entries, entry.2.rule = none) :
    Kept Options.ofJson? o.toJson o := by
  have ratio := holds.kept o.pixelRatio (by simp [doubles])
  have insets := o.insets.kept fun x member => holds x (by simp [doubles, member])
  have scales := o.scales.kept fun entry member => entry.2.kept (plain entry member)
  have series := kept_list o.series fun s _ => s.kept
  have crosshair := o.crosshair.kept fun x member => holds x (by simp [doubles, member])
  have zone := o.zone.kept lawful listed
  have fills := o.fills.kept fun entry member => entry.2.kept fun x inside =>
    holds x (o.mem_doubles_fill entry member x inside)
  constructor
  · apply Written.record
    simp [Written.text, ratio.written, insets.written, scales.written, series.written,
      crosshair.written, zone.written, fills.written, (kept_word _).written]
  · apply read_then (fields?_record _ _ (by rfl) (by decide))
    apply read_then (Fields.required_found (by rfl) (kept_word o.width).back)
    apply read_then (Fields.required_found (by rfl) (kept_word o.height).back)
    apply read_then (Fields.withDefault_found (by rfl) (kept_string o.title).back)
    apply read_then (Fields.withDefault_found (by rfl) ratio.back)
    apply read_then (Fields.withDefault_found (by rfl) insets.back)
    apply read_then (Fields.required_found (by rfl) scales.back)
    apply read_then (Fields.withDefault_found (by rfl) series.back)
    apply read_then (Fields.withDefault_found (by rfl) crosshair.back)
    apply read_then (Fields.withDefault_found (by rfl) zone.back)
    apply read_then (Fields.withDefault_found (by rfl) fills.back)
    rfl

end Options

/-! ### What is read -/

theorem Color.ofJson?_finite (j : Json) (c : Color Float) (parsed : ofJson? j = some c) :
    ∀ x ∈ c.doubles, x.isFinite = true := by
  simp only [ofJson?, Option.bind_eq_bind, Option.bind_eq_some_iff, Option.pure_def,
    Option.some.injEq] at parsed
  obtain ⟨f, _, red, readRed, green, readGreen, blue, readBlue, alpha, readAlpha, rfl⟩ := parsed
  simp [doubles, Fields.required_finite readRed, Fields.required_finite readGreen,
    Fields.required_finite readBlue, Fields.required_finite readAlpha]

theorem Insets.ofJson?_finite (j : Json) (i : Insets Float) (parsed : ofJson? j = some i) :
    ∀ x ∈ i.doubles, x.isFinite = true := by
  simp only [ofJson?, Option.bind_eq_bind, Option.bind_eq_some_iff, Option.pure_def,
    Option.some.injEq] at parsed
  obtain ⟨f, _, left, readLeft, right, readRight, top, readTop, bottom, readBottom, rfl⟩ := parsed
  simp [doubles, Fields.required_finite readLeft, Fields.required_finite readRight,
    Fields.required_finite readTop, Fields.required_finite readBottom]

theorem CrosshairOptions.ofJson?_finite (j : Json) (c : CrosshairOptions Float)
    (parsed : ofJson? j = some c) : ∀ x ∈ c.stroke.doubles, x.isFinite = true := by
  simp only [ofJson?, Option.bind_eq_bind, Option.bind_eq_some_iff, Option.pure_def,
    Option.some.injEq] at parsed
  obtain ⟨_, _, _, _, _, _, stroke, readStroke, rfl⟩ := parsed
  obtain ⟨j, read⟩ := Fields.required_source readStroke
  exact Color.ofJson?_finite j stroke read

theorem ScaleOptions.ofJson?_plain (j : Json) (s : ScaleOptions Float) (parsed : ofJson? j = some s) :
    s.rule = none := by
  simp only [ofJson?, Option.bind_eq_bind, Option.bind_eq_some_iff, Option.pure_def,
    Option.some.injEq] at parsed
  obtain ⟨_, _, _, _, _, _, _, _, rfl⟩ := parsed
  rfl

theorem Color.agrees_self (c : Color Float) (finite : ∀ x ∈ c.doubles, x.isFinite = true) :
    c.agrees c = true := by
  simp only [doubles, List.forall_mem_cons] at finite
  obtain ⟨red, green, blue, alpha, _⟩ := finite
  simp only [agrees, float_beq_self red, float_beq_self green, float_beq_self blue,
    float_beq_self alpha, Bool.and_self]

theorem Insets.agrees_self (i : Insets Float) (finite : ∀ x ∈ i.doubles, x.isFinite = true) :
    i.agrees i = true := by
  simp only [doubles, List.forall_mem_cons] at finite
  obtain ⟨left, right, top, bottom, _⟩ := finite
  simp only [agrees, float_beq_self left, float_beq_self right, float_beq_self top,
    float_beq_self bottom, Bool.and_self]

namespace Options

/-- Doubles that are read or stand for missing ones are finite, the zone is one of the atlas, and no
scale comes with a rule. -/
theorem ofJson?_sound [Atlas] (j : Json) (o : Options Float) (parsed : ofJson? j = some o) :
    (∀ x ∈ o.doubles, x.isFinite = true) ∧ o.zone.Listed ∧
      ∀ entry ∈ o.scales.entries, entry.2.rule = none := by
  simp only [ofJson?, Option.bind_eq_bind, Option.bind_eq_some_iff, Option.pure_def,
    Option.some.injEq] at parsed
  obtain ⟨f, _, width, _, height, _, title, _, ratio, readRatio, insets, readInsets, scales,
    readScales, series, _, crosshair, readCrosshair, zone, readZone, fills, readFills, rfl⟩ := parsed
  have finiteRatio : ratio.isFinite = true := by
    rcases Fields.withDefault_source readRatio with rfl | ⟨j, read⟩
    · decide
    · exact double?_finite j ratio read
  have finiteInsets : ∀ x ∈ insets.doubles, x.isFinite = true := by
    rcases Fields.withDefault_source readInsets with rfl | ⟨j, read⟩
    · decide
    · exact Insets.ofJson?_finite j insets read
  have finiteStroke : ∀ x ∈ crosshair.stroke.doubles, x.isFinite = true := by
    rcases Fields.withDefault_source readCrosshair with rfl | ⟨j, read⟩
    · decide
    · exact CrosshairOptions.ofJson?_finite j crosshair read
  have finiteFills : ∀ entry ∈ fills.entries, ∀ x ∈ entry.2.doubles, x.isFinite = true := by
    intro entry member
    rcases Fields.withDefault_source readFills with rfl | ⟨j, read⟩
    · cases member
    · obtain ⟨j, read⟩ := Keyed.ofJson?_source read entry member
      exact Color.ofJson?_finite j entry.2 read
  refine ⟨?_, ?_, ?_⟩
  · intro x member
    simp only [doubles, List.mem_append, List.mem_cons, List.mem_flatMap] at member
    rcases member with ((rfl | inside) | inside) | ⟨entry, present, inside⟩
    · exact finiteRatio
    · exact finiteInsets x inside
    · exact finiteStroke x inside
    · exact finiteFills entry present x inside
  · rcases Fields.withDefault_source readZone with rfl | ⟨j, read⟩
    · trivial
    · exact Zone.ofJson?_listed j zone read
  · intro entry member
    obtain ⟨j, read⟩ := Fields.required_source readScales
    obtain ⟨j, read⟩ := Keyed.ofJson?_source read entry member
    exact ScaleOptions.ofJson?_plain j entry.2 read

/-! ### Rules -/

/-- Range rules do not stand in a text. -/
def withoutRules (o : Options Float) : Options Float :=
  { o with scales := o.scales.mapValues fun _ s => { s with rule := none } }

/-- A ladder axis without automatic range has the rule of the ladder, and no other axis has any. -/
def withLadderRule (o : Options Float) : Options Float :=
  { o with
    scales := o.scales.mapValues fun key s =>
      { s with rule := if key = Axis.y.key ∧ s.auto = false then some ladderRule else none } }

theorem toJson_withoutRules (o : Options Float) : o.withoutRules.toJson = o.toJson := by
  simp [toJson, withoutRules, Keyed.toJson, Keyed.mapValues, ScaleOptions.toJson,
    Function.comp_def]

theorem restoreRule_withoutRules (o : Options Float) :
    o.withoutRules.restoreRule = o.withLadderRule := by
  simp only [restoreRule, withoutRules, withLadderRule, Keyed.modify_eq_mapValues,
    Keyed.mapValues_mapValues]
  congr 2
  funext key s
  by_cases ladder : key = Axis.y.key
  · cases s.auto <;> simp [ladder]
  · simp [ladder]

theorem ofText_toText [Atlas] (lawful : Atlas.Lawful) (o : Options Float)
    (listed : o.zone.Listed) (holds : Holds o.doubles) :
    ofText o.toText = .ok o.withLadderRule := by
  have kept := o.withoutRules.kept lawful listed holds fun entry member => by
    obtain ⟨_, _, rfl⟩ := List.mem_map.mp member
    rfl
  rw [toJson_withoutRules] at kept
  simp only [ofText, toText, ofString?_pretty o.toJson kept.written, Option.bind_some, kept.back,
    restoreRule_withoutRules]

theorem withoutRules_plain (o : Options Float)
    (plain : ∀ entry ∈ o.scales.entries, entry.2.rule = none) : o.withoutRules = o := by
  have same : (o.scales.mapValues fun _ s => { s with rule := none }) = o.scales := by
    apply Keyed.mapValues_unchanged
    intro entry member
    rw [← plain entry member]
  simp only [withoutRules, same]

theorem withLadderRule_withLadderRule (o : Options Float) :
    o.withLadderRule.withLadderRule = o.withLadderRule := by
  simp only [withLadderRule, Keyed.mapValues_mapValues]

/-- Options that a text was read as are finite, with a zone of the atlas and the rule of the ladder
where it belongs. -/
theorem ofText_sound [Atlas] (text : String) (o : Options Float) (accepted : ofText text = .ok o) :
    (∀ x ∈ o.doubles, x.isFinite = true) ∧ o.zone.Listed ∧ o.withLadderRule = o := by
  unfold ofText at accepted
  split at accepted
  · rename_i p parsed
    obtain ⟨j, _, read⟩ := Option.bind_eq_some_iff.mp parsed
    obtain ⟨finite, listed, plain⟩ := ofJson?_sound j p read
    cases accepted
    rw [← withoutRules_plain p plain, restoreRule_withoutRules]
    exact ⟨finite, listed, withLadderRule_withLadderRule p⟩
  · cases accepted

/-! ### Comparison and checks -/

theorem agrees_withLadderRule (o : Options Float) (finite : ∀ x ∈ o.doubles, x.isFinite = true) :
    o.withLadderRule.agrees o = true ↔ ∀ entry ∈ o.scales.entries,
      (entry.2.rule.isSome = true ↔ entry.1 = Axis.y.key ∧ entry.2.auto = false) := by
  have ratio : (o.pixelRatio == o.pixelRatio) = true :=
    float_beq_self (finite _ (by simp [doubles]))
  have insets := o.insets.agrees_self fun x member => finite x (by simp [doubles, member])
  have stroke := o.crosshair.stroke.agrees_self fun x member =>
    finite x (by simp [doubles, member])
  have fills := o.fills.agrees_self Color.agrees fun entry member =>
    entry.2.agrees_self fun x inside => finite x (o.mem_doubles_fill entry member x inside)
  have scales : o.withLadderRule.agrees o =
      o.withLadderRule.scales.agrees ScaleOptions.agrees o.scales := by
    simp only [agrees, withLadderRule, ratio, insets, stroke, fills, o.zone.agrees_self,
      beq_self_eq_true, decide_true, Bool.true_and, Bool.and_true]
  rw [scales, withLadderRule, Keyed.agrees_mapValues]
  apply forall₂_congr
  intro entry _
  by_cases ladder : entry.1 = Axis.y.key ∧ entry.2.auto = false
  · cases ruled : entry.2.rule <;> simp [ScaleOptions.agrees, ladder, ruled]
  · cases ruled : entry.2.rule <;> simp [ScaleOptions.agrees, ladder, ruled]

theorem checkScale_withLadderRule (o : Options Float) (axis : Axis) :
    o.withLadderRule.checkScale axis = .ok () ↔
      ∃ s, o.scales.get? axis.key = some s ∧ (s.auto = true ∨ axis = .y) := by
  rw [checkScale_eq_ok, withLadderRule, Keyed.get?_mapValues]
  cases o.scales.get? axis.key with
  | none => simp
  | some s => cases automatic : s.auto <;> cases axis <;> simp [automatic, Axis.key]

theorem checkSeries_withLadderRule (o : Options Float) :
    o.withLadderRule.checkSeries = o.checkSeries := by
  funext s
  simp [checkSeries, Keyed.contains, withLadderRule, Keyed.get?_mapValues]

theorem check_withLadderRule (o : Options Float) (checked : o.check = .ok ()) :
    o.withLadderRule.check = .ok () ↔
      ∃ s, o.scales.get? Axis.x.key = some s ∧ s.auto = true := by
  unfold check at checked ⊢
  simp only [] at checked ⊢
  rw [throwIf_eq_ok] at checked ⊢
  simp only [both_eq_ok, checkScale_withLadderRule, checkSeries_withLadderRule] at checked ⊢
  obtain ⟨size, ratio, insets, zone, stroke, _, ladder, series, fills⟩ := checked
  obtain ⟨s, present, _⟩ := (checkScale_eq_ok o .y).mp ladder
  constructor
  · rintro ⟨_, _, _, _, _, ⟨s, found, automatic | other⟩, _⟩
    · exact ⟨s, found, automatic⟩
    · cases other
  · intro ⟨s', found, automatic⟩
    exact ⟨size, ratio, insets, zone, stroke, ⟨s', found, .inl automatic⟩, ⟨s, present, .inr trivial⟩,
      series, fills⟩

/-- Reading options that were written gives them back but for their range rules, and what was read
once is read the same again. -/
theorem text_round_trip [Atlas] (lawful : Atlas.Lawful) :
    (∀ o : Options Float, o.zone.Listed → (∀ x ∈ o.doubles, x.isFinite = true) →
      (∀ x ∈ o.doubles, Literal.ReadsBack x) →
      ∃ r, ofText o.toText = .ok r ∧
        r = { o with scales := r.scales } ∧
        r.scales.entries = o.scales.entries.map (fun entry => (entry.1, { entry.2 with
          rule := if entry.1 = Axis.y.key ∧ entry.2.auto = false then some ladderRule else none })) ∧
        (r.agrees o = true ↔ ∀ entry ∈ o.scales.entries,
          (entry.2.rule.isSome = true ↔ entry.1 = Axis.y.key ∧ entry.2.auto = false)) ∧
        (o.check = .ok () → (r.check = .ok () ↔
          ∃ s, o.scales.get? Axis.x.key = some s ∧ s.auto = true))) ∧
    (∀ text (o : Options Float), ofText text = .ok o → (∀ x ∈ o.doubles, Literal.ReadsBack x) →
      ofText o.toText = .ok o) := by
  constructor
  · intro o listed finite exact
    have holds : Holds o.doubles := fun x member => ⟨finite x member, exact x member⟩
    exact ⟨o.withLadderRule, ofText_toText lawful o listed holds, rfl, rfl,
      agrees_withLadderRule o finite, check_withLadderRule o⟩
  · intro text o accepted exact
    obtain ⟨finite, listed, ruled⟩ := ofText_sound text o accepted
    have read := ofText_toText lawful o listed fun x member => ⟨finite x member, exact x member⟩
    rwa [ruled] at read

/-- A ladder axis and a place; the rest has defaults. -/
def sparseText : String :=
  "\x7b\"width\":8,\"height\":4,\"scales\":\x7b\"y\":\x7b\"auto\":false\x7d\x7d," ++
    "\"time_zone\":\x7b\"Named\":\"Asia/Tokyo\"\x7d\x7d"

def inBerlin : Options Float := { standard with zone := .place Clocks.berlin.place }

theorem standard_text_round_trip :
    (∃ r, ofText inBerlin.toText = .ok r ∧ r.agrees inBerlin = true) ∧
      ∃ o, ofText sparseText = .ok o ∧ ofText o.toText = .ok o := by
  constructor
  · obtain ⟨r, read, _, _, same, _⟩ := (text_round_trip Atlas.six_lawful).1 inBerlin
      ⟨"Europe/Berlin", rfl⟩ (by decide +kernel) (by decide +kernel)
    exact ⟨r, read, same.mpr (by decide +kernel)⟩
  · have readable : ((ofText sparseText).toOption.any fun o =>
        decide (∀ x ∈ o.doubles, Literal.ReadsBack x)) = true := by decide +kernel
    cases read : ofText sparseText with
    | error fault =>
        rw [read] at readable
        cases readable
    | ok o =>
        rw [read] at readable
        exact ⟨o, rfl, (text_round_trip Atlas.six_lawful).2 sparseText o read
          (of_decide_eq_true readable)⟩

end Options

end LadderChart
