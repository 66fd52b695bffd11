import LadderChart.Engine.Pointer
import LadderChart.Proofs.Data.Slice
import LadderChart.Proofs.Engine.Hit
import LadderChart.Proofs.Plot.Charted
import LadderChart.Proofs.Plot.Ticks

/-!
Guards. Some operations stop the whole program where they are out of place: sums that do not fit a
word, differences below zero, places past the end of a list, bounds in the wrong order, steps of
zero, missing keys. In a guarded reading each of them is a test, and whatever needs its result
waits for it. Where the window fits the data and the plot is charted, every test is passed, and a
guarded reading comes to what the plain one does.
-/

namespace LadderChart

/-- Why a program stops. -/
inductive Panic where
  | overflow | underflow | zeroDivisor | zeroStep | clampInverted | outOfBounds | noSuchKey
  | tooManyPlaces
  deriving DecidableEq, Repr

abbrev Guarded (τ : Type) : Type := Except Panic τ

namespace Guarded

def sum (m n : Nat) : Guarded Nat :=
  if m + n ≤ Scalar.largestIndex then .ok (m + n) else .error .overflow

def difference (m n : Nat) : Guarded Nat := if n ≤ m then .ok (m - n) else .error .underflow

/-- The quotient, rounded up. -/
def shares (m n : Nat) : Guarded Nat :=
  if n = 0 then .error .zeroDivisor else .ok ((m + n - 1) / n)

def clamp (low high n : Nat) : Guarded Nat :=
  if low ≤ high then .ok (max low (min n high)) else .error .clampInverted

section Lists
variable {τ : Type}

def entry (xs : List τ) (index : Nat) : Guarded τ :=
  match xs[index]? with
  | some x => .ok x
  | none => .error .outOfBounds

/-- The entries from one index to another, both included. -/
def between (xs : List τ) (first last : Nat) : Guarded (List τ) :=
  if first ≤ last ∧ last < xs.length then .ok ((xs.drop first).take (last - first + 1))
  else .error .outOfBounds

def lookup (m : Keyed τ) (key : String) : Guarded τ :=
  match m.get? key with
  | some x => .ok x
  | none => .error .noSuchKey

end Lists

def everyNth (w : Window) (step : Nat) : Guarded (List Nat) :=
  if step = 0 then .error .zeroStep else .ok (w.everyNth step)

def count (w : Window) : Guarded Nat := do
  let span ← difference w.last w.first
  sum span 1

variable {α : Type} [Scalar α]

/-! ### Ranges -/

/-- The part of the window that there are ladders for is cut out, if there is such a part. -/
def ladderRange (ladders : Matrix α) (w : Window) : Guarded (Option (α × α)) :=
  match ladders.length with
  | 0 => .ok none
  | n + 1 =>
      let last := min w.last n
      if last < w.first then .ok none
      else do
        let shown ← between ladders w.first last
        return Extent.of (shown.filterMap id).flatten

def resolveAxis (o : Options α) (data : Dataset α) (window : Option Window) (axis : Axis) :
    Guarded (Scale α) :=
  match o.scales.get? axis.key with
  | none => .ok (.degenerate .linear)
  | some s =>
      match window with
      | none => .ok (.degenerate s.distribution)
      | some w =>
          match s.rule with
          | some rule => .ok ⟨s.distribution, Extent.proper (rule data w)⟩
          | none =>
              match axis with
              | .x => .ok ⟨s.distribution, Scale.columnRange s.distribution data.series w⟩
              | .y => do
                  let range ← ladderRange data.ladders w
                  return ⟨s.distribution, range⟩

/-! ### Axes -/

def tickTarget (length spacing : α) : Guarded Nat :=
  if ¬ Scalar.isFinite length ∨ length ≤ 0.0 then .ok Axes.fewestTicks
  else do
    let ticks ← sum (Scalar.wholeUnits (length / spacing)) 1
    clamp Axes.fewestTicks Axes.mostTicks ticks

def columnLabels (o : Options α) (s : Scene α) : Guarded (List (α × String)) :=
  match s.window with
  | none => .ok []
  | some w => do
      let ticks ← tickTarget s.box.width (160.0 * s.pixelRatio)
      let columns ← count w
      let share ← shares columns ticks
      let indices ← everyNth w (max share 1)
      return indices.filterMap (Axes.columnLabel? o s)

/-- Texts have at most as many places as a word of 16 bits counts. -/
def places (step : α) : Guarded Nat :=
  if Axes.labelPlaces step ≤ 65535 then .ok (Axes.labelPlaces step) else .error .tooManyPlaces

def rungLabels (s : Scene α) : Guarded (List (α × String)) :=
  match s.yScale.range with
  | none => .ok []
  | some (low, high) => do
      let ticks ← tickTarget s.box.height (48.0 * s.pixelRatio)
      let gaps ← difference ticks 1
      let step := (high - low) / Scalar.ofNat gaps
      let digits ← places step
      return (Axes.tickValues low step ticks).filterMap fun value =>
        (s.rungPixel? value).map fun y => (y, Scalar.fixed digits value)

/-- The strokes of the axes with given labels. -/
def labelled (o : Options α) (s : Scene α) (columns rungs : List (α × String)) :
    List (Stroke α) :=
  let b := s.box
  let gap : α := 6.0 * s.pixelRatio
  [.scope
    ([.setStroke Axes.color, .setFill Axes.color, .setLineWidth s.pixelRatio,
      .line b.left b.top b.left b.bottom, .line b.left b.bottom b.right b.bottom]
      ++ Axes.titleStrokes o s
      ++ [.setFontSize (11.0 * s.pixelRatio), .setAlign .center]
      ++ columns.map (fun l => .label l.2 l.1 (b.bottom + gap))
      ++ [.setAlign .right]
      ++ rungs.map (fun l => .label l.2 (b.left - gap) l.1))]

def axes (o : Options α) (s : Scene α) : Guarded (List (Stroke α)) := do
  let columns ← columnLabels o s
  let rungs ← rungLabels s
  return labelled o s columns rungs

/-! ### The pointer -/

def column (d : Distribution) (series : List α) (w : Window) (value : α) :
    Guarded (Option Nat) :=
  match d with
  | .ordinal => do
      let index ← clamp w.first w.last (Scalar.nearestIndex value)
      return some index
  | .linear => do
      let values ← w.indices.mapM (entry series)
      return (Hit.nearest? (fun c => Scalar.magnitude (c.2 - value)) (w.indices.zip values)).map
        (·.1)

def indexAt (s : Scene α) (x y : α) : Guarded (Option Nat) :=
  match s.window with
  | none => .ok none
  | some w =>
      if Hit.inside s.box (s.canvasX x) (s.canvasY y) then
        match s.xScale.value? .x s.box (s.canvasX x) with
        | none => .ok none
        | some value => column s.xScale.distribution s.data.series w value
      else .ok none

def spanEnd (series : List α) (index : Nat) (start : α) : Guarded α := do
  let next ← sum index 1
  match series[next]? with
  | some finish => return finish
  | none =>
      match index with
      | 0 => return start
      | before + 1 =>
          match series[before]? with
          | some previous => return start + (start - previous)
          | none => return start

def select (s : Scene α) (x y : α) : Guarded (Option (Selection α)) := do
  match ← indexAt s x y with
  | none => return none
  | some index =>
      match s.data.series[index]? with
      | none => return none
      | some start => do
          let finish ← spanEnd s.data.series index start
          match s.yScale.value? .y s.box (s.canvasY y) with
          | none => return none
          | some value => return some ⟨index, start, finish, value⟩

/-! ### Passed guards -/

@[simp] theorem ok_bind {τ υ : Type} (x : τ) (next : τ → Guarded υ) :
    ((.ok x : Guarded τ) >>= next) = next x := rfl

@[simp] theorem pure_eq {τ : Type} (x : τ) : (pure x : Guarded τ) = .ok x := rfl

section Lists
variable {τ : Type}

omit [Scalar α] in
theorem entries_range (xs : List τ) (first n : Nat) (inside : first + n ≤ xs.length) :
    (List.range' first n).mapM (entry xs) = .ok ((xs.drop first).take n) := by
  induction n generalizing first with
  | zero => simp
  | succ n ih =>
      have here : first < xs.length := by omega
      have found : entry xs first = .ok xs[first] := by
        simp only [entry, List.getElem?_eq_getElem here]
      rw [List.range'_succ, List.mapM_cons, found, ih (first + 1) (by omega),
        List.drop_eq_getElem_cons here, List.take_succ_cons]
      rfl

/-- The indices of a window that fits are all places of the list. -/
theorem entries_window (w : Window) (xs : List τ) (inside : w.last < xs.length) :
    w.indices.mapM (entry xs) = .ok (w.slice xs) := by
  have ordered := w.ordered
  refine entries_range xs w.first w.size ?_
  rw [Window.size, Window.span]
  omega

/-- A window past the end of a series is not read. -/
example : [0, 1, 2].mapM (entry ["one", "two"]) = .error .outOfBounds := rfl

theorem lookup_found {m : Keyed τ} {key : String} {x : τ} (found : m.get? key = some x) :
    lookup m key = .ok x := by
  simp only [lookup, found]

end Lists

theorem count_cases (w : Window) :
    count w = if w.size ≤ Scalar.largestIndex then .ok w.size else .error .overflow := by
  simp only [count, difference, w.ordered, if_true, ok_bind]
  rfl

theorem count_eq (w : Window) (word : w.size ≤ Scalar.largestIndex) : count w = .ok w.size := by
  rw [count_cases, if_pos word]

theorem clamp_window (w : Window) (index : Nat) :
    clamp w.first w.last index = .ok (w.clamp index) := if_pos w.ordered

/-- However few ladders there are: what is cut out is there, and in order. -/
theorem ladderRange_eq (ladders : Matrix α) (w : Window) :
    ladderRange ladders w = .ok (Scale.ladderRange ladders w) := by
  have ordered := w.ordered
  have cut : ∀ shown, w.slice ladders = shown →
      Scale.ladderRange ladders w = Extent.of (shown.filterMap id).flatten := by
    intro shown same
    rw [Scale.ladderRange, same]
  cases many : ladders.length with
  | zero =>
      have empty : w.slice ladders = [] := by simp [Window.slice, List.length_eq_zero_iff.mp many]
      simp only [ladderRange, many, cut [] empty]
      rfl
  | succ n =>
      simp only [ladderRange, many]
      by_cases past : min w.last n < w.first
      · have empty : w.slice ladders = [] := by
          rw [Window.slice, List.drop_of_length_le (by omega), List.take_nil]
        rw [if_pos past, cut [] empty]
        rfl
      · have inside : w.first ≤ min w.last n ∧ min w.last n < ladders.length := by omega
        have same : w.slice ladders =
            (ladders.drop w.first).take (min w.last n - w.first + 1) := by
          rw [Window.slice, List.take_eq_take_iff, List.length_drop, Window.size, Window.span]
          omega
        rw [if_neg past, between, if_pos inside, cut _ same]
        rfl

theorem resolveAxis_eq (o : Options α) (data : Dataset α) (window : Option Window) (axis : Axis) :
    resolveAxis o data window axis = .ok (Engine.resolveAxis o data window axis) := by
  unfold resolveAxis Engine.resolveAxis
  cases o.scales.get? axis.key with
  | none => rfl
  | some s =>
      cases window with
      | none => rfl
      | some w =>
          simp only
          cases s.rule with
          | some rule => rfl
          | none =>
              cases axis with
              | x => rfl
              | y =>
                  simp only [ladderRange_eq, ok_bind]
                  rfl

/-! ### The pointer -/

theorem spanEnd_eq (series : List α) (index : Nat) (start : α)
    (word : index + 1 ≤ Scalar.largestIndex) :
    spanEnd series index start = .ok (Scene.spanEnd series index start) := by
  have next : sum index 1 = .ok (index + 1) := if_pos word
  simp only [spanEnd, next, ok_bind, Scene.spanEnd]
  cases series[index + 1]? with
  | some finish => rfl
  | none =>
      cases index with
      | zero => rfl
      | succ before => cases found : series[before]? <;> simp [found]

section Pointing
variable (s : Scene α) (inside : ∀ w, s.window = some w → w.last < s.data.length)
  (words : s.data.length ≤ Scalar.largestIndex) (x y : α)
include inside

theorem indexAt_eq : indexAt s x y = .ok (s.indexAt? x y) := by
  unfold indexAt Scene.indexAt?
  cases shown : s.window with
  | none => rfl
  | some w =>
      simp only
      split
      · cases s.xScale.value? .x s.box (s.canvasX x) with
        | none => rfl
        | some value =>
            simp only [Option.bind_some, column, Hit.column?]
            cases s.xScale.distribution with
            | ordinal =>
                simp only [clamp_window, ok_bind]
                rfl
            | linear =>
                simp only [entries_window w s.data.series (inside w shown), ok_bind]
                rfl
      · rfl

include words

theorem select_eq : select s x y = .ok (s.select? x y) := by
  unfold select Scene.select?
  rw [indexAt_eq s inside]
  simp only [ok_bind]
  cases hit : s.indexAt? x y with
  | none => rfl
  | some index =>
      obtain ⟨w, shown, within⟩ := s.indexAt_inside x y index hit
      have last := ((w.contains_iff index).mp within).2
      have fits := inside w shown
      simp only
      cases s.data.series[index]? with
      | none => rfl
      | some start =>
          simp only [spanEnd_eq s.data.series index start (by omega), ok_bind]
          cases s.yScale.value? .y s.box (s.canvasY y) <;> rfl

end Pointing

/-! ### Axes -/

theorem tickTarget_eq {length spacing : α}
    (room : Scalar.wholeUnits (length / spacing) + 1 ≤ Scalar.largestIndex) :
    tickTarget length spacing = .ok (Axes.tickTarget length spacing) := by
  unfold tickTarget Axes.tickTarget
  split
  · rfl
  · have ticks : sum (Scalar.wholeUnits (length / spacing)) 1 =
        .ok (Scalar.wholeUnits (length / spacing) + 1) := if_pos room
    rw [ticks, Nat.min_comm]
    rfl

end Guarded

/-! ### Sizes over doubles -/

theorem Digits.length_collect (steps n : Nat) (found : List Digit) :
    (collect steps n found).length ≤ steps + 1 + found.length := by
  induction steps generalizing n found with
  | zero => simp [collect, Nat.add_comm]
  | succ steps ih =>
      unfold collect
      split
      · simp only [List.length_cons]
        omega
      · have shorter := ih (n / 10) (Fin.ofNat 10 n :: found)
        simp only [List.length_cons] at shorter
        omega

/-- A number has no more digits than bits. -/
theorem Digits.count_le {n bits : Nat} (below : n < 2 ^ bits) : count n ≤ bits := by
  unfold count
  split
  · exact Nat.zero_le bits
  · rename_i filled
    have length := length_collect n.log2 n []
    have log := (Nat.log2_lt filled).mpr below
    simp only [List.length_nil] at length
    exact length.trans (by omega)

theorem Double.leadingPlaces_le (x : Float) : leadingPlaces x ≤ 1074 := by
  have exponent : (-(ofFloat x).exponent).toNat ≤ 1074 := by
    simp only [ofFloat]
    omega
  have places : Fraction.leadingPlaces (ofFloat x).size ≤ 1074 := by
    generalize ofFloat x = d at exponent ⊢
    have den : d.size.den ≤ 2 ^ (-d.exponent).toNat := by
      rw [size, Rat.den_mkRat, denominator, Nat.pow_eq, if_neg (by positivity)]
      exact Nat.div_le_self _ _
    have pos := d.size.den_pos
    have digits := Digits.count_le ((Nat.div_le_self (d.size.den - 1) d.size.num.natAbs).trans_lt
      (show d.size.den - 1 < 2 ^ (-d.exponent).toNat by omega))
    exact digits.trans exponent
  unfold leadingPlaces
  simp only
  split
  · split
    · omega
    · exact places
  · exact Nat.zero_le _

/-- A small double that is a power of two. -/
def grain : Float := .ofBits 0x3E20000000000000

theorem grain_value : grain.isFinite = true ∧ Scalar.value grain = 1 / 2 ^ 29 := by
  decide +kernel

theorem wholeUnits_le {x : Float} {n : Nat} (within : Within n x) : Scalar.wholeUnits x ≤ n := by
  have size := (le_abs_self _).trans within.size
  have finite : Scalar.isFinite x = true := within.finite
  have floor : (Scalar.value x).floor ≤ (n : Int) := by
    exact_mod_cast (Rat.floor_le _).trans size
  rw [Scalar.wholeUnits, Scalar.saturate, if_pos finite]
  omega

namespace Scene.Charted
variable {s : Scene Float} (charted : s.Charted)
include charted

/-- Far fewer ticks fit on an axis than a word counts. -/
theorem tick_room {length size : Float} (long : Within (2 ^ 32) length) (broad : Within 256 size)
    (least : 48 ≤ Scalar.value size) :
    Scalar.wholeUnits (length / (size * s.pixelRatio)) + 1 ≤ Scalar.largestIndex := by
  have scaled := broad.mul charted.ratio (by norm_num)
  have product := mul_rounded broad.finite charted.ratio.finite
  obtain ⟨finite, value⟩ := grain_value
  have above := product.ge_of_ge (product.finite_iff.mp scaled.finite) finite (by
    rw [value]
    have fine := charted.fine
    nlinarith)
  rw [value] at above
  have units := long.div scaled.finite (by norm_num) (above.trans (le_abs_self _)) (by norm_num)
  have few := wholeUnits_le (units.mono (b := ((2 ^ 62 : Nat) : ℚ)) (by norm_num))
  have word : Scalar.largestIndex = 2 ^ 64 - 1 := rfl
  omega

end Scene.Charted

namespace Guarded

theorem places_eq (step : Float) : places step = .ok (Axes.labelPlaces step) := by
  refine if_pos ?_
  unfold Axes.labelPlaces
  simp only
  split
  · exact Nat.zero_le _
  · have few : Scalar.places (Scalar.magnitude step) ≤ 1074 := Double.leadingPlaces_le _
    omega

section Labels
variable {s : Scene Float} (charted : s.Charted)
include charted

theorem columnLabels_eq (o : Options Float)
    (words : ∀ w, s.window = some w → w.size ≤ Scalar.largestIndex) :
    columnLabels o s = .ok (Axes.columnLabels o s) := by
  unfold columnLabels Axes.columnLabels
  cases shown : s.window with
  | none => rfl
  | some w =>
      have broad : Within 256 (160.0 : Float) := by constructor <;> decide
      have room := charted.tick_room charted.width broad (by decide)
      have ticks := (Axes.tickTarget_bounds s.box.width (160.0 * s.pixelRatio)).1
      have share : shares w.size (Axes.tickTarget s.box.width (160.0 * s.pixelRatio)) = .ok
          ((w.size + Axes.tickTarget s.box.width (160.0 * s.pixelRatio) - 1) /
            Axes.tickTarget s.box.width (160.0 * s.pixelRatio)) := if_neg (by omega)
      have step : ∀ n, everyNth w (max n 1) = .ok (w.everyNth (max n 1)) := fun n => if_neg (by omega)
      simp only [tickTarget_eq room, count_eq w (words w shown), share, step, ok_bind, pure_eq,
        Axes.stride, Nat.max_comm]

theorem rungLabels_eq : rungLabels s = .ok (Axes.rungLabels s) := by
  unfold rungLabels Axes.rungLabels
  cases s.yScale.range with
  | none => rfl
  | some bounds =>
      have broad : Within 256 (48.0 : Float) := by constructor <;> decide
      have room := charted.tick_room charted.height broad (by decide)
      have ticks := (Axes.tickTarget_bounds s.box.height (48.0 * s.pixelRatio)).1
      have gaps : difference (Axes.tickTarget s.box.height (48.0 * s.pixelRatio)) 1 =
          .ok (Axes.tickTarget s.box.height (48.0 * s.pixelRatio) - 1) := if_pos (by omega)
      simp only [tickTarget_eq room, gaps, places_eq, ok_bind]
      rfl

theorem axes_eq (o : Options Float)
    (words : ∀ w, s.window = some w → w.size ≤ Scalar.largestIndex) :
    axes o s = .ok (Axes.strokes o s) := by
  simp only [axes, columnLabels_eq charted o words, rungLabels_eq charted, ok_bind]
  rfl

end Labels
end Guarded
end LadderChart
