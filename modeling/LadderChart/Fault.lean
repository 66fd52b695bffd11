/-!
What can go wrong, by cause, and the one place where causes get their wording. A fault raised
inside a plugin hook keeps its own cause and is wrapped with the plugin and the hook. What a library
adds to a message (where a text is malformed) stays outside.
-/

namespace LadderChart

inductive Side where
  | left | right | top | bottom
  deriving DecidableEq, Repr

def Side.name : Side → String
  | .left => "left"
  | .right => "right"
  | .top => "top"
  | .bottom => "bottom"

inductive Channel where
  | red | green | blue | alpha
  deriving DecidableEq, Repr

def Channel.name : Channel → String
  | .red => "red"
  | .green => "green"
  | .blue => "blue"
  | .alpha => "alpha"

inductive Hook where
  | opts | init | setCursor | draw
  deriving DecidableEq, Repr

def Hook.name : Hook → String
  | .opts => "opts"
  | .init => "init"
  | .setCursor => "set_cursor"
  | .draw => "draw"

/-- Values that are refused. Numbers in a cause are given as they are written. -/
inductive DataCause where
  | inset (side : Side)
  | noDrawableArea (width height : UInt32)
  | windowOutside (first last length : Nat)
  | colorRangeInfinite
  | colorRangeInverted (low high : String)
  | cellNotFinite (index : Nat)
  | seriesNotFinite (index : Nat)
  | recordMalformed (line : Nat)
  | timestampNotFinite (timestamp : String)
  | zoneOffset
  | channel (channel : Channel)
  | lineEnds
  | lineWidth
  | rectOrigin
  | rectSize
  | labelEmpty
  | labelPosition
  | fontSize
  | pixelRatio
  | scaleMissing (key : String)
  | scaleUnresolved (key : String)
  | seriesScale (label scale : String)
  | overlayStyle (className : String) (channel : Channel)
  | optionsMalformed
  | pluginIdEmpty
  | pluginIdTaken (id : String)
  | other (text : String)
  deriving DecidableEq, Repr

inductive ShapeCause where
  | ladderCount (found length : Nat)
  | weightCount (found length : Nat)
  | weightsPerRung (index rungs weights : Nat)
  | oneSided (index : Nat)
  | other (text : String)
  deriving DecidableEq, Repr

inductive TimeCause where
  | outOfRange (seconds : Int)
  | other (text : String)
  deriving DecidableEq, Repr

inductive Fault where
  | viewport (width height : UInt32)
  | data (cause : DataCause)
  | shape (cause : ShapeCause)
  | time (cause : TimeCause)
  | plugin (id : String) (hook : Hook) (source : Fault)
  deriving DecidableEq, Repr

def channelMessage (c : Channel) : String :=
  s!"color channel `{c.name}` must be finite and in [0, 1]"

def DataCause.message : DataCause → String
  | .inset side => s!"plot inset `{side.name}` must be finite and >= 0"
  | .noDrawableArea width height =>
      s!"plot insets leave no drawable area in {width.toNat}x{height.toNat} canvas"
  | .windowOutside first last length =>
      s!"index window [{first}, {last}] is outside series of length {length}"
  | .colorRangeInfinite => "color range bounds must be finite"
  | .colorRangeInverted low high => s!"color range min ({low}) must be <= max ({high})"
  | .cellNotFinite index => s!"rung values and weights at index {index} must be finite"
  | .seriesNotFinite index => s!"series value at index {index} must be finite"
  | .recordMalformed line => s!"failed to parse ladder record on line {line}: "
  | .timestampNotFinite timestamp => s!"record timestamp must be finite, got {timestamp}"
  | .zoneOffset => "timezone offset must be between -840 and 840 minutes"
  | .channel c => channelMessage c
  | .lineEnds => "line coordinates must be finite"
  | .lineWidth => "line stroke width must be finite and > 0"
  | .rectOrigin => "rect origin must be finite"
  | .rectSize => "rect size must be finite and >= 0"
  | .labelEmpty => "text primitive must not be empty"
  | .labelPosition => "text coordinates must be finite"
  | .fontSize => "font size must be finite and > 0"
  | .pixelRatio => "pixel ratio must be finite and > 0"
  | .scaleMissing key => s!"scale `{key}` must be configured"
  | .scaleUnresolved key => s!"scale `{key}` has auto disabled but no range function"
  | .seriesScale label scale => s!"series `{label}` references undeclared scale `{scale}`"
  | .overlayStyle className c =>
      s!"overlay style `{className}`: invalid data: {channelMessage c}"
  | .optionsMalformed => "failed to parse options: "
  | .pluginIdEmpty => "plugin id must not be empty"
  | .pluginIdTaken id => s!"plugin with id `{id}` is already registered"
  | .other text => text

def ShapeCause.message : ShapeCause → String
  | .ladderCount found length => s!"ladder matrix has {found} entries but series has {length}"
  | .weightCount found length => s!"weight matrix has {found} entries but series has {length}"
  | .weightsPerRung index rungs weights =>
      s!"index {index} has {rungs} rungs but {weights} weights"
  | .oneSided index => s!"index {index} is missing in only one of ladder/weight matrices"
  | .other text => text

def TimeCause.message : TimeCause → String
  | .outOfRange seconds => s!"timestamp {seconds} is out of range"
  | .other text => text

def Fault.message : Fault → String
  | .viewport width height =>
      s!"invalid viewport size: width={width.toNat}, height={height.toNat}"
  | .data cause => s!"invalid data: {cause.message}"
  | .shape cause => s!"shape violation: {cause.message}"
  | .time cause => s!"time formatting failed: {cause.message}"
  | .plugin id hook source => s!"plugin `{id}` failed in `{hook.name}` hook: {source.message}"

/-- Checks stand one after the other; the first that fails speaks. -/
abbrev Check := Except Fault Unit

def refuseIf (bad : Bool) (cause : DataCause) : Check :=
  if bad then .error (.data cause) else .ok ()

def checkAll {τ : Type} (check : τ → Check) : List τ → Check
  | [] => .ok ()
  | x :: rest => do
      check x
      checkAll check rest

theorem refuseIf_eq_ok (bad : Bool) (cause : DataCause) :
    refuseIf bad cause = .ok () ↔ bad = false := by
  cases bad <;> simp [refuseIf]

/-- A check of a list passes exactly if it passes for every element. -/
theorem checkAll_eq_ok {τ : Type} (check : τ → Check) (xs : List τ) :
    checkAll check xs = .ok () ↔ ∀ x ∈ xs, check x = .ok () := by
  induction xs with
  | nil => simp [checkAll]
  | cons x rest ih =>
      cases here : check x with
      | error fault => simp [checkAll, here, bind, Except.bind]
      | ok done => simp [checkAll, here, bind, Except.bind, ih]

end LadderChart
