import LadderChart.Fault
import LadderChart.Number.Scalar

/-!
Colours with channels from zero to one.
-/

namespace LadderChart

structure Color (α : Type) where
  red : α
  green : α
  blue : α
  alpha : α
  deriving DecidableEq

namespace Color
variable {α : Type} [Scalar α]

def black : Color α := ⟨0.0, 0.0, 0.0, 1.0⟩

def ofBytes (red green blue : Nat) (alpha : α) : Color α :=
  ⟨Scalar.ofNat red / 255.0, Scalar.ofNat green / 255.0, Scalar.ofNat blue / 255.0, alpha⟩

def blueByte (c : Color α) : Nat := Scalar.nearestByte (Scalar.clamp 0.0 1.0 c.blue * 255.0)

def badChannel (x : α) : Bool :=
  !Scalar.isFinite x || !(decide ((0.0 : α) ≤ x) && decide (x ≤ (1.0 : α)))

/-- The first channel that is out of bounds. -/
def badChannel? (c : Color α) : Option Channel :=
  if badChannel c.red then some .red
  else if badChannel c.green then some .green
  else if badChannel c.blue then some .blue
  else if badChannel c.alpha then some .alpha
  else none

def check (c : Color α) : Check :=
  match c.badChannel? with
  | some channel => .error (.data (.channel channel))
  | none => .ok ()

def agrees (c d : Color α) : Bool :=
  c.red == d.red && c.green == d.green && c.blue == d.blue && c.alpha == d.alpha

end Color
end LadderChart
