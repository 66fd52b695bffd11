import LadderChart.Json.Literal

/-!
JSON values as they stand in a text: number literals are not yet numbers, members of an object keep
their order and their repetitions, and a text may hold half of a surrogate pair, which no string
holds. What a value means is decided by those who read it.
-/

namespace LadderChart

/-- `none` is a text with an unpaired surrogate. -/
abbrev Json.Text := Option String

inductive Json where
  | null
  | bool (b : Bool)
  | number (literal : Json.Literal)
  | text (t : Json.Text)
  | list (items : List Json)
  | object (members : List (Json.Text × Json))

namespace Json

def string (s : String) : Json := .text (some s)

def nat (n : Nat) : Json := .number (.ofNat n)

/-- A value that is not finite has no literal and is written as null. -/
def double (x : Float) : Json :=
  match Literal.ofDouble? x with
  | some l => .number l
  | none => .null

def optional {α : Type} (write : α → Json) : Option α → Json
  | some x => write x
  | none => .null

def record (members : List (String × Json)) : Json :=
  .object (members.map fun m => (some m.1, m.2))

end Json
end LadderChart
