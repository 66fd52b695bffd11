import LadderChart.Json.Basic

/-!
Reading typed values out of JSON, by the rules of derived readers. A record may be written as an
object or as the list of its fields in order. In an object unknown names are passed over and a known
name stands at most once; a list may stop early where the missing fields have a default.
-/

namespace LadderChart.Json

/-- The fields found for a record, and whether they were given by name. -/
structure Fields where
  named : Bool
  found : List (String × Json)

/-- Member names as strings; a name that is no string is refused, known or not. -/
def entries? : Json → Option (List (String × Json))
  | .object members => members.mapM fun m => m.1.map fun key => (key, m.2)
  | _ => none

def fields? (names : List String) : Json → Option Fields
  | .list items =>
      if items.length ≤ names.length then some ⟨false, names.zip items⟩ else none
  | value =>
      match entries? value with
      | none => none
      | some entries =>
          let known := entries.filter fun e => names.contains e.1
          if (known.map (·.1)).Nodup then some ⟨true, known⟩ else none

namespace Fields
variable {τ : Type}

def get? (f : Fields) (name : String) : Option Json := f.found.lookup name

def required (f : Fields) (name : String) (read : Json → Option τ) : Option τ :=
  (f.get? name).bind read

def withDefault (f : Fields) (name : String) (default : τ) (read : Json → Option τ) : Option τ :=
  match f.get? name with
  | some value => read value
  | none => some default

def nullable (read : Json → Option τ) : Json → Option (Option τ)
  | .null => some none
  | value => (read value).map some

/-- A field that may be null, or missing where fields are given by name. -/
def optional (f : Fields) (name : String) (read : Json → Option τ) : Option (Option τ) :=
  match f.get? name with
  | some value => nullable read value
  | none => if f.named then some none else none

end Fields

def double? : Json → Option Float
  | .number l => l.double?
  | _ => none

def integerIn? (low high : Int) : Json → Option Int
  | .number l =>
      match l.integer? with
      | some n => if low ≤ n ∧ n ≤ high then some n else none
      | none => none
  | _ => none

def natUpTo? (limit : Nat) (j : Json) : Option Nat := (integerIn? 0 limit j).map Int.toNat

def bool? : Json → Option Bool
  | .bool b => some b
  | _ => none

def string? : Json → Option String
  | .text t => t
  | _ => none

def list? {τ : Type} (read : Json → Option τ) : Json → Option (List τ)
  | .list items => items.mapM read
  | _ => none

def pair? {τ : Type} (read : Json → Option τ) : Json → Option (τ × τ)
  | .list [a, b] =>
      match read a, read b with
      | some a, some b => some (a, b)
      | _, _ => none
  | _ => none

/-- One of several alternatives: its name alone, or an object with one member that carries its
content. -/
def alternative? : Json → Option (String × Json)
  | .text (some name) => some (name, .null)
  | .object [(some name, content)] => some (name, content)
  | _ => none

def plainAlternative? (j : Json) : Option String :=
  match alternative? j with
  | some (name, .null) => some name
  | _ => none

end LadderChart.Json
