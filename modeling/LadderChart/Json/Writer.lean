import LadderChart.Json.Basic

/-!
Writing JSON text as the JSON library does, on one line or with an indentation of two blanks.
Quotes, backslashes and the control characters below the blank are escaped, and nothing else.
-/

namespace LadderChart.Json

def hexChar (n : Nat) : Char := if n < 10 then Char.ofNat (48 + n) else Char.ofNat (87 + n)

def escaped : Char → List Char
  | '"' => ['\\', '"']
  | '\\' => ['\\', '\\']
  | '\x08' => ['\\', 'b']
  | '\x0c' => ['\\', 'f']
  | '\n' => ['\\', 'n']
  | '\r' => ['\\', 'r']
  | '\t' => ['\\', 't']
  | c =>
      if c.toNat < 32 then ['\\', 'u', '0', '0', hexChar (c.toNat / 16), hexChar (c.toNat % 16)]
      else [c]

def quoted (s : List Char) : List Char := '"' :: s.flatMap escaped ++ ['"']

/-- A text that no string holds has no written form of its own and is left empty. -/
def renderText : Text → List Char
  | some s => quoted s.toList
  | none => quoted []

def renderBool (b : Bool) : List Char := (if b then "true" else "false").toList

mutual

def renderCompact : Json → List Char
  | .null => "null".toList
  | .bool b => renderBool b
  | .number l => l.render
  | .text t => renderText t
  | .list items => '[' :: compactItems items ++ [']']
  | .object members => '\x7b' :: compactMembers members ++ ['\x7d']

def compactItems : List Json → List Char
  | [] => []
  | item :: rest =>
      renderCompact item ++ (if rest.isEmpty then [] else ',' :: compactItems rest)

def compactMembers : List (Text × Json) → List Char
  | [] => []
  | (key, value) :: rest =>
      renderText key ++ ':' :: renderCompact value
        ++ (if rest.isEmpty then [] else ',' :: compactMembers rest)

end

def newLine (indent : Nat) : List Char := '\n' :: List.replicate (2 * indent) ' '

mutual

def renderPretty (indent : Nat) : Json → List Char
  | .null => "null".toList
  | .bool b => renderBool b
  | .number l => l.render
  | .text t => renderText t
  | .list [] => "[]".toList
  | .list (item :: rest) =>
      '[' :: prettyItems (indent + 1) (item :: rest) ++ newLine indent ++ [']']
  | .object [] => ['\x7b', '\x7d']
  | .object (member :: rest) =>
      '\x7b' :: prettyMembers (indent + 1) (member :: rest) ++ newLine indent ++ ['\x7d']

def prettyItems (indent : Nat) : List Json → List Char
  | [] => []
  | item :: rest =>
      newLine indent ++ renderPretty indent item
        ++ (if rest.isEmpty then [] else ',' :: prettyItems indent rest)

def prettyMembers (indent : Nat) : List (Text × Json) → List Char
  | [] => []
  | (key, value) :: rest =>
      newLine indent ++ renderText key ++ ':' :: ' ' :: renderPretty indent value
        ++ (if rest.isEmpty then [] else ',' :: prettyMembers indent rest)

end

def compact (j : Json) : String := String.ofList (renderCompact j)

def pretty (j : Json) : String := String.ofList (renderPretty 0 j)

end LadderChart.Json
