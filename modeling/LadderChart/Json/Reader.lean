import LadderChart.Json.Basic

/-!
Reading JSON text. The grammar is that of the JSON library, and strict: no comments, no trailing
commas, no raw control characters in texts, nothing but blanks around the one value. A text is read
or not; where it is malformed is not told.
-/

namespace LadderChart.Json

def isBlank (c : Char) : Bool := c == ' ' || c == '\n' || c == '\r' || c == '\t'

def skipBlank (input : List Char) : List Char := input.dropWhile isBlank

/-! ### Texts -/

/-- What a quoted text is made of: characters, and 16 bit units given by their number. -/
inductive Piece where
  | char (c : Char)
  | unit (n : Nat)

def hexDigit? (c : Char) : Option Nat :=
  if '0' ≤ c ∧ c ≤ '9' then some (c.toNat - 48)
  else if 'a' ≤ c ∧ c ≤ 'f' then some (c.toNat - 87)
  else if 'A' ≤ c ∧ c ≤ 'F' then some (c.toNat - 55)
  else none

def unit? (a b c d : Char) : Option Nat :=
  match hexDigit? a, hexDigit? b, hexDigit? c, hexDigit? d with
  | some a, some b, some c, some d => some (((a * 16 + b) * 16 + c) * 16 + d)
  | _, _, _, _ => none

def escape? : Char → Option Char
  | '"' => some '"'
  | '\\' => some '\\'
  | '/' => some '/'
  | 'b' => some '\x08'
  | 'f' => some '\x0c'
  | 'n' => some '\n'
  | 'r' => some '\r'
  | 't' => some '\t'
  | _ => none

/-- The pieces of a text up to its closing quote, and what follows it. -/
def pieces : List Char → Option (List Piece × List Char)
  | [] => none
  | '"' :: rest => some ([], rest)
  | '\\' :: 'u' :: a :: b :: c :: d :: rest =>
      match unit? a b c d, pieces rest with
      | some n, some (found, rest) => some (.unit n :: found, rest)
      | _, _ => none
  | '\\' :: c :: rest =>
      match escape? c, pieces rest with
      | some c, some (found, rest) => some (.char c :: found, rest)
      | _, _ => none
  | c :: rest =>
      if c.toNat < 32 then none
      else match pieces rest with
        | some (found, rest) => some (.char c :: found, rest)
        | none => none

def isLeading (n : Nat) : Bool := decide (0xD800 ≤ n) && decide (n < 0xDC00)

def isTrailing (n : Nat) : Bool := decide (0xDC00 ≤ n) && decide (n < 0xE000)

/-- The characters of a text; a pair of surrogates is one character, half a pair is none. -/
def join : List Piece → Option (List Char)
  | [] => some []
  | .char c :: rest => (join rest).map (c :: ·)
  | .unit high :: .unit low :: rest =>
      if isLeading high then
        if isTrailing low then
          (join rest).map (Char.ofNat (0x10000 + (high - 0xD800) * 0x400 + (low - 0xDC00)) :: ·)
        else none
      else if isTrailing high then none
      else (join (.unit low :: rest)).map (Char.ofNat high :: ·)
  | .unit n :: rest =>
      if isLeading n || isTrailing n then none
      else (join rest).map (Char.ofNat n :: ·)

def scanText (input : List Char) : Option (Text × List Char) :=
  (pieces input).map fun found => ((join found.1).map String.ofList, found.2)

/-! ### Values -/

mutual

/-- Reads a value and returns what follows it. The depth bounds the number of nested steps. -/
def scanValue : Nat → List Char → Option (Json × List Char)
  | 0, _ => none
  | depth + 1, input =>
      match skipBlank input with
      | 'n' :: 'u' :: 'l' :: 'l' :: rest => some (.null, rest)
      | 't' :: 'r' :: 'u' :: 'e' :: rest => some (.bool true, rest)
      | 'f' :: 'a' :: 'l' :: 's' :: 'e' :: rest => some (.bool false, rest)
      | '"' :: rest => (scanText rest).map fun found => (.text found.1, found.2)
      | '[' :: rest =>
          match skipBlank rest with
          | ']' :: rest => some (.list [], rest)
          | rest => (scanItems depth rest).map fun found => (.list found.1, found.2)
      | '\x7b' :: rest =>
          match skipBlank rest with
          | '\x7d' :: rest => some (.object [], rest)
          | rest => (scanMembers depth rest).map fun found => (.object found.1, found.2)
      | rest => (Literal.scan rest).map fun found => (.number found.1, found.2)

def scanItems : Nat → List Char → Option (List Json × List Char)
  | 0, _ => none
  | depth + 1, input =>
      match scanValue depth input with
      | none => none
      | some (item, rest) =>
          match skipBlank rest with
          | ',' :: rest => (scanItems depth rest).map fun found => (item :: found.1, found.2)
          | ']' :: rest => some ([item], rest)
          | _ => none

def scanMembers : Nat → List Char → Option (List (Text × Json) × List Char)
  | 0, _ => none
  | depth + 1, input =>
      match skipBlank input with
      | '"' :: rest =>
          match scanText rest with
          | none => none
          | some (key, rest) =>
              match skipBlank rest with
              | ':' :: rest =>
                  match scanValue depth rest with
                  | none => none
                  | some (value, rest) =>
                      match skipBlank rest with
                      | ',' :: rest =>
                          (scanMembers depth rest).map fun found =>
                            ((key, value) :: found.1, found.2)
                      | '\x7d' :: rest => some ([(key, value)], rest)
                      | _ => none
              | _ => none
      | _ => none

end

/-- Reads a whole text as one value. Every two nested steps use up a character. -/
def read (input : List Char) : Option Json :=
  match scanValue (2 * input.length + 1) input with
  | some (value, rest) => if (skipBlank rest).isEmpty then some value else none
  | none => none

def ofString? (input : String) : Option Json := read input.toList

end LadderChart.Json
