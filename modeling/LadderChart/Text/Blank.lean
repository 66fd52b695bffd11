/-!
Blank characters and lines. A character is blank if Unicode gives it the property `White_Space`;
a line ends with a line feed, and one carriage return before it belongs to the end.
-/

namespace LadderChart.Text

/-- The 25 code points with the property `White_Space`. -/
def isBlank (c : Char) : Bool :=
  let n := c.toNat
  (9 ≤ n && n ≤ 13) || n == 0x20 || n == 0x85 || n == 0xA0 || n == 0x1680
    || (0x2000 ≤ n && n ≤ 0x200A) || n == 0x2028 || n == 0x2029 || n == 0x202F || n == 0x205F
    || n == 0x3000

def trim (text : List Char) : List Char :=
  ((text.dropWhile isBlank).reverse.dropWhile isBlank).reverse

def dropReturn (line : List Char) : List Char :=
  match line.getLast? with
  | some '\r' => line.dropLast
  | _ => line

def pieces : List Char → List (List Char)
  | [] => [[]]
  | '\n' :: rest => [] :: pieces rest
  | c :: rest =>
      match pieces rest with
      | [] => [[c]]
      | first :: more => (c :: first) :: more

theorem pieces_ne_nil (text : List Char) : pieces text ≠ [] := by
  fun_cases pieces text <;> simp

theorem pieces_append (first second : List Char) :
    pieces (first ++ '\n' :: second) = pieces first ++ pieces second := by
  induction first with
  | nil => simp [pieces]
  | cons c rest ih =>
      by_cases feed : c = '\n'
      · subst feed
        simp [pieces, ih]
      · obtain ⟨head, more, split⟩ := List.exists_cons_of_ne_nil (pieces_ne_nil rest)
        simp [pieces, ih, split]

/-- The lines of a text. An end of line closes a line, so nothing after the last one is no line;
a carriage return at the end of the text is kept when no line feed follows. -/
def lines (text : List Char) : List (List Char) :=
  let parts := pieces text
  let closed := parts.dropLast.map dropReturn
  match parts.getLast? with
  | none | some [] => closed
  | some last => closed ++ [last]

end LadderChart.Text
