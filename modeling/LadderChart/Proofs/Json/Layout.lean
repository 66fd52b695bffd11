import LadderChart.Proofs.Json.Literal
import LadderChart.Proofs.Json.Quoted
import LadderChart.Proofs.Json.Steps

/-!
A written value is read back, on one line or over several. The two ways of writing differ in the
blanks they put between the parts of a value, so reading is proved for any such blanks. The texts and
numbers in the value must be what a text can spell: a text without an unpaired surrogate, a
well-formed literal.
-/

namespace LadderChart.Json

inductive Written : Json → Prop where
  | null : Written .null
  | bool (b : Bool) : Written (.bool b)
  | number (l : Literal) (formed : l.WellFormed) : Written (.number l)
  | text (s : String) : Written (.string s)
  | list (items : List Json) (each : ∀ item ∈ items, Written item) : Written (.list items)
  | record (members : List (String × Json)) (each : ∀ m ∈ members, Written m.2) :
      Written (.record members)

/-- The blanks between the parts of a value: before an item or a closing bracket at some depth of
indentation, and before the value of a member. -/
structure Layout where
  line : Nat → List Char
  space : List Char
  line_blank : ∀ indent, ∀ c ∈ line indent, isBlank c = true
  space_blank : ∀ c ∈ space, isBlank c = true

mutual

def Layout.render (layout : Layout) (indent : Nat) : Json → List Char
  | .null => "null".toList
  | .bool b => renderBool b
  | .number l => l.render
  | .text t => renderText t
  | .list [] => "[]".toList
  | .list (item :: rest) =>
      '[' :: layout.items (indent + 1) (item :: rest) ++ layout.line indent ++ [']']
  | .object [] => ['\x7b', '\x7d']
  | .object (member :: rest) =>
      '\x7b' :: layout.members (indent + 1) (member :: rest) ++ layout.line indent ++ ['\x7d']

def Layout.items (layout : Layout) (indent : Nat) : List Json → List Char
  | [] => []
  | item :: rest =>
      layout.line indent ++ layout.render indent item
        ++ (if rest.isEmpty then [] else ',' :: layout.items indent rest)

def Layout.members (layout : Layout) (indent : Nat) : List (Text × Json) → List Char
  | [] => []
  | (key, value) :: rest =>
      layout.line indent ++ renderText key ++ ':' :: (layout.space ++ layout.render indent value)
        ++ (if rest.isEmpty then [] else ',' :: layout.members indent rest)

end

def Layout.compact : Layout := ⟨fun _ => [], [], nofun, nofun⟩

theorem newLine_blank (indent : Nat) : ∀ c ∈ newLine indent, isBlank c = true := by
  intro c member
  simp only [newLine, List.mem_cons, List.mem_replicate] at member
  rcases member with rfl | ⟨_, rfl⟩ <;> rfl

def Layout.pretty : Layout := ⟨newLine, [' '], newLine_blank, List.forall_mem_singleton.mpr rfl⟩

mutual

theorem renderCompact_eq (indent : Nat) : ∀ j, renderCompact j = Layout.compact.render indent j
  | .null => by rw [renderCompact, Layout.render]
  | .bool b => by rw [renderCompact, Layout.render]
  | .number l => by rw [renderCompact, Layout.render]
  | .text t => by rw [renderCompact, Layout.render]
  | .list [] => by rw [renderCompact, compactItems, Layout.render]; rfl
  | .list (item :: rest) => by
      rw [renderCompact, Layout.render, compactItems_eq (indent + 1) (item :: rest)]
      simp [Layout.compact]
  | .object [] => by rw [renderCompact, compactMembers, Layout.render]; rfl
  | .object (member :: rest) => by
      rw [renderCompact, Layout.render, compactMembers_eq (indent + 1) (member :: rest)]
      simp [Layout.compact]

theorem compactItems_eq (indent : Nat) : ∀ items, compactItems items = Layout.compact.items indent items
  | [] => by rw [compactItems, Layout.items]
  | item :: rest => by
      rw [compactItems, Layout.items, renderCompact_eq indent item, compactItems_eq indent rest]
      rfl

theorem compactMembers_eq (indent : Nat) :
    ∀ members, compactMembers members = Layout.compact.members indent members
  | [] => by rw [compactMembers, Layout.members]
  | (key, value) :: rest => by
      rw [compactMembers, Layout.members, renderCompact_eq indent value, compactMembers_eq indent rest]
      rfl

end

mutual

theorem renderPretty_eq (indent : Nat) : ∀ j, renderPretty indent j = Layout.pretty.render indent j
  | .null => by rw [renderPretty, Layout.render]
  | .bool b => by rw [renderPretty, Layout.render]
  | .number l => by rw [renderPretty, Layout.render]
  | .text t => by rw [renderPretty, Layout.render]
  | .list [] => by rw [renderPretty, Layout.render]
  | .list (item :: rest) => by
      rw [renderPretty, Layout.render, prettyItems_eq (indent + 1) (item :: rest)]
      rfl
  | .object [] => by rw [renderPretty, Layout.render]
  | .object (member :: rest) => by
      rw [renderPretty, Layout.render, prettyMembers_eq (indent + 1) (member :: rest)]
      rfl

theorem prettyItems_eq (indent : Nat) :
    ∀ items, prettyItems indent items = Layout.pretty.items indent items
  | [] => by rw [prettyItems, Layout.items]
  | item :: rest => by
      rw [prettyItems, Layout.items, renderPretty_eq indent item, prettyItems_eq indent rest]
      rfl

theorem prettyMembers_eq (indent : Nat) :
    ∀ members, prettyMembers indent members = Layout.pretty.members indent members
  | [] => by rw [prettyMembers, Layout.members]
  | (key, value) :: rest => by
      rw [prettyMembers, Layout.members, renderPretty_eq indent value, prettyMembers_eq indent rest]
      rfl

end

/-! ### Blanks -/

theorem Layout.skip_line (layout : Layout) (indent : Nat) (rest : List Char) :
    skipBlank (layout.line indent ++ rest) = skipBlank rest :=
  List.dropWhile_append_of_pos (layout.line_blank indent)

theorem Layout.skip_space (layout : Layout) (rest : List Char) :
    skipBlank (layout.space ++ rest) = skipBlank rest :=
  List.dropWhile_append_of_pos layout.space_blank

theorem skipBlank_skipBlank (input : List Char) : skipBlank (skipBlank input) = skipBlank input := by
  induction input with
  | nil => rfl
  | cons c rest ih =>
      by_cases blank : isBlank c = true
      · simpa [skipBlank, blank] using ih
      · simp [skipBlank, blank]

theorem skipBlank_cons (c : Char) (rest : List Char) (dark : isBlank c = false) :
    skipBlank (c :: rest) = c :: rest := by
  simp [skipBlank, dark]

theorem scanValue_blank (depth : Nat) (input other : List Char)
    (same : skipBlank input = skipBlank other) : scanValue depth input = scanValue depth other := by
  cases depth with
  | zero => rfl
  | succ depth => simp only [scanValue, same]

/-! ### First characters -/

def Numeric (c : Char) : Prop := c = '-' ∨ (Digit.ofChar? c).isSome = true

instance (c : Char) : Decidable (Numeric c) := inferInstanceAs (Decidable (_ ∨ _))

/-- The first character of a value is no blank and closes no list. -/
def Opens (text : List Char) : Prop :=
  ∃ c rest, text = c :: rest ∧ isBlank c = false ∧ c ≠ ']'

theorem Numeric.dark {c : Char} (numeric : Numeric c) : isBlank c = false := by
  rw [Bool.eq_false_iff]
  intro blank
  rcases blank_cases blank with rfl | rfl | rfl | rfl <;> exact absurd numeric (by decide)

theorem render_numeric (l : Literal) (formed : l.WellFormed) :
    ∃ c rest, l.render = c :: rest ∧ Numeric c := by
  obtain ⟨negative, whole, fraction, exponent⟩ := l
  match negative, whole with
  | _, [] => exact absurd rfl formed.whole
  | true, _ => exact ⟨'-', _, rfl, .inl rfl⟩
  | false, d :: _ => exact ⟨d.char, _, rfl, .inr (by rw [Digits.ofChar_char]; rfl)⟩

theorem Layout.render_opens (layout : Layout) (indent : Nat) (j : Json) (written : Written j) :
    Opens (layout.render indent j) := by
  cases written with
  | null => exact ⟨'n', _, rfl, rfl, by decide⟩
  | bool b =>
      cases b with
      | false => exact ⟨'f', _, rfl, rfl, by decide⟩
      | true => exact ⟨'t', _, rfl, rfl, by decide⟩
  | number l formed =>
      obtain ⟨c, rest, text, numeric⟩ := render_numeric l formed
      refine ⟨c, rest, text, numeric.dark, ?_⟩
      rintro rfl
      exact absurd numeric (by decide)
  | text s => exact ⟨'"', _, rfl, rfl, by decide⟩
  | list items _ =>
      cases items with
      | nil => exact ⟨'[', _, rfl, rfl, by decide⟩
      | cons item rest => exact ⟨'[', _, by rw [Layout.render]; rfl, rfl, by decide⟩
  | record members _ =>
      cases members with
      | nil => exact ⟨'\x7b', _, by rw [record, List.map_nil, Layout.render], rfl, by decide⟩
      | cons member rest =>
          exact ⟨'\x7b', _, by rw [record, List.map_cons, Layout.render]; rfl, rfl, by decide⟩

theorem closes_cons (c : Char) (rest : List Char) (digit : Digit.ofChar? c = none)
    (other : c ≠ '.' ∧ ¬ (c = 'e' ∨ c = 'E')) : Literal.Closes (c :: rest) where
  digit := by
    intro first same
    cases same
    exact digit
  point := by
    intro first same
    cases same
    exact other.1
  mark := by
    intro first same
    cases same
    exact other.2

theorem closes_comma (rest : List Char) : Literal.Closes (',' :: rest) :=
  closes_cons _ _ (by decide) (by decide)

/-- Blanks may come before what closes a literal. -/
theorem Layout.closes_line (layout : Layout) (indent : Nat) {rest : List Char}
    (closes : Literal.Closes rest) : Literal.Closes (layout.line indent ++ rest) := by
  have blank := layout.line_blank indent
  revert blank
  cases layout.line indent with
  | nil => exact fun _ => closes
  | cons c others =>
      intro blank
      have first := blank c List.mem_cons_self
      rcases blank_cases first with rfl | rfl | rfl | rfl <;> exact closes_cons _ _ (by decide) (by decide)

/-! ### Values -/

/-- Enough depth reads the value and leaves what comes after it. -/
def Reads (layout : Layout) (j : Json) : Prop :=
  ∀ indent depth rest, 2 * (layout.render indent j).length ≤ depth → Literal.Closes rest →
    scanValue depth (layout.render indent j ++ rest) = some (j, rest)

section Reading
variable {layout : Layout}

/-- Something is written, so there is depth for a first step. -/
theorem Reads.of_step {j : Json} (written : Written j) (step : ∀ indent depth rest,
    2 * (layout.render indent j).length ≤ depth + 1 → Literal.Closes rest →
      scanValue (depth + 1) (layout.render indent j ++ rest) = some (j, rest)) : Reads layout j := by
  intro indent depth rest enough closes
  obtain ⟨c, more, text, _⟩ := layout.render_opens indent j written
  have filled : 0 < (layout.render indent j).length := by
    rw [text]
    exact Nat.succ_pos _
  obtain ⟨depth, rfl⟩ := Nat.exists_eq_add_one.mpr (show 0 < depth by omega)
  exact step indent depth rest enough closes

theorem scanValue_numeric (depth : Nat) (c : Char) (rest : List Char) (numeric : Numeric c) :
    scanValue (depth + 1) (c :: rest) =
      (Literal.scan (c :: rest)).map fun found => (.number found.1, found.2) := by
  simp only [scanValue, skipBlank_cons c rest numeric.dark]
  split
  iterate 6
    rename_i starts
    cases starts
    exact absurd numeric (by decide)
  rfl

theorem reads_number (l : Literal) (formed : l.WellFormed) : Reads layout (.number l) := by
  refine .of_step (.number l formed) fun indent depth rest _ closes => ?_
  obtain ⟨c, others, text, numeric⟩ := render_numeric l formed
  have scanned := Literal.scan_render l formed rest closes
  rw [text, List.cons_append] at scanned
  rw [Layout.render, text, List.cons_append, scanValue_numeric depth c _ numeric, scanned,
    Option.map_some]

theorem reads_text (s : String) : Reads layout (.string s) := by
  refine .of_step (.text s) fun indent depth rest _ _ => ?_
  have scanned := scanText_quoted s rest
  rw [string, Layout.render, renderText, quoted]
  simp [scanValue, skipBlank_cons, isBlank, scanned]

theorem scanItems_items (indent outer : Nat) (first : Json) (others : List Json)
    (each : ∀ item ∈ first :: others, Reads layout item) (depth : Nat) (input rest : List Char)
    (enough : 2 * (layout.items indent (first :: others)).length < depth)
    (starts : skipBlank input =
      skipBlank (layout.items indent (first :: others) ++ (layout.line outer ++ ']' :: rest))) :
    scanItems depth input = some (first :: others, rest) := by
  induction others generalizing first depth input with
  | nil =>
      have read := each first (by simp) indent
      simp only [Layout.items, List.isEmpty_nil, if_true, List.append_nil, List.length_append]
        at enough
      obtain ⟨depth, rfl⟩ : ∃ d, depth = d + 1 := ⟨depth - 1, by omega⟩
      have item := read depth (layout.line outer ++ ']' :: rest) (by omega) (layout.closes_line outer
        (closes_cons _ _ (by decide) (by decide)))
      simp only [Layout.items, List.isEmpty_nil, if_true, List.append_nil, List.append_assoc,
        layout.skip_line] at starts
      rw [scanItems, scanValue_blank depth _ _ starts, item]
      simp [layout.skip_line, skipBlank_cons, isBlank]
  | cons second others ih =>
      have read := each first (by simp) indent
      rw [Layout.items] at enough
      simp only [List.isEmpty_cons, Bool.false_eq_true, if_false, List.length_append,
        List.length_cons] at enough
      obtain ⟨depth, rfl⟩ : ∃ d, depth = d + 1 := ⟨depth - 1, by omega⟩
      have item := read depth (',' :: (layout.items indent (second :: others)
        ++ (layout.line outer ++ ']' :: rest))) (by omega) (closes_comma _)
      -- the items after the comma are read one step deeper, with what is left of the depth
      have more := ih second (fun item member => each item (by simp [member])) depth _
        (by omega) rfl
      rw [Layout.items] at starts
      simp only [List.isEmpty_cons, Bool.false_eq_true, if_false, List.append_assoc,
        List.cons_append, layout.skip_line] at starts
      rw [scanItems, scanValue_blank depth _ _ starts, item]
      simp [skipBlank_cons, isBlank, more]

theorem reads_list (items : List Json) (each : ∀ item ∈ items, Written item ∧ Reads layout item) :
    Reads layout (.list items) := by
  have written : Written (.list items) := .list items fun item member => (each item member).1
  refine .of_step written fun indent depth rest enough _ => ?_
  cases items with
  | nil =>
      rw [Layout.render]
      simp [scanValue, skipBlank_cons, isBlank]
  | cons first others =>
      obtain ⟨c, more, head, dark, inside⟩ :=
        layout.render_opens (indent + 1) first (each first (by simp)).1
      rw [Layout.render] at enough ⊢
      simp only [List.length_append, List.length_cons, List.length_nil] at enough
      have opened : ∃ after, skipBlank (layout.items (indent + 1) (first :: others)
          ++ (layout.line indent ++ ']' :: rest)) = c :: after := by
        rw [Layout.items, List.append_assoc, List.append_assoc, layout.skip_line, head,
          List.cons_append]
        exact ⟨_, skipBlank_cons c _ dark⟩
      obtain ⟨after, opened⟩ := opened
      have read := scanItems_items (indent + 1) indent first others
        (fun item member => (each item member).2) depth (c :: after) rest (by omega)
        (by rw [← opened, skipBlank_skipBlank])
      simp only [List.cons_append, List.append_assoc, List.nil_append, scanValue,
        skipBlank_cons '[' _ rfl, opened]
      split
      · rename_i closed
        cases closed
        exact absurd rfl inside
      · rw [read, Option.map_some]

theorem Reads.after_space {j : Json} (read : Reads layout j) (indent depth : Nat) (rest : List Char)
    (enough : 2 * (layout.render indent j).length ≤ depth) (closes : Literal.Closes rest) :
    scanValue depth (layout.space ++ (layout.render indent j ++ rest)) = some (j, rest) := by
  rw [scanValue_blank depth _ _ (layout.skip_space _)]
  exact read indent depth rest enough closes

def spelt (members : List (String × Json)) : List (Text × Json) :=
  members.map fun m => (some m.1, m.2)

theorem spelt_cons (m : String × Json) (others : List (String × Json)) :
    spelt (m :: others) = (some m.1, m.2) :: spelt others := rfl

theorem members_spelt (indent : Nat) (m : String × Json) (others : List (String × Json)) :
    layout.members indent (spelt (m :: others)) =
      layout.line indent ++ ('"' :: (m.1.toList.flatMap escaped ++ '"' :: ':' ::
        (layout.space ++ (layout.render indent m.2 ++ if others.isEmpty then []
          else ',' :: layout.members indent (spelt others))))) := by
  simp [spelt, Layout.members, renderText, quoted]

theorem scanMembers_members (indent outer : Nat) (first : String × Json)
    (others : List (String × Json)) (each : ∀ m ∈ first :: others, Reads layout m.2) (depth : Nat)
    (input rest : List Char)
    (enough : 2 * (layout.members indent (spelt (first :: others))).length < depth)
    (starts : skipBlank input = skipBlank
      (layout.members indent (spelt (first :: others)) ++ (layout.line outer ++ '\x7d' :: rest))) :
    scanMembers depth input = some (spelt (first :: others), rest) := by
  induction others generalizing first depth input with
  | nil =>
      have read := (each first (by simp)).after_space indent
      rw [members_spelt] at enough starts
      simp only [List.isEmpty_nil, if_true, List.append_nil, List.length_append,
        List.length_cons] at enough
      obtain ⟨depth, rfl⟩ : ∃ d, depth = d + 1 := ⟨depth - 1, by omega⟩
      have value := read depth (layout.line outer ++ '\x7d' :: rest) (by omega)
        (layout.closes_line outer (closes_cons _ _ (by decide) (by decide)))
      simp only [List.isEmpty_nil, if_true, List.append_nil, List.append_assoc, List.cons_append,
        layout.skip_line, skipBlank_cons '"' _ rfl] at starts
      rw [scanMembers, starts]
      simp [scanText_quoted, skipBlank_cons, isBlank, value, layout.skip_line, spelt]
  | cons second others ih =>
      have read := (each first (by simp)).after_space indent
      rw [members_spelt] at enough starts
      simp only [List.isEmpty_cons, Bool.false_eq_true, if_false, List.length_append,
        List.length_cons] at enough
      obtain ⟨depth, rfl⟩ : ∃ d, depth = d + 1 := ⟨depth - 1, by omega⟩
      have value := read depth (',' :: (layout.members indent (spelt (second :: others))
        ++ (layout.line outer ++ '\x7d' :: rest))) (by omega) (closes_comma _)
      have more := ih second (fun m member => each m (by simp [member])) depth _ (by omega) rfl
      simp only [List.isEmpty_cons, Bool.false_eq_true, if_false, List.append_assoc,
        List.cons_append, layout.skip_line, skipBlank_cons '"' _ rfl] at starts
      rw [scanMembers, starts, spelt_cons first]
      simp [scanText_quoted, skipBlank_cons, isBlank, value, more]

theorem reads_record (members : List (String × Json))
    (each : ∀ m ∈ members, Written m.2 ∧ Reads layout m.2) : Reads layout (.record members) := by
  have written : Written (.record members) :=
    .record members fun m member => (each m member).1
  refine .of_step written fun indent depth rest enough _ => ?_
  cases members with
  | nil =>
      rw [record, List.map_nil, Layout.render]
      simp [scanValue, skipBlank_cons, isBlank]
  | cons first others =>
      have text : layout.render indent (.record (first :: others)) =
          '\x7b' :: (layout.members (indent + 1) (spelt (first :: others))
            ++ (layout.line indent ++ ['\x7d'])) := by
        change layout.render indent (.object ((some first.1, first.2) :: spelt others)) = _
        rw [Layout.render, List.cons_append, List.cons_append, List.append_assoc]
        rfl
      rw [text] at enough ⊢
      simp only [List.length_append, List.length_cons, List.length_nil] at enough
      have read := scanMembers_members (indent + 1) indent first others
        (fun m member => (each m member).2) depth
        (skipBlank (layout.members (indent + 1) (spelt (first :: others))
          ++ (layout.line indent ++ '\x7d' :: rest))) rest (by omega) (skipBlank_skipBlank _)
      have quote : ∃ after, skipBlank (layout.members (indent + 1) (spelt (first :: others))
          ++ (layout.line indent ++ '\x7d' :: rest)) = '"' :: after := by
        rw [members_spelt, List.append_assoc, layout.skip_line, List.cons_append,
          skipBlank_cons '"' _ rfl]
        exact ⟨_, rfl⟩
      obtain ⟨after, quote⟩ := quote
      rw [quote] at read
      change _ = some (Json.object (spelt (first :: others)), rest)
      simp [scanValue, skipBlank_cons, isBlank, quote, read]

theorem Written.reads {j : Json} (written : Written j) : Reads layout j := by
  induction written with
  | null =>
      refine .of_step .null fun indent depth rest _ _ => ?_
      rw [Layout.render]
      simp [scanValue, skipBlank_cons, isBlank]
  | bool b =>
      refine .of_step (.bool b) fun indent depth rest _ _ => ?_
      rw [Layout.render]
      cases b <;> simp [scanValue, skipBlank_cons, isBlank, renderBool]
  | number l formed => exact reads_number l formed
  | text s => exact reads_text s
  | list items each ih => exact reads_list items fun item member => ⟨each item member, ih item member⟩
  | record members each ih =>
      exact reads_record members fun m member => ⟨each m member, ih m member⟩

theorem Layout.read_render (layout : Layout) (j : Json) (written : Written j) :
    read (layout.render 0 j) = some j := by
  have reads : Reads layout j := written.reads
  have scanned := reads 0 (2 * (layout.render 0 j).length + 1) [] (by omega)
    Literal.closes_nil
  rw [List.append_nil] at scanned
  simp [read, scanned, skipBlank]

end Reading

theorem read_compact (j : Json) (written : Written j) : read (renderCompact j) = some j := by
  rw [renderCompact_eq 0]
  exact Layout.compact.read_render j written

theorem ofString?_pretty (j : Json) (written : Written j) : ofString? j.pretty = some j := by
  rw [ofString?, pretty, String.toList_ofList, renderPretty_eq]
  exact Layout.pretty.read_render j written

/-! ### One line -/

theorem digits_unbroken (digits : List Digit) : '\n' ∉ Digits.text digits := by
  have each : ∀ d : Digit, d.char ≠ '\n' := by decide
  intro member
  obtain ⟨d, _, same⟩ := List.mem_map.mp member
  exact each d same

theorem literal_unbroken (l : Literal) : '\n' ∉ l.render := by
  obtain ⟨negative, whole, fraction, exponent⟩ := l
  have sign : '\n' ∉ (if negative then ['-'] else []) := by cases negative <;> decide
  have point : '\n' ∉ Literal.renderFraction fraction := by
    cases fraction with
    | nil => exact List.not_mem_nil
    | cons d rest => exact List.not_mem_cons_of_ne_of_not_mem (by decide) (digits_unbroken _)
  have mark : '\n' ∉ Literal.renderExponent exponent := by
    cases exponent with
    | none => exact List.not_mem_nil
    | some e =>
        obtain ⟨lowered, digits⟩ := e
        cases lowered <;> simp [Literal.renderExponent, digits_unbroken]
  simp [Literal.render, sign, point, mark, digits_unbroken]

theorem escaped_unbroken (c : Char) : '\n' ∉ escaped c := by
  have hex : ∀ n < 32, hexChar (n / 16) ≠ '\n' ∧ hexChar (n % 16) ≠ '\n' := by decide
  unfold escaped
  split
  iterate 7 decide
  rename_i feed _ _
  split
  · rename_i low
    obtain ⟨first, second⟩ := hex c.toNat low
    simp [first.symm, second.symm]
  · simpa [eq_comm] using feed

theorem text_unbroken (t : Text) : '\n' ∉ renderText t := by
  have quoted_unbroken : ∀ s, '\n' ∉ quoted s := by
    intro s
    have inside : '\n' ∉ s.flatMap escaped := by
      intro member
      obtain ⟨c, _, there⟩ := List.mem_flatMap.mp member
      exact escaped_unbroken c there
    simp [quoted, inside]
  cases t <;> exact quoted_unbroken _

mutual

/-- Compact text has no line feed in it, for those of texts are escaped. -/
theorem compact_unbroken : ∀ j, '\n' ∉ renderCompact j
  | .null => by decide
  | .bool b => by cases b <;> decide
  | .number l => by
      rw [renderCompact]
      exact literal_unbroken l
  | .text t => by
      rw [renderCompact]
      exact text_unbroken t
  | .list items => by simp [renderCompact, compactItems_unbroken items]
  | .object members => by simp [renderCompact, compactMembers_unbroken members]

theorem compactItems_unbroken : ∀ items, '\n' ∉ compactItems items
  | [] => by simp [compactItems]
  | item :: rest => by
      have first := compact_unbroken item
      have others := compactItems_unbroken rest
      rw [compactItems]
      cases rest.isEmpty <;> simp [first, others]

theorem compactMembers_unbroken : ∀ members, '\n' ∉ compactMembers members
  | [] => by simp [compactMembers]
  | (key, value) :: rest => by
      have first := compact_unbroken value
      have others := compactMembers_unbroken rest
      rw [compactMembers]
      cases rest.isEmpty <;> simp [text_unbroken, first, others]

end

end LadderChart.Json
