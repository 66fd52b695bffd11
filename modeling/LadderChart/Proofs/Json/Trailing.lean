import LadderChart.Proofs.Json.Steps

/-!
A blank at the end of a JSON text does not matter. Nothing that can be scanned ends in one, so every
scanner finds the same with the blank as without it and leaves the blank to what follows. The two
readings start with different depths, and either is enough.
-/

namespace LadderChart.Json

/-- What was found, with one more character left over. -/
def followed {τ : Type} (c : Char) (found : τ × List Char) : τ × List Char :=
  (found.1, found.2 ++ [c])

/-- On a text that is short enough one scanner finds what the other finds, and leaves the character
that follows the text. -/
def Follows {τ : Type} (c : Char) (size : Nat) (scan other : List Char → Option (τ × List Char)) :
    Prop :=
  ∀ text, text.length < size → other (text ++ [c]) = (scan text).map (followed c)

section Trailing
variable {c : Char} (blank : isBlank c = true)
include blank

/-! ### Numbers -/

theorem digits_followed (text : List Char) :
    Digits.scan (text ++ [c]) = followed c (Digits.scan text) := by
  induction text with
  | nil =>
      rcases blank_cases blank with rfl | rfl | rfl | rfl <;> rfl
  | cons d rest ih =>
      cases digit : Digit.ofChar? d with
      | none => simp [Digits.scan, digit, followed]
      | some d => simp [Digits.scan, digit, ih, followed]

theorem scanWhole_followed (text : List Char) :
    Literal.scanWhole (text ++ [c]) = (Literal.scanWhole text).map (followed c) := by
  rw [Literal.scanWhole, Literal.scanWhole, digits_followed blank]
  obtain ⟨digits, rest⟩ := Digits.scan text
  simp only [followed]
  split <;> split <;> simp_all [followed]

theorem scanFraction_followed (text : List Char) :
    Literal.scanFraction (text ++ [c]) = (Literal.scanFraction text).map (followed c) := by
  cases text with
  | nil => rcases blank_cases blank with rfl | rfl | rfl | rfl <;> rfl
  | cons d rest =>
      by_cases point : d = '.'
      · subst point
        simp only [List.cons_append, Literal.scanFraction, digits_followed blank]
        obtain ⟨digits, rest⟩ := Digits.scan rest
        cases digits <;> simp [followed]
      · simp [Literal.scanFraction, point, followed]

theorem scanSign_followed (text : List Char) :
    Literal.scanSign (text ++ [c]) = followed c (Literal.scanSign text) := by
  cases text with
  | nil => rcases blank_cases blank with rfl | rfl | rfl | rfl <;> rfl
  | cons d rest =>
      by_cases sign : d = '-' ∨ d = '+'
      · rcases sign with rfl | rfl <;> rfl
      · rw [not_or] at sign
        simp [Literal.scanSign, sign, followed]

theorem scanExponent_followed (text : List Char) :
    Literal.scanExponent (text ++ [c]) = (Literal.scanExponent text).map (followed c) := by
  cases text with
  | nil => rcases blank_cases blank with rfl | rfl | rfl | rfl <;> rfl
  | cons d rest =>
      by_cases mark : d = 'e' ∨ d = 'E'
      · simp only [List.cons_append, Literal.scanExponent, mark, if_true,
          scanSign_followed blank, followed, digits_followed blank]
        obtain ⟨digits, rest⟩ := Digits.scan (Literal.scanSign rest).2
        cases digits <;> simp [followed]
      · simp [Literal.scanExponent, mark, followed]

theorem unsigned_followed (negative : Bool) (text : List Char) :
    unsigned negative (text ++ [c]) = (unsigned negative text).map (followed c) := by
  unfold unsigned
  rw [scanWhole_followed blank]
  cases Literal.scanWhole text with
  | none => rfl
  | some whole =>
      simp only [Option.map_some, followed, scanFraction_followed blank]
      cases Literal.scanFraction whole.2 with
      | none => rfl
      | some fraction =>
          simp only [Option.map_some, followed, scanExponent_followed blank]
          cases Literal.scanExponent fraction.2 <;> rfl

theorem number_followed (text : List Char) :
    Literal.scan (text ++ [c]) = (Literal.scan text).map (followed c) := by
  cases text with
  | nil => rcases blank_cases blank with rfl | rfl | rfl | rfl <;> rfl
  | cons d rest =>
      by_cases minus : d = '-'
      · subst minus
        exact unsigned_followed blank true rest
      · rw [List.cons_append, scan_plain d _ minus, scan_plain d _ minus]
        exact unsigned_followed blank false (d :: rest)

/-! ### Texts -/

theorem blank_alone : hexDigit? c = none ∧ escape? c = none ∧ pieces [c] = none ∧ c ≠ 'u' := by
  rcases blank_cases blank with rfl | rfl | rfl | rfl <;> decide

omit blank in
theorem preceded_followed (piece : Piece) (found : Option (List Piece × List Char)) :
    (found.map (followed c)).map (preceded piece) = (found.map (preceded piece)).map (followed c) := by
  cases found <;> rfl

theorem pieces_followed (text : List Char) :
    pieces (text ++ [c]) = (pieces text).map (followed c) := by
  obtain ⟨digit, escape, alone, mark⟩ := blank_alone blank
  match text with
  | [] => exact alone
  | d :: rest =>
    by_cases quote : d = '"'
    · subst quote
      rfl
    by_cases backslash : d = '\\'
    · subst backslash
      match rest with
      | [] =>
          rw [List.singleton_append, pieces_escape c [] fun same => absurd same mark, escape]
          rfl
      | e :: rest =>
        by_cases unicode : e = 'u' ∧ 4 ≤ rest.length
        · obtain ⟨rfl, long⟩ := unicode
          match rest, long with
          | p :: q :: r :: s :: rest, _ =>
            simp only [List.cons_append, pieces_unicode, pieces_followed rest, preceded_followed]
            cases unit? p q r s <;> rfl
        by_cases cut : e = 'u' ∧ rest.length = 3
        · -- with the blank there are four characters again, and the last is no digit
          obtain ⟨rfl, three⟩ := cut
          match rest, three with
          | [p, q, r], _ =>
            have unit : unit? p q r c = none := by simp [unit?, digit]
            have ends := pieces_escape 'u' [p, q, r] fun _ => by simp
            simp only [List.cons_append, List.nil_append, pieces_unicode, unit, ends]
            rfl
        · have short : e = 'u' → (rest ++ [c]).length < 4 := by
            intro same
            simp only [same, true_and] at unicode cut
            rw [List.length_append, List.length_singleton]
            omega
          have shorter : e = 'u' → rest.length < 4 := by
            intro same
            have bound := short same
            rw [List.length_append] at bound
            omega
          rw [List.cons_append, List.cons_append, pieces_escape e _ short,
            pieces_escape e _ shorter, pieces_followed rest]
          cases escape? e with
          | none => rfl
          | some e => exact preceded_followed _ _
    · rw [List.cons_append, pieces_ordinary d _ quote backslash,
        pieces_ordinary d _ quote backslash, pieces_followed rest, preceded_followed]
      split <;> rfl
termination_by text.length

theorem scanText_followed (text : List Char) :
    scanText (text ++ [c]) = (scanText text).map (followed c) := by
  rw [scanText, scanText, pieces_followed blank]
  cases pieces text <;> rfl

/-! ### Blanks -/

theorem skipBlank_followed (text : List Char) :
    skipBlank text = [] ∧ skipBlank (text ++ [c]) = [] ∨
      skipBlank text ≠ [] ∧ skipBlank (text ++ [c]) = skipBlank text ++ [c] := by
  induction text with
  | nil => simp [skipBlank, blank]
  | cons d rest ih =>
      by_cases dark : isBlank d = true
      · simpa [skipBlank, dark] using ih
      · simp [skipBlank, dark]

theorem Follows.after_blanks {τ : Type} {size : Nat}
    {scan other : List Char → Option (τ × List Char)} (follows : Follows c size scan other)
    (silent : scan [] = none ∧ other [] = none) :
    Follows c size (fun text => scan (skipBlank text)) fun text => other (skipBlank text) := by
  intro text short
  rcases skipBlank_followed blank text with ⟨empty, empty'⟩ | ⟨_, same⟩
  · simp [empty, empty', silent]
  · simp only [same]
    exact follows _ (Nat.lt_of_le_of_lt (skipBlank_suffix text).length_le short)

omit blank in
/-- A word that does not end in the character is not completed by it. -/
theorem begins_followed {word rest text : List Char} (ends : c ∉ word)
    (same : text ++ [c] = word ++ rest) : ∃ more, text = word ++ more := by
  rcases List.append_eq_append_iff.mp same with ⟨more, longer, last⟩ | ⟨more, shorter, _⟩
  · cases more with
    | nil => exact ⟨[], by simpa using longer.symm⟩
    | cons d more =>
        have first : c = d := (List.cons.inj last).1
        rw [longer, first] at ends
        simp at ends
  · exact ⟨more, shorter⟩

omit blank in
theorem Follows.map {σ τ : Type} {size : Nat} {scan other : List Char → Option (σ × List Char)}
    (follows : Follows c size scan other) (f : σ → τ) :
    Follows c size (fun text => (scan text).map fun found => (f found.1, found.2))
      fun text => (other text).map fun found => (f found.1, found.2) := by
  intro text short
  simp only [follows text short]
  cases scan text <;> rfl

/-- A text that does not begin with a word does not do so with a blank at its end. -/
theorem not_begun (word : List Char) {rest text : List Char}
    (dark : word.all (fun d => !isBlank d) = true)
    (apart : ∀ more, text = word ++ more → False) (same : text ++ [c] = word ++ rest) : False := by
  have ends : c ∉ word := by
    intro member
    have other := List.all_eq_true.mp dark c member
    rw [blank] at other
    cases other
  obtain ⟨more, starts⟩ := begins_followed ends same
  exact apart more starts

/-! ### Values -/

section Steps
variable {size depth other : Nat}
  (items : Follows c size (scanItems depth) (scanItems other))
  (members : Follows c size (scanMembers depth) (scanMembers other))

include items in
theorem list_follows : Follows c size (listStep depth) (listStep other) := by
  intro text short
  fun_cases listStep depth text with
  | case1 rest => rfl
  | case2 _ apart =>
      rw [listStep]
      · exact items.map _ text short
      · intro rest same
        exact not_begun blank [_] rfl apart same

include members in
theorem object_follows : Follows c size (objectStep depth) (objectStep other) := by
  intro text short
  fun_cases objectStep depth text with
  | case1 rest => rfl
  | case2 _ apart =>
      rw [objectStep]
      · exact members.map _ text short
      · intro rest same
        exact not_begun blank [_] rfl apart same

include items members in
theorem value_follows : Follows c (size + 1) (valueStep depth) (valueStep other) := by
  intro text short
  fun_cases valueStep depth text with
  | case1 rest => rfl
  | case2 rest => rfl
  | case3 rest => rfl
  | case4 rest =>
      simp only [List.cons_append, valueStep, scanText_followed blank]
      cases scanText rest <;> rfl
  | case5 rest =>
      exact (list_follows blank items).after_blanks blank ⟨by simp [listStep, scan_nil],
        by simp [listStep, scan_nil]⟩ rest (Nat.lt_of_succ_lt_succ short)
  | case6 rest =>
      exact (object_follows blank members).after_blanks blank ⟨by simp [objectStep, scan_nil],
        by simp [objectStep, scan_nil]⟩ rest (Nat.lt_of_succ_lt_succ short)
  | case7 _ null yes no text list object =>
      rw [valueStep, number_followed blank]
      · cases Literal.scan _ <;> rfl
      all_goals intro rest same
      · exact not_begun blank ['n', 'u', 'l', 'l'] rfl null same
      · exact not_begun blank ['t', 'r', 'u', 'e'] rfl yes same
      · exact not_begun blank ['f', 'a', 'l', 's', 'e'] rfl no same
      · exact not_begun blank ['"'] rfl text same
      · exact not_begun blank ['['] rfl list same
      · exact not_begun blank ['\x7b'] rfl object same

include items in
theorem item_follows (item : Json) :
    Follows c (size + 1) (itemStep depth item) (itemStep other item) := by
  intro text short
  fun_cases itemStep depth item text with
  | case1 rest => exact items.map _ rest (Nat.lt_of_succ_lt_succ short)
  | case2 rest => rfl
  | case3 _ more close =>
      rw [itemStep]
      · rfl
      · intro rest same
        exact not_begun blank [','] rfl more same
      · intro rest same
        exact not_begun blank [']'] rfl close same

include members in
theorem member_follows (member : Text × Json) :
    Follows c (size + 1) (memberStep depth member) (memberStep other member) := by
  intro text short
  fun_cases memberStep depth member text with
  | case1 rest => exact members.map _ rest (Nat.lt_of_succ_lt_succ short)
  | case2 rest => rfl
  | case3 _ more close =>
      rw [memberStep]
      · rfl
      · intro rest same
        exact not_begun blank [','] rfl more same
      · intro rest same
        exact not_begun blank ['\x7d'] rfl close same

section Values
variable (values : Follows c size (scanValue depth) (scanValue other))
include members values

theorem colon_follows (key : Text) :
    Follows c (size + 1) (colonStep depth key) (colonStep other key) := by
  intro text short
  fun_cases colonStep depth key text with
  | case1 rest none =>
      have found := values rest (Nat.lt_of_succ_lt_succ short)
      simp only [List.cons_append, colonStep, found, none, Option.map_none]
  | case2 rest value after read =>
      have found := values rest (Nat.lt_of_succ_lt_succ short)
      have left : after.length ≤ rest.length := ((leaves_depth depth).1 _ _ read).length_le
      rw [List.length_cons] at short
      simp only [List.cons_append, colonStep, found, read, Option.map_some, followed]
      exact (member_follows blank members (key, value)).after_blanks blank ⟨rfl, rfl⟩ after (by omega)
  | case3 _ apart =>
      rw [colonStep]
      · rfl
      · intro rest same
        exact not_begun blank [':'] rfl apart same

theorem key_follows : Follows c (size + 1) (keyStep depth) (keyStep other) := by
  intro text short
  fun_cases keyStep depth text with
  | case1 rest none =>
      simp only [List.cons_append, keyStep, scanText_followed blank, none, Option.map_none]
  | case2 rest key after read =>
      have left : after.length ≤ rest.length := (leaves_text _ _ read).length_le
      rw [List.length_cons] at short
      simp only [List.cons_append, keyStep, scanText_followed blank, read, Option.map_some, followed]
      exact (colon_follows blank members values key).after_blanks blank ⟨rfl, rfl⟩ after (by omega)
  | case3 _ apart =>
      rw [keyStep]
      · rfl
      · intro rest same
        exact not_begun blank ['"'] rfl apart same

end Values
end Steps

/-- With enough depth for its length, a text is read the same with a blank at its end. -/
theorem depth_follows (size depth other : Nat) :
    (2 * size ≤ depth + 1 → 2 * size ≤ other + 1 →
      Follows c size (scanValue depth) (scanValue other)) ∧
    (2 * size ≤ depth → 2 * size ≤ other →
      Follows c size (scanItems depth) (scanItems other) ∧
        Follows c size (scanMembers depth) (scanMembers other)) := by
  induction size generalizing depth other with
  | zero => exact ⟨fun _ _ => nofun, fun _ _ => ⟨nofun, nofun⟩⟩
  | succ size ih =>
      have value : ∀ depth other, 2 * (size + 1) ≤ depth + 1 → 2 * (size + 1) ≤ other + 1 →
          Follows c (size + 1) (scanValue depth) (scanValue other) := by
        intro depth other enough enough'
        obtain ⟨depth, rfl⟩ : ∃ d, depth = d + 1 := ⟨depth - 1, by omega⟩
        obtain ⟨other, rfl⟩ : ∃ d, other = d + 1 := ⟨other - 1, by omega⟩
        obtain ⟨items, members⟩ := (ih depth other).2 (by omega) (by omega)
        exact (value_follows blank items members).after_blanks blank ⟨rfl, rfl⟩
      refine ⟨value depth other, fun enough enough' => ?_⟩
      obtain ⟨depth, rfl⟩ : ∃ d, depth = d + 1 := ⟨depth - 1, by omega⟩
      obtain ⟨other, rfl⟩ : ∃ d, other = d + 1 := ⟨other - 1, by omega⟩
      obtain ⟨items, members⟩ := (ih depth other).2 (by omega) (by omega)
      constructor
      · intro text short
        have found := value depth other (by omega) (by omega) text short
        rw [scanItems_succ, scanItems_succ, found]
        cases read : scanValue depth text with
        | none => rfl
        | some item =>
            have left := ((leaves_depth depth).1 _ _ read).length_le
            exact (item_follows blank items item.1).after_blanks blank ⟨rfl, rfl⟩ item.2 (by omega)
      · exact (key_follows blank members ((ih depth other).1 (by omega) (by omega))).after_blanks
          blank ⟨rfl, rfl⟩

/-- A blank at the end of a text changes nothing. -/
theorem read_followed (text : List Char) : read (text ++ [c]) = read text := by
  have found := (depth_follows blank (text.length + 1) (2 * text.length + 1)
    (2 * (text ++ [c]).length + 1)).1 (by omega)
    (by rw [List.length_append, List.length_singleton]; omega) text (Nat.lt_succ_self _)
  rw [read, read, found]
  cases scanValue (2 * text.length + 1) text with
  | none => rfl
  | some found =>
      simp only [Option.map_some, followed]
      rcases skipBlank_followed blank found.2 with ⟨empty, empty'⟩ | ⟨filled, same⟩
      · rw [empty, empty']
      · simp [same, filled]

end Trailing
end LadderChart.Json
