import LadderChart.Json.Reader

/-!
The scanners of the reader, step by step. A scanner skips blanks, and then one character says how it
goes on; whatever it finds, what it leaves over is the rest of its text.
-/

namespace LadderChart.Json

theorem blank_cases {c : Char} (blank : isBlank c = true) :
    c = ' ' ∨ c = '\n' ∨ c = '\r' ∨ c = '\t' := by
  simp only [isBlank, Bool.or_eq_true, beq_iff_eq, or_assoc] at blank
  exact blank

/-! ### Parts of numbers and texts -/

/-- The parts of a literal after its sign. -/
def unsigned (negative : Bool) (text : List Char) : Option (Literal × List Char) :=
  match Literal.scanWhole text with
  | none => none
  | some (whole, rest) =>
      match Literal.scanFraction rest with
      | none => none
      | some (fraction, rest) =>
          match Literal.scanExponent rest with
          | none => none
          | some (exponent, rest) => some (⟨negative, whole, fraction, exponent⟩, rest)

theorem scan_plain (d : Char) (rest : List Char) (plain : d ≠ '-') :
    Literal.scan (d :: rest) = unsigned false (d :: rest) := by
  rw [Literal.scan]
  · rfl
  · intro other same
    exact plain (List.cons.inj same).1

def preceded (piece : Piece) (found : List Piece × List Char) : List Piece × List Char :=
  (piece :: found.1, found.2)

theorem pieces_ordinary (d : Char) (rest : List Char) (quote : d ≠ '"') (backslash : d ≠ '\\') :
    pieces (d :: rest) =
      if d.toNat < 32 then none else (pieces rest).map (preceded (.char d)) := by
  rw [pieces]
  · cases pieces rest <;> rfl
  · exact quote
  · intro _ _ _ _ _ same
    exact absurd same backslash
  · intro _ _ same
    exact absurd same backslash

theorem pieces_unicode (p q r s : Char) (rest : List Char) :
    pieces ('\\' :: 'u' :: p :: q :: r :: s :: rest) =
      (unit? p q r s).bind fun n => (pieces rest).map (preceded (.unit n)) := by
  rw [pieces]
  cases unit? p q r s <;> cases pieces rest <;> rfl

theorem pieces_escape (d : Char) (rest : List Char) (short : d = 'u' → rest.length < 4) :
    pieces ('\\' :: d :: rest) =
      (escape? d).bind fun e => (pieces rest).map (preceded (.char e)) := by
  rw [pieces]
  · cases escape? d <;> cases pieces rest <;> rfl
  · rintro a b e f more rfl rfl
    simp at short
    omega

/-! ### Steps after the blanks -/

def listStep (depth : Nat) (input : List Char) : Option (Json × List Char) :=
  match input with
  | ']' :: rest => some (.list [], rest)
  | rest => (scanItems depth rest).map fun found => (.list found.1, found.2)

def objectStep (depth : Nat) (input : List Char) : Option (Json × List Char) :=
  match input with
  | '\x7d' :: rest => some (.object [], rest)
  | rest => (scanMembers depth rest).map fun found => (.object found.1, found.2)

def valueStep (depth : Nat) (input : List Char) : Option (Json × List Char) :=
  match input with
  | 'n' :: 'u' :: 'l' :: 'l' :: rest => some (.null, rest)
  | 't' :: 'r' :: 'u' :: 'e' :: rest => some (.bool true, rest)
  | 'f' :: 'a' :: 'l' :: 's' :: 'e' :: rest => some (.bool false, rest)
  | '"' :: rest => (scanText rest).map fun found => (.text found.1, found.2)
  | '[' :: rest => listStep depth (skipBlank rest)
  | '\x7b' :: rest => objectStep depth (skipBlank rest)
  | rest => (Literal.scan rest).map fun found => (.number found.1, found.2)

def itemStep (depth : Nat) (item : Json) (input : List Char) : Option (List Json × List Char) :=
  match input with
  | ',' :: rest => (scanItems depth rest).map fun found => (item :: found.1, found.2)
  | ']' :: rest => some ([item], rest)
  | _ => none

def memberStep (depth : Nat) (member : Text × Json) (input : List Char) :
    Option (List (Text × Json) × List Char) :=
  match input with
  | ',' :: rest => (scanMembers depth rest).map fun found => (member :: found.1, found.2)
  | '\x7d' :: rest => some ([member], rest)
  | _ => none

def colonStep (depth : Nat) (key : Text) (input : List Char) :
    Option (List (Text × Json) × List Char) :=
  match input with
  | ':' :: rest =>
      match scanValue depth rest with
      | none => none
      | some (value, rest) => memberStep depth (key, value) (skipBlank rest)
  | _ => none

def keyStep (depth : Nat) (input : List Char) : Option (List (Text × Json) × List Char) :=
  match input with
  | '"' :: rest =>
      match scanText rest with
      | none => none
      | some (key, rest) => colonStep depth key (skipBlank rest)
  | _ => none

theorem scanItems_succ (depth : Nat) (input : List Char) : scanItems (depth + 1) input =
    match scanValue depth input with
    | none => none
    | some (item, rest) => itemStep depth item (skipBlank rest) := rfl

/-! ### What is left over -/

theorem digits_suffix (text : List Char) : (Digits.scan text).2 <:+ text := by
  induction text with
  | nil => exact List.suffix_rfl
  | cons d rest ih =>
      cases digit : Digit.ofChar? d with
      | none => simp [Digits.scan, digit]
      | some d =>
          simp only [Digits.scan, digit]
          exact ih.trans (List.suffix_cons _ _)

/-- Whatever is found, the rest of the text is left. -/
def Leaves {τ : Type} (scan : List Char → Option (τ × List Char)) : Prop :=
  ∀ text found, scan text = some found → found.2 <:+ text

theorem leaves_whole : Leaves Literal.scanWhole := by
  intro text found scanned
  have left := digits_suffix text
  unfold Literal.scanWhole at scanned
  split at scanned
  · cases scanned
  · cases scanned
  · cases scanned
    exact left

theorem leaves_fraction : Leaves Literal.scanFraction := by
  intro text found scanned
  unfold Literal.scanFraction at scanned
  split at scanned
  · rename_i rest
    have left := digits_suffix rest
    split at scanned
    · cases scanned
    · cases scanned
      exact left.trans (List.suffix_cons _ _)
  · cases scanned
    exact List.suffix_rfl

theorem sign_suffix (text : List Char) : (Literal.scanSign text).2 <:+ text := by
  unfold Literal.scanSign
  split
  · exact List.suffix_cons _ _
  · exact List.suffix_cons _ _
  · exact List.suffix_rfl

theorem leaves_exponent : Leaves Literal.scanExponent := by
  intro text found scanned
  unfold Literal.scanExponent at scanned
  split at scanned
  · cases scanned
    exact List.suffix_rfl
  · rename_i mark rest
    split at scanned
    · have left := (digits_suffix _).trans ((sign_suffix rest).trans (List.suffix_cons mark rest))
      simp only at scanned
      split at scanned
      · cases scanned
      · rename_i same
        cases scanned
        rw [same] at left
        exact left
    · cases scanned
      exact List.suffix_rfl

theorem leaves_unsigned (negative : Bool) : Leaves (unsigned negative) := by
  intro text found scanned
  unfold unsigned at scanned
  split at scanned
  · cases scanned
  · rename_i whole rest first
    split at scanned
    · cases scanned
    · rename_i fraction rest' second
      split at scanned
      · cases scanned
      · rename_i exponent rest'' third
        cases scanned
        exact (leaves_exponent _ _ third).trans
          ((leaves_fraction _ _ second).trans (leaves_whole _ _ first))

theorem leaves_number : Leaves Literal.scan := by
  intro text found scanned
  cases text with
  | nil => cases scanned
  | cons d rest =>
      by_cases minus : d = '-'
      · subst minus
        exact (leaves_unsigned true rest found scanned).trans (List.suffix_cons _ _)
      · rw [scan_plain d rest minus] at scanned
        exact leaves_unsigned false _ found scanned

theorem leaves_pieces : Leaves pieces := by
  intro text
  fun_induction pieces text with
  | case2 rest =>
      intro found scanned
      cases scanned
      exact List.suffix_cons _ _
  | case3 p q r s rest n found after read unit ih =>
      intro all scanned
      cases scanned
      exact (ih _ read).trans (List.suffix_append ['\\', 'u', p, q, r, s] rest)
  | case5 d rest plain e found after read escape ih =>
      intro all scanned
      cases scanned
      exact (ih _ read).trans (List.suffix_append ['\\', d] rest)
  | case8 d rest quote unicode escape high found after read ih =>
      intro all scanned
      cases scanned
      exact (ih _ read).trans (List.suffix_cons _ _)
  | _ => nofun

theorem leaves_text : Leaves scanText := by
  intro text found scanned
  obtain ⟨read, same, rfl⟩ := Option.map_eq_some_iff.mp scanned
  exact leaves_pieces text read same

theorem skipBlank_suffix (text : List Char) : skipBlank text <:+ text := List.dropWhile_suffix _

theorem Leaves.after_blanks {τ : Type} {scan : List Char → Option (τ × List Char)}
    (leaves : Leaves scan) : Leaves fun text => scan (skipBlank text) := by
  intro text found scanned
  exact (leaves _ found scanned).trans (skipBlank_suffix text)

theorem Leaves.map {σ τ : Type} {scan : List Char → Option (σ × List Char)} (leaves : Leaves scan)
    (f : σ → τ) : Leaves fun text => (scan text).map fun found => (f found.1, found.2) := by
  intro text found scanned
  obtain ⟨read, same, rfl⟩ := Option.map_eq_some_iff.mp scanned
  exact leaves text read same

section Steps
variable {depth : Nat} (items : Leaves (scanItems depth)) (members : Leaves (scanMembers depth))

include items in
theorem leaves_list : Leaves (listStep depth) := by
  intro text found scanned
  unfold listStep at scanned
  split at scanned
  · cases scanned
    exact List.suffix_cons _ _
  · exact items.map _ _ found scanned

include members in
theorem leaves_object : Leaves (objectStep depth) := by
  intro text found scanned
  unfold objectStep at scanned
  split at scanned
  · cases scanned
    exact List.suffix_cons _ _
  · exact members.map _ _ found scanned

include items members in
theorem leaves_value : Leaves (valueStep depth) := by
  intro text found scanned
  unfold valueStep at scanned
  split at scanned
  · cases scanned
    exact List.suffix_append ['n', 'u', 'l', 'l'] _
  · cases scanned
    exact List.suffix_append ['t', 'r', 'u', 'e'] _
  · cases scanned
    exact List.suffix_append ['f', 'a', 'l', 's', 'e'] _
  · exact (leaves_text.map _ _ found scanned).trans (List.suffix_cons _ _)
  · exact ((leaves_list items).after_blanks _ found scanned).trans (List.suffix_cons _ _)
  · exact ((leaves_object members).after_blanks _ found scanned).trans (List.suffix_cons _ _)
  · exact leaves_number.map _ _ found scanned

include items in
theorem leaves_item (item : Json) : Leaves (itemStep depth item) := by
  intro text found scanned
  unfold itemStep at scanned
  split at scanned
  · exact (items.map _ _ found scanned).trans (List.suffix_cons _ _)
  · cases scanned
    exact List.suffix_cons _ _
  · cases scanned

include members in
theorem leaves_member (member : Text × Json) : Leaves (memberStep depth member) := by
  intro text found scanned
  unfold memberStep at scanned
  split at scanned
  · exact (members.map _ _ found scanned).trans (List.suffix_cons _ _)
  · cases scanned
    exact List.suffix_cons _ _
  · cases scanned

include members in
theorem leaves_key (values : Leaves (scanValue depth)) : Leaves (keyStep depth) := by
  intro text found scanned
  unfold keyStep colonStep at scanned
  split at scanned
  · split at scanned
    · cases scanned
    · rename_i key rest read
      have left := (leaves_text _ _ read).trans (List.suffix_cons '"' _)
      have skipped := skipBlank_suffix rest
      split at scanned
      · rename_i after colon
        rw [colon] at skipped
        split at scanned
        · cases scanned
        · rename_i value rest' read'
          exact ((leaves_member members _).after_blanks _ found scanned).trans
            ((values _ _ read').trans ((List.suffix_cons ':' _).trans (skipped.trans left)))
      · cases scanned
  · cases scanned

end Steps

/-- At every depth each scanner leaves the rest of its text. -/
theorem leaves_depth (depth : Nat) :
    Leaves (scanValue depth) ∧ Leaves (scanItems depth) ∧ Leaves (scanMembers depth) := by
  induction depth with
  | zero => exact ⟨nofun, nofun, nofun⟩
  | succ depth ih =>
      obtain ⟨values, items, members⟩ := ih
      -- a value and a member are a step after the blanks, by definition; an item is a value first
      refine ⟨(leaves_value items members).after_blanks, ?_,
        (leaves_key members values).after_blanks⟩
      intro text found scanned
      rw [scanItems_succ] at scanned
      split at scanned
      · cases scanned
      · rename_i item rest read
        exact ((leaves_item items item).after_blanks _ found scanned).trans (values _ _ read)

theorem scan_nil (depth : Nat) :
    scanValue depth [] = none ∧ scanItems depth [] = none ∧ scanMembers depth [] = none := by
  match depth with
  | 0 => exact ⟨rfl, rfl, rfl⟩
  | 1 => exact ⟨rfl, rfl, rfl⟩
  | depth + 2 => exact ⟨rfl, rfl, rfl⟩

end LadderChart.Json
