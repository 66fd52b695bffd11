import LadderChart.Json.Reader
import LadderChart.Json.Writer

/-!
A quoted text is read back as it was. Each character is written as one piece: itself, or the number
of a 16 bit unit if it is a control character without an escape of its own.
-/

namespace LadderChart.Json

inductive Piece.Spells : Piece → Char → Prop where
  | char (c : Char) : Spells (.char c) c
  | control (c : Char) (low : c.toNat < 32) : Spells (.unit c.toNat) c

theorem unit?_hexChar (n : Nat) (low : n < 32) :
    unit? '0' '0' (hexChar (n / 16)) (hexChar (n % 16)) = some n := by
  revert n
  decide

theorem pieces_plain (c : Char) (rest after : List Char) (found : List Piece) (quote : c ≠ '"')
    (backslash : c ≠ '\\') (high : ¬ c.toNat < 32) (read : pieces rest = some (found, after)) :
    pieces (c :: rest) = some (.char c :: found, after) := by
  rw [pieces.eq_def]
  split
  · rename_i none
    cases none
  · rename_i closed
    exact absurd (List.cons.inj closed).1 quote
  · rename_i escape
    exact absurd (List.cons.inj escape).1 backslash
  · rename_i escape
    exact absurd (List.cons.inj escape).1 backslash
  · rename_i same
    cases same
    simp [high, read]

theorem pieces_escaped (c : Char) (rest after : List Char) (found : List Piece)
    (read : pieces rest = some (found, after)) :
    ∃ piece, Piece.Spells piece c ∧ pieces (escaped c ++ rest) = some (piece :: found, after) := by
  unfold escaped
  split
  iterate 7 exact ⟨_, .char _, by simp [pieces, escape?, read]⟩
  · rename_i quote backslash _ _ _ _ _
    split
    · rename_i low
      exact ⟨.unit c.toNat, .control c low, by simp [pieces, unit?_hexChar _ low, read]⟩
    · rename_i high
      exact ⟨.char c, .char c, pieces_plain c rest after found quote backslash high read⟩

theorem join_spelt (piece : Piece) (c : Char) (spells : piece.Spells c) (rest : List Piece) :
    join (piece :: rest) = (join rest).map (c :: ·) := by
  cases spells with
  | char => rw [join]
  | control low =>
      have leading : isLeading c.toNat = false := by
        simp [isLeading]
        omega
      have trailing : isTrailing c.toNat = false := by
        simp [isTrailing]
        omega
      match rest with
      | [] => simp [join, leading, trailing]
      | .char _ :: _ => simp [join, leading, trailing]
      | .unit _ :: _ => simp [join, leading, trailing]

theorem pieces_quoted (text rest : List Char) :
    ∃ found, pieces (text.flatMap escaped ++ '"' :: rest) = some (found, rest) ∧
      join found = some text := by
  induction text with
  | nil => exact ⟨[], rfl, rfl⟩
  | cons c text ih =>
      obtain ⟨found, read, joined⟩ := ih
      obtain ⟨piece, spells, more⟩ := pieces_escaped c _ _ found read
      refine ⟨piece :: found, ?_, ?_⟩
      · rw [List.flatMap_cons, List.append_assoc]
        exact more
      · rw [join_spelt piece c spells, joined, Option.map_some]

theorem scanText_quoted (s : String) (rest : List Char) :
    scanText (s.toList.flatMap escaped ++ '"' :: rest) = some (some s, rest) := by
  obtain ⟨found, read, joined⟩ := pieces_quoted s.toList rest
  simp [scanText, read, joined]

end LadderChart.Json
