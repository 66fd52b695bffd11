import LadderChart.Data.Records
import LadderChart.Proofs.Json.Kept
import LadderChart.Proofs.Json.Trailing

/-!
Records as lines of text. Whether a line is blank, holds a record or is malformed does not depend on
a carriage return at its end, so a text is read by its physical lines: what stands between two line
feeds. Texts that are joined by a line feed are read one after the other.
-/

namespace LadderChart

namespace Record

def blank (line : List Char) : Bool := line.all Text.isBlank

/-- The record on a line. -/
def held? (line : List Char) : Option (Record Float) := if blank line then none else ofLine? line

/-- Neither blank nor a record. -/
def malformed (line : List Char) : Bool := !blank line && (ofLine? line).isNone

/-- The first malformed line is reported by its number; without one, all records are there. -/
theorem readLines_eq (number : Nat) (lines : List (List Char)) : readLines number lines =
    match lines.findIdx? malformed with
    | some i => .error (.data (.recordMalformed (number + i)))
    | none => .ok (lines.filterMap held?) := by
  induction lines generalizing number with
  | nil => rfl
  | cons line rest ih =>
      have later : ∀ i, number + 1 + i = number + (i + 1) := fun i => by omega
      rw [readLines, List.findIdx?_cons, List.filterMap_cons, ih]
      by_cases empty : blank line = true
      · have skipped : malformed line = false := by simp [malformed, empty]
        have none : held? line = none := if_pos empty
        rw [blank] at empty
        rw [skipped, none, if_pos empty]
        cases rest.findIdx? malformed <;> simp [later]
      · have filled : ¬ line.all Text.isBlank = true := empty
        rw [if_neg filled]
        cases record : ofLine? line with
        | none => simp [malformed, empty, record]
        | some r =>
            have sound : malformed line = false := by simp [malformed, record]
            have held : held? line = some r := (if_neg empty).trans record
            rw [sound, held]
            cases rest.findIdx? malformed <;> simp [later, bind, Except.bind, pure, Except.pure]

/-! ### Physical lines -/

theorem ofLine?_return (line : List Char) : ofLine? (line ++ ['\r']) = ofLine? line := by
  rw [ofLine?, ofLine?, Json.read_followed (by rfl)]

theorem blank_return (line : List Char) : blank (line ++ ['\r']) = blank line := by
  have return' : Text.isBlank '\r' = true := by rfl
  simp [blank, return']

theorem held?_return (line : List Char) : held? (line ++ ['\r']) = held? line := by
  rw [held?, held?, ofLine?_return, blank_return]

theorem malformed_return (line : List Char) : malformed (line ++ ['\r']) = malformed line := by
  rw [malformed, malformed, ofLine?_return, blank_return]

theorem dropReturn_cases (line : List Char) :
    Text.dropReturn line = line ∨ line = Text.dropReturn line ++ ['\r'] := by
  unfold Text.dropReturn
  split
  · rename_i last
    right
    obtain ⟨more, rfl⟩ := List.getLast?_eq_some_iff.mp last
    rw [List.dropLast_concat]
  · exact .inl rfl

theorem held?_dropReturn (line : List Char) : held? (Text.dropReturn line) = held? line := by
  rcases dropReturn_cases line with same | ends
  · rw [same]
  · have same := held?_return (Text.dropReturn line)
    rw [← ends] at same
    exact same.symm

theorem malformed_dropReturn (line : List Char) :
    malformed (Text.dropReturn line) = malformed line := by
  rcases dropReturn_cases line with same | ends
  · rw [same]
  · have same := malformed_return (Text.dropReturn line)
    rw [← ends] at same
    exact same.symm

/-- A text is read by its physical lines: neither the carriage returns nor an empty line at the end
make a difference. -/
theorem readText_eq (text : List Char) : readText text = readLines 1 (Text.pieces text) := by
  obtain ⟨init, last, split⟩ :=
    List.eq_nil_or_concat (Text.pieces text) |>.resolve_left (Text.pieces_ne_nil text)
  have cut : (init.map Text.dropReturn).findIdx? malformed = init.findIdx? malformed := by
    rw [List.findIdx?_map]
    exact congrArg (fun p => init.findIdx? p) (funext malformed_dropReturn)
  have kept : (init.map Text.dropReturn).filterMap held? = init.filterMap held? := by
    rw [List.filterMap_map]
    exact congrArg (fun f => init.filterMap f) (funext held?_dropReturn)
  rw [readText, Text.lines, readLines_eq, readLines_eq, split]
  simp only [List.concat_eq_append, List.dropLast_concat, List.getLast?_concat]
  cases last with
  | nil =>
      have empty : malformed [] = false := by rfl
      have none : held? [] = none := by rfl
      simp [cut, kept, empty, none, List.findIdx?_append]
  | cons c last => simp only [List.findIdx?_append, List.filterMap_append, cut, kept, List.length_map]

/-! ### Texts one after the other -/

theorem length_pieces (text : List Char) : (Text.pieces text).length = 1 + text.count '\n' := by
  induction text with
  | nil => rfl
  | cons c rest ih =>
      by_cases feed : c = '\n'
      · subst feed
        rw [Text.pieces, List.length_cons, ih, List.count_cons_self]
        omega
      · obtain ⟨head, more, split⟩ := List.exists_cons_of_ne_nil (Text.pieces_ne_nil rest)
        rw [List.count_cons_of_ne feed, ← ih, split]
        simp [Text.pieces, split]

section Joined
variable {first second : List Char}

theorem findIdx?_joined : (Text.pieces (first ++ '\n' :: second)).findIdx? malformed =
    ((Text.pieces first).findIdx? malformed).or
      (((Text.pieces second).findIdx? malformed).map (· + (1 + first.count '\n'))) := by
  rw [Text.pieces_append, List.findIdx?_append, length_pieces]

theorem readText_joined {records others : List (Record Float)} (before : readText first = .ok records)
    (after : readText second = .ok others) :
    readText (first ++ '\n' :: second) = .ok (records ++ others) := by
  rw [readText_eq, readLines_eq] at before after ⊢
  rw [findIdx?_joined, Text.pieces_append, List.filterMap_append]
  cases bad : (Text.pieces first).findIdx? malformed with
  | some i => simp [bad] at before
  | none =>
      cases bad' : (Text.pieces second).findIdx? malformed with
      | some i => simp [bad'] at after
      | none =>
          simp only [bad, bad', Except.ok.injEq] at before after
          simp [before, after]

theorem readText_joined_first {fault : Fault} (before : readText first = .error fault) :
    readText (first ++ '\n' :: second) = .error fault := by
  rw [readText_eq, readLines_eq] at before ⊢
  rw [findIdx?_joined]
  cases bad : (Text.pieces first).findIdx? malformed with
  | none => simp [bad] at before
  | some i => simpa [bad] using before

theorem readText_joined_second {records : List (Record Float)} {fault : Fault}
    (before : readText first = .ok records) (after : readText second = .error fault) :
    ∃ number, fault = .data (.recordMalformed number) ∧ readText (first ++ '\n' :: second) =
      .error (.data (.recordMalformed (number + (1 + first.count '\n')))) := by
  rw [readText_eq, readLines_eq] at before after ⊢
  rw [findIdx?_joined]
  cases bad : (Text.pieces first).findIdx? malformed with
  | some i => simp [bad] at before
  | none =>
      cases bad' : (Text.pieces second).findIdx? malformed with
      | none => simp [bad'] at after
      | some i =>
          simp only [bad', Except.error.injEq] at after
          exact ⟨1 + i, after.symm, by simp [Nat.add_assoc]⟩

end Joined

/-- The fault names the first malformed line. -/
theorem readText_error (text : List Char) (fault : Fault) : readText text = .error fault ↔
    ∃ n line, fault = .data (.recordMalformed (n + 1)) ∧ (Text.pieces text)[n]? = some line ∧
      malformed line = true ∧
      ∀ m < n, ∀ earlier, (Text.pieces text)[m]? = some earlier → malformed earlier = false := by
  rw [readText_eq, readLines_eq]
  constructor
  · intro failed
    cases bad : (Text.pieces text).findIdx? malformed with
    | none => simp [bad] at failed
    | some n =>
        obtain ⟨inside, here, before⟩ := List.findIdx?_eq_some_iff_getElem.mp bad
        simp only [bad, Except.error.injEq] at failed
        refine ⟨n, _, by rw [← failed, Nat.add_comm], List.getElem?_eq_getElem inside, here, ?_⟩
        intro m less earlier found
        obtain ⟨_, rfl⟩ := List.getElem?_eq_some_iff.mp found
        simpa using before m less
  · rintro ⟨n, line, rfl, found, here, before⟩
    obtain ⟨inside, rfl⟩ := List.getElem?_eq_some_iff.mp found
    have bad : (Text.pieces text).findIdx? malformed = some n := by
      refine List.findIdx?_eq_some_iff_getElem.mpr ⟨inside, here, ?_⟩
      intro m less
      simp [before m less _ (List.getElem?_eq_getElem (Nat.lt_trans less inside))]
    simp [bad, Nat.add_comm]

/-- Blank lines hold nothing and are not malformed, so only the others matter. -/
theorem readText_filter (text : List Char) : (readText text).toOption =
    if ((Text.pieces text).filter (!blank ·)).any malformed then none
    else some (((Text.pieces text).filter (!blank ·)).filterMap held?) := by
  have same : (fun line => !blank line && malformed line) = malformed := by
    funext line
    simp [malformed]
  have holds : (fun line => if (!blank line) = true then held? line else none) = held? := by
    funext line
    cases empty : blank line <;> simp [held?, empty]
  rw [readText_eq, readLines_eq, List.any_filter, List.filterMap_filter, same, holds,
    ← List.findIdx?_isSome]
  cases (Text.pieces text).findIdx? malformed <;> rfl

/-! ### Written records -/

def doubles (r : Record Float) : List Float := r.timestamp :: (r.rungs ++ r.weights)

theorem kept (r : Record Float) (holds : Json.Holds r.doubles) : Json.Kept ofJson? r.toJson r := by
  have rungs : Json.Kept (Json.list? Json.double?) (.list (r.rungs.map .double)) r.rungs :=
    Json.kept_list r.rungs fun x member => holds.kept x (by simp [doubles, member])
  have weights : Json.Kept (Json.list? Json.double?) (.list (r.weights.map .double)) r.weights :=
    Json.kept_list r.weights fun x member => holds.kept x (by simp [doubles, member])
  constructor
  · apply Json.Written.record
    simp [Json.written_double, rungs.written, weights.written]
  · have back := holds.back r.timestamp (by simp [doubles])
    simp [ofJson?, toJson, Json.fields?_record, fieldNames, Json.Fields.required,
      Json.Fields.withDefault, Json.Fields.get?, List.lookup, back, rungs.back, weights.back]

inductive Entry where
  | blank (text : List Char)
  | record (r : Record Float)

def Entry.line : Entry → List Char
  | .blank text => text
  | .record r => Json.renderCompact r.toJson

def Entry.record? : Entry → Option (Record Float)
  | .blank _ => none
  | .record r => some r

/-- A blank line is blank and a line; a record is made of finite doubles that a text gives back. -/
def Entry.Sound : Entry → Prop
  | .blank text => ∀ c ∈ text, Text.isBlank c = true ∧ c ≠ '\n'
  | .record r => Json.Holds r.doubles

inductive Ending where
  | feed
  | returnFeed

def Ending.text : Ending → List Char
  | .feed => ['\n']
  | .returnFeed => ['\r', '\n']

def written : List (Entry × Ending) → Entry → List Char
  | [], last => last.line
  | (entry, ending) :: rest, last => entry.line ++ ending.text ++ written rest last

theorem compact_line (r : Record Float) (holds : Json.Holds r.doubles) :
    malformed (Entry.record r).line = false ∧ held? (Entry.record r).line = some r := by
  have filled : blank (Json.renderCompact r.toJson) = false := by
    have brace : Text.isBlank '\x7b' = false := by rfl
    simp [blank, toJson, Json.record, Json.renderCompact, brace]
  have kept := r.kept holds
  have read : ofLine? (Json.renderCompact r.toJson) = some r := by
    rw [ofLine?, Json.read_compact _ kept.written, Option.bind_some, kept.back]
  simp [Entry.line, malformed, held?, filled, read]

theorem pieces_unbroken (line : List Char) (unbroken : '\n' ∉ line) : Text.pieces line = [line] := by
  induction line with
  | nil => rfl
  | cons c rest ih =>
      rw [List.mem_cons, not_or] at unbroken
      have feed : c ≠ '\n' := fun same => unbroken.1 same.symm
      simp [Text.pieces, ih unbroken.2]

theorem Entry.Sound.line {entry : Entry} (sound : entry.Sound) : '\n' ∉ entry.line ∧
    malformed entry.line = false ∧ held? entry.line = entry.record? := by
  cases entry with
  | blank text =>
      have empty : Record.blank text = true := List.all_eq_true.mpr fun c member => (sound c member).1
      refine ⟨fun member => (sound _ member).2 rfl, ?_, ?_⟩
      · simp [Entry.line, malformed, empty]
      · simp [Entry.line, held?, empty, Entry.record?]
  | record r => exact ⟨Json.compact_unbroken _, compact_line r sound⟩

theorem readText_line {line : List Char} {record? : Option (Record Float)} (unbroken : '\n' ∉ line)
    (sound : malformed line = false) (held : held? line = record?) :
    readText line = .ok record?.toList := by
  rw [readText_eq, readLines_eq, pieces_unbroken line unbroken]
  cases record? <;> simp [sound, held]

/-- One line at a time: what is written before the last line is read before it. -/
theorem readText_written (lines : List (Entry × Ending)) (last : Entry)
    (sound : ∀ line ∈ lines, line.1.Sound) (lastSound : last.Sound) :
    readText (written lines last) = .ok ((lines.map (·.1) ++ [last]).filterMap Entry.record?) := by
  induction lines with
  | nil =>
      obtain ⟨unbroken, wellFormed, held⟩ := lastSound.line
      rw [written, readText_line unbroken wellFormed held]
      cases last <;> rfl
  | cons first rest ih =>
      obtain ⟨entry, ending⟩ := first
      rw [List.forall_mem_cons] at sound
      obtain ⟨unbroken, wellFormed, held⟩ := Entry.Sound.line sound.1
      have others := ih sound.2
      have all : ((entry :: rest.map (·.1)) ++ [last]).filterMap Entry.record? =
          entry.record?.toList ++ (rest.map (·.1) ++ [last]).filterMap Entry.record? := by
        cases entry <;> rfl
      rw [List.map_cons, all]
      cases ending with
      | feed =>
          have text : written ((entry, .feed) :: rest) last =
              entry.line ++ '\n' :: written rest last := by simp [written, Ending.text]
          rw [text]
          exact readText_joined (readText_line unbroken wellFormed held) others
      | returnFeed =>
          have text : written ((entry, .returnFeed) :: rest) last =
              (entry.line ++ ['\r']) ++ '\n' :: written rest last := by simp [written, Ending.text]
          have unbroken' : '\n' ∉ entry.line ++ ['\r'] := by simp [unbroken]
          rw [text]
          exact readText_joined (readText_line unbroken' ((malformed_return _).trans wellFormed)
            ((held?_return _).trans held)) others

/-- A physical line, counted from zero, that is neither blank nor a record, the first of its kind. -/
structure FirstMalformed (text : String) (n : Nat) (line : List Char) : Prop where
  found : (Text.pieces text.toList)[n]? = some line
  malformed : malformed line = true
  first : ∀ m < n, ∀ earlier, (Text.pieces text.toList)[m]? = some earlier →
    Record.malformed earlier = false

/-- Joined by a line feed, texts are read one after the other, with lines counted through. Blank
lines make no difference to the records. -/
structure Composes (a b : String) : Prop where
  both : ∀ records others, ofText a = .ok records → ofText b = .ok others →
    ofText (a ++ "\n" ++ b) = .ok (records ++ others)
  first : ∀ fault, ofText a = .error fault → ofText (a ++ "\n" ++ b) = .error fault
  second : ∀ records fault, ofText a = .ok records → ofText b = .error fault →
    ∃ number, fault = .data (.recordMalformed number) ∧ ofText (a ++ "\n" ++ b) =
      .error (.data (.recordMalformed (number + (1 + a.toList.count '\n'))))
  blanks : (Text.pieces a.toList).filter (!blank ·) = (Text.pieces b.toList).filter (!blank ·) →
    (ofText a).toOption = (ofText b).toOption

theorem composes (a b : String) : Composes a b := by
  have joined : (a ++ "\n" ++ b).toList = a.toList ++ '\n' :: b.toList := by
    simp [String.toList_append]
  constructor
  · intro records others before after
    rw [ofText, joined]
    exact readText_joined before after
  · intro fault before
    rw [ofText, joined]
    exact readText_joined_first before
  · intro records fault before after
    rw [ofText, joined]
    exact readText_joined_second before after
  · intro same
    rw [ofText, ofText, readText_filter, readText_filter, same]

theorem ofText_error (text : String) (fault : Fault) : ofText text = .error fault ↔
    ∃ n line, fault = .data (.recordMalformed (n + 1)) ∧ FirstMalformed text n line := by
  rw [ofText, readText_error]
  constructor
  · rintro ⟨n, line, same, found, here, before⟩
    exact ⟨n, line, same, found, here, before⟩
  · rintro ⟨n, line, same, found, here, before⟩
    exact ⟨n, line, same, found, here, before⟩

/-- Lines of records compose, a fault names the first line that is no record, and what is written is
read back, whatever blank lines and line ends are in between. -/
theorem lines_compose : (∀ a b, Composes a b) ∧
    (∀ text fault, ofText text = .error fault ↔
      ∃ n line, fault = .data (.recordMalformed (n + 1)) ∧ FirstMalformed text n line) ∧
    ∀ lines last, (∀ line ∈ lines, line.1.Sound) → last.Sound →
      ofText (String.ofList (written lines last)) =
        .ok ((lines.map (·.1) ++ [last]).filterMap Entry.record?) := by
  refine ⟨composes, ofText_error, ?_⟩
  intro lines last sound lastSound
  rw [ofText, String.toList_ofList]
  exact readText_written lines last sound lastSound

def early : Record Float := ⟨0.5, [80.0, -0.0], [1.0, 3.25]⟩

def late : Record Float := ⟨1546300800.0, [], []⟩

/-- Two records between lines of Unicode blanks, with line ends of both kinds. -/
theorem early_and_late_read :
    ofText (String.ofList (written [(.blank ['\u2003'], .feed), (.record early, .returnFeed),
      (.blank [' ', '\t'], .returnFeed)] (.record late))) = .ok [early, late] := by
  have holds : Json.Holds early.doubles ∧ Json.Holds late.doubles := by
    unfold Json.Holds
    decide +kernel
  refine lines_compose.2.2 _ _ ?_ holds.2
  simp only [List.forall_mem_cons]
  refine ⟨?_, holds.1, ?_, nofun⟩
  · simp [Entry.Sound, Text.isBlank]
  · simp [Entry.Sound, Text.isBlank]

end Record
end LadderChart
