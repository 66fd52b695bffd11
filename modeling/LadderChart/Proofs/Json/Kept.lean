import LadderChart.Chart.OptionsText
import LadderChart.Proofs.Data.Keyed
import LadderChart.Proofs.Json.Double
import LadderChart.Proofs.Json.Layout

/-!
Values kept by JSON: what is written for them can be spelt and is read as them. Lists, optional
values, maps and records keep what their parts keep.
-/

namespace LadderChart.Json

structure Kept {τ : Type} (read : Json → Option τ) (j : Json) (x : τ) : Prop where
  written : Written j
  back : read j = some x

theorem kept_bool (b : Bool) : Kept bool? (.bool b) b := ⟨.bool b, rfl⟩

theorem kept_string (s : String) : Kept string? (.string s) s := ⟨.text s, rfl⟩

theorem integerIn?_ofInt (low high n : Int) (least : low ≤ n) (most : n ≤ high) :
    integerIn? low high (.number (.ofInt n)) = some n := by
  simp [integerIn?, Literal.integer?_ofInt, least, most]

theorem kept_nat (limit n : Nat) (fits : n ≤ limit) : Kept (natUpTo? limit) (.nat n) n where
  written := .number _ (Literal.ofNat_wellFormed n)
  back := by
    have bounded : (n : Int) ≤ limit := by exact_mod_cast fits
    simp [natUpTo?, integerIn?, nat, Literal.integer?_ofNat, bounded]

theorem kept_word (w : UInt32) : Kept word32? (.nat w.toNat) w where
  written := .number _ (Literal.ofNat_wellFormed _)
  back := by
    have fits : w.toNat ≤ 4294967295 := Nat.le_of_lt_succ w.toNat_lt
    rw [word32?, (kept_nat 4294967295 w.toNat fits).back]
    simp

theorem written_double (x : Float) : Written (.double x) := by
  unfold double
  split
  · rename_i l literal
    exact .number l (Literal.ofDouble?_wellFormed x l literal)
  · exact .null

theorem kept_double (x : Float) (finite : x.isFinite = true) (exact : Literal.ReadsBack x) :
    Kept double? (.double x) x where
  written := written_double x
  back := by
    obtain ⟨l, literal⟩ := Literal.ofDouble?_finite x finite
    simp [double, literal, double?, exact l literal]

/-- Finite doubles that a text gives back. -/
def Holds (xs : List Float) : Prop := ∀ x ∈ xs, x.isFinite = true ∧ Literal.ReadsBack x

theorem Holds.kept {xs : List Float} (holds : Holds xs) (x : Float) (member : x ∈ xs) :
    Kept double? (.double x) x := kept_double x (holds x member).1 (holds x member).2

theorem Holds.back {xs : List Float} (holds : Holds xs) (x : Float) (member : x ∈ xs) :
    double? (.double x) = some x := (holds.kept x member).back

theorem mapM_written {σ τ : Type} (read : σ → Option τ) (write : τ → σ) (xs : List τ)
    (each : ∀ x ∈ xs, read (write x) = some x) : (xs.map write).mapM read = some xs := by
  induction xs with
  | nil => rfl
  | cons x rest ih =>
      have first := each x (by simp)
      have others := ih fun y member => each y (by simp [member])
      simp [List.mapM_cons, first, others]

theorem kept_list {τ : Type} {read : Json → Option τ} {write : τ → Json} (xs : List τ)
    (each : ∀ x ∈ xs, Kept read (write x) x) : Kept (list? read) (.list (xs.map write)) xs where
  written := by
    apply Written.list
    intro item member
    obtain ⟨x, present, rfl⟩ := List.mem_map.mp member
    exact (each x present).written
  back := mapM_written read write xs fun x present => (each x present).back

/-- An optional value is told from a missing one, for what is written for it is not null. -/
theorem kept_optional {τ : Type} {read : Json → Option τ} {write : τ → Json} (o : Option τ)
    (each : ∀ x, o = some x → Kept read (write x) x ∧ write x ≠ .null) :
    Kept (Fields.nullable read) (.optional write o) o := by
  cases o with
  | none => exact ⟨.null, rfl⟩
  | some x =>
      obtain ⟨kept, present⟩ := each x rfl
      refine ⟨kept.written, ?_⟩
      unfold Fields.nullable optional
      split
      · rename_i null
        exact absurd null present
      · rw [kept.back, Option.map_some]

/-! ### Records -/

theorem entries?_record (members : List (String × Json)) :
    (record members).entries? = some members :=
  mapM_written (fun m : Text × Json => m.1.map fun key => (key, m.2)) (fun m => (some m.1, m.2))
    members fun _ _ => rfl

/-- A record with exactly the known names. -/
theorem fields?_record (names : List String) (members : List (String × Json))
    (all : members.map (·.1) = names) (distinct : names.Nodup) :
    (record members).fields? names = some ⟨true, members⟩ := by
  subst all
  have known : (members.filter fun e => (members.map (·.1)).contains e.1) = members := by
    rw [List.filter_eq_self]
    intro e member
    simpa using ⟨e.2, member⟩
  unfold fields?
  split
  · rename_i same
    cases same
  · simp only [entries?_record, known, distinct, if_true]

theorem read_then {σ τ : Type} {first : Option σ} {rest : σ → Option τ} {x : σ} {y : τ}
    (read : first = some x) (others : rest x = some y) : (first >>= rest) = some y := by
  rw [read]
  exact others

namespace Fields
variable {τ : Type} {f : Fields} {name : String} {read : Json → Option τ} {j : Json} {x : τ}

theorem required_found (found : f.get? name = some j) (back : read j = some x) :
    f.required name read = some x := by
  rw [required, found, Option.bind_some, back]

theorem withDefault_found {standard : τ} (found : f.get? name = some j) (back : read j = some x) :
    f.withDefault name standard read = some x := by
  simp only [withDefault, found, back]

theorem optional_found {o : Option τ} (found : f.get? name = some j)
    (back : nullable read j = some o) : f.optional name read = some o := by
  simp only [optional, found, back]

end Fields

/-! ### Where read values come from -/

theorem double?_finite (j : Json) (x : Float) (read : double? j = some x) : x.isFinite = true := by
  cases j with
  | number l => exact Literal.double?_finite l x read
  | _ => cases read

theorem natUpTo?_le (limit n : Nat) (j : Json) (read : natUpTo? limit j = some n) : n ≤ limit := by
  obtain ⟨k, spelt, rfl⟩ := Option.map_eq_some_iff.mp read
  cases j with
  | number l =>
      simp only [integerIn?] at spelt
      split at spelt
      · split at spelt
        · rename_i bounds
          cases spelt
          exact Int.toNat_le.mpr bounds.2
        · cases spelt
      · cases spelt
  | _ => cases spelt

theorem Fields.required_source {τ : Type} {f : Fields} {name : String} {read : Json → Option τ}
    {x : τ} (found : f.required name read = some x) : ∃ j, read j = some x := by
  obtain ⟨j, _, same⟩ := Option.bind_eq_some_iff.mp found
  exact ⟨j, same⟩

theorem Fields.required_finite {f : Fields} {name : String} {x : Float}
    (found : f.required name double? = some x) : x.isFinite = true := by
  obtain ⟨j, read⟩ := required_source found
  exact double?_finite j x read

theorem Fields.withDefault_source {τ : Type} {f : Fields} {name : String} {standard x : τ}
    {read : Json → Option τ} (found : f.withDefault name standard read = some x) :
    x = standard ∨ ∃ j, read j = some x := by
  unfold withDefault at found
  split at found
  · exact .inr ⟨_, found⟩
  · cases found
    exact .inl rfl

theorem mapM_source {σ τ : Type} (read : σ → Option τ) (xs : List σ) (ys : List τ)
    (mapped : xs.mapM read = some ys) : ∀ y ∈ ys, ∃ x, read x = some y := by
  induction xs generalizing ys with
  | nil =>
      cases mapped
      exact nofun
  | cons x rest ih =>
      simp only [List.mapM_cons, Option.bind_eq_bind, Option.bind_eq_some_iff, Option.pure_def,
        Option.some.injEq] at mapped
      obtain ⟨first, read, others, mapped, rfl⟩ := mapped
      intro y member
      rcases List.mem_cons.mp member with rfl | inside
      · exact ⟨x, read⟩
      · exact ih others mapped y inside

end LadderChart.Json

namespace LadderChart.Keyed
variable {β : Type}

theorem kept {read : Json → Option β} {write : β → Json} (m : Keyed β)
    (each : ∀ entry ∈ m.entries, Json.Kept read (write entry.2) entry.2) :
    Json.Kept (Keyed.ofJson? read) (m.toJson write) m where
  written := by
    apply Json.Written.record
    intro member present
    obtain ⟨entry, inside, rfl⟩ := List.mem_map.mp present
    exact (each entry inside).written
  back := by
    have values := Json.mapM_written
      (fun entry => (read entry.2).map fun value => (entry.1, value))
      (fun entry => (entry.1, write entry.2)) m.entries
      (fun entry inside => by simp [(each entry inside).back])
    simp [Keyed.ofJson?, Keyed.toJson, Json.entries?_record, values, ofList_entries]

theorem mem_put (key : String) (value : β) (entries : List (String × β)) (e : String × β)
    (member : e ∈ put key value entries) : e = (key, value) ∨ e ∈ entries := by
  induction entries with
  | nil => exact .inl (List.mem_singleton.mp member)
  | cons entry rest ih =>
      rw [put] at member
      split at member
      · rcases List.mem_cons.mp member with same | inside
        · exact .inl same
        · exact .inr (List.mem_cons_of_mem _ inside)
      · rcases List.mem_cons.mp member with rfl | inside
        · exact .inr List.mem_cons_self
        · exact (ih inside).imp_right (List.mem_cons_of_mem _)

theorem mem_foldl_insert (entries : List (String × β)) (m : Keyed β) (e : String × β)
    (member : e ∈ (entries.foldl (fun m entry => m.insert entry.1 entry.2) m).entries) :
    e ∈ entries ∨ e ∈ m.entries := by
  induction entries generalizing m with
  | nil => exact .inr member
  | cons entry rest ih =>
      rcases ih _ member with inside | before
      · exact .inl (List.mem_cons_of_mem _ inside)
      · rcases mem_put _ _ _ _ before with rfl | present
        · exact .inl List.mem_cons_self
        · exact .inr present

/-- Each value of a map that was read was read by itself. -/
theorem ofJson?_source {read : Json → Option β} {j : Json} {m : Keyed β}
    (parsed : ofJson? read j = some m) : ∀ entry ∈ m.entries, ∃ j, read j = some entry.2 := by
  intro entry member
  simp only [ofJson?, Option.bind_eq_bind, Option.bind_eq_some_iff, Option.pure_def,
    Option.some.injEq] at parsed
  obtain ⟨entries, _, values, mapped, rfl⟩ := parsed
  rcases mem_foldl_insert values empty entry member with inside | none
  · obtain ⟨source, same⟩ := Json.mapM_source _ entries values mapped entry inside
    obtain ⟨value, read, rfl⟩ := Option.map_eq_some_iff.mp same
    exact ⟨source.2, read⟩
  · cases none

end LadderChart.Keyed
