import LadderChart.Keyed

/-!
Maps by their entries: a map is made of its own entries, finds each of them, and changed value by
value keeps its keys.
-/

namespace LadderChart.Keyed
variable {β γ : Type}

theorem put_absent (key : String) (value : β) (entries : List (String × β))
    (absent : key ∉ entries.map (·.1)) : put key value entries = entries ++ [(key, value)] := by
  induction entries with
  | nil => rfl
  | cons entry rest ih =>
      rw [List.map_cons, List.mem_cons, not_or] at absent
      rw [put, if_neg (Ne.symm absent.1), ih absent.2, List.cons_append]

theorem foldl_insert (entries : List (String × β)) (m : Keyed β)
    (distinct : ((m.entries ++ entries).map (·.1)).Nodup) :
    (entries.foldl (fun m entry => m.insert entry.1 entry.2) m).entries = m.entries ++ entries := by
  induction entries generalizing m with
  | nil => simp
  | cons entry rest ih =>
      have absent : entry.1 ∉ m.entries.map (·.1) := by
        rw [List.map_append, List.nodup_append] at distinct
        intro present
        exact distinct.2.2 _ present _ (by simp) rfl
      have grown : (m.insert entry.1 entry.2).entries = m.entries ++ [entry] :=
        put_absent entry.1 entry.2 m.entries absent
      rw [List.foldl_cons, ih _ (by rw [grown]; simpa using distinct), grown]
      simp

theorem ext_entries {m n : Keyed β} (same : m.entries = n.entries) : m = n := by
  cases m
  cases n
  cases same
  rfl

/-- The entries of a map make that map. -/
theorem ofList_entries (m : Keyed β) : ofList m.entries = m := by
  apply ext_entries
  have same := foldl_insert m.entries empty (by simpa [empty] using m.distinct)
  simpa [ofList, empty] using same

theorem get?_of_mem (m : Keyed β) (key : String) (value : β) (member : (key, value) ∈ m.entries) :
    m.get? key = some value := by
  obtain ⟨entries, distinct⟩ := m
  simp only [get?] at member ⊢
  induction entries with
  | nil => cases member
  | cons entry rest ih =>
      rw [List.map_cons, List.nodup_cons] at distinct
      rw [List.lookup_cons]
      rcases List.mem_cons.mp member with same | inside
      · rw [← same]
        simp
      · have apart : (key == entry.1) = false := by
          rw [beq_eq_false_iff_ne]
          intro same
          exact distinct.1 (same ▸ List.mem_map_of_mem inside)
        rw [apart]
        exact ih distinct.2 inside

/-! ### Changes of all values -/

def mapValues (change : String → β → γ) (m : Keyed β) : Keyed γ where
  entries := m.entries.map fun entry => (entry.1, change entry.1 entry.2)
  distinct := by simpa [Function.comp_def] using m.distinct

theorem mapValues_mapValues {δ : Type} (first : String → β → γ) (second : String → γ → δ)
    (m : Keyed β) : (m.mapValues first).mapValues second =
      m.mapValues fun key value => second key (first key value) := by
  apply ext_entries
  simp [mapValues]

theorem mapValues_unchanged (change : String → β → β) (m : Keyed β)
    (same : ∀ entry ∈ m.entries, change entry.1 entry.2 = entry.2) : m.mapValues change = m := by
  apply ext_entries
  have each : ∀ entry ∈ m.entries, (entry.1, change entry.1 entry.2) = entry := by
    intro entry member
    rw [same entry member]
  exact (List.map_congr_left each).trans (List.map_id' m.entries)

theorem lookup_map (change : String → β → γ) (entries : List (String × β)) (key : String) :
    (entries.map fun e => (e.1, change e.1 e.2)).lookup key =
      (entries.lookup key).map (change key) := by
  induction entries with
  | nil => rfl
  | cons entry rest ih =>
      rw [List.map_cons, List.lookup_cons, List.lookup_cons]
      split
      · rename_i same
        rw [beq_iff_eq] at same
        simp [same]
      · exact ih

theorem get?_mapValues (change : String → β → γ) (m : Keyed β) (key : String) :
    (m.mapValues change).get? key = (m.get? key).map (change key) :=
  lookup_map change m.entries key

theorem map_absent (key : String) (change : β → β) (entries : List (String × β))
    (absent : key ∉ entries.map (·.1)) :
    (entries.map fun e => (e.1, if e.1 = key then change e.2 else e.2)) = entries := by
  have same : ∀ e ∈ entries, (e.1, if e.1 = key then change e.2 else e.2) = e := by
    intro e member
    have differ : e.1 ≠ key := by
      rintro rfl
      exact absent (List.mem_map_of_mem member)
    rw [if_neg differ]
  rw [List.map_congr_left same, List.map_id']

theorem put_found (key : String) (change : β → β) (value : β) (entries : List (String × β))
    (distinct : (entries.map (·.1)).Nodup) (found : entries.lookup key = some value) :
    put key (change value) entries =
      entries.map fun e => (e.1, if e.1 = key then change e.2 else e.2) := by
  induction entries with
  | nil => cases found
  | cons entry rest ih =>
      rw [List.map_cons, List.nodup_cons] at distinct
      rw [List.lookup_cons] at found
      rw [put, List.map_cons]
      split
      · rename_i same
        subst same
        rw [beq_self_eq_true] at found
        cases found
        rw [map_absent _ _ _ distinct.1]
      · rename_i differ
        have apart : (key == entry.1) = false := by simpa using Ne.symm differ
        rw [apart] at found
        rw [ih distinct.2 found]

/-- A modification changes one value in its place. -/
theorem modify_eq_mapValues (m : Keyed β) (key : String) (change : β → β) :
    m.modify key change =
      m.mapValues fun name value => if name = key then change value else value := by
  apply ext_entries
  cases found : m.get? key with
  | some value =>
      simp only [modify, found, insert, mapValues]
      exact put_found key change value m.entries m.distinct found
  | none =>
      have absent : key ∉ m.entries.map (·.1) := by
        intro present
        obtain ⟨e, member, rfl⟩ := List.mem_map.mp present
        rw [m.get?_of_mem e.1 e.2 member] at found
        cases found
      simp only [modify, found, mapValues, map_absent key change m.entries absent]

/-! ### Comparison -/

theorem agrees_mapValues (same : β → β → Bool) (change : String → β → β) (m : Keyed β) :
    (m.mapValues change).agrees same m = true ↔
      ∀ entry ∈ m.entries, same (change entry.1 entry.2) entry.2 = true := by
  have found : ∀ entry ∈ m.entries, m.get? entry.1 = some entry.2 := fun entry member =>
    m.get?_of_mem entry.1 entry.2 member
  simp only [agrees, mapValues, List.length_map, beq_self_eq_true, Bool.true_and, List.all_map,
    List.all_eq_true, Function.comp_apply]
  constructor
  · intro all entry member
    have agreed := all entry member
    rwa [found entry member, Option.any_some] at agreed
  · intro all entry member
    rw [found entry member, Option.any_some]
    exact all entry member

theorem agrees_self (same : β → β → Bool) (m : Keyed β)
    (each : ∀ entry ∈ m.entries, same entry.2 entry.2 = true) : m.agrees same m = true := by
  have agreed := (agrees_mapValues same (fun _ value => value) m).mpr each
  rwa [mapValues_unchanged _ m fun _ _ => rfl] at agreed

end LadderChart.Keyed
