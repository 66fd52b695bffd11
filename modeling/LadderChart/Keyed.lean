/-!
Values under string keys, in the order in which the keys came. Writing to a key that is there
changes its value and keeps its place.
-/

namespace LadderChart

structure Keyed (β : Type) where
  entries : List (String × β)
  distinct : (entries.map (·.1)).Nodup

namespace Keyed
variable {β γ : Type}

def put (key : String) (value : β) : List (String × β) → List (String × β)
  | [] => [(key, value)]
  | entry :: rest =>
      if entry.1 = key then (key, value) :: rest else entry :: put key value rest

theorem mem_keys_put (key : String) (value : β) (entries : List (String × β)) (other : String) :
    other ∈ (put key value entries).map (·.1) ↔ other = key ∨ other ∈ entries.map (·.1) := by
  induction entries with
  | nil => simp [put]
  | cons entry rest ih =>
      simp only [put]
      split
      · rename_i same
        simp [same]
      · simp only [List.map_cons, List.mem_cons, ih]
        constructor
        · rintro (h | h | h) <;> simp [h]
        · rintro (h | h | h) <;> simp [h]

theorem nodup_put (key : String) (value : β) (entries : List (String × β))
    (distinct : (entries.map (·.1)).Nodup) : ((put key value entries).map (·.1)).Nodup := by
  induction entries with
  | nil => simp [put]
  | cons entry rest ih =>
      rw [List.map_cons, List.nodup_cons] at distinct
      simp only [put]
      split
      · rename_i same
        rw [List.map_cons, List.nodup_cons]
        exact ⟨same ▸ distinct.1, distinct.2⟩
      · rename_i differ
        rw [List.map_cons, List.nodup_cons]
        refine ⟨?_, ih distinct.2⟩
        rw [mem_keys_put]
        rintro (same | present)
        · exact differ same
        · exact distinct.1 present

def empty : Keyed β := ⟨[], List.nodup_nil⟩

def insert (m : Keyed β) (key : String) (value : β) : Keyed β :=
  ⟨put key value m.entries, nodup_put key value m.entries m.distinct⟩

/-- Of repeated keys the first gives the place and the last the value. -/
def ofList (entries : List (String × β)) : Keyed β :=
  entries.foldl (fun m entry => m.insert entry.1 entry.2) empty

def get? (m : Keyed β) (key : String) : Option β := m.entries.lookup key

def contains (m : Keyed β) (key : String) : Bool := (m.get? key).isSome

def erase (m : Keyed β) (key : String) : Keyed β where
  entries := m.entries.filter fun entry => entry.1 != key
  distinct := (List.filter_sublist.map _).nodup m.distinct

def modify (m : Keyed β) (key : String) (change : β → β) : Keyed β :=
  match m.get? key with
  | some value => m.insert key (change value)
  | none => m

/-- The same keys with values that agree, in whatever order. -/
def agrees (same : β → β → Bool) (m n : Keyed β) : Bool :=
  m.entries.length == n.entries.length &&
    m.entries.all fun entry => (n.get? entry.1).any (same entry.2)

end Keyed
end LadderChart
