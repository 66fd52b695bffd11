import LadderChart.Chart.Scene

/-!
What the operations on overlay elements do, handle by handle. A handle stands for the same element
from the moment it is given out: elements are only ever added at the end and changed in place. An
operation that changes anything leaves the layer dirty.
-/

namespace LadderChart
variable {α : Type}

namespace UnderLayer

theorem element_append (u : UnderLayer α) (e : Element α) (k : Nat) :
    (u.append e).element? k = if k = u.nextHandle then some e else u.element? k := by
  by_cases last : k = u.nextHandle
  · rw [if_pos last, last]
    exact List.getElem?_concat_length
  · rw [if_neg last]
    simp only [append, element?, nextHandle] at last ⊢
    rw [List.getElem?_append]
    split
    · rfl
    · rw [List.getElem?_eq_none (by simp only [List.length_singleton]; omega),
        List.getElem?_eq_none (by omega)]

/-- Only the element under the handle changes, and only if the change makes a difference. -/
theorem element_update (u : UnderLayer α) (h : Handle) (differs : Element α → Bool)
    (change : Element α → Element α) (k : Nat) : (u.update h differs change).element? k =
      (u.element? k).map fun e => if k = h ∧ differs e = true then change e else e := by
  simp only [update, element?]
  cases found : u.elements[h]? with
  | none =>
      by_cases same : k = h
      · rw [same, found]
        rfl
      · simp [same]
  | some e =>
      by_cases same : k = h
      · subst same
        have bound := (List.getElem?_eq_some_iff.mp found).1
        cases different : differs e with
        | false =>
            simp only [found, different, Option.map_some, Bool.false_eq_true, and_false, if_false]
        | true =>
            simp only [found, different, List.getElem?_set_self bound, Option.map_some, and_self,
              if_true]
      · have others : (fun e => if k = h ∧ differs e = true then change e else e) = id := by
          funext other
          simp [same]
        rw [others, Option.map_id]
        cases different : differs e with
        | false => simp only [different, Bool.false_eq_true, if_false, id_eq]
        | true => simp only [different, if_true, List.getElem?_set_ne (Ne.symm same), id_eq]

theorem element_setVisible (u : UnderLayer α) (h : Handle) (visible : Bool) (k : Nat) :
    (u.setVisible h visible).element? k =
      (u.element? k).map fun e => if k = h then { e with visible := visible } else e := by
  rw [setVisible, element_update]
  congr 1
  funext e
  by_cases same : k = h
  · cases different : e.visible != visible with
    | true => simp [same]
    | false =>
        have equal : e.visible = visible := by simpa using different
        simp [same, ← equal]
  · simp [same]

theorem element_showAll (u : UnderLayer α) (visible : Bool) (handles : List Handle) (k : Nat) :
    (u.showAll visible handles).element? k =
      (u.element? k).map fun e => if k ∈ handles then { e with visible := visible } else e := by
  induction handles generalizing u with
  | nil => simp [showAll]
  | cons h rest ih =>
      rw [showAll, ih, element_setVisible, Option.map_map]
      congr 1
      funext e
      by_cases here : k = h
      · simp [here]
      · by_cases later : k ∈ rest <;> simp [here, later]

theorem place_visible [Scalar α] (u : UnderLayer α) (h : Handle) (offset width : α) (k : Nat) :
    ((u.place h offset width).element? k).map (·.visible) = (u.element? k).map (·.visible) := by
  rw [place, element_update, Option.map_map]
  congr 1
  funext e
  simp only [Function.comp_apply]
  split <;> rfl

theorem update_unknown (u : UnderLayer α) {h : Handle} (absent : u.element? h = none)
    (differs : Element α → Bool) (change : Element α → Element α) :
    u.update h differs change = u := by
  simp only [element?] at absent
  simp only [update, absent]

theorem nextHandle_update (u : UnderLayer α) (h : Handle) (differs : Element α → Bool)
    (change : Element α → Element α) : (u.update h differs change).nextHandle = u.nextHandle := by
  unfold update
  split
  · split
    · exact List.length_set
    · rfl
  · rfl

theorem nextHandle_showAll (u : UnderLayer α) (visible : Bool) (handles : List Handle) :
    (u.showAll visible handles).nextHandle = u.nextHandle := by
  induction handles generalizing u with
  | nil => rfl
  | cons h rest ih => exact (ih _).trans (u.nextHandle_update h _ _)

/-- If the later layer is clean, nothing has changed on the way to it. -/
def Tracks (u u' : UnderLayer α) : Prop := u'.dirty = false → u' = u

theorem Tracks.refl (u : UnderLayer α) : Tracks u u := fun _ => rfl

theorem Tracks.trans {u₁ u₂ u₃ : UnderLayer α} (a : Tracks u₁ u₂) (b : Tracks u₂ u₃) :
    Tracks u₁ u₃ := by
  intro clean
  have same := b clean
  subst same
  exact a clean

theorem append_tracks (u : UnderLayer α) (e : Element α) : Tracks u (u.append e) := by
  intro clean
  cases clean

theorem update_tracks (u : UnderLayer α) (h : Handle) (differs : Element α → Bool)
    (change : Element α → Element α) : Tracks u (u.update h differs change) := by
  unfold update
  split
  · split
    · intro clean
      cases clean
    · exact .refl u
  · exact .refl u

theorem showAll_tracks (u : UnderLayer α) (visible : Bool) (handles : List Handle) :
    Tracks u (u.showAll visible handles) := by
  induction handles generalizing u with
  | nil => exact .refl u
  | cons h rest ih => exact (update_tracks u h _ _).trans (ih _)

end UnderLayer

theorem PointerSurface.mem_bind (p : PointerSurface α) (h k : Handle) :
    k ∈ (p.bind h).bindings ↔ k ∈ p.bindings ∨ k = h := by
  unfold bind
  split
  · rename_i bound
    have known : h ∈ p.bindings := by simpa using bound
    constructor
    · exact .inl
    · rintro (before | rfl)
      · exact before
      · exact known
  · simp

/-- Bindings are kept in the order of first binding. -/
theorem PointerSurface.bind_first (p : PointerSurface α) (h : Handle) (seen : List Handle)
    (first : p.bindings = seen.eraseDups) : (p.bind h).bindings = (seen ++ [h]).eraseDups := by
  rw [List.eraseDups_append, List.cons_removeAll, List.nil_removeAll, bind, first]
  by_cases known : h ∈ seen
  · simp [known, first]
  · simp [known, List.eraseDups_cons]

theorem PointerSurface.bind_nodup (p : PointerSurface α) (h : Handle)
    (distinct : p.bindings.Nodup) : (p.bind h).bindings.Nodup := by
  unfold bind
  split
  · exact distinct
  · rename_i fresh
    have new : h ∉ p.bindings := by simpa using fresh
    refine List.nodup_append.mpr ⟨distinct, by simp, ?_⟩
    intro bound member other one same
    rw [List.mem_singleton.mp one] at same
    exact new (same ▸ member)

end LadderChart
