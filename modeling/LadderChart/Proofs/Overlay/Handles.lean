import LadderChart.Number.Plain
import LadderChart.Proofs.Overlay.Elements

/-!
Handles through any history of the two overlays. A call is described by what it leaves for one
handle: whether the element is shown, and where it stands; a call that does not count for it leaves
nothing. So what an element has become is what the last call left that counted, and nothing else of
it ever changes. A layer that is clean has not changed since it was last marked.
-/

namespace LadderChart

inductive OverlayCall (α : Type) where
  | append (e : Element α)
  | setVisible (h : Handle) (visible : Bool)
  | place (h : Handle) (offset width : α)
  | bind (h : Handle)
  | setHovered (hovered : Bool) (column : Option Nat)
  | markUnder
  | markPointer

namespace OverlayCall
variable {α : Type}

def appends : OverlayCall α → Bool
  | .append _ => true
  | _ => false

def bound? : OverlayCall α → Option Handle
  | .bind h => some h
  | _ => none

/-- The call may show, hide or place the element under the handle. -/
def Touches (c : OverlayCall α) (p : PointerSurface α) (h : Handle) : Prop :=
  match c with
  | .setVisible k _ => h = k
  | .place k _ _ => h = k
  | .setHovered _ _ => h ∈ p.bindings
  | _ => False

end OverlayCall

structure Overlays (α : Type) where
  under : UnderLayer α
  pointer : PointerSurface α

/-- An element that calls may have shown or hidden, and placed. -/
def Element.left {α : Type} (e : Element α) (shown : Option Bool) (seat : Option (α × α)) :
    Element α :=
  { e with
    visible := shown.getD e.visible
    offset := (seat.getD (e.offset, e.width)).1
    width := (seat.getD (e.offset, e.width)).2 }

theorem Element.left_left {α : Type} (e : Element α) (shown shown' : Option Bool)
    (seat seat' : Option (α × α)) :
    (e.left shown seat).left shown' seat' = e.left (shown'.or shown) (seat'.or seat) := by
  cases shown <;> cases shown' <;> cases seat <;> cases seat' <;> rfl

namespace Overlays
variable {α : Type}

def blank : Overlays α := ⟨.blank, .blank⟩

/-- The handle of the element, for the call that appends one. -/
def answer? (s : Overlays α) : OverlayCall α → Option Handle
  | .append _ => some s.under.nextHandle
  | _ => none

variable [Scalar α]

def step (s : Overlays α) : OverlayCall α → Overlays α
  | .append e => { s with under := s.under.append e }
  | .setVisible h visible => { s with under := s.under.setVisible h visible }
  | .place h offset width => { s with under := s.under.place h offset width }
  | .bind h => { s with pointer := s.pointer.bind h }
  | .setHovered hovered column =>
      let moved := LadderChart.setHovered hovered column.isSome s.under s.pointer
      ⟨moved.1, moved.2⟩
  | .markUnder => { s with under := s.under.markClean }
  | .markPointer => { s with pointer := s.pointer.markClean }

def run (s : Overlays α) : List (OverlayCall α) → Overlays α
  | [] => s
  | c :: rest => run (s.step c) rest

theorem run_append (s : Overlays α) (first second : List (OverlayCall α)) :
    s.run (first ++ second) = (s.run first).run second := by
  induction first generalizing s with
  | nil => rfl
  | cons c rest ih => exact ih (s.step c)

/-! ### What a call leaves for a handle -/

omit [Scalar α] in
/-- Whether the element is shown: from its creation, by a call that names it, or, while it is bound,
by the pointer. -/
def shown? (h : Handle) (s : Overlays α) (c : OverlayCall α) : Option Bool :=
  match c, s.under.element? h with
  | .append e, none => if h = s.under.nextHandle then some e.visible else none
  | .setVisible k visible, some _ => if h = k then some visible else none
  | .setHovered hovered column, some _ =>
      if h ∈ s.pointer.bindings then some (hovered && column.isSome) else none
  | _, _ => none

/-- Where the element stands: from its creation, or by a call that names it and does not ask for
equal numbers. -/
def seated? (h : Handle) (s : Overlays α) (c : OverlayCall α) : Option (α × α) :=
  match c, s.under.element? h with
  | .append e, none => if h = s.under.nextHandle then some (e.offset, e.width) else none
  | .place k offset width, some e =>
      if h = k ∧ (e.offset == offset && e.width == width) = false then some (offset, width)
      else none
  | _, _ => none

/-- What the last call left that left anything. -/
def latest? {τ : Type} (leaves : Overlays α → OverlayCall α → Option τ) (s : Overlays α) :
    List (OverlayCall α) → Option τ
  | [] => none
  | c :: rest => (latest? leaves (s.step c) rest).or (leaves s c)

omit [Scalar α] in
theorem found_ne_next {s : Overlays α} {h : Handle} {e : Element α}
    (found : s.under.element? h = some e) : h ≠ s.under.nextHandle := by
  rintro rfl
  simp [UnderLayer.element?, UnderLayer.nextHandle] at found

theorem element_step {s : Overlays α} {h : Handle} {e : Element α}
    (found : s.under.element? h = some e) (c : OverlayCall α) :
    (s.step c).under.element? h = some (e.left (s.shown? h c) (s.seated? h c)) := by
  cases c with
  | append new =>
      simp only [step, UnderLayer.element_append, if_neg (found_ne_next found), shown?, seated?, found]
      rfl
  | setVisible k visible =>
      simp only [step, UnderLayer.element_setVisible, shown?, seated?, found, Option.map_some]
      by_cases same : h = k
      · simp only [if_pos same]
        rfl
      · simp only [if_neg same]
        rfl
  | place k offset width =>
      simp only [step, UnderLayer.place, UnderLayer.element_update, shown?, seated?, found,
        Option.map_some, ← Bool.not_and, Bool.not_eq_true']
      split <;> rfl
  | setHovered hovered column =>
      simp only [step, setHovered, UnderLayer.element_showAll, shown?, seated?, found,
        Option.map_some]
      by_cases bound : h ∈ s.pointer.bindings
      · simp only [if_pos bound]
        rfl
      · simp only [if_neg bound]
        rfl
  | bind k => exact found
  | markUnder => exact found
  | markPointer => exact found

/-- An element comes by the call that appends it, with what it was given. -/
theorem element_comes {s : Overlays α} {h : Handle} {e : Element α} {c : OverlayCall α}
    (absent : s.under.element? h = none) (found : (s.step c).under.element? h = some e) :
    s.shown? h c = some e.visible ∧ s.seated? h c = some (e.offset, e.width) := by
  cases c with
  | append new =>
      simp only [step, UnderLayer.element_append] at found
      by_cases next : h = s.under.nextHandle
      · rw [if_pos next, Option.some.injEq] at found
        simp only [shown?, seated?, absent, if_pos next, found, and_self]
      · rw [if_neg next, absent] at found
        cases found
  | setVisible k visible =>
      simp [step, UnderLayer.element_setVisible, absent] at found
  | place k offset width =>
      simp [step, UnderLayer.place, UnderLayer.element_update, absent] at found
  | setHovered hovered column =>
      simp [step, setHovered, UnderLayer.element_showAll, absent] at found
  | bind k => cases absent.symm.trans found
  | markUnder => cases absent.symm.trans found
  | markPointer => cases absent.symm.trans found

theorem element_run {s : Overlays α} {h : Handle} {e : Element α}
    (found : s.under.element? h = some e) (calls : List (OverlayCall α)) :
    (s.run calls).under.element? h =
      some (e.left (latest? (shown? h) s calls) (latest? (seated? h) s calls)) := by
  induction calls generalizing s e with
  | nil => exact found
  | cons c rest ih => rw [run, ih (element_step found c), Element.left_left, latest?, latest?]

theorem element_latest {s : Overlays α} {h : Handle} {e : Element α}
    (absent : s.under.element? h = none) (calls : List (OverlayCall α))
    (found : (s.run calls).under.element? h = some e) :
    latest? (shown? h) s calls = some e.visible ∧
      latest? (seated? h) s calls = some (e.offset, e.width) := by
  induction calls generalizing s with
  | nil =>
      rw [run, absent] at found
      cases found
  | cons c rest ih =>
      cases next : (s.step c).under.element? h with
      | none =>
          obtain ⟨shown, seat⟩ := ih next found
          rw [latest?, latest?, shown, seat]
          exact ⟨rfl, rfl⟩
      | some first =>
          obtain ⟨shown, seat⟩ := element_comes absent next
          rw [run, element_run next rest, Option.some.injEq] at found
          rw [latest?, latest?, shown, seat, Option.or_some, Option.or_some, ← found]
          exact ⟨rfl, rfl⟩

theorem untouched {s : Overlays α} {h : Handle} {e : Element α}
    (found : s.under.element? h = some e) {c : OverlayCall α} (other : ¬ c.Touches s.pointer h) :
    (s.step c).under.element? h = some e := by
  have shown : s.shown? h c = none := by
    cases c with
    | setVisible k visible => simp only [shown?, found, if_neg (show ¬ h = k from other)]
    | setHovered hovered column =>
        simp only [shown?, found, if_neg (show ¬ h ∈ s.pointer.bindings from other)]
    | _ => simp only [shown?, found]
  have seat : s.seated? h c = none := by
    cases c with
    | place k offset width =>
        simp only [seated?, found]
        rw [if_neg fun here => other here.1]
    | _ => simp only [seated?, found]
  rw [element_step found, shown, seat]
  rfl

theorem step_unknown {s : Overlays α} {h : Handle} (absent : s.under.element? h = none)
    (visible : Bool) (offset width : α) :
    s.step (.setVisible h visible) = s ∧ s.step (.place h offset width) = s := by
  simp only [step, UnderLayer.setVisible, UnderLayer.place, UnderLayer.update_unknown _ absent,
    and_self]

/-! ### Handles and bindings -/

theorem nextHandle_step (s : Overlays α) (c : OverlayCall α) :
    (s.step c).under.nextHandle = s.under.nextHandle + if c.appends then 1 else 0 := by
  cases c with
  | append e => simp [step, UnderLayer.append, UnderLayer.nextHandle, OverlayCall.appends]
  | setVisible h visible => exact UnderLayer.nextHandle_update _ _ _ _
  | place h offset width => exact UnderLayer.nextHandle_update _ _ _ _
  | setHovered hovered column => exact UnderLayer.nextHandle_showAll _ _ _
  | _ => rfl

theorem nextHandle_run (s : Overlays α) (calls : List (OverlayCall α)) :
    (s.run calls).under.nextHandle = s.under.nextHandle + calls.countP OverlayCall.appends := by
  induction calls generalizing s with
  | nil => rfl
  | cons c rest ih =>
      rw [run, ih, nextHandle_step, List.countP_cons]
      exact (Nat.add_assoc _ _ _).trans (congrArg _ (Nat.add_comm _ _))

theorem bindings_step (s : Overlays α) (c : OverlayCall α) (seen : List Handle)
    (first : s.pointer.bindings = seen.eraseDups) :
    (s.step c).pointer.bindings = (seen ++ c.bound?.toList).eraseDups := by
  cases c with
  | bind h => exact s.pointer.bind_first h seen first
  | _ => exact first.trans (congrArg List.eraseDups (List.append_nil seen).symm)

theorem bindings_run (s : Overlays α) (calls : List (OverlayCall α)) (seen : List Handle)
    (first : s.pointer.bindings = seen.eraseDups) :
    (s.run calls).pointer.bindings = (seen ++ calls.filterMap OverlayCall.bound?).eraseDups := by
  -- what was bound already is a parameter: the bindings are its first occurrences at every step
  induction calls generalizing s seen with
  | nil => rwa [List.filterMap_nil, List.append_nil]
  | cons c rest ih =>
      rw [run, ih _ _ (bindings_step s c seen first), List.filterMap_cons, List.append_assoc]
      cases c.bound? <;> rfl

theorem nodup_run (s : Overlays α) (calls : List (OverlayCall α))
    (distinct : s.pointer.bindings.Nodup) : (s.run calls).pointer.bindings.Nodup := by
  induction calls generalizing s with
  | nil => exact distinct
  | cons c rest ih =>
      refine ih (s.step c) ?_
      cases c with
      | bind h => exact s.pointer.bind_nodup h distinct
      | _ => exact distinct

/-! ### Marks -/

theorem step_tracks (s : Overlays α) (c : OverlayCall α) (unmarked : c ≠ .markUnder) :
    s.under.Tracks (s.step c).under := by
  cases c with
  | append e => exact s.under.append_tracks e
  | setVisible h visible => exact s.under.update_tracks h _ _
  | place h offset width => exact s.under.update_tracks h _ _
  | setHovered hovered column => exact s.under.showAll_tracks _ _
  | markUnder => exact absurd rfl unmarked
  | bind h => exact .refl s.under
  | markPointer => exact .refl s.under

theorem run_tracks (s : Overlays α) (calls : List (OverlayCall α))
    (unmarked : .markUnder ∉ calls) : s.under.Tracks (s.run calls).under := by
  induction calls generalizing s with
  | nil => exact .refl s.under
  | cons c rest ih =>
      rw [List.mem_cons, not_or] at unmarked
      exact (step_tracks s c (Ne.symm unmarked.1)).trans (ih (s.step c) unmarked.2)

/-! ### Histories -/

/-- What a history of calls on fresh overlays keeps. -/
structure Kept (calls : List (OverlayCall α)) : Prop where
  /-- Handles count the appended elements, and each stands for the element it was given out for. -/
  handles : ∀ before e later, calls = before ++ .append e :: later →
    (blank.run before).answer? (.append e) = some (before.countP OverlayCall.appends) ∧
      ∃ e', (blank.run calls).under.element? (before.countP OverlayCall.appends) = some e' ∧
        e'.fill = e.fill ∧ e'.className = e.className
  latest : ∀ h e, (blank.run calls).under.element? h = some e →
    latest? (shown? h) blank calls = some e.visible ∧
      latest? (seated? h) blank calls = some (e.offset, e.width)
  others : ∀ h e c, (blank.run calls).under.element? h = some e →
    ¬ c.Touches (blank.run calls).pointer h →
    ((blank.run calls).step c).under.element? h = some e
  unknown : ∀ h visible offset width, (blank.run calls).under.element? h = none →
    (blank.run calls).step (.setVisible h visible) = blank.run calls ∧
      (blank.run calls).step (.place h offset width) = blank.run calls
  /-- Each bound handle once, at the place of its first binding. -/
  bindings : (blank.run calls).pointer.bindings =
    (calls.filterMap OverlayCall.bound?).eraseDups
  once : (blank.run calls).pointer.bindings.Nodup
  /-- A clean layer is as it was at any time since it was last marked. -/
  clean : ∀ before later, calls = before ++ later → .markUnder ∉ later →
    (blank.run calls).under.dirty = false →
    (blank.run calls).under.elements = (blank.run before).under.elements

/-- Handles are stable and marks are sound, whatever is called in whatever order, with handles that
are known or not. -/
theorem history_kept (calls : List (OverlayCall α)) : Kept calls where
  handles before e later split := by
    have next : (blank.run before).under.nextHandle = before.countP OverlayCall.appends :=
      (nextHandle_run blank before).trans (Nat.zero_add _)
    have created : ((blank.run before).step (.append e)).under.element?
        (before.countP OverlayCall.appends) = some e := by
      rw [step, UnderLayer.element_append, if_pos next.symm]
    have reached : ∃ shown seat, (blank.run calls).under.element?
        (before.countP OverlayCall.appends) = some (e.left shown seat) := by
      rw [split, run_append, run]
      exact ⟨_, _, element_run created later⟩
    obtain ⟨shown, seat, found⟩ := reached
    exact ⟨congrArg some next, _, found, rfl, rfl⟩
  latest h e found := element_latest rfl calls found
  others h e c found other := untouched found other
  unknown h visible offset width absent := step_unknown absent visible offset width
  bindings := bindings_run blank calls [] rfl
  once := nodup_run blank calls List.nodup_nil
  clean before later split unmarked clean := by
    rw [split, run_append] at clean ⊢
    rw [run_tracks (blank.run before) later unmarked clean]

/-- Handles are named before they are given out, a zero comes back with the other sign, and what is
set after the mark is set already. -/
def oddCalls : List (OverlayCall Float) :=
  [.bind 1, .setVisible 0 true, .append (.fresh .black none), .append (.fresh .black none),
    .place 0 3.0 4.0, .place 0 0.0 4.0, .bind 0, .bind 1, .setHovered true (some 2),
    .setVisible 1 false, .markUnder, .place 0 (-0.0) 4.0, .setVisible 7 true, .setVisible 1 false]

theorem odd_calls_kept :
    (blank.run oddCalls).under.element? 0 = some ⟨none, .black, true, 0.0, 4.0⟩ ∧
      latest? (shown? 0) blank oddCalls = some true ∧
      latest? (seated? 0) blank oddCalls = some (0.0, 4.0) ∧
      (blank.run oddCalls).pointer.bindings = [1, 0] ∧
      (blank.run oddCalls).under.elements =
        (blank.run (oddCalls.take 11)).under.elements := by
  have kept := history_kept oddCalls
  have found : (blank.run oddCalls).under.element? 0 =
      some (⟨none, .black, true, 0.0, 4.0⟩ : Element Float) := by decide
  obtain ⟨shown, seat⟩ := kept.latest 0 _ found
  exact ⟨found, shown, seat, kept.bindings.trans (by decide),
    kept.clean (oddCalls.take 11) (oddCalls.drop 11) rfl (by simp [oddCalls]) (by decide)⟩

end Overlays
end LadderChart
