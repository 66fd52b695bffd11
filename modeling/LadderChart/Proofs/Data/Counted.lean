import Mathlib.Data.Nat.Dist
import LadderChart.Json.Reader
import LadderChart.Proofs.Engine.SnapshotText
import LadderChart.Proofs.Plot.Guarded

/-!
The indices of a window, counted in words. A window comes from bounds and a length, from a length
alone, or from a text, where only the order of the bounds is checked. Wherever it comes from, its
numbers agree with the indices that are met on a walk from one bound to the other. The one window
that cannot be counted is that of all the words there are: a text can ask for it, and it has one
index more than the largest word.
-/

namespace LadderChart

/-! ### Walks -/

/-- What is left of a walk over indices: from `next` up to `last`, unless that one is met already. -/
structure Walk where
  next : Nat
  last : Nat
  done : Bool

namespace Walk

/-- The index that is met, and what is left after it. The last index only marks the walk as done,
for behind it there may be no word. -/
def step (k : Walk) : Guarded (Option (Nat × Walk)) :=
  if k.done = true ∨ k.last < k.next then .ok none
  else if k.next < k.last then do
    let after ← Guarded.sum k.next 1
    return some (k.next, { k with next := after })
  else return some (k.next, { k with done := true })

inductive Meets : Walk → List Nat → Prop where
  | ended {k : Walk} (nothing : k.step = .ok none) : Meets k []
  | met {k rest : Walk} {index : Nat} {indices : List Nat}
      (one : k.step = .ok (some (index, rest))) (others : Meets rest indices) :
      Meets k (index :: indices)

theorem Meets.unique {k : Walk} {xs ys : List Nat} (one : k.Meets xs) (other : k.Meets ys) :
    xs = ys := by
  induction one generalizing ys with
  | ended nothing =>
      cases other with
      | ended _ => rfl
      | met found _ =>
          rw [nothing] at found
          cases found
  | met found _ ih =>
      cases other with
      | ended nothing =>
          rw [found] at nothing
          cases nothing
      | met found' others =>
          rw [found] at found'
          cases found'
          rw [ih others]

theorem step_below (n last : Nat) (below : n < last) (word : last ≤ Scalar.largestIndex) :
    step ⟨n, last, false⟩ = .ok (some (n, ⟨n + 1, last, false⟩)) := by
  have after : Guarded.sum n 1 = .ok (n + 1) := if_pos (by omega)
  have left : ¬ (false = true ∨ last < n) := by simp [below.le]
  simp only [step, if_neg left, if_pos below, after, Guarded.ok_bind, Guarded.pure_eq]

theorem step_last (n : Nat) : step ⟨n, n, false⟩ = .ok (some (n, ⟨n, n, true⟩)) := by
  simp [step]

theorem step_done (n last : Nat) : step ⟨n, last, true⟩ = .ok none := if_pos (.inl rfl)

theorem meets_range (n more : Nat) (word : n + more ≤ Scalar.largestIndex) :
    Meets ⟨n, n + more, false⟩ (List.range' n (more + 1)) := by
  -- on how many indices are left: the last one stays where it is while the next one moves
  induction more generalizing n with
  | zero => exact .met (step_last n) (.ended (step_done n n))
  | succ more ih =>
      have rest := ih (n + 1) (by omega)
      have last : n + 1 + more = n + (more + 1) := by omega
      rw [last] at rest
      rw [List.range'_succ]
      exact .met (step_below n _ (by omega) word) rest

end Walk

namespace Window

/-! ### Where windows come from -/

inductive Source where
  | bounds (first last length : Nat)
  | whole (length : Nat)
  | text (t : String)

namespace Source

def window? : Source → Option Window
  | .bounds first last length => (make first last length).toOption
  | .whole length => full? length
  | .text t => (Json.ofString? t).bind ofJson?

/-- What is handed over as a number is a word; a text may spell any number. -/
def Words : Source → Prop
  | .bounds first last length =>
      first ≤ Scalar.largestIndex ∧ last ≤ Scalar.largestIndex ∧ length ≤ Scalar.largestIndex
  | .whole length => length ≤ Scalar.largestIndex
  | .text _ => True

end Source

theorem ofJson?_word (j : Json) (w : Window) (read : ofJson? j = some w) :
    w.last ≤ Scalar.largestIndex := by
  simp only [ofJson?, Option.bind_eq_bind, Option.bind_eq_some_iff] at read
  obtain ⟨fields, _, first, _, last, found, made⟩ := read
  obtain ⟨j, spelt⟩ := Json.Fields.required_source found
  split at made
  · cases made
    exact Json.natUpTo?_le _ last j spelt
  · cases made

/-- Below a length that is a word there is no room for the largest word; in a text there is. -/
theorem Source.window?_word (s : Source) (words : s.Words) (w : Window)
    (given : s.window? = some w) :
    w.last < Scalar.largestIndex ∨ (∃ t, s = .text t) ∧ w.last ≤ Scalar.largestIndex := by
  cases s with
  | bounds first last length =>
      by_cases inside : first ≤ last ∧ last < length
      · rw [window?, make, dif_pos inside] at given
        cases given
        exact .inl (inside.2.trans_le words.2.2)
      · rw [window?, make, dif_neg inside] at given
        cases given
  | whole length =>
      cases length with
      | zero => cases given
      | succ last =>
          cases given
          exact .inl words
  | text t =>
      rw [window?] at given
      obtain ⟨j, _, read⟩ := Option.bind_eq_some_iff.mp given
      exact .inr ⟨⟨t, rfl⟩, ofJson?_word j w read⟩

section Numbers
variable (w : Window)

theorem window?_text (word : w.last ≤ Scalar.largestIndex) :
    (Source.text w.toJson.compact).window? = some w := by
  have kept := w.kept word
  have read : Json.ofString? w.toJson.compact = some w.toJson := by
    unfold Json.ofString? Json.compact
    rw [String.toList_ofList, Json.read_compact _ kept.written]
  rw [Source.window?, read, Option.bind_some, kept.back]

/-! ### Numbers of a window -/

def walk : Walk := ⟨w.first, w.last, false⟩

theorem walk_meets (word : w.last ≤ Scalar.largestIndex) (xs : List Nat) :
    w.walk.Meets xs ↔ xs = w.indices := by
  have ordered := w.ordered
  have last : w.first + w.span = w.last := by
    rw [span]
    omega
  have meets : w.walk.Meets w.indices := by
    have all := Walk.meets_range w.first w.span (by rwa [last])
    rwa [last] at all
  constructor
  · intro met
    exact met.unique meets
  · rintro rfl
    exact meets

theorem count?_eq : w.count? = (Guarded.count w).toOption := by
  rw [Guarded.count_cases, count?]
  split <;> rfl

theorem count_or_stops :
    Guarded.count w = .ok w.indices.length ∨ Guarded.count w = .error .overflow := by
  rw [Guarded.count_cases, w.length_indices]
  split
  · exact .inl rfl
  · exact .inr rfl

/-- Of windows of words, only the one with all of them has more indices than a word counts. -/
theorem count_stops_iff (word : w.last ≤ Scalar.largestIndex) :
    Guarded.count w = .error .overflow ↔ w.first = 0 ∧ w.last = Scalar.largestIndex := by
  have ordered := w.ordered
  have size : w.size = w.last - w.first + 1 := rfl
  rw [Guarded.count_cases]
  by_cases fits : w.size ≤ Scalar.largestIndex
  · simp only [if_pos fits, reduceCtorEq, false_iff]
    omega
  · simp only [if_neg fits, true_iff]
    omega

/-- The index of the window that is closer to a given one than all its others. -/
def Nearest (index member : Nat) : Prop :=
  member ∈ w.indices ∧
    ∀ other ∈ w.indices, other ≠ member → Nat.dist member index < Nat.dist other index

theorem clamp_nearest (index : Nat) : w.Nearest index (w.clamp index) := by
  refine ⟨(w.mem_indices _).mpr (w.clamp_contains index), ?_⟩
  intro other member apart
  have inside := (w.contains_iff other).mp ((w.mem_indices other).mp member)
  simp only [clamp, Nat.dist] at apart ⊢
  omega

/-- What the numbers of a window tell of its indices, and that no guard stops their arithmetic. -/
structure Exact : Prop where
  /-- The indices are those of a walk from the first to the last. -/
  walked : ∀ xs, w.walk.Meets xs ↔ xs = w.indices
  spanned : Guarded.difference w.last w.first = .ok w.span
  length : w.indices.length = w.span + 1
  contained : ∀ index, w.contains index = true ↔ index ∈ w.indices
  clamped : ∀ index, Guarded.clamp w.first w.last index = .ok (w.clamp index) ∧
    w.Nearest index (w.clamp index)

theorem exact_of_word (word : w.last ≤ Scalar.largestIndex) : w.Exact where
  walked := w.walk_meets word
  spanned := if_pos w.ordered
  length := w.length_indices
  contained index := (w.mem_indices index).symm
  clamped index := ⟨Guarded.clamp_window w index, w.clamp_nearest index⟩

end Numbers

/-- Wherever a window comes from, its span, its members and the nearest of them are right, and a text
gives it too. Its count is the number of its indices, unless a text asks for all the words there
are: then the sum that counts them is no word. -/
theorem indices_counted (s : Source) (words : s.Words) (w : Window) (given : s.window? = some w) :
    w.Exact ∧
    w.count? = (Guarded.count w).toOption ∧
    (Guarded.count w = .ok w.indices.length ∨ Guarded.count w = .error .overflow) ∧
    (Guarded.count w = .error .overflow ↔
      (∃ t, s = .text t) ∧ w.first = 0 ∧ w.last = Scalar.largestIndex) ∧
    (Source.text w.toJson.compact).window? = some w := by
  have source := s.window?_word words w given
  have word : w.last ≤ Scalar.largestIndex := by
    rcases source with below | ⟨_, word⟩
    · exact below.le
    · exact word
  have stops := w.count_stops_iff word
  refine ⟨w.exact_of_word word, w.count?_eq, w.count_or_stops, ?_, w.window?_text word⟩
  constructor
  · intro stopped
    have all := stops.mp stopped
    rcases source with below | ⟨text, _⟩
    · exact absurd all.2 below.ne
    · exact ⟨text, all⟩
  · intro all
    exact stops.mpr all.2

def wordsButZero : Source := .text "[1, 18446744073709551615]"

theorem words_but_zero_counted : wordsButZero.Words ∧ ∃ w, wordsButZero.window? = some w ∧
    w.Exact ∧ w.count? = some Scalar.largestIndex ∧ w.indices.length = Scalar.largestIndex ∧
    w.Nearest 0 1 := by
  have words : wordsButZero.Words := trivial
  have given : wordsButZero.window? = some ⟨1, Scalar.largestIndex, by decide⟩ := by
    decide +kernel
  obtain ⟨told, _⟩ := indices_counted wordsButZero words _ given
  exact ⟨words, _, given, told, by decide, told.length, (told.clamped 0).2⟩

def allWords : Source := .text "\x7b\"i_min\":0,\"i_max\":18446744073709551615\x7d"

/-- There is one word more than the largest of them counts. -/
theorem all_words_uncounted : ∃ w, allWords.window? = some w ∧
    w.indices.length = w.span + 1 ∧ w.count? ≠ some w.indices.length ∧
    Guarded.count w = .error .overflow := by
  have given : allWords.window? = some ⟨0, Scalar.largestIndex, by decide⟩ := by decide +kernel
  refine ⟨_, given, length_indices _, ?_, rfl⟩
  rw [length_indices]
  decide

end Window
end LadderChart
