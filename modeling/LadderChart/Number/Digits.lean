/-!
Decimal digits of natural numbers, most significant first. A digit is a number below ten, so a
list of digits needs no side condition; `value` reads back what `ofNat` writes.
-/

namespace LadderChart

abbrev Digit := Fin 10

def Digit.char (d : Digit) : Char := Char.ofNat (48 + d.val)

def Digit.ofChar? (c : Char) : Option Digit :=
  if 48 ≤ c.toNat ∧ c.toNat < 58 then some (Fin.ofNat 10 (c.toNat - 48)) else none

namespace Digits

/-- Splits off one digit a step. The number of binary digits bounds the number of steps. -/
def collect : Nat → Nat → List Digit → List Digit
  | 0, n, found => Fin.ofNat 10 n :: found
  | steps + 1, n, found =>
      if n < 10 then Fin.ofNat 10 n :: found
      else collect steps (n / 10) (Fin.ofNat 10 n :: found)

/-- Zero is the single digit zero; no other number starts with it. -/
def ofNat (n : Nat) : List Digit := collect n.log2 n []

def value (digits : List Digit) : Nat :=
  digits.foldl (fun sum d => 10 * sum + d.val) 0

/-- How many digits a number has; zero has none. -/
def count (n : Nat) : Nat := if n = 0 then 0 else (ofNat n).length

def text (digits : List Digit) : List Char := digits.map Digit.char

def zeros (n : Nat) : List Digit := List.replicate n 0

def dropTrailingZeros (digits : List Digit) : List Digit :=
  (digits.reverse.dropWhile (· == 0)).reverse

/-- The longest run of digits at the head of a text, and what follows it. -/
def scan : List Char → List Digit × List Char
  | [] => ([], [])
  | c :: rest =>
      match Digit.ofChar? c with
      | some d => (d :: (scan rest).1, (scan rest).2)
      | none => ([], c :: rest)

theorem ofChar_char (d : Digit) : Digit.ofChar? d.char = some d := by
  revert d; decide

/-- Collecting digits in front of others and reading the whole from zero is reading the others from
the number itself. -/
theorem foldl_collect (steps n : Nat) (found : List Digit) (bound : n < Nat.pow 2 (steps + 1)) :
    (collect steps n found).foldl (fun sum d => 10 * sum + d.val) 0 =
      found.foldl (fun sum d => 10 * sum + d.val) n := by
  induction steps generalizing n found with
  | zero =>
      rw [Nat.pow_eq] at bound
      have single : n % 10 = n := Nat.mod_eq_of_lt (by omega)
      simp [collect, single]
  | succ steps ih =>
      by_cases small : n < 10
      · simp [collect, small, Nat.mod_eq_of_lt small]
      · have shorter : n / 10 < Nat.pow 2 (steps + 1) := by
          rw [Nat.pow_eq, Nat.pow_succ] at bound
          rw [Nat.pow_eq]
          omega
        have joined : 10 * (n / 10) + n % 10 = n := Nat.div_add_mod n 10
        simp [collect, small, ih (n / 10) _ shorter, joined]

theorem value_ofNat (n : Nat) : value (ofNat n) = n := by
  have bound : n < Nat.pow 2 (n.log2 + 1) := Nat.lt_log2_self
  exact foldl_collect n.log2 n [] bound

theorem scan_text_nil (digits : List Digit) : scan (text digits) = (digits, []) := by
  induction digits with
  | nil => rfl
  | cons d rest ih =>
      simp only [text, List.map_cons] at ih ⊢
      simp [scan, ofChar_char, ih]

end Digits
end LadderChart
