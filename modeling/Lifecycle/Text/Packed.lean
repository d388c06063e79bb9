/-!
Tables of numbers written as texts. A number is written in base 32: its last digit is a capital letter
or one of 0 to 5, the digits in front of it are small letters, 6 to 9, plus and minus.
-/

namespace Lifecycle.Text.Packed

/-- The value of a digit that ends a number. -/
def lastDigit? (c : Char) : Option Nat :=
  if 'A' ≤ c ∧ c ≤ 'Z' then some (c.toNat - 'A'.toNat)
  else if '0' ≤ c ∧ c ≤ '5' then some (c.toNat - '0'.toNat + 26)
  else none

/-- The value of a digit that another one follows. -/
def digit (c : Char) : Nat :=
  if 'a' ≤ c ∧ c ≤ 'z' then c.toNat - 'a'.toNat
  else if '6' ≤ c ∧ c ≤ '9' then c.toNat - '6'.toNat + 26
  else if c = '+' then 30
  else 31

/-- The numbers that are read and the one that is begun, after one more digit. -/
def step : Array Nat × Nat → Char → Array Nat × Nat
  | (read, begun), c => match lastDigit? c with
    | some d => (read.push (begun * 32 + d), 0)
    | none => (read, begun * 32 + digit c)

/-- The numbers of a table, line after line. -/
def numbers (lines : List String) : List Nat :=
  (lines.foldl (fun state line => line.toList.foldl step state) (#[], 0)).1.toList

end Lifecycle.Text.Packed
