/-!
Integers written in decimal: an optional sign and at least one digit, within given bounds.
-/

namespace Lifecycle.Text

/-- The value of a decimal digit. -/
def digit? (c : Char) : Option Nat := if '0' ≤ c ∧ c ≤ '9' then some (c.toNat - '0'.toNat) else none

/-- The value of a hexadecimal digit of either case. -/
def hexDigit? (c : Char) : Option Nat :=
  if '0' ≤ c ∧ c ≤ '9' then some (c.toNat - '0'.toNat)
  else if 'a' ≤ c ∧ c ≤ 'f' then some (c.toNat - 'a'.toNat + 10)
  else if 'A' ≤ c ∧ c ≤ 'F' then some (c.toNat - 'A'.toNat + 10)
  else none

/-- The number that the digits `cs` append to `acc` in the base `base`. -/
def numeral (read : Char → Option Nat) (base : Nat) : Nat → List Char → Option Nat
  | acc, [] => some acc
  | acc, c :: cs => (read c).bind fun d => numeral read base (acc * base + d) cs

/-- A natural number below `bound`, in decimal, with an optional plus sign. -/
def nat? (bound : Nat) (s : String) : Option Nat :=
  let digits := match s.toList with
    | '+' :: cs => cs
    | cs => cs
  if digits.isEmpty then none
  else (numeral digit? 10 0 digits).filter (· < bound)

/-- One more than the greatest natural number of 64 bits. -/
abbrev nat64Bound : Nat := 18446744073709551616

/-- One more than the greatest signed integer of 64 bits. -/
abbrev int64Bound : Nat := 9223372036854775808

/-- A 64-bit signed integer in decimal, with an optional sign. -/
def int64? (s : String) : Option Int :=
  let (negative, digits) := match s.toList with
    | '+' :: cs => (false, cs)
    | '-' :: cs => (true, cs)
    | cs => (false, cs)
  if digits.isEmpty then none
  else (numeral digit? 10 0 digits).bind fun n =>
    let i : Int := if negative then -(n : Int) else n
    if -(int64Bound : Int) ≤ i ∧ i < int64Bound then some i else none

/-- `n` in decimal with at least `width` digits. -/
def padded (width n : Nat) : String :=
  let s := toString n
  String.ofList (List.replicate (width - s.length) '0') ++ s

end Lifecycle.Text
