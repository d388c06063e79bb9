import Lifecycle.Decimal.Double

/-!
The shortest decimal that reads back as a given number of the binary64 format, and the layout of
its digits.
-/

namespace Lifecycle.Decimal

/-- A positive decimal `digits * 10 ^ exponent`. -/
structure Digits where
  digits : Nat
  exponent : Int
deriving DecidableEq, Repr

/-- The fraction `num / den` measured in units of `10 ^ p`. -/
def inPowers (num den : Nat) (p : Int) : Nat × Nat :=
  if 0 ≤ p then (num, den * Nat.pow 10 p.toNat) else (num * Nat.pow 10 (-p).toNat, den)

/-- The greatest `k` with `10 ^ k ≤ num / den`, for positive `num` and `den`. -/
def decimalOrder (num den : Nat) : Int :=
  if den ≤ num then ((toString (num / den)).length : Int) - 1
  else
    let d := (toString (den / num)).length
    if num * Nat.pow 10 (d - 1) = den then 1 - (d : Int) else -(d : Int)

namespace Double

/-- Bounds of the reals that round to a positive number, all four times a power of two: the lower
bound, the number, the upper bound, and their common denominator. -/
def bounds (d : Double) : Nat × Nat × Nat × Nat :=
  let m := d.mantissa
  let low := if m = leastMantissa ∧ leastExponent < d.exponent then 4 * m - 1 else 4 * m - 2
  let e := d.exponent - 2
  if 0 ≤ e then (low <<< e.toNat, (4 * m) <<< e.toNat, (4 * m + 2) <<< e.toNat, 1)
  else (low, 4 * m, 4 * m + 2, 1 <<< (-e).toNat)

/-- The neighbour of a positive number on the grid of `10 ^ p` that rounds to it, the nearer one if
both do and the even one of two at the same distance. -/
def onGrid? (d : Double) (p : Int) : Option Digits :=
  let (low, mid, high, den) := d.bounds
  let (v, unit) := inPowers mid den p
  let (l, lUnit) := inPowers low den p
  let (h, hUnit) := inPowers high den p
  let closed := d.mantissa % 2 == 0
  let inside (n : Nat) : Bool :=
    (if closed then l ≤ n * lUnit else l < n * lUnit) && (if closed then n * hUnit ≤ h else n * hUnit < h)
  let f := v / unit
  let below := v - f * unit
  let above := (f + 1) * unit - v
  match inside f && f != 0, inside (f + 1) with
  | false, false => none
  | true, false => some ⟨f, p⟩
  | false, true => some ⟨f + 1, p⟩
  | true, true => some (if below < above || (below == above && f % 2 == 0) then ⟨f, p⟩ else ⟨f + 1, p⟩)

/-- The decimal of fewest digits that rounds to a positive number. -/
def shortest (d : Double) : Digits :=
  let (_, mid, _, den) := d.bounds
  let k := decimalOrder mid den
  ((List.range 17).findSome? fun (n : Nat) => d.onGrid? (k - n)).getD ⟨d.mantissa, 0⟩

end Double

/-- How a decimal is laid out. -/
structure Layout where
  positionalFrom : Int   -- least decimal order written positionally
  positionalBelow : Int  -- first decimal order written with an exponent again
  wholeMark : String     -- what follows the digits of a whole number
  exponentMark : String
  plusSign : Bool        -- whether a positive exponent has its sign

/-- Digits without the zeros at their end. -/
def Digits.stripped (d : Digits) : Nat → Digits
  | 0 => d
  | n + 1 => if d.digits % 10 = 0 ∧ d.digits ≠ 0 then Digits.stripped ⟨d.digits / 10, d.exponent + 1⟩ n else d

/-- The text of a positive decimal. -/
def Layout.text (l : Layout) (d : Digits) : String :=
  let d := d.stripped 17
  let ds := (toString d.digits).toList
  let order := (ds.length : Int) + d.exponent - 1
  let zeros (n : Int) : List Char := List.replicate n.toNat '0'
  if l.positionalFrom ≤ order ∧ order < l.positionalBelow then
    if 0 ≤ d.exponent then String.ofList (ds ++ zeros d.exponent) ++ l.wholeMark
    else if 0 ≤ order then
      String.ofList (ds.take (order + 1).toNat ++ '.' :: ds.drop (order + 1).toNat)
    else String.ofList ('0' :: '.' :: zeros (-order - 1) ++ ds)
  else
    let head := match ds with
      | [] => []
      | [c] => [c]
      | c :: rest => c :: '.' :: rest
    let sign := if order < 0 then "-" else if l.plusSign then "+" else ""
    String.ofList head ++ l.exponentMark ++ sign ++ toString order.natAbs

/-- The text of a number of the format. -/
def Layout.double (l : Layout) (d : Double) : String :=
  (if d.negative then "-" else "") ++ (if d.isZero then "0" ++ l.wholeMark else l.text d.shortest)

end Lifecycle.Decimal
