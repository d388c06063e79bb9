import Lifecycle.Decimal.Double
import Lifecycle.Text.Integer

/-!
What stands in a column of whole numbers. A text that reads as a number becomes the number, a whole one
wherever 64 bits hold it; any other text stays as it is.
-/

namespace Lifecycle.Store

open Decimal (Double)

inductive Cell where
  | int (n : Int)
  | real (x : Double)
  | text (s : String)
deriving DecidableEq, Repr

/-- The kinds of values. -/
inductive CellKind where
  | int | real | text
deriving DecidableEq, Repr

def CellKind.name : CellKind → String
  | .int => "INTEGER"
  | .real => "REAL"
  | .text => "TEXT"

namespace Cell

def kind : Cell → CellKind
  | .int _ => .int
  | .real _ => .real
  | .text _ => .text

/-! ### Order -/

/-- A number as a fraction. -/
def fraction (x : Double) : Int × Nat := (if x.negative then -(x.ratio.1 : Int) else x.ratio.1, x.ratio.2)

/-- Numbers by their values, before all texts; texts by their characters. -/
def le : Cell → Cell → Bool
  | .int a, .int b => a ≤ b
  | .int a, .real y => a * (fraction y).2 ≤ (fraction y).1
  | .real x, .int b => (fraction x).1 ≤ b * (fraction x).2
  | .real x, .real y => (fraction x).1 * (fraction y).2 ≤ (fraction y).1 * (fraction x).2
  | .text s, .text t => s ≤ t
  | .text _, _ => false
  | _, .text _ => true

/-- By one value, and by `next` where it is as great. -/
def leBy {α : Type} (f : α → Cell) (next : α → α → Bool) (a b : α) : Bool :=
  (f a).le (f b) && (!(f b).le (f a) || next a b)

@[simp] theorem int_le_int (a b : Int) : (int a).le (int b) = decide (a ≤ b) := rfl

/-! ### Numbers in texts -/

/-- What may stand around a number. -/
def blank (c : Char) : Bool := c = ' ' || ('\t' ≤ c && c ≤ '\r')

/-- Is there a minus sign in front, and what follows the sign? -/
def signed : List Char → Bool × List Char
  | '-' :: cs => (true, cs)
  | '+' :: cs => (false, cs)
  | cs => (false, cs)

/-- The digits in front, and what follows them. -/
def digits (cs : List Char) : List Char × List Char := (cs.takeWhile Char.isDigit, cs.dropWhile Char.isDigit)

def ofDigits (ds : List Char) : Nat := (Text.numeral Text.digit? 10 0 ds).getD 0

/-- A number as it is written. -/
structure Written where
  negative : Bool
  whole : List Char
  fraction : Option (List Char)  -- behind a point
  exponent : Option Int
deriving DecidableEq, Repr

/-- The exponent in front: none if no letter begins one. -/
def exponent? : List Char → Option (Option Int × List Char)
  | c :: cs =>
    if c = 'e' ∨ c = 'E' then
      let (negative, cs) := signed cs
      let (ds, cs) := digits cs
      if ds.isEmpty then none else some (some (if negative then -(ofDigits ds : Int) else ofDigits ds), cs)
    else some (none, c :: cs)
  | [] => some (none, [])

/-- The number that a text writes, with nothing but blanks around it. -/
def written? (text : String) : Option Written := do
  let (negative, cs) := signed (text.toList.dropWhile blank)
  let (whole, cs) := digits cs
  let (fraction, cs) := match cs with
    | '.' :: cs => (some (digits cs).1, (digits cs).2)
    | cs => (none, cs)
  if whole.isEmpty && (fraction.getD []).isEmpty then none
  let (exponent, cs) ← exponent? cs
  if cs.all blank then some ⟨negative, whole, fraction, exponent⟩ else none

/-- Beyond the numbers of the format. -/
def beyond (negative : Bool) : Double := ⟨negative, Double.leastMantissa, Double.greatestExponent + 1⟩

/-- No number with a greater power of ten is in the format, and none with a smaller one but zero. -/
abbrev powerLimit : Nat := 400

/-- The number nearest to `significand * 10 ^ exponent`. -/
def nearest (negative : Bool) (significand : Nat) (exponent : Int) : Double :=
  let size : Int := (toString significand).length + exponent
  if significand = 0 ∨ size < -(powerLimit : Int) then Double.zero negative
  else if (powerLimit : Int) < size then beyond negative
  else
    let x := if 0 ≤ exponent then Double.ofRatio (significand * Nat.pow 10 exponent.toNat) 1
      else Double.ofRatio significand (Nat.pow 10 (-exponent).toNat)
    match x with
    | some x => { x with negative }
    | none => beyond negative

/-- A number without a fraction as a whole one, if its absolute value is below `2 ^ 63`. -/
def ofDouble (x : Double) : Cell :=
  let (n, d) := fraction x
  if n % d = 0 ∧ (n / d).natAbs < Text.int64Bound then .int (n / d) else .real x

/-- What becomes of a text. Written with digits alone, all 64 bits count; otherwise it is rounded first. -/
def ofText (text : String) : Cell :=
  match written? text with
  | none => .text text
  | some ⟨negative, whole, none, none⟩ =>
    let n : Int := if negative then -(ofDigits whole : Int) else ofDigits whole
    if -(Text.int64Bound : Int) ≤ n ∧ n < Text.int64Bound then .int n
    else .real (nearest negative (ofDigits whole) 0)
  | some ⟨negative, whole, fraction, exponent⟩ =>
    let behind := fraction.getD []
    ofDouble (nearest negative (ofDigits (whole ++ behind)) (exponent.getD 0 - behind.length))

end Cell

end Lifecycle.Store
