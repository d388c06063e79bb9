/-!
Finite numbers of the binary64 format, as exact integers `mantissa * 2 ^ exponent`, with the
rounding of quotients, products and ratios to the nearest of them (ties to the even mantissa).
-/

namespace Lifecycle.Decimal

/-- A finite number of the binary64 format. -/
structure Double where
  negative : Bool
  mantissa : Nat  -- below 2 ^ 53, and at least 2 ^ 52 unless the exponent is the least one
  exponent : Int
deriving DecidableEq, Repr, Inhabited

namespace Double

/-- The least exponent of the format. -/
abbrev leastExponent : Int := -1074

/-- The greatest exponent of the format. -/
abbrev greatestExponent : Int := 971

/-- The least mantissa of the numbers above the least exponent: `2 ^ 52`. -/
abbrev leastMantissa : Nat := 4503599627370496

/-- Zero with a sign. -/
def zero (negative : Bool) : Double := ⟨negative, 0, leastExponent⟩

def isZero (d : Double) : Bool := d.mantissa == 0

/-- Numerical equality: the two zeros are equal. -/
def same (a b : Double) : Bool := a == b || (a.isZero && b.isZero)

/-- The sign turned round. -/
def neg (d : Double) : Double := { d with negative := !d.negative }

/-- `num / (den * 2 ^ e)` as a fraction of natural numbers. -/
def scaled (num den : Nat) (e : Int) : Nat × Nat :=
  if 0 ≤ e then (num, den <<< e.toNat) else (num <<< (-e).toNat, den)

/-- The nearest whole number to `num / den`, of two the even one. -/
def nearest (num den : Nat) : Nat :=
  let q := num / den
  let r := num % den
  if 2 * r < den then q else if den < 2 * r then q + 1 else q + q % 2

/-- The greatest `e` with `2 ^ e ≤ num / den`, for positive `num` and `den`. -/
def binaryOrder (num den : Nat) : Int :=
  let e : Int := (num.log2 : Int) - den.log2
  let (a, b) := scaled num den e
  if b ≤ a then e else e - 1

/-- The number of the format that is nearest to `num / den`; `none` beyond the greatest one. -/
def ofRatio (num den : Nat) : Option Double :=
  if num = 0 then some (zero false)
  else
    let e := max (binaryOrder num den - 52) leastExponent
    let (a, b) := scaled num den e
    let m := nearest a b
    let (m, e) := if m = 2 * leastMantissa then (leastMantissa, e + 1) else (m, e)
    if greatestExponent < e then none else some ⟨false, m, e⟩

/-- The absolute value as a fraction of natural numbers. -/
def ratio (d : Double) : Nat × Nat :=
  if 0 ≤ d.exponent then (d.mantissa <<< d.exponent.toNat, 1) else (d.mantissa, 1 <<< (-d.exponent).toNat)

/-- The rounded product of two absolute values. -/
def mulAbs (a b : Double) : Option Double :=
  let (an, ad) := a.ratio
  let (bn, bd) := b.ratio
  ofRatio (an * bn) (ad * bd)

/-- The rounded quotient of two absolute values. -/
def divAbs (a b : Double) : Option Double :=
  let (an, ad) := a.ratio
  let (bn, bd) := b.ratio
  ofRatio (an * bd) (ad * bn)

/-- The greatest power of ten of the format. -/
abbrev greatestPower : Nat := 308

/-- The number nearest to `10 ^ k`, for `k` up to `greatestPower`. -/
def powerOfTen (k : Nat) : Double := (ofRatio (Nat.pow 10 k) 1).getD (zero false)

/-- `f * 10 ^ exponent` by one rounded product, or by rounded quotients of at most
`10 ^ greatestPower` each; `none` when the product is beyond the greatest number. -/
def scaleByTen (f : Double) (exponent : Int) : Option Double :=
  if 0 ≤ exponent then
    if exponent.toNat ≤ greatestPower then f.mulAbs (powerOfTen exponent.toNat)
    else if f.isZero then some f else none
  else if (-exponent).toNat ≤ greatestPower then f.divAbs (powerOfTen (-exponent).toNat)
  else if f.isZero then some f
  else (f.divAbs (powerOfTen greatestPower)).bind (scaleByTen · (exponent + greatestPower))
termination_by (-exponent).toNat
decreasing_by simp only [greatestPower] at *; omega

/-- The reading of the decimal `significand * 10 ^ exponent`: the significand is rounded first,
then scaled. -/
def ofDecimal (negative : Bool) (significand : Nat) (exponent : Int) : Option Double :=
  ((ofRatio significand 1).bind (scaleByTen · exponent)).map fun d => { d with negative }

end Double

end Lifecycle.Decimal
