/-!
Labels of domains written with letters, digits and hyphens alone: the characters of ASCII come first,
and the others follow as numbers, each telling how many steps of all insertions lie before the next one.
-/

namespace Lifecycle.Url.LabelCode

/-! ### Digits and weights -/

/-- The value of a digit. -/
def digit? (c : Char) : Option Nat :=
  if 'a' ≤ c ∧ c ≤ 'z' then some (c.toNat - 'a'.toNat)
  else if '0' ≤ c ∧ c ≤ '9' then some (c.toNat - '0'.toNat + 26)
  else none

/-- The digit of a value below 36. -/
def digit (d : Nat) : Char := Char.ofNat (if d < 26 then d + 'a'.toNat else d - 26 + '0'.toNat)

/-- The least value with which a digit at the place `k` is not the last one of its number. -/
def threshold (bias k : Nat) : Nat := if k ≤ bias then 1 else if bias + 26 ≤ k then 26 else k - bias

theorem threshold_pos (bias k : Nat) : 1 ≤ threshold bias k := by
  unfold threshold
  split
  · omega
  · split <;> omega

theorem threshold_le (bias k : Nat) : threshold bias k ≤ 26 := by
  unfold threshold
  split
  · omega
  · split <;> omega

/-- A number made small enough for the bias, and the bias that this adds to `k`. -/
def shrink (delta k : Nat) : Nat :=
  if 455 < delta then shrink (delta / 35) (k + 36) else k + 36 * delta / (delta + 38)
termination_by delta
decreasing_by exact Nat.div_lt_self (by omega) (by omega)

/-- The bias after the number `delta`, when `count` characters stand. -/
def adapt (delta count : Nat) (first : Bool) : Nat :=
  let d := if first then delta / 700 else delta / 2
  shrink (d + d / count) 0

/-- The number of a character before all that are encoded, and the bias at the beginning. -/
abbrev start : Nat := 128
abbrev startBias : Nat := 72

/-! ### Encoding -/

/-- The digits of a number. -/
def numberDigits (bias k n : Nat) : List Char :=
  let t := threshold bias k
  if n < t then [digit n]
  else digit (t + (n - t) % (36 - t)) :: numberDigits bias (k + 36) ((n - t) / (36 - t))
termination_by n
decreasing_by
  have h := threshold_pos bias k
  have g := threshold_le bias k
  calc (n - threshold bias k) / (36 - threshold bias k) ≤ n - threshold bias k := Nat.div_le_self _ _
    _ < n := by omega

/-- Where the encoding stands: the steps since the last number, the bias, the number of characters
encoded, and the digits. -/
structure Progress where
  delta : Nat
  bias : Nat
  count : Nat
  digits : List Char

/-- The encoding after one pass of the character `m` over another one. -/
def Progress.pass (basic m : Nat) (p : Progress) (c : Char) : Progress :=
  if c.toNat < m then { p with delta := p.delta + 1 }
  else if c.toNat = m then
    { delta := 0
      bias := adapt p.delta (p.count + 1) (p.count == basic)
      count := p.count + 1
      digits := p.digits ++ numberDigits p.bias 36 p.delta }
  else p

/-- The encoding of the characters `ms`, in ascending order, of a label, of which those below `n` are
encoded. -/
def encodeAll (label : List Char) (basic : Nat) : Nat → Progress → List Nat → Progress
  | _, p, [] => p
  | n, p, m :: ms =>
    let p := label.foldl (Progress.pass basic m) { p with delta := p.delta + (m - n) * (p.count + 1) }
    encodeAll label basic (m + 1) { p with delta := p.delta + 1 } ms

def isAscii (c : Char) : Bool := c.toNat < start

/-- The encoding of a label. -/
def encode (label : List Char) : List Char :=
  let basic := label.filter isAscii
  let others := ((label.filter (!isAscii ·)).map Char.toNat).mergeSort.eraseDups
  let p := encodeAll label basic.length start ⟨0, startBias, basic.length, []⟩ others
  (if basic.isEmpty then [] else basic ++ ['-']) ++ p.digits

/-! ### Decoding -/

/-- One number from its digit at the place `k` on, added to `n`, and what follows it. -/
def readNumber? (bias : Nat) : (n weight k : Nat) → List Char → Option (Nat × List Char)
  | _, _, _, [] => none
  | n, weight, k, c :: cs => (digit? c).bind fun d =>
    let t := threshold bias k
    if d < t then some (n + d * weight, cs) else readNumber? bias (n + d * weight) (weight * (36 - t)) (k + 36) cs

/-- The character of a number, unless there is none. -/
def character? (n : Nat) : Option Char := if n.isValidChar then some (Char.ofNat n) else none

/-- The label that the numbers `cs` make of the characters that stand, the last insertion having been
that of `n` in front of the place `i`. `fuel` bounds the number of insertions. -/
def insertAll : (fuel n i bias : Nat) → List Char → List Char → Option (List Char)
  | _, _, _, _, done, [] => some done
  | 0, _, _, _, _, _ :: _ => none
  | fuel + 1, n, i, bias, done, c :: cs => do
    let (j, rest) ← readNumber? bias i 1 36 (c :: cs)
    let count := done.length + 1
    let m := n + j / count
    let new ← character? m
    let place := j % count
    insertAll fuel m (place + 1) (adapt (j - i) count (i == 0)) (done.take place ++ new :: done.drop place) rest

/-- The label of an encoding: characters of ASCII, a hyphen behind them if there are any, and numbers. -/
def decode? (cs : List Char) : Option (List Char) :=
  let tail := (cs.reverse.takeWhile (· ≠ '-')).reverse
  let basic := (cs.take (cs.length - tail.length)).dropLast
  if cs.contains '-' && basic.isEmpty then none
  else insertAll tail.length start 0 startBias basic tail

end Lifecycle.Url.LabelCode
