import Lifecycle.Url.Domain

/-!
Numeric hosts: addresses of four bytes, written as one to four numbers of base 8, 10 or 16, and
addresses of eight pieces in brackets.
-/

namespace Lifecycle.Url

/-! ### Four bytes -/

/-- The value of a part: hexadecimal after `0x`, octal after `0`, decimal otherwise. -/
def addressPart? : List Char → Option Nat
  | [] => none
  | '0' :: 'x' :: ds | '0' :: 'X' :: ds => Text.numeral Text.hexDigit? 16 0 ds
  | '0' :: d :: ds => Text.numeral (fun c => (Text.digit? c).filter (· < 8)) 8 0 (d :: ds)
  | ds => Text.numeral Text.digit? 10 0 ds

/-- The parts of a host, without the empty one after a final point. -/
def hostParts (host : List Char) : List (List Char) :=
  let parts := splitAt '.' host
  if parts.getLast? = some [] then parts.dropLast else parts

/-- The last part of a host is a number, so the host has to be an address. -/
def endsInNumber (host : List Char) : Bool :=
  match (hostParts host).getLast? with
  | some last => (!last.isEmpty && last.all fun c => (Text.digit? c).isSome) || (addressPart? last).isSome
  | none => false

/-- The number of an address of four bytes; its last part fills the bytes that the others leave. -/
def ipv4? (host : List Char) : Option Nat :=
  let parts := hostParts host
  if 4 < parts.length then none
  else do
    let numbers ← parts.mapM addressPart?
    let last ← numbers.getLast?
    let others := numbers.dropLast
    if others.all (· ≤ 255) ∧ last < Nat.pow 256 (4 - others.length) then
      return others.foldl (fun n d => n * 256 + d) 0 * Nat.pow 256 (4 - others.length) + last
    else none

/-- The bytes of an address with points between them. -/
def ipv4Text (n : Nat) : String :=
  ".".intercalate ([16777216, 65536, 256, 1].map fun weight => toString (n / weight % 256))

/-! ### Eight pieces -/

/-- A decimal byte without leading zeros. -/
def byte? (cs : List Char) : Option Nat :=
  match cs with
  | [] => none
  | '0' :: _ :: _ => none
  | _ => (Text.numeral Text.digit? 10 0 cs).filter (· ≤ 255)

/-- Four bytes with points between them, as two pieces. -/
def fourBytes? (cs : List Char) : Option (List Nat) :=
  match splitAt '.' cs with
  | [a, b, c, d] => do return [(← byte? a) * 256 + (← byte? b), (← byte? c) * 256 + (← byte? d)]
  | _ => none

/-- The pieces read, the first ones first, and how many of them stand before two colons that stood for a
run of zeros. -/
structure Pieces where
  read : List Nat := []
  gap : Option Nat := none

/-- All eight pieces, if there are as many, or fewer with a gap. -/
def Pieces.all? (p : Pieces) : Option (List Nat) :=
  match p.gap with
  | none => if p.read.length = 8 then some p.read else none
  | some n =>
    if p.read.length < 8 then some (p.read.take n ++ List.replicate (8 - p.read.length) 0 ++ p.read.drop n)
    else none

/-- The pieces with those that `cs` holds. `fuel` bounds the number of pieces. -/
def readPieces : Nat → Pieces → List Char → Option (List Nat)
  | _, p, [] => p.all?
  | 0, _, _ :: _ => none
  | fuel + 1, p, c :: cs =>
    if p.read.length = 8 then none
    else if c = ':' then
      if p.gap.isSome then none else readPieces fuel { p with gap := some p.read.length } cs
    else
      let run := (c :: cs).take 4 |>.takeWhile fun d => (Text.hexDigit? d).isSome
      let next : Option Pieces := (Text.numeral Text.hexDigit? 16 0 run).map fun n => { p with read := p.read ++ [n] }
      match (c :: cs).drop run.length with
      | [] => next.bind (·.all?)
      | '.' :: _ =>
        if run.isEmpty then none
        else (fourBytes? (c :: cs)).bind fun two => { p with read := p.read ++ two }.all?
      | ':' :: rest => if rest.isEmpty then none else next.bind fun p => readPieces fuel p rest
      | _ => none

/-- The pieces of an address of eight, without its brackets. -/
def ipv6? (cs : List Char) : Option (List Nat) :=
  match cs with
  | ':' :: ':' :: rest => readPieces (rest.length + 1) { gap := some 0 } rest
  | ':' :: _ | [] => none
  | _ => readPieces (cs.length + 1) {} cs

/-- The length of the run of zeros in front. -/
def zeros (pieces : List Nat) : Nat := (pieces.takeWhile (· == 0)).length

/-- The place and the length of the first longest run of zeros from the place `i` on. -/
def longestZeros : Nat → List Nat → Nat × Nat
  | _, [] => (0, 0)
  | i, p :: ps =>
    let (place, length) := longestZeros (i + 1) ps
    if length ≤ zeros (p :: ps) then (i, zeros (p :: ps)) else (place, length)

/-- The pieces of an address in hexadecimal. A run of two or more zeros is left out, the longest one. -/
def ipv6Text (pieces : List Nat) : String :=
  let piece (n : Nat) : String := String.ofList (Nat.toDigits 16 n)
  let (place, length) := longestZeros 0 pieces
  if length < 2 then ":".intercalate (pieces.map piece)
  else ":".intercalate ((pieces.take place).map piece) ++ "::" ++
    ":".intercalate ((pieces.drop (place + length)).map piece)

end Lifecycle.Url
