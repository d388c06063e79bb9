import Lifecycle.Decimal.Shortest
import Lifecycle.Json.Basic

/-!
The compact text of a JSON value: no white space, members in their order, control characters
escaped and all other characters as they are.
-/

namespace Lifecycle.Json

open Decimal (Layout)

/-- Numbers have their shortest digits, `.0` when they are whole, and an exponent from `1e16` up
and below `1e-5`. -/
def numberLayout : Layout := ⟨-5, 16, ".0", "e", true⟩

/-- A hexadecimal digit. -/
def hexChar (n : Nat) : Char := if n < 10 then Char.ofNat (n + 48) else Char.ofNat (n + 87)

/-- The written form of one character of a text. -/
def escape (c : Char) : List Char :=
  if c = '"' then ['\\', '"']
  else if c = '\\' then ['\\', '\\']
  else if c = '\n' then ['\\', 'n']
  else if c = '\r' then ['\\', 'r']
  else if c = '\t' then ['\\', 't']
  else if c = '\x08' then ['\\', 'b']
  else if c = '\x0c' then ['\\', 'f']
  else if c.toNat < 0x20 then ['\\', 'u', '0', '0', hexChar (c.toNat / 16), hexChar (c.toNat % 16)]
  else [c]

/-- A text between quotes. -/
def quote (s : String) : List Char := '"' :: s.toList.flatMap escape ++ ['"']

/-- The text of a number. -/
def Num.print : Num → String
  | .int n => toString n
  | .double d => numberLayout.double d

mutual

/-- The compact text of a value, in front of `rest`. -/
def printOnto : Json → List Char → List Char
  | .null, rest => 'n' :: 'u' :: 'l' :: 'l' :: rest
  | .bool true, rest => 't' :: 'r' :: 'u' :: 'e' :: rest
  | .bool false, rest => 'f' :: 'a' :: 'l' :: 's' :: 'e' :: rest
  | .num n, rest => n.print.toList ++ rest
  | .str s, rest => quote s ++ rest
  | .arr items, rest => '[' :: printItems items (']' :: rest)
  | .obj members, rest => '{' :: printMembers members ('}' :: rest)

def printItems : List Json → List Char → List Char
  | [], rest => rest
  | [j], rest => printOnto j rest
  | j :: k :: more, rest => printOnto j (',' :: printItems (k :: more) rest)

def printMembers : List (String × Json) → List Char → List Char
  | [], rest => rest
  | [(k, j)], rest => quote k ++ ':' :: printOnto j rest
  | (k, j) :: m :: more, rest => quote k ++ ':' :: printOnto j (',' :: printMembers (m :: more) rest)

end

/-- The compact text of a value. -/
def print (j : Json) : String := String.ofList (j.printOnto [])

end Lifecycle.Json
