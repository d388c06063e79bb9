import Lifecycle.Text.Invisible

/-!
Texts quoted for a message: between double quotes, with the characters that are not seen named by
their number.
-/

namespace Lifecycle.Text

/-- The digits of `n` in lower-case hexadecimal. -/
def hexadecimal (n : Nat) : List Char := Nat.toDigits 16 n

/-- A character in a quoted text. -/
def quotedChar (c : Char) : List Char :=
  let n := c.toNat
  if n = 0 then ['\\', '0']
  else if c = '\t' then ['\\', 't']
  else if c = '\r' then ['\\', 'r']
  else if c = '\n' then ['\\', 'n']
  else if c = '"' then ['\\', '"']
  else if c = '\\' then ['\\', '\\']
  else if isInvisible c then ['\\', 'u', '{'] ++ hexadecimal n ++ ['}']
  else [c]

/-- A text between double quotes. -/
def quoted (s : String) : String := String.ofList ('"' :: s.toList.flatMap quotedChar ++ ['"'])

end Lifecycle.Text
