import Lifecycle.Text.Integer

/-!
Bytes written as a percent sign and two hexadecimal digits.
-/

namespace Lifecycle.Text

/-- The value of a byte as a hexadecimal digit. -/
def hexByte? (b : UInt8) : Option Nat := hexDigit? (Char.ofNat b.toNat)

/-- The bytes with every percent sign and two hexadecimal digits replaced by the byte they name. -/
def unescapeBytes : List UInt8 → List UInt8
  | [] => []
  | b :: rest =>
    match rest with
    | h :: l :: more =>
      if b = 0x25 then match hexByte? h, hexByte? l with
        | some x, some y => UInt8.ofNat (x * 16 + y) :: unescapeBytes more
        | _, _ => b :: unescapeBytes (h :: l :: more)
      else b :: unescapeBytes (h :: l :: more)
    | short => b :: short

/-- The text that a percent-encoded one stands for; `none` if its bytes are no text. -/
def percentDecoded? (s : String) : Option String :=
  String.fromUTF8? ⟨(unescapeBytes s.toUTF8.toList).toArray⟩

/-- The hexadecimal digit of a value below 16, in upper case. -/
def upperHex (d : Nat) : Char := Char.ofNat (if d < 10 then d + '0'.toNat else d - 10 + 'A'.toNat)

/-- A byte as a percent sign and two digits. -/
def percentByte (b : UInt8) : List Char := ['%', upperHex (b.toNat / 16), upperHex (b.toNat % 16)]

/-- A control character, or one beyond ASCII. -/
def beyondPrintable (c : Char) : Bool := c.toNat < 0x20 || 0x7F ≤ c.toNat

/-- The text with every character of `reserved`, and every one beyond the printable ones of ASCII, written
as its bytes. -/
def percentEncoded (reserved : String) (cs : List Char) : List Char :=
  cs.flatMap fun c =>
    if beyondPrintable c || reserved.toList.contains c then c.toString.toUTF8.toList.flatMap percentByte else [c]

end Lifecycle.Text
