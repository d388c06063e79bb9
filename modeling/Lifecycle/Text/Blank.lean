/-!
White space of text: the characters of the Unicode property White_Space, trimming, and blank texts.
-/

namespace Lifecycle.Text

/-- White space: the 25 characters of the Unicode property White_Space. -/
def isSpace (c : Char) : Bool :=
  let n := c.toNat
  (9 ≤ n && n ≤ 13) || n == 0x20 || n == 0x85 || n == 0xA0 || n == 0x1680 ||
    (0x2000 ≤ n && n ≤ 0x200A) || n == 0x2028 || n == 0x2029 || n == 0x202F || n == 0x205F || n == 0x3000

/-- The characters without the white space at both ends. -/
def trimChars (cs : List Char) : List Char :=
  ((cs.dropWhile isSpace).reverse.dropWhile isSpace).reverse

/-- The text without the white space at both ends. -/
def trim (s : String) : String := String.ofList (trimChars s.toList)

/-- Nothing but white space. -/
def isBlank (s : String) : Bool := s.toList.all isSpace

/-- Core's white space is white space. -/
theorem isSpace_of_isWhitespace {c : Char} (h : c.isWhitespace = true) : isSpace c = true := by
  simp only [Char.isWhitespace, Bool.or_eq_true, decide_eq_true_eq] at h
  rcases h with ((rfl | rfl) | rfl) | rfl <;> decide

end Lifecycle.Text
