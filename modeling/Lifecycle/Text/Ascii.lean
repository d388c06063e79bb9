/-!
Names whose case does not count: only the letters of ASCII have two cases.
-/

namespace Lifecycle.Text

/-- The text in lower case. -/
def lowerAscii (s : String) : String := String.ofList (s.toList.map Char.toLower)

/-- The same name in either case. -/
def sameName (a b : String) : Bool := lowerAscii a == lowerAscii b

end Lifecycle.Text
