import Lifecycle.Text.Composite
import Lifecycle.Text.Mark

/-!
The composed form of texts, in which texts that look alike are the same: composites are taken apart,
the marks on a character put in the order of their classes, and what makes a composite put together.
A character that is only another spelling of a single one stands for itself here.
-/

namespace Lifecycle.Text

/-- The characters of which a composite is made. `fuel` bounds how often a part is taken apart. -/
def decompose : Nat → Char → List Char
  | 0, c => [c]
  | fuel + 1, c => match parts? c with
    | some (a, b) => decompose fuel a ++ [b]
    | none => [c]

/-- No composite has more than four parts. -/
abbrev deepest : Nat := 4

/-- A text, the last character first, with `c` behind it, but in front of marks of a greater class. -/
def place (c : Char) : List Char → List Char
  | [] => [c]
  | d :: ds =>
    if combiningClass c ≠ 0 ∧ combiningClass c < combiningClass d then d :: place c ds else c :: d :: ds

/-- The text with the marks on each character in order. -/
def arranged (cs : List Char) : List Char := (cs.foldl (fun done c => place c done) []).reverse

/-- The text with composites put together from `base` on, behind which the marks `marks` stand, the
last one first. A mark of no smaller class keeps what follows it from `base`. -/
def composeFrom (base : Char) (marks : List Char) : List Char → List Char
  | [] => base :: marks.reverse
  | c :: cs =>
    let blocked := match marks with
      | [] => false
      | last :: _ => combiningClass c ≤ combiningClass last
    match if blocked then none else compose? base c with
    | some whole => composeFrom whole marks cs
    | none =>
      if combiningClass c = 0 then base :: marks.reverse ++ composeFrom c [] cs
      else composeFrom base (c :: marks) cs

/-- The text with composites put together. -/
def composeAll : List Char → List Char
  | [] => []
  | c :: cs => if combiningClass c = 0 then composeFrom c [] cs else c :: composeAll cs

/-- The composed form. -/
def composed (cs : List Char) : List Char := composeAll (arranged (cs.flatMap (decompose deepest)))

end Lifecycle.Text
