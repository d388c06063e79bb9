import Lifecycle.Text.Composed
import Lifecycle.Text.Direction
import Lifecycle.Text.Joining
import Lifecycle.Text.Percent
import Lifecycle.Url.LabelCode
import Lifecycle.Url.Mapping

/-!
Domains of any script in the letters of ASCII. The characters are mapped and composed, and every label
beyond ASCII is encoded behind a mark; a label that comes with the mark has to be such an encoding. The
labels obey the rules for marks, for joiners and for directions.
-/

namespace Lifecycle.Url

/-- The parts of a text between the separators `sep`; at least one. -/
def splitAt (sep : Char) : List Char → List (List Char)
  | [] => [[]]
  | c :: cs =>
    if c = sep then [] :: splitAt sep cs
    else match splitAt sep cs with
      | part :: more => (c :: part) :: more
      | [] => [[c]]

namespace Domain

/-- What no label has: control characters, the blank, the separators of addresses and capital letters. -/
def forbidden (c : Char) : Bool :=
  c.toNat ≤ 0x20 || c.toNat == 0x7F || "%#./:<>?@[\\]^|".toList.contains c || ('A' ≤ c && c ≤ 'Z')

/-! ### Joiners -/

/-- The next letter that is not passed over joins in one of two ways. -/
def joins (a b : Text.Joining) (cs : List Char) : Bool :=
  match (cs.map Text.joining).filter (· ≠ .transparent) with
  | j :: _ => j == a || j == b
  | [] => false

/-- The joiners among `cs`, behind the characters `before`, the last one first: each stands behind a mark
that kills a vowel, or, as the one that separates, between letters that would join. -/
def joinersAllowed : List Char → List Char → Bool
  | _, [] => true
  | before, c :: cs =>
    (if c.toNat = 0x200C then before.head?.any Text.isVirama ||
        (joins .left .both before && joins .right .both cs)
      else if c.toNat = 0x200D then before.head?.any Text.isVirama
      else true) && joinersAllowed (c :: before) cs

/-! ### Directions -/

open Text (Direction)

/-- The directions that make a domain one of both directions. -/
def turning : List Direction := [.rightToLeft, .arabicLetter, .arabicNumber]

/-- A label of a domain of both directions: it begins with a letter, ends with a letter or a number, and
what is between them goes with its direction. Numbers in it are of one kind. -/
def directionsAllowed (label : List Char) : Bool :=
  match label.map Text.direction with
  | [] => true
  | first :: rest =>
    let body := (rest.reverse.dropWhile (· = .mark)).reverse
    let last := body.getLast?
    let within : List Direction := [.europeanNumber, .signBeforeNumber, .separatorInNumber, .signAroundNumber,
      .neutral, .boundary, .mark]
    if first = .leftToRight then
      last.all [.leftToRight, .europeanNumber].contains && body.dropLast.all (.leftToRight :: within).contains
    else if first = .rightToLeft ∨ first = .arabicLetter then
      last.all [.rightToLeft, .arabicLetter, .europeanNumber, .arabicNumber].contains &&
        body.dropLast.all (turning ++ within).contains &&
        !(body.contains .europeanNumber && body.contains .arabicNumber)
    else false

/-! ### Labels -/

/-- The mark of an encoded label. -/
def encodedMark : List Char := ['x', 'n', '-', '-']

/-- The most characters that are encoded, and the most that are decoded. -/
abbrev encodeLimit : Nat := 1000
abbrev decodeLimit : Nat := 2000

/-- A label, as it is read and as it is written. -/
structure Label where
  read : List Char
  written : List Char

/-- What an encoded label, without its mark, stands for: characters that stand for themselves, and are
composed. -/
def decoded? (cs : List Char) : Option (List Char) :=
  if decodeLimit < cs.length ∨ cs.getLast?.all (· = '-') then none
  else (LabelCode.decode? cs).filter fun label => label.all Mapping.isPlain && Text.composed label == label

/-- The label of a mapped and composed text. -/
def label? (cs : List Char) : Option Label := do
  let label : Label ← if encodedMark.isPrefixOf cs then
      (decoded? (cs.drop encodedMark.length)).map (⟨·, cs⟩)
    else if cs.all LabelCode.isAscii then some ⟨cs, cs⟩
    else some ⟨cs, encodedMark ++ LabelCode.encode cs⟩
  let ascii := label.read.all LabelCode.isAscii
  if label.read.any forbidden || label.read.head?.any Text.isMark || !joinersAllowed [] label.read ||
      (!ascii && encodeLimit < label.read.length) then none
  else return label

/-! ### Domains -/

/-- The domain that a text stands for, in ASCII. -/
def ofChars? (cs : List Char) : Option (List Char) := do
  let mapped ← cs.mapM Mapping.mapped?
  let labels ← (splitAt '.' (Text.composed mapped.flatten)).mapM label?
  if (labels.any fun l => l.read.any fun c => turning.contains (Text.direction c)) &&
      !labels.all (directionsAllowed ·.read) then none
  else return ['.'].intercalate (labels.map (·.written))

/-- The domain that a percent-encoded text stands for. -/
def ofText? (cs : List Char) : Option (List Char) := do
  let text ← Text.percentDecoded? (String.ofList cs)
  ofChars? text.toList

end Domain

end Lifecycle.Url
