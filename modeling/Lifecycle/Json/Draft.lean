import Lifecycle.Json.Fault
import Lifecycle.Text.Integer

/-!
A JSON text as far as it can be read. A draft keeps the values that were read before a fault, with
what remained of the text at each of them, so that whoever reads it as something typed meets the
first fault of the text, of its form or of its content, in the order of the text. Who skips a value
asks only for its form.
-/

namespace Lifecycle.Json

/-- What remained of the text at some place of it; `none` for a value that comes from no text. -/
abbrev Mark := Option (List Char)

/-- How a container ends: the mark of its closing bracket, or the fault that stopped its reading. -/
abbrev Ending := Except Fault Mark

/-- What a value that is not well formed stops: the fault met by who reads it, and the one met by who
skips it. -/
structure Flaw where
  read : Fault
  skipped : Fault

/-- A flaw that is the same fault to everybody. -/
def Flaw.plain (f : Fault) : Flaw := ⟨f, f⟩

/-- A value as far as it can be read. A number or a text may be well formed and yet have no value. -/
inductive Draft where
  | null (rest : Mark)
  | bool (b : Bool) (rest : Mark)
  | num (n : Except Fault Num) (rest : Mark)
  | str (s : Except Fault String) (rest : Mark)
  | arr (before : Mark) (items : List Draft) (ending : Ending)
  | obj (before : Mark) (members : List (Except Fault String × Draft)) (ending : Ending)
  | broken (before : Mark) (flaw : Flaw)

/-- The members of an object with their names, as far as they can be read. -/
abbrev DraftMembers := List (Except Fault String × Draft)

/-! ### Characters -/

/-- The text without the blanks in front. -/
def skipBlanks : List Char → List Char
  | c :: cs => if c = ' ' ∨ c = '\n' ∨ c = '\t' ∨ c = '\r' then skipBlanks cs else c :: cs
  | [] => []

/-- A fault behind the characters read. -/
def fault (kind : Fault.Kind) (rest : List Char) : Fault := ⟨kind, some rest, 0⟩

/-- A fault at the next character, of which one byte is read. -/
def faultAhead (kind : Fault.Kind) (rest : List Char) : Fault := ⟨kind, some rest, 1⟩

/-- The rest of a word such as `null` whose first letter is read. -/
def readWord : List Char → List Char → Except Fault (List Char)
  | [], rest => .ok rest
  | _ :: _, [] => .error (fault .endInValue [])
  | w :: ws, c :: cs => if c = w then readWord ws cs else .error (faultAhead .badWord (c :: cs))

/-! ### Numbers -/

/-- The largest significand that is kept exactly. -/
abbrev significandBound : Nat := Text.nat64Bound

/-- Digits appended to a significand as long as it stays below `significandBound`. -/
def readSignificand : Nat → List Char → Nat × List Char
  | n, c :: cs => match Text.digit? c with
    | some d => if n * 10 + d < significandBound then readSignificand (n * 10 + d) cs else (n, c :: cs)
    | none => (n, c :: cs)
  | n, [] => (n, [])

/-- The number of digits in front, and what follows them. -/
def skipDigits : List Char → Nat × List Char
  | c :: cs => match Text.digit? c with
    | some _ => let (n, rest) := skipDigits cs; (n + 1, rest)
    | none => (0, c :: cs)
  | [] => (0, [])

/-- A number and what follows it. -/
abbrev NumberReading := Except Fault (Except Fault Num × List Char)

/-- The number `significand * 10 ^ exponent`, read up to `rest`. -/
def decimalNumber (negative : Bool) (significand : Nat) (exponent : Int) (rest : List Char) : NumberReading :=
  .ok (match Decimal.Double.ofDecimal negative significand exponent with
    | some d => .ok (.double d)
    | none => .error (fault .numberOutOfRange rest), rest)

/-- The largest exponent that is told from a larger one. -/
abbrev exponentBound : Nat := 2147483648

/-- The digits of an exponent, of which `e` is read; `none` beyond `exponentBound`, with what follows
the digit that went beyond it. -/
def readExponentDigits : Nat → List Char → Except (List Char) (Nat × List Char)
  | e, c :: cs => match Text.digit? c with
    | some d => if e * 10 + d < exponentBound then readExponentDigits (e * 10 + d) cs else .error cs
    | none => .ok (e, c :: cs)
  | e, [] => .ok (e, [])

/-- What follows the letter of an exponent. -/
def readExponent (negative : Bool) (significand : Nat) (start : Int) (cs : List Char) : NumberReading :=
  let (up, cs) := match cs with
    | '+' :: r => (true, r)
    | '-' :: r => (false, r)
    | r => (true, r)
  match cs with
  | [] => .error (fault .endInValue [])
  | c :: r => match Text.digit? c with
    | none => .error (faultAhead .badNumber (c :: r))
    | some d => match readExponentDigits d r with
      | .ok (e, rest) => decimalNumber negative significand (if up then start + e else start - e) rest
      | .error stop =>
        .ok (if significand ≠ 0 ∧ up then .error (fault .numberOutOfRange stop)
          else .ok (.double (.zero negative)), (skipDigits stop).2)

/-- What follows the digits of the fraction. -/
def readAfterFraction (negative : Bool) (significand : Nat) (exponent : Int) (cs : List Char) : NumberReading :=
  match cs with
  | c :: r => if c = 'e' ∨ c = 'E' then readExponent negative significand exponent r
    else decimalNumber negative significand exponent (c :: r)
  | [] => decimalNumber negative significand exponent []

/-- What follows the point. -/
def readFraction (negative : Bool) (significand : Nat) (exponent : Int) (cs : List Char) : NumberReading :=
  match cs with
  | [] => .error (faultAhead .endInValue [])
  | c :: r =>
    if (Text.digit? c).isNone then .error (faultAhead .badNumber (c :: r))
    else
      let (n, after) := readSignificand significand (c :: r)
      readAfterFraction negative n (exponent - ((c :: r).length - after.length)) (skipDigits after).2

/-- What follows the digits of the whole part, of which `dropped` are not in the significand. -/
def readAfterWhole (negative : Bool) (significand dropped : Nat) (cs : List Char) : NumberReading :=
  let whole : NumberReading :=
    if dropped ≠ 0 then decimalNumber negative significand dropped cs
    else if !negative then .ok (.ok (.int significand), cs)
    else if significand = 0 ∨ Text.int64Bound < significand then decimalNumber true significand 0 cs
    else .ok (.ok (.int (-significand)), cs)
  match cs with
  | c :: r =>
    if c = '.' then readFraction negative significand dropped r
    else if c = 'e' ∨ c = 'E' then readExponent negative significand dropped r
    else whole
  | [] => whole

/-- A number whose sign is read. -/
def readNumber (negative : Bool) (cs : List Char) : NumberReading :=
  match cs with
  | [] => .error (fault .endInValue [])
  | c :: r => match Text.digit? c with
    | none => .error (faultAhead .badNumber (c :: r))
    | some 0 => match r with
      | d :: _ => if (Text.digit? d).isSome then .error (faultAhead .badNumber r) else readAfterWhole negative 0 0 r
      | [] => readAfterWhole negative 0 0 r
    | some _ =>
      let (n, after) := readSignificand 0 (c :: r)
      let (dropped, rest) := skipDigits after
      readAfterWhole negative n dropped rest

/-- The flaw of a number: who skips it takes the end of the text for a character that no number has. -/
def Flaw.ofNumber (f : Fault) : Flaw := ⟨f, if f.kind = .endInValue then { f with kind := .badNumber } else f⟩

/-! ### Texts -/

/-- Four hexadecimal digits and what follows them; other characters count by their bytes. -/
def readHex (cs : List Char) : Except Fault (Nat × List Char) :=
  match cs with
  | a :: b :: c :: d :: rest =>
    match Text.numeral Text.hexDigit? 16 0 [a, b, c, d] with
    | some n => .ok (n, rest)
    | none => .error ⟨.badEscape, some cs, 4⟩
  | _ => .error (if byteCount cs < 4 then fault .endInText [] else ⟨.badEscape, some cs, 4⟩)

/-- The character named by one letter after a backslash. -/
def namedEscape? (c : Char) : Option Char :=
  if c = '"' ∨ c = '\\' ∨ c = '/' then some c
  else if c = 'b' then some '\x08'
  else if c = 'f' then some '\x0c'
  else if c = 'n' then some '\n'
  else if c = 'r' then some '\r'
  else if c = 't' then some '\t'
  else none

/-- The character of a pair of surrogates. -/
def surrogatePair (high low : Nat) : Char := Char.ofNat ((high - 0xD800) * 0x400 + (low - 0xDC00) + 0x10000)

/-- What `\u` with the number `n` stands for: a character, or the fault of a surrogate that is not
one of a pair; and what follows. -/
def readUnit (n : Nat) (rest : List Char) : Except Fault (Except Fault Char × List Char) :=
  if 0xDC00 ≤ n ∧ n ≤ 0xDFFF then .ok (.error (fault .loneSurrogate rest), rest)
  else if n < 0xD800 ∨ 0xDBFF < n then .ok (.ok (Char.ofNat n), rest)
  else match rest with
    | [] => .error (fault .endInText [])
    | '\\' :: 'u' :: r => (readHex r).map fun (low, after) =>
      if 0xDC00 ≤ low ∧ low ≤ 0xDFFF then (.ok (surrogatePair n low), after)
      else (.error (fault .loneSurrogate after), after)
    | '\\' :: [] => .error (fault .endInText [])
    | '\\' :: c :: r => .ok (.error (faultAhead .shortEscape (c :: r)), '\\' :: c :: r)
    | c :: r => .ok (.error (faultAhead .shortEscape (c :: r)), c :: r)

/-- The flaw of a text that breaks off at `f`: who reads it stops at an earlier fault of its value. -/
def Flaw.ofText (value : Except Fault (List Char)) (f : Fault) : Flaw :=
  ⟨match value with | .error earlier => earlier | .ok _ => f, f⟩

/-- The characters of a text up to its closing quote, and what follows it. `fuel` bounds the number
of characters and escapes. -/
def readText : Nat → Except Fault (List Char) → List Char → Except Flaw (Except Fault String × List Char)
  | _, value, [] => .error (.ofText value (fault .endInText []))
  | 0, value, _ :: _ => .error (.ofText value (fault .endInText []))
  | fuel + 1, value, c :: cs =>
    if c = '"' then .ok (value.map fun acc => String.ofList acc.reverse, cs)
    else if c = '\\' then
      match cs with
      | [] => .error (.ofText value (fault .endInText []))
      | e :: r =>
        if e = 'u' then
          match (readHex r).bind fun (n, after) => readUnit n after with
          | .error f => .error (.ofText value f)
          | .ok (unit, after) => readText fuel (value.bind fun acc => unit.map (· :: acc)) after
        else match namedEscape? e with
          | some d => readText fuel (value.map (d :: ·)) r
          | none => .error (.ofText value (faultAhead .badEscape (e :: r)))
    else if c.toNat < 0x20 then .error (.ofText value (fault .controlCharacter cs))
    else readText fuel (value.map (c :: ·)) cs

/-- A text whose opening quote is read. -/
def readString (cs : List Char) : Except Flaw (Except Fault String × List Char) :=
  readText (cs.length + 1) (.ok []) cs

/-! ### Values -/

/-- A draft in front of `before` that ends at a flaw, with its fault as what follows it. -/
def Draft.stop (before : List Char) (flaw : Flaw) : Draft × Except Fault (List Char) :=
  (.broken (some before) flaw, .error flaw.read)

/-- A draft of a value that was read, with what follows it. -/
def Draft.finish {α : Type} (before : List Char) (make : α → Mark → Draft) :
    Except Flaw (α × List Char) → Draft × Except Fault (List Char)
  | .ok (a, rest) => (make a (some rest), .ok rest)
  | .error flaw => Draft.stop before flaw

mutual

/-- The draft of the value in front, and what follows it or the fault that stopped the reading.
`fuel` bounds the number of values and of brackets. -/
def readValue : Nat → List Char → Draft × Except Fault (List Char)
  | 0, cs => Draft.stop cs (.plain (fault .tooDeep cs))
  | fuel + 1, cs =>
    match skipBlanks cs with
    | [] => Draft.stop [] (.plain (faultAhead .endInValue []))
    | c :: r =>
      let word (letters : List Char) : Except Flaw (Unit × List Char) :=
        ((readWord letters r).mapError .plain).map ((), ·)
      if c = 'n' then Draft.finish (c :: r) (fun _ => .null) (word ['u', 'l', 'l'])
      else if c = 't' then Draft.finish (c :: r) (fun _ => .bool true) (word ['r', 'u', 'e'])
      else if c = 'f' then Draft.finish (c :: r) (fun _ => .bool false) (word ['a', 'l', 's', 'e'])
      else if c = '-' then Draft.finish (c :: r) .num ((readNumber true r).mapError .ofNumber)
      else if (Text.digit? c).isSome then Draft.finish (c :: r) .num ((readNumber false (c :: r)).mapError .ofNumber)
      else if c = '"' then Draft.finish (c :: r) .str (readString r)
      else if c = '[' then
        let (items, ending, next) := readItems fuel true r
        (.arr (some (c :: r)) items ending, next)
      else if c = '{' then
        let (members, ending, next) := readMembers fuel true r
        (.obj (some (c :: r)) members ending, next)
      else Draft.stop (c :: r) (.plain (faultAhead .noValue (c :: r)))

/-- The items of a list whose opening bracket or, unless `first`, whose last item is read. -/
def readItems : Nat → Bool → List Char → List Draft × Ending × Except Fault (List Char)
  | 0, _, cs => ([], .error (fault .tooDeep cs), .error (fault .tooDeep cs))
  | fuel + 1, first, cs =>
    let stop (f : Fault) : List Draft × Ending × Except Fault (List Char) := ([], .error f, .error f)
    let item (cs : List Char) : List Draft × Ending × Except Fault (List Char) :=
      match readValue fuel cs with
      | (d, .error f) => ([d], .error f, .error f)
      | (d, .ok r) => let (ds, ending, next) := readItems fuel false r; (d :: ds, ending, next)
    match skipBlanks cs with
    | [] => stop (faultAhead .endInList [])
    | c :: r =>
      if c = ']' then ([], .ok (some (c :: r)), .ok r)
      else if first then item (c :: r)
      else if c = ',' then
        match skipBlanks r with
        | [] => stop (faultAhead .endInValue [])
        | d :: r' => if d = ']' then stop (faultAhead .trailingComma (d :: r')) else item (d :: r')
      else stop (faultAhead .noCommaInList (c :: r))

/-- The members of an object whose opening bracket or, unless `first`, whose last member is read. -/
def readMembers : Nat → Bool → List Char → DraftMembers × Ending × Except Fault (List Char)
  | 0, _, cs => ([], .error (fault .tooDeep cs), .error (fault .tooDeep cs))
  | fuel + 1, first, cs =>
    let stop (f : Fault) : DraftMembers × Ending × Except Fault (List Char) := ([], .error f, .error f)
    let broken (name : Except Fault String) (flaw : Flaw) : DraftMembers × Ending × Except Fault (List Char) :=
      ([(name, .broken none flaw)], .error flaw.read, .error flaw.read)
    let member (cs : List Char) : DraftMembers × Ending × Except Fault (List Char) :=
      match readString cs with
      | .error flaw => broken (.error flaw.read) flaw
      | .ok (name, after) => match skipBlanks after with
        | [] => broken name (.plain (faultAhead .endInObject []))
        | c :: r =>
          if c = ':' then
            match readValue fuel r with
            | (d, .error f) => ([(name, d)], .error f, .error f)
            | (d, .ok r) => let (ms, ending, next) := readMembers fuel false r; ((name, d) :: ms, ending, next)
          else broken name (.plain (faultAhead .noColon (c :: r)))
    let key (cs : List Char) : DraftMembers × Ending × Except Fault (List Char) :=
      match cs with
      | [] => stop (faultAhead .endInValue [])
      | c :: r => if c = '"' then member r
        else if c = '}' then stop (faultAhead .trailingComma (c :: r))
        else stop (faultAhead .keyNotText (c :: r))
    match skipBlanks cs with
    | [] => stop (faultAhead .endInObject [])
    | c :: r =>
      if c = '}' then ([], .ok (some (c :: r)), .ok r)
      else if first then key (c :: r)
      else if c = ',' then key (skipBlanks r)
      else stop (faultAhead .noCommaInObject (c :: r))

end

/-- The draft of a text, and what follows its value or the fault that stopped the reading. -/
def Draft.ofChars (cs : List Char) : Draft × Except Fault (List Char) := readValue (2 * cs.length + 2) cs

/-- The draft of a text, and what follows its value or the fault that stopped the reading. -/
def Draft.ofText (text : String) : Draft × Except Fault (List Char) := Draft.ofChars text.toList

/-! ### Drafts of values -/

mutual

/-- The draft of a value that comes from no text. -/
def Draft.ofJson : Json → Draft
  | .null => .null none
  | .bool b => .bool b none
  | .num n => .num (.ok n) none
  | .str s => .str (.ok s) none
  | .arr items => .arr none (Draft.ofItems items) (.ok none)
  | .obj members => .obj none (Draft.ofMembers members) (.ok none)

def Draft.ofItems : List Json → List Draft
  | [] => []
  | j :: rest => Draft.ofJson j :: Draft.ofItems rest

def Draft.ofMembers : List (String × Json) → DraftMembers
  | [] => []
  | (k, j) :: rest => (.ok k, Draft.ofJson j) :: Draft.ofMembers rest

end

/-- How deep a reading may still go: `none` without a bound, as for values that come from no text. -/
abbrev Levels := Option Nat

/-- The number of levels of containers that a text may have. -/
def textLevels : Levels := some 127

/-- One level deeper, unless the bound is reached. -/
def Levels.enter (levels : Levels) (before : Mark) : Except Fault Levels :=
  match levels with
  | none => .ok none
  | some (n + 1) => .ok (some n)
  | some 0 => .error ⟨.tooDeep, before, 1⟩

mutual

/-- The value of a draft, or its first fault. Of members of one name the last counts. -/
def Draft.json (levels : Levels) : Draft → Except Fault Json
  | .null _ => .ok .null
  | .bool b _ => .ok (.bool b)
  | .num n _ => n.map .num
  | .str s _ => s.map .str
  | .arr before items ending => do
    let inner ← levels.enter before
    let values ← Draft.jsonItems inner items
    let _ ← ending
    return .arr values
  | .obj before members ending => do
    let inner ← levels.enter before
    let values ← Draft.jsonMembers inner members
    let _ ← ending
    return .object values
  | .broken _ flaw => .error flaw.read

def Draft.jsonItems (levels : Levels) : List Draft → Except Fault (List Json)
  | [] => .ok []
  | d :: rest => do
    let j ← Draft.json levels d
    return j :: (← Draft.jsonItems levels rest)

def Draft.jsonMembers (levels : Levels) : DraftMembers → Except Fault (List (String × Json))
  | [] => .ok []
  | (name, d) :: rest => do
    let k ← name
    let j ← Draft.json levels d
    return (k, j) :: (← Draft.jsonMembers levels rest)

end

/-- The fault of what follows the value of a text: anything but blanks. -/
def checkEnd (rest : List Char) : Except Fault Unit :=
  match skipBlanks rest with
  | [] => .ok ()
  | c :: r => .error (faultAhead .trailing (c :: r))

/-- The value that a text holds, with containers up to `levels` deep. -/
def parseWithin (levels : Levels) (text : String) : Except Fault Json := do
  let (draft, next) := Draft.ofText text
  let value ← draft.json levels
  checkEnd (← next)
  return value

/-- The value that a text holds. -/
def parse (text : String) : Except Fault Json := parseWithin textLevels text

end Lifecycle.Json
