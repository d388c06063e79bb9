import Lifecycle.Decimal.Shortest
import Lifecycle.Json.Printer
import Lifecycle.Text.Quoted

/-!
What can be wrong with a JSON text or with a value that is read as something else, the place of the
fault in the text, and its message.
-/

namespace Lifecycle.Json

/-- What was found where something else was expected. -/
inductive Found where
  | null
  | boolean (b : Bool)
  | number (n : Num)
  | text (s : String)
  | sequence
  | map
deriving DecidableEq, Repr

/-- A value that does not fit what it is read as. -/
inductive Misfit where
  | wrongType (found : Found) (expected : String)
  | wrongValue (found : Found) (expected : String)
  | wrongLength (length : Nat) (expected : String)
  | unknownVariant (name : String) (known : List String)
  | unknownField (name : String) (known : List String)
  | missingField (name : String)
  | duplicateField (name : String)
deriving DecidableEq, Repr

/-- The kinds of fault. -/
inductive Fault.Kind where
  | endInList | endInObject | endInText | endInValue
  | noColon | noCommaInList | noCommaInObject | badWord | noValue
  | badEscape | shortEscape | loneSurrogate | controlCharacter
  | badNumber | numberOutOfRange | keyNotText | trailingComma | trailing | tooDeep
  | misfit (m : Misfit)
deriving DecidableEq, Repr

/-- A fault and its place: what remained of the text, if it is a fault in a text. -/
structure Fault where
  kind : Fault.Kind
  rest : Option (List Char)
  ahead : Nat := 0  -- the number of bytes of the rest that are read with it
deriving DecidableEq, Repr

/-- The classes of fault. -/
inductive Fault.Class where
  | unfinished  -- the text ends too early
  | malformed   -- the text is no JSON text
  | unfit       -- the value is not of the expected form
deriving DecidableEq, Repr

def Fault.Kind.cls : Fault.Kind → Fault.Class
  | .endInList | .endInObject | .endInText | .endInValue => .unfinished
  | .misfit _ => .unfit
  | _ => .malformed

/-! ### Messages -/

def Found.describe : Found → String
  | .null => "null"
  | .boolean b => if b then "boolean `true`" else "boolean `false`"
  | .number (.int n) => "integer `" ++ toString n ++ "`"
  | .number (.double d) => "floating point `" ++ numberLayout.double d ++ "`"
  | .text s => "string " ++ Text.quoted s
  | .sequence => "sequence"
  | .map => "map"

/-- Names between back quotes, as alternatives. -/
def alternatives (names : List String) : String :=
  let ticked := names.map fun n => "`" ++ n ++ "`"
  match ticked with
  | [a] => a
  | [a, b] => a ++ " or " ++ b
  | _ => "one of " ++ ", ".intercalate ticked

def Misfit.describe : Misfit → String
  | .wrongType found expected => "invalid type: " ++ found.describe ++ ", expected " ++ expected
  | .wrongValue found expected => "invalid value: " ++ found.describe ++ ", expected " ++ expected
  | .wrongLength n expected => "invalid length " ++ toString n ++ ", expected " ++ expected
  | .unknownVariant name known => "unknown variant `" ++ name ++ "`, expected " ++ alternatives known
  | .unknownField name known => "unknown field `" ++ name ++ "`, expected " ++ alternatives known
  | .missingField name => "missing field `" ++ name ++ "`"
  | .duplicateField name => "duplicate field `" ++ name ++ "`"

def Fault.Kind.describe : Fault.Kind → String
  | .endInList => "EOF while parsing a list"
  | .endInObject => "EOF while parsing an object"
  | .endInText => "EOF while parsing a string"
  | .endInValue => "EOF while parsing a value"
  | .noColon => "expected `:`"
  | .noCommaInList => "expected `,` or `]`"
  | .noCommaInObject => "expected `,` or `\x7d`"
  | .badWord => "expected ident"
  | .noValue => "expected value"
  | .badEscape => "invalid escape"
  | .shortEscape => "unexpected end of hex escape"
  | .loneSurrogate => "lone leading surrogate in hex escape"
  | .controlCharacter => "control character (\\u0000-\\u001F) found while parsing a string"
  | .badNumber => "invalid number"
  | .numberOutOfRange => "number out of range"
  | .keyNotText => "key must be a string"
  | .trailingComma => "trailing comma"
  | .trailing => "trailing characters"
  | .tooDeep => "recursion limit exceeded"
  | .misfit m => m.describe

/-- Line and column after the first `bytes` bytes of a text that begins at the given place; the column
counts bytes. -/
def placeAfter : (bytes : Nat) → Nat × Nat → List Char → Nat × Nat
  | _, place, [] => place
  | bytes, (line, column), c :: cs =>
    if bytes ≤ c.utf8Size then
      if bytes = 0 then (line, column) else if c = '\n' then (line + 1, 0) else (line, column + bytes)
    else placeAfter (bytes - c.utf8Size) (if c = '\n' then (line + 1, 0) else (line, column + c.utf8Size)) cs

/-- The number of bytes of a text. -/
def byteCount (cs : List Char) : Nat := cs.foldl (· + ·.utf8Size) 0

/-- The place of a fault in the text in which it was found. -/
def Fault.place (f : Fault) (text : List Char) : Option (Nat × Nat) :=
  f.rest.map fun rest => placeAfter (byteCount text - byteCount rest + f.ahead) (1, 0) text

/-- The message of a fault, with its place in `text`. -/
def Fault.messageIn (f : Fault) (text : String) : String :=
  match f.place text.toList with
  | some (line, column) => f.kind.describe ++ " at line " ++ toString line ++ " column " ++ toString column
  | none => f.kind.describe

/-- The message of a fault of a value. -/
def Fault.message (f : Fault) : String := f.kind.describe

end Lifecycle.Json
