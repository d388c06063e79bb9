import Lifecycle.Http.Exchange

/-!
Media types, as requests name the type of their content: a type and a subtype with a slash between
them, then parameters behind semicolons. Case does not count.
-/

namespace Lifecycle.Http

/-- Where the reading of parameters stands; the flag tells whether a name or a value has begun. -/
inductive ParameterPlace where
  | name (begun : Bool)
  | value (begun : Bool)
  | quoted (begun : Bool)
  | closed
deriving DecidableEq, Repr

/-- May the parameters go on with `cs`? A quoted value holds at least one character. -/
def parametersAllowed : ParameterPlace → List Char → Bool
  | .name begun, [] => !begun
  | .value _, [] | .closed, [] => true
  | .quoted _, [] => false
  | .name false, c :: cs =>
    if c = ' ' then parametersAllowed (.name false) cs else nameChar c && parametersAllowed (.name true) cs
  | .name true, c :: cs =>
    if c = '=' then parametersAllowed (.value false) cs else nameChar c && parametersAllowed (.name true) cs
  | .value false, c :: cs =>
    if c = '"' then parametersAllowed (.quoted false) cs else nameChar c && parametersAllowed (.value true) cs
  | .value true, c :: cs =>
    if c = ';' then parametersAllowed (.name false) cs else nameChar c && parametersAllowed (.value true) cs
  | .quoted begun, c :: cs =>
    if c = '"' ∧ begun then parametersAllowed .closed cs
    else 32 ≤ c.toNat && c.toNat < 127 && parametersAllowed (.quoted true) cs
  | .closed, c :: cs =>
    if c = ';' then parametersAllowed (.name false) cs else c = ' ' && parametersAllowed .closed cs

/-- A media type without its parameters, in lower case. -/
structure MediaType where
  type : List Char
  subtype : List Char
deriving DecidableEq, Repr

namespace MediaType

/-- The media type that a text names. -/
def ofText? (s : String) : Option MediaType :=
  let type := s.toList.takeWhile nameChar
  match s.toList.drop type.length with
  | '/' :: rest =>
    let subtype := rest.takeWhile nameChar
    let named := MediaType.mk (type.map Char.toLower) (subtype.map Char.toLower)
    match rest.drop subtype.length with
    | [] => if type.isEmpty then none else some named
    | ';' :: parameters =>
      if type.isEmpty || subtype.isEmpty || !parametersAllowed (.name false) parameters then none else some named
    | _ => none
  | _ => none

/-- The subtype up to its last plus sign, and the suffix after it. -/
def split (t : MediaType) : List Char × Option (List Char) :=
  let suffix := (t.subtype.reverse.takeWhile (· ≠ '+')).reverse
  let front := t.subtype.take (t.subtype.length - suffix.length - 1)
  if suffix.length = t.subtype.length || front.isEmpty then (t.subtype, none) else (front, some suffix)

/-- JSON, or a format on top of it. -/
def isJson (t : MediaType) : Bool :=
  let (front, suffix) := t.split
  t.type == "application".toList && (front == "json".toList || suffix == some "json".toList)

end MediaType

/-- Does a request that names the type of its content so hold JSON? -/
def namesJson (contentType : String) : Bool := (MediaType.ofText? contentType).any (·.isJson)

end Lifecycle.Http
