import Lifecycle.Url.Basic

/-!
Reading addresses. Nothing is looked up elsewhere, so a text without a scheme is no address.
-/

namespace Lifecycle.Url

/-! ### Schemes -/

/-- The kinds of scheme, by how they treat what follows them. -/
inductive Scheme where
  | ordinary  -- always with a host
  | file      -- with a host or without one
  | other     -- with a host after two slashes
deriving DecidableEq, Repr

/-- The usual ports of the ordinary schemes. -/
def ordinaryPorts : List (String × Nat) := [("http", 80), ("https", 443), ("ws", 80), ("wss", 443), ("ftp", 21)]

def Scheme.ofName (name : String) : Scheme :=
  if name = "file" then .file else if (ordinaryPorts.lookup name).isSome then .ordinary else .other

/-- A backslash counts as a slash. -/
def Scheme.folds : Scheme → Bool
  | .other => false
  | _ => true

def isLetter (c : Char) : Bool := ('a' ≤ c && c ≤ 'z') || ('A' ≤ c && c ≤ 'Z')

/-- The scheme in lower case, and what follows its colon. -/
def scheme? (cs : List Char) : Option (String × List Char) :=
  let name := cs.takeWhile fun c => isLetter c || (Text.digit? c).isSome || c = '+' || c = '-' || c = '.'
  match cs, cs.drop name.length with
  | c :: _, ':' :: rest => if isLetter c then some (String.ofList (name.map Char.toLower), rest) else none
  | _, _ => none

/-! ### What may stand as it is -/

/-- The characters that are written as bytes in a fragment, a query, a path, and in a user or password. -/
def fragmentReserved : String := " \"<>\x60"
def queryReserved : String := " \"#<>"
def pathReserved : String := " \"<>\x60#?\x7b\x7d"
def userReserved : String := pathReserved ++ "/:;=@[\\]^|"

/-- A part of an address as it is written. -/
def written (reserved : String) (cs : List Char) : String := String.ofList (Text.percentEncoded reserved cs)

/-! ### Hosts -/

/-- A slash, or what counts as one. -/
def isSlash (s : Scheme) (c : Char) : Bool := c = '/' || (s.folds && c = '\\')

/-- The end of the part with user, host and port. -/
def endsAuthority (s : Scheme) (c : Char) : Bool := isSlash s c || c = '?' || c = '#'

/-- The user, the password, and what follows them; or the fault of a user without a host. -/
def splitUser (s : Scheme) (cs : List Char) : Except Fault (String × Option String × List Char) :=
  let authority := cs.takeWhile (!endsAuthority s ·)
  if !authority.contains '@' then .ok ("", none, cs)
  else
    let host := (authority.reverse.takeWhile (· ≠ '@')).reverse
    let front := authority.take (authority.length - host.length - 1)
    let rest := cs.drop (front.length + 1)
    if front.isEmpty && rest.head?.any (endsAuthority s) then .error .emptyHost
    else
      let user := front.takeWhile (· ≠ ':')
      let password := front.drop (user.length + 1)
      .ok (written userReserved user, if password.isEmpty then none else some (written userReserved password), rest)

/-- The host and what follows it; a colon in brackets belongs to the host. -/
def hostAndRest (s : Scheme) : Bool → List Char → List Char × List Char
  | _, [] => ([], [])
  | inside, c :: cs =>
    if endsAuthority s c || (c = ':' && !inside) then ([], c :: cs)
    else
      let (host, rest) := hostAndRest s (if c = '[' then true else if c = ']' then false else inside) cs
      (c :: host, rest)

/-- The number of a port of which `n` is read, up to 65535, and what follows it. -/
def readPort : Option Nat → List Char → Except Fault (Option Nat × List Char)
  | n, [] => .ok (n, [])
  | n, c :: cs => match Text.digit? c with
    | some d =>
      let port := n.getD 0 * 10 + d
      if port ≤ 65535 then readPort (some port) cs else .error .port
    | none => if c = '/' ∨ c = '\\' ∨ c = '?' ∨ c = '#' then .ok (n, c :: cs) else .error .port

/-- What follows a host: the port, if there is a colon. -/
def portAndRest : List Char → Except Fault (Option Nat × List Char)
  | ':' :: cs => readPort none cs
  | cs => .ok (none, cs)

/-! ### Paths -/

/-- A drive letter, which is no host and which no double point removes. -/
def isDrive : List Char → Bool
  | [c, d] => isLetter c && (d = ':' || d = '|')
  | _ => false

/-- The pieces of a path between its slashes; at least one. -/
def pieces (s : Scheme) : List Char → List (List Char)
  | [] => [[]]
  | c :: cs =>
    if isSlash s c then [] :: pieces s cs
    else match pieces s cs with
      | piece :: more => (c :: piece) :: more
      | [] => [[c]]

/-- The number of points that a piece stands for; `none` for any other piece. -/
def points? : List Char → Option Nat
  | [] => some 0
  | '.' :: cs | '%' :: '2' :: 'e' :: cs | '%' :: '2' :: 'E' :: cs => (points? cs).map (· + 1)
  | _ => none

/-- The segments without the last one, unless it is a drive letter. -/
def withoutLast (names : List String) : List String :=
  if names.getLast?.any (isDrive ·.toList) then names else names.dropLast

/-- The segment of a piece behind the segments `names`; a drive letter that begins the path of a file has
a colon. -/
def segment (s : Scheme) (names : List String) (piece : List Char) : String :=
  if s = .file ∧ names.isEmpty ∧ isDrive piece then String.ofList (piece.take 1 ++ [':'])
  else written pathReserved piece

/-- The segments `names` with those of the pieces. One point stands for the segment itself, two for the
one above; at the end of a path both leave an empty one. -/
def addPieces (s : Scheme) : List String → List (List Char) → List String
  | names, [] => names
  | names, piece :: rest =>
    let ending := if rest.isEmpty then [""] else []
    match points? piece with
    | some 1 => addPieces s (names ++ ending) rest
    | some 2 => addPieces s (withoutLast names ++ ending) rest
    | _ => addPieces s (names ++ [segment s names piece]) rest

/-- The segments of a path, with or without its first slash. -/
def readSegments (s : Scheme) (cs : List Char) : List String :=
  match cs with
  | c :: rest => if isSlash s c then addPieces s [] (pieces s rest) else addPieces s [] (pieces s cs)
  | [] => addPieces s [] [[]]

/-- The segments without empty ones in front. -/
def withoutEmpty : List String → List String
  | "" :: name :: names => withoutEmpty (name :: names)
  | names => names

/-! ### Whole addresses -/

/-- The characters in front of a query or a fragment, and those from there on. -/
def splitPath (cs : List Char) : List Char × List Char := cs.span fun c => c ≠ '?' ∧ c ≠ '#'

/-- The address with the query and the fragment that `cs` holds. -/
def withQuery (u : Url) (s : Scheme) (cs : List Char) : Url :=
  let query := cs.takeWhile (· ≠ '#')
  let reserved := if s = .other then queryReserved else queryReserved ++ "'"
  { u with
    query := if query.isEmpty then none else some (written reserved (query.drop 1))
    fragment := match cs.drop query.length with
      | [] => none
      | _ :: fragment => some (written fragmentReserved fragment) }

/-- What follows the two slashes. -/
def ofAuthority (name : String) (s : Scheme) (cs : List Char) : Except Fault Url := do
  let (user, password, cs) ← splitUser s cs
  let (host, rest) := hostAndRest s false cs
  if host.isEmpty && (s = .ordinary || rest.head? = some ':') then .error .emptyHost
  let host ← if s = .ordinary then Host.ofChars host else Host.ofOpaque host
  let (port, rest) ← portAndRest rest
  if host = .domain "" && (!user.isEmpty || password.isSome) then .error .emptyHost
  let (path, rest) := splitPath rest
  let names := if s = .other && path.isEmpty then [] else readSegments s path
  return withQuery {
    scheme := name, user := user, password := password, host := some host
    port := if port = ordinaryPorts.lookup name then none else port
    path := .segments names } s rest

/-- What follows `file:`. A host in front of a drive letter is left out, and so is that of this machine. -/
def ofFile (cs : List Char) : Except Fault Url := do
  let (host, cs) ← match cs with
    | a :: b :: rest =>
      let host := rest.takeWhile (!endsAuthority .file ·)
      if !(isSlash .file a && isSlash .file b) then pure (Host.domain "", cs)
      else if host.isEmpty then pure (.domain "", rest)
      else if isDrive host then pure (.domain "", rest)
      else pure (← Host.ofChars host, rest.drop host.length)
    | _ => pure (.domain "", cs)
  let (path, rest) := splitPath cs
  let names := readSegments .file path
  let host := if host = .domain "localhost" ∨ names.head?.any (isDrive ·.toList) then .domain "" else host
  return withQuery { scheme := "file", host := some host, path := .segments (withoutEmpty names) } .file rest

/-- What follows a scheme of any other kind. -/
def ofOther (name : String) (cs : List Char) : Except Fault Url :=
  match cs with
  | '/' :: '/' :: rest => ofAuthority name .other rest
  | _ =>
    let (path, rest) := splitPath cs
    let path : Path := if cs.head? = some '/' then .segments (readSegments .other path)
      else .opaqueText (written "" path)
    .ok (withQuery { scheme := name, path := path } .other rest)

/-- The text without control characters and blanks at its ends, and without line breaks and tabs. -/
def cleaned (s : String) : List Char :=
  let edge (c : Char) : Bool := c.toNat ≤ 0x20
  (((s.toList.dropWhile edge).reverse.dropWhile edge).reverse).filter fun c => c ≠ '\t' ∧ c ≠ '\n' ∧ c ≠ '\r'

/-- The address that a text is. -/
def parse (s : String) : Except Fault Url :=
  match scheme? (cleaned s) with
  | none => .error .relative
  | some (name, rest) => match Scheme.ofName name with
    | .ordinary => ofAuthority name .ordinary (rest.dropWhile fun c => c = '/' || c = '\\')
    | .file => ofFile rest
    | .other => ofOther name rest

end Lifecycle.Url
