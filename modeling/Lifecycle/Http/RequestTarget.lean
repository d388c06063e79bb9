/-!
What the first line of a request names: a path, perhaps behind a scheme and an authority; an authority
alone; or everything.
-/

namespace Lifecycle.Http

/-- The most bytes that it takes. -/
abbrev targetLimit : Nat := 65534

/-- The most characters of a scheme. -/
abbrev schemeLimit : Nat := 64

/-! ### Paths -/

/-- A character of a path. -/
def pathChar (c : Char) : Bool := 32 < c.toNat && c ≠ '<' && c ≠ '>' && c ≠ '\x60'

/-- A character of a query. -/
def queryChar (c : Char) : Bool := 32 < c.toNat && c ≠ '<' && c ≠ '>' && c ≠ '"'

/-- The path and the query of a text, which a fragment may follow. -/
def pathAndQuery? (cs : List Char) : Option (List Char × List Char) :=
  let path := cs.takeWhile fun c => c ≠ '?' && c ≠ '#'
  let query := match cs.drop path.length with
    | '?' :: rest => '?' :: rest.takeWhile (· ≠ '#')
    | _ => []
  if path.all pathChar && query.all queryChar then some (path, query) else none

/-! ### Authorities -/

/-- What stands in an authority so far. A new user or a closed bracket forgets what stood before. -/
structure Authority where
  colons : Nat := 0
  opened : Bool := false
  closed : Bool := false
  encoded : Bool := false    -- a percent sign
deriving DecidableEq, Repr

namespace Authority

/-- The most colons, those of an address of eight pieces included. -/
abbrev colonLimit : Nat := 8

/-- The authority with one more character, unless it may not stand there. -/
def push (a : Authority) (c : Char) : Option Authority :=
  if c = ':' then if colonLimit ≤ a.colons then none else some { a with colons := a.colons + 1 }
  else if c = '[' then if a.encoded || a.opened then none else some { a with opened := true }
  else if c = ']' then
    if !a.opened || a.closed then none else some { a with colons := 0, closed := true, encoded := false }
  else if c = '@' then some { a with colons := 0, encoded := false }
  else if c = '%' then some { a with encoded := true }
  else if c.isAlphanum || "!$&'()*+,-.;=_~".toList.contains c then some a
  else none

/-- Is the text an authority: users, a host that names one address, and one port at most? -/
def allowed (cs : List Char) : Bool :=
  match cs.foldlM push {} with
  | none => false
  | some a => a.opened == a.closed && a.colons ≤ 1 && cs.getLast? ≠ some '@' && !a.encoded

end Authority

/-- The text behind a scheme; one that is too long is none. -/
def behindScheme? (cs : List Char) : Option (List Char) :=
  let scheme := cs.takeWhile fun c => c.isAlphanum || c = '+' || c = '-' || c = '.'
  match cs.drop scheme.length with
  | ':' :: '/' :: '/' :: rest => if schemeLimit < scheme.length then none else some rest
  | _ => none

/-- The path that a request names, with its query: empty if it names an authority alone or everything. -/
def namedPath? (text : String) : Option String :=
  let cs := text.toList
  let joined : List Char × List Char → String := fun (path, query) => String.ofList (path ++ query)
  if targetLimit < text.utf8ByteSize then none
  else match cs with
    | [] => none
    | ['*'] => some ""
    | '/' :: _ => (pathAndQuery? cs).map joined
    | _ => match behindScheme? cs with
      | none => if Authority.allowed cs then some "" else none
      | some rest =>
        let authority := rest.takeWhile fun c => c ≠ '/' && c ≠ '?' && c ≠ '#'
        if authority.isEmpty || !Authority.allowed authority then none
        else (pathAndQuery? (rest.drop authority.length)).map fun (path, query) =>
          joined (if path.isEmpty then ['/'] else path, query)

end Lifecycle.Http
