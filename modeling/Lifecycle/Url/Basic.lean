import Lifecycle.Url.Host

/-!
Absolute addresses: a scheme, and for most of them a host behind two slashes, with a user in front of
it and a port after it; then a path, and perhaps a query and a fragment. All parts are held as they are
written.
-/

namespace Lifecycle

namespace Url

/-- A path: the segments behind its slashes, or a text for itself. -/
inductive Path where
  | segments (names : List String)
  | opaqueText (text : String)
deriving DecidableEq, Repr

end Url

structure Url where
  scheme : String
  user : String := ""
  password : Option String := none
  host : Option Url.Host := none    -- none without the two slashes
  port : Option Nat := none         -- none for the usual one
  path : Url.Path
  query : Option String := none
  fragment : Option String := none
deriving DecidableEq, Repr

namespace Url

def Path.text : Path → String
  | .segments names => String.join (names.map ("/" ++ ·))
  | .opaqueText text => text

/-- The user and the password in front of a host. -/
def credentials (u : Url) : String :=
  let password := (u.password.map (":" ++ ·)).getD ""
  if u.user.isEmpty && password.isEmpty then "" else u.user ++ password ++ "@"

/-- The host with what belongs to it, behind two slashes. Without a host, a point keeps a path that
begins with an empty segment from looking like one. -/
def authority (u : Url) : String :=
  match u.host, u.path with
  | some host, _ => "//" ++ u.credentials ++ host.text ++ (u.port.map fun n => ":" ++ toString n).getD ""
  | none, .segments ("" :: _ :: _) => "/."
  | none, _ => ""

def text (u : Url) : String :=
  u.scheme ++ ":" ++ u.authority ++ u.path.text ++ (u.query.map ("?" ++ ·)).getD "" ++
    (u.fragment.map ("#" ++ ·)).getD ""

/-- Does it name a host? -/
def hasHost (u : Url) : Bool := u.host.any (· ≠ .domain "")

end Url

end Lifecycle
