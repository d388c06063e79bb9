import Lifecycle.Url.Address
import Lifecycle.Url.Fault

/-!
Hosts. A host of an ordinary scheme is a domain or a numeric address; any other scheme takes every
text without the characters that separate the parts of an address.
-/

namespace Lifecycle.Url

/-- A host. The empty domain is that of an address which names none. -/
inductive Host where
  | domain (name : String)
  | ipv4 (n : Nat)
  | ipv6 (pieces : List Nat)
deriving DecidableEq, Repr

namespace Host

def text : Host → String
  | .domain name => name
  | .ipv4 n => ipv4Text n
  | .ipv6 pieces => "[" ++ ipv6Text pieces ++ "]"

/-- A host in brackets, of which the first is read. -/
def ofBracketed (cs : List Char) : Except Fault Host :=
  match if cs.getLast? = some ']' then ipv6? cs.dropLast else none with
  | some pieces => .ok (.ipv6 pieces)
  | none => .error .ipv6

/-- The host of an ordinary scheme. -/
def ofChars (cs : List Char) : Except Fault Host :=
  match cs with
  | '[' :: rest => ofBracketed rest
  | _ => match Domain.ofText? cs with
    | none => .error .domain
    | some [] => .error .emptyHost
    | some name =>
      if endsInNumber name then match ipv4? name with
        | some n => .ok (.ipv4 n)
        | none => .error .ipv4
      else .ok (.domain (String.ofList name))

/-- The characters that the host of no other scheme has. -/
def separators : List Char := Char.ofNat 0 :: "\t\n\r #/:<>?@[\\]^|".toList

/-- The host of any other scheme. -/
def ofOpaque (cs : List Char) : Except Fault Host :=
  match cs with
  | '[' :: rest => ofBracketed rest
  | _ =>
    if cs.any separators.contains then .error .hostCharacter
    else .ok (.domain (String.ofList (Text.percentEncoded "" cs)))

end Host

end Lifecycle.Url
