import Lifecycle.Url.Parser

/-!
Why a request gets no response: its address or its headers cannot be used, or there is no way to the
host that it names.
-/

namespace Lifecycle

/-- The address without the user and the password. A user whose bytes are no text stays. -/
def Url.anonymous (u : Url) : Url :=
  let text (s : String) : Bool := (Text.percentDecoded? s).isSome
  if text u.user && (!u.user.isEmpty || u.password.any text) then { u with user := "", password := none } else u

namespace Http

/-- What keeps a connection to a host from being made where there is no network. -/
inductive Obstacle where
  | unknownName  -- nobody tells the address of a name
  | noRoute      -- no way leads to the address
  | noSource     -- this machine has no address of the kind
  | noScope      -- an address that holds only on one line, and no line is named
deriving DecidableEq, Repr

def Obstacle.message : Obstacle → String
  | .unknownName => "dns error: failed to lookup address information: Temporary failure in name resolution"
  | .noRoute => "tcp connect error: Network is unreachable (os error 101)"
  | .noSource => "tcp connect error: Cannot assign requested address (os error 99)"
  | .noScope => "tcp connect error: Invalid argument (os error 22)"

/-- The obstacle on the way to an address of eight pieces: those for many machines and those that hold an
address of four bytes have no route. -/
def Obstacle.ofPieces : List Nat → Obstacle
  | [0, 0, 0, 0, 0, 0xFFFF, _, _] => .noRoute
  | piece :: _ => if 0xFF00 ≤ piece then .noRoute else if piece / 64 = 0xFE80 / 64 then .noScope else .noSource
  | [] => .noSource

/-- The obstacle on the way to a host; the name of this machine is known. -/
def Obstacle.ofHost? : Option Url.Host → Obstacle
  | some (.ipv4 _) => .noRoute
  | some (.ipv6 pieces) => .ofPieces pieces
  | some (.domain name) => if name = "localhost" then .noRoute else .unknownName
  | none => .unknownName

inductive NetworkFault where
  | address (f : Url.Fault)
  | scheme (u : Url)
  | host (u : Url)                           -- one that no request can name
  | headerName
  | headerValue
  | connection (u : Url) (o : Obstacle)
  | told (message : String)                  -- by who answers
deriving DecidableEq, Repr

def NetworkFault.message : NetworkFault → String
  | .address f => "HTTP request failed: builder error: " ++ f.message
  | .scheme u => "HTTP request failed: builder error for url (" ++ u.text ++ "): URL scheme is not allowed"
  | .host u => "HTTP request failed: builder error for url (" ++ u.text ++ "): Parsed Url is not a valid Uri"
  | .headerName => "HTTP request failed: builder error: invalid HTTP header name"
  | .headerValue => "HTTP request failed: builder error: failed to parse header value"
  | .connection u o => "HTTP request failed: error sending request for url (" ++ u.text ++
      "): error trying to connect: " ++ o.message
  | .told message => message

/-- An address to which a request can be made. -/
def checkAddress (u : Url) : Except NetworkFault Url :=
  if !(["http", "https"].contains u.scheme) then .error (.scheme u)
  else match u.host with
    | some (.domain name) => if name.toList.any "\"\x60\x7b\x7d".toList.contains then .error (.host u) else .ok u
    | _ => .ok u

end Http

end Lifecycle
