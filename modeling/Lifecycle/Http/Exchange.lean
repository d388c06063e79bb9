import Lifecycle.Http.Refusal
import Lifecycle.Json.Draft
import Lifecycle.Workflow.Kind

/-!
Outbound requests and their responses.
-/

namespace Lifecycle.Http

structure Outbound where
  url : String
  method : Method
  headers : List (String × String)
  body : Option Json
deriving DecidableEq, Repr

structure Response where
  status : Nat
  body : Json
deriving DecidableEq, Repr

/-- A status that reports success. -/
def succeeds (status : Nat) : Bool := 200 ≤ status && status < 300

/-- The value of the body of a response: JSON if it is, or else its text. -/
def readBody (text : String) : Json :=
  match Json.parse text with
  | .ok j => j
  | .error _ => .str text

/-! ### On the wire -/

/-- A character of the name of a header. -/
def nameChar (c : Char) : Bool :=
  c.isAlphanum || "!#$%&'*+-.^_`|~".toList.contains c

/-- A character of the value of a header: no control character but the tab. -/
def valueChar (c : Char) : Bool := (32 ≤ c.toNat && c.toNat ≠ 127) || c = '\t'

/-- The fault of a header. -/
def checkHeader (name value : String) : Except NetworkFault Unit :=
  if name.isEmpty || !name.toList.all nameChar then .error .headerName
  else if !value.toList.all valueChar then .error .headerValue
  else .ok ()

/-- The body of a request, which `GET` has not. -/
def sentBody (r : Outbound) : Option Json := if r.method = .get then none else r.body

/-- What arrives of a request: the headers that were asked for, and the type of the content. -/
structure Arrival where
  address : Url
  method : String
  headers : List (String × List String)
  body : String
deriving DecidableEq, Repr

/-- What a request names of its address: the path and the query. -/
def Arrival.target (a : Arrival) : String := a.address.path.text ++ (a.address.query.map ("?" ++ ·)).getD ""

/-- The values under a name, with one more. -/
def addHeader (name value : String) : List (String × List String) → List (String × List String)
  | [] => [(name, [value])]
  | (k, vs) :: rest => if k = name then (k, vs ++ [value]) :: rest else (k, vs) :: addHeader name value rest

/-- What arrives of a request. A body is JSON, and says so unless a header says otherwise. -/
def Outbound.arrival (r : Outbound) : Except NetworkFault Arrival := do
  let address ← (Url.parse r.url).mapError .address
  if !address.hasHost then .error (.scheme address)
  r.headers.forM fun (k, v) => checkHeader k v
  let address ← checkAddress address.anonymous
  let named := r.headers.foldl (fun hs (k, v) => addHeader (String.ofList (k.toList.map Char.toLower)) v hs) []
  let headers := match sentBody r with
    | some _ => if (named.lookup "content-type").isSome then named else named ++ [("content-type", ["application/json"])]
    | none => named
  return ⟨address, r.method.name, headers, (sentBody r).elim "" Json.print⟩

/-- Why a request has no response where there is no network. -/
def Outbound.refusal (r : Outbound) : NetworkFault :=
  match r.arrival with
  | .error f => f
  | .ok a => .connection a.address (Obstacle.ofHost? a.address.host)

end Lifecycle.Http
