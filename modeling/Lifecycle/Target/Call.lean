import Lifecycle.Json.Fault
import Lifecycle.Json.Printer
import Lifecycle.Store.Fault
import Lifecycle.Time.Instant
import Lifecycle.Workflow.Names

/-!
Access to the entities of one collection: the calls, their values and their faults. Reads tell the
state of the moment.
-/

namespace Lifecycle.Target

open Time (Instant)

/-- Why a call fails. -/
inductive Fault where
  | notFound (id : String)
  | store (f : Store.Fault)
  | badColumn (column text : String) (f : Json.Fault)  -- a column that holds no JSON
  | undecodable (text : String) (f : Json.Fault)       -- a text that cannot be changed
  | notObject (found : Json)
  | notArray (found : Json)
  | badTable (name : String)
  | refused (message : String)                         -- the collection cannot be reached
deriving DecidableEq, Repr

def Fault.message : Fault → String
  | .notFound id => "target '" ++ id ++ "' not found"
  | .store f => f.message
  | .badColumn column text f => "column '" ++ column ++ "' is not valid JSON: " ++ f.messageIn text
  | .undecodable text f => f.messageIn text
  | .notObject found => "fields must be a JSON object, got " ++ found.print
  | .notArray found => "tags must be a JSON array, got " ++ found.print
  | .badTable name => "invalid table name '" ++ name ++ "'"
  | .refused message => message

/-- The calls. -/
inductive Call where
  | status (id : String)
  | changedAt (id : String)
  | field (id field : String)
  | putField (id field : String) (value : Json)
  | tag (id label : String)
  | email (id : String)
  | view (id : String)
  | find (status : String) (before : Instant)  -- in that status since then or longer
deriving DecidableEq, Repr

/-- The values of the calls. -/
def Call.Value : Call → Type
  | .status _ => Option String
  | .changedAt _ => Option Instant
  | .field _ _ => Option Json
  | .putField _ _ _ => Unit
  | .tag _ _ => Unit
  | .email _ => Option String
  | .view _ => Json
  | .find _ _ => List String

/-- The answer to a call. -/
abbrev Call.Answer (c : Call) : Type := Except Fault c.Value

/-- The calls without what they ask for. -/
inductive Operation where
  | status | changedAt | field | putField | tag | email | view | find
deriving DecidableEq, Repr

def Call.operation : Call → Operation
  | .status _ => .status
  | .changedAt _ => .changedAt
  | .field _ _ => .field
  | .putField _ _ _ => .putField
  | .tag _ _ => .tag
  | .email _ => .email
  | .view _ => .view
  | .find _ _ => .find

/-- The view of an entity for templates and requests. -/
def view (id : String) (status : Option String) (changedAt : Option Instant) (email : Option String)
    (fields : Json.Members) (tags : List Json) : Json :=
  .object [("id", .str id), ("status", .optional status), ("statusChangedAt", .optional (changedAt.map (·.offsetText))),
    ("ownerEmail", .optional email), ("fields", .obj fields), ("tags", .arr tags)]

end Lifecycle.Target
