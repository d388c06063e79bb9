import Lifecycle.Json.Decode
import Lifecycle.Store.Row
import Lifecycle.Target.Call
import Lifecycle.Text.Blank

/-!
Entities kept in a table of the host: whole milliseconds for the time of the last change, and texts
that hold the fields as an object and the tags as a list.
-/

namespace Lifecycle.Target

open Store (Cell)
open Time (Instant)

structure HostRow where
  id : String
  status : Option String
  changedAt : Option Cell
  email : Option String
  fields : Option String
  tags : Option String
deriving DecidableEq, Repr

/-- A name that may stand in a statement: letters, digits and underscores, no digit in front. -/
def tableNameAllowed (name : String) : Bool :=
  match name.toList with
  | [] => false
  | c :: cs => !c.isDigit && (c :: cs).all fun d => d.isAlphanum || d = '_'

def checkTableName (name : String) : Except Fault Unit :=
  if tableNameAllowed name then .ok () else .error (.badTable name)

namespace HostRow

/-- The value that a column holds; nothing and the empty text hold null. -/
def column (name : String) : Option String → Except Fault Json
  | none => .ok .null
  | some text => if text.isEmpty then .ok .null else (Json.parse text).mapError (.badColumn name text)

/-- The fields as they are read. -/
def readFields (r : HostRow) : Except Fault Json.Members := do
  match ← column "fields" r.fields with
  | .obj members => return members
  | .null => return []
  | other => .error (.notObject other)

/-- The tags as they are read. -/
def readTags (r : HostRow) : Except Fault (List Json) := do
  match ← column "tags" r.tags with
  | .arr items => return items
  | .null => return []
  | other => .error (.notArray other)

/-- The fields as they are changed. -/
def fieldsToChange (r : HostRow) : Except Fault Json.Members :=
  match r.fields with
  | none => .ok []
  | some text => match Json.parse text with
    | .ok (.obj members) => .ok members
    | .ok .null => .ok []
    | .ok other => .error (.notObject other)
    | .error f => .error (.undecodable text f)

/-- The tags as they are changed. -/
def tagsToChange (r : HostRow) : Except Fault (List String) :=
  match r.tags with
  | none => .ok []
  | some text =>
    if text.isEmpty then .ok [] else ((Json.Decoder.list .string).ofText text).mapError (.undecodable text)

/-- The row with a field set. -/
def putField (r : HostRow) (field : String) (value : Json) : Except Fault HostRow := do
  let fields ← r.fieldsToChange
  return { r with fields := some (Json.obj (fields.insert field value)).print }

/-- The row with a tag, which it has once. -/
def addTag (r : HostRow) (label : String) : Except Fault HostRow := do
  let tags ← r.tagsToChange
  if tags.contains label then return r
  else return { r with tags := some (Json.arr ((tags ++ [label]).map Json.str)).print }

/-- The time of the last change, if the calendar has it. -/
def changed? (r : HostRow) : Except Fault (Option Instant) := do
  let millis ← r.changedAt.mapM fun c => (Store.readWhole "status_changed_at" .wholeOrNull c).mapError .store
  return millis.bind Instant.ofMillis?

def readView (r : HostRow) : Except Fault Json := do
  let changed ← r.changed?
  let fields ← r.readFields
  let tags ← r.readTags
  return view r.id r.status changed r.email fields tags

/-- The value of a field; null counts as none. -/
def field? (r : HostRow) (field : String) : Except Fault (Option Json) := do
  let fields ← r.readFields
  return (fields.lookup field).filter (!·.isNull)

end HostRow

/-- The rows, in the order in which they were written. -/
abbrev HostRows := List HostRow

namespace HostRows

def get (rows : HostRows) (id : String) : Except Fault HostRow :=
  match rows.find? (·.id == id) with
  | some r => .ok r
  | none => .error (.notFound id)

/-- The rows with that of `id` changed, unless the change fails. -/
def change (rows : HostRows) (id : String) (f : HostRow → Except Fault HostRow) : Except Fault Unit × HostRows :=
  match (rows.get id).bind f with
  | .ok new => (.ok (), rows.map fun r => if r.id == id then new else r)
  | .error e => (.error e, rows)

/-- Changed earlier, or as early and of a smaller identifier. -/
def changedBefore : Cell × String → Cell × String → Bool := Cell.leBy (·.1) (·.2 ≤ ·.2)

/-- The rows in a status since `before` or longer. -/
def inStatusSince (rows : HostRows) (status : String) (before : Int) : List String :=
  ((rows.filterMap fun r => match r.changedAt with
    | some changed => if r.status == some status && changed.le (.int before) then some (changed, r.id) else none
    | none => none).mergeSort changedBefore).map (·.2)

/-- The rows with `row` under its identifier. -/
def put (rows : HostRows) (row : HostRow) : HostRows :=
  if rows.any (·.id == row.id) then rows.map fun r => if r.id == row.id then row else r else rows ++ [row]

/-- The answer to a call, and the rows after it. -/
def answer : (c : Call) → HostRows → c.Answer × HostRows
  | .status id, rows => ((rows.get id).map (·.status), rows)
  | .changedAt id, rows => ((rows.get id).bind (·.changed?), rows)
  | .field id field, rows => ((rows.get id).bind (·.field? field), rows)
  | .putField id field value, rows => rows.change id (·.putField field value)
  | .tag id label, rows => rows.change id (·.addTag label)
  | .email id, rows => ((rows.get id).map fun r => r.email.filter (!Text.isBlank ·), rows)
  | .view id, rows => ((rows.get id).bind (·.readView), rows)
  | .find status before, rows => (.ok (rows.inStatusSince status before.floorMillis), rows)

end HostRows

end Lifecycle.Target
