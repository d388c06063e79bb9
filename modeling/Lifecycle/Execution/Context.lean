import Lifecycle.Json.Printer
import Lifecycle.Json.Record
import Lifecycle.Time.Instant

/-!
The context of an execution: why it started, and which nodes it has entered. It is kept as two free
objects, so that a snapshot of it survives whatever else they hold.
-/

namespace Lifecycle

open Json (Decoder Fields Members)
open Time (Instant)

structure Context where
  trigger : Members
  metadata : Members
deriving DecidableEq, Repr

namespace Context

def empty : Context := ⟨[], []⟩

/-- The context of a change of status. -/
def ofChange (source target : String) : Context :=
  ⟨Members.ofList [("from", .str source), ("to", .str target)], []⟩

/-- The context of a status that has lasted since `since`. -/
def ofStuck (status : String) (since : Instant) : Context :=
  ⟨Members.ofList [("stuckStatus", .str status), ("stuckSince", .str since.offsetText)], []⟩

/-- The list of nodes entered with one more; anything but a list is left alone. -/
def noteVisit (id : String) : Option Json → Json
  | none => .arr [.str id]
  | some (.arr ids) => .arr (ids ++ [.str id])
  | some other => other

/-- The context on entering a node. -/
def enter (c : Context) (id : String) (now : Instant) : Context :=
  let noted := (c.metadata.insert "current_node_id" (.str id)).insert "current_node_started_at" (.str now.offsetText)
  { c with metadata := noted.insert "visited" (noteVisit id (noted.lookup "visited")) }

/-- The nodes entered, in order. -/
def visited (c : Context) : List String :=
  match c.metadata.lookup "visited" with
  | some (.arr ids) => ids.filterMap Json.text?
  | _ => []

def decoder : Decoder Context :=
  (Context.mk <$> Fields.required "trigger" Decoder.members
    <*> Fields.required "metadata" Decoder.members).record "ExecutionContext" false

def toJson (c : Context) : Json := .object [("trigger", .obj c.trigger), ("metadata", .obj c.metadata)]

/-- The context of a snapshot. -/
def ofSnapshot (j : Json) : Except Json.Fault Context := decoder.ofValue j

end Context

end Lifecycle
