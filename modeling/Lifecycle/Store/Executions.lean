import Lifecycle.Store.Row

/-!
The table of executions. Of the executions that run only once there is one for each workflow, target
and trigger type, and a status is only ever left for one that may follow it.
-/

namespace Lifecycle.Store

/-- The workflow, target and trigger type of an execution. -/
structure Key where
  workflowId : String
  targetType : String
  targetId : String
  triggerType : String
deriving DecidableEq, Repr

def ExecutionRow.key (r : ExecutionRow) : Key := ⟨r.workflowId, r.targetType, r.targetId, r.triggerType⟩

/-- May not stand in one table: the same identifier, or the same key where both run only once. -/
def ExecutionRow.clashes (a b : ExecutionRow) : Bool :=
  (a.id.isSome && a.id == b.id) || (a.runOnce == .int 1 && b.runOnce == .int 1 && a.key == b.key)

/-- Why and where an execution failed: the node and the message. -/
structure Failure where
  nodeId : String
  message : String
deriving DecidableEq, Repr

/-- Is the row that of `id`, in a status that `next` may follow? -/
def ExecutionRow.admits (r : ExecutionRow) (id : String) (next : Status) : Bool :=
  r.id == some id && next.before.any (·.name == r.status)

/-- The row after a change of status. -/
def ExecutionRow.moved (r : ExecutionRow) (next : Status) (now : Int) (failure : Option Failure) : ExecutionRow :=
  { r with
    status := next.name
    updatedAt := .int now
    finishedAt := if next.terminal then some (.int now) else r.finishedAt
    failedNodeId := (failure.map (·.nodeId)).or r.failedNodeId
    error := (failure.map (·.message)).or r.error }

/-- The executions, in the order in which they were created. -/
abbrev Executions := List ExecutionRow

namespace Executions

/-- The table with one more row, unless it clashes with another; and whether it is new. -/
def insert (l : Executions) (row : ExecutionRow) : Bool × Executions :=
  if l.any row.clashes then (false, l) else (true, l ++ [row])

/-- The row that runs only once under a key. -/
def owner? (l : Executions) (key : Key) : Option ExecutionRow := l.find? fun r => r.key == key && r.runOnce == .int 1

/-- The row of `id` moved to the status `next`, if its status admits it; and whether it was. -/
def advance (l : Executions) (id : String) (next : Status) (now : Int) (failure : Option Failure) : Bool × Executions :=
  (l.any (·.admits id next), l.map fun r => if r.admits id next then r.moved next now failure else r)

def get? (l : Executions) (id : String) : Option ExecutionRow := l.find? (·.id == some id)

/-- Earlier started, or as early and of a smaller identifier. -/
def startsBefore : ExecutionRow → ExecutionRow → Bool := Cell.leBy (·.startedAt) fun a b =>
  match a.id, b.id with
  | none, _ => true
  | some _, none => false
  | some i, some j => i ≤ j

/-- The rows of one target, the oldest first. -/
def ofTarget (l : Executions) (targetType targetId : String) : List ExecutionRow :=
  (l.filter fun r => r.targetType == targetType && r.targetId == targetId).mergeSort startsBefore

end Executions

end Lifecycle.Store
