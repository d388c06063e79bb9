import Lifecycle.Engine.Request

/-!
The records and tokens of executions as jobs: starting, moving from status to status, suspending, and
reading back.
-/

namespace Lifecycle.Engine

open Store (ExecutionRow TokenRow Key Failure RowFault)
open Time (Instant)

/-- A row as it is read. -/
def readRow {α : Type} (r : Except RowFault α) : Attempt α :=
  ExceptT.mk (pure (r.mapError fun
    | .store f => .database f
    | .corrupt c => .corrupt c.message))

/-- A new execution of a workflow on a target, or, where it runs only once, the one there is. -/
structure Start where
  record : Record
  started : Bool
deriving DecidableEq, Repr

/-- Starts an execution, unless one that runs only once is on record. -/
def start (workflowId : String) (target : Target) (type : TriggerType) (runOnce : Bool) : Attempt Start := do
  let now ← now
  let id ← fresh
  let record : Record := ⟨id, workflowId, target, type, .pending, runOnce, none, none, now, none, now⟩
  let new : Bool ← run (.insertExecution (.ofRecord record))
  if new then return ⟨record, true⟩
  let row : ExecutionRow ← run (.owner ⟨workflowId, target.type.name, target.id, type.name⟩)
  return ⟨← readRow row.record, false⟩

/-- Moves an execution to another status, if its status admits it; and tells whether it did. -/
def move (id : String) (next : Status) (failure : Option Failure) : Attempt Bool := do
  let now ← now
  run (.advance id next now.floorMillis failure)

def moveTo (next : Status) (id : String) : Attempt Bool := move id next none

def moveToFailed (id nodeId message : String) : Attempt Bool := move id .failed (some ⟨nodeId, message⟩)

def getRecord (id : String) : Attempt (Option Record) := do
  match ← run (.execution id) with
  | none => return none
  | some row => return some (← readRow row.record)

/-- The records of a target, the oldest first. -/
def recordsOf (target : Target) : Attempt (List Record) := do
  let rows : List ExecutionRow ← run (.executionsOf target.type.name target.id)
  rows.mapM fun r => readRow r.record

/-! ### Tokens -/

/-- Suspends a running execution until `resumeAt`; nothing if it is not running. -/
def suspend (executionId nodeId : String) (resumeAt : Instant) (snapshot : Json) : Attempt (Option Token) := do
  let id ← fresh
  let token : Token := ⟨id, executionId, nodeId, resumeAt, snapshot, ← now⟩
  let moved ← now
  let suspended : Bool ← run (.suspend (.ofToken token) moved.floorMillis)
  return if suspended then some token else none

/-- The first `limit` tokens that are due. -/
def dueTokens (limit : Nat) : Attempt (List Token) := do
  let now ← now
  let rows : List TokenRow ← run (.due now.floorMillis limit)
  rows.mapM fun r => readRow r.token

/-- Takes a token; true for the one who removed it. -/
def claim (tokenId : String) : Attempt Bool := run (.claim tokenId)

def tokensOf (executionId : String) : Attempt (List Token) := do
  let rows : List TokenRow ← run (.tokensOf executionId)
  rows.mapM fun r => readRow r.token

end Lifecycle.Engine
