import Lifecycle.Execution.Record
import Lifecycle.Json.Draft
import Lifecycle.Json.Printer
import Lifecycle.Store.Fault

/-!
The rows of the tables, and the records and tokens that are read from them. Times are kept in
milliseconds; the time at which a token comes due is rounded up.
-/

namespace Lifecycle.Store

open Time (Instant)

/-- The row of an execution. One that an edit has left without an identifier is found by none. -/
structure ExecutionRow where
  id : Option String
  workflowId : String
  targetType : String
  targetId : String
  triggerType : String
  status : String
  runOnce : Cell
  failedNodeId : Option String
  error : Option String
  startedAt : Cell
  finishedAt : Option Cell
  updatedAt : Cell
deriving DecidableEq, Repr

/-- The row of a token. One that an edit has left without an identifier is found by none. -/
structure TokenRow where
  id : Option String
  executionId : String
  resumeNodeId : String
  resumeAt : Cell
  snapshot : String
  createdAt : Cell
deriving DecidableEq, Repr

structure DefinitionRow where
  id : String
  name : String
  triggerType : String
  active : Int
  definition : String
deriving DecidableEq, Repr

/-! ### Writing -/

/-- The row of a record. -/
def ExecutionRow.ofRecord (r : Record) : ExecutionRow where
  id := some r.id
  workflowId := r.workflowId
  targetType := r.target.type.name
  targetId := r.target.id
  triggerType := r.triggerType.name
  status := r.status.name
  runOnce := .int (if r.runOnce then 1 else 0)
  failedNodeId := r.failedNodeId
  error := r.error
  startedAt := .int r.startedAt.floorMillis
  finishedAt := r.finishedAt.map (.int ·.floorMillis)
  updatedAt := .int r.updatedAt.floorMillis

/-- The row of a token. -/
def TokenRow.ofToken (t : Token) : TokenRow where
  id := some t.id
  executionId := t.executionId
  resumeNodeId := t.resumeNodeId
  resumeAt := .int t.resumeAt.ceilMillis
  snapshot := t.snapshot.print
  createdAt := .int t.createdAt.floorMillis

/-! ### Reading -/

/-- What is wrong with the values of a row. -/
inductive Corruption where
  | name (u : Unrecognized)
  | time (column : String) (millis : Int)
deriving DecidableEq, Repr

def Corruption.message : Corruption → String
  | .name u => u.message
  | .time column millis => column ++ " out of range: " ++ toString millis

/-- Why a row cannot be read. -/
inductive RowFault where
  | store (f : Fault)
  | corrupt (c : Corruption)
deriving DecidableEq, Repr

/-- The whole number in a column. -/
def readWhole (column : String) (reading : Reading) : Cell → Except Fault Int
  | .int n => .ok n
  | c => .error (.mismatch column reading c.kind)

/-- The identifier of a row. -/
def readId : Option String → Except RowFault String
  | some id => .ok id
  | none => .error (.store (.null "id"))

/-- The instant that milliseconds stand for. -/
def toTime (column : String) (millis : Int) : Except RowFault Instant :=
  match Instant.ofMillis? millis with
  | some t => .ok t
  | none => .error (.corrupt (.time column millis))

/-- The instant kept in a column. -/
def readTime (column : String) (c : Cell) : Except RowFault Instant := do
  toTime column (← (readWhole column .whole c).mapError .store)

/-- A name that is known. -/
def readName {α : Type} (r : Except Unrecognized α) : Except RowFault α := r.mapError (.corrupt ∘ .name)

/-- The record of a row. That the time of its end is a number, or none, is seen first. -/
def ExecutionRow.record (r : ExecutionRow) : Except RowFault Record := do
  let finished ← r.finishedAt.mapM fun c => (readWhole "finished_at" .wholeOrNull c).mapError .store
  let id ← readId r.id
  let targetType ← readName (TargetType.ofName r.targetType)
  let triggerType ← readName (TriggerType.ofName r.triggerType)
  let status ← readName (Status.ofName r.status)
  let runOnce ← (readWhole "run_once" .flag r.runOnce).mapError .store
  let startedAt ← readTime "started_at" r.startedAt
  let finishedAt ← finished.mapM (toTime "finished_at")
  let updatedAt ← readTime "updated_at" r.updatedAt
  return ⟨id, r.workflowId, ⟨targetType, r.targetId⟩, triggerType, status, runOnce ≠ 0, r.failedNodeId, r.error,
    startedAt, finishedAt, updatedAt⟩

/-- The value of a snapshot; a text that holds none stands for itself. -/
def readSnapshot (text : String) : Json :=
  match Json.parse text with
  | .ok j => j
  | .error _ => .str text

def TokenRow.token (t : TokenRow) : Except RowFault Token := do
  let id ← readId t.id
  let resumeAt ← readTime "resume_at" t.resumeAt
  let createdAt ← readTime "created_at" t.createdAt
  return ⟨id, t.executionId, t.resumeNodeId, resumeAt, readSnapshot t.snapshot, createdAt⟩

end Lifecycle.Store
