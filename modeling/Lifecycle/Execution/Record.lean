import Lifecycle.Json.Basic
import Lifecycle.Time.Instant
import Lifecycle.Workflow.Names

/-!
Records of executions: one for each run of a workflow on a target. A record is pending, then running
and suspended in turn, and at last completed or failed.
-/

namespace Lifecycle

open Time (Instant)

inductive Status where
  | pending | running | suspended | completed | failed
deriving DecidableEq, Repr

namespace Status

def all : List Status := [.pending, .running, .suspended, .completed, .failed]

def name : Status → String
  | .pending => "pending"
  | .running => "running"
  | .suspended => "suspended"
  | .completed => "completed"
  | .failed => "failed"

def ofName (text : String) : Except Unrecognized Status := recognize "execution status" all name text

/-- Nothing follows. -/
def terminal : Status → Bool
  | .completed | .failed => true
  | _ => false

/-- The statuses that `s` may follow. -/
def before : Status → List Status
  | .pending => []
  | .running => [.pending, .suspended]
  | .suspended => [.running]
  | .completed => [.running]
  | .failed => [.pending, .running, .suspended]

end Status

/-- One run of a workflow on a target. -/
structure Record where
  id : String
  workflowId : String
  target : Target
  triggerType : TriggerType
  status : Status
  runOnce : Bool
  failedNodeId : Option String
  error : Option String
  startedAt : Instant
  finishedAt : Option Instant
  updatedAt : Instant
deriving DecidableEq, Repr

def Target.toJson (t : Target) : Json := .object [("targetType", .str t.type.name), ("id", .str t.id)]

def Record.toJson (r : Record) : Json :=
  .object [("id", .str r.id), ("workflow_id", .str r.workflowId), ("target", r.target.toJson),
    ("trigger_type", .str r.triggerType.name), ("status", .str r.status.name), ("run_once", .bool r.runOnce),
    ("failed_node_id", .optional r.failedNodeId), ("error", .optional r.error),
    ("started_at", .str r.startedAt.zuluText), ("finished_at", .optional (r.finishedAt.map (·.zuluText))),
    ("updated_at", .str r.updatedAt.zuluText)]

/-- What is kept of a suspended execution: where and when it goes on, and its context. -/
structure Token where
  id : String
  executionId : String
  resumeNodeId : String
  resumeAt : Instant
  snapshot : Json
  createdAt : Instant
deriving DecidableEq, Repr

def Token.toJson (t : Token) : Json :=
  .object [("id", .str t.id), ("execution_id", .str t.executionId), ("resume_at_node_id", .str t.resumeNodeId),
    ("resume_at", .str t.resumeAt.zuluText), ("context_snapshot", t.snapshot), ("created_at", .str t.createdAt.zuluText)]

end Lifecycle
