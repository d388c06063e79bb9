import Lifecycle.Engine.Records
import Lifecycle.Engine.Definitions

/-!
Walks: an execution goes from node to node along the connections that its handlers choose, until it
completes, fails or is suspended. Whoever finds that the record has moved on without him stops.
-/

namespace Lifecycle.Engine

open Time (Instant)

/-- How a run or a resumption ends. -/
inductive Result where
  | completed
  | suspended (resumeAt : Instant)
  | failed (nodeId message : String)
  | skipped
deriving DecidableEq, Repr

/-- A job with its fault, if it has one, as a result. -/
def settled {α : Type} (t : Attempt α) : Attempt (Except EngineFault α) := ExceptT.lift t.run

/-- Completes the execution. -/
def finish (record : Record) : Attempt Result := do
  return if ← moveTo .completed record.id then .completed else .skipped

/-- Fails the execution at a node. -/
def failAt (record : Record) (nodeId message : String) : Attempt Result := do
  let _ ← moveToFailed record.id nodeId message
  return .failed nodeId message

/-- Suspends the execution in front of `next`; if its token cannot be written, it fails at the delay. -/
def suspendAt (record : Record) (delay next : Step) (deadline : Instant) (context : Context) : Attempt Result := do
  match ← settled (suspend record.id next.id deadline context.toJson) with
  | .ok (some _) => return .suspended deadline
  | .ok none => return .skipped
  | .error e => failAt record delay.id (SchedulingFault.persist e).message

/-- The label of the connection that an outcome follows. -/
def Outcome.label : Outcome → Label
  | .proceed => .next
  | .branch true => .yes
  | .branch false => .no
  | .suspend _ => .next

/-- Walks from `step`, which every step of the way leaves for a lower node. -/
def walkFrom (workflow : Workflow) (record : Record) (step : Step) (context : Context) : Attempt Result := do
  let context := context.enter step.id (← now)
  match ← visit ⟨workflow, record, context, step⟩ with
  | .error f => failAt record step.id f.message
  | .ok (.suspend deadline) => match workflow.graph.successor? step.id .next with
    | some next => suspendAt record step next deadline context
    | none => finish record
  | .ok outcome => match _h : workflow.graph.successor? step.id outcome.label with
    | some next => walkFrom workflow record next context
    | none => finish record
termination_by workflow.graph.height step.id
decreasing_by exact Graph.height_successor? _h

/-- Runs a new execution from the entry of its workflow. -/
def runNew (workflow : Workflow) (record : Record) (context : Context) : Attempt Result := do
  if ← moveTo .running record.id then walkFrom workflow record workflow.graph.entry context
  else return .skipped

/-- The workflow and the context with which a token goes on. -/
def resumption (record : Record) (token : Token) : Job (Except SchedulingFault (Workflow × Step × Context)) := do
  match Context.ofSnapshot token.snapshot with
  | .error f => return .error (.snapshot f)
  | .ok context => match ← currentWorkflow record.workflowId with
    | none => return .error (.workflowMissing record.workflowId)
    | some w => match w.graph.node? token.resumeNodeId with
      | none => return .error (.nodeMissing record.workflowId token.resumeNodeId)
      | some step => return .ok (w, step, context)

/-- Goes on with a suspended execution where its token says. -/
def resume (token : Token) : Attempt Result := do
  match ← getRecord token.executionId with
  | none => return .skipped
  | some record =>
    if record.status ≠ .suspended then return .skipped
    match ← resumption record token with
    | .error e => failAt record token.resumeNodeId e.message
    | .ok (w, step, context) =>
      if ← moveTo .running record.id then walkFrom w record step context
      else return .skipped

/-! ### Sweeps -/

structure SweepTally where
  due : Nat := 0
  claimed : Nat := 0
  completed : Nat := 0
  suspended : Nat := 0
  failed : Nat := 0
  skipped : Nat := 0
deriving DecidableEq, Repr

/-- The report with one more result. -/
def SweepTally.count (r : SweepTally) : Except EngineFault Result → SweepTally
  | .ok .completed => { r with completed := r.completed + 1 }
  | .ok (.suspended _) => { r with suspended := r.suspended + 1 }
  | .ok (.failed _ _) | .error _ => { r with failed := r.failed + 1 }
  | .ok .skipped => { r with skipped := r.skipped + 1 }

/-- Claims the tokens one after the other, and resumes those that it gets. -/
def sweepTokens (report : SweepTally) : List Token → Job SweepTally
  | [] => pure report
  | t :: rest => do
    match ← (claim t.id).run with
    | .ok true =>
      let result ← (resume t).run
      sweepTokens ({ report with claimed := report.claimed + 1 }.count result) rest
    | .ok false => sweepTokens report rest
    | .error _ => sweepTokens { report with failed := report.failed + 1 } rest

/-- Resumes the tokens that are due, up to one batch; a batch holds at least one. -/
def sweep (batch : Nat) : Attempt SweepTally := do
  let tokens ← dueTokens (max batch 1)
  ExceptT.lift (sweepTokens { due := tokens.length } tokens)

end Lifecycle.Engine
