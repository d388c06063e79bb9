import Lifecycle.Engine.Walk

/-!
Starting workflows: for a change of status that was reported, and for entities that a scan finds too
long in one status. What goes wrong with one of them does not keep the others from starting.
-/

namespace Lifecycle.Engine

open Time (Instant)

/-- A change of the status of a target. -/
structure Event where
  target : Target
  source : String
  destination : String
deriving DecidableEq, Repr

/-- Starts a workflow on a target and runs it; false where it runs only once and has. -/
def launch (workflow : Workflow) (target : Target) (type : TriggerType) (runOnce : Bool) (context : Context) :
    Attempt Bool := do
  let start ← start workflow.id target type runOnce
  if start.started then
    let _ ← runNew workflow start.record context
    return true
  else return false

/-! ### Events -/

structure DispatchTally where
  matched : Nat := 0
  started : Nat := 0
  skipped : Nat := 0
  failed : Nat := 0
deriving DecidableEq, Repr

/-- The report with one more start. -/
def DispatchTally.count (r : DispatchTally) : Except EngineFault Bool → DispatchTally
  | .ok true => { r with started := r.started + 1 }
  | .ok false => { r with skipped := r.skipped + 1 }
  | .error _ => { r with failed := r.failed + 1 }

/-- Starts every one of the workflows. -/
def dispatchAll (e : Event) (report : DispatchTally) : List Workflow → Job DispatchTally
  | [] => pure report
  | w :: rest => do
    let result ← (launch w e.target .statusChanged w.trigger.runOnce (.ofChange e.source e.destination)).run
    dispatchAll e (report.count result) rest

/-- Starts every active workflow that an event starts. -/
def dispatch (e : Event) : Job DispatchTally := do
  let active ← activeNow .statusChanged
  let matching := active.filter fun w => w.trigger.admits e.target.type e.source e.destination
  dispatchAll e { matched := matching.length } matching

/-! ### Scans -/

structure ScanTally where
  workflows : Nat := 0
  candidates : Nat := 0
  started : Nat := 0
  skipped : Nat := 0
  failed : Nat := 0
deriving DecidableEq, Repr

/-- The report with one more start. -/
def ScanTally.count (r : ScanTally) : Except EngineFault Bool → ScanTally
  | .ok true => { r with started := r.started + 1 }
  | .ok false => { r with skipped := r.skipped + 1 }
  | .error _ => { r with failed := r.failed + 1 }

/-- Starts a workflow on every entity found in a status since `cutoff` or longer. -/
def scanFound (w : Workflow) (type : TargetType) (status : String) (cutoff : Instant) (runOnce : Bool)
    (report : ScanTally) : List String → Job ScanTally
  | [] => pure report
  | id :: rest => do
    let since : Instant := match ← target type (.changedAt id) with
      | .ok (some t) => t
      | _ => cutoff
    let result ← (launch w ⟨type, id⟩ .stuckAtStatus runOnce (.ofStuck status since)).run
    scanFound w type status cutoff runOnce ({ report with candidates := report.candidates + 1 }.count result) rest

/-- Scans the collections of some types. -/
def scanTypes (w : Workflow) (status : String) (cutoff : Instant) (runOnce : Bool) (report : ScanTally) :
    List TargetType → Job ScanTally
  | [] => pure report
  | type :: rest => do
    match ← target type (.find status cutoff) with
    | .ok ids =>
      let report ← scanFound w type status cutoff runOnce report ids
      scanTypes w status cutoff runOnce report rest
    | .error _ => scanTypes w status cutoff runOnce { report with failed := report.failed + 1 } rest

/-- Scans for one workflow, among the types that are registered. -/
def scanFor (types : List TargetType) (w : Workflow) (report : ScanTally) : Job ScanTally := do
  match w.trigger with
  | .statusChanged _ _ _ _ => return report
  | .stuckAtStatus type status threshold runOnce =>
    match (← now).earlier? threshold with
    | none => return report
    | some cutoff => scanTypes w status cutoff runOnce report (types.filter fun t => type.all (· == t))

/-- Scans for the workflows one after the other. -/
def scanAll (types : List TargetType) (report : ScanTally) : List Workflow → Job ScanTally
  | [] => pure report
  | w :: rest => do
    let report ← scanFor types w { report with workflows := report.workflows + 1 }
    scanAll types report rest

/-- Starts every active workflow that waits for a lasting status on the entities that are in it. -/
def scan (types : List TargetType) : Job ScanTally := do
  scanAll types {} (← activeNow .stuckAtStatus)

end Lifecycle.Engine
