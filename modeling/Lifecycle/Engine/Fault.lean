import Lifecycle.Http.Exchange
import Lifecycle.Mail.Message
import Lifecycle.Store.Row
import Lifecycle.Target.Call
import Lifecycle.Time.Span
import Lifecycle.Workflow.Graph

/-!
What the engine can fail of: in one handler, in resuming a token, in the database, or in storage.
-/

namespace Lifecycle

/-- Why the handler of a node fails. It ends the execution. -/
inductive HandlerFault where
  | template (f : Mail.TemplateFault)
  | delivery (f : Mail.DeliveryFault)
  | noRecipient
  | network (f : Http.NetworkFault)
  | status (code : Nat)
  | target (f : Target.Fault)
  | noAccessor (type : TargetType)
  | timeout (type : NodeType) (millis : Nat)
deriving DecidableEq, Repr

def HandlerFault.message : HandlerFault → String
  | .template f => "template error: " ++ f.message
  | .delivery f => "mail delivery failed: " ++ f.message
  | .noRecipient => "target has no owner email address"
  | .network f => "webhook request failed: " ++ f.message
  | .status code => "webhook returned non-success status " ++ toString code
  | .target f => "target access failed: " ++ f.message
  | .noAccessor type => "no accessor registered for target type '" ++ type.name ++ "'"
  | .timeout type millis => type.name ++ " handler timed out after " ++ Time.millisText millis

/-- Why the engine itself fails. -/
inductive EngineFault where
  | database (f : Store.Fault)
  | corrupt (reason : String)
deriving DecidableEq, Repr

def EngineFault.message : EngineFault → String
  | .database f => "database error: " ++ f.message
  | .corrupt reason => "corrupt row: " ++ reason

/-- Why a token cannot be resumed or written. -/
inductive SchedulingFault where
  | workflowMissing (id : String)
  | nodeMissing (workflowId nodeId : String)
  | snapshot (f : Json.Fault)
  | persist (f : EngineFault)
deriving DecidableEq, Repr

def SchedulingFault.message : SchedulingFault → String
  | .workflowMissing id => "workflow '" ++ id ++ "' no longer exists"
  | .nodeMissing workflowId nodeId => "node '" ++ nodeId ++ "' no longer exists in workflow '" ++ workflowId ++ "'"
  | .snapshot f => "context snapshot is unreadable: " ++ f.message
  | .persist f => "could not persist continuation: " ++ f.message

/-- Why a workflow could not be started on a target. -/
structure DispatchFault where
  workflowId : String
  target : Target
  reason : EngineFault
deriving DecidableEq, Repr

def DispatchFault.message (f : DispatchFault) : String :=
  "dispatch of workflow '" ++ f.workflowId ++ "' for " ++ f.target.text ++ " failed: " ++ f.reason.message

/-- Why storage does not yield a workflow. -/
inductive StorageFault where
  | store (f : Store.Fault)
  | undecodable (text : String) (f : Json.Fault)
  | missing (id : String)
  | defect (d : Defect)
deriving DecidableEq, Repr

def StorageFault.message : StorageFault → String
  | .store f => f.message
  | .undecodable text f => f.messageIn text
  | .missing id => "Workflow not found: " ++ id
  | .defect d => d.message

end Lifecycle
