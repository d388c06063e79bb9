/-!
The closed sets of names that workflows, records and requests use.
-/

namespace Lifecycle

/-- A text that names nothing of its kind. -/
structure Unrecognized where
  noun : String
  text : String
deriving DecidableEq, Repr

def Unrecognized.message (u : Unrecognized) : String := "unknown " ++ u.noun ++ ": " ++ u.text

/-- The element of `all` with the name `text`. -/
def recognize {α : Type} (noun : String) (all : List α) (name : α → String) (text : String) : Except Unrecognized α :=
  match all.find? (name · == text) with
  | some a => .ok a
  | none => .error ⟨noun, text⟩

/-- The kinds of node. -/
inductive NodeType where
  | trigger | email | delay | condition | webhook | mutateTarget | tagTarget
deriving DecidableEq, Repr

namespace NodeType

def all : List NodeType := [.trigger, .email, .delay, .condition, .webhook, .mutateTarget, .tagTarget]

def name : NodeType → String
  | .trigger => "trigger"
  | .email => "email"
  | .delay => "delay"
  | .condition => "condition"
  | .webhook => "webhook"
  | .mutateTarget => "mutate_target"
  | .tagTarget => "tag_target"

end NodeType

/-- The labels of connections: `yes` and `no` leave conditions, `next` everything else. -/
inductive Label where
  | next | yes | no
deriving DecidableEq, Repr

namespace Label

def all : List Label := [.next, .yes, .no]

def name : Label → String
  | .next => "next"
  | .yes => "yes"
  | .no => "no"

end Label

/-- What starts a workflow: a change of status, or a status that lasts. -/
inductive TriggerType where
  | statusChanged | stuckAtStatus
deriving DecidableEq, Repr

namespace TriggerType

def all : List TriggerType := [.statusChanged, .stuckAtStatus]

def name : TriggerType → String
  | .statusChanged => "status_changed"
  | .stuckAtStatus => "stuck_at_status"

def ofName (text : String) : Except Unrecognized TriggerType := recognize "trigger type" all name text

end TriggerType

/-- The collections of entities that workflows act on. -/
inductive TargetType where
  | application | contract
deriving DecidableEq, Repr

namespace TargetType

def all : List TargetType := [.application, .contract]

def name : TargetType → String
  | .application => "application"
  | .contract => "contract"

def ofName (text : String) : Except Unrecognized TargetType := recognize "target type" all name text

end TargetType

/-- One entity. -/
structure Target where
  type : TargetType
  id : String
deriving DecidableEq, Repr

def Target.text (t : Target) : String := t.type.name ++ "/" ++ t.id

end Lifecycle
