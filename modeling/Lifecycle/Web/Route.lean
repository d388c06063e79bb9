import Lifecycle.Text.Percent
import Lifecycle.Url.Address

/-!
Routes: what the path of a request names, and the methods that it answers to.
-/

namespace Lifecycle.Web

/-- What a path names; its parameters are still encoded. -/
inductive Route where
  | health
  | workflows
  | workflow (id : String)
  | activation (id : String) (active : Bool)
  | events
  | execution (id : String)
  | executionsOf (type id : String)
  | scan
  | sweep
deriving DecidableEq, Repr

namespace Route

/-- The path without the query. -/
def pathOnly (path : String) : List Char := path.toList.takeWhile fun c => c ≠ '?' ∧ c ≠ '#'

/-- The segments of a path that starts with a slash. -/
def segments (path : String) : List String :=
  match pathOnly path with
  | '/' :: rest => (Url.splitAt '/' rest).map String.ofList
  | _ => []

/-- The route of a path. The last segment is never empty. -/
def ofPath (path : String) : Option Route :=
  match segments path with
  | ["healthz"] => some .health
  | ["api", "workflows"] => some .workflows
  | ["api", "workflows", id] => if id = "" then none else some (.workflow id)
  | ["api", "workflows", id, "activate"] => some (.activation id true)
  | ["api", "workflows", id, "deactivate"] => some (.activation id false)
  | ["api", "events", "status-changed"] => some .events
  | ["api", "executions", id] => if id = "" then none else some (.execution id)
  | ["api", "targets", type, id, "executions"] => some (.executionsOf type id)
  | ["api", "scan"] => some .scan
  | ["api", "sweep"] => some .sweep
  | _ => none

/-- The methods that a route answers to. -/
def methods : Route → List String
  | .health => ["GET", "HEAD"]
  | .workflows => ["POST", "GET", "HEAD"]
  | .workflow _ => ["GET", "HEAD", "PUT", "DELETE"]
  | .activation _ _ => ["POST"]
  | .events => ["POST"]
  | .execution _ => ["GET", "HEAD"]
  | .executionsOf _ _ => ["GET", "HEAD"]
  | .scan => ["POST"]
  | .sweep => ["POST"]

/-- The route with its parameters decoded; none if one is no text. -/
def decoded? : Route → Option Route
  | .workflow id => (Text.percentDecoded? id).map .workflow
  | .activation id active => (Text.percentDecoded? id).map (.activation · active)
  | .execution id => (Text.percentDecoded? id).map .execution
  | .executionsOf type id => do return .executionsOf (← Text.percentDecoded? type) (← Text.percentDecoded? id)
  | r => some r

end Route

end Lifecycle.Web
