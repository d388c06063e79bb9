import Lifecycle.Engine.Triggers

/-!
The JSON forms of what the jobs of the engine report.
-/

namespace Lifecycle.Engine

def Listing.toJson (l : Listing) : Json :=
  .object [("id", .str l.id), ("name", .str l.name), ("trigger_type", .str l.triggerType), ("active", .bool l.active)]

def DispatchTally.toJson (r : DispatchTally) : Json :=
  .object [("matched", .int r.matched), ("started", .int r.started), ("skipped", .int r.skipped), ("failed", .int r.failed)]

def ScanTally.toJson (r : ScanTally) : Json :=
  .object [("workflows_scanned", .int r.workflows), ("candidates", .int r.candidates), ("started", .int r.started),
    ("skipped", .int r.skipped), ("failed", .int r.failed)]

def SweepTally.toJson (r : SweepTally) : Json :=
  .object [("due", .int r.due), ("claimed", .int r.claimed), ("completed", .int r.completed),
    ("suspended", .int r.suspended), ("failed", .int r.failed), ("skipped", .int r.skipped)]

def Result.toJson : Result → Json
  | .completed => .object [("outcome", .str "completed")]
  | .suspended t => .object [("outcome", .str "suspended"), ("resume_at", .str t.zuluText)]
  | .failed nodeId message => .object [("outcome", .str "failed"), ("node_id", .str nodeId), ("error", .str message)]
  | .skipped => .object [("outcome", .str "skipped")]

end Lifecycle.Engine
