import Lifecycle.Json.Record
import Lifecycle.Time.Span
import Lifecycle.Workflow.Names

/-!
How long a handler may take, by the type of its node.
-/

namespace Lifecycle

open Json (Decoder Fields)

/-- Limits in milliseconds. -/
structure Timeouts where
  email : Nat
  webhook : Nat
  mutation : Nat
  condition : Nat
deriving DecidableEq, Repr

namespace Timeouts

def standard : Timeouts := ⟨30000, 30000, 10000, 10000⟩

/-- The limit for a type of node; none for those that call nobody. -/
def limit? (t : Timeouts) : NodeType → Option Nat
  | .email => some t.email
  | .webhook => some t.webhook
  | .mutateTarget | .tagTarget => some t.mutation
  | .condition => some t.condition
  | .trigger | .delay => none

def decoder : Decoder Timeouts :=
  (Timeouts.mk <$> Fields.required "email" (Decoder.unsigned 64) <*> Fields.required "webhook" (Decoder.unsigned 64)
    <*> Fields.required "mutation" (Decoder.unsigned 64)
    <*> Fields.required "condition" (Decoder.unsigned 64)).record "NodeTimeouts" false

def toJson (t : Timeouts) : Json :=
  .object [("email", .int t.email), ("webhook", .int t.webhook), ("mutation", .int t.mutation),
    ("condition", .int t.condition)]

end Timeouts

end Lifecycle
