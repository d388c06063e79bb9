import Lifecycle.Json.Record
import Lifecycle.Workflow.Names

/-!
Workflow definitions as their authors write them: nodes with free-form configurations, labelled
connections and free-form trigger conditions; and their JSON form.
-/

namespace Lifecycle

open Json (Decoder Fields)

structure Node where
  id : String
  type : NodeType
  config : Json
  position : Option Json  -- where an editor draws it
deriving DecidableEq, Repr

structure Connection where
  source : String
  target : String
  label : Label
deriving DecidableEq, Repr

structure Definition where
  id : String
  name : String
  triggerType : TriggerType
  triggerConditions : Json.Members
  active : Bool
  nodes : List Node
  connections : List Connection
deriving DecidableEq, Repr

/-! ### Reading -/

/-- The names of a closed set as alternatives. -/
def alternativesOf {α : Type} (all : List α) (name : α → String) : List (String × α) := all.map fun a => (name a, a)

def NodeType.decoder : Decoder NodeType := Decoder.variant (alternativesOf all name)

def Label.decoder : Decoder Label := Decoder.variant (alternativesOf all name)

def TriggerType.decoder : Decoder TriggerType := Decoder.variant (alternativesOf all name)

def TargetType.decoder : Decoder TargetType := Decoder.variant (alternativesOf all name)

def Node.fields : Fields Node :=
  Node.mk <$> Fields.required "id" Decoder.string <*> Fields.required "type" NodeType.decoder
    <*> Fields.withDefault "config" Decoder.json .null <*> Fields.optional "position" Decoder.json

def Node.decoder : Decoder Node := Node.fields.record "Node" false

def Connection.fields : Fields Connection :=
  Connection.mk <$> Fields.required "from" Decoder.string <*> Fields.required "to" Decoder.string
    <*> Fields.withDefault "type" Label.decoder .next

def Connection.decoder : Decoder Connection := Connection.fields.record "Connection" false

def Definition.fields : Fields Definition :=
  Definition.mk <$> Fields.required "id" Decoder.string <*> Fields.required "name" Decoder.string
    <*> Fields.required "triggerType" TriggerType.decoder
    <*> Fields.withDefault "triggerConditions" Decoder.members []
    <*> Fields.withDefault "active" Decoder.boolean true
    <*> Fields.required "nodes" (Decoder.list Node.decoder)
    <*> Fields.withDefault "connections" (Decoder.list Connection.decoder) []

def Definition.decoder : Decoder Definition := Definition.fields.record "WorkflowDefinition" false

/-! ### Writing -/

def Node.toJson (n : Node) : Json :=
  .object ([("id", .str n.id), ("type", .str n.type.name), ("config", n.config)] ++
    (n.position.map fun p => ("position", p)).toList)

def Connection.toJson (c : Connection) : Json :=
  .object [("from", .str c.source), ("to", .str c.target), ("type", .str c.label.name)]

def Definition.toJson (d : Definition) : Json :=
  .object [("id", .str d.id), ("name", .str d.name), ("triggerType", .str d.triggerType.name),
    ("triggerConditions", .obj d.triggerConditions), ("active", .bool d.active),
    ("nodes", .arr (d.nodes.map Node.toJson)), ("connections", .arr (d.connections.map Connection.toJson))]

/-- The text under which a definition is stored. -/
def Definition.text (d : Definition) : String := d.toJson.print

/-- The definition that a stored text holds. -/
def Definition.ofText (text : String) : Except Json.Fault Definition := Definition.decoder.ofText text

end Lifecycle
