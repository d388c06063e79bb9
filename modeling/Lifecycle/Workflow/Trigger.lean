import Lifecycle.Text.Ascii
import Lifecycle.Workflow.Kind

/-!
Triggers: when a workflow starts, read from the conditions of its definition.
-/

namespace Lifecycle

open Json (Decoder Fields)
open Time (TimeUnit Span)

/-- Which statuses a condition admits. -/
inductive Pattern where
  | any
  | exact (status : String)
deriving DecidableEq, Repr

/-- No text, the empty one, a star and the word `any` admit every status. -/
def Pattern.ofText : Option String → Pattern
  | none => .any
  | some s => if s = "" ∨ s = "*" ∨ Text.lowerAscii s = "any" then .any else .exact s

def Pattern.admits : Pattern → String → Bool
  | .any, _ => true
  | .exact s, status => s == status

/-- What starts a workflow. Without a target type every type counts. -/
inductive Trigger where
  | statusChanged (targetType : Option TargetType) (source target : Pattern) (runOnce : Bool)
  | stuckAtStatus (targetType : Option TargetType) (status : String) (threshold : Span) (runOnce : Bool)
deriving DecidableEq, Repr

namespace Trigger

/-- What is wrong with trigger conditions. -/
inductive Fault where
  | undecodable (f : Json.Fault)
  | blankStatus
  | longDuration
deriving DecidableEq, Repr

def Fault.message : Fault → String
  | .undecodable f => f.message
  | .blankStatus => "stuckStatus must not be empty"
  | .longDuration => "duration is out of range"

/-- The conditions on a change of status. -/
def changeDecoder : Decoder Trigger :=
  ((fun source target type once => Trigger.statusChanged type (.ofText source) (.ofText target) once)
    <$> Fields.optional "from" Decoder.string <*> Fields.optional "to" Decoder.string
    <*> Fields.optional "targetType" TargetType.decoder
    <*> Fields.withDefault "runOnce" Decoder.boolean false).record "StatusChangedConditions" true

/-- The conditions on a status that lasts, as their author writes them. -/
structure Stuck where
  status : String
  duration : Nat
  unit : TimeUnit
  targetType : Option TargetType
  runOnce : Bool

def Stuck.decoder : Decoder Stuck :=
  (Stuck.mk <$> Fields.required "stuckStatus" Decoder.string
    <*> Fields.required "duration" (Decoder.unsigned 64)
    <*> Fields.withDefault "unit" TimeUnit.decoder .days
    <*> Fields.optional "targetType" TargetType.decoder
    <*> Fields.withDefault "runOnce" Decoder.boolean false).record "StuckConditions" true

/-- The trigger of a type under its conditions. -/
def read (type : TriggerType) (conditions : Json.Members) : Except Fault Trigger :=
  match type with
  | .statusChanged => (changeDecoder.ofValue (.obj conditions)).mapError .undecodable
  | .stuckAtStatus => do
    let s ← (Stuck.decoder.ofValue (.obj conditions)).mapError .undecodable
    if Text.isBlank s.status then .error .blankStatus
    else match s.unit.span s.duration with
      | none => .error .longDuration
      | some threshold => return .stuckAtStatus s.targetType s.status threshold s.runOnce

def runOnce : Trigger → Bool
  | .statusChanged _ _ _ once => once
  | .stuckAtStatus _ _ _ once => once

/-- Does the change of an entity of type `type` from status `a` to `b` start the workflow? -/
def admits (t : Trigger) (type : TargetType) (a b : String) : Bool :=
  match t with
  | .statusChanged wanted source target _ => wanted.all (· == type) && source.admits a && target.admits b
  | .stuckAtStatus _ _ _ _ => false

end Trigger

end Lifecycle
