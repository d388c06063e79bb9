import Lifecycle.Text.Blank
import Lifecycle.Time.Span
import Lifecycle.Url.Parser
import Lifecycle.Workflow.Definition

/-!
What the nodes of a workflow do: their configurations as typed values, read strictly from the
free-form ones, and written back in one canonical form.
-/

namespace Lifecycle

open Json (Decoder Fields)
open Time (TimeUnit Span)

/-! ### Units, comparisons and methods -/

def Time.TimeUnit.decoder : Decoder TimeUnit :=
  Decoder.variant [("minute", .minutes), ("minutes", .minutes), ("hour", .hours), ("hours", .hours),
    ("day", .days), ("days", .days)]

/-- Comparisons of whole numbers. -/
inductive Comparison where
  | gte | gt | lte | lt | eq
deriving DecidableEq, Repr

namespace Comparison

def name : Comparison → String
  | .gte => "gte"
  | .gt => "gt"
  | .lte => "lte"
  | .lt => "lt"
  | .eq => "eq"

def holds : Comparison → Int → Int → Bool
  | .gte, a, b => b ≤ a
  | .gt, a, b => b < a
  | .lte, a, b => a ≤ b
  | .lt, a, b => a < b
  | .eq, a, b => a = b

def decoder : Decoder Comparison :=
  Decoder.variant [(">=", .gte), ("gte", .gte), (">", .gt), ("gt", .gt), ("<=", .lte), ("lte", .lte),
    ("<", .lt), ("lt", .lt), ("=", .eq), ("==", .eq), ("eq", .eq)]

end Comparison

/-- The methods of outbound requests. -/
inductive Method where
  | get | post | put | patch | delete
deriving DecidableEq, Repr

namespace Method

def name : Method → String
  | .get => "GET"
  | .post => "POST"
  | .put => "PUT"
  | .patch => "PATCH"
  | .delete => "DELETE"

def decoder : Decoder Method :=
  Decoder.variant [("GET", .get), ("get", .get), ("POST", .post), ("post", .post), ("PUT", .put), ("put", .put),
    ("PATCH", .patch), ("patch", .patch), ("DELETE", .delete), ("delete", .delete)]

end Method

/-! ### Configurations -/

/-- Mail to the owner of the target; `subject` replaces the one of the template. -/
structure Email where
  templateId : String
  subject : Option String
deriving DecidableEq, Repr

/-- A pause of at least `duration` units. -/
structure Delay where
  duration : Nat
  unit : TimeUnit
deriving DecidableEq, Repr

def Delay.span (d : Delay) : Option Span := d.unit.span d.duration

/-- A question about the target. -/
inductive Predicate where
  | statusEquals (status : String)
  | stuckDuration (operator : Comparison) (threshold : Int) (unit : TimeUnit)
  | fieldEquals (field : String) (value : Json)
deriving DecidableEq, Repr

/-- An outbound request; without a body it describes the execution. -/
structure Webhook where
  url : String
  method : Method
  headers : List (String × String)  -- by ascending names
  body : Option Json
deriving DecidableEq, Repr

/-- A value for a field of the target. -/
structure Mutation where
  field : String
  value : Json
deriving DecidableEq, Repr

/-- A label for the target. -/
structure Tagging where
  label : String
deriving DecidableEq, Repr

/-- What a node does. -/
inductive Kind where
  | trigger
  | email (e : Email)
  | delay (d : Delay)
  | condition (p : Predicate)
  | webhook (w : Webhook)
  | mutateTarget (m : Mutation)
  | tagTarget (t : Tagging)
deriving DecidableEq, Repr

def Kind.type : Kind → NodeType
  | .trigger => .trigger
  | .email _ => .email
  | .delay _ => .delay
  | .condition _ => .condition
  | .webhook _ => .webhook
  | .mutateTarget _ => .mutateTarget
  | .tagTarget _ => .tagTarget

/-! ### Faults -/

/-- What is wrong with a configuration. -/
inductive ConfigFault where
  | undecodable (f : Json.Fault)
  | blankTemplate | zeroDuration | longDuration
  | noStatus | noThreshold | noField
  | url (text : String) (f : Url.Fault)
  | blankField | blankLabel
deriving DecidableEq, Repr

def ConfigFault.message : ConfigFault → String
  | .undecodable f => f.message
  | .blankTemplate => "templateId must not be empty"
  | .zeroDuration => "duration must be greater than zero"
  | .longDuration => "duration is out of range"
  | .noStatus => "status_equals needs a non-empty string conditionValue"
  | .noThreshold => "stuck_duration needs a non-negative integer conditionValue"
  | .noField => "field_equals needs a 'field'"
  | .url text f => "invalid url '" ++ text ++ "': " ++ f.message
  | .blankField => "field must not be empty"
  | .blankLabel => "value must not be empty"

/-! ### Reading -/

def Email.decoder : Decoder Email :=
  (Email.mk <$> Fields.required "templateId" Decoder.string
    <*> Fields.optional "subject" Decoder.string).record "EmailConfig" true

def Delay.decoder : Decoder Delay :=
  (Delay.mk <$> Fields.required "duration" (Decoder.unsigned 64)
    <*> Fields.required "unit" TimeUnit.decoder).record "DelayConfig" true

/-- The sorted entries of a map of texts; of one name the last. -/
def sortedTexts (entries : List (String × String)) : List (String × String) :=
  entries.foldl (fun sorted e => insert e sorted) []
where
  insert (e : String × String) : List (String × String) → List (String × String)
    | [] => [e]
    | f :: rest => if e.1 < f.1 then e :: f :: rest else if e.1 = f.1 then e :: rest else f :: insert e rest

def headersDecoder : Decoder (List (String × String)) :=
  fun levels d => (Decoder.map Decoder.string levels d).map sortedTexts

def Webhook.decoder : Decoder Webhook :=
  (Webhook.mk <$> Fields.required "url" Decoder.string <*> Fields.withDefault "method" Method.decoder .post
    <*> Fields.withDefault "headers" headersDecoder []
    <*> Fields.optional "body" Decoder.json).record "WebhookConfig" true

def Mutation.decoder : Decoder Mutation :=
  (Mutation.mk <$> Fields.required "field" Decoder.string
    <*> Fields.required "value" Decoder.json).record "MutateTargetConfig" true

def Tagging.decoder : Decoder Tagging :=
  (Tagging.mk <$> Fields.field ["value", "tag"] Decoder.string none).record "TagTargetConfig" true

/-- The forms of conditions. -/
inductive Predicate.Form where
  | statusEquals | stuckDuration | fieldEquals
deriving DecidableEq, Repr

/-- A condition as its author writes it. -/
structure Predicate.Draft where
  form : Predicate.Form
  value : Json
  field : Option String
  operator : Option Comparison
  unit : Option TimeUnit

def Predicate.Draft.decoder : Decoder Predicate.Draft :=
  (Predicate.Draft.mk
    <$> Fields.required "conditionType" (Decoder.variant
      [("status_equals", .statusEquals), ("stuck_duration", .stuckDuration), ("field_equals", .fieldEquals)])
    <*> Fields.required "conditionValue" Decoder.json
    <*> Fields.optional "field" Decoder.string
    <*> Fields.optional "operator" Comparison.decoder
    <*> Fields.optional "unit" TimeUnit.decoder).record "ConditionConfig" true

/-- The whole number that a value is or, as a text, holds; none beyond 64 bits. -/
def wholeNumber? : Json → Option Int
  | .num (.int n) => if n < Text.int64Bound then some n else none
  | .str s => Text.int64? (Text.trim s)
  | _ => none

/-- The question that a condition asks: a missing operator is `gte`, a missing unit days. -/
def Predicate.Draft.predicate (d : Predicate.Draft) : Except ConfigFault Predicate :=
  match d.form with
  | .statusEquals => match d.value with
    | .str s => if s.isEmpty then .error .noStatus else .ok (.statusEquals s)
    | _ => .error .noStatus
  | .stuckDuration => match (wholeNumber? d.value).filter (0 ≤ ·) with
    | some n => .ok (.stuckDuration (d.operator.getD .gte) n (d.unit.getD .days))
    | none => .error .noThreshold
  | .fieldEquals => match d.field.filter (!Text.isBlank ·) with
    | some f => .ok (.fieldEquals f d.value)
    | none => .error .noField

/-- A configuration read by `dec`; none at all counts as an empty one. -/
def readConfig {α : Type} (dec : Decoder α) (config : Json) : Except ConfigFault α :=
  (dec.ofValue (if config.isNull then .obj [] else config)).mapError .undecodable

/-- What a node of type `type` with the configuration `config` does. -/
def Kind.read (type : NodeType) (config : Json) : Except ConfigFault Kind :=
  match type with
  | .trigger => .ok .trigger
  | .email => do
    let e ← readConfig Email.decoder config
    if Text.isBlank e.templateId then .error .blankTemplate else return .email e
  | .delay => do
    let d ← readConfig Delay.decoder config
    if d.duration = 0 then .error .zeroDuration
    else if d.span.isNone then .error .longDuration
    else return .delay d
  | .condition => do
    let c ← readConfig Predicate.Draft.decoder config
    return .condition (← c.predicate)
  | .webhook => do
    let w ← readConfig Webhook.decoder config
    match Url.parse w.url with
    | .error f => .error (.url w.url f)
    | .ok _ => return .webhook w
  | .mutateTarget => do
    let m ← readConfig Mutation.decoder config
    if Text.isBlank m.field then .error .blankField else return .mutateTarget m
  | .tagTarget => do
    let t ← readConfig Tagging.decoder config
    if Text.isBlank t.label then .error .blankLabel else return .tagTarget t

/-! ### Writing -/

def Email.toJson (e : Email) : Json := .object [("templateId", .str e.templateId), ("subject", .optional e.subject)]

def Delay.toJson (d : Delay) : Json := .object [("duration", .int d.duration), ("unit", .str d.unit.name)]

def Webhook.toJson (w : Webhook) : Json :=
  .object [("url", .str w.url), ("method", .str w.method.name),
    ("headers", .object (w.headers.map fun (k, v) => (k, .str v))), ("body", w.body.getD .null)]

def Mutation.toJson (m : Mutation) : Json := .object [("field", .str m.field), ("value", m.value)]

def Tagging.toJson (t : Tagging) : Json := .object [("value", .str t.label)]

/-- The canonical configuration of a node; conditions and triggers have none. -/
def Kind.config? : Kind → Option Json
  | .email e => some e.toJson
  | .delay d => some d.toJson
  | .webhook w => some w.toJson
  | .mutateTarget m => some m.toJson
  | .tagTarget t => some t.toJson
  | .trigger | .condition _ => none

end Lifecycle
