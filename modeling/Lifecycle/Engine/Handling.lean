import Lifecycle.Engine.Request

/-!
Handlers: what visiting a node does through the collaborators of a host, and how the walk goes on.
-/

namespace Lifecycle.Handling

open Engine (Visit Outcome)
open Time (Instant)

/-- What handlers ask of the host. -/
inductive Request where
  | now
  | target (type : TargetType) (c : Target.Call)
  | template (id : String)
  | deliver (m : Mail.Message)
  | send (r : Http.Outbound)

def Request.Answer : Request → Type
  | now => Instant
  | target _ c => c.Answer
  | template _ => Except Mail.TemplateFault Mail.Source
  | deliver _ => Except Mail.DeliveryFault Unit
  | send _ => Except Http.NetworkFault Http.Response

def interface : Interface := ⟨Request, Request.Answer⟩

/-- A handler that may fail. -/
abbrev Attempt (α : Type) := ExceptT HandlerFault (Program interface) α

def now : Attempt Instant := ExceptT.lift (Program.call (P := interface) .now)

/-- A call on the target of the execution. -/
def onTarget (types : List TargetType) (v : Visit) (c : Target.Call) : Attempt c.Value :=
  if types.contains v.record.target.type then ExceptT.mk do
    let answer : c.Answer ← Program.call (P := interface) (.target v.record.target.type c)
    return answer.mapError .target
  else throw (.noAccessor v.record.target.type)

def template (id : String) : Attempt Mail.Source := ExceptT.mk do
  let answer : Except Mail.TemplateFault Mail.Source ← Program.call (P := interface) (.template id)
  return answer.mapError .template

def deliver (m : Mail.Message) : Attempt Unit := ExceptT.mk do
  let answer : Except Mail.DeliveryFault Unit ← Program.call (P := interface) (.deliver m)
  return answer.mapError .delivery

def send (r : Http.Outbound) : Attempt Http.Response := ExceptT.mk do
  let answer : Except Http.NetworkFault Http.Response ← Program.call (P := interface) (.send r)
  return answer.mapError .network

/-! ### Mail -/

/-- What a template sees. -/
def mailContext (v : Visit) (recipient : String) (target : Json) : Json :=
  .object [("target", target), ("user", .object [("email", .str recipient)]),
    ("workflowMeta", .object [("id", .str v.workflow.id), ("name", .str v.workflow.definition.name),
      ("executionId", .str v.record.id)]),
    ("trigger", .obj v.context.trigger)]

/-- Mails a template to the owner of the target. -/
def mail (types : List TargetType) (e : Email) (v : Visit) : Attempt Outcome := do
  match ← onTarget types v (.email v.record.target.id) with
  | none => throw .noRecipient
  | some recipient =>
    let view : Json ← onTarget types v (.view v.record.target.id)
    let source ← template e.templateId
    let rendered ← ExceptT.mk (pure ((source.render (mailContext v recipient view)).mapError .template))
    deliver ⟨recipient, e.subject.getD rendered.subject, rendered.content⟩
    return .proceed

/-! ### Conditions -/

/-- Equal values, or equal texts once texts and other values are written out. -/
def alike (a b : Json) : Bool :=
  let text (j : Json) : String := match j with
    | .str s => s
    | other => other.print
  a.same b || text a == text b

/-- The answer to a question about the target. -/
def answer (types : List TargetType) (v : Visit) : Predicate → Attempt Bool
  | .statusEquals status => do
    let current : Option String ← onTarget types v (.status v.record.target.id)
    return current == some status
  | .stuckDuration operator threshold unit => do
    let changed : Option Instant ← onTarget types v (.changedAt v.record.target.id)
    match changed with
    | none => return false
    | some t => return operator.holds (unit.unitsIn ((← now).since t)) threshold
  | .fieldEquals field value => do
    let actual : Option Json ← onTarget types v (.field v.record.target.id field)
    match actual with
    | none | some .null => return false
    | some actual => return alike actual value

/-! ### Requests -/

/-- The body of a request that has none of its own. -/
def description (v : Visit) : Json :=
  .object [("workflow", .object [("id", .str v.workflow.id), ("name", .str v.workflow.definition.name)]),
    ("execution", .object [("id", .str v.record.id), ("triggerType", .str v.record.triggerType.name)]),
    ("target", v.record.target.toJson), ("trigger", .obj v.context.trigger)]

/-- Calls a webhook, which has to report success. -/
def invoke (w : Webhook) (v : Visit) : Attempt Outcome := do
  let response ← send ⟨w.url, w.method, w.headers, some (w.body.getD (description v))⟩
  if Http.succeeds response.status then return .proceed else throw (.status response.status)

/-! ### All nodes -/

/-- The end of a delay that starts now: the last instant if the calendar ends before it. -/
def delayEnd (d : Delay) (now : Instant) : Instant := (now.later? (d.span.getD ⟨0⟩)).getD .last

/-- What visiting a node does. -/
def handle (types : List TargetType) (v : Visit) : Attempt Outcome :=
  match v.step.kind with
  | .trigger => return .proceed
  | .email e => mail types e v
  | .delay d => return .suspend (delayEnd d (← now))
  | .condition p => return .branch (← answer types v p)
  | .webhook w => invoke w v
  | .mutateTarget m => do
    let _ ← onTarget types v (.putField v.record.target.id m.field m.value)
    return .proceed
  | .tagTarget t => do
    let _ ← onTarget types v (.tag v.record.target.id t.label)
    return .proceed

end Lifecycle.Handling
