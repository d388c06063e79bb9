import Lifecycle.Web.Route
import Lifecycle.Engine.Report
import Lifecycle.Http.MediaType
import Lifecycle.Http.RequestTarget

/-!
The requests that a server answers: definitions are created, read, replaced, deleted and switched;
events are taken in; executions are shown; and a scan or a sweep is made on demand.
-/

namespace Lifecycle.Web

open Engine (Job Event)
open Json (Decoder Fields)

/-! ### Requests and replies -/

structure Request where
  method : String
  path : String
  contentType : Option String
  body : String

/-- The request that comes in with a method, a target and a type of content; none where a line of it may
not be sent. -/
def Request.ofWire? (method target : String) (contentType : Option String) (body : String) : Option Request :=
  if method.isEmpty || !method.toList.all Http.nameChar || !contentType.all (·.toList.all Http.valueChar) then none
  else (Http.namedPath? target).map (⟨method, ·, contentType, body⟩)

inductive Body where
  | json (j : Json)
  | text (s : String)
  | empty
deriving DecidableEq, Repr

/-- A reply, and the event that is dispatched once it is sent. -/
structure Reply where
  status : Nat
  body : Body
  event : Option Event
deriving DecidableEq, Repr

def reply (status : Nat) (j : Json) : Reply := ⟨status, .json j, none⟩

def ok (j : Json) : Reply := reply 200 j

/-- A reply without a body of its own. -/
def bare (status : Nat) : Reply := ⟨status, .empty, none⟩

def refuse (status : Nat) (message : String) : Reply := reply status (.object [("error", .str message)])

/-- The reply when storage or the database fails: what failed, but not why. -/
def broken (what : String) : Reply := refuse 500 what

/-- The most bytes of content. -/
abbrev contentLimit : Nat := 2097152

/-- The content of a request, or the reply to one that has no such content. -/
def content {α : Type} (dec : Decoder α) (r : Request) : Except Reply α :=
  if !r.contentType.any Http.namesJson then .error (bare 415)
  else if contentLimit < r.body.utf8ByteSize then .error (bare 413)
  else match dec.ofText r.body with
    | .ok a => .ok a
    | .error f => .error (bare (if f.kind.cls = .unfit then 422 else 400))

/-! ### Definitions -/

def submissionDecoder : Decoder Definition := (Fields.required "workflow" Definition.decoder).record "WorkflowRequest" false

/-- The reply to a definition without a name, or with a defect. -/
def check (d : Definition) : Except Reply Unit :=
  if Text.isBlank d.id || Text.isBlank d.name then .error (refuse 400 "workflow id and name are required")
  else match Workflow.ofDefinition d with
    | .ok _ => .ok ()
    | .error e => .error (refuse 422 e.message)

def told (status : Nat) (id message : String) : Reply :=
  reply status (.object [("id", .str id), ("message", .str message)])

def noWorkflow (id : String) : Reply := refuse 404 ("workflow '" ++ id ++ "' not found")

/-- Saves a definition and caches its workflow. -/
def keep (d : Definition) (done : Reply) : Job Reply := do
  match ← (Engine.saveDefinition d).run with
  | .error _ => return broken "Failed to save workflow"
  | .ok () => match ← Engine.cacheDefinition d with
    | .error e => return refuse 422 e.message
    | .ok _ => return done

def create (d : Definition) : Job Reply := do
  match check d with
  | .error r => return r
  | .ok () => match ← (Engine.getDefinition d.id).run with
    | .error _ => return broken "Failed to look up workflow"
    | .ok (some _) => return refuse 409 ("workflow '" ++ d.id ++ "' already exists")
    | .ok none => keep d (told 201 d.id ("Workflow '" ++ d.name ++ "' created successfully"))

def replace (id : String) (d : Definition) : Job Reply := do
  let d := { d with id := id }
  match check d with
  | .error r => return r
  | .ok () => match ← (Engine.getDefinition id).run with
    | .error _ => return broken "Failed to look up workflow"
    | .ok none => return noWorkflow id
    | .ok (some _) => keep d (told 200 id ("Workflow '" ++ d.name ++ "' updated successfully"))

def list : Job Reply := do
  match ← Engine.listDefinitions.run with
  | .error _ => return broken "Failed to list workflows"
  | .ok ls => return ok (.object [("workflows", .arr (ls.map (·.toJson)))])

def showDefinition (id : String) : Job Reply := do
  match ← (Engine.getDefinition id).run with
  | .error _ => return broken "Failed to get workflow"
  | .ok none => return noWorkflow id
  | .ok (some d) => return ok d.toJson

def delete (id : String) : Job Reply := do
  match ← (Engine.deleteDefinition id).run with
  | .error _ => return broken "Failed to delete workflow"
  | .ok found =>
    let found : Bool := found
    if found then
      Engine.uncache id
      return ok (.object [("message", .str "Workflow deleted successfully")])
    else return noWorkflow id

def switch (id : String) (active : Bool) : Job Reply := do
  match ← (Engine.switchDefinition id active).run with
  | .error _ => return broken "Failed to update workflow"
  | .ok false => return noWorkflow id
  | .ok true => match ← (Engine.cacheStored id).run with
    | .error _ => return broken "Failed to reload workflow"
    | .ok () => return told 200 id ("Workflow '" ++ id ++ "' " ++ if active then "activated" else "deactivated")

/-! ### Events and executions -/

def eventDecoder : Decoder Event :=
  ((fun type id source destination => ⟨⟨type, id⟩, source, destination⟩)
    <$> Fields.required "targetType" TargetType.decoder <*> Fields.required "targetId" Decoder.string
    <*> Fields.required "from" Decoder.string
    <*> Fields.required "to" Decoder.string).record "StatusChangedEvent" false

/-- Accepts an event; it is dispatched after the reply. -/
def acceptEvent (e : Event) : Reply :=
  if Text.isBlank e.target.id then refuse 400 "targetId is required"
  else ⟨202, .json (.object [("accepted", .bool true), ("target", e.target.toJson)]), some e⟩

def showExecution (id : String) : Job Reply := do
  match ← (Engine.getRecord id).run with
  | .error _ => return broken "Failed to load execution"
  | .ok none => return refuse 404 ("execution '" ++ id ++ "' not found")
  | .ok (some r) => match ← (Engine.tokensOf id).run with
    | .error _ => return broken "Failed to load continuations"
    | .ok ts => return ok (.object [("execution", r.toJson), ("continuations", .arr (ts.map Token.toJson))])

def showExecutionsOf (type id : String) : Job Reply := do
  match TargetType.ofName type with
  | .error u => return refuse 400 u.message
  | .ok t => match ← (Engine.recordsOf ⟨t, id⟩).run with
    | .error _ => return broken "Failed to list executions"
    | .ok rs => return ok (.arr (rs.map Record.toJson))

/-! ### Scans and sweeps -/

def makeScan (types : List TargetType) : Job Reply := do
  return ok (← Engine.scan types).toJson

def makeSweep (batch : Nat) : Job Reply := do
  match ← (Engine.sweep batch).run with
  | .error _ => return broken "Continuation sweep failed"
  | .ok r => return ok r.toJson

/-! ### All requests -/

/-- The reply to a request with content, or to one without it. -/
def withContent {α : Type} (dec : Decoder α) (r : Request) (f : α → Job Reply) : Job Reply :=
  match content dec r with
  | .error reply => return reply
  | .ok a => f a

/-- The reply of a route to a method that it answers to. -/
def answer (types : List TargetType) (batch : Nat) (r : Request) : Route → Job Reply
  | .health => return ⟨200, .text "ok", none⟩
  | .workflows => if r.method = "POST" then withContent submissionDecoder r create else list
  | .workflow id =>
    if r.method = "PUT" then withContent submissionDecoder r (replace id)
    else if r.method = "DELETE" then delete id
    else showDefinition id
  | .activation id active => switch id active
  | .events => withContent eventDecoder r fun e => return acceptEvent e
  | .execution id => showExecution id
  | .executionsOf type id => showExecutionsOf type id
  | .scan => makeScan types
  | .sweep => makeSweep batch

/-- The reply to a request, by a server with collections of the given types and batches of a size. -/
def serve (types : List TargetType) (batch : Nat) (r : Request) : Job Reply :=
  match Route.ofPath r.path with
  | none => return bare 404
  | some route =>
    if !route.methods.contains r.method then return bare 405
    else match route.decoded? with
      | none => return bare 400
      | some route => do
        let reply ← answer types batch r route
        return if r.method = "HEAD" then { reply with body := .text "" } else reply

end Lifecycle.Web
