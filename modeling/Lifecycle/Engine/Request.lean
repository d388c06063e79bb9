import Lifecycle.Engine.Fault
import Lifecycle.Execution.Context
import Lifecycle.Program
import Lifecycle.Store.Statement

/-!
What the engine asks for: the time, fresh identifiers, statements of the database, the workflows that
this worker has cached, calls on the entities, and visits of nodes.
-/

namespace Lifecycle.Engine

open Time (Instant)

/-- A node that is visited, in an execution of a workflow. -/
structure Visit where
  workflow : Workflow
  record : Record
  context : Context
  step : Step

/-- How the walk goes on after a visit. -/
inductive Outcome where
  | proceed
  | branch (yes : Bool)
  | suspend (deadline : Instant)
deriving DecidableEq, Repr

/-- The requests of the engine. -/
inductive Request where
  | now
  | fresh
  | statement (s : Store.Statement)
  | cached (id : String)
  | cachedAll
  | cache (w : Workflow)
  | uncache (id : String)
  | cacheOnly (entries : List (String × Workflow))
  | target (type : TargetType) (c : Target.Call)
  | visit (v : Visit)

def Request.Answer : Request → Type
  | now => Instant
  | fresh => String
  | statement s => Except Store.Fault s.Value
  | cached _ => Option Workflow
  | cachedAll => List (String × Workflow)
  | cache _ => Unit
  | uncache _ => Unit
  | cacheOnly _ => Unit
  | target _ c => c.Answer
  | visit _ => Except HandlerFault Outcome

def interface : Interface := ⟨Request, Request.Answer⟩

/-- A job of the engine. -/
abbrev Job (α : Type) := Program interface α

/-- A job that may fail of the database. -/
abbrev Attempt (α : Type) := ExceptT EngineFault Job α

def now : Job Instant := Program.call (P := interface) .now

def fresh : Job String := Program.call (P := interface) .fresh

/-- A statement of the database. -/
def statement (s : Store.Statement) : Job (Except Store.Fault s.Value) := Program.call (P := interface) (.statement s)

/-- A statement of the database, without which the job cannot go on. -/
def run (s : Store.Statement) : Attempt s.Value := ExceptT.mk do
  return (← statement s).mapError .database

def visit (v : Visit) : Job (Except HandlerFault Outcome) := Program.call (P := interface) (.visit v)

def target (type : TargetType) (c : Target.Call) : Job c.Answer := Program.call (P := interface) (.target type c)

end Lifecycle.Engine
