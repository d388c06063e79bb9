import Lifecycle.Engine.Timeouts
import Lifecycle.Engine.Handling
import Lifecycle.Target.Memory

/-!
Workers and what surrounds them: a clock, the workflows that they have cached, and collaborators that
keep what they were asked and fail or wait as they are told.
-/

namespace Lifecycle.Host

open Time (Instant)

/-- A mailer. -/
structure Mailer where
  failure : Option String := none         -- of every delivery
  latency : Nat := 0
  interferes : Bool := false              -- fails every running execution before it delivers
  checksRecipient : Bool := false
  sent : List Mail.Message := []
deriving DecidableEq, Repr

/-- A client for outbound requests, with one status for every response. -/
structure Client where
  connected : Bool := true                -- somebody listens
  status : Nat := 200
  failure : Option String := none
  latency : Nat := 0
  requests : List Http.Outbound := []
deriving DecidableEq, Repr

/-- How calls on the entities of a type come through. -/
structure Access where
  failure : Option String := none
  only : Option Target.Operation := none  -- the only one that fails
  latency : Nat := 0
deriving DecidableEq, Repr

/-- Where the entities of a type are kept. -/
inductive Collection where
  | memory (m : Target.Memory)
  | table (name : String)
deriving DecidableEq, Repr

/-- What a worker knows of the entities of a type. -/
structure Source where
  collection : Collection
  access : Access := {}
deriving DecidableEq, Repr

structure Worker where
  clock : Instant
  cache : List (String × Workflow) := []
  mailer : Mailer := {}
  client : Client := {}
  applications : Source
  contracts : Source
  types : List TargetType                             -- whose entities the engine reaches
  templates : Option (List (String × Mail.Source))    -- none if the database has them
  timeouts : Timeouts := .standard
  batch : Nat := 100

namespace Worker

def source (w : Worker) : TargetType → Source
  | .application => w.applications
  | .contract => w.contracts

def setSource (w : Worker) : TargetType → Source → Worker
  | .application, s => { w with applications := s }
  | .contract, s => { w with contracts := s }

/-- The workflows cached, by ascending keys, with `w` under `key`. -/
def insertWorkflow (key : String) (w : Workflow) : List (String × Workflow) → List (String × Workflow)
  | [] => [(key, w)]
  | (k, v) :: rest =>
    if key < k then (key, w) :: (k, v) :: rest
    else if key = k then (key, w) :: rest
    else (k, v) :: insertWorkflow key w rest

end Worker

/-- A worker, the database that it shares with others, and the number of identifiers given out. -/
structure Site where
  database : Store.Database
  serial : Nat
  worker : Worker

end Lifecycle.Host
