import Lifecycle.Engine.Request

/-!
Definitions and workflows as jobs. Storage is what counts; the workflows that a worker has cached
are read again from it before they are used, and stand in for it only while it cannot be read.
-/

namespace Lifecycle.Engine

open Store (DefinitionRow)

/-! ### Storage -/

/-- A job that may fail of storage. -/
abbrev StorageJob (α : Type) := ExceptT StorageFault Job α

/-- A statement about definitions. -/
def stored (s : Store.Statement) : StorageJob s.Value := ExceptT.mk do
  return (← statement s).mapError .store

def saveDefinition (d : Definition) : StorageJob Unit := stored (.saveDefinition (.ofDefinition d))

def getDefinition (id : String) : StorageJob (Option Definition) := do
  match ← stored (.definition id) with
  | none => return none
  | some row => ExceptT.mk (pure ((Definition.ofText row.definition).map some |>.mapError (.undecodable row.definition)))

/-- The definitions that can be read, under the identifiers of their rows. -/
def readDefinitions : StorageJob (List (String × Definition)) := do
  let rows : List DefinitionRow ← stored .definitions
  return rows.filterMap fun r => (Definition.ofText r.definition).toOption.map (r.id, ·)

/-- What storage lists of a definition. -/
structure Listing where
  id : String
  name : String
  triggerType : String
  active : Bool
deriving DecidableEq, Repr

/-- The definitions by ascending identifiers. -/
def listDefinitions : StorageJob (List Listing) := do
  let rows : List DefinitionRow ← stored .definitions
  return (rows.mergeSort fun a b => a.id ≤ b.id).map fun r => ⟨r.id, r.name, r.triggerType, r.active ≠ 0⟩

/-- Sets the active flag of a definition; false if there is none. -/
def switchDefinition (id : String) (active : Bool) : StorageJob Bool := do
  match ← getDefinition id with
  | none => return false
  | some d =>
    saveDefinition { d with active := active }
    return true

def deleteDefinition (id : String) : StorageJob Bool := stored (.deleteDefinition id)

/-! ### Cache -/

def cached (id : String) : Job (Option Workflow) := Program.call (P := interface) (.cached id)

def uncache (id : String) : Job Unit := Program.call (P := interface) (.uncache id)

/-- Caches the workflow of a definition, unless it has a defect. -/
def cacheDefinition (d : Definition) : Job (Except Defect Workflow) :=
  match Workflow.ofDefinition d with
  | .error e => pure (.error e)
  | .ok w => do
    Program.call (P := interface) (.cache w)
    return .ok w

/-- Caches what storage holds and nothing else; and counts it. -/
def cacheAll : StorageJob Nat := do
  let definitions ← readDefinitions
  let workflows := definitions.filterMap fun (id, d) => (Workflow.ofDefinition d).toOption.map (id, ·)
  Program.call (P := interface) (.cacheOnly workflows)
  return workflows.length

/-- The active ones among the workflows that `type` starts, by ascending identifiers. -/
def activeAmong (type : TriggerType) (workflows : List Workflow) : List Workflow :=
  (workflows.filter fun w => w.active && w.definition.triggerType == type).mergeSort fun a b => a.id ≤ b.id

def activeCached (type : TriggerType) : Job (List Workflow) := do
  let entries : List (String × Workflow) ← Program.call (P := interface) .cachedAll
  return activeAmong type (entries.map (·.2))

/-- The active workflows that `type` starts: as storage has them, or as they are cached while it cannot
be read. -/
def activeNow (type : TriggerType) : Job (List Workflow) := do
  let _ ← cacheAll.run
  activeCached type

/-- A workflow as storage has it, active or not; or as it is cached while storage cannot be read. -/
def currentWorkflow (id : String) : Job (Option Workflow) := do
  match ← (getDefinition id).run with
  | .ok (some d) => match ← cacheDefinition d with
    | .ok w => return some w
    | .error _ => cached id
  | .ok none =>
    uncache id
    return none
  | .error _ => cached id

/-- Caches a workflow as storage has it. -/
def cacheStored (id : String) : StorageJob Unit := do
  match ← getDefinition id with
  | none => throw (.missing id)
  | some d => match ← cacheDefinition d with
    | .ok _ => return ()
    | .error e => throw (.defect e)

end Lifecycle.Engine
