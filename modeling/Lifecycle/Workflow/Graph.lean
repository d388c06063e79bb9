import Lifecycle.Workflow.Trigger

/-!
Workflow graphs: the nodes of a definition with what they do, and its connections, checked in a fixed
order. A graph has one entry, no cycle and no node that the entry does not reach; a height for every
node, which falls along every connection, bounds the length of its walks.
-/

namespace Lifecycle

/-! ### Defects -/

/-- The ends of a connection. -/
inductive Side where
  | source | target
deriving DecidableEq, Repr

def Side.name : Side → String
  | .source => "from"
  | .target => "to"

/-- Why a definition is no workflow. -/
inductive Defect where
  | duplicateNode (id : String)
  | noTrigger
  | manyTriggers (count : Nat)
  | unknownNode (id : String) (side : Side)
  | intoTrigger (id : String)
  | branches (id : String) (yes no next : Nat)
  | unexpectedBranch (id : String) (label : Label)
  | manySuccessors (id : String)
  | cycle
  | unreachable (id : String)
  | config (id : String) (f : ConfigFault)
  | trigger (f : Trigger.Fault)
deriving DecidableEq, Repr

def Defect.message : Defect → String
  | .duplicateNode id => "duplicate node ID: '" ++ id ++ "'"
  | .noTrigger => "workflow has no trigger node"
  | .manyTriggers n => "workflow has " ++ toString n ++ " trigger nodes, expected exactly one"
  | .unknownNode id side => "connection references unknown node '" ++ id ++ "' (" ++ side.name ++ " side)"
  | .intoTrigger id => "trigger node '" ++ id ++ "' must not have incoming connections"
  | .branches id yes no next => "condition node '" ++ id ++ "' needs exactly one 'yes' and one 'no' connection (found yes="
      ++ toString yes ++ ", no=" ++ toString no ++ ", next=" ++ toString next ++ ")"
  | .unexpectedBranch id label => "node '" ++ id ++ "' has a '" ++ label.name ++ "' connection but only condition nodes branch"
  | .manySuccessors id => "node '" ++ id ++ "' has more than one 'next' connection"
  | .cycle => "workflow graph contains a cycle"
  | .unreachable id => "node '" ++ id ++ "' is not reachable from the trigger node"
  | .config id f => "invalid config for node '" ++ id ++ "': " ++ f.message
  | .trigger f => "invalid trigger conditions: " ++ f.message

/-! ### Steps and heights -/

/-- A node and what it does. -/
structure Step where
  id : String
  kind : Kind
deriving DecidableEq, Repr

/-- The number kept under `id`. -/
def heightOf (heights : List (String × Nat)) (id : String) : Nat := (heights.lookup id).getD 0

/-- Every node one above its highest successor. -/
def raise (connections : List Connection) (heights : List (String × Nat)) : List (String × Nat) :=
  heights.map fun (id, _) =>
    (id, ((connections.filter (·.source == id)).map fun c => heightOf heights c.target + 1).foldl max 0)

/-- The heights after `rounds` rounds, or after the first that changes nothing. -/
def settle (connections : List Connection) : Nat → List (String × Nat) → List (String × Nat)
  | 0, heights => heights
  | rounds + 1, heights =>
    let next := raise connections heights
    if next = heights then heights else settle connections rounds next

/-- The nodes that `found` and what they lead to hold, after `rounds` rounds. -/
def spread (connections : List Connection) : Nat → List String → List String
  | 0, found => found
  | rounds + 1, found =>
    let fresh := (connections.filter fun c => found.contains c.source && !found.contains c.target).map (·.target)
    if fresh.isEmpty then found else spread connections rounds (found ++ fresh.eraseDups)

/-- Nodes, labelled connections, and the node where walks start. -/
structure Graph where
  steps : List Step
  connections : List Connection
  entry : Step
  heights : List (String × Nat)
  falls : ∀ c ∈ connections, heightOf heights c.target < heightOf heights c.source

namespace Graph

/-- The node of a name. -/
def node? (g : Graph) (id : String) : Option Step := g.steps.find? (·.id == id)

/-- The name of the node that the connection labelled `label` leads to. -/
def target? (g : Graph) (id : String) (label : Label) : Option String :=
  (g.connections.find? fun c => c.source == id && c.label == label).map (·.target)

/-- The node that the connection labelled `label` leads to. -/
def successor? (g : Graph) (id : String) (label : Label) : Option Step := (g.target? id label).bind g.node?

/-- The height of a node: no walk from it is longer. -/
def height (g : Graph) (id : String) : Nat := heightOf g.heights id

theorem id_of_node? {g : Graph} {id : String} {s : Step} (h : g.node? id = some s) : s.id = id := by
  simpa using List.find?_some h

/-- Walks go down. -/
theorem height_successor? {g : Graph} {id : String} {label : Label} {s : Step}
    (h : g.successor? id label = some s) : g.height s.id < g.height id := by
  obtain ⟨t, ht, hs⟩ := Option.bind_eq_some_iff.1 h
  obtain ⟨c, hc, rfl⟩ := Option.map_eq_some_iff.1 ht
  have hm := List.mem_of_find?_eq_some hc
  have hp := List.find?_some hc
  simp only [Bool.and_eq_true, beq_iff_eq] at hp
  rw [id_of_node? hs, ← hp.1]
  exact g.falls c hm

/-! ### Building -/

/-- The nodes of a definition with what they do: each with a name of its own and a proper
configuration. -/
def readSteps : List Step → List Node → Except Defect (List Step)
  | steps, [] => .ok steps
  | steps, n :: rest =>
    if steps.any (·.id == n.id) then .error (.duplicateNode n.id)
    else match Kind.read n.type n.config with
      | .error f => .error (.config n.id f)
      | .ok kind => readSteps (steps ++ [⟨n.id, kind⟩]) rest

/-- The only trigger among the nodes. -/
def findEntry (steps : List Step) : Except Defect Step :=
  match steps.filter (·.kind.type == .trigger) with
  | [] => .error .noTrigger
  | [s] => .ok s
  | many => .error (.manyTriggers many.length)

/-- The defect of a connection: an end that is no node, or one that leads to the entry. -/
def checkConnection (steps : List Step) (entry : Step) (c : Connection) : Except Defect Unit :=
  if !steps.any (·.id == c.source) then .error (.unknownNode c.source .source)
  else if !steps.any (·.id == c.target) then .error (.unknownNode c.target .target)
  else if c.target = entry.id then .error (.intoTrigger c.target)
  else .ok ()

/-- The number of connections from `id` with a label. -/
def countFrom (connections : List Connection) (id : String) (label : Label) : Nat :=
  connections.countP fun c => c.source == id && c.label == label

/-- The defect of the connections that leave a node. A condition has one for each answer, and any
other node at most one. -/
def checkLeaving (connections : List Connection) (s : Step) : Except Defect Unit :=
  let next := countFrom connections s.id .next
  let yes := countFrom connections s.id .yes
  let no := countFrom connections s.id .no
  if s.kind.type = .condition then
    if yes = 1 ∧ no = 1 ∧ next = 0 then .ok () else .error (.branches s.id yes no next)
  else if 0 < yes then .error (.unexpectedBranch s.id .yes)
  else if 0 < no then .error (.unexpectedBranch s.id .no)
  else if 1 < next then .error (.manySuccessors s.id)
  else .ok ()

/-- The graph of a list of nodes with their connections. -/
def build (nodes : List Node) (connections : List Connection) : Except Defect Graph := do
  let steps ← readSteps [] nodes
  let entry ← findEntry steps
  connections.forM (checkConnection steps entry)
  steps.forM (checkLeaving connections)
  let heights := settle connections steps.length (steps.map fun s => (s.id, 0))
  if falls : ∀ c ∈ connections, heightOf heights c.target < heightOf heights c.source then
    let reached := spread connections steps.length [entry.id]
    match steps.find? fun s => !reached.contains s.id with
    | some s => .error (.unreachable s.id)
    | none => return ⟨steps, connections, entry, heights, falls⟩
  else .error .cycle

end Graph

/-! ### Workflows -/

/-- A definition that passed all checks, with its trigger and its graph. -/
structure Workflow where
  definition : Definition
  trigger : Trigger
  graph : Graph

/-- The workflow of a definition, or its first defect. -/
def Workflow.ofDefinition (d : Definition) : Except Defect Workflow := do
  let trigger ← (Trigger.read d.triggerType d.triggerConditions).mapError .trigger
  let graph ← Graph.build d.nodes d.connections
  return ⟨d, trigger, graph⟩

def Workflow.id (w : Workflow) : String := w.definition.id

def Workflow.active (w : Workflow) : Bool := w.definition.active

end Lifecycle
