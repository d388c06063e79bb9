import Lifecycle.Store.Row
import Lifecycle.Workflow.Definition

/-!
The table of definitions: one row for every identifier.
-/

namespace Lifecycle.Store

/-- The row of a definition, with the columns by which it is listed. -/
def DefinitionRow.ofDefinition (d : Definition) : DefinitionRow :=
  ⟨d.id, d.name, d.triggerType.name, if d.active then 1 else 0, d.text⟩

/-- The definitions, in the order in which they were first saved. -/
abbrev Definitions := List DefinitionRow

namespace Definitions

/-- The table with `row` under its identifier. -/
def save (ds : Definitions) (row : DefinitionRow) : Definitions :=
  if ds.any (·.id == row.id) then ds.map fun d => if d.id == row.id then row else d else ds ++ [row]

def get? (ds : Definitions) (id : String) : Option DefinitionRow := ds.find? (·.id == id)

/-- The table without the row of `id`, and whether it was there. -/
def delete (ds : Definitions) (id : String) : Bool × Definitions := (ds.any (·.id == id), ds.filter (·.id != id))

end Definitions

end Lifecycle.Store
