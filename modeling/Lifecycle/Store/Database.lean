import Lifecycle.Store.Definitions
import Lifecycle.Store.Executions
import Lifecycle.Store.Lexeme
import Lifecycle.Store.Tokens
import Lifecycle.Target.HostTable

/-!
The database: the tables of the engine, any of which may be missing, the templates and the tables of
the host. The two parts of a suspension take effect together or not at all.
-/

namespace Lifecycle.Store

open Target (HostRows)

structure TemplateRow where
  id : String
  subject : String
  body : String
deriving DecidableEq, Repr

/-- A table of the host. A strict one takes no empty fields and no empty tags. -/
structure HostTable where
  name : String
  strict : Bool
  rows : HostRows
deriving DecidableEq, Repr

structure Database where
  executions : Option Executions
  tokens : Option Tokens
  definitions : Option Definitions
  templates : Option (List TemplateRow)
  hostTables : List HostTable
deriving DecidableEq, Repr

/-! ### Tables -/

abbrev executionsName : String := "workflow_executions"
abbrev tokensName : String := "continuation_tokens"
abbrev definitionsName : String := "workflows"
abbrev templatesName : String := "email_templates"

/-- The table under a name. -/
def present {α : Type} (name : String) : Option α → Except Fault α
  | some t => .ok t
  | none => .error (.noTable name)

namespace Database

def empty : Database := ⟨none, none, none, none, []⟩

/-- The database with the tables of the engine that are missing. -/
def withSchema (db : Database) : Database :=
  { db with
    executions := some (db.executions.getD [])
    tokens := some (db.tokens.getD [])
    definitions := some (db.definitions.getD []) }

/-- The database with the table of templates. -/
def withTemplates (db : Database) : Database := { db with templates := some (db.templates.getD []) }

/-- Names of tables are the same in either case. -/
def HostTable.named (name : String) (t : HostTable) : Bool := Text.sameName t.name name

/-- The database with a table of the host. -/
def withHostTable (db : Database) (name : String) (strict : Bool) : Database :=
  if db.hostTables.any (HostTable.named name) then db
  else { db with hostTables := db.hostTables ++ [⟨name, strict, []⟩] }

def hostTable (db : Database) (name : String) : Except Fault HostTable :=
  present name (db.hostTables.find? (HostTable.named name))

/-- The database with other rows in a table of the host. -/
def setHostRows (db : Database) (name : String) (rows : HostRows) : Database :=
  { db with hostTables := db.hostTables.map fun t => if HostTable.named name t then { t with rows := rows } else t }

/-! ### Names -/

/-- The tables that are not of the host, each with its indices and the first column that a table of the
host has and it lacks. -/
def ownTables (db : Database) : List (String × List String × String) :=
  (if db.executions.isSome then
    [(executionsName, ["idx_executions_run_once", "idx_executions_target"], "status_changed_at")] else []) ++
  (if db.tokens.isSome then [(tokensName, ["idx_continuations_due"], "status")] else []) ++
  (if db.definitions.isSome then [(definitionsName, ["idx_workflows_trigger_active"], "status")] else []) ++
  (if db.templates.isSome then [(templatesName, [], "status")] else [])

/-- The index of a table of the host. -/
def indexOf (table : String) : String := "idx_" ++ table ++ "_status"

def tableNames (db : Database) : List String := db.ownTables.map (·.1) ++ db.hostTables.map (·.name)

def indexNames (db : Database) : List String :=
  db.ownTables.flatMap (·.2.1) ++ db.hostTables.map (indexOf ·.name)

/-- What names of the database itself begin with. -/
def innerName (name : String) : Bool := "sqlite_".isPrefixOf (Text.lowerAscii name)

/-- The database with a table of the host and its index, as a statement makes it that leaves alone what is
there. -/
def makeHostTable (db : Database) (name : String) : Except Fault Database := do
  if Lexeme.reserved name then .error (.unexpected name)
  if innerName name then .error (.reservedName name)
  if Text.sameName name "if" then .error (.unwritable name)
  if !db.tableNames.any (Text.sameName name) && db.indexNames.any (Text.sameName name) then .error (.indexThere name)
  if db.tableNames.any (Text.sameName (indexOf name)) then .error (.tableThere (indexOf name))
  match db.ownTables.find? fun t => Text.sameName name t.1 with
  | some (_, _, column) => .error (.noColumn column)
  | none => return db.withHostTable name true

/-! ### Dropping -/

/-- The database without the table of a name, if there is one. -/
def without? (db : Database) (name : String) : Option Database :=
  if Text.sameName name executionsName then db.executions.map fun _ => { db with executions := none }
  else if Text.sameName name tokensName then db.tokens.map fun _ => { db with tokens := none }
  else if Text.sameName name definitionsName then db.definitions.map fun _ => { db with definitions := none }
  else if Text.sameName name templatesName then db.templates.map fun _ => { db with templates := none }
  else (db.hostTables.find? (HostTable.named name)).map fun _ =>
    { db with hostTables := db.hostTables.filter (!HostTable.named name ·) }

/-- The list of the tables under a name: of those that last, or of those that do not. -/
def listOfTables? (schema : Option String) (name : String) : Option String :=
  let named (l : List String) : Bool := l.contains (Text.lowerAscii name)
  let inner := ["sqlite_master", "sqlite_schema"]
  let passing := ["sqlite_temp_master", "sqlite_temp_schema"]
  match schema.map Text.lowerAscii with
  | none => if named inner then some "sqlite_master" else if named passing then some "sqlite_temp_master" else none
  | some "main" => if named inner then some "sqlite_master" else none
  | some "temp" => if named (inner ++ passing) then some "sqlite_temp_master" else none
  | some _ => none

/-- The database without a table. -/
def drop (db : Database) (d : Drop) : Except Fault Database :=
  match listOfTables? d.schema d.table with
  | some list => .error (.lasting list)
  | none =>
    let after := if d.schema.all (Text.sameName · "main") then db.without? d.table else none
    match after with
    | some after => .ok after
    | none =>
      if d.onlyIfThere then .ok db else .error (.noTable ((d.schema.map (· ++ ".")).getD "" ++ d.table))

/-! ### Suspension -/

/-- A running execution moved to suspended, and its token written, together; or, if it is not
running, nothing. -/
def suspend (db : Database) (token : TokenRow) (now : Int) : Except Fault (Bool × Database) := do
  let executions ← present executionsName db.executions
  let (moved, executions) := executions.advance token.executionId .suspended now none
  if !moved then return (false, db)
  let tokens ← present tokensName db.tokens
  if tokens.any (·.id == token.id) then .error (.duplicateId tokensName)
  return (true, { db with executions := some executions, tokens := some (tokens ++ [token]) })

end Database

end Lifecycle.Store
