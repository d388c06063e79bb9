import Lifecycle.Store.Database

/-!
Edits of single rows past the engine, as an operator makes them in the tables: values are taken as
their columns take them, and rows that may not stand there are refused.
-/

namespace Lifecycle.Store

/-- A value given for a column. -/
inductive Given where
  | null
  | int (n : Int)
  | text (s : String)
deriving DecidableEq, Repr

namespace Given

/-- The value that JSON gives: nothing for numbers that 64 bits do not hold as whole ones, the text of a
list or an object. -/
def ofJson : Json → Given
  | .null | .num (.double _) => .null
  | .bool b => .int (if b then 1 else 0)
  | .num (.int n) => if -(Text.int64Bound : Int) ≤ n ∧ n < Text.int64Bound then .int n else .null
  | .str s => .text s
  | j => .text j.print

/-- The value in a column of texts. -/
def text? : Given → Option String
  | .null => none
  | .int n => some (toString n)
  | .text s => some s

/-- The value in a column of whole numbers. -/
def cell? : Given → Option Cell
  | .null => none
  | .int n => some (.int n)
  | .text s => some (.ofText s)

end Given

/-- A column that is never empty. -/
def needed {α : Type} (table column : String) : Option α → Except Fault α
  | some a => .ok a
  | none => .error (.notNull table column)

/-- How a row changes with the value given for a column. -/
abbrev Change (Row : Type) := Row → Given → Except Fault Row

def ExecutionRow.changes : List (String × Change ExecutionRow) :=
  let text (column : String) (f : ExecutionRow → String → ExecutionRow) : String × Change ExecutionRow :=
    (column, fun r v => (needed executionsName column v.text?).map (f r))
  let cell (column : String) (f : ExecutionRow → Cell → ExecutionRow) : String × Change ExecutionRow :=
    (column, fun r v => (needed executionsName column v.cell?).map (f r))
  [("id", fun r v => .ok { r with id := v.text? }),
    text "workflow_id" fun r x => { r with workflowId := x },
    text "target_type" fun r x => { r with targetType := x },
    text "target_id" fun r x => { r with targetId := x },
    text "trigger_type" fun r x => { r with triggerType := x },
    text "status" fun r x => { r with status := x },
    cell "run_once" fun r x => { r with runOnce := x },
    ("failed_node_id", fun r v => .ok { r with failedNodeId := v.text? }),
    ("error", fun r v => .ok { r with error := v.text? }),
    cell "started_at" fun r x => { r with startedAt := x },
    ("finished_at", fun r v => .ok { r with finishedAt := v.cell? }),
    cell "updated_at" fun r x => { r with updatedAt := x }]

def TokenRow.changes : List (String × Change TokenRow) :=
  let text (column : String) (f : TokenRow → String → TokenRow) : String × Change TokenRow :=
    (column, fun t v => (needed tokensName column v.text?).map (f t))
  let cell (column : String) (f : TokenRow → Cell → TokenRow) : String × Change TokenRow :=
    (column, fun t v => (needed tokensName column v.cell?).map (f t))
  [("id", fun t v => .ok { t with id := v.text? }),
    text "execution_id" fun t x => { t with executionId := x },
    text "resume_at_node_id" fun t x => { t with resumeNodeId := x },
    cell "resume_at" fun t x => { t with resumeAt := x },
    text "context_snapshot" fun t x => { t with snapshot := x },
    cell "created_at" fun t x => { t with createdAt := x }]

/-- The names of the place of a row among the others. -/
def placeNames : List String := ["rowid", "_rowid_", "oid"]

/-- The rows with one of them put in a place, which counts from one. Its own place is free, and so is every
place before or behind all others. -/
def putInPlace {Row : Type} (table : String) (is : Row → Bool) (v : Given) (rows : List Row) : Except Fault (List Row) :=
  match v.cell? with
  | some (.int place) =>
    if place < 1 then .ok (rows.filter is ++ rows.filter (!is ·))
    else if rows.length < place then .ok (rows.filter (!is ·) ++ rows.filter is)
    else if (rows[(place - 1).toNat]?).any is then .ok rows
    else .error (.placeTaken table)
  | _ => .error .placeMismatch

/-- The rows with a value set in a column of one of them, if it may stand so among the others; and how many
have changed. The name of the column is the same in either case. -/
def setColumn {Row : Type} (table : String) (changes : List (String × Change Row))
    (check : Row → List Row → Except Fault Unit) (column : String) (is : Row → Bool) (v : Given) (rows : List Row) :
    Except Fault (Nat × List Row) :=
  match changes.find? fun c => Text.sameName column c.1 with
  | some (_, change) => match rows.find? is with
    | none => .ok (0, rows)
    | some row => do
      let new ← change row v
      check new (rows.filter (!is ·))
      return (1, rows.map fun r => if is r then new else r)
  | none =>
    if placeNames.any (Text.sameName column) then
      if rows.any is then (putInPlace table is v rows).map (1, ·) else .ok (0, rows)
    else .error (.noColumn column)

/-- The fault of a row that may not stand among the others. -/
def ExecutionRow.checkAmong (r : ExecutionRow) (others : List ExecutionRow) : Except Fault Unit :=
  if r.id.isSome && others.any (·.id == r.id) then .error (.duplicateId executionsName)
  else if others.any r.clashes then
    .error (.duplicateKey executionsName ["workflow_id", "target_type", "target_id", "trigger_type"])
  else .ok ()

/-- The fault of a row that may not stand among the others. -/
def TokenRow.checkAmong (t : TokenRow) (others : List TokenRow) : Except Fault Unit :=
  if t.id.isSome && others.any (·.id == t.id) then .error (.duplicateId tokensName) else .ok ()

namespace Database

/-- Sets a column of an execution, whose name is put into a statement; and counts the rows changed. -/
def setExecution (db : Database) (id column : String) (v : Given) : Except Fault (Nat × Database) := do
  let column ← Lexeme.columnOf executionsName column
  let rows ← present executionsName db.executions
  let (n, rows) ← setColumn executionsName ExecutionRow.changes ExecutionRow.checkAmong column (·.id == some id) v rows
  return (n, { db with executions := some rows })

/-- Sets a column of a token, whose name is put into a statement; and counts the rows changed. -/
def setToken (db : Database) (id column : String) (v : Given) : Except Fault (Nat × Database) := do
  let column ← Lexeme.columnOf tokensName column
  let rows ← present tokensName db.tokens
  let (n, rows) ← setColumn tokensName TokenRow.changes TokenRow.checkAmong column (·.id == some id) v rows
  return (n, { db with tokens := some rows })

/-- The statements run that drop tables, up to the first that fails. -/
def runDrops : Nat → List Lexeme → Database → Except Fault Unit × Database
  | 0, _, db | _, [], db => (.ok (), db)
  | fuel + 1, l :: ls, db =>
    if l = .sign ";" then runDrops fuel ls db
    else match Lexeme.dropOf (l :: ls) with
      | .error f => (.error f, db)
      | .ok (d, rest) => match db.drop d with
        | .error f => (.error f, db)
        | .ok after => runDrops fuel rest after

/-- Drops the table whose name is put into a statement, and whatever the text goes on to drop. -/
def dropNamed (db : Database) (text : String) : Except Fault Unit × Database :=
  let ls := Lexeme.scan ("DROP TABLE " ++ text)
  runDrops ls.length ls db

/-- Makes every token due; and counts them. -/
def makeDue (db : Database) : Except Fault (Nat × Database) := do
  let rows ← present tokensName db.tokens
  return (rows.length, { db with tokens := some (rows.map fun t => { t with resumeAt := .int 0 }) })

/-- Deletes an execution; and counts the rows deleted. -/
def deleteExecution (db : Database) (id : String) : Except Fault (Nat × Database) := do
  let rows ← present executionsName db.executions
  return (rows.countP (·.id == some id), { db with executions := some (rows.filter (·.id != some id)) })

/-- Puts any text in place of a definition; and counts the rows changed. -/
def saveText (db : Database) (id text : String) : Except Fault (Nat × Database) := do
  let rows ← present definitionsName db.definitions
  return (1, { db with definitions := some (rows.save ⟨id, "raw", TriggerType.statusChanged.name, 1, text⟩) })

/-- Puts a template. -/
def saveTemplate (db : Database) (row : TemplateRow) : Except Fault Database := do
  let rows ← present templatesName db.templates
  let rows := if rows.any (·.id == row.id) then rows.map fun r => if r.id == row.id then row else r else rows ++ [row]
  return { db with templates := some rows }

/-- Puts a row into a table of the host, with the values given for its columns; and counts the rows
changed. Where a strict table takes nothing empty, it takes no fields and no tags instead. -/
def putHostRow (db : Database) (table id : String) (status changedAt email fields tags : Given) :
    Except Fault (Nat × Database) := do
  let t ← db.hostTable table
  let orEmpty (value : Option String) (empty : String) : Option String :=
    if t.strict then some (value.getD empty) else value
  let row : Target.HostRow := ⟨id, status.text?, changedAt.cell?, email.text?,
    orEmpty fields.text? "\x7b\x7d", orEmpty tags.text? "[]"⟩
  return (1, db.setHostRows table (t.rows.put row))

end Database

end Lifecycle.Store
