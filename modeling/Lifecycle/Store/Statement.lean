import Lifecycle.Store.Database

/-!
The statements that the engine makes, what each yields and what it changes. One that fails changes
nothing.
-/

namespace Lifecycle.Store

/-- The statements of the engine. -/
inductive Statement where
  | insertExecution (row : ExecutionRow)
  | owner (key : Key)
  | advance (id : String) (next : Status) (now : Int) (failure : Option Failure)
  | execution (id : String)
  | executionsOf (targetType targetId : String)
  | suspend (token : TokenRow) (now : Int)
  | due (now : Int) (limit : Nat)
  | claim (id : String)
  | tokensOf (executionId : String)
  | definitions
  | definition (id : String)
  | saveDefinition (row : DefinitionRow)
  | deleteDefinition (id : String)
deriving DecidableEq, Repr

namespace Statement

/-- What a statement yields. -/
def Value : Statement → Type
  | insertExecution _ => Bool
  | owner _ => ExecutionRow
  | advance _ _ _ _ => Bool
  | execution _ => Option ExecutionRow
  | executionsOf _ _ => List ExecutionRow
  | suspend _ _ => Bool
  | due _ _ => List TokenRow
  | claim _ => Bool
  | tokensOf _ => List TokenRow
  | definitions => List DefinitionRow
  | definition _ => Option DefinitionRow
  | saveDefinition _ => Unit
  | deleteDefinition _ => Bool

/-- What a statement yields, and the database after it. -/
def apply : (s : Statement) → Database → Except Fault (s.Value × Database)
  | insertExecution row, db => do
    let l ← present executionsName db.executions
    let (new, l) := l.insert row
    return (new, { db with executions := some l })
  | owner key, db => do
    let l ← present executionsName db.executions
    match l.owner? key with
    | some row => return (row, db)
    | none => .error .noRow
  | advance id next now failure, db => do
    let l ← present executionsName db.executions
    let (moved, l) := l.advance id next now failure
    return (moved, { db with executions := some l })
  | execution id, db => do
    let l ← present executionsName db.executions
    return (l.get? id, db)
  | executionsOf type id, db => do
    let l ← present executionsName db.executions
    return (l.ofTarget type id, db)
  | suspend token now, db => db.suspend token now
  | due now limit, db => do
    let ts ← present tokensName db.tokens
    return (ts.due now limit, db)
  | claim id, db => do
    let ts ← present tokensName db.tokens
    let (found, ts) := ts.claim id
    return (found, { db with tokens := some ts })
  | tokensOf id, db => do
    let ts ← present tokensName db.tokens
    return (ts.ofExecution id, db)
  | definitions, db => do
    let ds ← present definitionsName db.definitions
    return (ds, db)
  | definition id, db => do
    let ds ← present definitionsName db.definitions
    return (ds.get? id, db)
  | saveDefinition row, db => do
    let ds ← present definitionsName db.definitions
    return ((), { db with definitions := some (ds.save row) })
  | deleteDefinition id, db => do
    let ds ← present definitionsName db.definitions
    let (found, ds) := ds.delete id
    return (found, { db with definitions := some ds })

/-- The answer to a statement, and the database after it: the same one if the statement fails. -/
def execute (s : Statement) (db : Database) : Except Fault s.Value × Database :=
  match s.apply db with
  | .ok (v, after) => (.ok v, after)
  | .error f => (.error f, db)

end Statement

end Lifecycle.Store
