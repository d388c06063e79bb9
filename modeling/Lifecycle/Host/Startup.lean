import Lifecycle.Engine.Definitions
import Lifecycle.Host.Site

/-!
The start of a server on a database: the tables that are missing are created, and the workflows in
storage are cached. Its entities and templates are in the database, and its mail goes nowhere.
-/

namespace Lifecycle.Host.Startup

open Time (Instant)

/-- The database with a table of the host, whose name has to be one that may stand in a statement. -/
def prepareTable (db : Store.Database) (name : String) : Except Target.Fault Store.Database := do
  Target.checkTableName name
  (db.makeHostTable name).mapError .store

/-- The database with the tables of the engine and of the host. -/
def prepare (db : Store.Database) (applications contracts : String) : Except Target.Fault Store.Database := do
  prepareTable (← prepareTable db.withSchema.withTemplates applications) contracts

/-- The worker of a server. -/
def worker (clock : Instant) (applications contracts : String) : Worker where
  clock := clock
  mailer := { checksRecipient := true }
  client := { connected := false }
  applications := { collection := .table applications }
  contracts := { collection := .table contracts }
  types := TargetType.all
  templates := none

/-- The site of a server that starts, after `serial` identifiers given out. -/
def start (db : Store.Database) (serial : Nat) (clock : Instant) (applications contracts : String) :
    Except Target.Fault Site := do
  let db ← prepare db applications contracts
  return (Site.perform ⟨db, serial, worker clock applications contracts⟩ Engine.cacheAll.run).2

end Lifecycle.Host.Startup
