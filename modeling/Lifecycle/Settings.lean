import Lifecycle.Engine.Timeouts
import Lifecycle.Text.Integer

/-!
The settings of a server: read from JSON, or from variables of its environment with a default for
every one that is missing or unreadable.
-/

namespace Lifecycle

open Json (Decoder Fields)

structure Settings.Server where
  host : String
  port : Nat
deriving DecidableEq, Repr

structure Settings.Database where
  path : String
  applicationsTable : String
  contractsTable : String
deriving DecidableEq, Repr

/-- Intervals are in seconds. -/
structure Settings.Engine where
  scanInterval : Nat
  sweepInterval : Nat
  sweepBatchSize : Nat
  timeouts : Timeouts
deriving DecidableEq, Repr

structure Settings where
  server : Settings.Server
  database : Settings.Database
  engine : Settings.Engine
deriving DecidableEq, Repr

namespace Settings

/-! ### Environment -/

/-- The number that a variable holds, if it has at most `bits` bits. -/
def number (env : List (String × String)) (name : String) (bits default : Nat) : Nat :=
  ((env.lookup name).bind (Text.nat? (Nat.pow 2 bits))).getD default

/-- The text that a variable holds. -/
def text (env : List (String × String)) (name default : String) : String := (env.lookup name).getD default

/-- The settings under the variables of an environment. -/
def ofEnvironment (env : List (String × String)) : Settings where
  server := ⟨text env "STATUSFLOW_HOST" "0.0.0.0", number env "STATUSFLOW_PORT" 16 3004⟩
  database := ⟨text env "STATUSFLOW_DATABASE_PATH" "data/statusflow.db",
    text env "STATUSFLOW_APPLICATIONS_TABLE" "applications", text env "STATUSFLOW_CONTRACTS_TABLE" "contracts"⟩
  engine := ⟨number env "STATUSFLOW_SCAN_INTERVAL_SECS" 64 300, number env "STATUSFLOW_SWEEP_INTERVAL_SECS" 64 30,
    number env "STATUSFLOW_SWEEP_BATCH_SIZE" 32 100,
    number env "STATUSFLOW_EMAIL_TIMEOUT_MS" 64 Timeouts.standard.email,
    number env "STATUSFLOW_WEBHOOK_TIMEOUT_MS" 64 Timeouts.standard.webhook,
    number env "STATUSFLOW_MUTATION_TIMEOUT_MS" 64 Timeouts.standard.mutation,
    number env "STATUSFLOW_CONDITION_TIMEOUT_MS" 64 Timeouts.standard.condition⟩

/-! ### JSON -/

def Server.decoder : Decoder Server :=
  (Server.mk <$> Fields.required "host" Decoder.string
    <*> Fields.required "port" (Decoder.unsigned 16)).record "ServerConfig" false

def Database.decoder : Decoder Database :=
  (Database.mk <$> Fields.required "path" Decoder.string <*> Fields.required "applications_table" Decoder.string
    <*> Fields.required "contracts_table" Decoder.string).record "DatabaseConfig" false

def Engine.decoder : Decoder Engine :=
  (Engine.mk <$> Fields.required "scan_interval" (Decoder.unsigned 64)
    <*> Fields.required "sweep_interval" (Decoder.unsigned 64)
    <*> Fields.required "sweep_batch_size" (Decoder.unsigned 32)
    <*> Fields.required "timeouts" Timeouts.decoder).record "EngineConfig" false

def decoder : Decoder Settings :=
  (Settings.mk <$> Fields.required "server" Server.decoder <*> Fields.required "database" Database.decoder
    <*> Fields.required "engine" Engine.decoder).record "Config" false

def toJson (s : Settings) : Json :=
  .object [
    ("server", .object [("host", .str s.server.host), ("port", .int s.server.port)]),
    ("database", .object [("path", .str s.database.path), ("applications_table", .str s.database.applicationsTable),
      ("contracts_table", .str s.database.contractsTable)]),
    ("engine", .object [("scan_interval", .int s.engine.scanInterval), ("sweep_interval", .int s.engine.sweepInterval),
      ("sweep_batch_size", .int s.engine.sweepBatchSize), ("timeouts", s.engine.timeouts.toJson)])]

end Settings

end Lifecycle
