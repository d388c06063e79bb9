import Lifecycle.Store.Cell

/-!
What a statement of the database can fail of, and a value that is read from it.
-/

namespace Lifecycle.Store

/-- What a value is read as. -/
inductive Reading where
  | whole
  | wholeOrNull
  | flag
deriving DecidableEq, Repr

/-- What is read, and the kind that a column has for it. -/
def Reading.names : Reading → String × String
  | .whole => ("i64", CellKind.int.name)
  | .wholeOrNull => ("core::option::Option<i64>", CellKind.int.name)
  | .flag => ("bool", "BOOLEAN")

inductive Fault where
  | noTable (table : String)
  | noColumn (column : String)
  | notNull (table column : String)
  | duplicateId (table : String)
  | duplicateKey (table : String) (columns : List String)
  | noRow
  | unexpected (lexeme : String)
  | unreadable (lexeme : String)
  | unfinished
  | reservedName (name : String)
  | unwritable (name : String)       -- a name that no list of tables holds
  | lasting (table : String)         -- one that cannot be dropped
  | tableThere (name : String)
  | indexThere (name : String)
  | placeMismatch                    -- no whole number for the place of a row
  | placeTaken (table : String)
  | null (column : String)
  | mismatch (column : String) (reading : Reading) (found : CellKind)
deriving DecidableEq, Repr

/-- The message of the database with its code. -/
def reported (code : Nat) (message : String) : String :=
  "error returned from database: (code: " ++ toString code ++ ") " ++ message

def Fault.message : Fault → String
  | .noTable t => reported 1 ("no such table: " ++ t)
  | .noColumn c => reported 1 ("no such column: " ++ c)
  | .notNull t c => reported 1299 ("NOT NULL constraint failed: " ++ t ++ "." ++ c)
  | .duplicateId t => reported 1555 ("UNIQUE constraint failed: " ++ t ++ ".id")
  | .duplicateKey t cs => reported 2067 ("UNIQUE constraint failed: " ++ ", ".intercalate (cs.map fun c => t ++ "." ++ c))
  | .noRow => "no rows returned by a query that expected to return at least one row"
  | .unexpected l => reported 1 ("near \"" ++ l ++ "\": syntax error")
  | .unreadable l => reported 1 ("unrecognized token: \"" ++ l ++ "\"")
  | .unfinished => reported 1 "incomplete input"
  | .reservedName n => reported 1 ("object name reserved for internal use: " ++ n)
  | .unwritable n => reported 11 ("malformed database schema (" ++ n ++ ") - near \"(\": syntax error")
  | .lasting t => reported 1 ("table " ++ t ++ " may not be dropped")
  | .tableThere n => reported 1 ("there is already a table named " ++ n)
  | .indexThere n => reported 1 ("there is already an index named " ++ n)
  | .placeMismatch => reported 20 "datatype mismatch"
  | .placeTaken t => reported 2579 ("UNIQUE constraint failed: " ++ t ++ ".rowid")
  | .null c => "error occurred while decoding column \"" ++ c ++
      "\": unexpected null; try decoding as an \x60Option\x60"
  | .mismatch c r found =>
    "error occurred while decoding column \"" ++ c ++ "\": mismatched types; Rust type \x60" ++ r.names.1 ++
      "\x60 (as SQL type \x60" ++ r.names.2 ++ "\x60) is not compatible with SQL type \x60" ++ found.name ++ "\x60"

end Lifecycle.Store
