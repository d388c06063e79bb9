import Lifecycle.Store.Fault
import Lifecycle.Text.Ascii

/-!
The lexemes of statements: words, quoted names, and signs. A word that is reserved is no name.
-/

namespace Lifecycle.Store

/-- What a statement drops: a table, perhaps of a schema, and perhaps only if it is there. -/
structure Drop where
  onlyIfThere : Bool
  schema : Option String
  table : String
deriving DecidableEq, Repr

inductive Lexeme where
  | word (text : String)
  | quoted (name text : String)  -- what is quoted, and how it is written
  | sign (text : String)         -- a number, a literal, a variable or an operator
  | flawed (text : String)       -- nothing that may stand in a statement
deriving DecidableEq, Repr

namespace Lexeme

/-- As it is written. -/
def text : Lexeme → String
  | .word t | .quoted _ t | .sign t | .flawed t => t

/-- The words that are no names. -/
def reservedWords : List String :=
  ["add", "all", "alter", "and", "as", "autoincrement", "between", "case", "check", "collate", "commit", "constraint",
    "create", "default", "deferrable", "delete", "distinct", "drop", "else", "escape", "except", "exists", "foreign",
    "from", "group", "having", "in", "index", "insert", "intersect", "into", "is", "isnull", "join", "limit", "not",
    "nothing", "notnull", "null", "on", "or", "order", "primary", "references", "returning", "select", "set", "table",
    "then", "to", "transaction", "union", "unique", "update", "using", "values", "when", "where"]

def reserved (word : String) : Bool := reservedWords.contains (Text.lowerAscii word)

/-- The name that a lexeme is. -/
def name? : Lexeme → Option String
  | .word t => if reserved t then none else some t
  | .quoted name _ => some name
  | .sign _ | .flawed _ => none

/-- The fault where this lexeme may not stand. -/
def fault : Lexeme → Fault
  | .flawed t => .unreadable t
  | l => .unexpected l.text

/-! ### Reading -/

def wordChar (c : Char) : Bool := c.isAlphanum || c = '_' || c = '$' || 127 < c.toNat

def wordStart (c : Char) : Bool := c.isAlpha || c = '_' || 127 < c.toNat

def blank (c : Char) : Bool := " \t\n\x0c\r\ufeff".toList.contains c

/-- The text up to the quote that ends it, where a doubled one stands for itself; and how much of it is
read. -/
def quotedText (quote : Char) : List Char → Option (List Char × Nat)
  | [] => none
  | c :: cs =>
    if c ≠ quote then (quotedText quote cs).map fun (t, n) => (c :: t, n + 1)
    else match cs with
      | d :: rest =>
        if d = quote then (quotedText quote rest).map fun (t, n) => (c :: t, n + 2) else some ([], 1)
      | [] => some ([], 1)

/-- How much of a text a comment takes: up to its last mark, or all. -/
def commentLength : List Char → Nat
  | '*' :: '/' :: _ => 2
  | _ :: cs => commentLength cs + 1
  | [] => 0

/-- How much of a text a number takes. -/
def numberLength (cs : List Char) : Nat :=
  let run (cs : List Char) : Nat := (cs.takeWhile Char.isDigit).length
  match cs with
  | '0' :: x :: h :: rest =>
    if (x = 'x' ∨ x = 'X') ∧ (Text.hexDigit? h).isSome then 3 + (rest.takeWhile fun c => (Text.hexDigit? c).isSome).length
    else decimal run cs
  | _ => decimal run cs
where
  /-- The digits, those behind a point, and an exponent. -/
  decimal (run : List Char → Nat) (cs : List Char) : Nat :=
    let n := run cs
    let n := match cs.drop n with
      | '.' :: rest => n + 1 + run rest
      | _ => n
    match cs.drop n with
    | e :: rest =>
      let digits := match rest with
        | '+' :: r | '-' :: r => if run r = 0 then 0 else run r + 1
        | r => run r
      if (e = 'e' ∨ e = 'E') ∧ digits ≠ 0 then n + 1 + digits else n
    | [] => n

/-- The operators of more than one character. -/
def operators : List String := ["->>", "->", "==", "<=", "<>", "<<", ">=", ">>", "!=", "||"]

/-- The first lexeme of a text that begins with `c`, and how many characters it takes; none for blanks and
comments. -/
def first (c : Char) (rest : List Char) : Option Lexeme × Nat :=
  let cs := c :: rest
  let cut (n : Nat) : String := String.ofList (cs.take n)
  let closing : Option Char := if c = '[' then some ']' else if "\"'\x60".toList.contains c then some c else none
  if blank c then (none, 1)
  else if c = '-' ∧ rest.head? = some '-' then (none, (cs.takeWhile (· ≠ '\n')).length)
  else if c = '/' ∧ rest.head? = some '*' ∧ 1 < rest.length then (none, 2 + commentLength (rest.drop 1))
  else if let some quote := closing then
    let found := if quote = ']' then
        (if rest.contains ']' then some (rest.takeWhile (· ≠ ']'), (rest.takeWhile (· ≠ ']')).length + 1) else none)
      else quotedText quote rest
    match found with
    | some (name, n) => (some (.quoted (String.ofList name) (cut (n + 1))), n + 1)
    | none => (some (.flawed (cut cs.length)), cs.length)
  else if (c = 'x' ∨ c = 'X') ∧ rest.head? = some '\'' then
    let body := (rest.drop 1).takeWhile fun d => (Text.hexDigit? d).isSome
    if (rest.drop (body.length + 1)).head? = some '\'' ∧ body.length % 2 = 0 then
      (some (.sign (cut (body.length + 3))), body.length + 3)
    else
      let n := 2 + ((rest.drop 1).takeWhile (· ≠ '\'')).length + 1
      (some (.flawed (cut n)), n)
  else if wordStart c then
    let n := (cs.takeWhile wordChar).length
    (some (.word (cut n)), n)
  else if c.isDigit || (c = '.' && (rest.head?.any Char.isDigit)) then
    let n := numberLength cs
    let more := ((cs.drop n).takeWhile wordChar).length
    (some (if more = 0 then .sign (cut n) else .flawed (cut (n + more))), n + more)
  else if c = '?' then
    let n := 1 + (rest.takeWhile Char.isDigit).length
    (some (.sign (cut n)), n)
  else if "$@#:".toList.contains c then
    let n := (rest.takeWhile wordChar).length
    (some (if n = 0 then .flawed (cut 1) else .sign (cut (n + 1))), n + 1)
  else match operators.find? (·.toList.isPrefixOf cs) with
    | some o => (some (.sign o), o.length)
    | none => (some (if "().,;+-*/&~%=<>|".toList.contains c then .sign (cut 1) else .flawed (cut 1)), 1)

/-- The lexemes of a text, in at most `fuel` steps. -/
def scanWithin : Nat → List Char → List Lexeme
  | 0, _ | _, [] => []
  | fuel + 1, c :: rest =>
    let (lexeme, n) := first c rest
    lexeme.toList ++ scanWithin fuel ((c :: rest).drop n)

/-- The lexemes of a statement. Each takes a character at least. -/
def scan (statement : String) : List Lexeme := scanWithin statement.length statement.toList

/-! ### Statements -/

/-- What follows lexemes that have to stand in front. -/
def expect : List String → List Lexeme → Except Fault (List Lexeme)
  | [], ls => .ok ls
  | _ :: _, [] => .error .unfinished
  | e :: es, l :: ls => if Text.sameName l.text e then expect es ls else .error l.fault

/-- The name in front, and what follows it. -/
def expectName : List Lexeme → Except Fault (String × List Lexeme)
  | [] => .error .unfinished
  | l :: ls => match l.name? with
    | some name => .ok (name, ls)
    | none => .error l.fault

/-- Nothing more but the ends of statements. -/
def expectEnd : List Lexeme → Except Fault Unit
  | [] => .ok ()
  | l :: ls => if l = .sign ";" then expectEnd ls else .error l.fault

/-- The column that is set by a statement into which a text is put for its name. -/
def columnOf (table text : String) : Except Fault String := do
  let rest ← expect ["UPDATE", table, "SET"] (scan ("UPDATE " ++ table ++ " SET " ++ text ++ " = ? WHERE id = ?"))
  let (column, rest) ← expectName rest
  expectEnd (← expect ["=", "?", "WHERE", "id", "=", "?"] rest)
  return column

/-- What a statement drops that stands in front, and what follows its end. -/
def dropOf (ls : List Lexeme) : Except Fault (Drop × List Lexeme) := do
  let rest ← expect ["DROP", "TABLE"] ls
  let (onlyIfThere, rest) ← match rest with
    | .word w :: more => if Text.sameName w "if" then (expect ["EXISTS"] more).map (true, ·) else pure (false, rest)
    | _ => pure (false, rest)
  let (first, rest) ← expectName rest
  let (schema, table, rest) ← match rest with
    | .sign "." :: more => (expectName more).map fun (table, rest) => (some first, table, rest)
    | _ => pure (none, first, rest)
  match rest with
  | [] => return (⟨onlyIfThere, schema, table⟩, [])
  | l :: more => if l = .sign ";" then return (⟨onlyIfThere, schema, table⟩, more) else .error l.fault

end Lexeme

end Lifecycle.Store
