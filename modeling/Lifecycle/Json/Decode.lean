import Lifecycle.Json.Draft

/-!
Reading JSON as typed values. A decoder works on a draft, so it meets the faults of a text and the
misfits of its values in the order of the text. Values that come from no text are read by the same
decoders; where the two differ in the fault they report, the decoder asks where its draft comes from.
-/

namespace Lifecycle.Json

/-- A reading of drafts as values of `α`. -/
abbrev Decoder (α : Type) := Levels → Draft → Except Fault α

/-- A value that does not fit, at the mark `at?` of its text. -/
def unfit {α : Type} (m : Misfit) (at? : Mark) : Except Fault α := .error ⟨.misfit m, at?, 0⟩

/-- The fault of a draft that is read as something else. -/
def Draft.mismatch {α : Type} (expected : String) : Draft → Except Fault α
  | .null rest => unfit (.wrongType .null expected) rest
  | .bool b rest => unfit (.wrongType (.boolean b) expected) rest
  | .num (.ok n) rest => unfit (.wrongType (.number n) expected) rest
  | .str (.ok s) rest => unfit (.wrongType (.text s) expected) rest
  | .arr before _ _ => unfit (.wrongType .sequence expected) before
  | .obj before _ _ => unfit (.wrongType .map expected) before
  | .num (.error f) _ | .str (.error f) _ => .error f
  | .broken _ flaw => .error flaw.read

namespace Decoder

variable {α β : Type}

/-! ### Plain values -/

/-- Any value. -/
def json : Decoder Json := fun levels d => d.json levels

def string : Decoder String
  | _, .str (.ok s) _ => .ok s
  | _, d => d.mismatch "a string"

def boolean : Decoder Bool
  | _, .bool b _ => .ok b
  | _, d => d.mismatch "a boolean"

/-- A natural number of at most `bits` bits. -/
def unsigned (bits : Nat) : Decoder Nat
  | _, .num (.ok (.int n)) rest =>
    if 0 ≤ n ∧ n < Nat.pow 2 bits then .ok n.toNat
    else unfit (.wrongValue (.number (.int n)) ("u" ++ toString bits)) rest
  | _, d => d.mismatch ("u" ++ toString bits)

/-- A value or null. -/
def optional (dec : Decoder α) : Decoder (Option α)
  | _, .null _ => .ok none
  | levels, d => (dec levels d).map some

/-! ### Lists and maps -/

def items (dec : Decoder α) (levels : Levels) : List Draft → Except Fault (List α)
  | [] => .ok []
  | d :: rest => do
    let a ← dec levels d
    return a :: (← items dec levels rest)

def list (dec : Decoder α) : Decoder (List α)
  | levels, .arr before ds ending => do
    let inner ← levels.enter before
    let values ← items dec inner ds
    let _ ← ending
    return values
  | _, d => d.mismatch "a sequence"

def entries (dec : Decoder α) (levels : Levels) : DraftMembers → Except Fault (List (String × α))
  | [] => .ok []
  | (name, d) :: rest => do
    let k ← name
    let a ← dec levels d
    return (k, a) :: (← entries dec levels rest)

/-- The entries of an object in the order of the text, and of one name all. -/
def map (dec : Decoder α) : Decoder (List (String × α))
  | levels, .obj before ms ending => do
    let inner ← levels.enter before
    let values ← entries dec inner ms
    let _ ← ending
    return values
  | _, d => d.mismatch "a map"

/-- The members of an object. -/
def members : Decoder Members := fun levels d => (map json levels d).map Members.ofList

/-! ### Alternatives -/

/-- The alternative of a name. -/
def pick (table : List (String × α)) (name : String) (at? : Mark) : Except Fault α :=
  match table.lookup name with
  | some a => .ok a
  | none => unfit (.unknownVariant name (table.map (·.1))) at?

/-- What an alternative that stands as the name of an object's only member holds: nothing. -/
def nothing : Draft → Except Fault Unit
  | .null _ => .ok ()
  | d => d.mismatch "unit"

/-- The end of an object of which one member is read: anything in front of its bracket is out of place. -/
def closeSingle (before : Mark) : Ending → Except Fault Unit
  | .ok _ => .ok ()
  | .error f => .error (if f.kind = .endInObject then f else ⟨.noValue, before, 1⟩)

/-- One of the alternatives in `table`: its name, or an object that holds null under its name. A text
goes no further than the first character of anything else. -/
def variant (table : List (String × α)) : Decoder α
  | _, .str (.ok s) rest => pick table s rest
  | levels, .obj before ms ending => do
    let _ ← levels.enter before
    match before, ms with
    | none, [(name, d)] => do
      let a ← pick table (← name) none
      nothing d
      return a
    | none, _ => unfit (.wrongValue .map "map with a single key") none
    | some text, [] => (Draft.ofChars (text.drop 1)).1.mismatch "variant identifier"
    | some _, (name, d) :: more => do
      let a ← pick table (← name) before
      nothing d
      if more.isEmpty then
        closeSingle before ending
        return a
      else .error ⟨.noValue, before, 1⟩
  | none, d => d.mismatch "string or map"
  | some _, .str (.error f) _ => .error f
  | some _, .broken before flaw => .error (match before with
    | some ('"' :: _) | some [] | none => flaw.read
    | some _ => ⟨.noValue, before, 1⟩)
  | some _, .null rest | some _, .bool _ rest | some _, .num _ rest | some _, .arr rest _ _ =>
    .error ⟨.noValue, rest, 1⟩

/-! ### Whole texts and values -/

/-- What a value is read as. -/
def ofValue (dec : Decoder α) (j : Json) : Except Fault α := dec none (Draft.ofJson j)

/-- What a text is read as. -/
def ofText (dec : Decoder α) (text : String) : Except Fault α := do
  let (draft, next) := Draft.ofText text
  let a ← dec textLevels draft
  checkEnd (← next)
  return a

end Decoder

end Lifecycle.Json
