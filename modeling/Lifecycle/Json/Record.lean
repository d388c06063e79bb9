import Lifecycle.Json.Decode

/-!
Reading objects as records. The fields of a record are read together: of the faults of its entries
the one that comes first in the text counts, and a missing field only when every entry is in order.
A record may also be written as the list of its fields.
-/

namespace Lifecycle.Json

/-- What is read from the entries of an object, or the first fault with the place of its entry. -/
abbrev Ranked (α : Type) := Except (Nat × Fault) α

namespace Ranked

variable {α β γ : Type}

/-- Both results, or the earlier of the faults. -/
def both (f : α → β → γ) : Ranked α → Ranked β → Ranked γ
  | .ok a, .ok b => .ok (f a b)
  | .error e, .ok _ => .error e
  | .ok _, .error e => .error e
  | .error e, .error g => .error (if g.1 < e.1 then g else e)

end Ranked

/-- The items of a list that are not read yet, and the place of the next field. -/
structure Items where
  place : Nat
  left : List Draft

/-- The fields of a record of type `α`. -/
structure Fields (α : Type) where
  names : List (List String)  -- the names of each field, the usual one first
  named : Levels → DraftMembers → Ranked α  -- from the entries of an object
  placed : Levels → Ending → (Nat → Fault) → Items → Except Fault (α × Items)  -- from the items of a list

namespace Fields

variable {α β γ : Type}

/-- The place of the entry under one of `names`, and its draft. -/
def find (names : List String) : DraftMembers → Option (Nat × Draft)
  | [] => none
  | (name, d) :: rest =>
    if name.toOption.any names.contains then some (0, d) else (find names rest).map fun (i, e) => (i + 1, e)

/-- A field of the given names, the usual one first; without an entry it is `absent`. -/
def field (names : List String) (dec : Decoder α) (absent : Option α) : Fields α where
  names := [names]
  named levels entries := match find names entries, absent with
    | some (i, d), _ => (dec levels d).mapError fun f => (i, f)
    | none, some a => .ok a
    | none, none => .error (entries.length + 1, ⟨.misfit (.missingField (names.headD "")), none, 0⟩)
  placed levels ending short items := match items.left, absent with
    | d :: left, _ => (dec levels d).map fun a => (a, ⟨items.place + 1, left⟩)
    | [], none => .error (short items.place)
    | [], some a => ending.map fun _ => (a, ⟨items.place + 1, []⟩)

/-- A field that has to be there. -/
def required (name : String) (dec : Decoder α) : Fields α := field [name] dec none

/-- A field with a value for when it is left out. -/
def withDefault (name : String) (dec : Decoder α) (value : α) : Fields α := field [name] dec (some value)

/-- A field that may be null or left out. -/
def optional (name : String) (dec : Decoder α) : Fields (Option α) := field [name] dec.optional (some none)

/-- The fields of two records read one after the other. -/
def both (f : α → β → γ) (x : Fields α) (y : Fields β) : Fields γ where
  names := x.names ++ y.names
  named levels entries := Ranked.both f (x.named levels entries) (y.named levels entries)
  placed levels ending short items := do
    let (a, items) ← x.placed levels ending short items
    let (b, items) ← y.placed levels ending short items
    return (f a b, items)

def map (f : α → β) (x : Fields α) : Fields β where
  names := x.names
  named levels entries := (x.named levels entries).map f
  placed levels ending short items := (x.placed levels ending short items).map fun (a, items) => (f a, items)

instance : Functor Fields := ⟨map, fun a x => map (fun _ => a) x⟩

instance : Seq Fields := ⟨fun x y => both (fun f a => f a) x (y ())⟩

/-- The usual name of the field that `key` names. -/
def usual (names : List (List String)) (key : String) : Option String :=
  (names.find? (·.contains key)).bind (·.head?)

end Fields

/-! ### Records -/

mutual

/-- The fault of the form of a draft that is skipped. -/
def Draft.form : Draft → Except Fault Unit
  | .null _ | .bool _ _ | .num _ _ | .str _ _ => .ok ()
  | .arr _ items ending => do
    Draft.formItems items
    let _ ← ending
  | .obj _ members ending => do
    Draft.formMembers members
    let _ ← ending
  | .broken _ flaw => .error flaw.skipped

def Draft.formItems : List Draft → Except Fault Unit
  | [] => .ok ()
  | d :: rest => do
    d.form
    Draft.formItems rest

def Draft.formMembers : DraftMembers → Except Fault Unit
  | [] => .ok ()
  | (_, d) :: rest => do
    d.form
    Draft.formMembers rest

end

/-- The first fault of the names of the entries, of which `seen` came before `i`: a field that occurs
twice, and, if `strict`, one that is not known. What else an unknown entry holds need only be of the
right form. -/
def strays (names : List (List String)) (strict : Bool) (mark : Mark) :
    Nat → List String → DraftMembers → Ranked Unit
  | _, _, [] => .ok ()
  | i, _, (.error f, _) :: _ => .error (i, f)
  | i, seen, (.ok k, d) :: rest =>
    match Fields.usual names k with
    | some name =>
      if seen.contains name then .error (i, ⟨.misfit (.duplicateField name), mark, 0⟩)
      else strays names strict mark (i + 1) (name :: seen) rest
    | none =>
      if strict then
        .error (i, ⟨.misfit (.unknownField k (names.flatMap (·.mergeSort (· ≤ ·)))), mark, 0⟩)
      else match d.form with
        | .ok () => strays names strict mark (i + 1) seen rest
        | .error f => .error (i, f)

/-- The end of a list of which every field is read: anything in front of its bracket is too much. -/
def closeFields (before : Mark) : Ending → Except Fault Unit
  | .ok _ => .ok ()
  | .error f => .error (if f.kind = .endInList ∨ f.kind = .trailingComma then f else ⟨.trailing, before, 1⟩)

/-- The number of fields in words. -/
def elements (n : Nat) : String := toString n ++ (if n = 1 then " element" else " elements")

/-- A record named `title`; a `strict` one has no other entries than its fields. -/
def Fields.record {α : Type} (title : String) (strict : Bool) (fields : Fields α) : Decoder α
  | levels, .obj before entries ending => do
    let inner ← levels.enter before
    let closed : Ranked Unit := match ending with
      | .ok _ => .ok ()
      | .error f => .error (entries.length, f)
    let outer := Ranked.both (fun _ _ => ()) (strays fields.names strict before 0 [] entries) closed
    (Ranked.both (fun _ a => a) outer (fields.named inner entries)).mapError fun (_, f) =>
      if f.rest.isNone then { f with rest := before } else f
  | levels, .arr before items ending => do
    let inner ← levels.enter before
    let short (i : Nat) : Fault := match ending with
      | .ok close => ⟨.misfit (.wrongLength i ("struct " ++ title ++ " with " ++ elements fields.names.length)), close, 0⟩
      | .error f => f
    let (a, after) ← fields.placed inner ending short ⟨0, items⟩
    match before, after.left with
    | _, [] =>
      closeFields before ending
      return a
    | none, _ :: _ => unfit (.wrongLength items.length "fewer elements in array") none
    | some _, _ :: _ => .error ⟨.trailing, before, 1⟩
  | _, d => d.mismatch ("struct " ++ title)

end Lifecycle.Json
