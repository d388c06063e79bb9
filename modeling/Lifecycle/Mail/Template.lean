import Lifecycle.Json.Printer
import Lifecycle.Text.Blank
import Lifecycle.Text.Integer

/-!
Templates: texts with placeholders, paths between double braces, that stand for values of a context. They are filled in
one pass from the left, and what is filled in is not read again.
-/

namespace Lifecycle.Template

/-- Why a template cannot be filled in. -/
inductive Fault where
  | unclosed (byte : Nat)
  | empty
deriving DecidableEq, Repr

def Fault.message : Fault → String
  | .unclosed byte => "unclosed placeholder at byte " ++ toString byte
  | .empty => "empty placeholder"

/-- The parts of a path between points; at least one. -/
def segments : List Char → List (List Char)
  | [] => [[]]
  | c :: cs => match c, segments cs with
    | '.', parts => [] :: parts
    | _, part :: more => (c :: part) :: more
    | _, [] => [[c]]

/-- What one segment of a path leads to: a member of an object or an item of a list. -/
def descend (segment : String) : Json → Option Json
  | .obj members => members.lookup segment
  | .arr items => (Text.nat? Text.nat64Bound segment).bind (items[·]?)
  | _ => none

/-- What a path leads to. -/
def lookup (context : Json) (path : List Char) : Option Json :=
  (segments path).foldl (fun value segment => value.bind (descend (String.ofList segment))) (some context)

/-- How a value is filled in: a text as it is, null and nothing as nothing, anything else as JSON. -/
def fill : Option Json → List Char
  | some (.str s) => s.toList
  | some .null | none => []
  | some j => j.printOnto []

/-- The characters before the first two closing braces, and those after them. -/
def close? : List Char → Option (List Char × List Char)
  | '}' :: '}' :: rest => some ([], rest)
  | c :: rest => (close? rest).map fun (path, after) => (c :: path, after)
  | [] => none

theorem length_close? {cs path after : List Char} (h : close? cs = some (path, after)) :
    after.length < cs.length := by
  fun_induction close? cs generalizing path after with
  | case1 rest =>
    cases h
    simp only [List.length_cons]; omega
  | case2 c rest _ ih =>
    obtain ⟨⟨p, a⟩, ha, he⟩ := Option.map_eq_some_iff.1 h
    simp only [Prod.mk.injEq] at he
    obtain ⟨-, rfl⟩ := he
    have := ih ha
    simp only [List.length_cons]; omega
  | case3 => simp at h

/-- The number of bytes of a text. -/
def bytes (cs : List Char) : Nat := cs.foldr (fun c n => c.utf8Size + n) 0

/-- A template filled in, of which `start` bytes are read. -/
def renderFrom (context : Json) (start : Nat) : List Char → Except Fault (List Char)
  | [] => .ok []
  | '{' :: '{' :: rest =>
    match _h : close? rest with
    | none => .error (.unclosed start)
    | some (path, after) =>
      let name := Text.trimChars path
      if name.isEmpty then .error .empty
      else (renderFrom context (start + 4 + bytes path) after).map (fill (lookup context name) ++ ·)
  | c :: rest => (renderFrom context (start + c.utf8Size) rest).map (c :: ·)
termination_by cs => cs.length
decreasing_by
  · have := length_close? _h
    simp only [List.length_cons]; omega
  · simp

/-- A template filled in. -/
def render (template : String) (context : Json) : Except Fault String :=
  (renderFrom context 0 template.toList).map String.ofList

end Lifecycle.Template
