import Lifecycle.Decimal.Double

/-!
JSON values. Numbers are 64-bit integers (signed or unsigned) or numbers of the binary64 format,
and the two kinds are never equal. The members of an object are in ascending order of their names.
-/

namespace Lifecycle

open Decimal (Double)

/-- A JSON number. -/
inductive Json.Num where
  | int (n : Int)
  | double (d : Double)
deriving DecidableEq, Repr, Inhabited

/-- A JSON value. -/
inductive Json where
  | null
  | bool (b : Bool)
  | num (n : Json.Num)
  | str (s : String)
  | arr (items : List Json)
  | obj (members : List (String × Json))
deriving Repr, Inhabited

namespace Json

/-! ### Equality -/

mutual

def decEq : (a b : Json) → Decidable (a = b)
  | .null, b => by cases b <;> first | exact isTrue rfl | exact isFalse nofun
  | .bool x, b => by
    cases b with
    | bool y => exact if h : x = y then isTrue (h ▸ rfl) else isFalse fun e => h (Json.bool.inj e)
    | _ => exact isFalse nofun
  | .num x, b => by
    cases b with
    | num y => exact if h : x = y then isTrue (h ▸ rfl) else isFalse fun e => h (Json.num.inj e)
    | _ => exact isFalse nofun
  | .str x, b => by
    cases b with
    | str y => exact if h : x = y then isTrue (h ▸ rfl) else isFalse fun e => h (Json.str.inj e)
    | _ => exact isFalse nofun
  | .arr x, b => by
    cases b with
    | arr y => exact match decEqItems x y with
      | isTrue h => isTrue (h ▸ rfl)
      | isFalse h => isFalse fun e => h (Json.arr.inj e)
    | _ => exact isFalse nofun
  | .obj x, b => by
    cases b with
    | obj y => exact match decEqMembers x y with
      | isTrue h => isTrue (h ▸ rfl)
      | isFalse h => isFalse fun e => h (Json.obj.inj e)
    | _ => exact isFalse nofun

def decEqItems : (a b : List Json) → Decidable (a = b)
  | [], [] => isTrue rfl
  | [], _ :: _ => isFalse nofun
  | _ :: _, [] => isFalse nofun
  | x :: xs, y :: ys => match decEq x y, decEqItems xs ys with
    | isTrue h, isTrue g => isTrue (h ▸ g ▸ rfl)
    | isFalse h, _ => isFalse fun e => h (List.cons.inj e).1
    | _, isFalse g => isFalse fun e => g (List.cons.inj e).2

def decEqMembers : (a b : List (String × Json)) → Decidable (a = b)
  | [], [] => isTrue rfl
  | [], _ :: _ => isFalse nofun
  | _ :: _, [] => isFalse nofun
  | (k, x) :: xs, (l, y) :: ys =>
    if hk : k = l then match decEq x y, decEqMembers xs ys with
      | isTrue h, isTrue g => isTrue (hk ▸ h ▸ g ▸ rfl)
      | isFalse h, _ => isFalse fun e => h (Prod.mk.inj (List.cons.inj e).1).2
      | _, isFalse g => isFalse fun e => g (List.cons.inj e).2
    else isFalse fun e => hk (Prod.mk.inj (List.cons.inj e).1).1

end

instance : DecidableEq Json := decEq

/-! ### Members -/

/-- The members of an object, by ascending names. -/
abbrev Members := List (String × Json)

/-- The members with `value` under `name`, in its place by order. -/
def Members.insert (name : String) (value : Json) : Members → Members
  | [] => [(name, value)]
  | (k, v) :: rest =>
    if name < k then (name, value) :: (k, v) :: rest
    else if name = k then (name, value) :: rest
    else (k, v) :: Members.insert name value rest

/-- The members given in any order; of one name the last. -/
def Members.ofList (entries : List (String × Json)) : Members :=
  entries.foldl (fun ms e => Members.insert e.1 e.2 ms) []

/-- An object of the given members, in any order. -/
def object (entries : List (String × Json)) : Json := .obj (Members.ofList entries)

/-- An integer value. -/
abbrev int (n : Int) : Json := .num (.int n)

/-- A text or null. -/
def optional (s : Option String) : Json := s.elim .null .str

/-! ### Reading values -/

def text? : Json → Option String
  | .str s => some s
  | _ => none

def isNull : Json → Bool
  | .null => true
  | _ => false

/-! ### Shape -/

mutual

/-- The number of containers around the innermost value. -/
def depth : Json → Nat
  | .arr items => depthItems items + 1
  | .obj members => depthMembers members + 1
  | _ => 0

def depthItems : List Json → Nat
  | [] => 0
  | j :: rest => max (depth j) (depthItems rest)

def depthMembers : List (String × Json) → Nat
  | [] => 0
  | (_, j) :: rest => max (depth j) (depthMembers rest)

end

mutual

/-- Numerical equality of values: equal but for the sign of a zero. -/
def same : Json → Json → Bool
  | .num (.double a), .num (.double b) => a.same b
  | .arr a, .arr b => sameItems a b
  | .obj a, .obj b => sameMembers a b
  | .null, .null => true
  | .bool a, .bool b => a == b
  | .num (.int a), .num (.int b) => a == b
  | .str a, .str b => a == b
  | _, _ => false

def sameItems : List Json → List Json → Bool
  | [], [] => true
  | a :: as, b :: bs => same a b && sameItems as bs
  | _, _ => false

def sameMembers : List (String × Json) → List (String × Json) → Bool
  | [], [] => true
  | (k, a) :: as, (l, b) :: bs => k == l && same a b && sameMembers as bs
  | _, _ => false

end

end Json

end Lifecycle
