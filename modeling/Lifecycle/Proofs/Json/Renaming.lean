import Lifecycle.Proofs.Json.RoundTrip
import Mathlib.Data.Option.Basic

/-!
# Texts and values with other identifiers in them

A text is spelled like another one if it has an identifier where the other one has its counterpart, and the same characters
everywhere else. Two values are the same up to identifiers if one has an identifier as a text where the other one has its
counterpart; then their texts are spelled alike, as long as nothing in an identifier is escaped.
-/

namespace Lifecycle

/-- The same characters, but for identifiers that correspond to each other. -/
inductive Text.Spelled (C : String → String → Prop) : List Char → List Char → Prop where
  | nil : Spelled C [] []
  | char (c : Char) {a b : List Char} (h : Spelled C a b) : Spelled C (c :: a) (c :: b)
  | identifier {i j : String} (pair : C i j) {a b : List Char} (h : Spelled C a b) :
    Spelled C (i.toList ++ a) (j.toList ++ b)

namespace Text

variable {C : String → String → Prop} {a b a' b' : List Char}

theorem Spelled.behind (h : Spelled C a b) (front : List Char) : Spelled C (front ++ a) (front ++ b) := by
  induction front with
  | nil => exact h
  | cons c front ih => exact .char c ih

theorem spelled_refl (a : List Char) : Spelled C a a := by
  have h := (Spelled.nil (C := C)).behind a
  rwa [List.append_nil] at h

theorem Spelled.append (h : Spelled C a b) (g : Spelled C a' b') : Spelled C (a ++ a') (b ++ b') := by
  induction h with
  | nil => exact g
  | char c _ ih => exact .char c ih
  | identifier pair _ ih =>
    rw [List.append_assoc, List.append_assoc]
    exact .identifier pair ih

theorem Spelled.mono {D : String → String → Prop} (hD : ∀ i j, C i j → D i j) (h : Spelled C a b) : Spelled D a b := by
  induction h with
  | nil => exact .nil
  | char c _ ih => exact .char c ih
  | identifier pair _ ih => exact .identifier (hD _ _ pair) ih

end Text

namespace Json

open Text (Spelled spelled_refl)

mutual

/-- The same value, but for identifiers in it that correspond to each other. -/
inductive Renamed (C : String → String → Prop) : Json → Json → Prop where
  | same (j : Json) : Renamed C j j
  | identifier {i i' : String} (pair : C i i') : Renamed C (.str i) (.str i')
  | object {ms ms' : Members} (h : RenamedMembers C ms ms') : Renamed C (.obj ms) (.obj ms')

inductive RenamedMembers (C : String → String → Prop) : Members → Members → Prop where
  | nil : RenamedMembers C [] []
  | cons (name : String) {j j' : Json} (h : Renamed C j j') {ms ms' : Members} (hs : RenamedMembers C ms ms') :
    RenamedMembers C ((name, j) :: ms) ((name, j') :: ms')

end

variable {C : String → String → Prop}

mutual

theorem Renamed.mono {D : String → String → Prop} (hD : ∀ i j, C i j → D i j) : {j j' : Json} → Renamed C j j' → Renamed D j j'
  | _, _, .same j => .same j
  | _, _, .identifier pair => .identifier (hD _ _ pair)
  | _, _, .object h => .object (h.mono hD)

theorem RenamedMembers.mono {D : String → String → Prop} (hD : ∀ i j, C i j → D i j) :
    {ms ms' : Members} → RenamedMembers C ms ms' → RenamedMembers D ms ms'
  | _, _, .nil => .nil
  | _, _, .cons name h hs => .cons name (h.mono hD) (hs.mono hD)

end

/-! ### Members -/

theorem RenamedMembers.insert (name : String) {j j' : Json} (hj : Renamed C j j') {ms ms' : Members}
    (h : RenamedMembers C ms ms') : RenamedMembers C (ms.insert name j) (ms'.insert name j') := by
  cases h with
  | nil => exact .cons name hj .nil
  | cons k h hs =>
    have rest := hs.insert name hj
    unfold Members.insert
    split
    · exact .cons name hj (.cons k h hs)
    · split
      · exact .cons name hj hs
      · exact .cons k h rest

/-- Objects of the same members, some of them with other identifiers. -/
theorem renamed_object {entries entries' : List (String × Json)}
    (h : List.Forall₂ (fun e e' => e.1 = e'.1 ∧ Renamed C e.2 e'.2) entries entries') :
    Renamed C (object entries) (object entries') := by
  have fold {ms ms' : Members} (hms : RenamedMembers C ms ms') :
      RenamedMembers C (entries.foldl (fun ms e => ms.insert e.1 e.2) ms)
        (entries'.foldl (fun ms e => ms.insert e.1 e.2) ms') := by
    induction h generalizing ms ms' with
    | nil => exact hms
    | @cons e e' _ _ he _ ih =>
      rw [List.foldl_cons, List.foldl_cons, ← he.1]
      exact ih (hms.insert e.1 he.2)
  exact .object (fold .nil)

theorem RenamedMembers.lookup (name : String) {ms ms' : Members} (h : RenamedMembers C ms ms') :
    Option.Rel (Renamed C) (ms.lookup name) (ms'.lookup name) := by
  cases h with
  | nil => exact .none
  | cons k h hs =>
    have rest := hs.lookup name
    rw [List.lookup_cons, List.lookup_cons]
    cases name == k with
    | true => exact .some h
    | false => exact rest

/-! ### Texts -/

mutual

theorem spelled_same (j : Json) {a b : List Char} (h : Spelled C a b) : Spelled C (j.printOnto a) (j.printOnto b) := by
  match j with
  | .null => exact h.behind ['n', 'u', 'l', 'l']
  | .bool true => exact h.behind ['t', 'r', 'u', 'e']
  | .bool false => exact h.behind ['f', 'a', 'l', 's', 'e']
  | .num n => exact h.behind n.print.toList
  | .str s => exact h.behind (quote s)
  | .arr items => exact .char '[' (spelled_same_items items (.char ']' h))
  | .obj members => exact .char '{' (spelled_same_members members (.char '}' h))

theorem spelled_same_items (items : List Json) {a b : List Char} (h : Spelled C a b) :
    Spelled C (printItems items a) (printItems items b) := by
  match items with
  | [] => exact h
  | [j] => exact spelled_same j h
  | j :: k :: more => exact spelled_same j (.char ',' (spelled_same_items (k :: more) h))

theorem spelled_same_members (members : Members) {a b : List Char} (h : Spelled C a b) :
    Spelled C (printMembers members a) (printMembers members b) := by
  match members with
  | [] => exact h
  | [(k, j)] => exact Spelled.behind (.char ':' (spelled_same j h)) (quote k)
  | (k, j) :: m :: more =>
    exact Spelled.behind (.char ':' (spelled_same j (.char ',' (spelled_same_members (m :: more) h)))) (quote k)

end

/-- Nothing in the text is escaped. -/
def Plain (s : String) : Prop := s.toList.flatMap escape = s.toList

theorem plain_of_forall {s : String} (h : ∀ c ∈ s.toList, escape c = [c]) : Plain s := by
  have single (cs : List Char) (hcs : ∀ c ∈ cs, escape c = [c]) : cs.flatMap escape = cs := by
    induction cs with
    | nil => rfl
    | cons c cs ih =>
      rw [List.flatMap_cons, hcs c List.mem_cons_self, ih fun d hd => hcs d (List.mem_cons_of_mem c hd)]
      rfl
  exact single s.toList h

theorem escape_of_isDigit {c : Char} (h : c.isDigit = true) : escape c = [c] := by
  have hne (d : Char) (hd : d.isDigit = false) : c ≠ d := fun heq => by rw [heq, hd] at h; cases h
  have hspace : ¬ c.toNat < 0x20 := by
    simp only [Char.isDigit, Bool.and_eq_true, decide_eq_true_eq] at h
    have hlow : 48 ≤ c.val.toNat := UInt32.le_iff_toNat_le.1 h.1
    have hval : c.toNat = c.val.toNat := rfl
    omega
  simp [escape, hne '"' rfl, hne '\\' rfl, hne '\n' rfl, hne '\r' rfl, hne '\t' rfl, hne '\x08' rfl, hne '\x0c' rfl, hspace]

theorem spelled_quote (plain : ∀ i j, C i j → Plain i ∧ Plain j) {i j : String} (pair : C i j) {a b : List Char}
    (h : Spelled C a b) : Spelled C (quote i ++ a) (quote j ++ b) := by
  have hquote {s : String} (hs : Plain s) (rest : List Char) : quote s ++ rest = '"' :: (s.toList ++ '"' :: rest) := by
    unfold quote
    rw [hs]
    simp
  rw [hquote (plain i j pair).1, hquote (plain i j pair).2]
  exact .char '"' (.identifier pair (.char '"' h))

mutual

/-- The texts of values that are the same up to identifiers are spelled alike. -/
theorem Renamed.spelled (plain : ∀ i j, C i j → Plain i ∧ Plain j) {a b : List Char} (h : Spelled C a b) :
    {j j' : Json} → Renamed C j j' → Spelled C (j.printOnto a) (j'.printOnto b)
  | _, _, .same j => spelled_same j h
  | _, _, .identifier pair => spelled_quote plain pair h
  | _, _, .object hs => .char '{' (hs.spelled plain (.char '}' h))

theorem RenamedMembers.spelled (plain : ∀ i j, C i j → Plain i ∧ Plain j) {a b : List Char} (h : Spelled C a b) :
    {ms ms' : Members} → RenamedMembers C ms ms' → Spelled C (printMembers ms a) (printMembers ms' b)
  | _, _, .nil => h
  | _, _, .cons k hj .nil => Spelled.behind (.char ':' (hj.spelled plain h)) (quote k)
  | _, _, .cons k hj (.cons l hk hs) =>
    Spelled.behind (.char ':' (hj.spelled plain (.char ',' (RenamedMembers.spelled plain h (.cons l hk hs))))) (quote k)

end

end Json

end Lifecycle
