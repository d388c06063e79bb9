import Lifecycle.Json.Draft
import Lifecycle.Proofs.Json.Members

/-!
# Drafts of values

A draft holds a value if it is complete and every part of it is there. Such a draft is read as the value that it holds, as
far as the levels allow, if its members are in order; and the draft of a value that comes from no text holds that value.
-/

namespace Lifecycle.Json

mutual

/-- A value that is what its text holds, as far as its depth allows. -/
def Durable : Json → Prop
  | .num (.int n) => -(Text.int64Bound : Int) ≤ n ∧ n < Text.nat64Bound
  | .num (.double _) => False
  | .arr items => DurableItems items
  | .obj members => Members.Ordered members ∧ DurableMembers members
  | .null | .bool _ | .str _ => True

def DurableItems : List Json → Prop
  | [] => True
  | j :: rest => j.Durable ∧ DurableItems rest

def DurableMembers : List (String × Json) → Prop
  | [] => True
  | (_, j) :: rest => j.Durable ∧ DurableMembers rest

end

/-- What holds of a list as it does of its first element and of the rest holds of each of its elements. -/
theorem iff_forall_mem {α : Type} {P : List α → Prop} {Q : α → Prop} (nil : P [])
    (cons : ∀ a l, P (a :: l) ↔ Q a ∧ P l) (l : List α) : P l ↔ ∀ a ∈ l, Q a := by
  induction l with
  | nil => simp [nil]
  | cons a l ih => rw [cons, ih, List.forall_mem_cons]

theorem durableItems_iff (items : List Json) : DurableItems items ↔ ∀ j ∈ items, j.Durable :=
  iff_forall_mem trivial (fun _ _ => Iff.rfl) items

theorem durableMembers_iff (members : List (String × Json)) : DurableMembers members ↔ ∀ e ∈ members, e.2.Durable :=
  iff_forall_mem trivial (fun _ _ => Iff.rfl) members

mutual

/-- The members of every object in the value are in order. -/
def InOrder : Json → Prop
  | .arr items => InOrderItems items
  | .obj members => Members.Ordered members ∧ InOrderMembers members
  | .null | .bool _ | .num _ | .str _ => True

def InOrderItems : List Json → Prop
  | [] => True
  | j :: rest => j.InOrder ∧ InOrderItems rest

def InOrderMembers : List (String × Json) → Prop
  | [] => True
  | (_, j) :: rest => j.InOrder ∧ InOrderMembers rest

end

theorem inOrderMembers_iff (members : List (String × Json)) : InOrderMembers members ↔ ∀ e ∈ members, e.2.InOrder :=
  iff_forall_mem trivial (fun _ _ => Iff.rfl) members

mutual

theorem Durable.inOrder {j : Json} (h : j.Durable) : j.InOrder := by
  match j with
  | .null | .bool _ | .num _ | .str _ => trivial
  | .arr items => exact DurableItems.inOrder h
  | .obj members => exact ⟨h.1, DurableMembers.inOrder h.2⟩

theorem DurableItems.inOrder {items : List Json} (h : DurableItems items) : InOrderItems items := by
  match items with
  | [] => trivial
  | _ :: _ => exact ⟨h.1.inOrder, DurableItems.inOrder h.2⟩

theorem DurableMembers.inOrder {members : List (String × Json)} (h : DurableMembers members) : InOrderMembers members := by
  match members with
  | [] => trivial
  | (_, _) :: _ => exact ⟨h.1.inOrder, DurableMembers.inOrder h.2⟩

end

/-! ### Levels -/

theorem depthItems_le_iff (items : List Json) (n : Nat) : depthItems items ≤ n ↔ ∀ j ∈ items, j.depth ≤ n :=
  iff_forall_mem (P := (depthItems · ≤ n)) (Nat.zero_le n) (fun _ _ => Nat.max_le) items

theorem depthMembers_le_iff (ms : Members) (n : Nat) : depthMembers ms ≤ n ↔ ∀ e ∈ ms, e.2.depth ≤ n :=
  iff_forall_mem (P := (depthMembers · ≤ n)) (Nat.zero_le n) (fun _ _ => Nat.max_le) ms

/-- The reading may still go `depth` levels deep. -/
def Levels.Allow (levels : Levels) (depth : Nat) : Prop := ∀ n, levels = some n → depth ≤ n

theorem Levels.Allow.mono {levels : Levels} {d e : Nat} (h : levels.Allow d) (he : e ≤ d) : levels.Allow e :=
  fun n hn => Nat.le_trans he (h n hn)

theorem Levels.allow_zero (levels : Levels) : levels.Allow 0 := fun n _ => Nat.zero_le n

theorem Levels.Allow.enter {levels : Levels} {depth : Nat} (h : levels.Allow (depth + 1)) (before : Mark) :
    ∃ inner, levels.enter before = .ok inner ∧ inner.Allow depth := by
  match levels with
  | none => exact ⟨none, rfl, fun n hn => by cases hn⟩
  | some 0 => exact absurd (h 0 rfl) (by omega)
  | some (n + 1) =>
    refine ⟨some n, rfl, fun m hm => ?_⟩
    cases hm
    exact Nat.le_of_succ_le_succ (h (n + 1) rfl)

/-! ### Complete drafts -/

mutual

/-- The draft is complete and holds the value. -/
inductive Holds : Draft → Json → Prop
  | null (rest : Mark) : Holds (.null rest) .null
  | bool (b : Bool) (rest : Mark) : Holds (.bool b rest) (.bool b)
  | num (n : Num) (rest : Mark) : Holds (.num (.ok n) rest) (.num n)
  | str (s : String) (rest : Mark) : Holds (.str (.ok s) rest) (.str s)
  | arr (before close : Mark) {ds : List Draft} {items : List Json} (h : HoldsItems ds items) :
    Holds (.arr before ds (.ok close)) (.arr items)
  | obj (before close : Mark) {ds : DraftMembers} {ms : Members} (h : HoldsMembers ds ms) :
    Holds (.obj before ds (.ok close)) (.obj ms)

inductive HoldsItems : List Draft → List Json → Prop
  | nil : HoldsItems [] []
  | cons {d : Draft} {j : Json} {ds : List Draft} {items : List Json} (h : Holds d j) (hs : HoldsItems ds items) :
    HoldsItems (d :: ds) (j :: items)

inductive HoldsMembers : DraftMembers → Members → Prop
  | nil : HoldsMembers [] []
  | cons (k : String) {d : Draft} {j : Json} {ds : DraftMembers} {ms : Members} (h : Holds d j) (hs : HoldsMembers ds ms) :
    HoldsMembers ((.ok k, d) :: ds) ((k, j) :: ms)

end

mutual

/-- A complete draft is read as the value that it holds. -/
theorem Holds.json {d : Draft} {j : Json} (h : Holds d j) (hj : j.InOrder) {levels : Levels}
    (hl : levels.Allow j.depth) : d.json levels = .ok j := by
  match h with
  | .null _ => rfl
  | .bool _ _ => rfl
  | .num _ _ => rfl
  | .str _ _ => rfl
  | @Holds.arr before close ds items hs =>
    obtain ⟨inner, henter, hi⟩ := hl.enter before
    rw [Draft.json, henter]
    show (Draft.jsonItems inner ds >>= fun values => Except.ok (arr values)) = _
    rw [hs.json hj hi]
    rfl
  | @Holds.obj before close ds ms hs =>
    obtain ⟨inner, henter, hi⟩ := hl.enter before
    rw [Draft.json, henter]
    show (Draft.jsonMembers inner ds >>= fun values => Except.ok (object values)) = _
    rw [hs.json hj.2 hi]
    show Except.ok (obj (Members.ofList ms)) = _
    rw [Members.ofList_of_ordered hj.1]

theorem HoldsItems.json {ds : List Draft} {items : List Json} (h : HoldsItems ds items) (hj : InOrderItems items)
    {levels : Levels} (hl : levels.Allow (depthItems items)) : Draft.jsonItems levels ds = .ok items := by
  match h with
  | .nil => rfl
  | .cons hd hs =>
    have hfirst := hd.json hj.1 (hl.mono (Nat.le_max_left _ _))
    have hrest := hs.json hj.2 (hl.mono (Nat.le_max_right _ _))
    simp only [Draft.jsonItems, hfirst, hrest]
    rfl

theorem HoldsMembers.json {ds : DraftMembers} {ms : Members} (h : HoldsMembers ds ms) (hj : InOrderMembers ms)
    {levels : Levels} (hl : levels.Allow (depthMembers ms)) : Draft.jsonMembers levels ds = .ok ms := by
  match h with
  | .nil => rfl
  | .cons k hd hs =>
    have hfirst := hd.json hj.1 (hl.mono (Nat.le_max_left _ _))
    have hrest := hs.json hj.2 (hl.mono (Nat.le_max_right _ _))
    simp only [Draft.jsonMembers, hfirst, hrest]
    rfl

end

/-! ### Values that come from no text -/

mutual

theorem holds_ofJson (j : Json) : Holds (Draft.ofJson j) j := by
  match j with
  | .null => exact .null none
  | .bool b => exact .bool b none
  | .num n => exact .num n none
  | .str s => exact .str s none
  | .arr items => exact .arr none none (holds_ofItems items)
  | .obj members => exact .obj none none (holds_ofMembers members)

theorem holds_ofItems (items : List Json) : HoldsItems (Draft.ofItems items) items := by
  match items with
  | [] => exact .nil
  | j :: rest => exact .cons (holds_ofJson j) (holds_ofItems rest)

theorem holds_ofMembers (members : Members) : HoldsMembers (Draft.ofMembers members) members := by
  match members with
  | [] => exact .nil
  | (k, j) :: rest => exact .cons k (holds_ofJson j) (holds_ofMembers rest)

end

end Lifecycle.Json
