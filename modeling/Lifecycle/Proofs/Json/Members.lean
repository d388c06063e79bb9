import Lifecycle.Json.Basic
import Lifecycle.Proofs.Ascending

/-!
# Members in order

The members of an object ascend by their names. An insertion keeps them so, and members that are in order already are
the ones that come of inserting them one after the other.
-/

namespace Lifecycle.Json.Members

/-- The names ascend; none stands there twice. -/
def Ordered (ms : Members) : Prop := ms.Pairwise fun a b => a.1 < b.1

theorem ordered_nil : Ordered [] := List.Pairwise.nil

theorem ordered_of_names {ms : Members} (names : List String) (h : ms.map (·.1) = names) (hn : names.Pairwise (· < ·)) :
    ms.Ordered :=
  List.pairwise_map.1 (h ▸ hn)

theorem Ordered.nodup {ms : Members} (h : ms.Ordered) : (ms.map (·.1)).Nodup := Ascends.nodup h

theorem insert_eq (name : String) (value : Json) (ms : Members) : ms.insert name value = putAscending name value ms := by
  induction ms with
  | nil => rfl
  | cons m ms ih => rw [insert, putAscending, ih]

theorem mem_of_mem_insert {name : String} {value : Json} {ms : Members} {e : String × Json}
    (h : e ∈ insert name value ms) : e = (name, value) ∨ e ∈ ms :=
  mem_of_mem_putAscending (insert_eq name value ms ▸ h)

theorem lookup_insert_self (name : String) (value : Json) (ms : Members) :
    (ms.insert name value).lookup name = some value := by
  rw [insert_eq, lookup_putAscending, if_pos rfl]

theorem lookup_insert_of_ne {name other : String} (h : other ≠ name) (value : Json) (ms : Members) :
    (ms.insert name value).lookup other = ms.lookup other := by
  rw [insert_eq, lookup_putAscending, if_neg h]

theorem ordered_insert (name : String) (value : Json) {ms : Members} (h : ms.Ordered) :
    (insert name value ms).Ordered := by
  rw [insert_eq]
  exact ascends_putAscending h

theorem ofList_eq (entries : List (String × Json)) : ofList entries = putAll entries := by
  unfold ofList putAll
  simp only [insert_eq]

theorem mem_of_mem_ofList {entries : List (String × Json)} {e : String × Json} (h : e ∈ ofList entries) : e ∈ entries :=
  mem_of_mem_putAll (ofList_eq entries ▸ h)

theorem ordered_ofList (entries : List (String × Json)) : (ofList entries).Ordered := by
  rw [ofList_eq]
  exact ascends_putAll entries

theorem insert_of_forall_lt {name : String} {ms : Members} (value : Json) (h : ∀ e ∈ ms, e.1 < name) :
    insert name value ms = ms ++ [(name, value)] := by
  induction ms with
  | nil => rfl
  | cons m ms ih =>
    have hm : m.1 < name := h m List.mem_cons_self
    rw [insert, if_neg (lt_asymm hm), if_neg (ne_of_gt hm), ih fun e he => h e (List.mem_cons_of_mem _ he),
      List.cons_append]

theorem ofList_of_ordered {ms : Members} (h : ms.Ordered) : ofList ms = ms := by
  -- what is inserted so far stands in front of all that is left
  suffices hs : ∀ (pre post : Members), Ordered (pre ++ post) →
      post.foldl (fun ms e => insert e.1 e.2 ms) pre = pre ++ post from hs [] ms h
  intro pre post
  induction post generalizing pre with
  | nil => exact fun _ => (List.append_nil pre).symm
  | cons e post ih =>
    intro hp
    have hpre : ∀ d ∈ pre, d.1 < e.1 := fun d hd => (List.pairwise_append.1 hp).2.2 d hd e List.mem_cons_self
    rw [List.append_cons] at hp ⊢
    rw [List.foldl_cons, insert_of_forall_lt e.2 hpre]
    exact ih _ hp

/-! ### Members given in any order -/

/-- The members in order are those given, if no name is given twice. -/
theorem ofList_eq_of_perm {entries : List (String × Json)} {ms : Members} (hp : entries.Perm ms) (hms : ms.Ordered) :
    ofList entries = ms := by
  have hperm : (ofList entries).Perm ms := by
    rw [ofList_eq]
    exact (perm_putAll ((hp.map (·.1)).nodup_iff.2 hms.nodup)).trans hp
  exact List.Perm.eq_of_pairwise (fun a b _ _ hab hba => absurd hba (lt_asymm hab)) (ordered_ofList entries) hms hperm

end Lifecycle.Json.Members
