import Lifecycle.Proofs.Workflow.Shape
import Mathlib.Data.List.Chain
import Mathlib.Data.List.Perm.Subperm
import Mathlib.Logic.Function.Iterate
import Mathlib.Order.MinMax

/-!
# The searches of a graph

The heights of the nodes tell whether there is a cycle, and the search from the entry finds all that it leads to. Both
stop after as many rounds as there are nodes: by then a height that still rises needs a walk that comes back, and a
search that still finds has found every node.
-/

namespace Lifecycle

open Relation (ReflTransGen TransGen)

theorem le_foldl_max {l : List Nat} {m k : Nat} : m ≤ l.foldl max k ↔ m ≤ k ∨ ∃ x ∈ l, m ≤ x := by
  induction l generalizing k with
  | nil => simp
  | cons a l ih =>
    rw [List.foldl_cons, ih, le_max_iff, or_assoc]
    simp only [List.mem_cons, exists_eq_or_imp]

theorem nodup_eraseDups {α : Type} [BEq α] [LawfulBEq α] (l : List α) : l.eraseDups.Nodup := by
  match l with
  | [] => simp
  | a :: as =>
    rw [List.eraseDups_cons]
    refine List.nodup_cons.2 ⟨?_, nodup_eraseDups _⟩
    intro ha
    simpa using (List.mem_filter.1 (List.mem_eraseDups.1 ha)).2
termination_by l.length
decreasing_by exact Nat.lt_succ_of_le (List.length_filter_le ..)

namespace Graph

variable {cs : List Connection} {ids : List String}

/-! ### Heights -/

/-- There is a walk of `m` connections from `a`. -/
def Goes (cs : List Connection) : Nat → String → Prop
  | 0, _ => True
  | m + 1, a => ∃ b, Leads cs a b ∧ Goes cs m b

/-- The names of the nodes that a walk passes. -/
theorem Goes.exists_chain {m : Nat} {a : String} (h : Goes cs m a) (ht : ∀ c ∈ cs, c.target ∈ ids) (ha : a ∈ ids) :
    ∃ l, l.length = m ∧ (a :: l).IsChain (Leads cs) ∧ a :: l ⊆ ids := by
  induction m generalizing a with
  | zero => exact ⟨[], rfl, .singleton a, List.cons_subset.2 ⟨ha, List.nil_subset _⟩⟩
  | succ m ih =>
    obtain ⟨b, hab, hb⟩ := h
    obtain ⟨label, hc⟩ := hab
    obtain ⟨l, hlen, hchain, hsub⟩ := ih hb (ht _ hc)
    exact ⟨b :: l, congrArg (· + 1) hlen, .cons_cons ⟨label, hc⟩ hchain, List.cons_subset.2 ⟨ha, hsub⟩⟩

/-- Without a cycle, a walk passes no node twice, so it is shorter than the nodes are many. -/
theorem Goes.lt_length {m : Nat} {a : String} (h : Goes cs m a) (ht : ∀ c ∈ cs, c.target ∈ ids) (ha : a ∈ ids)
    (hacyclic : ∀ id, ¬ TransGen (Leads cs) id id) : m < ids.length := by
  obtain ⟨l, rfl, hchain, hsub⟩ := h.exists_chain ht ha
  have hpairs : (a :: l).Pairwise (TransGen (Leads cs)) := (hchain.imp fun _ _ h => TransGen.single h).pairwise
  have hnodup : (a :: l).Nodup := by
    refine hpairs.imp ?_
    rintro x y hxy rfl
    exact hacyclic x hxy
  exact hnodup.length_le_of_subset hsub

theorem map_fst_raise (hs : List (String × Nat)) : (raise cs hs).map (·.1) = hs.map (·.1) := by
  unfold raise
  rw [List.map_map]
  rfl

theorem heightOf_map (f : String → Nat) {hs : List (String × Nat)} {a : String} (ha : a ∈ hs.map (·.1)) :
    heightOf (hs.map fun (id, _) => (id, f id)) a = f a := by
  unfold heightOf
  induction hs with
  | nil => cases ha
  | cons h hs ih =>
    obtain ⟨id, n⟩ := h
    by_cases hid : a = id
    · simp [hid]
    · rw [List.map_cons, List.lookup_cons, beq_false_of_ne hid]
      exact ih ((List.mem_cons.1 ha).resolve_left hid)

/-- A node is one above the highest that it leads to. -/
theorem le_heightOf_raise {hs : List (String × Nat)} {a : String} (ha : a ∈ hs.map (·.1)) (m : Nat) :
    m + 1 ≤ heightOf (raise cs hs) a ↔ ∃ b, Leads cs a b ∧ m ≤ heightOf hs b := by
  unfold raise
  rw [heightOf_map (fun id => ((cs.filter (·.source == id)).map fun c => heightOf hs c.target + 1).foldl max 0) ha,
    le_foldl_max]
  constructor
  · rintro (h | ⟨x, hx, hm⟩)
    · omega
    · obtain ⟨c, hc, rfl⟩ := List.mem_map.1 hx
      obtain ⟨hmem, hsource⟩ := List.mem_filter.1 hc
      obtain rfl := eq_of_beq hsource
      exact ⟨c.target, ⟨c.label, hmem⟩, Nat.le_of_succ_le_succ hm⟩
  · rintro ⟨b, ⟨label, hc⟩, hm⟩
    refine .inr ⟨heightOf hs b + 1, List.mem_map.2 ⟨_, List.mem_filter.2 ⟨hc, ?_⟩, rfl⟩, Nat.succ_le_succ hm⟩
    exact beq_self_eq_true a

/-- The round that changes nothing could be repeated. -/
theorem settle_eq_iterate (rounds : Nat) (hs : List (String × Nat)) : settle cs rounds hs = (raise cs)^[rounds] hs := by
  induction rounds generalizing hs with
  | zero => rfl
  | succ rounds ih =>
    unfold settle
    rw [Function.iterate_succ_apply]
    dsimp only
    split
    · rename_i h
      rw [h, Function.iterate_fixed h]
    · exact ih _

theorem map_fst_iterate (k : Nat) (hs : List (String × Nat)) : ((raise cs)^[k] hs).map (·.1) = hs.map (·.1) := by
  induction k with
  | zero => rfl
  | succ k ih => rw [Function.iterate_succ_apply', map_fst_raise, ih]

theorem map_fst_zero : (ids.map fun id => (id, 0)).map (·.1) = ids := by
  rw [List.map_map]
  exact List.map_id ids

/-- After `k` rounds the height of a node is the length of its longest walk of at most `k` connections. -/
theorem le_heightOf_iterate (ht : ∀ c ∈ cs, c.target ∈ ids) {a : String} (ha : a ∈ ids) (k m : Nat) :
    m ≤ heightOf ((raise cs)^[k] (ids.map fun id => (id, 0))) a ↔ m ≤ k ∧ Goes cs m a := by
  induction k generalizing a m with
  | zero =>
    have hzero : heightOf (ids.map fun id => (id, 0)) a = 0 := by
      have h := heightOf_map (fun _ => 0) (map_fst_zero.symm ▸ ha : a ∈ (ids.map fun id => (id, 0)).map (·.1))
      rwa [List.map_map] at h
    rw [Function.iterate_zero_apply, hzero]
    constructor
    · intro hm
      obtain rfl : m = 0 := Nat.le_zero.1 hm
      exact ⟨Nat.le_refl 0, trivial⟩
    · exact fun h => h.1
  | succ k ih =>
    cases m with
    | zero => exact ⟨fun _ => ⟨Nat.zero_le _, trivial⟩, fun _ => Nat.zero_le _⟩
    | succ m =>
      rw [Function.iterate_succ_apply', le_heightOf_raise (by rwa [map_fst_iterate, map_fst_zero])]
      constructor
      · rintro ⟨b, ⟨label, hc⟩, hb⟩
        obtain ⟨hk, hgoes⟩ := (ih (ht _ hc) m).1 hb
        exact ⟨Nat.succ_le_succ hk, b, ⟨label, hc⟩, hgoes⟩
      · rintro ⟨hk, b, ⟨label, hc⟩, hgoes⟩
        exact ⟨b, ⟨label, hc⟩, (ih (ht _ hc) m).2 ⟨Nat.le_of_succ_le_succ hk, hgoes⟩⟩

/-- The heights fall along all connections only if no walk comes back, and then they do. -/
theorem falls_iff (hs : ∀ c ∈ cs, c.source ∈ ids) (ht : ∀ c ∈ cs, c.target ∈ ids) :
    (∀ c ∈ cs, heightOf (settle cs ids.length (ids.map fun id => (id, 0))) c.target <
        heightOf (settle cs ids.length (ids.map fun id => (id, 0))) c.source) ↔
      ∀ id, ¬ TransGen (Leads cs) id id := by
  constructor
  · intro h id hid
    exact Nat.lt_irrefl _ (heightOf_lt h hid)
  · intro hacyclic c hc
    rw [settle_eq_iterate]
    obtain ⟨-, hgoes⟩ := (le_heightOf_iterate ht (ht c hc) ids.length _).1 (Nat.le_refl _)
    have hgoes' : Goes cs (heightOf ((raise cs)^[ids.length] (ids.map fun id => (id, 0))) c.target + 1) c.source :=
      ⟨c.target, ⟨c.label, hc⟩, hgoes⟩
    exact (le_heightOf_iterate ht (hs c hc) ids.length _).2 ⟨(hgoes'.lt_length ht (hs c hc) hacyclic).le, hgoes'⟩

/-! ### What the entry leads to -/

theorem subset_spread (rounds : Nat) (found : List String) : found ⊆ spread cs rounds found := by
  induction rounds generalizing found with
  | zero => exact List.Subset.refl found
  | succ rounds ih =>
    unfold spread
    dsimp only
    split
    · exact List.Subset.refl found
    · exact List.Subset.trans (List.subset_append_left found _) (ih _)

/-- What a search with enough rounds has found leads to nothing else: each round finds a node that is new, or is the
last. -/
theorem spread_closed (ht : ∀ c ∈ cs, c.target ∈ ids) {rounds : Nat} {found : List String} (hnodup : found.Nodup)
    (hsub : found ⊆ ids) (hlen : ids.length ≤ rounds + found.length) {a b : String} (hab : Leads cs a b)
    (ha : a ∈ spread cs rounds found) : b ∈ spread cs rounds found := by
  obtain ⟨label, hc⟩ := hab
  induction rounds generalizing found with
  | zero =>
    have hall : found.Perm ids := (List.subperm_of_subset hnodup hsub).perm_of_length_le (by omega)
    exact hall.mem_iff.2 (ht _ hc)
  | succ rounds ih =>
    unfold spread at ha ⊢
    dsimp only at ha ⊢
    split at ha
    · rename_i hempty
      rw [if_pos hempty]
      simp only [List.isEmpty_iff, List.map_eq_nil_iff, List.filter_eq_nil_iff] at hempty
      simpa [ha] using hempty _ hc
    · rename_i hmore
      rw [if_neg hmore]
      refine ih ?_ ?_ ?_ ha
      · refine List.nodup_append.2 ⟨hnodup, nodup_eraseDups _, ?_⟩
        rintro x hx y hy rfl
        obtain ⟨d, hd, rfl⟩ := List.mem_map.1 (List.mem_eraseDups.1 hy)
        simpa [hx] using (List.mem_filter.1 hd).2
      · refine List.append_subset.2 ⟨hsub, ?_⟩
        intro y hy
        obtain ⟨d, hd, rfl⟩ := List.mem_map.1 (List.mem_eraseDups.1 hy)
        exact ht d (List.mem_filter.1 hd).1
      · -- what is fresh is at least one node
        obtain ⟨y, hy⟩ := List.exists_mem_of_ne_nil _ (fun h => hmore (List.isEmpty_iff.2 h))
        have hpos := List.length_pos_of_mem (List.mem_eraseDups.2 hy)
        rw [List.length_append]
        omega

/-- The search from the entry finds just what the entry leads to. -/
theorem mem_spread_iff (ht : ∀ c ∈ cs, c.target ∈ ids) {start : String} (hstart : start ∈ ids) (id : String) :
    id ∈ spread cs ids.length [start] ↔ ReflTransGen (Leads cs) start id := by
  constructor
  · exact leads_of_spread (List.forall_mem_singleton.2 .refl)
  · intro h
    induction h with
    | refl => exact subset_spread _ _ (List.mem_singleton_self start)
    | tail _ hlast ih =>
      exact spread_closed ht (List.nodup_singleton start) (List.cons_subset.2 ⟨hstart, List.nil_subset _⟩) (by simp) hlast ih

end Graph

end Lifecycle
