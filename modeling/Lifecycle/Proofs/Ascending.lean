import Mathlib.Data.List.Perm.Basic
import Mathlib.Data.String.Basic

/-!
# Entries by ascending names

What is put into a list whose names ascend takes the place of what had its name, and the names go on to ascend. A name finds
what was put last under it, and no other name finds anything else than before.
-/

namespace Lifecycle

variable {β : Type} {name : String} {value : β} {l : List (String × β)} {e : String × β}

/-- The names ascend; none stands there twice. -/
def Ascends (l : List (String × β)) : Prop := l.Pairwise fun a b => a.1 < b.1

theorem Ascends.nodup (h : Ascends l) : (l.map (·.1)).Nodup :=
  List.pairwise_map.2 (h.imp fun hlt heq => absurd (heq ▸ hlt) (lt_irrefl _))

/-- The entries, by ascending names, with the value under the name. -/
def putAscending (name : String) (value : β) : List (String × β) → List (String × β)
  | [] => [(name, value)]
  | (k, v) :: rest =>
    if name < k then (name, value) :: (k, v) :: rest
    else if name = k then (name, value) :: rest
    else (k, v) :: putAscending name value rest

theorem mem_of_mem_putAscending (h : e ∈ putAscending name value l) : e = (name, value) ∨ e ∈ l := by
  induction l with
  | nil => exact .inl (List.mem_singleton.1 h)
  | cons m l ih =>
    obtain ⟨k, v⟩ := m
    unfold putAscending at h
    split at h
    · exact List.mem_cons.1 h
    split at h
    · exact (List.mem_cons.1 h).imp_right (List.mem_cons_of_mem _)
    · rcases List.mem_cons.1 h with rfl | h
      · exact .inr List.mem_cons_self
      · exact (ih h).imp_right (List.mem_cons_of_mem _)

theorem ascends_putAscending (h : Ascends l) : Ascends (putAscending name value l) := by
  induction l with
  | nil => exact List.pairwise_singleton _ _
  | cons m l ih =>
    obtain ⟨k, v⟩ := m
    obtain ⟨hk, hl⟩ := List.pairwise_cons.1 h
    unfold putAscending
    split
    · rename_i hlt
      refine List.pairwise_cons.2 ⟨fun e he => ?_, h⟩
      rcases List.mem_cons.1 he with rfl | he
      · exact hlt
      · exact lt_trans hlt (hk e he)
    split
    · rename_i heq
      exact List.pairwise_cons.2 ⟨fun e he => heq ▸ hk e he, hl⟩
    · rename_i hlt hne
      refine List.pairwise_cons.2 ⟨fun e he => ?_, ih hl⟩
      rcases mem_of_mem_putAscending he with rfl | he
      · exact lt_of_le_of_ne (not_lt.1 hlt) (Ne.symm hne)
      · exact hk e he

theorem perm_putAscending (h : name ∉ l.map (·.1)) : (putAscending name value l).Perm ((name, value) :: l) := by
  induction l with
  | nil => exact .refl _
  | cons m l ih =>
    obtain ⟨k, v⟩ := m
    have hk : name ≠ k := List.ne_of_not_mem_cons h
    have hl : name ∉ l.map (·.1) := List.not_mem_of_not_mem_cons h
    unfold putAscending
    rw [if_neg hk]
    split
    · exact .refl _
    · exact ((ih hl).cons _).trans (.swap _ _ _)

/-! ### What is found under a name -/

theorem mem_of_lookup {id : String} (h : l.lookup id = some value) : (id, value) ∈ l := by
  obtain ⟨before, after, rfl, -⟩ := List.lookup_eq_some_iff.1 h
  simp

theorem lookup_entry (id k : String) (v : β) (l : List (String × β)) :
    List.lookup id ((k, v) :: l) = if id = k then some v else l.lookup id := by
  rw [List.lookup_cons]
  by_cases h : id = k
  · rw [if_pos h, beq_iff_eq.2 h]
  · rw [if_neg h, beq_false_of_ne h]

theorem lookup_putAscending (name : String) (value : β) (l : List (String × β)) (id : String) :
    (putAscending name value l).lookup id = if id = name then some value else l.lookup id := by
  induction l with
  | nil => exact lookup_entry id name value []
  | cons m l ih =>
    obtain ⟨k, v⟩ := m
    unfold putAscending
    split
    · exact lookup_entry id name value _
    split
    · rename_i hk
      rw [lookup_entry, lookup_entry, ← hk]
      exact ite_congr rfl (fun _ => rfl) fun h => (if_neg h).symm
    · rename_i hk
      rw [lookup_entry, lookup_entry, ih]
      by_cases h : id = k
      · rw [if_pos h, if_pos h, if_neg fun he => hk (he.symm.trans h)]
      · rw [if_neg h, if_neg h]

theorem lookup_filter (gone id : String) (l : List (String × β)) :
    (l.filter (·.1 != gone)).lookup id = if id = gone then none else l.lookup id := by
  induction l with
  | nil => simp
  | cons m l ih =>
    obtain ⟨k, v⟩ := m
    rw [List.filter_cons, lookup_entry]
    by_cases hk : k = gone
    · rw [if_neg (by simpa using hk), ih, hk]
      exact ite_congr rfl (fun _ => rfl) fun h => (if_neg h).symm
    · rw [if_pos (by simpa using hk), lookup_entry, ih]
      by_cases h : id = k
      · rw [if_pos h, if_pos h, if_neg (h ▸ hk)]
      · rw [if_neg h, if_neg h]

/-- Where each entry has a name of its own, the name finds it. -/
theorem lookup_eq_some_iff (h : (l.map (·.1)).Nodup) : l.lookup name = some value ↔ (name, value) ∈ l := by
  refine ⟨mem_of_lookup, fun hmem => ?_⟩
  induction l with
  | nil => cases hmem
  | cons m l ih =>
    obtain ⟨k, v⟩ := m
    obtain ⟨hk, hl⟩ := List.nodup_cons.1 h
    rw [lookup_entry]
    rcases List.mem_cons.1 hmem with heq | hmem
    · cases heq
      exact if_pos rfl
    · have hne : name ≠ k := fun heq => hk (heq ▸ List.mem_map.2 ⟨_, hmem, rfl⟩)
      rw [if_neg hne]
      exact ih hl hmem

/-- Of a name there is what was put last under it, and of other names what there was. -/
theorem mem_putAscending (h : Ascends l) : e ∈ putAscending name value l ↔ e = (name, value) ∨ e ∈ l ∧ e.1 ≠ name := by
  obtain ⟨k, v⟩ := e
  rw [← lookup_eq_some_iff (ascends_putAscending h).nodup, lookup_putAscending, ← lookup_eq_some_iff h.nodup]
  by_cases hk : k = name
  · simp [hk, eq_comm]
  · simp [hk]

/-! ### Entries given in any order -/

/-- The entries by ascending names; of one name the last. -/
def putAll (entries : List (String × β)) : List (String × β) := entries.foldl (fun l e => putAscending e.1 e.2 l) []

variable {entries : List (String × β)}

theorem mem_of_mem_putAll (h : e ∈ putAll entries) : e ∈ entries := by
  unfold putAll at h
  refine List.foldlRecOn entries _ (motive := fun l => ∀ e ∈ l, e ∈ entries) (by simp) (fun l hl m hm e he => ?_) e h
  rcases mem_of_mem_putAscending he with rfl | he
  · exact hm
  · exact hl e he

theorem ascends_putAll (entries : List (String × β)) : Ascends (putAll entries) :=
  List.foldlRecOn entries _ List.Pairwise.nil fun _ h _ _ => ascends_putAscending h

theorem perm_putAll (h : (entries.map (·.1)).Nodup) : (putAll entries).Perm entries := by
  suffices hs : ∀ pre post : List (String × β), ((pre ++ post).map (·.1)).Nodup →
      (post.foldl (fun l e => putAscending e.1 e.2 l) pre).Perm (pre ++ post) from hs [] entries h
  intro pre post
  induction post generalizing pre with
  | nil => exact fun _ => by simp
  | cons e post ih =>
    intro hp
    have hmoved : (pre ++ e :: post).Perm (e :: (pre ++ post)) := List.perm_middle
    have hnodup := (hmoved.map (·.1)).nodup_iff.1 hp
    have hnew : e.1 ∉ pre.map (·.1) := fun hmem =>
      (List.nodup_cons.1 hnodup).1 (List.map_subset _ (List.subset_append_left pre post) hmem)
    have hput : (putAscending e.1 e.2 pre ++ post).Perm (e :: (pre ++ post)) := (perm_putAscending hnew).append_right post
    rw [List.foldl_cons]
    exact (ih _ ((hput.map (·.1)).nodup_iff.2 hnodup)).trans (hput.trans hmoved.symm)

end Lifecycle
