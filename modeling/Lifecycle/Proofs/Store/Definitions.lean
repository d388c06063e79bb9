import Lifecycle.Proofs.Keyed
import Lifecycle.Proofs.Workflow.Storage
import Lifecycle.Store.Definitions
import Mathlib.Logic.Function.Basic

/-!
# The table of definitions as a finite map

The table has one row for every identifier. As long as the definitions are storable, it is the graph of a finite map: a row
that is saved takes the place of the one under its identifier, and the columns by which a definition is listed are those of
the definition that its text holds.
-/

namespace Lifecycle.Store.Definitions

variable {ds : Definitions} {row : DefinitionRow} {id : String}

/-! ### Rows under their identifiers -/

theorem get?_iff (h : (ds.map (·.id)).Nodup) : ds.get? id = some row ↔ row ∈ ds ∧ row.id = id := find?_key_iff h

theorem any_id_eq : ds.any (·.id == id) = (ds.get? id).isSome := by
  rw [get?, List.isSome_find?]

theorem get?_save (ds : Definitions) (row : DefinitionRow) (id : String) :
    (ds.save row).get? id = if row.id = id then some row else ds.get? id := find?_putKeyed

theorem get?_delete (ds : Definitions) (id other : String) :
    (ds.delete id).2.get? other = if other = id then none else ds.get? other := by
  unfold delete get?
  rw [List.find?_filter]
  by_cases h : other = id
  · rw [if_pos h, List.find?_eq_none]
    intro d _ hd
    simp [h] at hd
  · rw [if_neg h]
    congr 1
    funext d
    by_cases hd : d.id = other
    · simp [hd, h]
    · simp [hd]

theorem nodup_delete (h : (ds.map (·.id)).Nodup) (id : String) : ((ds.delete id).2.map (·.id)).Nodup :=
  h.sublist (List.filter_sublist.map _)

theorem nodup_save (h : (ds.map (·.id)).Nodup) (row : DefinitionRow) : ((ds.save row).map (·.id)).Nodup := nodup_putKeyed h

end Lifecycle.Store.Definitions

/-! ### Finite maps -/

namespace Lifecycle.Store

/-- The row is the one of a definition: its text is read as the definition, and its columns are the definition's. -/
structure DefinitionRow.Holds (row : DefinitionRow) (d : Definition) : Prop where
  text : Definition.ofText row.definition = .ok d
  id : row.id = d.id
  name : row.name = d.name
  triggerType : row.triggerType = d.triggerType.name
  active : row.active = if d.active then 1 else 0

theorem DefinitionRow.holds_ofDefinition {d : Definition} (h : d.Lasting) : (DefinitionRow.ofDefinition d).Holds d.settled where
  text := Definition.ofText_settled h
  id := rfl
  name := rfl
  triggerType := rfl
  active := rfl

/-- The rows are those of the definitions of a finite map. -/
structure Definitions.Lists (ds : Definitions) (m : String → Option Definition) : Prop where
  distinct : (ds.map (·.id)).Nodup
  get : ∀ id, Option.Rel DefinitionRow.Holds (ds.get? id) (m id)
  own : ∀ id d, m id = some d → d.id = id ∧ d.Storable

namespace Definitions.Lists

variable {ds : Definitions} {row : DefinitionRow} {m : String → Option Definition} {d : Definition}

theorem of_mem (h : ds.Lists m) (hrow : row ∈ ds) : ∃ d, m row.id = some d ∧ row.Holds d := by
  have hget := h.get row.id
  rw [(get?_iff h.distinct).2 ⟨hrow, rfl⟩] at hget
  generalize m row.id = d? at hget
  cases hget with
  | some hholds => exact ⟨_, rfl, hholds⟩

theorem of_some (h : ds.Lists m) {id : String} (hd : m id = some d) : ∃ row ∈ ds, row.Holds d := by
  have hget := h.get id
  rw [hd] at hget
  cases hrow : ds.get? id with
  | none =>
    rw [hrow] at hget
    cases hget
  | some row =>
    rw [hrow] at hget
    cases hget with
    | some hholds => exact ⟨row, ((get?_iff h.distinct).1 hrow).1, hholds⟩

theorem empty : Lists [] fun _ => none where
  distinct := List.nodup_nil
  get _ := .none
  own _ _ h := by cases h

theorem save (h : ds.Lists m) (hd : d.Lasting) :
    (ds.save (.ofDefinition d)).Lists (Function.update m d.id (some d.settled)) where
  distinct := nodup_save h.distinct _
  get id := by
    have hid : (DefinitionRow.ofDefinition d).id = d.id := rfl
    rw [get?_save, hid]
    by_cases he : id = d.id
    · subst he
      rw [if_pos rfl, Function.update_self]
      exact .some (DefinitionRow.holds_ofDefinition hd)
    · rw [if_neg (Ne.symm he), Function.update_of_ne he]
      exact h.get id
  own id e he := by
    by_cases hid : id = d.id
    · rw [hid, Function.update_self] at he
      cases he
      exact ⟨hid.symm, hd.settled⟩
    · rw [Function.update_of_ne hid] at he
      exact h.own id e he

theorem delete (h : ds.Lists m) (id : String) : (ds.delete id).2.Lists (Function.update m id none) where
  distinct := nodup_delete h.distinct id
  get other := by
    rw [get?_delete]
    by_cases he : other = id
    · subst he
      rw [if_pos rfl, Function.update_self]
      exact .none
    · rw [if_neg he, Function.update_of_ne he]
      exact h.get other
  own other e he := by
    by_cases hid : other = id
    · rw [hid, Function.update_self] at he
      cases he
    · rw [Function.update_of_ne hid] at he
      exact h.own other e he

/-- What is deleted was there if the map has it. -/
theorem delete_fst (h : ds.Lists m) (id : String) : (ds.delete id).1 = (m id).isSome := by
  show ds.any (·.id == id) = _
  rw [any_id_eq]
  have hget := h.get id
  generalize ds.get? id = row?, m id = d? at hget
  cases hget <;> rfl

end Definitions.Lists

/-- Every definition that can be read has the identifier of its row. -/
def Definitions.Filed (ds : Definitions) : Prop :=
  ∀ row ∈ ds, ∀ d, Definition.ofText row.definition = .ok d → d.id = row.id

theorem Definitions.Lists.filed {ds : Definitions} {m : String → Option Definition} (h : ds.Lists m) : ds.Filed := by
  intro row hrow d hd
  obtain ⟨e, -, holds⟩ := h.of_mem hrow
  cases holds.text.symm.trans hd
  exact holds.id.symm

end Lifecycle.Store
