import Lifecycle.Proofs.Results
import Lifecycle.Target.HostTable
import Lifecycle.Target.Memory
import Mathlib.Data.List.Nodup

/-!
# What calls leave as it is

The outline of an entity is all of it but its fields and tags: its status, the time of the last change and its owner. No call
changes the outline of any entity, and the calls that ask for one are answered from it.
-/

namespace Lifecycle.Target

/-- The call asks for a status, the time of a change, or an owner: of one entity, or for those in a status. -/
def Call.Standing : Call → Prop
  | .status _ | .changedAt _ | .email _ | .find _ _ => True
  | .field _ _ | .putField _ _ _ | .tag _ _ | .view _ => False

/-- The call changes nothing. -/
def Call.Reads : Call → Prop
  | .putField _ _ _ | .tag _ _ => False
  | _ => True

/-! ### In memory -/

def Entity.outline (e : Entity) : Entity := { e with fields := [], tags := [] }

theorem Entity.outline_addTag (e : Entity) (label : String) : (e.addTag label).outline = e.outline := by
  unfold Entity.addTag
  split <;> rfl

namespace Memory

def outline (m : Memory) : Memory := m.map fun (k, e) => (k, e.outline)

theorem lookup_outline (m : Memory) (id : String) : m.outline.lookup id = (m.lookup id).map (·.outline) := by
  induction m with
  | nil => rfl
  | cons p m ih =>
    obtain ⟨k, e⟩ := p
    show List.lookup id ((k, e.outline) :: outline m) = _
    rw [List.lookup_cons, List.lookup_cons]
    cases id == k
    · exact ih
    · rfl

theorem outline_update (m : Memory) (id : String) {f : Entity → Entity} (h : ∀ e, (f e).outline = e.outline) :
    (m.update id f).outline = m.outline := by
  unfold update outline
  rw [List.map_map]
  refine List.map_congr_left fun p _ => ?_
  show (fun q : String × Entity => (q.1, q.2.outline)) (if p.1 = id then (p.1, f p.2) else (p.1, p.2)) = _
  split
  · exact congrArg (Prod.mk p.1) (h p.2)
  · rfl

theorem outline_write (m : Memory) (id : String) {f : Entity → Entity} (h : ∀ e, (f e).outline = e.outline) :
    (m.write id f).2.outline = m.outline := by
  unfold write
  split
  · exact m.outline_update id h
  · rfl

theorem answer_reads {c : Call} (h : c.Reads) (m : Memory) : (m.answer c).2 = m := by
  cases c with
  | putField | tag => exact h.elim
  | _ => rfl

theorem outline_answer (m : Memory) (c : Call) : (m.answer c).2.outline = m.outline := by
  cases c with
  | putField id field value => exact m.outline_write id fun _ => rfl
  | tag id label => exact m.outline_write id fun e => e.outline_addTag label
  | _ => rfl

theorem names_outline (m : Memory) : m.outline.map (·.1) = m.map (·.1) := List.map_map

theorem names_answer (m : Memory) (c : Call) : (m.answer c).2.map (·.1) = m.map (·.1) := by
  rw [← names_outline, outline_answer, names_outline]

theorem read_outline {α : Type} (m : Memory) (id : String) {f : Entity → α} (h : ∀ e, f e.outline = f e) :
    m.outline.read id f = m.read id f := by
  unfold read
  rw [lookup_outline]
  cases m.lookup id with
  | none => rfl
  | some e => exact congrArg Except.ok (h e)

theorem answer_outline {c : Call} (h : c.Standing) (m : Memory) : (m.outline.answer c).1 = (m.answer c).1 := by
  cases c with
  | status id => exact m.read_outline id fun _ => rfl
  | changedAt id => exact m.read_outline id fun _ => rfl
  | email id => exact m.read_outline id fun _ => rfl
  | find status before =>
    show Except.ok (((m.map _).filter _).map _) = Except.ok ((m.filter _).map _)
    rw [List.filter_map, List.map_map]
    rfl
  | _ => exact h.elim

end Memory

/-! ### In a table -/

def HostRow.outline (r : HostRow) : HostRow := { r with fields := none, tags := none }

namespace HostRow

variable {r new : HostRow}

theorem outline_putField {field : String} {value : Json} (h : r.putField field value = .ok new) : new.outline = r.outline := by
  obtain ⟨fields, -, h⟩ := bind_ok h
  cases h
  rfl

theorem outline_addTag {label : String} (h : r.addTag label = .ok new) : new.outline = r.outline := by
  obtain ⟨tags, -, h⟩ := bind_ok h
  split at h <;> cases h <;> rfl

end HostRow

namespace HostRows

def outline (rows : HostRows) : HostRows := rows.map (·.outline)

variable {rows : HostRows}

theorem get_outline (rows : HostRows) (id : String) : rows.outline.get id = (rows.get id).map (·.outline) := by
  have hfind : rows.outline.find? (·.id == id) = (rows.find? (·.id == id)).map (·.outline) := List.find?_map
  unfold get
  rw [hfind]
  cases rows.find? (·.id == id) <;> rfl

theorem mem_of_get {id : String} {r : HostRow} (h : rows.get id = .ok r) : r ∈ rows ∧ r.id = id := by
  unfold get at h
  split at h
  · rename_i found hfound
    cases h
    have hid := List.find?_some hfound
    exact ⟨List.mem_of_find?_eq_some hfound, beq_iff_eq.1 hid⟩
  · cases h

theorem outline_change (distinct : (rows.map (·.id)).Nodup) (id : String) {f : HostRow → Except Fault HostRow}
    (h : ∀ r new, f r = .ok new → new.outline = r.outline) : outline (rows.change id f).2 = rows.outline := by
  unfold change
  split
  · rename_i new hnew
    obtain ⟨old, hold, hf⟩ := bind_ok hnew
    obtain ⟨hmem, hid⟩ := mem_of_get hold
    unfold outline
    rw [List.map_map]
    refine List.map_congr_left fun r hr => ?_
    show HostRow.outline (if r.id == id then new else r) = r.outline
    split
    · rename_i hrid
      have hsame : r = old := List.inj_on_of_nodup_map distinct hr hmem ((beq_iff_eq.1 hrid).trans hid.symm)
      rw [hsame]
      exact h old new hf
    · rfl
  · rfl

theorem answer_reads {c : Call} (h : c.Reads) (rows : HostRows) : (rows.answer c).2 = rows := by
  cases c with
  | putField | tag => exact h.elim
  | _ => rfl

theorem outline_answer (distinct : (rows.map (·.id)).Nodup) (c : Call) : outline (rows.answer c).2 = rows.outline := by
  cases c with
  | putField id field value => exact outline_change distinct id fun _ _ => HostRow.outline_putField
  | tag id label => exact outline_change distinct id fun _ _ => HostRow.outline_addTag
  | _ => rfl

theorem ids_outline (rows : HostRows) : rows.outline.map (·.id) = rows.map (·.id) := List.map_map

theorem ids_answer (distinct : (rows.map (·.id)).Nodup) (c : Call) : (rows.answer c).2.map (·.id) = rows.map (·.id) := by
  rw [← ids_outline, outline_answer distinct c, ids_outline]

theorem answer_outline {c : Call} (h : c.Standing) (rows : HostRows) : (rows.outline.answer c).1 = (rows.answer c).1 := by
  cases c with
  | status id =>
    show (rows.outline.get id).map _ = (rows.get id).map _
    rw [get_outline]
    cases rows.get id <;> rfl
  | changedAt id =>
    show (rows.outline.get id).bind _ = (rows.get id).bind _
    rw [get_outline]
    cases rows.get id <;> rfl
  | email id =>
    show (rows.outline.get id).map _ = (rows.get id).map _
    rw [get_outline]
    cases rows.get id <;> rfl
  | find status before =>
    show Except.ok (inStatusSince (rows.map _) status before.floorMillis) = Except.ok (rows.inStatusSince status before.floorMillis)
    unfold inStatusSince
    rw [List.filterMap_map]
    rfl
  | _ => exact h.elim

end HostRows

end Lifecycle.Target
