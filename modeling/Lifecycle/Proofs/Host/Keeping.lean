import Lifecycle.Host.Startup
import Lifecycle.Proofs.Host.Caches
import Lifecycle.Proofs.Keyed
import Lifecycle.Proofs.Workflow.Storage

/-!
# Registries in step with storage

A registry keeps workflows if their definitions are what is stored, and they are what is cached. It goes on doing so when a
workflow is saved and cached under its name, and when what is stored and cached under a name is removed.
-/

namespace Lifecycle

open Engine (Job)
open Store (Definitions DefinitionRow)

/-! ### Workflows by their names -/

namespace Workflow

/-- A workflow is the same but for its flag when its definition is switched. -/
theorem ofDefinition_switched {d : Definition} {w : Workflow} (h : ofDefinition d = .ok w) (active : Bool) :
    ofDefinition { d with active := active } = .ok { w with definition := { d with active := active } } := by
  have hswitched := ofDefinition_congr (d := d) (e := { d with active := active }) rfl rfl rfl
  rw [h] at hswitched
  exact hswitched

/-- The row under which the definition of a workflow is stored. -/
def row (w : Workflow) : DefinitionRow := .ofDefinition w.definition

/-- The workflows with `w` in place of the one of its name. -/
def put (w : Workflow) (ws : List Workflow) : List Workflow :=
  if ws.any (·.id == w.id) then ws.map fun v => if v.id == w.id then w else v else ws ++ [w]

variable {v w : Workflow} {ws : List Workflow}

theorem mem_put : v ∈ put w ws ↔ v = w ∨ v ∈ ws ∧ v.id ≠ w.id := mem_putKeyed

theorem find?_put (w : Workflow) (ws : List Workflow) : (put w ws).find? (·.id == w.id) = some w :=
  find?_putKeyed.trans (if_pos rfl)

theorem nodup_put (h : (ws.map Workflow.id).Nodup) : ((put w ws).map Workflow.id).Nodup := nodup_putKeyed h

theorem save_rows (w : Workflow) (ws : List Workflow) : Definitions.save (ws.map row) w.row = (put w ws).map row := by
  have hid (v : Workflow) : v.row.id = v.id := rfl
  unfold Definitions.save put
  simp only [List.any_map, Function.comp_def, hid]
  split
  · rw [List.map_map, List.map_map]
    refine List.map_congr_left fun v _ => ?_
    show (if v.row.id == w.id then w.row else v.row) = row (if v.id == w.id then w else v)
    rw [hid]
    split <;> rfl
  · rw [List.map_append]
    rfl

end Workflow

/-! ### Cached workflows by ascending names -/

namespace Host.Worker

/-- The names under which workflows are cached ascend. -/
def Ascending (c : List (String × Workflow)) : Prop := c.Pairwise fun a b => a.1 < b.1

variable {key : String} {w : Workflow} {c : List (String × Workflow)}

theorem ascending_insertWorkflow (h : Ascending c) : Ascending (insertWorkflow key w c) := by
  rw [insertWorkflow_eq]
  exact ascends_putAscending h

/-- Of a name the workflow that was cached last is there. -/
theorem mem_insertWorkflow (h : Ascending c) {e : String × Workflow} :
    e ∈ insertWorkflow key w c ↔ e = (key, w) ∨ e ∈ c ∧ e.1 ≠ key := by
  rw [insertWorkflow_eq]
  exact mem_putAscending h

end Host.Worker

/-! ### Registries -/

namespace Host.Registry

/-- The definitions of the workflows are what is stored, each with what its text keeps of it and without a defect; and the
workflows are what is cached, under their names. -/
structure Keeps (g : Registry) (ws : List Workflow) : Prop where
  stored : g.stored = some (ws.map Workflow.row)
  distinct : (ws.map Workflow.id).Nodup
  proper : ∀ w ∈ ws, w.definition.Storable ∧ Workflow.ofDefinition w.definition = .ok w
  ascending : Worker.Ascending g.cached
  cached : ∀ e, e ∈ g.cached ↔ ∃ w ∈ ws, (w.id, w) = e

variable {g : Registry} {ws : List Workflow}

/-- What is found under a name is the definition of its workflow. -/
theorem find_rows (hg : g.stored = some (ws.map Workflow.row)) (h : ∀ w ∈ ws, w.definition.Storable) (id : String) :
    g.find id = .ok ((ws.find? (·.id == id)).map (·.definition)) := by
  have hrow : g.row id = .ok ((ws.find? (·.id == id)).map Workflow.row) := by
    rw [row_eq hg, Definitions.get?, List.find?_map]
    rfl
  cases hw : ws.find? (·.id == id) with
  | none =>
    rw [hw] at hrow
    exact find_eq_none hrow
  | some w =>
    rw [hw] at hrow
    exact find_eq_some hrow (Definition.ofText_text (h w (List.mem_of_find?_eq_some hw)))

theorem Keeps.find (h : g.Keeps ws) (id : String) : g.find id = .ok ((ws.find? (·.id == id)).map (·.definition)) :=
  find_rows h.stored (fun w hw => (h.proper w hw).1) id

theorem keeps_nothing : Keeps ⟨some [], []⟩ [] where
  stored := rfl
  distinct := List.nodup_nil
  proper _ hw := absurd hw List.not_mem_nil
  ascending := List.Pairwise.nil
  cached e := by simp

theorem Keeps.put (h : g.Keeps ws) {w : Workflow} (hd : w.definition.Storable) (hw : Workflow.ofDefinition w.definition = .ok w) :
    Keeps ⟨some (Definitions.save (ws.map Workflow.row) w.row), Worker.insertWorkflow w.id w g.cached⟩ (w.put ws) where
  stored := congrArg some (Workflow.save_rows w ws)
  distinct := Workflow.nodup_put h.distinct
  proper v hv := by
    rcases Workflow.mem_put.1 hv with rfl | ⟨hv, -⟩
    · exact ⟨hd, hw⟩
    · exact h.proper v hv
  ascending := Worker.ascending_insertWorkflow h.ascending
  cached e := by
    rw [Worker.mem_insertWorkflow h.ascending, h.cached]
    constructor
    · rintro (rfl | ⟨⟨v, hv, rfl⟩, hne⟩)
      · exact ⟨w, Workflow.mem_put.2 (.inl rfl), rfl⟩
      · exact ⟨v, Workflow.mem_put.2 (.inr ⟨hv, hne⟩), rfl⟩
    · rintro ⟨v, hv, rfl⟩
      rcases Workflow.mem_put.1 hv with rfl | ⟨hv, hne⟩
      · exact .inl rfl
      · exact .inr ⟨⟨v, hv, rfl⟩, hne⟩

theorem Keeps.remove (h : g.Keeps ws) (id : String) :
    Keeps ⟨some (Definitions.delete (ws.map Workflow.row) id).2, g.cached.filter (·.1 != id)⟩ (ws.filter (·.id != id)) where
  stored := congrArg some List.filter_map
  distinct := h.distinct.sublist (List.filter_sublist.map _)
  proper w hw := h.proper w (List.mem_of_mem_filter hw)
  ascending := h.ascending.filter _
  cached e := by
    rw [List.mem_filter, h.cached]
    constructor
    · rintro ⟨⟨w, hw, rfl⟩, hne⟩
      exact ⟨w, List.mem_filter.2 ⟨hw, hne⟩, rfl⟩
    · rintro ⟨w, hw, rfl⟩
      exact ⟨⟨w, List.mem_of_mem_filter hw, rfl⟩, (List.mem_filter.1 hw).2⟩

/-- The definitions in storage can be read and have no defect, and the workflows cached are those of them: each under its
name, with the definition that storage has for it. -/
structure Mirrors (g : Registry) (ds : Definitions) : Prop where
  stored : g.stored = some ds
  distinct : (ds.map (·.id)).Nodup
  sound : ds.Sound
  names : (g.cached.map (·.1)).Perm (ds.map (·.id))
  same : ∀ e ∈ g.cached, g.find e.1 = .ok (some e.2.definition) ∧ Workflow.ofDefinition e.2.definition = .ok e.2

theorem Keeps.find?_of_mem (h : g.Keeps ws) {w : Workflow} (hw : w ∈ ws) : ws.find? (·.id == w.id) = some w :=
  (find?_key_iff h.distinct).2 ⟨hw, rfl⟩

/-- What is kept is mirrored. -/
theorem Keeps.mirrors (h : g.Keeps ws) : g.Mirrors (ws.map Workflow.row) := by
  have hids : (ws.map Workflow.row).map (·.id) = ws.map Workflow.id := List.map_map
  refine ⟨h.stored, hids ▸ h.distinct, fun row hrow => ?_, ?_, fun e he => ?_⟩
  · obtain ⟨w, hw, rfl⟩ := List.mem_map.1 hrow
    obtain ⟨hd, hc⟩ := h.proper w hw
    exact ⟨w.definition, w, Definition.ofText_text hd, hc⟩
  · have hkeys : (g.cached.map (·.1)).Nodup := List.pairwise_map.2 (h.ascending.imp ne_of_lt)
    rw [hids, List.perm_ext_iff_of_nodup hkeys h.distinct]
    intro id
    simp [h.cached]
  · obtain ⟨w, hw, rfl⟩ := (h.cached e).1 he
    refine ⟨?_, (h.proper w hw).2⟩
    rw [h.find, h.find?_of_mem hw]
    rfl

end Host.Registry

/-! ### Sites -/

namespace Host.Site

variable (s : Site) {ds : Definitions}

theorem perform_saveDefinition (h : s.database.definitions = some ds) (d : Definition) :
    s.perform (Engine.saveDefinition d).run =
      (.ok (), s.withRegistry { s.registry with stored := some (ds.save (.ofDefinition d)) }) :=
  s.perform_ask (s.answer_statement (Store.Statement.execute_saveDefinition h _))

theorem perform_deleteDefinition (h : s.database.definitions = some ds) (id : String) :
    s.perform (Engine.deleteDefinition id).run =
      (.ok (ds.delete id).1, s.withRegistry { s.registry with stored := some (ds.delete id).2 }) :=
  s.perform_ask (s.answer_statement (Store.Statement.execute_deleteDefinition h id))

theorem perform_listDefinitions (h : s.database.definitions = some ds) :
    ∃ ls, s.perform Engine.listDefinitions.run = (.ok ls, s) :=
  ⟨_, s.perform_ask (s.answer_statement (Store.Statement.execute_definitions h))⟩

theorem perform_cacheDefinition {d : Definition} {w : Workflow} (h : Workflow.ofDefinition d = .ok w) :
    s.perform (Engine.cacheDefinition d) = (.ok w, s.withCache (Worker.insertWorkflow w.id w s.registry.cached)) := by
  unfold Engine.cacheDefinition
  rw [h]
  rfl

theorem perform_switchDefinition (h : s.database.definitions = some ds) (id : String) (active : Bool) :
    s.perform (Engine.switchDefinition id active).run = match s.registry.find id with
      | .error f => (.error f, s)
      | .ok none => (.ok false, s)
      | .ok (some d) => (.ok true,
        s.withRegistry { s.registry with stored := some (ds.save (.ofDefinition { d with active := active })) }) := by
  unfold Engine.switchDefinition
  rw [perform_attempt, perform_getDefinition]
  match s.registry.find id with
  | .error _ => rfl
  | .ok none => rfl
  | .ok (some d) =>
    dsimp only
    rw [perform_attempt, s.perform_saveDefinition h]
    rfl

theorem perform_cacheStored {id : String} {d : Definition} (hd : s.registry.find id = .ok (some d)) {w : Workflow}
    (hw : Workflow.ofDefinition d = .ok w) : s.perform (Engine.cacheStored id).run =
      (.ok (), s.withCache (Worker.insertWorkflow w.id w s.registry.cached)) := by
  unfold Engine.cacheStored
  rw [perform_attempt, perform_getDefinition, hd]
  dsimp only
  have lifted : s.perform (ExceptT.lift (Engine.cacheDefinition d) : Engine.StorageJob _).run =
      (.ok (.ok w), s.withCache (Worker.insertWorkflow w.id w s.registry.cached)) := by
    refine (s.perform_bind (Engine.cacheDefinition d) _).trans ?_
    rw [perform_cacheDefinition s hw]
    rfl
  refine (s.perform_attempt (ExceptT.lift (Engine.cacheDefinition d)) _).trans ?_
  rw [lifted]
  rfl

end Host.Site

/-! ### The start -/

namespace Host.Startup

theorem definitions_prepareTable {db db' : Store.Database} {name : String} (h : prepareTable db name = .ok db') :
    db'.definitions = db.definitions := by
  obtain ⟨_, -, h⟩ := bind_ok h
  replace h := mapError_ok h
  unfold Store.Database.makeHostTable at h
  dsimp only at h
  repeat' split at h
  all_goals cases h
  unfold Store.Database.withHostTable
  split <;> rfl

/-- A server that starts on an empty database has an empty registry. -/
theorem registry_start {serial : Nat} {clock : Time.Instant} {applications contracts : String} {s : Site}
    (h : start .empty serial clock applications contracts = .ok s) : s.registry = ⟨some [], []⟩ := by
  obtain ⟨db, hdb, h⟩ := bind_ok h
  cases h
  obtain ⟨between, hfirst, hsecond⟩ := bind_ok hdb
  have hds : db.definitions = some [] :=
    (definitions_prepareTable hsecond).trans (definitions_prepareTable hfirst)
  rw [Site.perform_cacheAll]
  show Registry.mk db.definitions (Registry.refreshed ⟨db.definitions, []⟩) = _
  rw [hds]
  rfl

end Host.Startup

end Lifecycle
