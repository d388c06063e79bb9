import Lifecycle.Proofs.Host.Records
import Lifecycle.Proofs.Host.Twins

/-!
# What the active flag decides

The flag decides what starts, and nothing else. Events and scans go by the definitions in storage, so none of them starts
a workflow that is not active there, whatever a worker has cached. Resumptions do not ask for the flag, so a sweep goes the
same way at sites that differ in nothing but flags.
-/

namespace Lifecycle

open Engine
open Host (Site Steady Registry Worker)
open Program (Only)
open Store (Database Definitions DefinitionRow ExecutionRow Executions Key)

/-! ### Executions of a workflow -/

/-- The identifiers of the executions of a workflow. -/
def Store.Executions.idsOf (l : Executions) (workflowId : String) : List (Option String) :=
  (l.filter (·.workflowId == workflowId)).map (·.id)

namespace Store.Executions

variable {l : Executions} {workflowId : String}

/-- Rows that stay in their places keep their identifiers and their workflows. -/
theorem Kept.idsOf {after : Executions} (h : l.Kept after) (workflowId : String) :
    Executions.idsOf after workflowId = Executions.idsOf l workflowId := by
  induction h with
  | nil => rfl
  | @cons r r' l after hr _ ih =>
    have hw : r'.workflowId = r.workflowId := congrArg Key.workflowId hr.key
    unfold Executions.idsOf at ih ⊢
    rw [List.filter_cons, List.filter_cons, hw]
    split
    · rw [List.map_cons, List.map_cons, hr.id, ih]
    · exact ih

theorem idsOf_insert {row : ExecutionRow} (h : row.workflowId ≠ workflowId) :
    idsOf (l.insert row).2 workflowId = idsOf l workflowId := by
  unfold insert
  split
  · rfl
  · unfold idsOf
    rw [List.filter_append, List.filter_cons_of_neg (by simpa using h)]
    simp

end Store.Executions

/-- No execution of the workflow is put on record. -/
def Engine.Request.Spares (workflowId : String) : Request → Prop
  | .statement (.insertExecution row) => row.workflowId ≠ workflowId
  | _ => True

namespace Host.Site

variable {s : Site} {workflowId : String}

/-- Only what is put on record counts, and that is of another workflow. -/
theorem idsOf_answer {r : Request} (hr : r.Spares workflowId) :
    (answer r s).2.database.records.idsOf workflowId = s.database.records.idsOf workflowId := by
  have kept {r : Request} (h : r.AddsNone) : (answer r s).2.database.records.idsOf workflowId =
      s.database.records.idsOf workflowId := (records_answer h).idsOf workflowId
  cases r with
  | statement q =>
    cases q with
    | insertExecution row =>
      have hq : Answers [] s.database (.statement (.insertExecution row)) (s.execute (.insertExecution row)).1
          (s.execute (.insertExecution row)).2.database := .inl rfl
      show (s.execute (.insertExecution row)).2.database.records.idsOf workflowId = _
      rcases hq.insertExecution with ⟨-, h, -⟩ | ⟨-, h⟩
      · rw [h]
        exact Store.Executions.idsOf_insert hr
      · rw [h]
    | _ => exact kept trivial
  | _ => exact kept trivial

theorem idsOf_perform {α : Type} {p : Job α} (hp : p.Only (Request.Spares workflowId)) :
    (s.perform p).2.database.records.idsOf workflowId = s.database.records.idsOf workflowId :=
  (Steady.of_same fun s => s.database.records.idsOf workflowId).perform (fun _ _ hr => idsOf_answer hr) hp s

end Host.Site

/-! ### What starts -/

section Starts

variable {id : String}

theorem Engine.Request.Unwriting.spares {r : Request} (h : r.Unwriting) : r.Spares id := by
  cases r with
  | statement q =>
    cases q with
    | insertExecution row => exact h.elim
    | _ => trivial
  | _ => trivial

theorem spares_moves (id : String) : Moves fun _ p => p.Only (Request.Spares id) where
  done _ := trivial
  bind := Only.bind
  aside h := ⟨h.unwriting.spares, fun _ => trivial⟩
  statement h := only_run h.spares
  move _ _ _ _ := only_move trivial fun _ => trivial

theorem spares_start {workflowId : String} (h : workflowId ≠ id) (target : Target) (type : TriggerType) (once : Bool) :
    (start workflowId target type once).run.Only (Request.Spares id) := by
  refine ⟨trivial, fun now => ⟨trivial, fun drawn => Only.attempt (only_run (q := .insertExecution _) h) fun new => ?_⟩⟩
  match new with
  | true => trivial
  | false =>
    refine Only.attempt (only_run (q := .owner _) trivial) fun row => ?_
    exact Only.attempt (p := readRow row.record) trivial fun _ => trivial

/-- To launch another workflow puts no execution of this one on record. -/
theorem spares_launch {w : Workflow} (h : w.id ≠ id) : Closed.Launches (fun _ p => p.Only (Request.Spares id)) w := by
  have walks (workflow : Workflow) (record : Record) (step : Step) (context : Context) (_ : True) :
      (walkFrom workflow record step context).run.Only (Request.Spares id) :=
    (spares_moves id).walkFrom (fun _ => ⟨trivial, fun _ => trivial⟩)
      (fun _ _ _ _ => only_suspend trivial trivial fun _ _ _ => trivial) workflow record step context
  exact fun target type once context _ =>
    (spares_moves id).launch_of_start (C := fun _ => True) walks (spares_start h target type once) trivial

/-- The definitions can be read, and none of this name that is stored is active. -/
def Store.Database.Inactive (db : Database) (id : String) : Prop :=
  ∃ ds, db.definitions = some ds ∧
    ∀ row ∈ ds, ∀ d, Definition.ofText row.definition = .ok d → d.id = id → d.active = false

theorem of_mem_activeAmong {type : TriggerType} {ws : List Workflow} {w : Workflow} (h : w ∈ activeAmong type ws) :
    w ∈ ws ∧ w.active = true := by
  obtain ⟨hw, hp⟩ := List.mem_filter.1 (List.mem_mergeSort.1 h)
  exact ⟨hw, (Bool.and_eq_true_iff.1 hp).1⟩

namespace Host.Site

variable {s : Site}

/-- Whatever is cached, a workflow that is not active is not among those that start. -/
theorem ne_of_mem_active (h : s.database.Inactive id) {type : TriggerType} {w : Workflow}
    (hw : w ∈ activeAmong type (s.registry.refreshed.map (·.2))) : w.id ≠ id := by
  rintro rfl
  -- what starts was just read from storage, so it comes from a row whose flag is off
  obtain ⟨ds, hds, hinactive⟩ := h
  obtain ⟨hmem, hactive⟩ := of_mem_activeAmong hw
  obtain ⟨e, he, rfl⟩ := List.mem_map.1 hmem
  rw [s.registry.refreshed_eq hds] at he
  obtain ⟨row, hrow, d, -, hd, hcompiled⟩ := Registry.mem_workflows (Worker.mem_of_mem_insertAll he)
  have hdefinition := Workflow.definition_eq hcompiled
  have hoff : d.active = false := hinactive row hrow d hd (congrArg (·.id) hdefinition).symm
  have hon : d.active = true := hdefinition ▸ hactive
  rw [hoff] at hon
  cases hon

/-- What goes through all active workflows puts no execution of an inactive one on record. -/
theorem idsOf_activeNow (h : s.database.Inactive id) (type : TriggerType) {α : Type} {f : List Workflow → Job α}
    (hf : ∀ ws : List Workflow, (∀ w ∈ ws, w.id ≠ id) → (f ws).Only (Request.Spares id)) :
    (s.perform (activeNow type >>= f)).2.database.records.idsOf id = s.database.records.idsOf id := by
  rw [perform_bind, perform_activeNow]
  exact idsOf_perform (s := s.withCache s.registry.refreshed) (hf _ fun w => ne_of_mem_active h)

theorem idsOf_dispatch (h : s.database.Inactive id) (e : Event) :
    (s.perform (dispatch e)).2.database.records.idsOf id = s.database.records.idsOf id :=
  idsOf_activeNow h .statusChanged fun _ hws =>
    (spares_moves id).dispatchAll e _ _ fun w hw => spares_launch (hws w (List.mem_of_mem_filter hw))

theorem idsOf_scan (h : s.database.Inactive id) (types : List TargetType) :
    (s.perform (scan types)).2.database.records.idsOf id = s.database.records.idsOf id :=
  idsOf_activeNow h .stuckAtStatus fun ws hws => (spares_moves id).scanAll types {} ws fun w hw => spares_launch (hws w hw)

end Host.Site

end Starts

/-! ### What goes on -/

/-- The definitions differ at most in whether they are active. -/
def Definition.SameButActive (d e : Definition) : Prop := e = { d with active := e.active }

/-- The workflows differ at most in whether they are active. -/
structure Workflow.SameButActive (v w : Workflow) : Prop where
  definition : v.definition.SameButActive w.definition
  trigger : w.trigger = v.trigger
  graph : w.graph = v.graph

/-- The rows hold definitions that differ at most in whether they are active, or neither holds one. -/
structure Store.DefinitionRow.SameButActive (r q : DefinitionRow) : Prop where
  id : q.id = r.id
  name : q.name = r.name
  triggerType : q.triggerType = r.triggerType
  definition : (∃ d e, Definition.ofText r.definition = .ok d ∧ Definition.ofText q.definition = .ok e ∧ d.SameButActive e) ∨
    (∃ f, Definition.ofText r.definition = .error f) ∧ ∃ f, Definition.ofText q.definition = .error f

/-- The cached workflows differ at most in whether they are active. -/
abbrev Host.Worker.SameEntries (c c' : List (String × Workflow)) : Prop :=
  List.Forall₂ (fun a b => b.1 = a.1 ∧ a.2.SameButActive b.2) c c'

/-- The registries differ at most in active flags. -/
structure Host.Registry.SameButActive (g h : Registry) : Prop where
  stored : Option.Rel (List.Forall₂ DefinitionRow.SameButActive) g.stored h.stored
  cached : Worker.SameEntries g.cached h.cached

theorem Workflow.SameButActive.alike {v w : Workflow} (h : v.SameButActive w) : v.Alike w :=
  have hd : w.definition = { v.definition with active := w.definition.active } := h.definition
  ⟨(congrArg (·.id) hd).symm, (congrArg (·.name) hd).symm, h.graph.symm⟩

/-- Whether a definition has a defect does not depend on whether it is active. -/
theorem Definition.SameButActive.compiled {d e : Definition} (h : d.SameButActive e) :
    (∃ v w, Workflow.ofDefinition d = .ok v ∧ Workflow.ofDefinition e = .ok w ∧ v.SameButActive w) ∨
      ∃ f, Workflow.ofDefinition d = .error f ∧ Workflow.ofDefinition e = .error f := by
  unfold SameButActive at h
  generalize e.active = active at h
  subst h
  unfold Workflow.ofDefinition
  cases Trigger.read d.triggerType d.triggerConditions with
  | error f => exact .inr ⟨_, rfl, rfl⟩
  | ok trigger =>
    cases Graph.build d.nodes d.connections with
    | error f => exact .inr ⟨_, rfl, rfl⟩
    | ok graph => exact .inl ⟨_, _, rfl, rfl, rfl, rfl, rfl⟩

namespace Host

namespace Worker.SameEntries

variable {c c' : List (String × Workflow)}

theorem insert (h : SameEntries c c') (key : String) {v w : Workflow} (hvw : v.SameButActive w) :
    SameEntries (insertWorkflow key v c) (insertWorkflow key w c') := by
  induction h with
  | nil => exact .cons ⟨rfl, hvw⟩ .nil
  | @cons a b c c' hab hrest ih =>
    obtain ⟨k, x⟩ := a
    obtain ⟨l, y⟩ := b
    obtain ⟨rfl, hxy⟩ := hab
    unfold insertWorkflow
    split
    · exact .cons ⟨rfl, hvw⟩ (.cons ⟨rfl, hxy⟩ hrest)
    split
    · exact .cons ⟨rfl, hvw⟩ hrest
    · exact .cons ⟨rfl, hxy⟩ ih

theorem filter (h : SameEntries c c') (id : String) :
    SameEntries (c.filter (·.1 != id)) (c'.filter (·.1 != id)) := by
  induction h with
  | nil => exact .nil
  | @cons a b c c' hab hrest ih =>
    rw [List.filter_cons, List.filter_cons, hab.1]
    split
    · exact .cons hab ih
    · exact ih

theorem lookup (h : SameEntries c c') (id : String) : Option.Rel Workflow.SameButActive (c.lookup id) (c'.lookup id) := by
  induction h with
  | nil => exact .none
  | @cons a b c c' hab hrest ih =>
    obtain ⟨k, x⟩ := a
    obtain ⟨l, y⟩ := b
    obtain ⟨rfl, hxy⟩ := hab
    rw [List.lookup_cons, List.lookup_cons]
    cases id == l with
    | true => exact .some hxy
    | false => exact ih

end Worker.SameEntries

theorem sameButActive_get? {ds es : Definitions} (h : List.Forall₂ DefinitionRow.SameButActive ds es) (id : String) :
    Option.Rel DefinitionRow.SameButActive (ds.get? id) (es.get? id) := by
  unfold Definitions.get?
  induction h with
  | nil => exact .none
  | @cons r q ds es hrq hrest ih =>
    rw [List.find?_cons, List.find?_cons, hrq.id]
    split
    · exact .some hrq
    · exact ih

namespace Registry.SameButActive

variable {g h : Registry}

/-- What is found: definitions that differ at most in their flags, nothing, or a fault. -/
theorem find (hg : g.SameButActive h) (id : String) :
    (∃ d e, g.find id = .ok (some d) ∧ h.find id = .ok (some e) ∧ d.SameButActive e) ∨
      (g.find id = .ok none ∧ h.find id = .ok none) ∨ (∃ f, g.find id = .error f) ∧ ∃ f, h.find id = .error f := by
  have hrow : (∃ f, g.row id = .error f ∧ h.row id = .error f) ∨ ∃ r q : Option DefinitionRow,
      g.row id = .ok r ∧ h.row id = .ok q ∧ Option.Rel DefinitionRow.SameButActive r q := by
    unfold Registry.row
    generalize g.stored = gs, h.stored = hs, hg.stored = hrel
    cases hrel with
    | none => exact .inl ⟨_, rfl, rfl⟩
    | some hrows => exact .inr ⟨_, _, rfl, rfl, sameButActive_get? hrows id⟩
  unfold Registry.find
  rcases hrow with ⟨f, hr, hq⟩ | ⟨r, q, hr, hq, hrel⟩
  · rw [hr, hq]
    exact .inr (.inr ⟨⟨_, rfl⟩, _, rfl⟩)
  · rw [hr, hq]
    cases hrel with
    | none => exact .inr (.inl ⟨rfl, rfl⟩)
    | some hrq =>
      dsimp only
      rcases hrq.definition with ⟨d, e, hd, he, hde⟩ | ⟨⟨f, hd⟩, f', he⟩
      · rw [hd, he]
        exact .inl ⟨d, e, rfl, rfl, hde⟩
      · rw [hd, he]
        exact .inr (.inr ⟨⟨_, rfl⟩, _, rfl⟩)

theorem current (hg : g.SameButActive h) (id : String) :
    Option.Rel Workflow.SameButActive (g.current id).1 (h.current id).1 ∧
      SameButActive { g with cached := (g.current id).2 } { h with cached := (h.current id).2 } := by
  unfold Registry.current
  rcases hg.find id with ⟨d, e, hd, he, hde⟩ | ⟨hd, he⟩ | ⟨⟨f, hd⟩, f', he⟩
  · rw [hd, he]
    dsimp only
    rcases hde.compiled with ⟨v, w, hv, hw, hvw⟩ | ⟨f, hv, hw⟩
    · rw [hv, hw]
      refine ⟨.some hvw, hg.stored, ?_⟩
      dsimp only
      rw [hvw.alike.id]
      exact hg.cached.insert w.id hvw
    · rw [hv, hw]
      exact ⟨hg.cached.lookup id, hg⟩
  · rw [hd, he]
    exact ⟨.none, hg.stored, hg.cached.filter id⟩
  · rw [hd, he]
    exact ⟨hg.cached.lookup id, hg⟩

end Registry.SameButActive

end Host

theorem twins_current_of_sameButActive (id : String) :
    Twins Registry.SameButActive (currentWorkflow id) (currentWorkflow id) (Option.Rel Workflow.Alike) := by
  intro s s' hs
  obtain ⟨hfound, hcached⟩ := hs.registries.current id
  rw [Site.perform_currentWorkflow, Site.perform_currentWorkflow]
  refine ⟨?_, hs.withCache hcached⟩
  dsimp only
  generalize (s.registry.current id).1 = x, (s'.registry.current id).1 = y at hfound
  cases hfound with
  | none => exact .none
  | some h => exact .some h.alike

/-- The rows of a definition before and after it is switched. -/
theorem sameButActive_ofDefinition {d : Definition} (h : d.Storable) (active : Bool) :
    DefinitionRow.SameButActive (.ofDefinition d) (.ofDefinition { d with active := active }) where
  id := rfl
  name := rfl
  triggerType := rfl
  definition := .inl ⟨d, { d with active := active }, Definition.ofText_text h, Definition.ofText_text (h.congr rfl rfl rfl), rfl⟩

/-- To deactivate is not to cancel. While a workflow is not active in storage, no event and no scan puts an execution of it on
record, whatever is cached. And at sites that differ at most in active flags, in storage and in what is cached, a sweep gives
the same report and leaves sites that differ in nothing else: the same executions, tokens, mail, requests and entities. -/
theorem deactivation_is_no_cancellation :
    (∀ (s : Site) (id : String), s.database.Inactive id → ∀ (e : Event) (types : List TargetType),
      (s.perform (dispatch e)).2.database.records.idsOf id = s.database.records.idsOf id ∧
        (s.perform (scan types)).2.database.records.idsOf id = s.database.records.idsOf id) ∧
    ∀ s s' : Site, s.Paired Registry.SameButActive s' → ∀ batch : Nat,
      (s'.perform (sweep batch).run).1 = (s.perform (sweep batch).run).1 ∧
        (s.perform (sweep batch).run).2.Paired Registry.SameButActive (s'.perform (sweep batch).run).2 := by
  refine ⟨fun s id h e types => ⟨Site.idsOf_dispatch h e, Site.idsOf_scan h types⟩, fun s s' hs batch => ?_⟩
  obtain ⟨hreport, hafter⟩ := twins_sweep twins_current_of_sameButActive batch s s' hs
  exact ⟨hreport.symm, hafter⟩

/-- A workflow with a suspended execution that is due, switched off at one of two sites. -/
theorem deactivation_is_no_cancellation_of_lone :
    let off : Site := ⟨Lone.database false, 0, Lone.worker⟩
    let on : Site := ⟨Lone.database true, 0, Lone.worker⟩
    off.database.Inactive "new" ∧ off.Paired Registry.SameButActive on ∧
      (off.perform (dispatch ⟨⟨.contract, "1"⟩, "draft", "signed"⟩)).2.database.records.idsOf "new" =
        off.database.records.idsOf "new" ∧
      (on.perform (sweep 10).run).1 = (off.perform (sweep 10).run).1 := by
  intro off on
  have inactive : off.database.Inactive "new" := by
    refine ⟨_, rfl, List.forall_mem_singleton.2 fun d hd _ => ?_⟩
    rw [show Definition.ofText (DefinitionRow.ofDefinition (Lone.definition "new" false)).definition = _ from
      Definition.ofText_text (Lone.storable "new" false)] at hd
    cases hd
    rfl
  have paired : off.Paired Registry.SameButActive on := by
    have switched := sameButActive_ofDefinition (Lone.storable "new" false) true
    exact Site.paired_withRegistry (g := on.registry) ⟨.some (.cons switched .nil), .nil⟩
  obtain ⟨starts, goesOn⟩ := deactivation_is_no_cancellation
  exact ⟨inactive, paired, (starts off "new" inactive _ []).1, (goesOn off on paired 10).1⟩

end Lifecycle
