import Lifecycle.Proofs.Engine.Sweeping
import Lifecycle.Proofs.Host.Additions
import Lifecycle.Proofs.Host.Frame
import Lifecycle.Proofs.Host.Refreshing
import Lifecycle.Proofs.Host.Suspending
import Lifecycle.Proofs.Store.Definitions

/-!
# Tokens that cannot be resumed

A token whose execution is not suspended is passed over, and one that does not say where its execution goes on fails it; and
neither does anything else. What comes of one token of a sweep is nothing to the tokens of other executions: they are
claimed, and resumed at the nodes at which they would have been resumed without it.
-/

namespace Lifecycle

open Engine
open Host (Site Registry Worker)
open Program (Only)
open Store (Database ExecutionRow TokenRow Executions Tokens DefinitionRow Definitions)

namespace Host.Site

variable {s : Site} {t : Token} {record : Record}

/-! ### What is found for a token -/

/-- A record is read from the row that is found. -/
theorem perform_getRecord_cases (s : Site) (id : String) :
    (s.database.records.get? id = none ∧ ∀ record, (s.perform (getRecord id).run).1 ≠ .ok (some record)) ∨
      ∃ row, s.database.records.get? id = some row ∧
        (s.perform (getRecord id).run).1 = (s.perform (readRow (row.record.map some)).run).1 := by
  obtain ⟨⟨executions, tokens, definitions, templates, hostTables⟩, serial, worker⟩ := s
  cases executions with
  | none => exact .inl ⟨rfl, fun record h => by cases h⟩
  | some l =>
    have hrun := perform_run ⟨⟨some l, tokens, definitions, templates, hostTables⟩, serial, worker⟩
      (Store.Statement.execute_execution rfl id) (α := Option Record)
    cases hrow : l.get? id with
    | none =>
      refine .inl ⟨hrow, fun record h => ?_⟩
      rw [getRecord, hrun, hrow] at h
      cases h
    | some row =>
      refine .inr ⟨row, hrow, ?_⟩
      rw [getRecord, hrun, hrow]
      show (Site.perform _ (readRow row.record >>= fun r => pure (some r)).run).1 = _
      cases row.record <;> rfl

theorem perform_getRecord_snd (s : Site) (id : String) : (s.perform (getRecord id).run).2 = s :=
  s.perform_queries (only_getRecord trivial)

/-- The record that is found suspended is that of the suspended row. -/
theorem finds_iff {id : String} : (s.perform (getRecord id).run).1 = .ok (some record) ∧ record.status = .suspended ↔
    ∃ row, s.database.suspended? id = some row ∧ row.record = .ok record := by
  simp only [Database.suspended?_eq_some]
  have hcases := s.perform_getRecord_cases id
  constructor
  · rintro ⟨hfound, hstatus⟩
    obtain ⟨-, h⟩ | ⟨row, hrow, h⟩ := hcases
    · exact absurd hfound (h record)
    · have hread : (s.perform (readRow (row.record.map some)).run).1 = .ok (some record) := h.symm.trans hfound
      cases hr : row.record with
      | error e =>
        rw [hr] at hread
        cases hread
      | ok r =>
        rw [hr] at hread
        cases hread
        refine ⟨row, ⟨hrow, ?_⟩, hr⟩
        rw [← (ExecutionRow.record_ok hr).2.1, hstatus]
  · rintro ⟨row, ⟨hrow, hstatus⟩, hr⟩
    obtain ⟨hnone, -⟩ | ⟨row', hrow', h⟩ := hcases
    · cases hnone.symm.trans hrow
    · cases hrow.symm.trans hrow'
      refine ⟨?_, Status.name_injective ((ExecutionRow.record_ok hr).2.1.trans hstatus)⟩
      rw [h, hr]
      rfl

/-- Why an execution cannot go on where its token says. -/
inductive Strands (s : Site) (record : Record) (t : Token) : SchedulingFault → Prop where
  | snapshot {f : Json.Fault} (h : Context.ofSnapshot t.snapshot = .error f) : Strands s record t (.snapshot f)
  | workflow (h : (s.perform (currentWorkflow record.workflowId)).1 = none) :
      Strands s record t (.workflowMissing record.workflowId)
  | node {w : Workflow} (hw : (s.perform (currentWorkflow record.workflowId)).1 = some w)
      (h : w.graph.node? t.resumeNodeId = none) : Strands s record t (.nodeMissing record.workflowId t.resumeNodeId)

/-- What is found for a token: why the execution cannot go on, or where it does. -/
theorem resumption_cases (s : Site) (record : Record) (t : Token) :
    (∃ e, s.Strands record t e ∧ (s.perform (resumption record t)).1 = .error e) ∨
      ∃ w step context, Context.ofSnapshot t.snapshot = .ok context ∧
        (s.perform (currentWorkflow record.workflowId)).1 = some w ∧ w.graph.node? t.resumeNodeId = some step ∧
        (s.perform (resumption record t)).1 = .ok (w, step, context) := by
  unfold resumption
  split
  · rename_i f hf
    exact .inl ⟨_, .snapshot hf, rfl⟩
  · rename_i context hcontext
    rw [perform_bind]
    cases hw : (s.perform (currentWorkflow record.workflowId)).1 with
    | none => exact .inl ⟨_, .workflow hw, rfl⟩
    | some w =>
      dsimp only
      split
      · rename_i hn
        exact .inl ⟨_, .node hw hn, rfl⟩
      · rename_i step hn
        exact .inr ⟨w, step, context, hcontext, rfl, hn, rfl⟩

/-! ### What a resumption does -/

/-- A resumption that finds its record suspended goes on with what it finds for its token. -/
theorem perform_resume_found (h : (s.perform (getRecord t.executionId).run).1 = .ok (some record))
    (hs : record.status = .suspended) :
    let found := s.perform (resumption record t)
    s.perform (resume t).run = found.2.perform (goOn record t found.1).run ∧
      s.entered (resume t).run = found.2.entered (goOn record t found.1).run := by
  constructor
  · rw [resume_eq, perform_bind, perform_getRecord_snd, h]
    dsimp only
    rw [if_neg (not_not.2 hs), perform_bind]
  · rw [resume_eq, entered_bind, perform_getRecord_snd, h, entered_of_indoors (indoors_moves.getRecord _)]
    dsimp only
    rw [if_neg (not_not.2 hs), entered_bind, entered_of_aside (only_resumption record t)]
    rfl

/-- A resumption goes on at the node of its token in the workflow of storage. -/
theorem perform_resume_current {row : ExecutionRow} {w : Workflow} {cache : List (String × Workflow)} {step : Step}
    {context : Context} (h : s.database.suspended? t.executionId = some row) (hr : row.record = .ok record)
    (hcontext : Context.ofSnapshot t.snapshot = .ok context) (hw : s.registry.current record.workflowId = (some w, cache))
    (hn : w.graph.node? t.resumeNodeId = some step) :
    s.perform (resume t).run = (s.withCache cache).perform (goOn record t (.ok (w, step, context))).run := by
  have hfound : s.perform (resumption record t) = (.ok (w, step, context), s.withCache cache) := by
    unfold resumption
    rw [hcontext]
    dsimp only
    rw [perform_bind, perform_currentWorkflow, hw]
    dsimp only
    rw [hn]
    rfl
  obtain ⟨hf, hs⟩ := finds_iff.2 ⟨row, h, hr⟩
  have hrun := (perform_resume_found hf hs).1
  rwa [hfound] at hrun

/-- A resumption that finds nothing suspended does nothing. -/
theorem perform_resume_idle
    (h : ∀ record, (s.perform (getRecord t.executionId).run).1 = .ok (some record) → record.status ≠ .suspended) :
    (s.perform (resume t).run).2 = s ∧ s.entered (resume t).run = [] ∧
      ∀ found, (s.perform (getRecord t.executionId).run).1 = .ok found → (s.perform (resume t).run).1 = .ok .skipped := by
  rw [resume_eq, perform_bind, entered_bind, perform_getRecord_snd, entered_of_indoors (indoors_moves.getRecord _)]
  match hf : (s.perform (getRecord t.executionId).run).1 with
  | .error e => exact ⟨rfl, rfl, fun found hfound => by cases hfound⟩
  | .ok none => exact ⟨rfl, rfl, fun _ _ => rfl⟩
  | .ok (some record) =>
    dsimp only
    rw [if_pos (h record hf)]
    exact ⟨rfl, rfl, fun _ _ => rfl⟩

/-- A resumption that cannot go on fails the execution at the node of the token. -/
theorem perform_resume_stranded {l : Executions} (hl : s.database.executions = some l)
    (h : (s.perform (getRecord t.executionId).run).1 = .ok (some record)) (hs : record.status = .suspended)
    {e : SchedulingFault} (he : (s.perform (resumption record t)).1 = .error e) : ∃ c, s.perform (resume t).run =
      (.ok (.failed t.resumeNodeId e.message), { s.withCache c with database := { s.database with
        executions := some (l.advance record.id .failed s.worker.clock.floorMillis (some ⟨t.resumeNodeId, e.message⟩)).2 } }) ∧
      s.entered (resume t).run = [] := by
  obtain ⟨c, hc⟩ := s.perform_resumption record t
  obtain ⟨hrun, hentered⟩ := perform_resume_found h hs
  rw [he, hc] at hrun hentered
  refine ⟨c, hrun.trans ?_, hentered.trans (entered_of_indoors (indoors_moves.failAt record _ _) _)⟩
  exact perform_failAt (s := s.withCache c) hl record t.resumeNodeId e.message

/-! ### Where resumptions go on -/

/-- The node at which a resumption goes on, if it does. -/
def origin? (s : Site) (t : Token) : Option Step := (s.entered (resume t).run).head?.map (·.step)

theorem entered_attempt_ok {ε α β : Type} {p : ExceptT ε Job α} {a : α} {s' : Site} (h : s.perform p.run = (.ok a, s'))
    (f : α → ExceptT ε Job β) : s.entered (p >>= f).run = s.entered p.run ++ s'.entered (f a).run := by
  rw [ExceptT.run_bind, entered_bind, h]

/-- A walk begins with the visit of its node. -/
theorem entered_walkFrom (s : Site) (w : Workflow) (record : Record) (step : Step) (context : Context) :
    (s.entered (walkFrom w record step context).run).head?.map (·.step) = some step := by
  rw [walkFrom_eq]
  rfl

theorem executions_of_suspended {id : String} {row : ExecutionRow} (h : s.database.suspended? id = some row) :
    s.database.executions = some s.database.records := by
  obtain ⟨hrow, -⟩ := Database.suspended?_eq_some.1 h
  unfold Database.records at hrow ⊢
  cases hl : s.database.executions with
  | none =>
    rw [hl] at hrow
    cases hrow
  | some l => rfl

/-- A suspended execution goes on at the node that was found. -/
theorem entered_goOn {id : String} {row : ExecutionRow} (h : s.database.suspended? id = some row)
    (hr : row.record = .ok record) (found : Except SchedulingFault (Workflow × Step × Context)) :
    (s.entered (goOn record t found).run).head?.map (·.step) = found.toOption.map (·.2.1) := by
  match found with
  | .error e =>
    have none : s.entered (goOn record t (.error e)).run = [] := entered_of_indoors (indoors_moves.failAt record _ _) s
    rw [none]
    rfl
  | .ok (w, step, context) =>
    obtain ⟨hrow, hstatus⟩ := Database.suspended?_eq_some.1 h
    have hadmits : row.admits record.id .running = true := by
      rw [ExecutionRow.admits_iff, (ExecutionRow.record_ok hr).1, hstatus]
      exact ⟨rfl, by decide⟩
    have hmoved : (s.database.records.advance record.id .running s.worker.clock.floorMillis none).1 = true :=
      List.any_eq_true.2 ⟨row, (Executions.mem_of_get? hrow).1, hadmits⟩
    have hmove := s.perform_move (executions_of_suspended h) record.id .running none
    rw [hmoved] at hmove
    show (s.entered (move record.id .running none >>= _).run).head?.map (·.step) = some step
    rw [entered_attempt_ok hmove, entered_of_indoors (indoors_moves.move _ _ _ (by simp))]
    exact entered_walkFrom _ w record step context

theorem origin?_of_suspended {row : ExecutionRow} (h : s.database.suspended? t.executionId = some row)
    (hr : row.record = .ok record) :
    s.origin? t = (s.perform (resumption record t)).1.toOption.map (·.2.1) := by
  obtain ⟨hfound, hs⟩ := finds_iff.2 ⟨row, h, hr⟩
  obtain ⟨c, hc⟩ := s.perform_resumption record t
  unfold origin?
  rw [(perform_resume_found hfound hs).2, hc]
  exact entered_goOn (s := s.withCache c) h hr _

theorem origin?_of_none (h : ∀ row record, s.database.suspended? t.executionId = some row → row.record ≠ .ok record) :
    s.origin? t = none := by
  unfold origin?
  rw [(perform_resume_idle fun record hfound hs => ?_).2.1]
  · rfl
  · obtain ⟨row, hrow, hr⟩ := finds_iff.1 ⟨hfound, hs⟩
    exact h row record hrow hr

/-- What is found for a token depends on the workflows that are found alone. -/
theorem resumption_congr {s' : Site} (h : ∀ id, (s'.registry.current id).1 = (s.registry.current id).1) :
    (s'.perform (resumption record t)).1 = (s.perform (resumption record t)).1 := by
  unfold resumption
  split
  · rfl
  · rw [perform_bind, perform_bind, perform_currentWorkflow, perform_currentWorkflow, h]
    cases (s.registry.current record.workflowId).1 with
    | none => rfl
    | some w =>
      dsimp only
      split <;> rfl

theorem origin?_congr {s' : Site} (hs : s'.database.suspended? t.executionId = s.database.suspended? t.executionId)
    (hc : ∀ id, (s'.registry.current id).1 = (s.registry.current id).1) : s'.origin? t = s.origin? t := by
  by_cases h : ∃ row record, s.database.suspended? t.executionId = some row ∧ row.record = .ok record
  · obtain ⟨row, record, hrow, hr⟩ := h
    rw [origin?_of_suspended hrow hr, origin?_of_suspended (hs.trans hrow) hr, resumption_congr hc]
  · rw [origin?_of_none fun row record hrow hr => h ⟨row, record, hrow, hr⟩,
      origin?_of_none fun row record hrow hr => h ⟨row, record, hs.symm.trans hrow, hr⟩]

end Host.Site

/-! ### Looking up workflows twice -/

namespace Host.Registry

variable {g : Registry} {id other : String}

/-- Every stored definition that can be read has the identifier of its row. -/
def Filed (g : Registry) : Prop := ∀ ds, g.stored = some ds → ds.Filed

theorem Filed.id_eq (filed : g.Filed) {d : Definition} (h : g.find id = .ok (some d)) : d.id = id := by
  unfold find row at h
  cases hs : g.stored with
  | none =>
    rw [hs] at h
    cases h
  | some ds =>
    rw [hs, Option.elim_some] at h
    cases hrow : ds.get? id with
    | none =>
      rw [hrow] at h
      cases h
    | some row =>
      rw [hrow] at h
      dsimp only at h
      cases hd : Definition.ofText row.definition with
      | error f =>
        rw [hd] at h
        cases h
      | ok e =>
        rw [hd] at h
        cases h
        rw [filed ds hs row (List.mem_of_find?_eq_some hrow) d hd]
        simpa using List.find?_some hrow

/-- A lookup leaves cached what stands in for another definition that cannot be used. -/
theorem Filed.lookup_current (filed : g.Filed) (h : g.find id ≠ .ok none ∨ other ≠ id)
    (hd : ∀ d w, g.find id = .ok (some d) → Workflow.ofDefinition d = .ok w → other ≠ id) :
    (g.current id).2.lookup other = g.cached.lookup other := by
  unfold current
  split
  · rename_i d hf
    split
    · rename_i w hw
      have hid : w.id = id := (congrArg (·.id) (Workflow.definition_eq hw)).trans (filed.id_eq hf)
      rw [Worker.lookup_insertWorkflow, if_neg (hid ▸ hd d w hf hw)]
    · rfl
  · rename_i hf
    rw [lookup_filter, if_neg (h.resolve_left (not_not.2 hf))]
  · rfl

/-- A workflow is found as it was, whatever was looked up before. -/
theorem Filed.current_current (filed : g.Filed) (id other : String) :
    (Registry.current ⟨g.stored, (g.current id).2⟩ other).1 = (g.current other).1 := by
  have hfind : Registry.find ⟨g.stored, (g.current id).2⟩ other = g.find other := rfl
  have hlookup (hn : g.find other ≠ .ok none)
      (hd : ∀ d w, g.find other = .ok (some d) → Workflow.ofDefinition d ≠ .ok w) :
      (g.current id).2.lookup other = g.cached.lookup other := by
    by_cases ho : other = id
    · subst ho
      exact filed.lookup_current (.inl hn) fun d w hf hw => absurd hw (hd d w hf)
    · exact filed.lookup_current (.inr ho) fun _ _ _ _ => ho
  -- where storage has a workflow it is found in any case; else the cache decides, which the first lookup left alone
  generalize (g.current id).2 = c at hfind hlookup ⊢
  unfold current
  rw [hfind]
  match hf : g.find other with
  | .ok none => rfl
  | .error f =>
    have hn : g.find other ≠ .ok none := by simp [hf]
    exact hlookup hn fun d w h => by cases hf.symm.trans h
  | .ok (some d) =>
    have hn : g.find other ≠ .ok none := by simp [hf]
    dsimp only
    cases hw : Workflow.ofDefinition d with
    | ok w => rfl
    | error e =>
      refine hlookup hn fun d' w h hw' => ?_
      cases hf.symm.trans h
      cases hw.symm.trans hw'

end Host.Registry

namespace Host.Site

variable {s s' s'' : Site} {t : Token} {record : Record} {id : String}

/-! ### What resumptions leave to other executions -/

/-- The execution `id` is suspended as it was, and workflows are found as they were. -/
structure LeavesBe (id : String) (s s' : Site) : Prop where
  suspended : s'.database.suspended? id = s.database.suspended? id
  stored : s'.registry.stored = s.registry.stored
  current : ∀ other, (s'.registry.current other).1 = (s.registry.current other).1

theorem LeavesBe.trans (h : s.LeavesBe id s') (g : s'.LeavesBe id s'') : s.LeavesBe id s'' :=
  ⟨g.suspended.trans h.suspended, g.stored.trans h.stored, fun other => (g.current other).trans (h.current other)⟩

theorem LeavesBe.of_registry (h : s'.registry = s.registry)
    (hs : s'.database.suspended? id = s.database.suspended? id) : s.LeavesBe id s' :=
  ⟨hs, congrArg (·.stored) h, fun other => by rw [h]⟩

theorem LeavesBe.refl (s : Site) : s.LeavesBe id s := .of_registry rfl rfl

theorem LeavesBe.filed (h : s.LeavesBe id s') (filed : s.registry.Filed) : s'.registry.Filed :=
  fun ds hds => filed ds (h.stored ▸ hds)

theorem suspended?_advance (db : Database) (hne : id ≠ record.id) (next : Status) (now : Int)
    (failure : Option Store.Failure) {after : Database}
    (h : after.records = (db.records.advance record.id next now failure).2) : after.suspended? id = db.suspended? id := by
  refine Database.suspended?_of_map h (fun r => ?_) fun r hr => .inl (if_neg fun hadmits => ?_)
  · split <;> rfl
  · exact hne (Option.some.inj (hr.symm.trans ((r.admits_iff next record.id).1 hadmits).1))

/-- What concerns one execution leaves any other one be. -/
theorem leavesBe_answer {r : Request} (hr : r.Concerns record) (hne : id ≠ record.id) (s : Site) :
    s.LeavesBe id (answer r s).2 := by
  refine .of_registry (s.registry_answer hr.apart) ?_
  cases r with
  | now => rfl
  | fresh => rfl
  | visit v => exact (s.rests_visit v).suspended id
  | statement q =>
    have hx : Answers [] s.database (.statement q) (s.execute q).1 (s.execute q).2.database := .inl rfl
    cases q with
    | execution other =>
      have hrecords := (Answers.unchanged (by trivial) hx).records
      exact congrArg (fun l : Executions => (l.get? id).filter (·.status == Status.suspended.name)) hrecords
    | advance other next now failure =>
      obtain rfl : other = record.id := hr
      rcases hx.advance with ⟨-, h, -⟩ | ⟨-, h⟩
      · exact suspended?_advance s.database hne next now failure h
      · exact congrArg (·.suspended? id) h
    | suspend token now =>
      have he : token.executionId = record.id := hr
      rcases hx.suspend with ⟨-, -, h, -⟩ | ⟨-, -, h⟩ | ⟨-, h⟩
      · exact suspended?_advance s.database hne .suspended now none (he ▸ h)
      · exact congrArg (·.suspended? id) h
      · exact congrArg (·.suspended? id) h
    | _ => exact hr.elim
  | _ => exact hr.elim

theorem leavesBe_of_only {α : Type} {p : Job α} (hp : p.Only (Request.Concerns record)) (hne : id ≠ record.id) (s : Site) :
    s.LeavesBe id (s.perform p).2 :=
  Steady.perform ⟨LeavesBe.refl, LeavesBe.trans⟩ (fun s _ hr => leavesBe_answer hr hne s) hp s

theorem concerns_goOn (record : Record) (t : Token) (found : Except SchedulingFault (Workflow × Step × Context)) :
    (goOn record t found).run.Only (Request.Concerns record) := by
  match found with
  | .error e => exact concerns_failAt record t.resumeNodeId _
  | .ok (w, step, context) =>
    refine (only_move trivial fun _ => rfl).attempt fun moved => ?_
    cases moved with
    | false => trivial
    | true => exact concerns_walkFrom w record step context

theorem leavesBe_resumption (filed : s.registry.Filed) (record : Record) (t : Token) :
    s.LeavesBe id (s.perform (resumption record t)).2 := by
  rcases s.perform_resumption_snd record t with h | h
  · rw [h]
    exact .refl s
  · rw [h]
    exact ⟨rfl, rfl, fun other => filed.current_current record.workflowId other⟩

/-- A resumption leaves all other executions be. -/
theorem leavesBe_resume (filed : s.registry.Filed) (hne : id ≠ t.executionId) :
    s.LeavesBe id (s.perform (resume t).run).2 := by
  by_cases h : ∃ record, (s.perform (getRecord t.executionId).run).1 = .ok (some record) ∧ record.status = .suspended
  · obtain ⟨record, hfound, hs⟩ := h
    obtain ⟨row, hrow, hr⟩ := finds_iff.1 ⟨hfound, hs⟩
    have hid : record.id = t.executionId := Option.some.inj ((ExecutionRow.record_ok hr).1.symm.trans
      (Executions.mem_of_get? (Database.suspended?_eq_some.1 hrow).1).2)
    rw [(perform_resume_found hfound hs).1]
    exact (leavesBe_resumption filed record t).trans (leavesBe_of_only (concerns_goOn record t _) (hid ▸ hne) _)
  · rw [(perform_resume_idle fun record hfound hs => h ⟨record, hfound, hs⟩).1]
    exact .refl s

/-! ### What resumptions add -/

variable {P : TokenRow → Prop}

theorem gains_goOn (record : Record) (t : Token) {found : Except SchedulingFault (Workflow × Step × Context)} (s : Site)
    (walks : ∀ w step context (s' : Site), found = .ok (w, step, context) → s'.worker.clock = s.worker.clock →
      s'.Gains P (s'.perform (walkFrom w record step context).run).2) : s.Gains P (s.perform (goOn record t found).run).2 := by
  match found with
  | .error e => exact gains_of_only (only_failAt record _ _ trivial fun _ => trivial) s
  | .ok (w, step, context) =>
    have hmove : s.Gains P (s.perform (moveTo .running record.id).run).2 :=
      gains_of_only (only_move trivial fun _ => trivial) s
    show s.Gains P (s.perform (moveTo .running record.id >>= _).run).2
    rw [perform_attempt]
    generalize s.perform (moveTo .running record.id).run = moved at hmove ⊢
    match moved with
    | (.error e, s') => exact hmove
    | (.ok false, s') => exact hmove
    | (.ok true, s') => exact hmove.trans (walks w step context s' rfl hmove.clock)

/-- A resumption adds what its walk adds. -/
theorem gains_resume (s : Site) (t : Token) (walks : ∀ (record : Record) w step context (s' : Site),
      (s.perform (resumption record t)).1 = .ok (w, step, context) → s'.worker.clock = s.worker.clock →
      s'.Gains P (s'.perform (walkFrom w record step context).run).2) : s.Gains P (s.perform (resume t).run).2 := by
  by_cases h : ∃ record, (s.perform (getRecord t.executionId).run).1 = .ok (some record) ∧ record.status = .suspended
  · obtain ⟨record, hfound, hs⟩ := h
    obtain ⟨c, hc⟩ := s.perform_resumption record t
    have hlookup : s.Gains P (s.withCache c) := .of_tokens rfl rfl
    rw [(perform_resume_found hfound hs).1, hc]
    exact hlookup.trans (gains_goOn record t (s.withCache c) fun w step context s' hf hclock =>
      walks record w step context s' hf hclock)
  · rw [(perform_resume_idle fun record hfound hs => h ⟨record, hfound, hs⟩).1]
    exact .refl s

theorem Adding.of_concerns {r : Request} (h : r.Concerns record) : Adding (fun _ => True) r := by
  cases r with
  | statement q =>
    cases q with
    | claim id => exact h.elim
    | _ => trivial
  | _ => trivial

end Host.Site

end Lifecycle
