import Lifecycle.Proofs.Engine.Replies
import Lifecycle.Proofs.Host.Listing
import Lifecycle.Proofs.Host.Records
import Lifecycle.Proofs.Workflow.Trigger

/-!
# What an event starts

An event attempts every workflow that storage offers for it, one after the other. An attempt either puts a record on file
and runs it, or finds the record of an earlier run, or fails; whichever it is, the next one is attempted. The report counts
the attempts by how they went, and the records that are new are those of the attempts.
-/

namespace Lifecycle

open Engine
open Host (Site Registry Worker)
open Program (Only)
open Store (Database Definitions DefinitionRow ExecutionRow Executions Key)

/-- A run puts no other execution on record. -/
theorem Engine.only_runNew (workflow : Workflow) (record : Record) (context : Context) :
    (runNew workflow record context).run.Only Request.AddsNone :=
  addsNone_moves.runNew (C := fun _ => True) (fun w r step c _ => addsNone_walkFrom w r step c) workflow record trivial

/-! ### One attempt -/

/-- A workflow that is to run on a target. -/
structure Engine.Launch where
  workflow : Workflow
  target : Target
  type : TriggerType
  once : Bool
  context : Context

namespace Engine.Launch

variable (l : Launch)

def job : Job (Except EngineFault Bool) := (launch l.workflow l.target l.type l.once l.context).run

/-- The call that puts its record on file. -/
def call : StartCall := ⟨l.workflow.id, l.target, l.type, l.once⟩

/-- What follows that call. -/
def go (start : Start) : Attempt Bool :=
  if start.started then runNew l.workflow start.record l.context >>= fun _ => pure true else pure false

end Engine.Launch

/-- A launch that was attempted: whether a new record was put on file for it, and how it went. -/
structure Engine.Attempted where
  launch : Launch
  recorded : Bool
  result : Except EngineFault Bool

namespace Host.Site

variable (s : Site) (l : Launch)

/-- The site with one more identifier drawn. -/
def drawn : Site := { s with serial := s.serial + 1 }

/-- The record that a launch brings. -/
def newcomer : Record := l.call.record (identifier (s.serial + 1)) s.worker.clock

/-- The site with the record of a launch on file. -/
def opened : Site :=
  { s.drawn with
    database := { s.database with executions := s.database.executions.map (· ++ [.ofRecord (s.newcomer l)]) } }

/-- How an attempt may go, and the site after it: a new record is put on file and its run ends, without a fault of the engine
or with one; or there is no place for a new record because one of that key is on file that runs only once; or none is put on
file for a fault of the engine. -/
inductive Launched : Site → Attempted → Site → Prop
  | started {s s' : Site} {l : Launch} {table : Executions} {r : Result} (present : s.database.executions = some table)
      (free : (table.insert (.ofRecord (s.newcomer l))).1 = true)
      (ran : (s.opened l).perform (runNew l.workflow (s.newcomer l) l.context).run = (.ok r, s')) :
      Launched s ⟨l, true, .ok true⟩ s'
  | broken {s s' : Site} {l : Launch} {table : Executions} {f : EngineFault} (present : s.database.executions = some table)
      (free : (table.insert (.ofRecord (s.newcomer l))).1 = true)
      (ran : (s.opened l).perform (runNew l.workflow (s.newcomer l) l.context).run = (.error f, s')) :
      Launched s ⟨l, true, .error f⟩ s'
  | existed {s : Site} {l : Launch} {table : Executions} {row : ExecutionRow} (present : s.database.executions = some table)
      (taken : (table.insert (.ofRecord (s.newcomer l))).1 = false) (there : row ∈ table) (key : row.key = l.call.key)
      (once : row.runOnce = .int 1) : Launched s ⟨l, false, .ok false⟩ s.drawn
  | refused {s : Site} {l : Launch} {f : EngineFault}
      (taken : ∀ table, s.database.executions = some table → (table.insert (.ofRecord (s.newcomer l))).1 = false) :
      Launched s ⟨l, false, .error f⟩ s.drawn

/-! Each way in which the record of a launch may fare. -/

section Starts

variable {s l} {table : Executions}

theorem perform_start_missing (h : s.database.executions = none) :
    s.perform l.call.job.run = (.error (.database (.noTable Store.executionsName)), s.drawn) := by
  obtain ⟨⟨executions, tokens, definitions, templates, hostTables⟩, serial, worker⟩ := s
  cases h
  rfl

/-- What follows the start of an execution, as the record finds its place or not. -/
theorem perform_start (h : s.database.executions = some table) :
    s.perform l.call.job.run =
      ({ s.drawn with
        database := { s.database with executions := some (table.insert (.ofRecord (s.newcomer l))).2 } } : Site).perform
        (if (table.insert (.ofRecord (s.newcomer l))).1 then pure (⟨s.newcomer l, true⟩ : Start)
          else Engine.run (.owner l.call.key) >>= fun row : ExecutionRow =>
            readRow row.record >>= fun r => pure (⟨r, false⟩ : Start)).run := by
  refine (s.drawn.perform_statement (Store.Statement.execute_insertExecution h (.ofRecord (s.newcomer l))) fun new : Bool =>
    if new then pure (⟨s.newcomer l, true⟩ : Start) else Engine.run (.owner l.call.key) >>= fun row : ExecutionRow =>
      readRow row.record >>= fun r => pure (⟨r, false⟩ : Start)).trans rfl

theorem perform_start_free (h : s.database.executions = some table)
    (free : (table.insert (.ofRecord (s.newcomer l))).1 = true) :
    s.perform l.call.job.run = (.ok ⟨s.newcomer l, true⟩, s.opened l) := by
  rw [perform_start h, free, Executions.insert_snd free]
  unfold opened
  rw [h]
  rfl

/-- A record for which there is no place leads to that of an earlier run, or to a fault. -/
theorem perform_start_taken (h : s.database.executions = some table)
    (taken : (table.insert (.ofRecord (s.newcomer l))).1 = false) :
    (∃ row record, s.perform l.call.job.run = (.ok ⟨record, false⟩, s.drawn) ∧ row ∈ table ∧ row.key = l.call.key ∧
      row.runOnce = .int 1) ∨ ∃ f, s.perform l.call.job.run = (.error f, s.drawn) := by
  let found (row : ExecutionRow) : Attempt Start := readRow row.record >>= fun r => pure ⟨r, false⟩
  have hstart : s.perform l.call.job.run = s.drawn.perform (Engine.run (.owner l.call.key) >>= found).run := by
    have hdrawn : ({ s.drawn with database := { s.database with executions := some table } } : Site) = s.drawn := by
      rw [← h]
      rfl
    rw [perform_start h, taken, Executions.insert_snd_of_not taken, hdrawn]
    rfl
  have hdatabase : s.drawn.database.executions = some table := h
  have howner := Store.Statement.execute_owner hdatabase l.call.key
  cases hrow : table.owner? l.call.key with
  | none =>
    rw [hrow] at howner
    exact .inr ⟨.database .noRow, hstart.trans (s.drawn.perform_statement_error howner found)⟩
  | some row =>
    rw [hrow] at howner
    have hfound : s.perform l.call.job.run = s.drawn.perform (found row).run :=
      hstart.trans (s.drawn.perform_run howner found)
    rw [hfound]
    show (∃ row' record, s.drawn.perform (readRow row.record >>= fun r => pure (⟨r, false⟩ : Start)).run = _ ∧ _) ∨
      ∃ f, s.drawn.perform (readRow row.record >>= fun r => pure (⟨r, false⟩ : Start)).run = _
    cases row.record with
    | ok r => exact .inl ⟨row, r, rfl, Executions.owner?_some hrow⟩
    | error e => exact .inr ⟨_, rfl⟩

end Starts

/-- Every attempt goes in one of these ways. -/
theorem launched_perform (s : Site) (l : Launch) :
    ∃ recorded, Launched s ⟨l, recorded, (s.perform l.job).1⟩ (s.perform l.job).2 := by
  cases htable : s.database.executions with
  | none =>
    have hjob : s.perform l.job = (.error _, s.drawn) := s.perform_attempt_error (perform_start_missing htable) l.go
    rw [hjob]
    exact ⟨false, .refused fun table h => nomatch htable.symm.trans h⟩
  | some table =>
    cases hplace : (table.insert (.ofRecord (s.newcomer l))).1 with
    | true =>
      have hjob : s.perform l.job = (s.opened l).perform
          (runNew l.workflow (s.newcomer l) l.context >>= fun _ => pure true).run :=
        s.perform_attempt_ok (perform_start_free htable hplace) l.go
      refine ⟨true, ?_⟩
      match hran : (s.opened l).perform (runNew l.workflow (s.newcomer l) l.context).run with
      | (.ok r, s') =>
        rw [hjob, perform_attempt_ok _ hran]
        exact .started htable hplace hran
      | (.error f, s') =>
        rw [hjob, perform_attempt_error _ hran]
        exact .broken htable hplace hran
    | false =>
      refine ⟨false, ?_⟩
      rcases perform_start_taken htable hplace with ⟨row, record, hstart, hrow, hkey, honce⟩ | ⟨f, hstart⟩
      · have hjob : s.perform l.job = (.ok false, s.drawn) := s.perform_attempt_ok hstart l.go
        rw [hjob]
        exact .existed htable hplace hrow hkey honce
      · have hjob : s.perform l.job = (.error f, s.drawn) := s.perform_attempt_error hstart l.go
        rw [hjob]
        refine .refused fun table' h => ?_
        obtain rfl : table = table' := Option.some.inj (htable.symm.trans h)
        exact hplace

/-- An attempt leaves the records in their places, and behind them at most its own. -/
theorem Launched.records {s s' : Site} {a : Attempted} (h : Launched s a s') :
    s.database.records.Extended (if a.recorded then [a.launch.call.key] else []) s'.database.records := by
  have run {s : Site} {l : Launch} {table : Executions} {x : Except EngineFault Result} {s' : Site}
      (present : s.database.executions = some table)
      (ran : (s.opened l).perform (runNew l.workflow (s.newcomer l) l.context).run = (x, s')) :
      s.database.records.Extended [l.call.key] s'.database.records := by
    have hopened : s.database.records.Extended [l.call.key] (s.opened l).database.records := by
      refine ⟨table, [.ofRecord (s.newcomer l)], ?_, ?_, rfl⟩
      · unfold opened Database.records
        rw [present]
        rfl
      · unfold Database.records
        rw [present]
        exact Executions.kept_refl _
    have hran := records_perform (only_runNew l.workflow (s.newcomer l) l.context) (s.opened l)
    rw [ran] at hran
    exact hopened.trans hran.extended
  cases h with
  | started present _ ran => exact run present ran
  | broken present _ ran => exact run present ran
  | existed => exact (Executions.kept_refl _).extended
  | refused => exact (Executions.kept_refl _).extended

/-! ### One attempt after the other -/

/-- The attempts from one site to another, each at the site that the one before it has left. -/
inductive Launches : Site → List Attempted → Site → Prop
  | nil (s : Site) : Launches s [] s
  | cons {s mid s' : Site} {a : Attempted} {rest : List Attempted} (h : Launched s a mid) (hrest : Launches mid rest s') :
      Launches s (a :: rest) s'

theorem Launches.append {s mid s' : Site} {as bs : List Attempted} (h : Launches s as mid) (g : Launches mid bs s') :
    Launches s (as ++ bs) s' := by
  induction h with
  | nil s => exact g
  | cons ha _ ih => exact .cons ha (ih g)

/-- The new records are those of the attempts. -/
theorem Launches.records {s s' : Site} {as : List Attempted} (h : Launches s as s') :
    s.database.records.Extended ((as.filter (·.recorded)).map (·.launch.call.key)) s'.database.records := by
  induction h with
  | nil s => exact (Executions.kept_refl _).extended
  | @cons s mid s' a rest ha _ ih =>
    have := ha.records.trans ih
    rw [List.filter_cons]
    split <;> rename_i hr <;> simpa [hr] using this

end Host.Site

/-! ### Counts -/

namespace Engine

/-- A new record was put on file and run. -/
def Attempted.started (a : Attempted) : Bool := match a.result with
  | .ok started => started
  | .error _ => false

/-- It was there already. -/
def Attempted.skipped (a : Attempted) : Bool := match a.result with
  | .ok started => !started
  | .error _ => false

def Attempted.failed (a : Attempted) : Bool := match a.result with
  | .ok _ => false
  | .error _ => true

/-- Every attempt is counted once. -/
theorem Attempted.counted (as : List Attempted) :
    as.countP (·.started) + as.countP (·.skipped) + as.countP (·.failed) = as.length := by
  induction as with
  | nil => rfl
  | cons a as ih =>
    obtain ⟨l, recorded, result⟩ := a
    match result with
    | .ok true => simp [started, skipped, failed] at ih ⊢; omega
    | .ok false => simp [started, skipped, failed] at ih ⊢; omega
    | .error f => simp [started, skipped, failed] at ih ⊢; omega

/-- The report with some more attempts. -/
def DispatchTally.plus (r : DispatchTally) (as : List Attempted) : DispatchTally :=
  ⟨r.matched, r.started + as.countP (·.started), r.skipped + as.countP (·.skipped), r.failed + as.countP (·.failed)⟩

theorem DispatchTally.plus_count (r : DispatchTally) (l : Launch) (recorded : Bool) (x : Except EngineFault Bool)
    (as : List Attempted) : (r.count x).plus as = r.plus (⟨l, recorded, x⟩ :: as) := by
  match x with
  | .ok true => simp [plus, count, Attempted.started, Attempted.skipped, Attempted.failed]; omega
  | .ok false => simp [plus, count, Attempted.started, Attempted.skipped, Attempted.failed]; omega
  | .error f => simp [plus, count, Attempted.started, Attempted.skipped, Attempted.failed]; omega

end Engine

/-! ### What storage offers, row by row -/

/-- The row holds a definition that is active, has no defect and is started by `type`. -/
def Store.DefinitionRow.Offers (row : DefinitionRow) (type : TriggerType) (w : Workflow) : Prop :=
  ∃ d, Definition.ofText row.definition = .ok d ∧ Workflow.ofDefinition d = .ok w ∧ d.active = true ∧ d.triggerType = type

theorem Workflow.trigger_of {d : Definition} {w : Workflow} (h : Workflow.ofDefinition d = .ok w) :
    Trigger.read d.triggerType d.triggerConditions = .ok w.trigger := by
  obtain ⟨trigger, hread, h⟩ := bind_ok h
  obtain ⟨graph, -, h⟩ := bind_ok h
  cases h
  exact mapError_ok hread

/-- What an offered workflow waits for is what its conditions admit. -/
theorem Store.DefinitionRow.Offers.admits_iff {row : DefinitionRow} {w : Workflow} (h : row.Offers .statusChanged w)
    (type : TargetType) (source target : String) :
    w.trigger.admits type source target = true ↔ w.definition.triggerConditions.Admit type source target := by
  obtain ⟨d, -, hw, -, htype⟩ := h
  obtain rfl := Workflow.definition_eq hw
  have hread := Workflow.trigger_of hw
  rw [htype] at hread
  exact Trigger.admits_iff hread type source target

namespace Host.Registry

variable {ds : Definitions}

/-- Entries that come from rows, with their rows. -/
theorem exists_rows {type : TriggerType} {entries : List (String × Workflow)}
    (h : ∀ e ∈ entries, ∃ row ∈ ds, row.id = e.1 ∧ row.Offers type e.2) :
    ∃ offers : List (DefinitionRow × Workflow), offers.map (fun o => (o.1.id, o.2)) = entries ∧
      ∀ o ∈ offers, o.1 ∈ ds ∧ o.1.Offers type o.2 := by
  induction entries with
  | nil => exact ⟨[], rfl, by simp⟩
  | cons e entries ih =>
    obtain ⟨row, hrow, hid, hoffers⟩ := h e List.mem_cons_self
    obtain ⟨offers, hentries, hall⟩ := ih fun e he => h e (List.mem_cons_of_mem _ he)
    refine ⟨(row, e.2) :: offers, ?_, List.forall_mem_cons.2 ⟨⟨hrow, hoffers⟩, hall⟩⟩
    rw [List.map_cons, hentries, hid]

/-- The workflows of the definitions that are active and of the type, under the names that they are stored under. -/
def selected (ds : Definitions) (type : TriggerType) : List (String × Workflow) :=
  ((Worker.insertAll (workflows ds)).filter fun e => e.2.active && e.2.definition.triggerType == type).mergeSort
    fun a b => a.2.id ≤ b.2.id

variable {type : TriggerType}

theorem activeAmong_selected : activeAmong type ((Worker.insertAll (workflows ds)).map (·.2)) = (selected ds type).map (·.2) := by
  unfold activeAmong selected
  rw [List.filter_map]
  refine (List.map_mergeSort ?_).symm
  exact fun _ _ _ _ => rfl

theorem mem_selected (distinct : (ds.map (·.id)).Nodup) {e : String × Workflow} :
    e ∈ selected ds type ↔ ∃ row ∈ ds, row.id = e.1 ∧ row.Offers type e.2 := by
  unfold selected
  rw [List.mem_mergeSort, List.mem_filter, Worker.mem_insertAll (nodup_workflows distinct), mem_workflows_iff,
    Bool.and_eq_true, beq_iff_eq]
  constructor
  · rintro ⟨⟨row, hrow, d, hid, hd, hw⟩, hactive, htype⟩
    obtain rfl := Workflow.definition_eq hw
    exact ⟨row, hrow, hid, _, hd, hw, hactive, htype⟩
  · rintro ⟨row, hrow, hid, d, hd, hw, hactive, htype⟩
    obtain rfl := Workflow.definition_eq hw
    exact ⟨⟨row, hrow, _, hid, hd, hw⟩, hactive, htype⟩

theorem nodup_selected (ds : Definitions) (type : TriggerType) : ((selected ds type).map (·.1)).Nodup := by
  have hall : ((Worker.insertAll (workflows ds)).map (·.1)).Nodup := Ascends.nodup (Worker.ascending_insertAll _)
  refine ((List.mergeSort_perm _ _).map _).nodup_iff.2 ?_
  exact hall.sublist (List.filter_sublist.map _)

theorem sorted_selected (ds : Definitions) (type : TriggerType) : (selected ds type).Pairwise fun a b => a.2.id ≤ b.2.id := by
  have hsorted : (selected ds type).Pairwise fun a b => decide (a.2.id ≤ b.2.id) = true := by
    refine List.pairwise_mergeSort (fun a b c hab hbc => ?_) (fun a b => ?_) _
    · exact decide_eq_true (le_trans (of_decide_eq_true hab) (of_decide_eq_true hbc))
    · simpa using le_total a.2.id b.2.id
  exact hsorted.imp fun h => of_decide_eq_true h

/-- What is selected from the workflows of all definitions are those of the rows that offer one, each once and by ascending
identifiers. -/
theorem activeAmong_eq (distinct : (ds.map (·.id)).Nodup) (type : TriggerType) :
    ∃ offers : List (DefinitionRow × Workflow),
      activeAmong type ((Worker.insertAll (workflows ds)).map (·.2)) = offers.map (·.2) ∧ (offers.map (·.1)).Nodup ∧
        (∀ row w, (row, w) ∈ offers ↔ row ∈ ds ∧ row.Offers type w) ∧ offers.Pairwise fun a b => a.2.id ≤ b.2.id := by
  obtain ⟨offers, hoffers, hall⟩ := exists_rows fun e he => (mem_selected distinct).1 he
  have hnames := nodup_selected ds type
  have hsorted := sorted_selected ds type
  rw [← hoffers, List.map_map] at hnames
  rw [← hoffers, List.pairwise_map] at hsorted
  refine ⟨offers, ?_, ?_, fun row w => ⟨hall (row, w), fun ⟨hrow, hoffered⟩ => ?_⟩, hsorted⟩
  · rw [activeAmong_selected, ← hoffers, List.map_map]
    rfl
  · refine List.Nodup.of_map (·.id) ?_
    rw [List.map_map]
    exact hnames
  · have hentry : (row.id, w) ∈ selected ds type := (mem_selected distinct).2 ⟨row, hrow, rfl, hoffered⟩
    rw [← hoffers] at hentry
    obtain ⟨o, ho, hpair⟩ := List.mem_map.1 hentry
    obtain ⟨hid, rfl⟩ := Prod.mk.inj hpair
    -- rows have identifiers of their own, so the one that offers it is the one that it comes from
    have hsame : o.1 = row := List.inj_on_of_nodup_map distinct (hall o ho).1 hrow hid
    rw [← hsame]
    exact ho

end Host.Registry

/-! ### Events -/

/-- What an event launches of a workflow. -/
def Engine.Event.launch (e : Event) (w : Workflow) : Launch :=
  ⟨w, e.target, .statusChanged, w.trigger.runOnce, .ofChange e.source e.destination⟩

/-- An event goes through the workflows that are active now and admit it. -/
theorem Host.Site.perform_dispatch (s : Site) (e : Event) {ws : List Workflow}
    (h : (activeAmong .statusChanged (s.registry.refreshed.map (·.2))).filter
      (fun w => w.trigger.admits e.target.type e.source e.destination) = ws) :
    s.perform (dispatch e) = (s.withCache s.registry.refreshed).perform (dispatchAll e { matched := ws.length } ws) := by
  unfold dispatch
  rw [perform_bind, perform_activeNow]
  dsimp only
  rw [h]

namespace Lone

end Lone

end Lifecycle
