import Lifecycle.Engine.Walk
import Lifecycle.Proofs.Sequential.Runs
import Lifecycle.Proofs.Store.Rows
import Lifecycle.Proofs.Store.Statements

/-!
# Jobs on one execution

What the jobs on records do for an execution that is on record in a known status, with its workflow in storage, if
nobody disturbs the worker: moves of status succeed, a suspension writes one token, and the record and the workflow are
found again.
-/

namespace Lifecycle

open Engine
open Store (Database ExecutionRow TokenRow Failure Statement)
open Time (Instant)

/-! ### One execution on record -/

/-- Storage yields a workflow under an identifier. -/
def Store.Database.Yields (db : Database) (id : String) (w : Workflow) : Prop :=
  ∃ ds row d, db.definitions = some ds ∧ ds.get? id = some row ∧ Definition.ofText row.definition = .ok d ∧
    Workflow.ofDefinition d = .ok w

/-- The execution is on record with a status, and storage yields its workflow. -/
structure OnRecord (db : Database) (w : Workflow) (id : String) (status : Status) : Prop where
  executions : db.executions = some db.records
  tokens : db.tokens = some db.waiting
  row : ∃ row, db.records.get? id = some row ∧ row.Readable ∧ row.status = status.name ∧ db.Yields row.workflowId w

variable {visits : Visits} {db after : Database} {w : Workflow} {id : String} {status next : Status} {now : Instant}
  {failure : Option Failure}

theorem OnRecord.same (h : OnRecord db w id status) (hs : db.SameEngine after) : OnRecord after w id status := by
  obtain ⟨⟨he, ht⟩, hd⟩ := hs
  have hr : after.records = db.records := by simp only [Database.records, he]
  have hw : after.waiting = db.waiting := by simp only [Database.waiting, ht]
  obtain ⟨row, hrow, hreadable, hstatus, ds, drow, d, hds, hyields⟩ := h.row
  refine ⟨?_, ?_, row, ?_, hreadable, hstatus, ds, drow, d, hd.trans hds, hyields⟩
  · rw [he, hr, h.executions]
  · rw [ht, hw, h.tokens]
  · rw [hr]
    exact hrow

/-- The row moves to a status that may follow the one it has. -/
theorem OnRecord.moved (h : OnRecord db w id status) (next : Status) (hf : next.before.contains status = true) (now : Instant)
    (failure : Option Failure) : ∃ row, db.records.get? id = some row ∧
      (db.records.advance id next now.floorMillis failure).1 = true ∧
      (db.records.advance id next now.floorMillis failure).2.get? id = some (row.moved next now.floorMillis failure) := by
  obtain ⟨row, hrow, hreadable, hstatus, hyields⟩ := h.row
  obtain ⟨hmem, hid⟩ := Store.Executions.mem_of_get? hrow
  have hadmits : row.admits id next = true := by
    rw [ExecutionRow.admits_iff, hstatus, Status.follows_name]
    exact ⟨hid, hf⟩
  refine ⟨row, hrow, List.any_eq_true.2 ⟨row, hmem, hadmits⟩, ?_⟩
  rw [Store.Executions.get?_advance, hrow, Option.map_some, if_pos hadmits]

theorem OnRecord.advance (h : OnRecord db w id status) (hf : next.before.contains status = true)
    {x : Except Store.Fault Bool}
    (hx : (x, after) = (Statement.advance id next now.floorMillis failure).execute db) :
    x = .ok true ∧ OnRecord after w id next ∧ after.waiting = db.waiting ∧
      ∃ row : ExecutionRow, after.records.get? id = some (row.moved next now.floorMillis failure) := by
  obtain ⟨row, hrow, hmoved, hget⟩ := h.moved next hf now failure
  obtain ⟨row', hrow', hreadable, -, hyields⟩ := h.row
  obtain rfl := Option.some.inj (hrow.symm.trans hrow')
  rw [Store.Statement.execute_advance h.executions, hmoved] at hx
  obtain ⟨rfl, rfl⟩ := Prod.mk.inj hx
  refine ⟨rfl, ⟨rfl, h.tokens, _, hget, hreadable.moved next now failure, rfl, hyields⟩, rfl, row, hget⟩

/-- A suspension writes the token. -/
theorem OnRecord.suspend (h : OnRecord db w id .running) {row : TokenRow} (he : row.executionId = id)
    (hnew : ∀ other ∈ db.waiting, other.id ≠ row.id) {x : Except Store.Fault Bool}
    (hx : (x, after) = (Statement.suspend row now.floorMillis).execute db) :
    x = .ok true ∧ OnRecord after w id .suspended ∧ after.waiting = db.waiting ++ [row] := by
  obtain ⟨old, hrow, hmoved, hget⟩ := h.moved .suspended (by decide) now none
  obtain ⟨row', hrow', hreadable, -, hyields⟩ := h.row
  obtain rfl := Option.some.inj (hrow.symm.trans hrow')
  subst he
  rw [Store.Statement.execute_suspend h.executions h.tokens hmoved hnew] at hx
  obtain ⟨rfl, rfl⟩ := Prod.mk.inj hx
  exact ⟨rfl, ⟨rfl, rfl, _, hget, hreadable.moved .suspended now none, rfl, hyields⟩, rfl⟩

/-! ### Jobs -/

theorem ensures_move (h : OnRecord db w id status) (next : Status) (hf : next.before.contains status = true)
    (failure : Option Failure) :
    Ensures visits (move id next failure).run db fun ids x mid => ids = [] ∧ ∃ moved, x = .ok moved ∧
      moved = true ∧ OnRecord mid w id next ∧ mid.waiting = db.waiting ∧
        ∃ (row : ExecutionRow) (now : Instant), mid.records.get? id = some (row.moved next now.floorMillis failure) := by
  intro now mid hnow x after hx
  obtain rfl : mid = db := hnow
  obtain ⟨rfl, hr, hw, row, hrow⟩ := h.advance hf hx
  exact ⟨rfl, true, rfl, rfl, hr, hw, row, now, hrow⟩

/-- How an execution ends. -/
inductive Ending where
  | completed
  | failed (nodeId message : String)
deriving DecidableEq, Repr

/-- The row of an execution that has ended so. -/
def Ending.Marks : Ending → ExecutionRow → Prop
  | .completed, row => row.status = Status.completed.name
  | .failed nodeId message, row =>
    row.status = Status.failed.name ∧ row.failedNodeId = some nodeId ∧ row.error = some message

/-- An execution has one ending at most. -/
theorem Ending.Marks.eq {e e' : Ending} {row : ExecutionRow} (h : e.Marks row) (h' : e'.Marks row) : e = e' := by
  cases e with
  | completed =>
    cases e' with
    | completed => rfl
    | failed nodeId message => exact absurd (h.symm.trans h'.1) (by decide)
  | failed nodeId message =>
    cases e' with
    | completed => exact absurd (h.1.symm.trans h') (by decide)
    | failed nodeId' message' =>
      obtain ⟨-, hn, hm⟩ := h
      obtain ⟨-, hn', hm'⟩ := h'
      rw [Option.some.inj (hn.symm.trans hn'), Option.some.inj (hm.symm.trans hm')]

/-- The execution has ended, and no token of it is left. -/
structure Over (db : Database) (id : String) (e : Ending) : Prop where
  row : ∃ row, db.records.get? id = some row ∧ e.Marks row
  tokens : ∀ row ∈ db.waiting, row.executionId ≠ id

section Ends

variable {record : Record}

theorem ensures_finish (h : OnRecord db w record.id .running) (hn : ∀ row ∈ db.waiting, row.executionId ≠ record.id) :
    Ensures visits (finish record).run db fun ids x after =>
      ids = [] ∧ x = .ok .completed ∧ Over after record.id .completed ∧ after.waiting = db.waiting := by
  refine (ensures_move h .completed (by decide) none).attempt ?_
  rintro moved mid ⟨rfl, -, hw, row, now, hrow⟩
  refine ⟨rfl, rfl, ⟨⟨_, hrow, rfl⟩, ?_⟩, hw⟩
  rw [hw]
  exact hn

theorem ensures_failAt (h : OnRecord db w record.id .running) (hn : ∀ row ∈ db.waiting, row.executionId ≠ record.id)
    (nodeId message : String) : Ensures visits (failAt record nodeId message).run db fun ids _ after =>
      ids = [] ∧ Over after record.id (.failed nodeId message) := by
  refine (ensures_move h .failed (by decide) (some ⟨nodeId, message⟩)).attempt ?_
  rintro moved mid ⟨rfl, -, hw, row, now, hrow⟩
  refine ⟨rfl, ⟨_, hrow, rfl, rfl, rfl⟩, ?_⟩
  rw [hw]
  exact hn

/-- The execution waits in front of a node, with a context: it has one token, and that says so. -/
structure Waits (db : Database) (w : Workflow) (id : String) (next : Step) (context : Context) : Prop where
  record : OnRecord db w id .suspended
  token : ∃ row ∈ db.waiting, row.id.isSome = true ∧ row.executionId = id ∧ row.resumeNodeId = next.id ∧
    row.snapshot = context.toJson.print ∧ ∀ other ∈ db.waiting, other.executionId = id → other = row

theorem ensures_suspendAt (h : OnRecord db w record.id .running)
    (hn : ∀ row ∈ db.waiting, row.executionId ≠ record.id) (delay next : Step) (deadline : Instant) (context : Context) :
    Ensures visits (suspendAt record delay next deadline context).run db fun ids _ after =>
      ids = [] ∧ Waits after w record.id next context := by
  intro id mid ⟨hfresh, hmid⟩ created mid' hcreated moved mid'' hmoved x after hx
  subst hmid
  obtain rfl : mid' = mid := hcreated
  obtain rfl : mid'' = mid' := hmoved
  obtain ⟨rfl, hr, hw⟩ := h.suspend rfl (fun other ho => hfresh other ho) hx
  let token : Token := ⟨id, record.id, next.id, deadline, context.toJson, created⟩
  refine ⟨rfl, hr, .ofToken token, ?_, rfl, rfl, rfl, rfl, fun other ho he => ?_⟩
  · rw [hw]
    exact List.mem_append_right _ (List.mem_singleton_self _)
  · rw [hw, List.mem_append, List.mem_singleton] at ho
    rcases ho with ho | rfl
    · exact absurd he (hn other ho)
    · rfl

end Ends

/-! ### Resuming -/

theorem ensures_getRecord (h : OnRecord db w id status) :
    Ensures visits (getRecord id).run db fun ids x mid => ids = [] ∧ ∃ found, x = .ok found ∧ mid = db ∧
      ∃ record, found = some record ∧ record.id = id ∧ record.status = status ∧ db.Yields record.workflowId w := by
  obtain ⟨row, hrow, hreadable, hstatus, hyields⟩ := h.row
  obtain ⟨record, hrecord⟩ := hreadable.record
  obtain ⟨hid, hname, hworkflow⟩ := Store.ExecutionRow.record_ok hrecord
  intro x mid hx
  have hx : (x, mid) = (Statement.execution id).execute db := hx
  rw [Store.Statement.execute_execution h.executions, hrow] at hx
  obtain ⟨rfl, rfl⟩ := Prod.mk.inj hx
  show Ensures visits (ExceptT.run (readRow row.record >>= fun r => pure (some r))) mid _
  rw [hrecord]
  refine ⟨rfl, some record, rfl, rfl, record, rfl, ?_, ?_, hworkflow ▸ hyields⟩
  · exact Option.some.inj (hid.symm.trans (Store.Executions.mem_of_get? hrow).2)
  · exact Status.name_injective (hname.trans hstatus)

theorem ensures_getDefinition {workflowId : String} (h : db.Yields workflowId w) :
    Ensures visits (getDefinition workflowId).run db fun ids x mid =>
      ids = [] ∧ mid = db ∧ ∃ d, x = .ok (some d) ∧ Workflow.ofDefinition d = .ok w := by
  obtain ⟨ds, row, d, hds, hrow, hd, hw⟩ := h
  intro x mid hx
  have hx : (x, mid) = (Statement.definition workflowId).execute db := hx
  rw [Store.Statement.execute_definition hds, hrow] at hx
  obtain ⟨rfl, rfl⟩ := Prod.mk.inj hx
  refine ⟨rfl, rfl, d, ?_, hw⟩
  show ((Definition.ofText row.definition).map some).mapError (StorageFault.undecodable row.definition) = _
  rw [hd]
  rfl

theorem ensures_currentWorkflow {workflowId : String} (h : db.Yields workflowId w) :
    Ensures visits (currentWorkflow workflowId) db fun ids x mid => ids = [] ∧ x = some w ∧ mid = db := by
  refine (ensures_getDefinition h).bind ?_
  rintro ids x mid ⟨rfl, rfl, d, rfl, hd⟩
  show Ensures visits (cacheDefinition d >>= _) mid _
  unfold cacheDefinition
  rw [hd]
  intro _ after hafter
  exact ⟨rfl, rfl, hafter⟩

/-- A token that is there is taken. -/
theorem ensures_claim (h : OnRecord db w id status) {row : TokenRow} (hrow : row ∈ db.waiting) {tokenId : String}
    (hid : row.id = some tokenId) : Ensures visits (claim tokenId).run db fun ids x mid =>
      ids = [] ∧ x = .ok true ∧ OnRecord mid w id status ∧ mid.waiting = db.waiting.filter (·.id != some tokenId) := by
  intro x mid hx
  have hx : (x, mid) = (Statement.claim tokenId).execute db := hx
  have hany : (db.waiting.claim tokenId).1 = true := List.any_eq_true.2 ⟨row, hrow, by simp [hid]⟩
  rw [Store.Statement.execute_claim h.tokens, hany] at hx
  obtain ⟨rfl, rfl⟩ := Prod.mk.inj hx
  exact ⟨rfl, rfl, ⟨h.executions, rfl, h.row⟩, rfl⟩

end Lifecycle
