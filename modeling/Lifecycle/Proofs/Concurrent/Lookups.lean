import Lifecycle.Proofs.Concurrent.Outcomes
import Lifecycle.Proofs.Engine.Lookups
import Lifecycle.Proofs.Host.Registry

/-!
# Whose workflow no longer exists

Whatever else happens to the tables between the requests of a resumption, it fails its execution for want of a workflow only
after it has looked the workflow up and found nothing. That is so if storage was read and held no row, as the text says; but
also if storage was of no use and nothing was cached, whether there is a row or not.
-/

namespace Lifecycle

open Engine
open Program (Leaves)
open Store (ExecutionRow DefinitionRow)

/-! ### Entries -/

theorem Answers.definition {ids : List String} {db after : Store.Database} {id : String} {row : Option DefinitionRow}
    (h : Answers ids db (.statement (.definition id)) (.ok row) after) :
    ∃ ds, db.definitions = some ds ∧ ds.get? id = row := by
  rcases h.executed with ⟨v, hv, hq⟩ | ⟨⟨f, hf⟩, -⟩
  · cases hv
    obtain ⟨ds, hds, hq⟩ := Answers.present_ok hq
    cases hq
    exact ⟨ds, hds, rfl⟩
  · cases hf

/-- Storage was read, and held no row of the workflow. -/
def Entry.FindsNoRow (e : Entry) (id : String) : Prop :=
  e.reply = ⟨.statement (.definition id), .ok none⟩ ∧ ∃ ds, e.before.definitions = some ds ∧ ds.get? id = none

/-- Storage could not be read, or held a row of the workflow that cannot be decoded or has a defect. -/
def Entry.FindsNoUse (e : Entry) (id : String) : Prop :=
  (∃ f, e.reply = ⟨.statement (.definition id), .error f⟩) ∨
    ∃ ds row, e.reply = ⟨.statement (.definition id), .ok (some row)⟩ ∧ e.before.definitions = some ds ∧
      ds.get? id = some row ∧ Unusable (.ok (some row))

/-- During `mid` the task `k` has looked the workflow up and found nothing. -/
def FoundNothingIn (k : Nat) (mid : List Entry) (id : String) : Prop :=
  (∃ look ∈ mid, look.task = k ∧ look.FindsNoRow id) ∨
    (∃ look ∈ mid, look.task = k ∧ look.FindsNoUse id) ∧ ∃ cache ∈ mid, cache.task = k ∧ cache.reply = ⟨.cached id, none⟩

variable {offered : Job Unit → Prop} {s : Pool} {pre mid post : List Entry} {k : Nat} {id : String}

/-- What was found is told by the tables at the time. -/
theorem Pool.Reachable.foundNothing_iff (h : Pool.Reachable offered s) (hs : s.history = pre ++ mid ++ post) :
    FoundNothing id (repliesOf k mid) ↔ FoundNothingIn k mid id := by
  have answered {e : Entry} (he : e ∈ mid) : ∃ ids, Answers ids e.before e.reply.request e.reply.answer e.after := by
    obtain ⟨s₀, -, -, hx⟩ := h.entry_of_mem hs he
    exact ⟨_, hx⟩
  constructor
  · rintro (hgone | ⟨⟨x, hx, huse⟩, hcached⟩)
    · obtain ⟨look, hlook, hk, hreply⟩ := exists_of_mem_repliesOf hgone
      obtain ⟨ids, ha⟩ := answered hlook
      rw [hreply] at ha
      exact .inl ⟨look, hlook, hk, hreply, ha.definition⟩
    · obtain ⟨look, hlook, hk, hreply⟩ := exists_of_mem_repliesOf huse
      refine .inr ⟨⟨look, hlook, hk, ?_⟩, exists_of_mem_repliesOf hcached⟩
      obtain ⟨ids, ha⟩ := answered hlook
      rw [hreply] at ha
      match x with
      | .error f => exact .inl ⟨f, hreply⟩
      | .ok none => cases hx
      | .ok (some row) =>
        obtain ⟨ds, hds, hrow⟩ := ha.definition
        exact .inr ⟨ds, row, hreply, hds, hrow, hx⟩
  · rintro (⟨look, hlook, hk, hreply, -⟩ | ⟨⟨look, hlook, hk, hno⟩, cache, hcache, hk', hcached⟩)
    · exact .inl (hreply ▸ mem_repliesOf hlook hk)
    · refine .inr ⟨?_, hcached ▸ mem_repliesOf hcache hk'⟩
      rcases hno with ⟨f, hreply⟩ | ⟨ds, row, hreply, -, -, hx⟩
      · exact ⟨_, .unreadable f, hreply ▸ mem_repliesOf hlook hk⟩
      · exact ⟨_, hx, hreply ▸ mem_repliesOf hlook hk⟩

/-- An execution is failed for want of a workflow by a resumption only if it was read as suspended, the workflow is the one
of its record, and nothing was found of it. That is, storage held no row of it; or storage was of no use, and nothing was
cached. And where nothing was found of it, a resumption that ends well has failed the execution. -/
theorem condemned_where_nothing_was_found (h : Pool.Reachable offered s) (hs : s.history = pre ++ mid ++ post) {token : Token}
    {rest : Job (Except EngineFault Result)} (hl : Leaves (resume token).run (repliesOf k mid) rest) :
    (∀ e ∈ mid, e.task = k → ∀ id, e.reply.request.Condemns id →
      (∃ read ∈ mid, read.task = k ∧ ∃ (row : ExecutionRow) (record : Record),
        read.reply = ⟨.statement (.execution token.executionId), .ok (some row)⟩ ∧ row.record = .ok record ∧
          record.status = .suspended ∧ record.workflowId = id) ∧ FoundNothingIn k mid id) ∧
      ∀ result id, rest = .done (.ok result) → FoundNothingIn k mid id →
        result = .failed token.resumeNodeId (SchedulingFault.workflowMissing id).message := by
  refine ⟨fun e he hk id hc => ?_, fun result id hrest hnothing => ?_⟩
  · obtain ⟨hnothing, row, record, hread, hrow, hstatus, hid⟩ := foundNothing_of_condemns hl (mem_repliesOf he hk) hc
    obtain ⟨read, hmem, hk', hreply⟩ := exists_of_mem_repliesOf hread
    exact ⟨⟨read, hmem, hk', row, record, hreply, hrow, hstatus, hid⟩, (h.foundNothing_iff hs).1 hnothing⟩
  · subst hrest
    exact failed_of_foundNothing hl ((h.foundNothing_iff hs).2 hnothing)

/-! ### A workflow that was deleted -/

namespace Sample

/-- The row of the execution that is suspended. -/
def suspendedRow : ExecutionRow := ((ExecutionRow.ofRecord record).moved .running 0 none).moved .suspended 0 none

/-- The workflow of the suspended execution is not in storage any more. -/
def deleted : Store.Database := { suspended with definitions := some [] }

/-- The execution has been failed. -/
def condemned : Store.Database :=
  { deleted with
    executions := some [suspendedRow.moved .failed 0 (some ⟨"d", (SchedulingFault.workflowMissing "w").message⟩)] }

theorem record_suspendedRow : suspendedRow.record = .ok { record with status := .suspended } := by decide +kernel

theorem ofSnapshot_token : Context.ofSnapshot token.snapshot = .ok ((Context.ofChange "a" "b").enter "t" .epoch) := by
  decide +kernel

/-- The execution is failed by a task. -/
def condemnation (k : Nat) : Entry :=
  ⟨k, ⟨.statement (.advance "e" .failed 0 (some ⟨"d", (SchedulingFault.workflowMissing "w").message⟩)), .ok true⟩,
    deleted, condemned⟩

/-- A task resumes the execution. -/
def resumptionHistory (k : Nat) : List Entry :=
  [⟨k, ⟨.statement (.execution "e"), .ok (some suspendedRow)⟩, deleted, deleted⟩,
    ⟨k, ⟨.statement (.definition "w"), .ok none⟩, deleted, deleted⟩,
    ⟨k, ⟨.uncache "w", ()⟩, deleted, deleted⟩,
    ⟨k, ⟨.now, .epoch⟩, deleted, deleted⟩, condemnation k]

theorem leaves_resumptionHistory (k : Nat) : Leaves (resume token).run (repliesOf k (resumptionHistory k))
    (.done (.ok (.failed "d" (SchedulingFault.workflowMissing "w").message))) := by
  have hreplies : repliesOf k (resumptionHistory k) = (resumptionHistory k).map (·.reply) := by
    simp [repliesOf, resumptionHistory, condemnation]
  rw [hreplies, resume_eq]
  refine .ask (show Leaves ((readRow suspendedRow.record >>= fun r => pure (some r)).run >>= _) _ _ from ?_)
  rw [record_suspendedRow]
  show Leaves (resumption { record with status := .suspended } token >>= _) _ _
  unfold resumption
  rw [ofSnapshot_token]
  exact .ask (.ask (.ask (.ask (.here _))))

theorem reachable_condemned : ∃ (tasks : List (Job Unit)) (pre : List Entry) (k : Nat),
    Pool.Reachable WalkJob ⟨condemned, tasks, pre ++ resumptionHistory k⟩ := by
  obtain ⟨⟨db, tasks, history⟩, h, rfl⟩ := reachable_suspended
  have gone : Pool.Reachable WalkJob ⟨deleted, tasks, history⟩ :=
    (h.mono fun job hj => .ledger (.operation hj)).step (.change _ ⟨rfl, rfl⟩)
  have begun := gone.step (.begin _ (.call (.resume token)))
  have consecutive (ids : List String) :
      Pool.Consecutive tasks.length ids deleted (resumptionHistory tasks.length) condemned :=
    .cons (.inl rfl) (.cons (.inl rfl) (.cons rfl (.cons rfl (.cons (.inl rfl) (.nil _ _)))))
  exact ⟨_, history, tasks.length, Pool.Reachable.consecutive (consecutive _) begun rfl (leaves_resumptionHistory _)⟩

end Sample

/-- The execution is failed where storage was read, and held no row of its workflow. -/
theorem condemned_of_deleted : ∃ (s : Pool) (pre : List Entry) (k : Nat), Pool.Reachable WalkJob s ∧
    s.history = pre ++ Sample.resumptionHistory k ++ [] ∧
    (∃ e ∈ Sample.resumptionHistory k, e.task = k ∧ e.reply.request.Condemns "w") ∧
    FoundNothingIn k (Sample.resumptionHistory k) "w" := by
  obtain ⟨tasks, pre, k, h⟩ := Sample.reachable_condemned
  have last : Sample.condemnation k ∈ Sample.resumptionHistory k := by simp [Sample.resumptionHistory]
  have condemns : (Sample.condemnation k).reply.request.Condemns "w" := rfl
  obtain ⟨only, -⟩ := condemned_where_nothing_was_found h (List.append_nil _).symm (Sample.leaves_resumptionHistory k)
  exact ⟨_, pre, k, h, (List.append_nil _).symm, ⟨_, last, rfl, condemns⟩, (only _ last rfl "w" condemns).2⟩

namespace Lone

/-- Storage holds a row of the workflow that cannot be decoded, and nothing is cached. -/
def garbled : Host.Site :=
  { site true with
    database := { database true with definitions := some [⟨"new", "new", "status_changed", 1, "{}"⟩] } }

/-- The token of the suspended execution. -/
def token : Token := ⟨"k", "e", "t", .epoch, (Context.ofChange "draft" "signed").toJson, .epoch⟩

end Lone

/-- An execution is failed because its workflow no longer exists, while storage can be read and holds the row of it. -/
theorem condemned_with_row :
    (∃ ds row, Lone.garbled.database.definitions = some ds ∧ ds.get? "new" = some row) ∧
      (Lone.garbled.perform (resume Lone.token).run).1 =
        .ok (.failed "t" (SchedulingFault.workflowMissing "new").message) ∧
      ((Lone.garbled.perform (resume Lone.token).run).2.database.records.map fun r => (r.id, r.status, r.error)) =
        [(some "e", "failed", some (SchedulingFault.workflowMissing "new").message)] :=
  ⟨⟨_, _, rfl, rfl⟩, by decide +kernel, by decide +kernel⟩

end Lifecycle
