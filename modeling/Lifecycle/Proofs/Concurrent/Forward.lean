import Lifecycle.Proofs.Concurrent.RunOnce
import Lifecycle.Proofs.Store.Statements

/-!
# Executions only move forward

Whatever is done to executions: no record is lost, none changes but by one of the seven changes of status, and what is
over stays as it is. The columns of the end stand in a row if and only if its status has them. Whoever marks an execution
is told truly whether its status allowed it, and changes nothing if it did not.
-/

namespace Lifecycle

open Engine
open Program (Leaves)
open Store (Database Executions ExecutionRow TokenRow Failure)

/-! ### What is asked of the table -/

/-- New records are pending, and a failure is told if and only if an execution is failed. -/
def Engine.Request.Orderly : Request → Prop
  | .statement (.insertExecution row) => row.Marked .pending
  | .statement (.advance _ next _ failure) => failure.isSome = true ↔ next = .failed
  | _ => True

theorem Engine.Request.Unwriting.orderly {r : Request} (h : r.Unwriting) : r.Orderly := by
  cases r with
  | statement q => cases q <;> trivial
  | _ => trivial

theorem orderly_ask {α : Type} {r : Request} (h : r.Unwriting) {next : r.Answer → Job α}
    (hn : ∀ x, (next x).Only Request.Orderly) : (Program.ask r next : Job α).Only Request.Orderly :=
  ⟨h.orderly, hn⟩

theorem orderly_start (workflowId : String) (target : Target) (type : TriggerType) (runOnce : Bool) :
    (start workflowId target type runOnce).run.Only Request.Orderly := by
  refine ⟨trivial, fun now => ⟨trivial, fun id => ⟨ExecutionRow.marked_ofRecord rfl rfl rfl rfl, fun x => ?_⟩⟩⟩
  match x with
  | .error f => trivial
  | .ok true => trivial
  | .ok false =>
    refine Program.Only.attempt (orderly_ask (r := .statement (.owner _)) trivial fun _ => trivial) fun row => ?_
    exact Program.Only.attempt (p := readRow row.record) trivial fun _ => trivial

theorem orderly_suspend (executionId nodeId : String) (resumeAt : Time.Instant) (snapshot : Json) :
    (suspend executionId nodeId resumeAt snapshot).run.Only Request.Orderly := by
  refine ⟨trivial, fun id => ⟨trivial, fun created => ⟨trivial, fun moved => ⟨trivial, fun x => ?_⟩⟩⟩⟩
  cases x <;> trivial

theorem orderly_parts : Parts fun _ p => p.Only Request.Orderly where
  done _ := trivial
  bind := Program.Only.bind
  aside h := orderly_ask h.unwriting fun _ => trivial
  statement h := orderly_ask h fun _ => trivial
  start := orderly_start
  move _ _ _ h := ⟨trivial, fun _ => ⟨h, fun _ => trivial⟩⟩

/-! ### Calls that mark an execution -/

/-- The arguments of a call that moves an execution from status to status. -/
inductive MarkCall where
  | moveTo (next : Status) (h : next ≠ .failed) (id : String)
  | moveToFailed (id nodeId message : String)
  | suspend (executionId nodeId : String) (resumeAt : Time.Instant) (snapshot : Json)

namespace MarkCall

def id : MarkCall → String
  | moveTo _ _ id => id
  | moveToFailed id _ _ => id
  | suspend executionId _ _ _ => executionId

def next : MarkCall → Status
  | moveTo next _ _ => next
  | moveToFailed _ _ _ => .failed
  | suspend _ _ _ _ => .suspended

/-- The call; a suspension tells whether its token was written. -/
def job : MarkCall → Attempt Bool
  | moveTo next _ id => Engine.moveTo next id
  | moveToFailed id nodeId message => Engine.moveToFailed id nodeId message
  | suspend executionId nodeId resumeAt snapshot => do
    return (← Engine.suspend executionId nodeId resumeAt snapshot).isSome

/-- The reply to the statement that a call makes, and its result. -/
inductive Ending (c : MarkCall) : Reply interface → Except EngineFault Bool → Prop where
  | move (now : Int) (failure : Option Failure) (x : Except Store.Fault Bool) :
      Ending c ⟨.statement (.advance c.id c.next now failure), x⟩ (x.mapError .database)
  | suspend (t : Token) (ht : t.executionId = c.id) (hn : c.next = .suspended) (now : Int)
      (x : Except Store.Fault Bool) : Ending c ⟨.statement (.suspend (.ofToken t) now), x⟩ (x.mapError .database)

theorem orderly (c : MarkCall) : c.job.run.Only Request.Orderly := by
  cases c with
  | moveTo next h id => exact orderly_parts.move id next none (by simp [h])
  | moveToFailed id nodeId message => exact orderly_parts.move id .failed (some ⟨nodeId, message⟩) (by simp)
  | suspend e n r j => exact (orderly_suspend e n r j).attempt fun _ => trivial

theorem writes (c : MarkCall) : Writes c.job.run := by
  cases c with
  | moveTo next h id => exact writes_move id next none
  | moveToFailed id nodeId message => exact writes_move id .failed (some ⟨nodeId, message⟩)
  | suspend e n r j => exact (writes_suspend e n r j).attempt fun _ => .done _

end MarkCall

theorem leaves_mark {c : MarkCall} {ys : List (Reply interface)} {result : Except EngineFault Bool}
    (h : Leaves c.job.run ys (.done result)) :
    ∃ xs y, ys = xs ++ [y] ∧ (∀ x ∈ xs, x.request.Still) ∧ c.Ending y result := by
  have move {id : String} {next : Status} {failure : Option Failure} {ys : List (Reply interface)}
      (hm : Leaves (Engine.move id next failure).run ys (.done result)) (hid : id = c.id) (hn : next = c.next) :
      ∃ xs y, ys = xs ++ [y] ∧ (∀ x ∈ xs, x.request.Still) ∧ c.Ending y result := by
    subst hid hn
    obtain ⟨now, zs, rfl, hend⟩ := Leaves.ask_done_inv (P := interface) (r := .now) hm
    obtain ⟨x, rfl, rfl⟩ := leaves_statement hend
    refine ⟨[⟨.now, now⟩], _, rfl, fun x hx => ?_, .move _ failure x⟩
    rw [List.mem_singleton.1 hx]
    trivial
  cases c with
  | moveTo next hne id => exact move h rfl rfl
  | moveToFailed id nodeId message => exact move h rfl rfl
  | suspend e n r j =>
    obtain ⟨done, us, vs, rfl, hs, hend⟩ := Leaves.bind_done_inv (P := interface) h
    obtain ⟨id, created, moved, x, rfl, rfl⟩ := leaves_suspend hs
    obtain ⟨rfl, hresult⟩ : vs = [] ∧ x.mapError .database = result := by
      match x with
      | .error f => exact Leaves.done_inv (P := interface) hend
      | .ok true => exact Leaves.done_inv (P := interface) hend
      | .ok false => exact Leaves.done_inv (P := interface) hend
    refine ⟨[⟨.fresh, id⟩, ⟨.now, created⟩, ⟨.now, moved⟩], _, List.append_nil _, fun y hy => ?_,
      hresult ▸ .suspend ⟨id, e, n, r, j, created⟩ rfl rfl _ x⟩
    simp only [List.mem_cons, List.not_mem_nil, or_false] at hy
    rcases hy with rfl | rfl | rfl <;> trivial

/-! ### Runs -/

/-- What is done to executions: the operations of the workers, and each start and each mark on its own. -/
inductive RecordJob : Job Unit → Prop where
  | operation {job : Job Unit} (h : Operation job) : RecordJob job
  | start (c : StartCall) : RecordJob (c.job.run >>= fun _ => .done ())
  | mark (c : MarkCall) : RecordJob (c.job.run >>= fun _ => .done ())

theorem RecordJob.writes {job : Job Unit} (h : RecordJob job) : Writes job := by
  cases h with
  | operation h => exact h.writes
  | start c => exact (writes_start _ _ _ _).bind fun _ => .done _
  | mark c => exact c.writes.bind fun _ => .done _

theorem orderly_walkFrom (workflow : Workflow) (record : Record) (step : Step) (context : Context) :
    (walkFrom workflow record step context).run.Only Request.Orderly :=
  orderly_parts.walkFrom (fun _ => ⟨trivial, fun _ => trivial⟩) orderly_suspend workflow record step context

theorem RecordJob.orderly {job : Job Unit} (h : RecordJob job) : job.Only Request.Orderly := by
  have launches (w : Workflow) (target : Target) (type : TriggerType) (once : Bool) (context : Context)
      (_ : context.Initial) : (launch w target type once context).run.Only Request.Orderly :=
    orderly_parts.launch (C := fun _ => True) (fun _ _ _ _ _ => orderly_walkFrom _ _ _ _) w target type once trivial
  cases h with
  | operation h =>
    cases h with
    | dispatch e => exact (orderly_parts.dispatch launches e).bind fun _ => trivial
    | scan types => exact (orderly_parts.scan launches types).bind fun _ => trivial
    | sweep batch => exact (orderly_parts.sweep orderly_walkFrom batch).bind fun _ => trivial
  | start c => exact (orderly_start _ _ _ _).bind fun _ => trivial
  | mark c => exact c.orderly.bind fun _ => trivial

section Answered

variable {ids : List String} {db after : Database} {r : Request} {x : r.Answer}

/-- An answer writes the table as an insertion or a change of status does, or not at all. -/
theorem Answers.records_cases (h : Answers ids db r x after) (hr : r.Orderly) :
    after.records = db.records ∨
      (∃ row, row.Marked .pending ∧ after.records = (db.records.insert row).2) ∨
      ∃ id next now failure, (failure.isSome = true ↔ next = .failed) ∧
        after.records = (db.records.advance id next now failure).2 := by
  rcases r.still_or with hs | ⟨row, rfl⟩ | ⟨id, next, now, failure, rfl⟩ | ⟨t, now, rfl⟩ | ⟨id, rfl⟩
  · exact .inl (h.unchanged hs).records
  · rcases h.insertExecution with ⟨-, h, -⟩ | ⟨-, rfl⟩
    · exact .inr (.inl ⟨row, hr, h⟩)
    · exact .inl rfl
  · rcases h.advance with ⟨-, h, -⟩ | ⟨-, rfl⟩
    · exact .inr (.inr ⟨id, next, now, failure, hr, h⟩)
    · exact .inl rfl
  · rcases h.suspend with ⟨-, -, h, -⟩ | ⟨-, -, rfl⟩ | ⟨-, rfl⟩
    · exact .inr (.inr ⟨t.executionId, .suspended, now, none, by simp, h⟩)
    · exact .inl rfl
    · exact .inl rfl
  · exact .inl h.records_claim

theorem Answers.forward (h : Answers ids db r x after) (hr : r.Orderly) : db.records.Forward after.records := by
  rcases h.records_cases hr with h | ⟨row, hrow, h⟩ | ⟨id, next, now, failure, -, h⟩ <;> rw [h]
  · exact Executions.forward_refl _
  · exact Executions.forward_insert hrow.status
  · exact Executions.forward_advance

theorem Answers.marked (h : Answers ids db r x after) (hr : r.Orderly) (hm : db.records.Marked) : after.records.Marked := by
  rcases h.records_cases hr with h | ⟨row, hrow, h⟩ | ⟨id, next, now, failure, hf, h⟩ <;> rw [h]
  · exact hm
  · exact Executions.marked_insert hm hrow
  · exact Executions.marked_advance hm hf

end Answered

variable {s s' : Pool}

theorem Pool.Step.forward (h : Pool.Reachable RecordJob s) (hs : Pool.Step RecordJob s s') :
    s.database.records.Forward s'.database.records ∧ (s.database.records.Marked → s'.database.records.Marked) := by
  cases hs with
  | begin job hj => exact ⟨Executions.forward_refl _, id⟩
  | change db hdb =>
    have hr : db.records = s.database.records := hdb.unchanged.records
    show s.database.records.Forward db.records ∧ (_ → db.records.Marked)
    rw [hr]
    exact ⟨Executions.forward_refl _, id⟩
  | @ask k r next x after hk hx =>
    have hr : r.Orderly := (h.only (fun _ hj => hj.orderly) _ (List.mem_of_getElem? hk)).1
    exact ⟨hx.forward hr, hx.marked hr⟩

theorem Pool.Reachable.marked (h : Pool.Reachable RecordJob s) : s.database.records.Marked := by
  induction h with
  | start db he ht =>
    intro r hr
    have hr : r ∈ db.records := hr
    rw [Database.records, he] at hr
    exact absurd hr List.not_mem_nil
  | step h hs ih => exact (hs.forward h).2 ih

/-- Any number of steps later every record is still there, and what was over is as it was. -/
theorem Pool.Reachable.kept_later (h : Pool.Reachable RecordJob s) (hs : Relation.ReflTransGen (Pool.Step RecordJob) s s') :
    ∀ r ∈ s.database.records, ∃ r' ∈ s'.database.records, Relation.ReflTransGen ExecutionRow.Advances r r' := by
  have later : Pool.Reachable RecordJob s' ∧
      ∀ r ∈ s.database.records, ∃ r' ∈ s'.database.records, Relation.ReflTransGen ExecutionRow.Advances r r' := by
    induction hs with
    | refl => exact ⟨h, fun r hr => ⟨r, hr, .refl⟩⟩
    | tail _ hstep ih =>
      obtain ⟨hmid, kept⟩ := ih
      refine ⟨hmid.step hstep, fun r hr => ?_⟩
      obtain ⟨r', hr', ha⟩ := kept r hr
      obtain ⟨r'', hr'', ha'⟩ := (hstep.forward hmid).1.exists_advances hr'
      exact ⟨r'', hr'', ha.tail ha'⟩
  exact later.2

/-! ### Marks -/

/-- The statement was executed, and not kept from it. -/
def Entry.Executed (e : Entry) : Prop :=
  ∃ q : Store.Statement, e.reply = ⟨.statement q, (q.execute e.before).1⟩ ∧ e.after = (q.execute e.before).2

/-- What a call that marks an execution is told by the entry `e` of its statement. -/
inductive MarkCall.Answered (c : MarkCall) (e : Entry) : Except EngineFault Bool → Prop where
  | failed (f : Store.Fault) (h : ¬ e.Executed) : Answered c e (.error (.database f))
  | refused (h : ¬ e.before.records.Admits c.id c.next) : Answered c e (.ok false)
  | moved (h : e.before.records.Admits c.id c.next)
      (after : ∃ r ∈ e.after.records, r.id = some c.id ∧ r.status = c.next.name) : Answered c e (.ok true)

/-- A statement that is executed does not fail if it yields a value. -/
theorem Entry.not_executed {k : Nat} {q : Store.Statement} {f : Store.Fault} {before after : Database}
    (h : ∃ v, (q.execute before).1 = .ok v) : ¬ Entry.Executed ⟨k, ⟨.statement q, .error f⟩, before, after⟩ := by
  rintro ⟨q', hreply, -⟩
  obtain ⟨hq, hx⟩ := Reply.mk.inj hreply
  cases hq
  obtain ⟨v, hv⟩ := h
  cases (eq_of_heq hx).trans hv

theorem Store.Executions.exists_moved {l : Executions} {id : String} {next : Status} (h : l.Admits id next) (now : Int)
    (failure : Option Failure) : ∃ r ∈ (l.advance id next now failure).2, r.id = some id ∧ r.status = next.name := by
  have moved : (l.advance id next now failure).1 = true := advance_fst_iff.2 h
  obtain ⟨r, hr, hadmits⟩ := List.any_eq_true.1 moved
  exact ⟨_, mem_advance.2 ⟨r, hr, if_pos hadmits⟩, ((r.admits_iff next id).1 hadmits).1, rfl⟩

/-- A change of status tells whether the execution was in a status that allows it. -/
theorem MarkCall.answered_advance {c : MarkCall} {e : Entry} {moved : Bool} {now : Int} {failure : Option Failure}
    (hm : (e.before.records.advance c.id c.next now failure).1 = moved)
    (hr : moved = true → e.after.records = (e.before.records.advance c.id c.next now failure).2) :
    c.Answered e (.ok moved) := by
  cases moved with
  | false => exact .refused fun h => by rw [Executions.advance_fst_iff.2 h] at hm; cases hm
  | true =>
    have admits := Executions.advance_fst_iff.1 hm
    exact .moved admits (hr rfl ▸ Executions.exists_moved admits now failure)

theorem Pool.Reachable.mark_answered (h : Pool.Reachable RecordJob s) {pre post : List Entry} {k : Nat}
    {y : Reply interface} {before after : Database} {c : MarkCall} {result : Except EngineFault Bool}
    (hs : s.history = pre ++ ⟨k, y, before, after⟩ :: post) (hc : c.Ending y result) :
    c.Answered ⟨k, y, before, after⟩ result ∧ (result ≠ .ok true → before.Unchanged after) := by
  obtain ⟨s₀, h₀, -, hdb, hx⟩ := h.entry hs
  obtain ⟨hl, hts⟩ : before.executions = some before.records ∧ before.tokens = some before.waiting := by
    have tables := h₀.tables
    rw [hdb] at tables
    exact tables
  cases hc with
  | move now failure x =>
    have hx : Answers s₀.identifiers before (.statement (.advance c.id c.next now failure)) x after := hx
    refine ⟨?_, fun hne => hx.not_advanced fun hx => hne (congrArg _ hx)⟩
    rcases hx.advance with ⟨rfl, hr, -⟩ | ⟨⟨f, rfl⟩, -⟩
    · exact MarkCall.answered_advance rfl fun _ => hr
    · exact .failed f (Entry.not_executed ⟨_, congrArg Prod.fst (Store.Statement.execute_advance hl _ _ _ _)⟩)
  | suspend t ht hn now x =>
    have hx : Answers s₀.identifiers before (.statement (.suspend (.ofToken t) now)) x after := hx
    have new := h.token_new (fun _ hj => hj.writes) hs
    refine ⟨?_, fun hne => hx.not_suspended fun hx => hne (congrArg _ hx)⟩
    have hid : (TokenRow.ofToken t).executionId = c.id := ht
    rcases hx.suspend with ⟨rfl, hm, hr, -⟩ | ⟨rfl, hm, -⟩ | ⟨⟨f, rfl⟩, -⟩
    · rw [hid, ← hn] at hm hr
      exact MarkCall.answered_advance hm fun _ => hr
    · rw [hid, ← hn] at hm
      exact MarkCall.answered_advance hm nofun
    · refine .failed f (Entry.not_executed ?_)
      cases hm : (before.records.advance (TokenRow.ofToken t).executionId .suspended now none).1 with
      | false => exact ⟨_, congrArg Prod.fst (Store.Statement.execute_suspend_refused hl hm)⟩
      | true => exact ⟨_, congrArg Prod.fst (Store.Statement.execute_suspend hl hts hm new)⟩

/-- A call that is not told yes has changed nothing. -/
theorem Pool.Reachable.mark_unchanged {offered : Job Unit → Prop} (h : Pool.Reachable offered s) {pre mid post : List Entry}
    {k : Nat} (hs : s.history = pre ++ mid ++ post) {xs : List (Reply interface)} {y : Reply interface}
    (hreplies : repliesOf k mid = xs ++ [y]) (still : ∀ x ∈ xs, x.request.Still)
    (last : ∀ m₁ before after m₂, mid = m₁ ++ ⟨k, y, before, after⟩ :: m₂ → before.Unchanged after) :
    ∀ e ∈ mid, e.task = k → e.before.Unchanged e.after := by
  intro e he hk
  obtain ⟨m₁, m₂, rfl⟩ := List.append_of_mem he
  have hmem := mem_repliesOf he hk
  rw [hreplies, List.mem_append, List.mem_singleton] at hmem
  rcases hmem with hmem | hy
  · obtain ⟨s₀, -, -, -, hx⟩ := h.entry (eq_append_of_mid hs)
    exact hx.unchanged (still _ hmem)
  · obtain ⟨j, reply, before, after⟩ := e
    obtain rfl : j = k := hk
    obtain rfl : reply = y := hy
    exact last m₁ before after m₂ rfl

/-- Whatever is done to executions, by whomever and at whatever times: no two records have one identifier; the end is
marked in a record if and only if its status has it; in every step each record stays or makes one of the changes of status,
and new ones are pending; later every record is still there, with its identifier, its key, whether it runs only once and its
start, and as it was if it was over; and whoever marks an execution is told whether its status allowed it, and has changed
nothing unless it did. -/
theorem executions_move_forward (h : Pool.Reachable RecordJob s) :
    s.database.records.Distinct ∧ s.database.records.Marked ∧
      (∀ s', Pool.Step RecordJob s s' → s.database.records.Forward s'.database.records) ∧
      (∀ s', Relation.ReflTransGen (Pool.Step RecordJob) s s' → ∀ r ∈ s.database.records,
        ∃ r' ∈ s'.database.records, r.Keeps r' ∧ (r.Ended → r' = r)) ∧
      ∀ (c : MarkCall) (k : Nat) (pre mid post : List Entry) (result : Except EngineFault Bool),
        s.history = pre ++ mid ++ post → Leaves c.job.run (repliesOf k mid) (.done result) →
          (∃ e ∈ mid, e.task = k ∧ c.Ending e.reply result ∧ c.Answered e result) ∧
            (result ≠ .ok true → ∀ e ∈ mid, e.task = k → e.before.Unchanged e.after) := by
  refine ⟨(h.recorded_of_writes fun _ hj => hj.writes).distinct, h.marked, fun s' hs => (hs.forward h).1,
    fun s' hs r hr => ?_, fun c k pre mid post result hs hl => ?_⟩
  · obtain ⟨r', hr', ha⟩ := h.kept_later hs r hr
    exact ⟨r', hr', ExecutionRow.keeps_of_advances ha⟩
  · obtain ⟨xs, y, hreplies, still, hending⟩ := leaves_mark hl
    obtain ⟨m₁, before, after, m₂, rfl, hm₁, hm₂⟩ := entry_of_repliesOf hreplies
    obtain ⟨answered, -⟩ := h.mark_answered (eq_append_of_mid hs) hending
    refine ⟨⟨_, List.mem_append_right _ List.mem_cons_self, rfl, hending, answered⟩, fun hne => ?_⟩
    refine h.mark_unchanged hs hreplies still fun n₁ before' after' n₂ hn => ?_
    exact (h.mark_answered (eq_append_of_mid (hn ▸ hs)) hending).2 hne

/-- A dispatch that has suspended its execution. -/
theorem forward_of_suspended : ∃ s, Pool.Reachable RecordJob s ∧ s.database = Sample.suspended ∧
    s.database.records.Marked ∧
    ∀ s', Relation.ReflTransGen (Pool.Step RecordJob) s s' → ∀ r ∈ s.database.records,
      ∃ r' ∈ s'.database.records, r.Keeps r' ∧ (r.Ended → r' = r) := by
  obtain ⟨s, h, hdb⟩ := Sample.reachable_suspended
  have h : Pool.Reachable RecordJob s := h.mono fun _ hj => .operation hj
  obtain ⟨-, marked, -, later, -⟩ := executions_move_forward h
  exact ⟨s, h, hdb, marked, later⟩

end Lifecycle
