import Lifecycle.Proofs.Engine.Operations
import Lifecycle.Proofs.Engine.Replies

/-!
# What runs and resumptions tell

A run or a resumption that ends without a fault has made at most one update that ends its walk, and tells what that update
stands for; or it tells that it was skipped. There is one exception: a failure is told although the update that was to
record it has been refused.
-/

namespace Lifecycle

open Engine
open Program (Leaves Only)
open Time (Instant)

/-! ### Updates -/

/-- The update of the execution `id` that a result stands for, and whether it has taken effect. -/
inductive Reply.Marks (id : String) : Reply interface → Result → Bool → Prop where
  | completed (now : Int) (done : Bool) :
      Marks id ⟨.statement (.advance id .completed now none), .ok done⟩ .completed done
  | failed (now : Int) (nodeId message : String) (done : Bool) :
      Marks id ⟨.statement (.advance id .failed now (some ⟨nodeId, message⟩)), .ok done⟩ (.failed nodeId message) done
  | suspended (t : Token) (ht : t.executionId = id) (now : Int) (done : Bool) :
      Marks id ⟨.statement (.suspend (.ofToken t) now), .ok done⟩ (.suspended t.resumeAt) done

/-- An update of the execution `id` was refused. -/
def Reply.Refused (id : String) : Reply interface → Prop
  | ⟨.statement (.advance e _ _ _), .ok false⟩ => e = id
  | ⟨.statement (.suspend row _), .ok false⟩ => row.executionId = id
  | _ => False

/-- The execution `id` was to be failed, and that was refused. -/
def Reply.FailsInVain (id : String) : Reply interface → Prop
  | ⟨.statement (.advance e .failed _ _), .ok false⟩ => e = id
  | _ => False

/-- No update that ends a walk has taken effect, and none was refused. -/
def Reply.Neutral (id : String) (y : Reply interface) : Prop := (∀ r, ¬ y.Marks id r true) ∧ ¬ y.Refused id

section Updates

variable {id : String} {y : Reply interface}

theorem Reply.FailsInVain.refused (h : y.FailsInVain id) : y.Refused id := by
  unfold FailsInVain at h
  split at h
  · exact h
  · exact h.elim

theorem Reply.Marks.not_refused {r : Result} (h : y.Marks id r true) : ¬ y.Refused id := by
  cases h <;> exact fun h => h

theorem Engine.Request.Unwriting.neutral {r : Request} (h : r.Unwriting) (x : r.Answer) : Reply.Neutral id ⟨r, x⟩ := by
  cases r with
  | statement q => cases q <;> first | exact h.elim | exact ⟨fun r hr => (by cases hr), fun h => h⟩
  | fresh => exact h.elim
  | _ => exact ⟨fun r hr => (by cases hr), fun h => h⟩

theorem Reply.neutral_fresh (id new : String) : Reply.Neutral id ⟨.fresh, new⟩ :=
  ⟨fun r hr => (by cases hr), fun h => h⟩

theorem Reply.neutral_now (id : String) (now : Instant) : Reply.Neutral id ⟨.now, now⟩ :=
  Request.Unwriting.neutral (r := .now) trivial now

theorem Reply.neutral_error (id : String) (q : Store.Statement) (f : Store.Fault) :
    Reply.Neutral id ⟨.statement q, .error f⟩ := by
  refine ⟨fun r hr => ?_, fun h => ?_⟩
  · cases hr
  · cases q <;> exact h

end Updates

/-! ### What is told -/

/-- The replies that a call was given for the execution `id`, and what it tells. -/
structure Told (id : String) (ys : List (Reply interface)) (result : Result) : Prop where
  wrote : result ≠ .skipped → (∃ y ∈ ys, y.Marks id result true) ∨ ∃ y ∈ ys, y.FailsInVain id
  applied : ∀ y ∈ ys, ∀ r, y.Marks id r true → y.Marks id result true
  refused : ∀ y ∈ ys, y.Refused id → result = .skipped ∨ y.FailsInVain id
  vain : ∀ y ∈ ys, y.FailsInVain id → ∃ nodeId message, result = .failed nodeId message

namespace Told

variable {id : String} {xs ys : List (Reply interface)} {y : Reply interface} {result : Result}

theorem append (h : Told id ys result) (hx : ∀ x ∈ xs, x.Neutral id) : Told id (xs ++ ys) result := by
  refine ⟨fun hne => ?_, fun y hy r hr => ?_, fun y hy hr => ?_, fun y hy hv => ?_⟩
  · exact (h.wrote hne).imp (fun ⟨y, hy, hm⟩ => ⟨y, List.mem_append_right _ hy, hm⟩)
      fun ⟨y, hy, hv⟩ => ⟨y, List.mem_append_right _ hy, hv⟩
  · rcases List.mem_append.1 hy with hy | hy
    · exact absurd hr ((hx y hy).1 r)
    · exact h.applied y hy r hr
  · rcases List.mem_append.1 hy with hy | hy
    · exact absurd hr (hx y hy).2
    · exact h.refused y hy hr
  · rcases List.mem_append.1 hy with hy | hy
    · exact absurd hv.refused (hx y hy).2
    · exact h.vain y hy hv

theorem neutral (h : ∀ y ∈ ys, y.Neutral id) : Told id ys .skipped :=
  ⟨fun hne => absurd rfl hne, fun y hy r hr => absurd hr ((h y hy).1 r), fun _ _ _ => .inl rfl,
    fun y hy hv => absurd hv.refused (h y hy).2⟩

theorem single (wrote : result ≠ .skipped → y.Marks id result true ∨ y.FailsInVain id)
    (applied : ∀ r, y.Marks id r true → y.Marks id result true)
    (refused : y.Refused id → result = .skipped ∨ y.FailsInVain id)
    (vain : y.FailsInVain id → ∃ nodeId message, result = .failed nodeId message) : Told id [y] result where
  wrote hne := (wrote hne).imp (fun h => ⟨y, List.mem_singleton_self y, h⟩) fun h => ⟨y, List.mem_singleton_self y, h⟩
  applied z hz := by
    rw [List.mem_singleton.1 hz]
    exact applied
  refused z hz := by
    rw [List.mem_singleton.1 hz]
    exact refused
  vain z hz := by
    rw [List.mem_singleton.1 hz]
    exact vain

theorem of_applied (h : y.Marks id result true) : Told id [y] result :=
  single (fun _ => .inl h) (fun _ _ => h) (fun hr => absurd hr h.not_refused) fun hv => absurd hv.refused h.not_refused

theorem of_refused (h : y.Refused id) (hv : ¬ y.FailsInVain id) : Told id [y] .skipped :=
  single (fun hne => absurd rfl hne) (fun _ hr => absurd h hr.not_refused) (fun _ => .inl rfl) fun hv' => absurd hv' hv

theorem of_vain (h : y.FailsInVain id) (nodeId message : String) : Told id [y] (.failed nodeId message) :=
  single (fun _ => .inr h) (fun _ hr => absurd h.refused hr.not_refused) (fun _ => .inr h) fun _ => ⟨nodeId, message, rfl⟩

end Told

/-! ### Walks -/

section Walks

variable {ys : List (Reply interface)} {result : Result} {record : Record}

/-- A change of status, and what is told of it. -/
theorem told_move {id : String} {next : Status} {failure : Option Store.Failure} {f : Bool → Result}
    (h : Leaves (move id next failure >>= fun moved => pure (f moved)).run ys (.done (.ok result)))
    (last : ∀ now moved, Told id [⟨.statement (.advance id next now failure), .ok moved⟩] (f moved)) :
    Told id ys result := by
  obtain ⟨moved, us, vs, rfl, hm, hend⟩ := h.attempt_ok
  obtain ⟨now, rfl⟩ := leaves_move hm
  obtain ⟨rfl, hr⟩ := Leaves.done_inv (P := interface) hend
  cases hr
  exact (last _ moved).append (List.forall_mem_singleton.2 (Reply.neutral_now _ now))

theorem told_finish (h : Leaves (finish record).run ys (.done (.ok result))) : Told record.id ys result := by
  refine told_move h fun now moved => ?_
  cases moved with
  | false => exact .of_refused rfl id
  | true => exact .of_applied (.completed now true)

theorem told_failAt {nodeId message : String} (h : Leaves (failAt record nodeId message).run ys (.done (.ok result))) :
    Told record.id ys result := by
  refine told_move (f := fun _ => .failed nodeId message) h fun now moved => ?_
  cases moved with
  | false =>
    have vain : Reply.FailsInVain record.id
      ⟨.statement (.advance record.id .failed now (some ⟨nodeId, message⟩)), .ok false⟩ := rfl
    exact .of_vain vain nodeId message
  | true => exact .of_applied (.failed now nodeId message true)

theorem told_suspendAt {delay next : Step} {deadline : Instant} {context : Context}
    (h : Leaves (suspendAt record delay next deadline context).run ys (.done (.ok result))) : Told record.id ys result := by
  obtain ⟨settled, us, vs, rfl, hs, hend⟩ := h.attempt_ok
  obtain ⟨done, us, ws, rfl, hs, hd⟩ := Leaves.bind_done_inv (P := interface) hs
  obtain ⟨rfl, hd⟩ := Leaves.done_inv (P := interface) hd
  cases hd
  obtain ⟨id, created, moved, x, rfl, rfl⟩ := leaves_suspend hs
  let token : Token := ⟨id, record.id, next.id, deadline, context.toJson, created⟩
  have start : ∀ y ∈ ([⟨.fresh, id⟩, ⟨.now, created⟩, ⟨.now, moved⟩] : List (Reply interface)),
      y.Neutral record.id := by
    simp only [List.forall_mem_cons]
    exact ⟨Reply.neutral_fresh _ id, Reply.neutral_now _ created, Reply.neutral_now _ moved, by simp⟩
  match x with
  | .error f =>
    have last : Told record.id vs result := told_failAt hend
    have failed := Reply.neutral_error record.id (.suspend (.ofToken token) moved.floorMillis) f
    have whole := (last.append (List.forall_mem_singleton.2 failed)).append start
    exact whole
  | .ok true =>
    obtain ⟨rfl, hr⟩ := Leaves.done_inv (P := interface) hend
    cases hr
    have last : Told record.id [⟨.statement (.suspend (.ofToken token) moved.floorMillis), .ok true⟩]
        (.suspended deadline) := .of_applied (.suspended token rfl _ true)
    exact last.append start
  | .ok false =>
    obtain ⟨rfl, hr⟩ := Leaves.done_inv (P := interface) hend
    cases hr
    have last : Told record.id [⟨.statement (.suspend (.ofToken token) moved.floorMillis), .ok false⟩] .skipped :=
      .of_refused rfl fun h => h
    exact last.append start

theorem told_walkFrom {workflow : Workflow} {step : Step} {context : Context}
    (h : Leaves (walkFrom workflow record step context).run ys (.done (.ok result))) : Told record.id ys result := by
  induction step using workflow.graph.induction_down generalizing context ys with
  | h step ih =>
    rw [walkFrom_eq] at h
    obtain ⟨now, us, rfl, h₁⟩ := Leaves.ask_done_inv (P := interface) (r := .now) h
    obtain ⟨answer, us, rfl, h₂⟩ := Leaves.ask_done_inv (P := interface) (r := .visit _) h₁
    have rest : Told record.id us result := by
      cases answer with
      | error f => exact told_failAt h₂
      | ok outcome =>
        have h₂ : Leaves (walkOn workflow record step (context.enter step.id now) (.ok outcome)).run us
            (.done (.ok result)) := h₂
        unfold walkOn at h₂
        dsimp only at h₂
        split at h₂
        · exact told_finish h₂
        · exact told_suspendAt h₂
        · exact ih _ _ ‹_› h₂
    have start : ∀ x ∈ ([⟨.now, now⟩, ⟨.visit _, answer⟩] : List (Reply interface)), x.Neutral record.id :=
      List.forall_mem_cons.2 ⟨Reply.neutral_now _ now,
        List.forall_mem_singleton.2 (Request.Unwriting.neutral (r := .visit _) trivial answer)⟩
    exact rest.append start

/-! ### Calls -/

theorem told_started {id : String} {f : Bool → Attempt Result}
    (h : Leaves (moveTo .running id >>= f).run ys (.done (.ok result)))
    (moved : ∀ zs, Leaves (f true).run zs (.done (.ok result)) → Told id zs result) (other : f false = pure .skipped) :
    Told id ys result := by
  obtain ⟨done, us, vs, rfl, hm, hend⟩ := h.attempt_ok
  obtain ⟨now, rfl⟩ := leaves_move hm
  have start := List.forall_mem_singleton.2 (Reply.neutral_now id now)
  cases done with
  | false =>
    rw [other] at hend
    obtain ⟨rfl, hr⟩ := Leaves.done_inv (P := interface) hend
    cases hr
    have last : Told id [⟨.statement (.advance id .running now.floorMillis none), .ok false⟩] .skipped :=
      .of_refused rfl fun h => h
    exact last.append start
  | true =>
    have started : Reply.Neutral id ⟨.statement (.advance id .running now.floorMillis none), .ok true⟩ :=
      ⟨fun r hr => (by cases hr), fun h => h⟩
    exact ((moved vs hend).append (List.forall_mem_singleton.2 started)).append start

theorem told_runNew {workflow : Workflow} {context : Context}
    (h : Leaves (runNew workflow record context).run ys (.done (.ok result))) : Told record.id ys result :=
  told_started h (fun _ => told_walkFrom) rfl

/-- A resumption tells of the execution of its token, if that is the one that it has read. -/
theorem told_resume {token : Token} (h : Leaves (resume token).run ys (.done (.ok result)))
    (read : ∀ row : Store.ExecutionRow, ⟨.statement (.execution token.executionId), .ok (some row)⟩ ∈ ys →
      row.id = some token.executionId) : Told token.executionId ys result := by
  obtain ⟨found, us, vs, rfl, hf, hrest⟩ := h.attempt_ok
  obtain ⟨row, rfl, hrow⟩ := leaves_getRecord hf
  have asked : Reply.Neutral token.executionId ⟨.statement (.execution token.executionId), .ok row⟩ :=
    Request.Unwriting.neutral (r := .statement (.execution _)) trivial (.ok row)
  refine Told.append ?_ (List.forall_mem_singleton.2 asked)
  rcases hrow with ⟨-, rfl⟩ | ⟨r, record, rfl, hr, rfl⟩
  · obtain ⟨rfl, he⟩ := Leaves.done_inv (P := interface) hrest
    cases he
    exact .neutral (List.forall_mem_nil _)
  · have hid : record.id = token.executionId :=
      Option.some.inj ((Store.ExecutionRow.record_ok hr).1.symm.trans (read r (List.mem_append_left _ List.mem_cons_self)))
    dsimp only at hrest
    split at hrest
    · obtain ⟨rfl, he⟩ := Leaves.done_inv (P := interface) hrest
      cases he
      exact .neutral (List.forall_mem_nil _)
    · have hrest : Leaves (ExceptT.run (ExceptT.lift (resumption record token) >>= _)) vs (.done (.ok result)) := hrest
      rw [ExceptT.run_bind_lift] at hrest
      obtain ⟨prepared, us, ws, rfl, hp, hend⟩ := hrest.bind_done_inv
      have aside := hp.only (only_resumption record token)
      refine Told.append ?_ fun y hy => (aside y hy).unwriting.neutral y.answer
      rw [← hid]
      match prepared with
      | .error e => exact told_failAt hend
      | .ok (w, step, context) => exact told_started hend (fun _ => told_walkFrom) rfl

end Walks

end Lifecycle
