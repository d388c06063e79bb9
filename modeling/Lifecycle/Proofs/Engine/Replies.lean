import Lifecycle.Engine.Walk
import Lifecycle.Proofs.Program.Replies
import Lifecycle.Proofs.Store.Rows

/-!
# What jobs were answered

A job that has ended without a fault was answered in a certain way: these lemmas read the answers off the end of the
jobs on records.
-/

namespace Lifecycle

open Engine
open Program (Leaves)
open Store (ExecutionRow)
open Time (Instant)

section Attempts

variable {P : Interface} {ε α β : Type}

/-- Of one attempt after another that end well each ends well. -/
theorem Program.Leaves.attempt_ok {p : ExceptT ε (Program P) α} {f : α → ExceptT ε (Program P) β}
    {xs : List (Reply P)} {b : β} (h : Leaves (p >>= f).run xs (.done (.ok b))) :
    ∃ a ys zs, xs = ys ++ zs ∧ Leaves p.run ys (.done (.ok a)) ∧ Leaves (f a).run zs (.done (.ok b)) := by
  rw [ExceptT.run_bind] at h
  obtain ⟨a, ys, zs, rfl, hp, hf⟩ := h.bind_done_inv
  cases a with
  | error e => cases hf
  | ok a => exact ⟨a, ys, zs, rfl, hp, hf⟩

end Attempts

variable {xs : List (Reply interface)}

theorem leaves_statement {q : Store.Statement} {result : Except EngineFault q.Value}
    (h : Leaves (Engine.run q).run xs (.done result)) :
    ∃ x : Except Store.Fault q.Value, xs = [⟨.statement q, x⟩] ∧ result = x.mapError .database := by
  obtain ⟨x, ys, rfl, hend⟩ := Leaves.ask_done_inv (P := interface) (r := .statement q) h
  obtain ⟨rfl, rfl⟩ := Leaves.done_inv (P := interface) hend
  exact ⟨x, rfl, rfl⟩

theorem leaves_run {q : Store.Statement} {v : q.Value} (h : Leaves (Engine.run q).run xs (.done (.ok v))) :
    xs = [⟨.statement q, .ok v⟩] := by
  obtain ⟨x, rfl, hx⟩ := leaves_statement h
  cases x with
  | error f => cases hx
  | ok w =>
    cases hx
    rfl

theorem leaves_readRow {α : Type} {row : Except Store.RowFault α} {a : α}
    (h : Leaves (readRow row).run xs (.done (.ok a))) : xs = [] ∧ row = .ok a := by
  obtain ⟨rfl, ha⟩ := Leaves.done_inv (P := interface) h
  cases row with
  | error f => cases ha
  | ok b =>
    cases ha
    exact ⟨rfl, rfl⟩

theorem leaves_move {id : String} {next : Status} {failure : Option Store.Failure} {moved : Bool}
    (h : Leaves (move id next failure).run xs (.done (.ok moved))) :
    ∃ now : Instant, xs = [⟨.now, now⟩, ⟨.statement (.advance id next now.floorMillis failure), .ok moved⟩] := by
  obtain ⟨now, ys, rfl, hend⟩ := Leaves.ask_done_inv (P := interface) (r := .now) h
  exact ⟨now, congrArg _ (leaves_run hend)⟩

/-- A suspension is answered with its identifier and two times, and at last by the statement. -/
theorem leaves_suspend {executionId nodeId : String} {resumeAt : Instant} {snapshot : Json}
    {result : Except EngineFault (Option Token)}
    (h : Leaves (suspend executionId nodeId resumeAt snapshot).run xs (.done result)) :
    ∃ (id : String) (created moved : Instant) (x : Except Store.Fault Bool),
      xs = [⟨.fresh, id⟩, ⟨.now, created⟩, ⟨.now, moved⟩, ⟨.statement (.suspend
        (.ofToken ⟨id, executionId, nodeId, resumeAt, snapshot, created⟩) moved.floorMillis), x⟩] ∧
      result = (x.mapError .database).map fun done =>
        if done then some ⟨id, executionId, nodeId, resumeAt, snapshot, created⟩ else none := by
  obtain ⟨id, ys, rfl, h₁⟩ := Leaves.ask_done_inv (P := interface) (r := .fresh) h
  obtain ⟨created, ys, rfl, h₂⟩ := Leaves.ask_done_inv (P := interface) (r := .now) h₁
  obtain ⟨moved, ys, rfl, h₃⟩ := Leaves.ask_done_inv (P := interface) (r := .now) h₂
  obtain ⟨x, ys, rfl, h₄⟩ := Leaves.ask_done_inv (P := interface) (r := .statement (.suspend _ _)) h₃
  cases x with
  | error f =>
    obtain ⟨rfl, rfl⟩ := Leaves.done_inv (P := interface) h₄
    exact ⟨id, created, moved, .error f, rfl, rfl⟩
  | ok done =>
    obtain ⟨rfl, rfl⟩ := Leaves.done_inv (P := interface) h₄
    exact ⟨id, created, moved, .ok done, rfl, rfl⟩

theorem leaves_getRecord {id : String} {found : Option Record}
    (h : Leaves (getRecord id).run xs (.done (.ok found))) :
    ∃ row : Option ExecutionRow, xs = [⟨.statement (.execution id), .ok row⟩] ∧
      (row = none ∧ found = none ∨ ∃ r record, row = some r ∧ r.record = .ok record ∧ found = some record) := by
  obtain ⟨row, ys, zs, rfl, hrow, hrest⟩ := h.attempt_ok
  obtain rfl := leaves_run hrow
  cases row with
  | none =>
    obtain ⟨rfl, hf⟩ := Leaves.done_inv (P := interface) hrest
    cases hf
    exact ⟨none, rfl, .inl ⟨rfl, rfl⟩⟩
  | some r =>
    obtain ⟨record, ys, zs, rfl, hr, hend⟩ := hrest.attempt_ok
    obtain ⟨rfl, hrecord⟩ := leaves_readRow hr
    obtain ⟨rfl, hf⟩ := Leaves.done_inv (P := interface) hend
    cases hf
    exact ⟨some r, rfl, .inr ⟨r, record, rfl, hrecord, rfl⟩⟩

theorem leaves_failAt {record : Record} {nodeId message : String} {result : Result}
    (h : Leaves (failAt record nodeId message).run xs (.done (.ok result))) :
    ∃ (now : Instant) (moved : Bool), xs = [⟨.now, now⟩,
      ⟨.statement (.advance record.id .failed now.floorMillis (some ⟨nodeId, message⟩)), .ok moved⟩] := by
  obtain ⟨moved, ys, zs, rfl, hm, hend⟩ := h.attempt_ok
  obtain ⟨now, rfl⟩ := leaves_move hm
  obtain ⟨rfl, -⟩ := Leaves.done_inv (P := interface) hend
  exact ⟨now, moved, rfl⟩

/-! ### Starting -/

/-- The arguments of a call of `start`. -/
structure StartCall where
  workflowId : String
  target : Target
  type : TriggerType
  runOnce : Bool

namespace StartCall

/-- The key under which the execution is put on record. -/
def key (c : StartCall) : Store.Key := ⟨c.workflowId, c.target.type.name, c.target.id, c.type.name⟩

def job (c : StartCall) : Attempt Start := start c.workflowId c.target c.type c.runOnce

/-- The record of a new execution. -/
def record (c : StartCall) (id : String) (now : Instant) : Record :=
  ⟨id, c.workflowId, c.target, c.type, .pending, c.runOnce, none, none, now, none, now⟩

/-- What a call is answered from its insertion on, and its result: the new record, or the one that is there. -/
inductive Ending (c : StartCall) (new : Record) : List (Reply interface) → Except EngineFault Start → Prop where
  | failed (f : Store.Fault) :
      Ending c new [⟨.statement (.insertExecution (.ofRecord new)), .error f⟩] (.error (.database f))
  | won : Ending c new [⟨.statement (.insertExecution (.ofRecord new)), .ok true⟩] (.ok ⟨new, true⟩)
  | unanswered (f : Store.Fault) :
      Ending c new [⟨.statement (.insertExecution (.ofRecord new)), .ok false⟩, ⟨.statement (.owner c.key), .error f⟩]
        (.error (.database f))
  | lost (row : ExecutionRow) (r : Record) (h : row.record = .ok r) :
      Ending c new [⟨.statement (.insertExecution (.ofRecord new)), .ok false⟩, ⟨.statement (.owner c.key), .ok row⟩]
        (.ok ⟨r, false⟩)
  | corrupt (row : ExecutionRow) (e : Store.RowFault) (h : row.record = .error e) (f : EngineFault) :
      Ending c new [⟨.statement (.insertExecution (.ofRecord new)), .ok false⟩, ⟨.statement (.owner c.key), .ok row⟩]
        (.error f)

end StartCall

theorem leaves_start {c : StartCall} {result : Except EngineFault Start} (h : Leaves c.job.run xs (.done result)) :
    ∃ (now : Instant) (id : String) (ys : List (Reply interface)),
      xs = ⟨.now, now⟩ :: ⟨.fresh, id⟩ :: ys ∧ c.Ending (c.record id now) ys result := by
  obtain ⟨now, ys, rfl, h₁⟩ := Leaves.ask_done_inv (P := interface) (r := .now) h
  obtain ⟨id, ys, rfl, h₂⟩ := Leaves.ask_done_inv (P := interface) (r := .fresh) h₁
  obtain ⟨x, ys, rfl, h₃⟩ := Leaves.ask_done_inv (P := interface) (r := .statement (.insertExecution _)) h₂
  refine ⟨now, id, _, rfl, ?_⟩
  match x with
  | .error f =>
    obtain ⟨rfl, rfl⟩ := Leaves.done_inv (P := interface) h₃
    exact .failed f
  | .ok true =>
    obtain ⟨rfl, rfl⟩ := Leaves.done_inv (P := interface) h₃
    exact .won
  | .ok false =>
    obtain ⟨y, zs, rfl, h₄⟩ := Leaves.ask_done_inv (P := interface) (r := .statement (.owner c.key)) h₃
    match y with
    | .error f =>
      obtain ⟨rfl, rfl⟩ := Leaves.done_inv (P := interface) h₄
      exact .unanswered f
    | .ok row =>
      have h₅ : Leaves (ExceptT.run (readRow row.record >>= fun r => pure (⟨r, false⟩ : Start))) zs (.done result) := h₄
      cases hr : row.record with
      | ok r =>
        rw [hr] at h₅
        obtain ⟨rfl, rfl⟩ := Leaves.done_inv (P := interface) h₅
        exact .lost row r hr
      | error e =>
        rw [hr] at h₅
        obtain ⟨rfl, rfl⟩ := Leaves.done_inv (P := interface) h₅
        exact .corrupt row e hr _

end Lifecycle
