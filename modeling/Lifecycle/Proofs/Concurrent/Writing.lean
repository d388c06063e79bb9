import Lifecycle.Proofs.Concurrent.Pool
import Lifecycle.Proofs.Engine.Operations
import Lifecycle.Proofs.Engine.Walk

/-!
# What operations write

An operation writes a new record or a token only under the identifier that it has drawn last, and only once; a new
record is pending, and the times in both tables come from a clock. This is a protocol, and the operations of the engine
obey it.
-/

namespace Lifecycle

open Engine
open Time (Instant)
open Program (Only)

/-! ### The protocol -/

/-- The state is the identifier that was drawn last, unless it is used up. -/
inductive Writing.Turn : Option String → (r : Request) → r.Answer → Option String → Prop where
  | draw (d : Option String) (id : String) : Turn d .fresh id (some id)
  | record (r : Record) (hs : r.status = .pending) (hn : r.failedNodeId = none) (he : r.error = none)
      (hf : r.finishedAt = none) (x : Except Store.Fault Bool) :
      Turn (some r.id) (.statement (.insertExecution (.ofRecord r))) x none
  | token (t : Token) (now : Instant) (x : Except Store.Fault Bool) :
      Turn (some t.id) (.statement (.suspend (.ofToken t) now.floorMillis)) x none
  | advance (d : Option String) (id : String) (next : Status) (now : Instant) (failure : Option Store.Failure)
      (x : Except Store.Fault Bool) : Turn d (.statement (.advance id next now.floorMillis failure)) x d
  | other (d : Option String) {r : Request} (h : r.Unwriting) (x : r.Answer) : Turn d r x d

/-- Rows are written under identifiers of their own. -/
def writing : Protocol interface where
  State := Option String
  Possible := Possible
  Turn d r x _ _ d' := Writing.Turn d r x d'
  turn_bind _ h := h

/-- The job writes as the protocol says, whatever was drawn before. -/
def Writes {α : Type} (job : Job α) : Prop := ∀ d, job.Obeys writing d fun _ _ => True

namespace Writes

variable {α β : Type}

theorem done (a : α) : Writes (.done a : Job α) := fun _ => trivial

theorem bind {p : Job α} {f : α → Job β} (hp : Writes p) (hf : ∀ a, Writes (f a)) : Writes (p >>= f) :=
  fun d => (hp d).bind fun a d' _ => hf a d'

theorem attempt {ε : Type} {p : ExceptT ε Job α} {f : α → ExceptT ε Job β} (hp : Writes p.run)
    (hf : ∀ a, Writes (f a).run) : Writes (p >>= f).run :=
  fun d => (hp d).attempt (fun a d' _ => hf a d') fun _ _ _ => trivial

theorem ask {r : Request} {next : r.Answer → Job α} (h : r.Unwriting) (hn : ∀ x, Writes (next x)) :
    Writes (.ask r next) :=
  fun d x _ => ⟨d, .other d h x, hn x d⟩

theorem run {q : Store.Statement} (h : Request.Unwriting (.statement q)) : Writes (Engine.run q).run :=
  ask (r := .statement q) h fun _ => .done _

end Writes

/-! ### Records and tokens -/

theorem writes_start (workflowId : String) (target : Target) (type : TriggerType) (runOnce : Bool) :
    Writes (start workflowId target type runOnce).run := by
  refine Writes.ask (r := .now) trivial fun now d id _ => ⟨some id, .draw d id, fun x _ => ?_⟩
  refine ⟨none, .record ⟨id, workflowId, target, type, .pending, runOnce, none, none, now, none, now⟩ rfl rfl rfl rfl x, ?_⟩
  match x with
  | .error f => trivial
  | .ok true => trivial
  | .ok false =>
    exact Writes.attempt (.run (q := .owner _) trivial) (fun row => Writes.attempt (.done _) fun r => .done _) none

theorem writes_move (id : String) (next : Status) (failure : Option Store.Failure) :
    Writes (move id next failure).run :=
  Writes.ask (r := .now) trivial fun now d x _ => ⟨d, .advance d id next now failure x, trivial⟩

theorem writes_suspend (executionId nodeId : String) (resumeAt : Instant) (snapshot : Json) :
    Writes (suspend executionId nodeId resumeAt snapshot).run := by
  intro d id _
  refine ⟨some id, .draw d id, fun now _ => ⟨some id, .other (r := .now) _ trivial now, fun moved _ => ?_⟩⟩
  refine ⟨some id, .other (r := .now) _ trivial moved, fun x _ => ?_⟩
  refine ⟨none, .token ⟨id, executionId, nodeId, resumeAt, snapshot, now⟩ moved x, ?_⟩
  cases x <;> trivial

/-! ### Operations -/

theorem writes_parts : Parts fun _ p => Writes p where
  done := .done
  bind := .bind
  aside h := .ask h.unwriting fun _ => .done _
  statement h := .run h
  start := writes_start
  move id next failure _ := writes_move id next failure

theorem writes_walkFrom (workflow : Workflow) (record : Record) (step : Step) (context : Context) :
    Writes (walkFrom workflow record step context).run :=
  writes_parts.walkFrom (fun _ => .ask trivial fun _ => .done _) writes_suspend workflow record step context

theorem writes_runNew (workflow : Workflow) (record : Record) (context : Context) :
    Writes (runNew workflow record context).run :=
  writes_parts.runNew (C := fun _ => True) (fun _ _ _ _ _ => writes_walkFrom _ _ _ _) workflow record trivial

theorem writes_resume (token : Token) : Writes (resume token).run :=
  writes_parts.resume (C := fun _ => True) (fun _ _ _ _ _ => writes_walkFrom _ _ _ _) fun _ _ => trivial

theorem writes_launch (workflow : Workflow) (target : Target) (type : TriggerType) (runOnce : Bool) (context : Context) :
    Writes (launch workflow target type runOnce context).run :=
  writes_parts.launch (C := fun _ => True) (fun _ _ _ _ _ => writes_walkFrom _ _ _ _) workflow target type runOnce trivial

theorem writes_dispatch (e : Event) : Writes (dispatch e) :=
  writes_parts.dispatch (fun w target type once context _ => writes_launch w target type once context) e

theorem writes_scan (types : List TargetType) : Writes (scan types) :=
  writes_parts.scan (fun w target type once context _ => writes_launch w target type once context) types

theorem writes_sweep (batch : Nat) : Writes (sweep batch).run := writes_parts.sweep writes_walkFrom batch

end Lifecycle
