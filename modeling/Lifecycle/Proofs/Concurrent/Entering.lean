import Lifecycle.Proofs.Concurrent.Outcomes
import Lifecycle.Proofs.Engine.Course
import Lifecycle.Proofs.Host.Frame
import Lifecycle.Proofs.Host.Registry
import Lifecycle.Proofs.Sequential.Transparency

/-!
# Who enters a workflow

A run asks for its execution to be moved to running, which is how a resumption claims its execution too. It is let in where
the execution is pending or suspended, and then begins at the trigger; otherwise it leaves everything as it is. So an
execution is entered while it is pending once at most, and again whenever a run finds it suspended.
-/

namespace Lifecycle

open Engine
open Program (Leaves)
open Store (Database Executions)

/-! ### The replies to a run -/

/-- The time is asked for, or the execution `id` is to be moved to running. -/
def Engine.Request.Knocks (id : String) : Request → Prop
  | .now => True
  | .statement (.advance e .running _ none) => e = id
  | _ => False

theorem Engine.Request.Knocks.inv {r : Request} {id : String} (h : r.Knocks id) :
    r = .now ∨ ∃ now, r = .statement (.advance id .running now none) := by
  unfold Knocks at h
  split at h
  · exact .inl rfl
  · exact .inr ⟨_, by rw [h]⟩
  · exact h.elim

section Replies

variable {w : Workflow} {record : Record} {context : Context} {ys : List (Reply interface)}
  {rest : Job (Except EngineFault Result)}

/-- A run walks from the trigger once its execution was moved to running, and has done nothing before. -/
theorem leaves_runNew (h : Leaves (runNew w record context).run ys rest) :
    (∃ now zs, ys = ⟨.now, now⟩ :: ⟨.statement (.advance record.id .running now.floorMillis none), .ok true⟩ :: zs ∧
      Leaves (walkFrom w record w.graph.entry context).run zs rest) ∨
    (∀ y ∈ ys, y.request.Knocks record.id ∧ ¬ y.Starts record.id) ∧
      ∀ result, rest = .done (.ok result) → result = .skipped := by
  have asked (now : Time.Instant) : Request.Knocks record.id .now ∧ ¬ Reply.Starts record.id ⟨.now, now⟩ := ⟨trivial, id⟩
  unfold runNew at h
  cases h with
  | here => exact .inr ⟨List.forall_mem_nil _, fun result => nofun⟩
  | @ask _ _ now _ _ h =>
    cases h with
    | here => exact .inr ⟨List.forall_mem_singleton.2 (asked now), fun result => nofun⟩
    | @ask _ _ x zs _ h =>
      match x with
      | .ok true => exact .inl ⟨now, zs, rfl, h⟩
      | .ok false =>
        cases h
        refine .inr ⟨List.forall_mem_cons.2 ⟨asked now, List.forall_mem_singleton.2 ⟨rfl, id⟩⟩, ?_⟩
        rintro result ⟨⟩
        rfl
      | .error f =>
        cases h
        exact .inr ⟨List.forall_mem_cons.2 ⟨asked now, List.forall_mem_singleton.2 ⟨rfl, id⟩⟩, fun result => nofun⟩

end Replies

/-! ### Entries -/

/-- The execution `id` is on record with a status when the entry is made. -/
def Entry.Finds (e : Entry) (id : String) (status : Status) : Prop := e.before.records.status id = some status.name

/-- During `mid` the task `k` has moved the execution `id` to running. -/
def LetIn (k : Nat) (mid : List Entry) (id : String) : Prop := ∃ e ∈ mid, e.task = k ∧ e.reply.Starts id

section Answered

variable {ids : List String} {before after : Database} {id : String} {now : Int} {failure : Option Store.Failure}

theorem Answers.running_iff {moved : Bool} (hd : before.records.Distinct)
    (h : Answers ids before (.statement (.advance id .running now failure)) (.ok moved) after) :
    moved = true ↔ before.records.status id = some Status.pending.name ∨
      before.records.status id = some Status.suspended.name := by
  rcases h.advance with ⟨hm, -, -⟩ | ⟨⟨f, hf⟩, -⟩
  · rw [Except.ok.inj hm, Executions.advance_fst id .running now failure hd, Option.any_eq_true]
    constructor
    · rintro ⟨name, hname, hfollows⟩
      obtain ⟨prior, hp, rfl⟩ := Status.follows_iff.1 hfollows
      cases hp with
      | pending_running => exact .inl hname
      | suspended_running => exact .inr hname
    · rintro (h | h)
      · exact ⟨_, h, Status.follows_iff.2 ⟨_, .pending_running, rfl⟩⟩
      · exact ⟨_, h, Status.follows_iff.2 ⟨_, .suspended_running, rfl⟩⟩
  · cases hf

/-- Who is not let in leaves the database as it is. -/
theorem Answers.after_of_knocks {y : Reply interface} (hl : before.executions = some before.records)
    (h : Answers ids before y.request y.answer after) (hy : y.request.Knocks id) (hn : ¬ y.Starts id) : after = before := by
  obtain ⟨r, x⟩ := y
  rcases hy.inv with rfl | ⟨now, rfl⟩
  · exact h
  · rcases h with h | ⟨-, rfl⟩
    · rw [Store.Statement.execute_advance hl] at h
      obtain ⟨rfl, rfl⟩ := Prod.mk.inj h
      have refused : (before.records.advance id .running now none).1 = false := by
        refine Bool.eq_false_iff.2 fun hm => hn ?_
        rw [hm]
        rfl
      rw [Executions.advance_snd_of_not refused, ← hl]
    · rfl

end Answered

/-! ### Runs -/

/-- What the task `k` has done during `mid` as a run of the execution `id`, which has `rest` left to do. -/
structure Entrance (w : Workflow) (id : String) (k : Nat) (mid : List Entry) (rest : Job (Except EngineFault Result)) :
    Prop where
  /-- The execution is moved to running if and only if it is pending or suspended. -/
  answered : ∀ e ∈ mid, e.task = k → ∀ now moved, e.reply = ⟨.statement (.advance id .running now none), .ok moved⟩ →
    (moved = true ↔ e.Finds id .pending ∨ e.Finds id .suspended)
  /-- A run that is let in visits the trigger first, and does not end well before. -/
  inside : LetIn k mid id → (∀ a ∈ (stopsOf (repliesOf k mid)).head?, a.1.step = w.graph.entry) ∧
    ∀ result, rest = .done (.ok result) → stopsOf (repliesOf k mid) ≠ []
  /-- A run that is not let in asks for nothing else, changes nothing, and tells that it was skipped. -/
  outside : ¬ LetIn k mid id → (∀ e ∈ mid, e.task = k → e.reply.request.Knocks id ∧ e.after = e.before) ∧
    ∀ result, rest = .done (.ok result) → result = .skipped

variable {s : Pool} {pre mid post : List Entry} {k : Nat}

/-- Whoever moves an execution to running after it was moved to running before finds it suspended. -/
theorem Pool.Reachable.started_again (h : Pool.Reachable WalkJob s) (id : String) :
    s.history.Pairwise fun a b => a.reply.Starts id → b.reply.Starts id → b.Finds id .suspended := by
  refine pairwise_of_splits fun pre b post hs a ha hfirst hagain => ?_
  obtain ⟨s₀, h₀, hpre, hdb, hx⟩ := h.entry hs
  have recorded := h₀.recorded_of_writes fun _ hj => hj.writes
  obtain ⟨now, failure, hreply⟩ := hagain.inv
  rw [hreply] at hx
  refine ((Answers.running_iff (hdb ▸ recorded.distinct) hx).1 rfl).resolve_left fun hpending => ?_
  obtain ⟨r, hr, hid, hstatus⟩ := Executions.mem_of_status hpending
  exact (recorded.started a (hpre ▸ ha) id hfirst).2 r (hdb ▸ hr) hid hstatus

/-- Whoever else does what to the execution: a run is let in if it finds it pending or suspended, and begins at the trigger;
any other run changes nothing and tells that it was skipped. Of all that are let in only the first one may find the
execution pending, the others find it suspended. -/
theorem entered_anew_only_while_suspended (h : Pool.Reachable WalkJob s) (w : Workflow) (record : Record) (context : Context)
    (hs : s.history = pre ++ mid ++ post) {rest : Job (Except EngineFault Result)}
    (hl : Leaves (runNew w record context).run (repliesOf k mid) rest) :
    Entrance w record.id k mid rest ∧
      s.history.Pairwise fun a b => a.reply.Starts record.id → b.reply.Starts record.id → b.Finds record.id .suspended := by
  refine ⟨⟨fun e he hk now moved hreply => ?_, fun ⟨e, he, hk, hstarts⟩ => ?_, fun hout => ?_⟩, h.started_again record.id⟩
  · obtain ⟨s₀, h₀, hdb, hx⟩ := h.entry_of_mem hs he
    rw [hreply] at hx
    exact Answers.running_iff (hdb ▸ (h₀.recorded_of_writes fun _ hj => hj.writes).distinct) hx
  · rcases leaves_runNew hl with ⟨now, zs, heq, walk⟩ | ⟨knocks, -⟩
    · have trail := trail_walkFrom walk
      have stops : stopsOf (repliesOf k mid) = stopsOf zs := by
        rw [heq]
        rfl
      rw [stops]
      refine ⟨trail.starts, fun result hrest hnone => ?_⟩
      obtain ⟨a, hlast, -⟩ := trail.ends _ hrest
      rw [hnone] at hlast
      cases hlast
    · exact absurd hstarts (knocks _ (mem_repliesOf he hk)).2
  · rcases leaves_runNew hl with ⟨now, zs, heq, -⟩ | ⟨knocks, skipped⟩
    · have hmem : _ ∈ repliesOf k mid := heq ▸ List.mem_cons_of_mem _ List.mem_cons_self
      obtain ⟨e, he, hk, hreply⟩ := exists_of_mem_repliesOf hmem
      exact absurd ⟨e, he, hk, by rw [hreply]; rfl⟩ hout
    · refine ⟨fun e he hk => ?_, skipped⟩
      obtain ⟨hknocks, hnot⟩ := knocks _ (mem_repliesOf he hk)
      obtain ⟨s₀, h₀, hdb, hx⟩ := h.entry_of_mem hs he
      exact ⟨hknocks, hx.after_of_knocks (hdb ▸ h₀.tables.1) hknocks hnot⟩

/-! ### A second run while the first one walks -/

namespace Sample

/-- The first of two runs has the execution running. -/
def ahead : List Entry :=
  [⟨1, ⟨.now, .epoch⟩, started, started⟩,
    ⟨1, ⟨.statement (.advance "e" .running 0 none), .ok true⟩, started, running⟩]

/-- The second run asks while the first one has the execution running. -/
def turnedAway : List Entry :=
  [⟨2, ⟨.now, .epoch⟩, running, running⟩,
    ⟨2, ⟨.statement (.advance "e" .running 0 none), .ok false⟩, running, running⟩]

theorem leaves_turnedAway :
    Leaves (runNew workflow record (.ofChange "a" "b")).run (repliesOf 2 turnedAway) (.done (.ok .skipped)) :=
  .ask (.ask (.here _))

/-- The first run was let in, and the second one is not. -/
theorem reachable_turnedAway : ∃ (tasks : List (Job Unit)) (pre : List Entry),
    Pool.Reachable WalkJob ⟨running, tasks, pre ++ turnedAway⟩ ∧ LetIn 1 pre "e" := by
  have first := reachable_started.step (.begin _ (.call (.run workflow record (.ofChange "a" "b"))))
  have second := first.step (.begin _ (.call (.run workflow record (.ofChange "a" "b"))))
  have now := second.ask_at 1 (r := .now) (x := .epoch) rfl rfl
  have moved := now.ask_at 1 (r := .statement (.advance "e" .running 0 none)) (x := .ok true) rfl (.inl rfl)
  have now := moved.ask_at 2 (r := .now) (x := .epoch) rfl rfl
  have refused := now.ask_at 2 (r := .statement (.advance "e" .running 0 none)) (x := .ok false) rfl (.inl rfl)
  exact ⟨_, startHistory ++ ahead, refused, _, List.mem_append_right _ (List.mem_of_mem_getLast? rfl), rfl, rfl⟩

end Sample

/-- A run of an execution that another one walks is turned away. -/
theorem turned_away_while_running : ∃ (s : Pool) (pre : List Entry), Pool.Reachable WalkJob s ∧ LetIn 1 pre "e" ∧
    s.history = pre ++ Sample.turnedAway ++ [] ∧
    Leaves (runNew Sample.workflow Sample.record (.ofChange "a" "b")).run (repliesOf 2 Sample.turnedAway)
      (.done (.ok .skipped)) ∧
    ∀ e ∈ Sample.turnedAway, e.task = 2 → e.reply.request.Knocks "e" ∧ e.after = e.before := by
  obtain ⟨tasks, pre, h, first⟩ := Sample.reachable_turnedAway
  have hs : pre ++ Sample.turnedAway = pre ++ Sample.turnedAway ++ [] := (List.append_nil _).symm
  obtain ⟨entrance, -⟩ := entered_anew_only_while_suspended h Sample.workflow Sample.record (.ofChange "a" "b") hs
    Sample.leaves_turnedAway
  refine ⟨_, pre, h, first, hs, Sample.leaves_turnedAway, (entrance.outside ?_).1⟩
  rintro ⟨e, he, -, hstarts⟩
  rcases List.mem_pair.1 he with rfl | rfl <;> exact hstarts

/-! ### A second run of a suspended execution -/

namespace Lone

/-- A worker with nothing on record. -/
def blank : Host.Site := ⟨⟨some [], some [], some [], some [], []⟩, 0, worker⟩

/-- An execution of the two delays was started. -/
def begun : Host.Site := (blank.perform (start "w" ⟨.application, "1"⟩ .statusChanged false).run).2

/-- The record of the execution. -/
def beginning : Record := { Delays.record with id := Host.Site.identifier 1 }

/-- A run of the execution. -/
def entering : Job (Except EngineFault Result) := (runNew Delays.workflow beginning (.ofChange "a" "b")).run

/-- The execution was run up to its first delay, which suspends it. -/
def atDelay : Host.Site := (begun.perform entering).2

end Lone

/-- An execution that is suspended is entered from its trigger once more, and suspended with a second token. -/
theorem entered_twice :
    (Lone.blank.perform (start "w" ⟨.application, "1"⟩ .statusChanged false).run).1 = .ok ⟨Lone.beginning, true⟩ ∧
      (Lone.begun.entered Lone.entering).map (·.step.id) = ["t", "d"] ∧
      (Lone.atDelay.entered Lone.entering).map (·.step.id) = ["t", "d"] ∧
      (Lone.atDelay.perform Lone.entering).1 ≠ .ok .skipped ∧
      (Lone.atDelay.perform Lone.entering).2.database.waiting.length = 2 := by
  decide +kernel

end Lifecycle
