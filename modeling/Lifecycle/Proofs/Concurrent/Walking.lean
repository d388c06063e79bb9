import Lifecycle.Proofs.Concurrent.Custody
import Lifecycle.Proofs.Engine.Replies

/-!
# Who walks an execution

A task walks an execution from when it has moved it to running until it is answered to moving it on, or to suspending it.
At any time at most one task walks an execution, and nodes are visited by that task only.
-/

namespace Lifecycle

open Engine
open Program (Leaves)
open Store (Database Executions TokenRow)

/-! ### Walks as they are asked for -/

/-- The execution `e` was moved to running. -/
def Reply.Starts (e : String) : Reply interface → Prop
  | ⟨.statement (.advance id .running _ _), .ok true⟩ => id = e
  | _ => False

/-- The end of a walk of the execution `e`: it was to be completed or failed, or was suspended if it was running. -/
def Reply.Ends (e : String) : Reply interface → Prop
  | ⟨.statement (.advance id next _ _), _⟩ => id = e ∧ next ≠ .running
  | ⟨.statement (.suspend row _), .ok _⟩ => row.executionId = e
  | _ => False

theorem Reply.Starts.inv {e : String} {y : Reply interface} (h : y.Starts e) :
    ∃ now failure, y = ⟨.statement (.advance e .running now failure), .ok true⟩ := by
  unfold Reply.Starts at h
  split at h
  · rename_i id now failure
    subst h
    exact ⟨now, failure, rfl⟩
  · exact h.elim

theorem Engine.Request.Quiet.aimless {r : Request} (h : r.Quiet) (x : r.Answer) :
    (∀ e, ¬ Reply.Starts e ⟨r, x⟩) ∧ (∀ e, ¬ Reply.Ends e ⟨r, x⟩) ∧
      ∀ v y, (⟨r, x⟩ : Reply interface) ≠ ⟨.visit v, y⟩ := by
  cases r with
  | statement q => cases q <;> first | exact h.elim | exact ⟨fun _ => id, fun _ => id, fun v y h => by cases h⟩
  | visit v => exact h.elim
  | _ => exact ⟨fun _ => id, fun _ => id, fun v y h => by cases h⟩

/-- The task `k` walks the execution `e`. -/
def Walks (history : List Entry) (k : Nat) (e : String) : Prop :=
  ∃ xs start ys, repliesOf k history = xs ++ start :: ys ∧ start.Starts e ∧ ∀ y ∈ ys, ¬ y.Ends e

section Positions

variable (record : Record)

theorem until_move (next : Status) (failure : Option Store.Failure) (h : next ≠ .running) :
    (move record.id next failure).run.Until (Reply.Ends record.id) := by
  refine fun now => .inr ⟨id, fun x => .inl ⟨⟨rfl, h⟩, ?_⟩⟩
  exact ⟨_, rfl⟩

theorem until_finish : (finish record).run.Until (Reply.Ends record.id) := by
  refine (until_move record .completed none (by decide)).bind_done fun moved => ?_
  cases moved <;> exact ⟨_, rfl⟩

theorem until_failAt (nodeId message : String) : (failAt record nodeId message).run.Until (Reply.Ends record.id) := by
  refine (until_move record .failed (some ⟨nodeId, message⟩) (by decide)).bind_done fun moved => ?_
  cases moved <;> exact ⟨_, rfl⟩

theorem until_suspendAt (delay next : Step) (deadline : Time.Instant) (context : Context) :
    (suspendAt record delay next deadline context).run.Until (Reply.Ends record.id) := by
  refine fun id => .inr ⟨False.elim, fun now => .inr ⟨False.elim, fun moved => .inr ⟨False.elim, fun x => ?_⟩⟩⟩
  match x with
  | .ok true => exact .inl ⟨rfl, _, rfl⟩
  | .ok false => exact .inl ⟨rfl, _, rfl⟩
  | .error f => exact .inr ⟨False.elim, until_failAt record delay.id _⟩

theorem until_walkFrom (workflow : Workflow) (step : Step) (context : Context) :
    (walkFrom workflow record step context).run.Until (Reply.Ends record.id) := by
  induction step using workflow.graph.induction_down generalizing context with
  | h step ih =>
    rw [walkFrom_eq]
    refine fun now => .inr ⟨False.elim, fun answer => .inr ⟨False.elim, ?_⟩⟩
    cases answer with
    | error f => exact until_failAt record step.id f.message
    | ok outcome =>
      show (walkOn workflow record step _ (.ok outcome)).run.Until _
      unfold walkOn
      dsimp only
      cases hn : workflow.graph.successor? step.id outcome.label with
      | none => exact until_finish record
      | some next =>
        match outcome with
        | .suspend deadline => exact until_suspendAt record step next _ _
        | .proceed => exact ih _ _ hn _
        | .branch yes => exact ih _ _ hn _

/-- A walk is over when, and only when, the execution was to be moved on, or was suspended. -/
theorem walkFrom_over_iff {workflow : Workflow} {step : Step} {context : Context} {replies : List (Reply interface)}
    {rest : Job (Except EngineFault Result)} (h : Leaves (walkFrom workflow record step context).run replies rest) :
    (∃ result, rest = .done result) ↔ ∃ y ∈ replies, y.Ends record.id :=
  h.done_iff (until_walkFrom record workflow step context)

end Positions

/-! ### One task at a time -/

theorem walks_concat {history : List Entry} {j k : Nat} {reply : Reply interface} {before after : Database} {e : String} :
    Walks (history ++ [⟨k, reply, before, after⟩]) j e ↔
      (j = k ∧ reply.Starts e) ∨ (Walks history j e ∧ ¬ (j = k ∧ reply.Ends e)) := by
  by_cases hjk : j = k
  · subst hjk
    simp only [Walks, repliesOf_append, repliesOf_same, true_and]
    constructor
    · rintro ⟨xs, start, ys, heq, hs, hys⟩
      rcases concat_eq_append heq with ⟨-, -, rfl⟩ | ⟨ys, rfl, hr⟩
      · exact .inl hs
      · refine .inr ⟨⟨xs, start, ys, hr, hs, fun y hy => hys y (List.mem_append_left _ hy)⟩, ?_⟩
        exact hys reply (List.mem_append_right _ (List.mem_singleton_self _))
    · rintro (hs | ⟨⟨xs, start, ys, hr, hs, hys⟩, he⟩)
      · exact ⟨_, reply, [], rfl, hs, fun y hy => absurd hy List.not_mem_nil⟩
      · refine ⟨xs, start, ys ++ [reply], ?_, hs, fun y hy => ?_⟩
        · rw [hr, List.append_assoc, List.cons_append]
        · rcases List.mem_append.1 hy with hy | hy
          · exact hys y hy
          · exact List.mem_singleton.1 hy ▸ he
  · simp only [Walks, repliesOf_append, repliesOf_other (Ne.symm hjk), List.append_nil, hjk, false_and, false_or,
      not_false_eq_true, and_true]

/-- Walks are one for each execution, of a task that has it in hand; and visits are made during walks. -/
structure Walked (s : Pool) (states : Nat → Ownership.State) : Prop where
  running : ∀ k e, Walks s.history k e → s.database.records.status e = some Status.running.name
  one : ∀ j k e, Walks s.history j e → Walks s.history k e → j = k
  alone : ∀ j k e status, Walks s.history j e → (states k).phase.holds? = some (e, status) → j = k
  walks : ∀ k e, (states k).phase.holds? = some (e, .running) → Walks s.history k e
  during : ∀ pre k v x before after post, s.history = pre ++ ⟨k, ⟨.visit v, x⟩, before, after⟩ :: post →
    Walks pre k v.record.id

namespace Walked

variable {s : Pool} {states : Nat → Ownership.State} {k : Nat} {r : Request} {x : r.Answer} {after : Database}
  {rest : Job Unit} {state : Ownership.State}

theorem during_answered (w : Walked s states)
    (visit : ∀ v y, (⟨r, x⟩ : Reply interface) = ⟨.visit v, y⟩ → Walks s.history k v.record.id)
    (pre : List Entry) (j : Nat) (v : Visit) (y : Except HandlerFault Outcome) (before new : Database) (post : List Entry)
    (h : (s.answered k ⟨r, x⟩ after rest).history = pre ++ ⟨j, ⟨.visit v, y⟩, before, new⟩ :: post) :
    Walks pre j v.record.id := by
  rcases concat_eq_append h with ⟨-, rfl, hlast⟩ | ⟨post, -, hpre⟩
  · obtain ⟨rfl, hv, -, -⟩ := Entry.mk.inj hlast
    exact visit v y hv
  · exact w.during pre j v y before new post hpre

/-- A turn that starts no walk, takes nothing into hand that is running, and keeps what it has in hand running unless it
ends the walk. -/
theorem keep (w : Walked s states) (starts : ∀ e, ¬ Reply.Starts e ⟨r, x⟩)
    (status : ∀ e, s.database.records.status e = some Status.running.name →
      after.records.status e = some Status.running.name ∨
        Reply.Ends e ⟨r, x⟩ ∧ ∃ st, (states k).phase.holds? = some (e, st))
    (hands : ∀ e st, state.phase.holds? = some (e, st) → (∃ st', (states k).phase.holds? = some (e, st')) ∨
      s.database.records.status e ≠ some Status.running.name)
    (runs : ∀ e, state.phase.holds? = some (e, .running) →
      (states k).phase.holds? = some (e, .running) ∧ ¬ Reply.Ends e ⟨r, x⟩)
    (visit : ∀ v y, (⟨r, x⟩ : Reply interface) = ⟨.visit v, y⟩ → Walks s.history k v.record.id) :
    Walked (s.answered k ⟨r, x⟩ after rest) (Function.update states k state) := by
  have before {j : Nat} {e : String} (h : Walks (s.answered k ⟨r, x⟩ after rest).history j e) :
      Walks s.history j e ∧ ¬ (j = k ∧ Reply.Ends e ⟨r, x⟩) :=
    (walks_concat.1 h).resolve_left fun h => starts e h.2
  refine ⟨fun j e h => ?_, fun i j e h h' => w.one i j e (before h).1 (before h').1, fun i j e st h h' => ?_,
    fun j e h => ?_, w.during_answered visit⟩
  · obtain ⟨hw, hne⟩ := before h
    rcases status e (w.running j e hw) with h | ⟨he, st, hst⟩
    · exact h
    · exact absurd ⟨w.alone j k e st hw hst, he⟩ hne
  · rcases update_or states k state j with ⟨rfl, hj⟩ | ⟨-, hj⟩ <;> rw [hj] at h'
    · rcases hands e st h' with ⟨st', h'⟩ | hn
      · exact w.alone i j e st' (before h).1 h'
      · exact absurd (w.running i e (before h).1) hn
    · exact w.alone i j e st (before h).1 h'
  · refine walks_concat.2 (.inr ?_)
    rcases update_or states k state j with ⟨rfl, hj⟩ | ⟨hjk, hj⟩ <;> rw [hj] at h
    · exact ⟨w.walks j e (runs e h).1, fun he => (runs e h).2 he.2⟩
    · exact ⟨w.walks j e h, fun he => hjk he.1⟩

/-- A turn that changes no status, ends no walk and visits no node. -/
theorem still (w : Walked s states) (hu : s.database.Unchanged after) (starts : ∀ e, ¬ Reply.Starts e ⟨r, x⟩)
    (ends : ∀ e, ¬ Reply.Ends e ⟨r, x⟩) (visit : ∀ v y, (⟨r, x⟩ : Reply interface) ≠ ⟨.visit v, y⟩)
    (hands : state.phase = (states k).phase) :
    Walked (s.answered k ⟨r, x⟩ after rest) (Function.update states k state) := by
  refine w.keep starts (fun e h => .inl (hu.records ▸ h)) (fun e st h => .inl ⟨st, hands ▸ h⟩)
    (fun e h => ⟨hands ▸ h, ends e⟩) fun v y h => absurd h (visit v y)

/-- An execution that is moved to running was not running, and nobody has walked it. -/
theorem started {id : String} {now : Int} (w : Walked s states) (o : Owned s states) (h : (states k).phase.Waits id)
    (hx : Answers s.identifiers s.database (.statement (.advance id .running now none)) (.ok true) after) :
    Walked (s.answered k ⟨.statement (.advance id .running now none), .ok true⟩ after rest)
      (Function.update states k { states k with phase := (states k).phase.started }) := by
  obtain ⟨hfollows, -, -, status⟩ := hx.advanced o.distinct
  obtain ⟨st, hold, hnew⟩ := h.holds
  have idle (j : Nat) : ¬ Walks s.history j id := fun hj => by
    rw [w.running j id hj] at hfollows
    exact absurd hfollows (by decide)
  have cases {j : Nat} {e : String} (h : Walks (s.answered k ⟨.statement (.advance id .running now none), .ok true⟩
      after rest).history j e) : (j = k ∧ e = id) ∨ (Walks s.history j e ∧ e ≠ id) := by
    rcases walks_concat.1 h with ⟨hj, he⟩ | ⟨hj, -⟩
    · exact .inl ⟨hj, he.symm⟩
    · refine .inr ⟨hj, ?_⟩
      rintro rfl
      exact idle j hj
  have hands {j : Nat} {e : String} {st' : Status} (h : (Function.update states k
      { states k with phase := (states k).phase.started } j).phase.holds? = some (e, st')) :
      (j = k ∧ e = id) ∨ (j ≠ k ∧ (states j).phase.holds? = some (e, st')) := by
    rcases Owned.hands_phase h with ⟨hjk, h⟩ | ⟨hjk, h⟩
    · exact .inl ⟨hjk, (Prod.mk.inj (Option.some.inj (hnew.symm.trans h))).1.symm⟩
    · exact .inr ⟨hjk, h⟩
  refine ⟨fun j e h => ?_, fun i j e h h' => ?_, fun i j e st' h h' => ?_, fun j e h => ?_,
    w.during_answered fun v y h => by cases h⟩
  · show after.records.status e = _
    rw [status]
    rcases cases h with ⟨-, rfl⟩ | ⟨hj, hne⟩
    · rw [if_pos rfl]
    · rw [if_neg hne]
      exact w.running j e hj
  · rcases cases h with ⟨rfl, rfl⟩ | ⟨hi, hne⟩ <;> rcases cases h' with ⟨rfl, he⟩ | ⟨hj, hne'⟩
    · rfl
    · exact absurd rfl hne'
    · exact absurd he hne
    · exact w.one i j e hi hj
  · rcases cases h with ⟨rfl, rfl⟩ | ⟨hi, hne⟩ <;> rcases hands h' with ⟨rfl, he⟩ | ⟨hjk, hj⟩
    · rfl
    · exact o.apart i j e st st' hold hj
    · exact absurd he hne
    · exact w.alone i j e st' hi hj
  · rcases hands h with ⟨rfl, rfl⟩ | ⟨hjk, hj⟩
    · exact walks_concat.2 (.inl ⟨rfl, rfl⟩)
    · exact walks_concat.2 (.inr ⟨w.walks j e hj, fun he => hjk he.1⟩)

theorem answered {drawn : Nat → Option String} (w : Walked s states) (o : Owned s states) (i : Identified s drawn)
    (hx : Answers s.identifiers s.database r x after) (ht : Ownership.Turn (states k) r x rest state) :
    Walked (s.answered k ⟨r, x⟩ after rest) (Function.update states k state) := by
  cases ht with
  | quiet h => exact w.still (hx.unchanged h.still) (h.aimless x).1 (h.aimless x).2.1 (h.aimless x).2.2 rfl
  | @found now limit rows =>
    exact w.still (hx.unchanged (r := .statement (.due now limit)) trivial) (fun _ => id) (fun _ => id)
      (fun v y h => by cases h) rfl
  | @began record h =>
    obtain ⟨hnone, -, -, status⟩ := hx.inserted o.distinct rfl
    refine w.keep (fun _ => id) (fun e he => .inl ?_) (fun e st he => .inr ?_) (fun e he => by cases he) fun v y h => by cases h
    · rw [status, if_neg]
      · exact he
      · rintro rfl
        cases hnone.symm.trans he
    · cases he
      rw [hnone]
      nofun
  | present h => exact w.still (hx.not_inserted h) (fun _ => id) (fun _ => id) (fun v y h => by cases h) rfl
  | @took row t hrow ht =>
    have hwait := o.suspended row (o.mem_of_claim i hrow ht hx)
    have hr := hx.records_claim
    refine w.keep (fun _ => id) (fun e he => .inl (hr ▸ he)) (fun e st he => .inr ?_) (fun e he => by cases he)
      fun v y h => by cases h
    cases he
    rw [← (Store.TokenRow.token_ok ht).execution, hwait]
    decide
  | missed h => exact w.still (hx.not_claimed h) (fun _ => id) (fun _ => id) (fun v y h => by cases h) rfl
  | started h => exact w.started o h hx
  | @refused id now y h hne =>
    refine w.still (hx.not_advanced hne) (fun e he => ?_) (fun e he => he.2 rfl) (fun v y h => by cases h) rfl
    unfold Reply.Starts at he
    split at he
    · rename_i heq
      cases heq
      exact hne rfl
    · exact he
  | @visited v y h _ =>
    have hu : s.database.Unchanged after := hx.unchanged (r := .visit v) trivial
    have hold := h.holds
    refine w.keep (fun _ => id) (fun e he => .inl (hu.records ▸ he)) (fun e st he => .inl ?_) (fun e he => ?_)
      fun v' y' he => ?_
    · cases he
      exact ⟨_, hold⟩
    · cases he
      exact ⟨hold, fun h => h⟩
    · cases he
      exact w.walks k _ hold
  | @left id status next now failure y h hn =>
    have hne : next ≠ .running := by rcases hn with rfl | rfl <;> decide
    refine w.keep (fun e he => ?_) (fun e he => ?_) (fun e st he => by cases he) (fun e he => by cases he)
      fun v y h => by cases h
    · rcases hn with rfl | rfl <;> exact he
    · rcases (hx.status_advance o.distinct).2.2 e with hst | ⟨rfl, -⟩
      · exact .inl (hst.trans he)
      · exact .inr ⟨⟨rfl, hne⟩, status, h⟩
  | @suspended row now moved h =>
    have hold := h.holds
    refine w.keep (fun _ => id) (fun e he => ?_) (fun e st he => by cases he) (fun e he => by cases he)
      fun v y h => by cases h
    rcases (hx.status_suspend o.distinct).2 e with hst | ⟨rfl, -, -⟩
    · exact .inl (hst.trans he)
    · exact .inr ⟨rfl, _, hold⟩
  | unsuspended h => exact w.still (hx.not_suspended (by nofun)) (fun _ => id) (fun _ => id) (fun v y h => by cases h) rfl

end Walked

end Lifecycle
