import Lifecycle.Proofs.Concurrent.RunOnce
import Lifecycle.Proofs.Engine.Outcomes
import Lifecycle.Proofs.Store.Forward

/-!
# Who tells what was written

Runs and resumptions among any other changes of the same executions. A call that ends tells what it has itself written, and
that it was skipped if an update of its own was refused, unless that update was to fail the execution: then it tells of a
failure that is not on record.
-/

namespace Lifecycle

open Engine
open Program (Leaves)
open Store (Database Executions ExecutionRow TokenRow)

/-! ### Calls -/

/-- The arguments of a call that walks an execution. -/
inductive WalkCall where
  | run (workflow : Workflow) (record : Record) (context : Context)
  | resume (token : Token)

namespace WalkCall

/-- The execution that is walked. -/
def id : WalkCall → String
  | run _ record _ => record.id
  | resume token => token.executionId

def job : WalkCall → Attempt Result
  | run workflow record context => runNew workflow record context
  | resume token => Engine.resume token

theorem writes (c : WalkCall) : Writes c.job.run := by
  cases c with
  | run workflow record context => exact writes_runNew workflow record context
  | resume token => exact writes_resume token

end WalkCall

/-- What is done to executions: all that is done to records, and runs of any workflow. -/
inductive WalkJob : Job Unit → Prop where
  | ledger {job : Job Unit} (h : LedgerJob job) : WalkJob job
  | call (c : WalkCall) : WalkJob (c.job.run >>= fun _ => .done ())

theorem WalkJob.writes {job : Job Unit} (h : WalkJob job) : Writes job := by
  cases h with
  | ledger h => exact h.writes
  | call c => exact c.writes.bind fun _ => .done _

/-! ### What is on record -/

/-- The entry moves the execution `id` to where a result says that it is. -/
def Entry.Brings (e : Entry) (id : String) (result : Result) : Prop :=
  ∃ (old new : ExecutionRow) (prior next : Status), e.before.records.get? id = some old ∧
    e.after.records.get? id = some new ∧ prior.Precedes next ∧ old.status = prior.name ∧ new.status = next.name ∧
    match result with
    | .completed => next = .completed
    | .suspended resumeAt => next = .suspended ∧
      ∃ t : Token, t.executionId = id ∧ t.resumeAt = resumeAt ∧ e.after.waiting = e.before.waiting ++ [.ofToken t]
    | .failed nodeId message => next = .failed ∧ new.failedNodeId = some nodeId ∧ new.error = some message
    | .skipped => False

/-- A change of status that was confirmed has moved the row of the execution. -/
theorem Answers.moves {ids : List String} {before after : Database} {id : String} {next : Status} {now : Int}
    {failure : Option Store.Failure} (hd : before.records.Distinct)
    (h : Answers ids before (.statement (.advance id next now failure)) (.ok true) after) :
    ∃ (old : ExecutionRow) (prior : Status), before.records.get? id = some old ∧
      after.records.get? id = some (old.moved next now failure) ∧ prior.Precedes next ∧ old.status = prior.name := by
  rcases h.advance with ⟨hm, hr, -⟩ | ⟨⟨f, hf⟩, -⟩
  · obtain ⟨old, ho, ⟨prior, hp, hs⟩, hnew⟩ := Executions.get?_of_advance hd (Except.ok.inj hm).symm
    exact ⟨old, prior, ho, (congrArg (·.get? id) hr).trans hnew, hp, hs⟩
  · cases hf

theorem Answers.brings {ids : List String} {k : Nat} {y : Reply interface} {before after : Database} {id : String}
    {result : Result} (hx : Answers ids before y.request y.answer after) (hd : before.records.Distinct)
    (h : y.Marks id result true) : Entry.Brings ⟨k, y, before, after⟩ id result := by
  cases h with
  | completed now =>
    obtain ⟨old, prior, ho, hn, hp, hs⟩ := Answers.moves hd hx
    exact ⟨old, _, prior, .completed, ho, hn, hp, hs, rfl, rfl⟩
  | failed now nodeId message =>
    obtain ⟨old, prior, ho, hn, hp, hs⟩ := Answers.moves hd hx
    exact ⟨old, _, prior, .failed, ho, hn, hp, hs, rfl, rfl, rfl, rfl⟩
  | suspended t ht now =>
    have hx : Answers ids before (.statement (.suspend (.ofToken t) now)) (.ok true) after := hx
    rcases hx.suspend with ⟨-, hm, hr, hw⟩ | ⟨hf, -⟩ | ⟨⟨f, hf⟩, -⟩
    · have hid : (TokenRow.ofToken t).executionId = id := ht
      rw [hid] at hm hr
      obtain ⟨old, ho, ⟨prior, hp, hs⟩, hnew⟩ := Executions.get?_of_advance hd hm
      exact ⟨old, _, prior, .suspended, ho, (congrArg (·.get? id) hr).trans hnew, hp, hs, rfl, rfl, t, ht, rfl, hw⟩
    · cases hf
    · cases hf

/-- A failure that is not put on record has changed nothing. -/
theorem Answers.in_vain {ids : List String} {y : Reply interface} {before after : Database} {id : String}
    (hx : Answers ids before y.request y.answer after) (h : y.FailsInVain id) : before.Unchanged after := by
  unfold Reply.FailsInVain at h
  split at h
  · exact hx.not_advanced (x := .ok false) (by nofun)
  · exact h.elim

/-- What the call of the task `k` tells is what it has written itself during `mid`, and it tells that it was skipped if an
update of its own was refused. -/
structure WalkCall.Honest (c : WalkCall) (k : Nat) (mid : List Entry) (result : Result) : Prop where
  wrote : result ≠ .skipped → ∃ e ∈ mid, e.task = k ∧ e.Brings c.id result
  told : ∀ e ∈ mid, e.task = k → ∀ r, e.reply.Marks c.id r true → e.reply.Marks c.id result true
  skipped : ∀ e ∈ mid, e.task = k → e.reply.Refused c.id → result = .skipped

/-! ### Runs -/

variable {s : Pool}

theorem Pool.Reachable.told (h : Pool.Reachable WalkJob s) {c : WalkCall} {k : Nat} {pre mid post : List Entry}
    {result : Result} (hs : s.history = pre ++ mid ++ post)
    (hl : Leaves c.job.run (repliesOf k mid) (.done (.ok result))) : Told c.id (repliesOf k mid) result := by
  cases c with
  | run workflow record context => exact told_runNew hl
  | resume token =>
    refine told_resume hl fun row hrow => ?_
    obtain ⟨e, he, hk, hy⟩ := exists_of_mem_repliesOf hrow
    obtain ⟨s₀, -, -, hx⟩ := h.entry_of_mem hs he
    rw [hy] at hx
    exact Possible.execution ⟨_, _, _, hx⟩

/-! ### A failure that is not on record -/

namespace Sample

def mailing : Workflow where
  definition := ⟨"w", "w", .statusChanged, [], true, [], []⟩
  trigger := .statusChanged none .any .any true
  graph :=
    { steps := [⟨"t", .trigger⟩, ⟨"m", .email ⟨"welcome", none⟩⟩]
      connections := [⟨"t", "m", .next⟩]
      entry := ⟨"t", .trigger⟩
      heights := [("t", 1), ("m", 0)]
      falls := by decide }

/-- The run of the mailing for the execution that is on record. -/
def mailRun : WalkCall := .run mailing record (.ofChange "a" "b")

/-- The context in front of the mail. -/
def mailContext : Context := (Context.ofChange "a" "b").enter "t" .epoch

/-- The walk in front of the mail. -/
def mailWalk : Attempt Result := walkFrom mailing record ⟨"m", .email ⟨"welcome", none⟩⟩ mailContext

/-- What is on record before the run. -/
def started : Database := ⟨some [.ofRecord record], some [], none, none, []⟩

/-- The execution is put on record. -/
def startHistory : List Entry :=
  let blank : Database := ⟨some [], some [], none, none, []⟩
  [⟨0, ⟨.now, .epoch⟩, blank, blank⟩, ⟨0, ⟨.fresh, "e"⟩, blank, blank⟩,
    ⟨0, ⟨.statement (.insertExecution (.ofRecord record)), .ok true⟩, blank, started⟩]

theorem reachable_started : Pool.Reachable WalkJob ⟨started, [.done ()], startHistory⟩ := by
  have begun : Pool.Reachable WalkJob ⟨⟨some [], some [], none, none, []⟩, [_], []⟩ :=
    (Pool.Reachable.start _ rfl rfl).step (.begin _ (.ledger (.start ⟨"w", event.target, .statusChanged, true⟩)))
  have now := begun.ask_alone (r := .now) (x := .epoch) rfl
  have drawn := now.ask_alone (r := .fresh) (x := "e") ⟨by decide, rfl⟩
  exact drawn.ask_alone (r := .statement (.insertExecution (.ofRecord record))) (x := .ok true) (.inl rfl)

/-- The execution has been failed elsewhere. -/
def failedElsewhere : Database :=
  ⟨some [((ExecutionRow.ofRecord record).moved .running 0 none).moved .failed 0 (some ⟨"n", "timeout"⟩)], some [], none,
    none, []⟩

/-- The run goes up to the mail, the execution is failed elsewhere, the mail fails, and so does recording that. -/
def mailHistory : List Entry :=
  [⟨1, ⟨.now, .epoch⟩, started, started⟩,
    ⟨1, ⟨.statement (.advance "e" .running 0 none), .ok true⟩, started, running⟩,
    ⟨1, ⟨.now, .epoch⟩, running, running⟩,
    ⟨1, ⟨.visit ⟨mailing, record, mailContext, mailing.graph.entry⟩, .ok .proceed⟩, running, running⟩,
    ⟨1, ⟨.now, .epoch⟩, running, running⟩,
    ⟨2, ⟨.now, .epoch⟩, running, running⟩,
    ⟨2, ⟨.statement (.advance "e" .failed 0 (some ⟨"n", "timeout"⟩)), .ok true⟩, running, failedElsewhere⟩,
    ⟨1, ⟨.visit ⟨mailing, record, mailContext.enter "m" .epoch, ⟨"m", .email ⟨"welcome", none⟩⟩⟩, .error .noRecipient⟩,
      failedElsewhere, failedElsewhere⟩,
    ⟨1, ⟨.now, .epoch⟩, failedElsewhere, failedElsewhere⟩,
    ⟨1, ⟨.statement (.advance "e" .failed 0 (some ⟨"m", HandlerFault.noRecipient.message⟩)), .ok false⟩, failedElsewhere,
      failedElsewhere⟩]

/-- What the run tells. -/
def mailResult : Result := .failed "m" HandlerFault.noRecipient.message

theorem leaves_mailRun : Leaves mailRun.job.run (repliesOf 1 mailHistory) (.done (.ok mailResult)) := by
  have mail : Leaves mailWalk.run (repliesOf 1 (mailHistory.drop 4)) (.done (.ok mailResult)) := by
    rw [mailWalk, walkFrom_eq]
    exact .ask (.ask (.ask (.ask (.here _))))
  have walk : Leaves (walkFrom mailing record mailing.graph.entry (.ofChange "a" "b")).run (repliesOf 1 (mailHistory.drop 2))
      (.done (.ok mailResult)) := by
    rw [walkFrom_eq]
    exact .ask (.ask mail)
  exact .ask (.ask walk)

/-- The mail fails, and the execution has been failed elsewhere while it was on its way. -/
theorem reachable_failedElsewhere : ∃ (tasks : List (Job Unit)) (pre : List Entry),
    Pool.Reachable WalkJob ⟨failedElsewhere, tasks, pre ++ mailHistory⟩ := by
  have run := reachable_started.step (.begin _ (.call mailRun))
  have mark := run.step (.begin _ (.ledger (.move "e" .failed (some ⟨"n", "timeout"⟩))))
  have now := mark.ask_at 1 (r := .now) (x := .epoch) rfl rfl
  have moved := now.ask_at 1 (r := .statement (.advance "e" .running 0 none)) (x := .ok true) rfl (.inl rfl)
  have walking : Pool.Reachable WalkJob ⟨running, [.done (), (walkFrom mailing record mailing.graph.entry
    (.ofChange "a" "b")).run >>= fun _ => .done (), _], _⟩ := moved
  rw [walkFrom_eq] at walking
  have now := walking.ask_at 1 (r := .now) (x := .epoch) rfl rfl
  have entered := now.ask_at 1 (r := .visit _) (x := .ok .proceed) rfl ⟨rfl, rfl⟩
  have mail : Pool.Reachable WalkJob ⟨running, [.done (), mailWalk.run >>= fun _ => .done (), _], _⟩ := entered
  rw [mailWalk, walkFrom_eq] at mail
  have now := mail.ask_at 1 (r := .now) (x := .epoch) rfl rfl
  have other := now.ask_at 2 (r := .now) (x := .epoch) rfl rfl
  have ended := other.ask_at 2 (r := .statement (.advance "e" .failed 0 (some ⟨"n", "timeout"⟩))) (x := .ok true) rfl
    (.inl rfl)
  have visited := ended.ask_at 1 (r := .visit _) (x := .error .noRecipient) rfl ⟨rfl, rfl⟩
  have now := visited.ask_at 1 (r := .now) (x := .epoch) rfl rfl
  have told := now.ask_at 1 (r := .statement (.advance "e" .failed 0 (some ⟨"m", HandlerFault.noRecipient.message⟩)))
    (x := .ok false) rfl (.inl rfl)
  exact ⟨_, startHistory, told⟩

end Sample

/-! ### What is told and what was written -/

/-- Whatever else is done to the execution meanwhile: a call that ends without a fault tells what it has itself put on
record, or that it was skipped if it was refused, if and only if none of its updates that were to fail the execution was
refused; and a call that was refused that tells of a failure all the same, with nothing changed. -/
theorem tells_what_it_wrote (h : Pool.Reachable WalkJob s) (c : WalkCall) (k : Nat) (pre mid post : List Entry)
    (result : Result) (hs : s.history = pre ++ mid ++ post)
    (hl : Leaves c.job.run (repliesOf k mid) (.done (.ok result))) :
    (c.Honest k mid result ↔ ∀ e ∈ mid, e.task = k → ¬ e.reply.FailsInVain c.id) ∧
      ∀ e ∈ mid, e.task = k → e.reply.FailsInVain c.id →
        (∃ nodeId message, result = .failed nodeId message) ∧ e.before.Unchanged e.after := by
  have told := h.told hs hl
  have brings {e : Entry} (he : e ∈ mid) (hm : e.reply.Marks c.id result true) : e.Brings c.id result := by
    obtain ⟨m₁, m₂, rfl⟩ := List.append_of_mem he
    obtain ⟨s₀, h₀, -, hdb, hx⟩ := h.entry (eq_append_of_mid hs)
    exact hx.brings (hdb ▸ (h₀.recorded_of_writes fun _ hj => hj.writes).distinct) hm
  refine ⟨⟨fun honest e he hk hv => ?_, fun heard => ⟨fun hne => ?_, fun e he hk r hr => ?_, fun e he hk hr => ?_⟩⟩,
    fun e he hk hv => ⟨?_, ?_⟩⟩
  · obtain ⟨nodeId, message, hr⟩ := told.vain _ (mem_repliesOf he hk) hv
    cases hr.symm.trans (honest.skipped e he hk hv.refused)
  · rcases told.wrote hne with ⟨y, hy, hm⟩ | ⟨y, hy, hv⟩ <;> obtain ⟨e, he, hk, rfl⟩ := exists_of_mem_repliesOf hy
    · exact ⟨e, he, hk, brings he hm⟩
    · exact absurd hv (heard e he hk)
  · exact told.applied _ (mem_repliesOf he hk) r hr
  · exact (told.refused _ (mem_repliesOf he hk) hr).resolve_right (heard e he hk)
  · exact told.vain _ (mem_repliesOf he hk) hv
  · obtain ⟨m₁, m₂, rfl⟩ := List.append_of_mem he
    obtain ⟨s₀, -, -, -, hx⟩ := h.entry (eq_append_of_mid hs)
    exact hx.in_vain hv

/-- The run of which the mail fails tells so, and has put nothing on record by its last update. -/
theorem tells_of_mail : ∃ (s : Pool) (pre : List Entry), Pool.Reachable WalkJob s ∧
    s.history = pre ++ Sample.mailHistory ++ [] ∧
    Leaves Sample.mailRun.job.run (repliesOf 1 Sample.mailHistory) (.done (.ok Sample.mailResult)) ∧
    ∀ e ∈ Sample.mailHistory, e.task = 1 → e.reply.FailsInVain "e" → e.before.Unchanged e.after := by
  obtain ⟨tasks, pre, h⟩ := Sample.reachable_failedElsewhere
  have hs : pre ++ Sample.mailHistory = pre ++ Sample.mailHistory ++ [] := (List.append_nil _).symm
  have told := tells_what_it_wrote h Sample.mailRun 1 pre Sample.mailHistory [] Sample.mailResult hs Sample.leaves_mailRun
  exact ⟨_, pre, h, hs, Sample.leaves_mailRun, fun e he hk hv => (told.2 e he hk hv).2⟩

/-- It is not honest: its last update was refused, and it tells of a failure that another one has replaced. -/
theorem dishonest_of_mail : ∃ (s : Pool) (pre : List Entry), Pool.Reachable WalkJob s ∧
    s.history = pre ++ Sample.mailHistory ++ [] ∧
    Leaves Sample.mailRun.job.run (repliesOf 1 Sample.mailHistory) (.done (.ok Sample.mailResult)) ∧
    ¬ Sample.mailRun.Honest 1 Sample.mailHistory Sample.mailResult := by
  obtain ⟨tasks, pre, h⟩ := Sample.reachable_failedElsewhere
  refine ⟨_, pre, h, (List.append_nil _).symm, Sample.leaves_mailRun, fun honest => ?_⟩
  cases honest.skipped _ (List.mem_of_mem_getLast? rfl) rfl rfl

end Lifecycle
