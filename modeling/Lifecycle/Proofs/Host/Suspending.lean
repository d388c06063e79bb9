import Lifecycle.Proofs.Concurrent.Deadlines
import Lifecycle.Proofs.Host.Queries
import Lifecycle.Proofs.Store.Transactions

/-!
# Suspending, whatever fails

A site whose suspensions may fail at any of their statements. Suspending moves the execution and writes the token, or it
leaves both tables as they are; and a walk that cannot suspend fails the execution at its delay, with no token for it.
-/

namespace Lifecycle

open Engine
open Host (Site)
open Store (Database ExecutionRow TokenRow Executions Tokens)
open Store.Transaction (Failures)
open Time (Instant)

namespace Store.Database

/-- The execution `id` is on record as running. -/
def Runs (db : Database) (id : String) : Prop :=
  ∃ l, db.executions = some l ∧ ∃ r ∈ l, r.id = some id ∧ r.status = Status.running.name

/-- The running execution of a token was suspended, and the token added; and nothing else was changed. -/
structure Suspends (db after : Database) (token : TokenRow) (now : Int) : Prop where
  running : db.Runs token.executionId
  moved : ∃ l, db.executions = some l ∧ after.executions = some (l.map fun r =>
    if r.id = some token.executionId ∧ r.status = Status.running.name then r.moved .suspended now none else r)
  added : ∃ ts, db.tokens = some ts ∧ after.tokens = some (ts ++ [token])
  rest : after = { db with executions := after.executions, tokens := after.tokens }

end Store.Database

namespace Store.ExecutionRow

variable {r : ExecutionRow} {id : String}

theorem admits_suspended : r.admits id .suspended = true ↔ r.id = some id ∧ r.status = Status.running.name := by
  rw [admits_iff, Status.follows_iff]
  refine and_congr_right fun _ => ⟨?_, fun h => ⟨.running, .running_suspended, h⟩⟩
  rintro ⟨prior, hp, h⟩
  cases hp
  exact h

theorem admits_failed : r.admits id .failed = true ↔
    r.id = some id ∧ ∃ status : Status, status ∈ [Status.pending, .running, .suspended] ∧ r.status = status.name := by
  rw [admits_iff, Status.follows_iff]
  refine and_congr_right fun _ => exists_congr fun prior => and_congr_left fun _ => ?_
  rw [Status.precedes_iff, List.contains_iff_mem]
  rfl

end Store.ExecutionRow

namespace Host.Site

/-! ### Sites where suspensions fail -/

/-- What a site answers at which statements of suspensions may fail. -/
def answerUnder (fails : Failures) : (r : Request) → Site → r.Answer × Site
  | .statement (.suspend token now), s =>
    let out := Store.Transaction.perform fails (Store.Transaction.suspension token now) s.database
    (out.1, { s with database := out.2 })
  | r, s => answer r s

/-- A job, done at a site at which statements of suspensions may fail. -/
def performUnder (fails : Failures) (s : Site) {α : Type} (job : Job α) : α × Site := job.run (answerUnder fails) s

theorem answerUnder_none : answerUnder (fun _ => none) = answer := by
  funext r s
  cases r with
  | statement q =>
    cases q with
    | suspend token now =>
      show ((Store.Transaction.perform _ _ s.database).1,
        ({ s with database := (Store.Transaction.perform _ _ s.database).2 } : Site)) = _
      rw [Store.Transaction.perform_suspension fun _ => rfl]
      rfl
    | _ => rfl
  | _ => rfl

/-- Where no statement fails of its own accord, the site does what it does anyway. -/
theorem performUnder_none {α : Type} (s : Site) (job : Job α) : s.performUnder (fun _ => none) job = s.perform job := by
  rw [performUnder, answerUnder_none]
  rfl

theorem performUnder_bind {α β : Type} (fails : Failures) (s : Site) (p : Job α) (f : α → Job β) :
    s.performUnder fails (p >>= f) = (s.performUnder fails p).2.performUnder fails (f (s.performUnder fails p).1) :=
  Program.run_bind (P := interface) (answerUnder fails) p f s

/-- Apart from suspensions the site does what it does anyway. -/
theorem performUnder_of_only {fails : Failures} {α : Type} {p : Job α}
    (hp : p.Only fun r => ∀ s, answerUnder fails r s = answer r s) (s : Site) : s.performUnder fails p = s.perform p := by
  induction p generalizing s with
  | done a => rfl
  | ask r next ih =>
    show ((answerUnder fails r s).2.performUnder fails (next (answerUnder fails r s).1)) = _
    rw [hp.1 s]
    exact ih _ (hp.2 _) _

variable (fails : Failures) (s : Site)

/-- The token that a site writes next. -/
def nextToken (executionId nodeId : String) (resumeAt : Instant) (snapshot : Json) : Token :=
  ⟨identifier (s.serial + 1), executionId, nodeId, resumeAt, snapshot, s.worker.clock⟩

theorem performUnder_suspend (executionId nodeId : String) (resumeAt : Instant) (snapshot : Json) :
    let token := s.nextToken executionId nodeId resumeAt snapshot
    let out := Store.Transaction.perform fails
      (Store.Transaction.suspension (.ofToken token) s.worker.clock.floorMillis) s.database
    s.performUnder fails (suspend executionId nodeId resumeAt snapshot).run =
      ((out.1.mapError EngineFault.database).map fun done => if done then some token else none,
        { s with serial := s.serial + 1, database := out.2 }) := by
  intro token out
  have hrun : s.performUnder fails (suspend executionId nodeId resumeAt snapshot).run =
      ({ s with serial := s.serial + 1, database := out.2 } : Site).performUnder fails
        (ExceptT.bindCont (fun done => pure (if done = true then some token else none)) (out.1.mapError EngineFault.database)) := rfl
  rw [hrun]
  cases out.1 <;> rfl

/-! ### All or nothing -/

/-- What comes of suspending with a token: it was written, the execution did not run, or there was a fault. -/
inductive Scheduled (s after : Site) (token : Token) : Except EngineFault (Option Token) → Prop where
  | written (h : s.database.Suspends after.database (.ofToken token) s.worker.clock.floorMillis) :
      Scheduled s after token (.ok (some token))
  | refused (h : ¬ s.database.Runs token.executionId) (same : after.database = s.database) :
      Scheduled s after token (.ok none)
  | failed (f : EngineFault) (same : after.database = s.database) : Scheduled s after token (.error f)

variable {fails s}

theorem runs_iff {l : Executions} (hl : s.database.executions = some l) {id : String} {now : Int} :
    s.database.Runs id ↔ (l.advance id .suspended now none).1 = true := by
  show _ ↔ l.any (·.admits id .suspended) = true
  rw [List.any_eq_true]
  constructor
  · rintro ⟨l', hl', r, hr, h⟩
    cases hl.symm.trans hl'
    exact ⟨r, hr, ExecutionRow.admits_suspended.2 h⟩
  · rintro ⟨r, hr, h⟩
    exact ⟨l, hl, r, hr, ExecutionRow.admits_suspended.1 h⟩

theorem scheduled_suspend (fails : Failures) (s : Site) (executionId nodeId : String) (resumeAt : Instant) (snapshot : Json) :
    let out := s.performUnder fails (suspend executionId nodeId resumeAt snapshot).run
    Scheduled s out.2 (s.nextToken executionId nodeId resumeAt snapshot) out.1 := by
  intro out
  have hout : out = _ := s.performUnder_suspend fails executionId nodeId resumeAt snapshot
  generalize s.nextToken executionId nodeId resumeAt snapshot = token at hout ⊢
  rw [hout]
  obtain h | ⟨r, f, -, h⟩ :=
    Store.Transaction.perform_cases fails (.ofToken token) s.worker.clock.floorMillis s.database
  · rw [h]
    obtain ⟨l, ts, hl, hts, hm, -, h⟩ | ⟨l, hl, hm, h⟩ | ⟨f, h⟩ :=
      Store.Statement.execute_suspend_cases s.database (.ofToken token) s.worker.clock.floorMillis
    · rw [h]
      refine .written ⟨(runs_iff hl).2 hm, ⟨l, hl, ?_⟩, ⟨ts, hts, rfl⟩, rfl⟩
      refine congrArg some (List.map_congr_left fun r _ => if_congr ?_ rfl rfl)
      exact ExecutionRow.admits_suspended
    · rw [h]
      exact .refused (fun hr => by cases hm.symm.trans ((runs_iff hl).1 hr)) rfl
    · rw [h]
      exact .failed _ rfl
  · rw [h]
    exact .failed _ rfl

/-- Where nothing fails of its own accord, a running execution is suspended and any other one is not. -/
theorem scheduled_of_sound (h : ∀ r, fails r = none) {l : Executions} {ts : Tokens} (hl : s.database.executions = some l)
    (hts : s.database.tokens = some ts) {executionId nodeId : String} {resumeAt : Instant} {snapshot : Json}
    (hnew : ∀ row ∈ ts, row.id ≠ some (identifier (s.serial + 1))) :
    let out := s.performUnder fails (suspend executionId nodeId resumeAt snapshot).run
    (s.database.Runs executionId → out.1 = .ok (some (s.nextToken executionId nodeId resumeAt snapshot))) ∧
      (¬ s.database.Runs executionId → out.1 = .ok none) := by
  intro out
  have hout : out = _ := s.performUnder_suspend fails executionId nodeId resumeAt snapshot
  rw [Store.Transaction.perform_suspension h] at hout
  refine ⟨fun hr => ?_, fun hr => ?_⟩
  · rw [hout, Store.Statement.execute_suspend hl hts ((runs_iff hl).1 hr) hnew]
    rfl
  · rw [hout, Store.Statement.execute_suspend_refused hl (Bool.eq_false_iff.2 fun hm => hr ((runs_iff hl).2 hm))]
    rfl

/-! ### The walk that cannot suspend -/

theorem performUnder_failAt {l : Executions} (hl : s.database.executions = some l) (record : Record)
    (nodeId message : String) : s.performUnder fails (failAt record nodeId message).run =
      (.ok (.failed nodeId message), { s with database := { s.database with
        executions := some (l.advance record.id .failed s.worker.clock.floorMillis (some ⟨nodeId, message⟩)).2 } }) := by
  rw [performUnder_of_only (only_failAt record nodeId message (fun _ => rfl) fun _ _ => rfl) s, s.perform_failAt hl]

theorem performUnder_suspendAt {record : Record} {delay next : Step} {deadline : Instant} {context : Context}
    {e : EngineFault} {s' : Site}
    (h : s.performUnder fails (suspend record.id next.id deadline context.toJson).run = (.error e, s')) :
    s.performUnder fails (suspendAt record delay next deadline context).run =
      s'.performUnder fails (failAt record delay.id (SchedulingFault.persist e).message).run := by
  refine (congrArg (s.performUnder fails) (ExceptT.run_bind_lift _ _)).trans ?_
  rw [performUnder_bind, h]

end Host.Site

/-- In a pool a running execution has no token. -/
theorem Pool.Reachable.tokenless {p : Pool} (h : Pool.Reachable Operation p) {id : String} (hr : p.database.Runs id)
    {row : TokenRow} (hrow : row ∈ p.database.waiting) : row.executionId ≠ id := by
  rintro rfl
  obtain ⟨l, hl, r, hmem, hid, hstatus⟩ := hr
  obtain ⟨r', record, hget, hrecord, -, hsuspended⟩ := h.record_of_waiting hrow
  obtain ⟨states, o, -⟩ := h.covered
  rw [Database.records, hl] at hget
  have hd : l.Distinct := by
    have := o.distinct
    rwa [Database.records, hl] at this
  cases (Executions.get?_of_mem hd hmem hid).symm.trans hget
  obtain ⟨-, hname, -⟩ := ExecutionRow.record_ok hrecord
  rw [hsuspended, hstatus] at hname
  cases Status.name_injective hname

/-- However the statements of a suspension fail, for any execution, node, deadline and snapshot: it yields its token, and
then the execution went from running to suspended and that token was added; or nothing, if the execution is not running; or
a fault, and in the last two cases the database is as it was. A walk that meets such a fault fails the execution at its
delay, with the text of the fault, and writes no token, as far as the executions can be updated at all. -/
theorem suspending_is_all_or_nothing (fails : Failures) (s : Site) :
    (∀ executionId nodeId resumeAt snapshot,
      let token := s.nextToken executionId nodeId resumeAt snapshot
      let out := s.performUnder fails (suspend executionId nodeId resumeAt snapshot).run
      Site.Scheduled s out.2 token out.1 ∧
        ∀ l ts, (∀ r, fails r = none) → s.database.executions = some l → s.database.tokens = some ts →
          (∀ row ∈ ts, row.id ≠ some token.id) →
          (s.database.Runs executionId → out.1 = .ok (some token)) ∧ (¬ s.database.Runs executionId → out.1 = .ok none)) ∧
    ∀ record delay next deadline context fault l,
      (s.performUnder fails (suspend record.id next.id deadline context.toJson).run).1 = .error fault →
      s.database.executions = some l →
      let message := "could not persist continuation: " ++ fault.message
      let out := s.performUnder fails (suspendAt record delay next deadline context).run
      out.1 = .ok (.failed delay.id message) ∧
        out.2.database = { s.database with executions := some (l.map fun r => if r.admits record.id .failed then
          r.moved .failed s.worker.clock.floorMillis (some ⟨delay.id, message⟩) else r) } ∧
        (s.database.Runs record.id → ∃ r ∈ out.2.database.records, r.id = some record.id ∧
          r.status = Status.failed.name ∧ r.failedNodeId = some delay.id ∧ r.error = some message) ∧
        ∀ p, Pool.Reachable Operation p → p.database = s.database → s.database.Runs record.id →
          ∀ row ∈ out.2.database.waiting, row.executionId ≠ record.id := by
  refine ⟨fun executionId nodeId resumeAt snapshot => ⟨?_, fun l ts h hl hts hnew => ?_⟩, ?_⟩
  · exact Site.scheduled_suspend fails s executionId nodeId resumeAt snapshot
  · exact Site.scheduled_of_sound h hl hts hnew
  · intro record delay next deadline context fault l hfault hl message out
    have hs := Site.scheduled_suspend fails s record.id next.id deadline context.toJson
    generalize hrun : s.performUnder fails (suspend record.id next.id deadline context.toJson).run = scheduled at hs hfault
    obtain ⟨x, s'⟩ := scheduled
    obtain rfl : x = .error fault := hfault
    have hclock : s'.worker = s.worker := by
      have := congrArg (fun out => out.2.worker) hrun
      rw [Site.performUnder_suspend] at this
      exact this.symm
    cases hs with
    | failed _ same =>
      -- nothing was written, so the execution is failed in the tables as they were before
      have same : s'.database = s.database := same
      have hout : out = _ := (Site.performUnder_suspendAt hrun).trans
        (Site.performUnder_failAt (same ▸ hl) record delay.id message)
      rw [hclock, same] at hout
      rw [hout]
      refine ⟨rfl, rfl, ?_, fun p hp hdb hr row hrow => ?_⟩
      · rintro ⟨l', hl', r, hr, hid, hstatus⟩
        cases hl.symm.trans hl'
        have hadmits : r.admits record.id .failed = true :=
          ExecutionRow.admits_failed.2 ⟨hid, .running, by simp, hstatus⟩
        refine ⟨_, List.mem_map.2 ⟨r, hr, if_pos hadmits⟩, hid, rfl, rfl, rfl⟩
      · exact hp.tokenless (hdb ▸ hr) (hdb ▸ hrow)

namespace Sample

/-- No token can be written. -/
def tokenless : Failures
  | .insert _ => some (.noTable Store.tokensName)
  | _ => none

def delay : Step := ⟨"d", .delay ⟨1, .days⟩⟩

def after : Step := ⟨"g", .tagTarget ⟨"late"⟩⟩

end Sample

theorem suspending_fails_where_no_token_is_written :
    let s := Sample.worker .epoch Sample.running
    let out := s.performUnder Sample.tokenless
      (suspendAt Sample.record Sample.delay Sample.after .last (.ofChange "a" "b")).run
    out.1 = .ok (.failed "d" ("could not persist continuation: database error: error returned from database: " ++
      "(code: 1) no such table: continuation_tokens")) ∧
    ∃ r ∈ out.2.database.records, r.id = some "e" ∧ r.status = "failed" ∧ r.failedNodeId = some "d" := by
  intro s out
  have hfault : (s.performUnder Sample.tokenless (suspend "e" "g" .last (Context.ofChange "a" "b").toJson).run).1 =
      .error (.database (.noTable Store.tokensName)) := rfl
  obtain ⟨hresult, -, hrow, -⟩ := (suspending_is_all_or_nothing Sample.tokenless s).2 Sample.record Sample.delay Sample.after
    .last (.ofChange "a" "b") _ _ hfault rfl
  obtain ⟨r, hr, hid, hstatus, hnode, -⟩ := hrow ⟨_, rfl, _, List.mem_singleton_self _, rfl, rfl⟩
  exact ⟨hresult, r, hr, hid, hstatus, hnode⟩

end Lifecycle
