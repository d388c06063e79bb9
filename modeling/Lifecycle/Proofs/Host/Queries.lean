import Lifecycle.Proofs.Host.Steady
import Lifecycle.Proofs.Store.Statements
import Lifecycle.Web.Reply
import Mathlib.Tactic.Choose

/-!
# What a site reads

The queries of a site: the records and the tokens of the tables, as far as their rows can be read.
-/

namespace Lifecycle

open Engine (Attempt Request readRow)
open Store (ExecutionRow TokenRow Tokens)

/-- The clock and the rows of executions and tokens are only read. -/
def Engine.Request.Query : Request → Prop
  | .now | .statement (.execution _) | .statement (.due _ _) | .statement (.tokensOf _) => True
  | _ => False

/-! ### Reading rows -/

theorem Engine.mapM_readRow {ρ α : Type} {read : ρ → Except Store.RowFault α} {rows : List ρ} {f : ρ → α}
    (h : ∀ row ∈ rows, read row = .ok (f row)) :
    (rows.mapM fun row => readRow (read row)) = (pure (rows.map f) : Attempt (List α)) := by
  induction rows with
  | nil => rfl
  | cons row rows ih =>
    rw [List.mapM_cons, h row List.mem_cons_self, ih fun r hr => h r (List.mem_cons_of_mem row hr)]
    rfl

theorem Engine.mapM_readRow_corrupt {row : TokenRow} {rows : List TokenRow} {c : Store.Corruption}
    (h : row.token = .error (.corrupt c)) :
    ((row :: rows).mapM fun row => readRow row.token) = (throw (.corrupt c.message) : Attempt (List Token)) := by
  rw [List.mapM_cons, h]
  rfl

namespace Host.Site

variable (s : Site)

theorem perform_bind {α β : Type} (p : Engine.Job α) (f : α → Engine.Job β) :
    s.perform (p >>= f) = (s.perform p).2.perform (f (s.perform p).1) :=
  Program.run_bind (P := Engine.interface) answer p f s

/-- What follows a job that may fail is done if it does not. -/
theorem perform_attempt {ε α β : Type} (p : ExceptT ε Engine.Job α) (f : α → ExceptT ε Engine.Job β) :
    s.perform (p >>= f).run = match s.perform p.run with
      | (.ok a, s') => s'.perform (f a).run
      | (.error e, s') => (.error e, s') := by
  refine (s.perform_bind p.run (ExceptT.bindCont f)).trans ?_
  match s.perform p.run with
  | (.ok a, s') => rfl
  | (.error e, s') => rfl

theorem perform_attempt_ok {ε α β : Type} {p : ExceptT ε Engine.Job α} {a : α} {s' : Site}
    (h : s.perform p.run = (.ok a, s')) (f : α → ExceptT ε Engine.Job β) :
    s.perform (p >>= f).run = s'.perform (f a).run := by
  rw [perform_attempt, h]

theorem perform_attempt_error {ε α β : Type} {p : ExceptT ε Engine.Job α} {e : ε} {s' : Site}
    (h : s.perform p.run = (.error e, s')) (f : α → ExceptT ε Engine.Job β) :
    s.perform (p >>= f).run = (.error e, s') := by
  rw [perform_attempt, h]

/-- A job goes on with the answer to its first request. -/
theorem perform_ask {α : Type} {r : Engine.Request} {next : r.Answer → Engine.Job α} {x : r.Answer} {s' : Site}
    (h : answer r s = (x, s')) : s.perform (.ask r next) = s'.perform (next x) := by
  show (answer r s).2.perform (next (answer r s).1) = _
  rw [h]

theorem answer_statement {q : Store.Statement} {v : q.Value} {db : Store.Database}
    (h : q.execute s.database = (.ok v, db)) : answer (.statement q) s = (.ok v, { s with database := db }) := by
  show ((q.execute s.database).1, { s with database := (q.execute s.database).2 }) = _
  rw [h]
  rfl

theorem answer_statement_error {q : Store.Statement} {f : Store.Fault} {db : Store.Database}
    (h : q.execute s.database = (.error f, db)) : answer (.statement q) s = (.error f, { s with database := db }) := by
  show ((q.execute s.database).1, { s with database := (q.execute s.database).2 }) = _
  rw [h]
  rfl

/-- What follows a statement is done with its value, on the database after it. -/
theorem perform_statement {q : Store.Statement} {v : q.Value} {db : Store.Database} (h : q.execute s.database = (.ok v, db))
    {α : Type} (f : q.Value → Attempt α) :
    s.perform (Engine.run q >>= f).run = ({ s with database := db } : Site).perform (f v).run :=
  s.perform_ask (s.answer_statement h)

theorem perform_statement_error {q : Store.Statement} {f : Store.Fault} {db : Store.Database}
    (h : q.execute s.database = (.error f, db)) {α : Type} (g : q.Value → Attempt α) :
    s.perform (Engine.run q >>= g).run = (.error (.database f), { s with database := db }) :=
  s.perform_ask (s.answer_statement_error h)

/-- A query that yields a value leaves the site as it is. -/
theorem perform_run {q : Store.Statement} {v : q.Value} (h : q.execute s.database = (.ok v, s.database)) {α : Type}
    (f : q.Value → Attempt α) : s.perform (Engine.run q >>= f).run = s.perform (f v).run :=
  s.perform_statement h f

theorem answer_query {r : Request} (hr : r.Query) : (answer r s).2 = s := by
  obtain ⟨⟨executions, tokens, definitions, templates, hostTables⟩, serial, worker⟩ := s
  cases r with
  | now => rfl
  | statement q =>
    cases q with
    | execution id => cases executions <;> rfl
    | due now limit => cases tokens <;> rfl
    | tokensOf id => cases tokens <;> rfl
    | _ => exact hr.elim
  | _ => exact hr.elim

/-- A job of queries leaves the site as it is. -/
theorem perform_queries {α : Type} {p : Engine.Job α} (hp : p.Only Request.Query) : (s.perform p).2 = s :=
  (Steady.of_same fun s => s).perform (fun s _ hr => s.answer_query hr) hp s

theorem perform_tokensOf {ts : Tokens} (h : s.database.tokens = some ts) (id : String) :
    s.perform (Engine.tokensOf id).run = s.perform ((ts.ofExecution id).mapM fun row => readRow row.token).run :=
  s.perform_run (Store.Statement.execute_tokensOf h id) _

theorem perform_dueTokens {ts : Tokens} (h : s.database.tokens = some ts) (limit : Nat) :
    s.perform (Engine.dueTokens limit).run =
      s.perform ((ts.due s.worker.clock.floorMillis limit).mapM fun row => readRow row.token).run := by
  show s.perform (Engine.run (.due s.worker.clock.floorMillis limit) >>= fun rows => _).run = _
  exact s.perform_run (Store.Statement.execute_due h _ limit) _

/-- Where whatever is due can be read, looking for tokens yields all of it up to the limit. -/
theorem perform_dueTokens_ok {ts : Tokens} (h : s.database.tokens = some ts) (limit : Nat)
    (readable : ∀ row ∈ ts.due s.worker.clock.floorMillis limit, ∃ token, row.token = .ok token) :
    ∃ read : TokenRow → Token,
      (s.perform (Engine.dueTokens limit).run).1 = .ok ((ts.due s.worker.clock.floorMillis limit).map read) ∧
        ∀ row ∈ ts.due s.worker.clock.floorMillis limit, row.token = .ok (read row) := by
  have : Nonempty Token := ⟨⟨"", "", "", .epoch, .null, .epoch⟩⟩
  choose! read hread using readable
  refine ⟨read, ?_, hread⟩
  rw [perform_dueTokens s h, Engine.mapM_readRow hread]
  rfl

theorem perform_getRecord {l : Store.Executions} (h : s.database.executions = some l) {id : String} {row : ExecutionRow}
    {record : Record} (hrow : l.get? id = some row) (hr : row.record = .ok record) :
    s.perform (Engine.getRecord id).run = (.ok (some record), s) := by
  have hx := Store.Statement.execute_execution h id
  rw [hrow] at hx
  refine (s.perform_run hx _).trans ?_
  show s.perform (readRow row.record >>= fun r => pure (some r)).run = _
  rw [hr]
  rfl

theorem perform_getRecord_none {l : Store.Executions} (h : s.database.executions = some l) {id : String}
    (hrow : l.get? id = none) : s.perform (Engine.getRecord id).run = (.ok none, s) := by
  have hx := Store.Statement.execute_execution h id
  rw [hrow] at hx
  exact s.perform_run hx _

/-- Where all rows of a target can be read, its records are those of the rows. -/
theorem perform_recordsOf {l : Store.Executions} (h : s.database.executions = some l) (target : Target)
    {read : ExecutionRow → Record} (readable : ∀ row ∈ l.ofTarget target.type.name target.id, row.record = .ok (read row)) :
    s.perform (Engine.recordsOf target).run = (.ok ((l.ofTarget target.type.name target.id).map read), s) := by
  refine (s.perform_run (Store.Statement.execute_executionsOf h target.type.name target.id) _).trans ?_
  rw [Engine.mapM_readRow readable]
  rfl

/-- A move answers whether the status of the execution admits it, and makes it if so. -/
theorem perform_move {l : Store.Executions} (h : s.database.executions = some l) (id : String) (next : Status)
    (failure : Option Store.Failure) : s.perform (Engine.move id next failure).run =
      (.ok (l.advance id next s.worker.clock.floorMillis failure).1, { s with database := { s.database with
        executions := some (l.advance id next s.worker.clock.floorMillis failure).2 } }) := by
  have hrun : s.perform (Engine.move id next failure).run =
      ((s.execute (.advance id next s.worker.clock.floorMillis failure)).1.mapError EngineFault.database,
        (s.execute (.advance id next s.worker.clock.floorMillis failure)).2) := rfl
  rw [hrun]
  unfold execute
  rw [Store.Statement.execute_advance h]
  rfl

theorem perform_failAt {l : Store.Executions} (h : s.database.executions = some l) (record : Record) (nodeId message : String) :
    s.perform (Engine.failAt record nodeId message).run = (.ok (.failed nodeId message), { s with database := { s.database with
      executions := some (l.advance record.id .failed s.worker.clock.floorMillis (some ⟨nodeId, message⟩)).2 } }) :=
  s.perform_attempt_ok (s.perform_move h record.id .failed (some ⟨nodeId, message⟩)) _

/-! ### The page of an execution -/

/-- The page of an execution shows its record and its tokens. -/
theorem perform_showExecution {id : String} {record : Record} {tokens : List Token}
    (hr : s.perform (Engine.getRecord id).run = (.ok (some record), s))
    (ht : s.perform (Engine.tokensOf id).run = (.ok tokens, s)) :
    (s.perform (Web.showExecution id)).1 =
      Web.ok (.object [("execution", record.toJson), ("continuations", .arr (tokens.map Token.toJson))]) := by
  unfold Web.showExecution
  rw [perform_bind, hr]
  show (s.perform ((Engine.tokensOf id).run >>= _)).1 = _
  rw [perform_bind, ht]
  rfl

theorem perform_showExecution_error {id : String} {record : Record} {e : EngineFault}
    (hr : s.perform (Engine.getRecord id).run = (.ok (some record), s))
    (ht : s.perform (Engine.tokensOf id).run = (.error e, s)) :
    (s.perform (Web.showExecution id)).1 = Web.broken "Failed to load continuations" := by
  unfold Web.showExecution
  rw [perform_bind, hr]
  show (s.perform ((Engine.tokensOf id).run >>= _)).1 = _
  rw [perform_bind, ht]
  rfl

end Host.Site

end Lifecycle
