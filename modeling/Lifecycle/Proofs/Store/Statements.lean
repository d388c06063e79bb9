import Lifecycle.Store.Statement

/-!
# Statements on tables that are there

What a statement yields and what it leaves, once its tables are in the database; and what a suspension yields where one is
missing.
-/

namespace Lifecycle.Store.Statement

variable {db : Database}

/-- A statement that takes effect yields a value and leaves a database. -/
theorem execute_of_apply {q : Statement} {v : q.Value} {after : Database} (h : q.apply db = .ok (v, after)) :
    q.execute db = (.ok v, after) := by
  unfold execute
  rw [h]

/-! ### Executions -/

theorem execute_insertExecution {l : Executions} (h : db.executions = some l) (row : ExecutionRow) :
    (insertExecution row).execute db = (.ok (l.insert row).1, { db with executions := some (l.insert row).2 }) :=
  execute_of_apply (by rw [apply, h]; rfl)

theorem execute_owner {l : Executions} (h : db.executions = some l) (key : Key) :
    (owner key).execute db = (((l.owner? key).elim (.error .noRow) .ok : Except Fault ExecutionRow), db) := by
  unfold execute
  simp only [apply, h, present, bind, Except.bind]
  cases l.owner? key <;> rfl

theorem execute_advance {l : Executions} (h : db.executions = some l) (id : String) (next : Status) (now : Int)
    (failure : Option Failure) : (advance id next now failure).execute db =
      (.ok (l.advance id next now failure).1, { db with executions := some (l.advance id next now failure).2 }) :=
  execute_of_apply (by rw [apply, h]; rfl)

theorem execute_execution {l : Executions} (h : db.executions = some l) (id : String) :
    (execution id).execute db = (.ok (l.get? id), db) :=
  execute_of_apply (by rw [apply, h]; rfl)

theorem execute_executionsOf {l : Executions} (h : db.executions = some l) (type id : String) :
    (executionsOf type id).execute db = (.ok (l.ofTarget type id), db) :=
  execute_of_apply (by rw [apply, h]; rfl)

/-! ### Definitions -/

theorem execute_definition {ds : Definitions} (h : db.definitions = some ds) (id : String) :
    (definition id).execute db = (.ok (ds.get? id), db) :=
  execute_of_apply (by rw [apply, h]; rfl)

theorem execute_definitions {ds : Definitions} (h : db.definitions = some ds) :
    definitions.execute db = (.ok ds, db) :=
  execute_of_apply (by rw [apply, h]; rfl)

theorem execute_saveDefinition {ds : Definitions} (h : db.definitions = some ds) (row : DefinitionRow) :
    (saveDefinition row).execute db = (.ok (), { db with definitions := some (ds.save row) }) :=
  execute_of_apply (by rw [apply, h]; rfl)

theorem execute_deleteDefinition {ds : Definitions} (h : db.definitions = some ds) (id : String) :
    (deleteDefinition id).execute db = (.ok (ds.delete id).1, { db with definitions := some (ds.delete id).2 }) :=
  execute_of_apply (by rw [apply, h]; rfl)

/-! ### Tokens -/

theorem execute_claim {ts : Tokens} (h : db.tokens = some ts) (id : String) :
    (claim id).execute db = (.ok (ts.claim id).1, { db with tokens := some (ts.claim id).2 }) :=
  execute_of_apply (by rw [apply, h]; rfl)

theorem execute_due {ts : Tokens} (h : db.tokens = some ts) (now : Int) (limit : Nat) :
    (due now limit).execute db = (.ok (ts.due now limit), db) :=
  execute_of_apply (by rw [apply, h]; rfl)

theorem execute_tokensOf {ts : Tokens} (h : db.tokens = some ts) (id : String) :
    (tokensOf id).execute db = (.ok (ts.ofExecution id), db) :=
  execute_of_apply (by rw [apply, h]; rfl)

theorem execute_suspend {l : Executions} {ts : Tokens} (hl : db.executions = some l) (hts : db.tokens = some ts)
    {row : TokenRow} {now : Int} (hm : (l.advance row.executionId .suspended now none).1 = true)
    (hnew : ∀ other ∈ ts, other.id ≠ row.id) : (suspend row now).execute db =
      (.ok true, { db with
        executions := some (l.advance row.executionId .suspended now none).2, tokens := some (ts ++ [row]) }) := by
  have hany : ¬ ts.any (·.id == row.id) = true := by
    rw [List.any_eq_true]
    rintro ⟨other, ho, he⟩
    exact hnew other ho (by simpa using he)
  refine execute_of_apply ?_
  show db.suspend row now = _
  unfold Database.suspend
  simp only [hl, hts, present]
  show (if (!(l.advance row.executionId .suspended now none).1) = true then _ else _) = _
  rw [hm]
  show (if ts.any (·.id == row.id) = true then _ else _) = _
  rw [if_neg hany]
  rfl

theorem execute_suspend_refused {l : Executions} (hl : db.executions = some l) {row : TokenRow} {now : Int}
    (hm : (l.advance row.executionId .suspended now none).1 = false) : (suspend row now).execute db = (.ok false, db) := by
  refine execute_of_apply ?_
  show db.suspend row now = _
  unfold Database.suspend
  simp only [hl, present]
  show (if (!(l.advance row.executionId .suspended now none).1) = true then _ else _) = _
  rw [hm]
  rfl

theorem execute_suspend_nowhere (hl : db.executions = none) (row : TokenRow) (now : Int) :
    (suspend row now).execute db = (.error (.noTable executionsName), db) := by
  have happly : (suspend row now).apply db = .error (.noTable executionsName) := by
    show db.suspend row now = _
    unfold Database.suspend
    rw [hl]
    rfl
  unfold execute
  rw [happly]

theorem execute_suspend_homeless {l : Executions} (hl : db.executions = some l) (hts : db.tokens = none) {row : TokenRow}
    {now : Int} (hm : (l.advance row.executionId .suspended now none).1 = true) :
    (suspend row now).execute db = (.error (.noTable tokensName), db) := by
  have happly : (suspend row now).apply db = .error (.noTable tokensName) := by
    show db.suspend row now = _
    unfold Database.suspend
    simp only [hl, hts, present]
    show (if (!(l.advance row.executionId .suspended now none).1) = true then _ else _) = _
    rw [hm]
    rfl
  unfold execute
  rw [happly]

theorem execute_suspend_taken {l : Executions} {ts : Tokens} (hl : db.executions = some l) (hts : db.tokens = some ts)
    {row : TokenRow} {now : Int} (hm : (l.advance row.executionId .suspended now none).1 = true)
    (taken : ts.any (·.id == row.id) = true) : (suspend row now).execute db = (.error (.duplicateId tokensName), db) := by
  have happly : (suspend row now).apply db = .error (.duplicateId tokensName) := by
    show db.suspend row now = _
    unfold Database.suspend
    simp only [hl, hts, present]
    show (if (!(l.advance row.executionId .suspended now none).1) = true then _ else _) = _
    rw [hm]
    show (if ts.any (·.id == row.id) = true then _ else _) = _
    rw [if_pos taken]
    rfl
  unfold execute
  rw [happly]

/-- A suspension moves the execution and writes the token, finds that the execution does not run, or fails. -/
theorem execute_suspend_cases (db : Database) (row : TokenRow) (now : Int) :
    (∃ l ts, db.executions = some l ∧ db.tokens = some ts ∧ (l.advance row.executionId .suspended now none).1 = true ∧
        (∀ other ∈ ts, other.id ≠ row.id) ∧ (suspend row now).execute db = (.ok true, { db with
          executions := some (l.advance row.executionId .suspended now none).2, tokens := some (ts ++ [row]) })) ∨
      (∃ l, db.executions = some l ∧ (l.advance row.executionId .suspended now none).1 = false ∧
        (suspend row now).execute db = (.ok false, db)) ∨
      ∃ f, (suspend row now).execute db = (.error f, db) := by
  obtain hl | ⟨l, hl⟩ := Option.eq_none_or_eq_some db.executions
  · exact .inr (.inr ⟨_, execute_suspend_nowhere hl row now⟩)
  cases hm : (l.advance row.executionId .suspended now none).1 with
  | false => exact .inr (.inl ⟨l, hl, hm, execute_suspend_refused hl hm⟩)
  | true =>
    obtain hts | ⟨ts, hts⟩ := Option.eq_none_or_eq_some db.tokens
    · exact .inr (.inr ⟨_, execute_suspend_homeless hl hts hm⟩)
    cases htaken : ts.any (·.id == row.id) with
    | true => exact .inr (.inr ⟨_, execute_suspend_taken hl hts hm htaken⟩)
    | false =>
      have hnew : ∀ other ∈ ts, other.id ≠ row.id := fun other ho hid =>
        List.any_eq_false.1 htaken other ho (by simp [hid])
      exact .inl ⟨l, ts, hl, hts, hm, hnew, execute_suspend hl hts hm hnew⟩

end Lifecycle.Store.Statement
