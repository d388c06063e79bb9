import Lifecycle.Program
import Lifecycle.Proofs.Store.Statements

/-!
# Suspensions, statement by statement

A suspension is a transaction of several statements, and what it changes lasts only once it is committed. Wherever it
fails, the database is as it was; and where it does not fail, it does what the suspension in one piece does.
-/

namespace Lifecycle.Store

namespace Transaction

/-- The statements of a suspension. -/
inductive Request where
  | begin
  | move (executionId : String) (now : Int)
  | insert (token : TokenRow)
  | rollback
  | commit
deriving DecidableEq, Repr

def Request.Value : Request → Type
  | move _ _ => Bool
  | begin | insert _ | rollback | commit => Unit

def interface : Interface := ⟨Request, fun r => Except Fault r.Value⟩

/-- A part of a transaction, which ends with the first fault. -/
abbrev Part (α : Type) := ExceptT Fault (Program interface) α

def statement (r : Request) : Part r.Value := Program.call (P := interface) r

/-- A running execution is moved to suspended and its token written; if it is not running, nothing is. -/
def suspension (token : TokenRow) (now : Int) : Part Bool := do
  statement .begin
  let moved : Bool ← statement (.move token.executionId now)
  if moved then
    statement (.insert token)
    statement .commit
    return true
  else
    statement .rollback
    return false

/-! ### Sessions -/

/-- A database in a transaction: what lasts of it, and what the transaction has made of it. -/
structure Session where
  lasting : Database
  working : Database

/-- What a statement yields, and the session after it. -/
def Request.effect : (r : Request) → Session → Except Fault (r.Value × Session)
  | begin, s => .ok ((), { s with working := s.lasting })
  | move id now, s => do
    let l ← present executionsName s.working.executions
    let (moved, l) := l.advance id .suspended now none
    return (moved, { s with working := { s.working with executions := some l } })
  | insert token, s => do
    let ts ← present tokensName s.working.tokens
    if ts.any (·.id == token.id) then .error (.duplicateId tokensName)
    return ((), { s with working := { s.working with tokens := some (ts ++ [token]) } })
  | rollback, s => .ok ((), { s with working := s.lasting })
  | commit, s => .ok ((), { s with lasting := s.working })

/-- The statements that fail whatever is in the tables, each with its fault. -/
abbrev Failures := Request → Option Fault

/-- The answer to a statement, and the session after it: the same one if the statement fails. -/
def answer (fails : Failures) (r : Request) (s : Session) : Except Fault r.Value × Session :=
  match fails r with
  | some f => (.error f, s)
  | none => match r.effect s with
    | .ok (v, after) => (.ok v, after)
    | .error f => (.error f, s)

/-- What a transaction yields, and the database that lasts after it: what was not committed is dropped. -/
def perform (fails : Failures) {α : Type} (p : Part α) (db : Database) : Except Fault α × Database :=
  let (x, s) := p.run.run (answer fails) ⟨db, db⟩
  (x, s.lasting)

section Effects

variable {s : Session}

theorem effect_move (h : s.working.executions = none) (id : String) (now : Int) :
    (Request.move id now).effect s = .error (.noTable executionsName) := by
  rw [Request.effect, h]
  rfl

theorem effect_move_some {l : Executions} (h : s.working.executions = some l) (id : String) (now : Int) :
    (Request.move id now).effect s = .ok ((l.advance id .suspended now none).1,
      { s with working := { s.working with executions := some (l.advance id .suspended now none).2 } }) := by
  rw [Request.effect, h]
  rfl

theorem effect_insert (h : s.working.tokens = none) (token : TokenRow) :
    (Request.insert token).effect s = .error (.noTable tokensName) := by
  rw [Request.effect, h]
  rfl

theorem effect_insert_some {ts : Tokens} (h : s.working.tokens = some ts) (token : TokenRow) :
    (Request.insert token).effect s = if ts.any (·.id == token.id) then .error (.duplicateId tokensName)
      else .ok ((), { s with working := { s.working with tokens := some (ts ++ [token]) } }) := by
  rw [Request.effect, h]
  show (if ts.any (·.id == token.id) = true then _ else _) = _
  split <;> rfl

end Effects

/-! ### What lasts -/

section Runs

variable {fails : Failures} {s after : Session} {α : Type} {r : Request}

/-- A statement fails of its own accord, fails of what is in the tables, or takes effect. -/
theorem answer_cases (fails : Failures) (r : Request) (s : Session) :
    (∃ f, fails r = some f ∧ answer fails r s = (.error f, s)) ∨
      (∃ f, r.effect s = .error f ∧ answer fails r s = (.error f, s)) ∨
      ∃ v after, r.effect s = .ok (v, after) ∧ answer fails r s = (.ok v, after) := by
  cases hf : fails r with
  | some f => exact .inl ⟨f, rfl, by unfold answer; rw [hf]⟩
  | none =>
    cases he : r.effect s with
    | error f =>
      refine .inr (.inl ⟨f, rfl, ?_⟩)
      unfold answer
      rw [hf]
      show (match r.effect s with | .ok (v, after) => _ | .error f => _) = _
      rw [he]
    | ok p =>
      refine .inr (.inr ⟨p.1, p.2, rfl, ?_⟩)
      unfold answer
      rw [hf]
      show (match r.effect s with | .ok (v, after) => _ | .error f => _) = _
      rw [he]

theorem run_statement {v : r.Value} (h : answer fails r s = (.ok v, after)) (f : r.Value → Part α) :
    (statement r >>= f).run.run (answer fails) s = (f v).run.run (answer fails) after := by
  show Program.run (answer fails) (ExceptT.bindCont f (answer fails r s).1) (answer fails r s).2 = _
  rw [h]
  rfl

theorem run_statement_error {e : Fault} (h : answer fails r s = (.error e, after)) (f : r.Value → Part α) :
    (statement r >>= f).run.run (answer fails) s = (.error e, after) := by
  show Program.run (answer fails) (ExceptT.bindCont f (answer fails r s).1) (answer fails r s).2 = _
  rw [h]
  rfl

end Runs

/-! ### All or nothing -/

section Suspension

variable {fails : Failures} {token : TokenRow} {now : Int} {db : Database}

/-- What the suspension in one piece does, or the fault of a statement that fails of its own accord. -/
def Ends (fails : Failures) (token : TokenRow) (now : Int) (db : Database) (x : Except Fault Bool × Session) : Prop :=
  (x.1, x.2.lasting) = (Statement.suspend token now).execute db ∨
    ∃ r f, fails r = some f ∧ (x.1, x.2.lasting) = (.error f, db)

/-- A statement that fails ends the transaction; one that takes effect is followed by the rest. -/
theorem ends_bind {r : Request} {s : Session} {f : r.Value → Part Bool} (hs : s.lasting = db)
    (error : ∀ e, r.effect s = .error e → (Statement.suspend token now).execute db = (.error e, db))
    (ok : ∀ v after, r.effect s = .ok (v, after) → Ends fails token now db ((f v).run.run (answer fails) after)) :
    Ends fails token now db ((statement r >>= f).run.run (answer fails) s) := by
  obtain ⟨e, hf, h⟩ | ⟨e, he, h⟩ | ⟨v, after, he, h⟩ := answer_cases fails r s
  · rw [run_statement_error h]
    exact .inr ⟨r, e, hf, congrArg _ hs⟩
  · rw [run_statement_error h]
    exact .inl ((congrArg _ hs).trans (error e he).symm)
  · rw [run_statement h]
    exact ok v after he

/-- The second half of a suspension, once the execution is moved. -/
theorem ends_insert {l : Executions} (hl : db.executions = some l)
    (hm : (l.advance token.executionId .suspended now none).1 = true) :
    Ends fails token now db ((do statement (.insert token); statement .commit; return true : Part Bool).run.run (answer fails)
      ⟨db, { db with executions := some (l.advance token.executionId .suspended now none).2 }⟩) := by
  obtain hts | ⟨ts, hts⟩ := Option.eq_none_or_eq_some db.tokens
  · refine ends_bind (r := .insert token) rfl (fun e he => ?_) fun _ s he => ?_ <;> rw [effect_insert hts] at he <;> cases he
    exact Statement.execute_suspend_homeless hl hts hm
  · refine ends_bind (r := .insert token) rfl (fun e he => ?_) fun _ s he => ?_ <;>
      rw [effect_insert_some hts] at he <;> split at he <;> cases he
    · exact Statement.execute_suspend_taken hl hts hm ‹_›
    · rename_i hnew
      refine ends_bind (r := .commit) rfl nofun fun _ s he => ?_
      cases he
      refine .inl (Statement.execute_suspend hl hts hm fun other ho hid => ?_).symm
      exact hnew (List.any_eq_true.2 ⟨other, ho, by simp [hid]⟩)

/-- However its statements fail, a suspension does what it does in one piece, or fails and changes nothing. -/
theorem ends_suspension (fails : Failures) (token : TokenRow) (now : Int) (db : Database) :
    Ends fails token now db ((suspension token now).run.run (answer fails) ⟨db, db⟩) := by
  refine ends_bind (r := .begin) rfl nofun fun _ s he => ?_
  cases he
  obtain hl | ⟨l, hl⟩ := Option.eq_none_or_eq_some db.executions
  · refine ends_bind (r := .move token.executionId now) rfl (fun e he => ?_) fun _ s he => ?_ <;>
      rw [effect_move hl] at he <;> cases he
    exact Statement.execute_suspend_nowhere hl token now
  · refine ends_bind (r := .move token.executionId now) rfl (fun e he => ?_) fun moved s he => ?_ <;>
      rw [effect_move_some hl] at he <;> cases he
    cases hm : (l.advance token.executionId .suspended now none).1 with
    | true => exact ends_insert hl hm
    | false =>
      refine ends_bind (r := .rollback) rfl nofun fun _ s he => ?_
      cases he
      exact .inl (Statement.execute_suspend_refused hl hm).symm

end Suspension

theorem perform_cases (fails : Failures) (token : TokenRow) (now : Int) (db : Database) :
    perform fails (suspension token now) db = (Statement.suspend token now).execute db ∨
      ∃ r f, fails r = some f ∧ perform fails (suspension token now) db = (.error f, db) :=
  ends_suspension fails token now db

/-- Where no statement fails of its own accord, the suspension is the one in one piece. -/
theorem perform_suspension {fails : Failures} (h : ∀ r, fails r = none) (token : TokenRow) (now : Int) (db : Database) :
    perform fails (suspension token now) db = (Statement.suspend token now).execute db := by
  obtain h' | ⟨r, f, hf, -⟩ := perform_cases fails token now db
  · exact h'
  · cases (h r).symm.trans hf

end Transaction

end Lifecycle.Store
