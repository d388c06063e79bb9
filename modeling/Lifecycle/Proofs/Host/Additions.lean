import Lifecycle.Proofs.Engine.Operations
import Lifecycle.Proofs.Host.Site
import Lifecycle.Proofs.Store.Statements
import Lifecycle.Proofs.Store.Tokens

/-!
# What jobs add to the tokens

Whoever fails executions while a node is visited, no visit touches a token or an execution that is suspended. So a job that
claims nothing leaves the tokens that there are, and adds those that its suspensions write.
-/

namespace Lifecycle

open Engine
open Host (Site Worker Source)
open Program (Only)
open Store (Database ExecutionRow TokenRow Executions Tokens)

namespace Store

theorem Executions.get?_map {f : ExecutionRow → ExecutionRow} (hf : ∀ r, (f r).id = r.id) (l : Executions) (id : String) :
    Executions.get? (l.map f) id = (l.get? id).map f := by
  unfold get?
  rw [List.find?_map]
  simp only [Function.comp_def, hf]

namespace Database

variable {db after : Database} {id : String} {row : ExecutionRow}

/-- The row of an execution that is suspended. -/
def suspended? (db : Database) (id : String) : Option ExecutionRow :=
  (db.records.get? id).filter (·.status == Status.suspended.name)

theorem suspended?_eq_some :
    db.suspended? id = some row ↔ db.records.get? id = some row ∧ row.status = Status.suspended.name := by
  unfold suspended?
  rw [Option.filter_eq_some_iff, beq_iff_eq]

/-- Rows that change are not those of the suspended execution, before or after. -/
theorem suspended?_of_map {f : ExecutionRow → ExecutionRow} (h : after.records = db.records.map f)
    (ids : ∀ r, (f r).id = r.id) (rest : ∀ r, r.id = some id → f r = r ∨
      r.status ≠ Status.suspended.name ∧ (f r).status ≠ Status.suspended.name) : after.suspended? id = db.suspended? id := by
  unfold suspended?
  rw [h, Executions.get?_map ids]
  cases hr : db.records.get? id with
  | none => rfl
  | some r =>
    rw [Option.map_some]
    rcases rest r (Executions.mem_of_get? hr).2 with he | ⟨hne, hne'⟩
    · rw [he]
    · rw [Option.filter_some, Option.filter_some, if_neg (by simpa using hne'), if_neg (by simpa using hne)]

end Database

end Store

namespace Host.Site

/-! ### Visits -/

/-- The clock, the tokens and the executions that are suspended are the same. -/
structure Rests (s s' : Site) : Prop where
  clock : s'.worker.clock = s.worker.clock
  tokens : s'.database.tokens = s.database.tokens
  suspended : ∀ id, s'.database.suspended? id = s.database.suspended? id

variable {s s' s'' : Site}

theorem Rests.refl (s : Site) : s.Rests s := ⟨rfl, rfl, fun _ => rfl⟩

theorem Rests.trans (h : s.Rests s') (g : s'.Rests s'') : s.Rests s'' :=
  ⟨g.clock.trans h.clock, g.tokens.trans h.tokens, fun id => (g.suspended id).trans (h.suspended id)⟩

theorem Rests.of_kept (h : s.Kept s') (clock : s'.worker.clock = s.worker.clock) : s.Rests s' := by
  refine ⟨clock, h.database.1.2, fun id => ?_⟩
  unfold Database.suspended? Database.records
  rw [h.database.1.1]

theorem rests_call (s : Site) (type : TargetType) (c : Target.Call) : s.Rests (s.call type c).2 :=
  .of_kept (s.kept_call type c) (s.clock_call type c)

theorem rests_deliver (s : Site) (m : Mail.Message) : s.Rests (s.deliver m).2 := by
  refine .of_kept (s.kept_deliver m) ?_
  unfold deliver
  dsimp only
  split <;> rfl

/-- Whoever fails the running executions leaves the suspended ones alone. -/
theorem rests_interfere (s : Site) : s.Rests s.interfere := by
  refine ⟨rfl, rfl, fun id => ?_⟩
  refine Database.suspended?_of_map (f := fun r => if r.status == Status.running.name then
    r.moved .failed s.worker.clock.floorMillis (some ⟨"hook", "failed elsewhere"⟩) else r) ?_ (fun r => ?_) fun r _ => ?_
  · unfold Database.records interfere
    cases s.database.executions <;> rfl
  · split <;> rfl
  · split
    · rename_i hrunning
      rw [beq_iff_eq.1 hrunning]
      exact .inr ⟨by decide, (by decide : Status.failed.name ≠ Status.suspended.name)⟩
    · exact .inl rfl

theorem rests_before (s : Site) (r : Handling.Request) : s.Rests (s.before r) := by
  cases r <;> exact ⟨rfl, rfl, fun _ => rfl⟩

theorem rests_after (s : Site) (r : Handling.Request) : s.Rests (after r s).2 := by
  cases r with
  | now => exact .refl s
  | target type c => exact s.rests_call type c
  | template id => exact .refl s
  | deliver m =>
    show s.Rests ((if s.worker.mailer.interferes then s.interfere else s).deliver m).2
    split
    · exact s.rests_interfere.trans (rests_deliver _ m)
    · exact s.rests_deliver m
  | send r => exact .refl s

theorem rests_visit (s : Site) (v : Visit) : s.Rests (s.visit v).2 :=
  Steady.visit ⟨Rests.refl, Rests.trans⟩ (fun s r _ => s.rests_before r) (fun s r _ => s.rests_after r) (Program.only_true _)

/-! ### New tokens -/

/-- Nothing is claimed, and what is written to the tokens has the property. -/
def Adding (P : TokenRow → Prop) : Request → Prop
  | .statement (.suspend row _) => P row
  | .statement (.claim _) => False
  | _ => True

/-- The tokens that there were are there, with new ones that have the property. -/
structure Gains (P : TokenRow → Prop) (s s' : Site) : Prop where
  clock : s'.worker.clock = s.worker.clock
  table : s.database.tokens.isSome = true → s'.database.tokens.isSome = true
  waiting : ∃ added, s'.database.waiting = s.database.waiting ++ added ∧ ∀ row ∈ added, P row
  distinct : s.database.waiting.Distinct → s'.database.waiting.Distinct

variable {P : TokenRow → Prop}

theorem Gains.of_tokens (h : s'.database.tokens = s.database.tokens) (clock : s'.worker.clock = s.worker.clock) :
    s.Gains P s' := by
  have hw : s'.database.waiting = s.database.waiting := by
    unfold Database.waiting
    rw [h]
  exact ⟨clock, fun ht => h ▸ ht, ⟨[], by rw [hw, List.append_nil], by simp⟩, fun hd => hw ▸ hd⟩

theorem Gains.refl (s : Site) : s.Gains P s := .of_tokens rfl rfl

theorem Gains.trans (h : s.Gains P s') (g : s'.Gains P s'') : s.Gains P s'' := by
  obtain ⟨added, hw, hp⟩ := h.waiting
  obtain ⟨added', hw', hp'⟩ := g.waiting
  refine ⟨g.clock.trans h.clock, g.table ∘ h.table, ⟨added ++ added', ?_, ?_⟩, g.distinct ∘ h.distinct⟩
  · rw [hw', hw, List.append_assoc]
  · exact List.forall_mem_append.2 ⟨hp, hp'⟩

theorem gains_statement {q : Store.Statement} (hq : Adding P (.statement q)) (s : Site) : s.Gains P (s.execute q).2 := by
  have hx : Answers [] s.database (.statement q) (s.execute q).1 (s.execute q).2.database := .inl rfl
  have same (hw : (s.execute q).2.database.waiting = s.database.waiting) : s.Gains P (s.execute q).2 :=
    ⟨rfl, hx.tables.2, ⟨[], by rw [hw, List.append_nil], by simp⟩, fun hd => hw ▸ hd⟩
  cases q with
  | suspend row now =>
    obtain ⟨l, ts, hl, hts, hm, hnew, h⟩ | ⟨l, hl, hm, h⟩ | ⟨f, h⟩ :=
      Store.Statement.execute_suspend_cases s.database row now
    · have hts' : s.database.waiting = ts := by
        unfold Database.waiting
        rw [hts, Option.getD_some]
      have hw : (s.execute (.suspend row now)).2.database.waiting = s.database.waiting ++ [row] := by
        rw [hts']
        exact congrArg (·.2.waiting) h
      refine ⟨rfl, hx.tables.2, ⟨[row], hw, List.forall_mem_singleton.2 hq⟩, fun hd => ?_⟩
      rw [hw]
      refine List.pairwise_append.2 ⟨hd, List.pairwise_singleton _ _, fun a ha b hb => ?_⟩
      rw [List.mem_singleton.1 hb]
      exact hnew a (hts' ▸ ha)
    · exact same (congrArg (·.2.waiting) h)
    · exact same (congrArg (·.2.waiting) h)
  | claim id => exact hq.elim
  | insertExecution row =>
    rcases hx.insertExecution with ⟨-, -, hw⟩ | ⟨-, h⟩
    · exact same hw
    · exact same (congrArg (·.waiting) h)
  | advance id next now failure =>
    rcases hx.advance with ⟨-, -, hw⟩ | ⟨-, h⟩
    · exact same hw
    · exact same (congrArg (·.waiting) h)
  | _ => exact same (Answers.unchanged (by trivial) hx).waiting

theorem gains_answer {r : Request} (hr : Adding P r) (s : Site) : s.Gains P (answer r s).2 := by
  cases r with
  | statement q => exact gains_statement hr s
  | target type c => exact .of_tokens (s.rests_call type c).tokens (s.clock_call type c)
  | visit v => exact .of_tokens (s.rests_visit v).tokens (s.rests_visit v).clock
  | _ => exact .of_tokens rfl rfl

theorem gains_of_only {α : Type} {p : Job α} (hp : p.Only (Adding P)) (s : Site) : s.Gains P (s.perform p).2 :=
  Steady.perform ⟨Gains.refl, Gains.trans⟩ (fun s _ hr => gains_answer hr s) hp s

end Host.Site

end Lifecycle
