import Lifecycle.Proofs.Concurrent.Walking
import Lifecycle.Proofs.Store.Forward

/-!
# Executions that run only once

Whoever starts executions, and whatever else is done to them: of those that run only once there is one on record for each
key, the first one that was inserted. It is started once; later starts are given it as it is then, and change nothing.
Executions that may run again are always new.
-/

namespace Lifecycle

open Engine
open Program (Leaves)
open Store (Database Executions ExecutionRow Key)

/-! ### Rows over time -/

/-- The row that was put on record. -/
def Entry.opened? (e : Entry) : Option ExecutionRow :=
  match e.reply with
  | ⟨.statement (.insertExecution row), .ok true⟩ => some row
  | _ => none

/-- The rows on record are those that were inserted, as they have become. -/
structure Recorded (s : Pool) : Prop where
  distinct : s.database.records.Distinct
  once : s.database.records.Once
  readable : ∀ r ∈ s.database.records, r.Readable
  opened : ∀ r ∈ s.database.records, ∃ e ∈ s.history, ∃ row, e.opened? = some row ∧ row.Continues r
  kept : ∀ e ∈ s.history, ∀ row, e.opened? = some row → ∃ r ∈ s.database.records, row.Continues r
  started : ∀ e ∈ s.history, ∀ id, e.reply.Starts id →
    (∃ r ∈ s.database.records, r.id = some id) ∧ ∀ r ∈ s.database.records, r.id = some id → r.status ≠ Status.pending.name

namespace Recorded

variable {s : Pool} {k : Nat} {r : Request} {x : r.Answer} {after : Database} {rest : Job Unit}

/-- An answer that leaves the records alone. -/
theorem still (i : Recorded s) (hr : after.records = s.database.records)
    (opened : Entry.opened? ⟨k, ⟨r, x⟩, s.database, after⟩ = none) (starts : ∀ id, ¬ Reply.Starts id ⟨r, x⟩) :
    Recorded (s.answered k ⟨r, x⟩ after rest) := by
  refine ⟨hr ▸ i.distinct, hr ▸ i.once, fun row hrow => ?_, fun row hrow => ?_, fun e he row hrow => ?_,
    fun e he id hs => ?_⟩
  · exact i.readable row (hr ▸ hrow)
  · obtain ⟨e, he, h⟩ := i.opened row (hr ▸ hrow)
    exact ⟨e, List.mem_append_left _ he, h⟩
  · rcases List.mem_append.1 he with he | he
    · exact hr ▸ i.kept e he row hrow
    · rw [List.mem_singleton.1 he, opened] at hrow
      cases hrow
  · rcases List.mem_append.1 he with he | he
    · exact hr ▸ i.started e he id hs
    · rw [List.mem_singleton.1 he] at hs
      exact absurd hs (starts id)

/-- A new row. -/
theorem inserted {new : Record} (i : Recorded s)
    (hx : Answers s.identifiers s.database (.statement (.insertExecution (.ofRecord new))) (.ok true) after) :
    Recorded (s.answered k ⟨.statement (.insertExecution (.ofRecord new)), .ok true⟩ after rest) := by
  obtain ⟨hi, hr⟩ := hx.insert_of_ok
  have hid : (ExecutionRow.ofRecord new).id = some new.id := rfl
  have fresh := Executions.id_ne_of_insert hi hid
  have mem {row : ExecutionRow} : row ∈ after.records ↔ row ∈ s.database.records ∨ row = .ofRecord new := by
    rw [hr, Executions.insert_snd hi, List.mem_append, List.mem_singleton]
  refine ⟨?_, ?_, fun row hrow => ?_, fun row hrow => ?_, fun e he row hrow => ?_, fun e he id hs => ?_⟩
  · show after.records.Distinct
    exact hr ▸ Executions.distinct_insert i.distinct rfl
  · show after.records.Once
    exact hr ▸ Executions.once_insert i.once
  · rcases mem.1 hrow with h | rfl
    · exact i.readable row h
    · exact Store.readable_ofRecord new
  · rcases mem.1 hrow with h | rfl
    · obtain ⟨e, he, h⟩ := i.opened row h
      exact ⟨e, List.mem_append_left _ he, h⟩
    · exact ⟨_, List.mem_append_right _ (List.mem_singleton_self _), _, rfl, .refl _⟩
  · rcases List.mem_append.1 he with he | he
    · obtain ⟨r, h, hc⟩ := i.kept e he row hrow
      exact ⟨r, mem.2 (.inl h), hc⟩
    · rw [List.mem_singleton.1 he] at hrow
      cases hrow
      exact ⟨_, mem.2 (.inr rfl), .refl _⟩
  · rcases List.mem_append.1 he with he | he
    · obtain ⟨⟨r, h, hid⟩, hne⟩ := i.started e he id hs
      refine ⟨⟨r, mem.2 (.inl h), hid⟩, fun row hrow hrid => ?_⟩
      rcases mem.1 hrow with h' | rfl
      · exact hne row h' hrid
      · exact absurd (hid.trans hrid.symm) (fresh r h)
    · rw [List.mem_singleton.1 he] at hs
      exact hs.elim

/-- Rows that are moved go on as they were, but for their statuses. -/
theorem moved {id : String} {next : Status} {now : Time.Instant} {failure : Option Store.Failure} (i : Recorded s)
    (hr : after.records = (s.database.records.advance id next now.floorMillis failure).2)
    (opened : Entry.opened? ⟨k, ⟨r, x⟩, s.database, after⟩ = none)
    (starts : ∀ other, Reply.Starts other ⟨r, x⟩ → other = id ∧ next = .running ∧
      (s.database.records.advance id next now.floorMillis failure).1 = true) :
    Recorded (s.answered k ⟨r, x⟩ after rest) := by
  have mem {row : ExecutionRow} : row ∈ after.records ↔ ∃ old ∈ s.database.records,
      (if old.admits id next then old.moved next now.floorMillis failure else old) = row := by
    rw [hr]
    exact Executions.mem_advance
  have later (old : ExecutionRow) := Store.ExecutionRow.Continues.of_moved old id next now.floorMillis failure
  -- no status is followed by pending
  have status {old : ExecutionRow} (h : old.status ≠ Status.pending.name) :
      (if old.admits id next then old.moved next now.floorMillis failure else old).status ≠ Status.pending.name := by
    split
    · rename_i hadmits
      rw [Store.ExecutionRow.moved_status]
      intro hn
      rw [Status.name_injective hn, Store.ExecutionRow.admits_iff] at hadmits
      cases hadmits.2
    · exact h
  refine ⟨?_, ?_, fun row hrow => ?_, fun row hrow => ?_, fun e he row hrow => ?_, fun e he other hs => ?_⟩
  · show after.records.Distinct
    exact hr ▸ Executions.distinct_advance id next _ failure i.distinct
  · show after.records.Once
    exact hr ▸ Executions.once_advance id next _ failure i.once
  · obtain ⟨old, ho, rfl⟩ := mem.1 hrow
    split
    · exact (i.readable old ho).moved next now failure
    · exact i.readable old ho
  · obtain ⟨old, ho, rfl⟩ := mem.1 hrow
    obtain ⟨e, he, first, hf, hc⟩ := i.opened old ho
    exact ⟨e, List.mem_append_left _ he, first, hf, hc.trans (later old)⟩
  · rcases List.mem_append.1 he with he | he
    · obtain ⟨old, ho, hc⟩ := i.kept e he row hrow
      exact ⟨_, mem.2 ⟨old, ho, rfl⟩, hc.trans (later old)⟩
    · rw [List.mem_singleton.1 he, opened] at hrow
      cases hrow
  · rcases List.mem_append.1 he with he | he
    · obtain ⟨⟨old, ho, hid⟩, hne⟩ := i.started e he other hs
      refine ⟨⟨_, mem.2 ⟨old, ho, rfl⟩, (later old).id.trans hid⟩, fun row hrow hrid => ?_⟩
      obtain ⟨old', ho', rfl⟩ := mem.1 hrow
      exact status (hne old' ho' ((later old').id.symm.trans hrid))
    · rw [List.mem_singleton.1 he] at hs
      obtain ⟨rfl, rfl, hmoved⟩ := starts other hs
      obtain ⟨old, ho, hadmits⟩ := List.any_eq_true.1 hmoved
      have hid := ((old.admits_iff .running other).1 hadmits).1
      refine ⟨⟨_, mem.2 ⟨old, ho, rfl⟩, (later old).id.trans hid⟩, fun row hrow hrid => ?_⟩
      obtain ⟨old', ho', rfl⟩ := mem.1 hrow
      have hsame : old' = old := by
        have h' := Executions.get?_of_mem i.distinct ho' ((later old').id.symm.trans hrid)
        exact Option.some.inj (h'.symm.trans (Executions.get?_of_mem i.distinct ho hid))
      rw [hsame, if_pos hadmits, Store.ExecutionRow.moved_status]
      decide

theorem answered {d d' : Option String} (i : Recorded s) (hx : Answers s.identifiers s.database r x after)
    (ht : Writing.Turn d r x d') : Recorded (s.answered k ⟨r, x⟩ after rest) := by
  cases ht with
  | draw _ id =>
    refine i.still (hx.unchanged (r := .fresh) trivial).records rfl fun other hs => ?_
    exact hs.elim
  | record new _ _ _ _ x =>
    match x with
    | .ok true => exact i.inserted hx
    | .ok false => exact i.still (hx.not_inserted (by nofun)).records rfl fun other hs => hs.elim
    | .error f => exact i.still (hx.not_inserted (by nofun)).records rfl fun other hs => hs.elim
  | token t now x =>
    rcases hx.suspend with ⟨rfl, -, hr, -⟩ | ⟨rfl, -, rfl⟩ | ⟨⟨f, rfl⟩, rfl⟩
    · exact i.moved hr rfl fun other hs => hs.elim
    · exact i.still rfl rfl fun other hs => hs.elim
    · exact i.still rfl rfl fun other hs => hs.elim
  | advance _ id next now failure x =>
    rcases hx.advance with ⟨rfl, hr, -⟩ | ⟨⟨f, rfl⟩, rfl⟩
    · refine i.moved hr rfl fun other hs => ?_
      obtain ⟨now', failure', heq⟩ := hs.inv
      obtain ⟨hreq, hans⟩ := Reply.mk.inj heq
      cases hreq
      exact ⟨rfl, rfl, Except.ok.inj (eq_of_heq hans)⟩
    · refine i.still rfl rfl fun other hs => ?_
      obtain ⟨now', failure', heq⟩ := hs.inv
      cases heq
  | other _ h x =>
    have opened : Entry.opened? ⟨k, ⟨r, x⟩, s.database, after⟩ = none := by
      unfold Entry.opened?
      split
      · rename_i heq
        cases heq
        exact h.elim
      · rfl
    refine i.still ?_ opened fun other hs => ?_
    · rcases r.still_or with hr | ⟨_, rfl⟩ | ⟨_, _, _, _, rfl⟩ | ⟨_, _, rfl⟩ | ⟨id, rfl⟩
      · exact (hx.unchanged hr).records
      · exact h.elim
      · exact h.elim
      · exact h.elim
      · exact hx.records_claim
    · obtain ⟨now', failure', heq⟩ := hs.inv
      cases heq
      exact h.elim

end Recorded

/-! ### Runs -/

/-- What is done to records: the operations of the workers, and each change on its own. -/
inductive LedgerJob : Job Unit → Prop where
  | operation {job : Job Unit} (h : Operation job) : LedgerJob job
  | start (c : StartCall) : LedgerJob (c.job.run >>= fun _ => .done ())
  | launch (w : Workflow) (target : Target) (type : TriggerType) (runOnce : Bool) (context : Context) :
      LedgerJob ((launch w target type runOnce context).run >>= fun _ => .done ())
  | move (id : String) (next : Status) (failure : Option Store.Failure) :
      LedgerJob ((move id next failure).run >>= fun _ => .done ())
  | suspend (executionId nodeId : String) (resumeAt : Time.Instant) (snapshot : Json) :
      LedgerJob ((suspend executionId nodeId resumeAt snapshot).run >>= fun _ => .done ())
  | claim (id : String) : LedgerJob ((claim id).run >>= fun _ => .done ())
  | resume (t : Token) : LedgerJob ((resume t).run >>= fun _ => .done ())

theorem LedgerJob.writes {job : Job Unit} (h : LedgerJob job) : Writes job := by
  cases h with
  | operation h => exact h.writes
  | start c => exact (writes_start _ _ _ _).bind fun _ => .done _
  | launch w target type runOnce context => exact (writes_launch w target type runOnce context).bind fun _ => .done _
  | move id next failure => exact (writes_move id next failure).bind fun _ => .done _
  | suspend e n r j => exact (writes_suspend e n r j).bind fun _ => .done _
  | claim id => exact (Writes.run (q := .claim id) trivial).bind fun _ => .done _
  | resume t => exact (writes_resume t).bind fun _ => .done _

variable {s : Pool}

theorem Pool.Reachable.recorded_of_writes {offered : Job Unit → Prop} (writes : ∀ job, offered job → Writes job)
    (h : Pool.Reachable offered s) : Recorded s := by
  refine (h.invariant (R := writing) (I := fun s _ => Recorded s) (fun job hj => writes job hj none) (fun _ _ hx => hx)
    ?_ ?_ ?_ ?_).elim fun _ h => h
  · intro db he ht
    have hr : db.records = [] := by rw [Database.records, he, Option.getD_some]
    refine ⟨?_, ?_, fun r h => ?_, fun r h => ?_, fun e h => ?_, fun e h => ?_⟩
    · exact hr ▸ Executions.distinct_nil
    · exact hr ▸ Executions.once_nil
    · exact absurd (hr ▸ h : r ∈ []) List.not_mem_nil
    · exact absurd (hr ▸ h : r ∈ []) List.not_mem_nil
    · exact absurd h List.not_mem_nil
    · exact absurd h List.not_mem_nil
  · intro s states job _ i
    exact ⟨i.distinct, i.once, i.readable, i.opened, i.kept, i.started⟩
  · intro s states db i hdb
    have hr := hdb.unchanged.records
    exact ⟨hr ▸ i.distinct, hr ▸ i.once, hr ▸ i.readable, hr ▸ i.opened, hr ▸ i.kept, hr ▸ i.started⟩
  · intro s states k r next x after state _ i _ hx ht
    exact i.answered hx ht

theorem Pool.Reachable.recorded (h : Pool.Reachable LedgerJob s) : Recorded s := h.recorded_of_writes fun _ hj => hj.writes

/-- An execution that runs only once was put on record under the key. -/
def Entry.Opens (e : Entry) (key : Key) : Prop :=
  ∃ row, e.opened? = some row ∧ row.key = key ∧ row.runOnce = .int 1

/-- An execution that runs only once and is on record under the key was moved from pending to running: its graph is
entered from the trigger. -/
def Entry.Enters (e : Entry) (key : Key) : Prop :=
  ∃ id, e.reply.Starts id ∧ ∃ r ∈ e.before.records,
    r.id = some id ∧ r.status = Status.pending.name ∧ r.key = key ∧ r.runOnce = .int 1

section Entries

variable {pre post : List Entry} {k : Nat} {before after : Database} {key : Key}

/-- What was put on record once is still there. -/
theorem Pool.Reachable.opened_before {e first : Entry} (h : Pool.Reachable LedgerJob s)
    (hs : s.history = pre ++ e :: post) (hfirst : first ∈ pre) (ho : first.Opens key) :
    ∃ row, first.opened? = some row ∧ ∃ r ∈ e.before.records, row.Continues r ∧ r.key = key ∧ r.runOnce = .int 1 := by
  obtain ⟨s₀, h₀, hpre, hdb, -⟩ := h.entry hs
  obtain ⟨row, hrow, hkey, honce⟩ := ho
  obtain ⟨r, hr, hc⟩ := h₀.recorded.kept first (hpre ▸ hfirst) row hrow
  exact ⟨row, hrow, r, hdb ▸ hr, hc, hc.key.trans hkey, hc.runOnce.trans honce⟩

/-- An insertion is answered yes if and only if it is the first one under its key, or it need not be. -/
theorem Pool.Reachable.insertion {new : Record} {fresh : Bool} (h : Pool.Reachable LedgerJob s)
    (hs : s.history = pre ++ ⟨k, ⟨.statement (.insertExecution (.ofRecord new)), .ok fresh⟩, before, after⟩ :: post) :
    (fresh = true ↔ (new.runOnce = true → ∀ e ∈ pre, ¬ e.Opens (ExecutionRow.ofRecord new).key)) ∧
      after.records = if fresh then before.records ++ [.ofRecord new] else before.records := by
  obtain ⟨s₀, h₀, hpre, hdb, hx⟩ := h.entry hs
  obtain ⟨drawn, i⟩ := h.identified fun _ hj => hj.writes
  obtain ⟨drawn₀, i₀⟩ := h₀.identified fun _ hj => hj.writes
  have unused : ∀ r ∈ before.records, r.id ≠ some new.id := by
    intro r hr hid
    have hused : new.id ∈ pre.filterMap Entry.writes? := hpre ▸ i₀.rows r (hdb ▸ hr) new.id hid
    have once := i.once
    rw [Pool.used, hs, List.filterMap_append] at once
    exact List.disjoint_of_nodup_append once hused List.mem_cons_self
  have opened {e : Entry} (he : e ∈ pre) (ho : e.Opens (ExecutionRow.ofRecord new).key) :=
    h.opened_before hs he ho
  rcases hx.insertExecution with ⟨hf, hr, -⟩ | ⟨⟨f, hf⟩, -⟩
  · have hf := Except.ok.inj hf
    refine ⟨?_, ?_⟩
    · rw [hf, Executions.insert_fst_iff rfl unused]
      constructor
      · intro hfree honce e he ho
        obtain ⟨_, _, r, hr, _, hkey, hrun⟩ := opened he ho
        exact hfree (Store.runOnce_ofRecord.2 honce) r hr hrun hkey
      · intro hfirst honce r hr hrun hkey
        obtain ⟨e, he, row, hrow, hc⟩ := h₀.recorded.opened r (hdb ▸ hr)
        refine hfirst (Store.runOnce_ofRecord.1 honce) e (hpre ▸ he) ⟨row, hrow, ?_, ?_⟩
        · exact hc.key.symm.trans hkey
        · exact hc.runOnce.symm.trans hrun
    · cases fresh with
      | true => exact hr.trans (Executions.insert_snd hf.symm)
      | false => exact hr.trans (Executions.insert_snd_of_not hf.symm)
  · cases hf

end Entries

/-! ### Calls -/

/-- How a call of `start` by the task `k` during `mid`, after `pre`, has gone. -/
inductive StartCall.Answered (c : StartCall) (k : Nat) (pre mid : List Entry) : Except EngineFault Start → Prop where
  /-- A statement of the call has failed. -/
  | failed (q : Store.Statement) (f : Store.Fault) (h : ⟨.statement q, .error f⟩ ∈ repliesOf k mid) :
      Answered c k pre mid (.error (.database f))
  /-- A new record was added; there was none under its key, or it need not be the only one. -/
  | started (id : String) (now : Time.Instant) (m₁ m₂ : List Entry) (before after : Database)
      (entry : mid = m₁ ++ ⟨k, ⟨.statement (.insertExecution (.ofRecord (c.record id now))), .ok true⟩, before, after⟩ :: m₂)
      (added : after.records = before.records ++ [.ofRecord (c.record id now)])
      (first : c.runOnce = true → ∀ e ∈ pre ++ m₁, ¬ e.Opens c.key) :
      Answered c k pre mid (.ok ⟨c.record id now, true⟩)
  /-- The one under the key was read as it was then, and nothing was changed. -/
  | present (r : Record) (once : c.runOnce = true) (m₁ m₂ : List Entry) (before after : Database) (row : ExecutionRow)
      (entry : mid = m₁ ++ ⟨k, ⟨.statement (.owner c.key), .ok row⟩, before, after⟩ :: m₂)
      (current : row ∈ before.records ∧ row.record = .ok r)
      (first : ∃ e ∈ pre ++ m₁, e.Opens c.key ∧ ∀ new, e.opened? = some new → new.Continues row)
      (unchanged : ∀ e ∈ mid, e.task = k → e.after.records = e.before.records) :
      Answered c k pre mid (.ok ⟨r, false⟩)

end Lifecycle
