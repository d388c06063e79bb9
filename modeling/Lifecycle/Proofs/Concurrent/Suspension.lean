import Lifecycle.Proofs.Concurrent.Custody
import Lifecycle.Proofs.Engine.Replies

/-!
# No suspension is lost

A suspended execution has one token, or a sweep has taken it and is not done: its resumption has not ended, or has ended
in a fault. For a resumption that ends without one has moved the record, or has seen that it is not suspended.
-/

namespace Lifecycle

open Engine
open Program (Leaves)
open Store (Database Executions ExecutionRow TokenRow)

/-! ### Resumptions -/

/-- The record of the execution `e` was to be moved on, or was not found suspended. -/
def Reply.Releases (e : String) : Reply interface → Prop
  | ⟨.statement (.advance id next _ _), .ok _⟩ => id = e ∧ (next = .running ∨ next = .failed)
  | ⟨.statement (.execution id), .ok found⟩ =>
    id = e ∧ ¬ ∃ row, found = some row ∧ row.id = some id ∧ row.status = Status.suspended.name
  | _ => False

/-- A resumption that ends without a fault does not leave the record suspended. -/
theorem releases_of_resume {t : Token} {xs : List (Reply interface)} {result : Result}
    (h : Leaves (resume t).run xs (.done (.ok result))) : ∃ y ∈ xs, y.Releases t.executionId := by
  obtain ⟨found, ys, zs, rfl, hfound, hrest⟩ := h.attempt_ok
  obtain ⟨row, rfl, hrow⟩ := leaves_getRecord hfound
  rcases hrow with ⟨rfl, -⟩ | ⟨r, record, rfl, hr, rfl⟩
  · refine ⟨_, List.mem_cons_self, rfl, ?_⟩
    rintro ⟨_, hn, -⟩
    cases hn
  · obtain ⟨hid, hstatus, -⟩ := Store.ExecutionRow.record_ok hr
    -- the record that was read is another one, or is not suspended, or is moved
    by_cases hs : r.id = some t.executionId ∧ r.status = Status.suspended.name
    · have hrid : record.id = t.executionId := Option.some.inj (hid.symm.trans hs.1)
      have hrs : record.status = .suspended := Status.name_injective (hstatus.trans hs.2)
      dsimp only at hrest
      rw [if_neg (not_not_intro hrs)] at hrest
      obtain ⟨found, ys, zs, rfl, -, hgo⟩ := hrest.attempt_ok
      match found with
      | .error e =>
        obtain ⟨now, moved, rfl⟩ := leaves_failAt hgo
        exact ⟨_, List.mem_append_right _ (List.mem_append_right _ (List.mem_cons_of_mem _ List.mem_cons_self)), hrid,
          .inr rfl⟩
      | .ok (w, step, context) =>
        obtain ⟨moved, ms, ws, rfl, hmove, -⟩ := hgo.attempt_ok
        obtain ⟨now, rfl⟩ := leaves_move hmove
        exact ⟨_, List.mem_append_right _ (List.mem_append_right _ (List.mem_append_left _
          (List.mem_cons_of_mem _ List.mem_cons_self))), hrid, .inl rfl⟩
    · refine ⟨_, List.mem_cons_self, rfl, ?_⟩
      rintro ⟨_, hn, hs'⟩
      cases hn
      exact hs hs'

/-- The resumption has not ended, or has ended in a fault. -/
def Unsettled (t : Token) (replies : List (Reply interface)) : Prop :=
  (∃ (r : Request) (next : r.Answer → Job (Except EngineFault Result)), Leaves (resume t).run replies (.ask r next)) ∨
    ∃ ys zs e, replies = ys ++ zs ∧ Leaves (resume t).run ys (.done (.error e))

/-- A resumption that was given nothing that releases its execution has not ended, or has ended in a fault. -/
theorem unsettled_of_leaves {t : Token} {α : Type} {f : Except EngineFault Result → Job α} {replies : List (Reply interface)}
    {rest : Job α} (h : Leaves ((resume t).run >>= f) replies rest)
    (hr : ∀ y ∈ replies, ¬ y.Releases t.executionId) : Unsettled t replies := by
  have settled {a : Except EngineFault Result} {ys zs : List (Reply interface)} (he : replies = ys ++ zs)
      (ha : Leaves (resume t).run ys (.done a)) : Unsettled t replies := by
    cases a with
    | error e => exact .inr ⟨ys, zs, e, he, ha⟩
    | ok result =>
      obtain ⟨y, hy, hrel⟩ := releases_of_resume ha
      exact absurd hrel (hr y (he ▸ List.mem_append_left _ hy))
  rcases h.bind_inv with ⟨q, hq, -⟩ | ⟨a, ys, zs, he, ha, -⟩
  · cases q with
    | done a => exact settled (List.append_nil _).symm hq
    | ask r next => exact .inl ⟨r, next, hq⟩
  · exact settled he ha

/-! ### Claims -/

/-- The task `k` has taken the token `t` of the execution `e`, which was written last; and has been given `replies` since. -/
structure Took (history : List Entry) (e : String) (k : Nat) (t : Token) (replies : List (Reply interface)) : Prop where
  execution : t.executionId = e
  entry : ∃ pre before after post, history = pre ++ ⟨k, ⟨.statement (.claim t.id), .ok true⟩, before, after⟩ :: post ∧
    (∃ row ∈ before.waiting, row.token = .ok t) ∧ (∀ entry ∈ post, ∀ row, entry.token? = some row → row.executionId ≠ e) ∧
    replies = repliesOf k post

/-- A task has taken the token, and has been given nothing that would release the execution. -/
def Pool.Held (s : Pool) (e : String) : Prop :=
  ∃ (k : Nat) (t : Token) (replies : List (Reply interface)) (f : Except EngineFault Result → Job Unit) (rest : Job Unit),
    Took s.history e k t replies ∧ s.tasks[k]? = some rest ∧ Leaves ((resume t).run >>= f) replies rest ∧
      ∀ y ∈ replies, ¬ y.Releases e

/-- Every suspended execution has a token, or somebody has taken it. -/
def Pool.Covered (s : Pool) : Prop :=
  ∀ e, s.database.records.status e = some Status.suspended.name →
    (∃ row ∈ s.database.waiting, row.executionId = e) ∨ s.Held e

section Answered

variable {s : Pool} {states : Nat → Ownership.State} {k : Nat} {r : Request} {next : r.Answer → Job Unit} {x : r.Answer}
  {after : Database} {state : Ownership.State} {e : String}

/-- While the execution is suspended, no answer releases it. -/
theorem Answers.not_releases (hx : Answers s.identifiers s.database r x after)
    (before : s.database.records.status e = some Status.suspended.name)
    (now : after.records.status e = some Status.suspended.name) : ¬ Reply.Releases e ⟨r, x⟩ := by
  intro h
  unfold Reply.Releases at h
  split at h
  · rename_i id next millis failure moved heq
    cases heq
    obtain ⟨rfl, hn⟩ := h
    have hfollows : next.follows Status.suspended.name = true := by
      rcases hn with rfl | rfl <;> decide
    rcases hx.advance with ⟨hm, hr, -⟩ | ⟨⟨f, hf⟩, -⟩
    · rw [hr, Executions.status_advance, before, Option.any_some, if_pos ⟨rfl, hfollows⟩] at now
      rcases hn with rfl | rfl <;> revert now <;> decide
    · cases hf
  · rename_i id found heq
    cases heq
    obtain ⟨rfl, hn⟩ := h
    rcases hx.execution with hf | ⟨f, hf⟩
    · obtain ⟨row, hrow, hstatus⟩ := Option.map_eq_some_iff.1 before
      exact hn ⟨row, (Except.ok.inj hf).trans hrow, (Executions.mem_of_get? hrow).2, hstatus⟩
    · cases hf
  · exact h

theorem Pool.Held.answered (h : s.Held e) (hk : s.tasks[k]? = some (.ask r next))
    (hx : Answers s.identifiers s.database r x after) (before : s.database.records.status e = some Status.suspended.name)
    (now : after.records.status e = some Status.suspended.name)
    (none : ∀ row, Entry.token? ⟨k, ⟨r, x⟩, s.database, after⟩ = some row → row.executionId ≠ e) :
    (s.answered k ⟨r, x⟩ after (next x)).Held e := by
  obtain ⟨j, t, replies, f, rest, ⟨he, pre, old, new, post, hist, hrow, hpost, rfl⟩, hj, hl, hrel⟩ := h
  have took (replies : List (Reply interface))
      (hr : replies = repliesOf j (post ++ [⟨k, ⟨r, x⟩, s.database, after⟩])) :
      Took (s.answered k ⟨r, x⟩ after (next x)).history e j t replies := by
    refine ⟨he, pre, old, new, post ++ [⟨k, ⟨r, x⟩, s.database, after⟩], ?_, hrow, fun entry hentry => ?_, hr⟩
    · show s.history ++ _ = _
      rw [hist, List.append_assoc, List.cons_append]
    · rcases List.mem_append.1 hentry with hentry | hentry
      · exact hpost entry hentry
      · rw [List.mem_singleton.1 hentry]
        exact none
  by_cases hjk : k = j
  · subst hjk
    obtain rfl := Option.some.inj (hk.symm.trans hj)
    have hklt := (List.getElem?_eq_some_iff.1 hk).1
    refine ⟨k, t, _, f, next x, took _ rfl, List.getElem?_set_self hklt, ?_, fun y hy => ?_⟩
    · rw [repliesOf_append, repliesOf_same]
      exact hl.concat x
    · rw [repliesOf_append, repliesOf_same, List.mem_append, List.mem_singleton] at hy
      rcases hy with hy | rfl
      · exact hrel y hy
      · exact hx.not_releases before now
  · refine ⟨j, t, repliesOf j post, f, rest, took _ ?_, ?_, hl, hrel⟩
    · rw [repliesOf_append, repliesOf_other hjk, List.append_nil]
    · exact (List.getElem?_set_ne hjk).trans hj

/-- A token that was written is in the table then. -/
theorem Answers.token_waiting (hx : Answers s.identifiers s.database r x after) {row : TokenRow}
    (h : Entry.token? ⟨k, ⟨r, x⟩, s.database, after⟩ = some row) : row ∈ after.waiting := by
  unfold Entry.token? at h
  split at h
  · rename_i row' now heq
    cases heq
    cases h
    rcases hx.suspend with ⟨-, -, -, hw⟩ | ⟨hf, -⟩ | ⟨⟨f, hf⟩, -⟩
    · rw [hw]
      exact List.mem_append_right _ (List.mem_singleton_self row)
    · cases hf
    · cases hf
  · cases h

/-- A turn that takes no token, and suspends nothing without one. -/
theorem Pool.Covered.keep (c : s.Covered) (hk : s.tasks[k]? = some (.ask r next))
    (hx : Answers s.identifiers s.database r x after)
    (status : ∀ e, after.records.status e = some Status.suspended.name →
      s.database.records.status e = some Status.suspended.name ∨ ∃ row ∈ after.waiting, row.executionId = e)
    (waiting : ∀ row ∈ s.database.waiting, row ∈ after.waiting) :
    (s.answered k ⟨r, x⟩ after (next x)).Covered := by
  intro e now
  by_cases hrow : ∃ row ∈ after.waiting, row.executionId = e
  · exact .inl hrow
  · rcases status e now with before | h
    · rcases c e before with ⟨row, hr, he⟩ | held
      · exact absurd ⟨row, waiting row hr, he⟩ hrow
      · exact .inr (held.answered hk hx before now fun row ht he => hrow ⟨row, hx.token_waiting ht, he⟩)
    · exact absurd h hrow

theorem Pool.Covered.still (c : s.Covered) (hk : s.tasks[k]? = some (.ask r next))
    (hx : Answers s.identifiers s.database r x after) (hu : s.database.Unchanged after) :
    (s.answered k ⟨r, x⟩ after (next x)).Covered := by
  refine c.keep hk hx (fun e h => .inl ?_) fun row h => ?_
  · rwa [hu.records] at h
  · rwa [hu.waiting]

/-- Whoever takes the token of an execution has it in hand then. -/
theorem Pool.Covered.took {row : TokenRow} {t : Token} {next : Except Store.Fault Bool → Job Unit}
    {f : Except EngineFault Result → Job Unit} {drawn : Nat → Option String} (c : s.Covered) (i : Identified s drawn)
    (hk : s.tasks[k]? = some (.ask (.statement (.claim t.id)) next)) (hnext : next (.ok true) = (resume t).run >>= f)
    (hrow : row ∈ s.database.waiting) (ht : row.token = .ok t)
    (hx : Answers s.identifiers s.database (.statement (.claim t.id)) (.ok true) after) :
    (s.answered k ⟨.statement (.claim t.id), .ok true⟩ after (next (.ok true))).Covered := by
  obtain ⟨hid, he, -, -⟩ := Store.TokenRow.token_ok ht
  obtain ⟨-, hw, hr⟩ := hx.claimed
  intro e now
  have before : s.database.records.status e = some Status.suspended.name := hr ▸ now
  by_cases het : t.executionId = e
  · have hklt := (List.getElem?_eq_some_iff.1 hk).1
    refine .inr ⟨k, t, [], f, next (.ok true), ⟨het, s.history, s.database, after, [], rfl, ⟨row, hrow, ht⟩,
      fun _ h => (by cases h), rfl⟩, List.getElem?_set_self hklt, ?_, fun _ h => (by cases h)⟩
    rw [hnext]
    exact .here _
  · rcases c e before with ⟨other, ho, heo⟩ | held
    · refine .inl ⟨other, ?_, heo⟩
      show other ∈ after.waiting
      rw [hw, List.mem_filter]
      refine ⟨ho, bne_iff_ne.2 fun hoid => het ?_⟩
      rw [← he, ← heo, i.written_unique (i.tokens row hrow) (i.tokens other ho) hid hoid]
    · exact .inr (held.answered hk hx before now fun _ h => by cases h)

theorem Pool.Covered.answered {drawn : Nat → Option String} (c : s.Covered) (o : Owned s states) (i : Identified s drawn)
    (hk : s.tasks[k]? = some (.ask r next)) (hx : Answers s.identifiers s.database r x after)
    (ht : Ownership.Turn (states k) r x (next x) state) : (s.answered k ⟨r, x⟩ after (next x)).Covered := by
  generalize hn : next x = rest at ht
  rw [← hn]
  cases ht with
  | quiet h => exact c.still hk hx (hx.unchanged h.still)
  | @found now limit rows => exact c.still hk hx (hx.unchanged (r := .statement (.due now limit)) trivial)
  | @began record h =>
    obtain ⟨-, -, hw, status⟩ := hx.inserted o.distinct rfl
    refine c.keep hk hx (fun e he => ?_) fun row hrow => hw ▸ hrow
    rw [status] at he
    split at he
    · have hstatus : record.status = .suspended := Status.name_injective (Option.some.inj he)
      cases h.symm.trans hstatus
    · exact .inl he
  | present h => exact c.still hk hx (hx.not_inserted h)
  | took hrow ht => exact c.took i hk hn (o.mem_of_claim i hrow ht hx) ht hx
  | missed h => exact c.still hk hx (hx.not_claimed h)
  | @started id now h =>
    obtain ⟨-, hw, status⟩ := hx.status_advance o.distinct
    refine c.keep hk hx (fun e he => ?_) fun row hrow => hw ▸ hrow
    rcases status e with hst | ⟨-, hst⟩
    · exact .inl (hst ▸ he)
    · cases Status.name_injective (Option.some.inj (hst.symm.trans he))
  | refused h hne => exact c.still hk hx (hx.not_advanced hne)
  | @visited v y h _ => exact c.still hk hx (hx.unchanged (r := .visit v) trivial)
  | @left id status next' now failure y h hnext =>
    obtain ⟨-, hw, status⟩ := hx.status_advance o.distinct
    refine c.keep hk hx (fun e he => ?_) fun row hrow => hw ▸ hrow
    rcases status e with hst | ⟨-, hst⟩
    · exact .inl (hst ▸ he)
    · rcases hnext with rfl | rfl <;> cases Status.name_injective (Option.some.inj (hst.symm.trans he))
  | @suspended row now moved h =>
    obtain ⟨kept, status⟩ := hx.status_suspend o.distinct
    refine c.keep hk hx (fun e he => ?_) kept
    rcases status e with hst | ⟨heq, hrow, -⟩
    · exact .inl (hst ▸ he)
    · exact .inr ⟨row, hrow, heq.symm⟩
  | unsuspended h => exact c.still hk hx (hx.not_suspended (by nofun))

end Answered

/-! ### Runs -/

/-- The tokens of an execution that wait to be taken. -/
def Store.Database.tokensOf (db : Database) (e : String) : List TokenRow := db.waiting.filter (·.executionId == e)

/-- Somebody has taken the token of the execution that was written last, and its resumption has not ended, or has ended in
a fault. -/
def Pool.Resuming (s : Pool) (e : String) : Prop := ∃ k t replies, Took s.history e k t replies ∧ Unsettled t replies

variable {s : Pool}

theorem Pool.Reachable.covered (h : Pool.Reachable Operation s) : ∃ states, Owned s states ∧ s.Covered := by
  refine h.owned_invariant (I := fun s _ => s.Covered) ?_ ?_ ?_ ?_
  · intro db he ht e h
    have hr : db.records = [] := by rw [Database.records, he, Option.getD_some]
    have h : db.records.status e = some Status.suspended.name := h
    rw [hr] at h
    cases h
  · intro s states job c e h
    rcases c e h with h | ⟨k, t, replies, f, rest, took, hk, hl⟩
    · exact .inl h
    · have hlt := (List.getElem?_eq_some_iff.1 hk).1
      refine .inr ⟨k, t, replies, f, rest, took, ?_, hl⟩
      exact (List.getElem?_append_left hlt).trans hk
  · intro s states db c hdb e h
    have hu := hdb.unchanged
    rcases c e (hu.records ▸ h) with ⟨row, hrow, he⟩ | held
    · exact .inl ⟨row, hu.waiting ▸ hrow, he⟩
    · exact .inr held
  · intro s states k r next x after state hs o c hk hx ht
    obtain ⟨drawn, i⟩ := hs.identified fun _ hj => hj.writes
    exact c.answered o i hk hx ht

/-- Whatever the workers do and whatever fails, an execution has at most one token, and is suspended while it has one; and a
suspended execution has one, unless its last one was taken and its resumption is not over, or has failed. -/
theorem tokens_of_suspended (h : Pool.Reachable Operation s) :
    (∀ e, (s.database.tokensOf e).length ≤ 1) ∧
      (∀ t ∈ s.database.waiting, ∃ row ∈ s.database.records,
        row.id = some t.executionId ∧ row.status = Status.suspended.name) ∧
      ∀ row ∈ s.database.records, ∀ e, row.id = some e → row.status = Status.suspended.name →
        (s.database.tokensOf e).length = 1 ∨ s.database.tokensOf e = [] ∧ s.Resuming e := by
  obtain ⟨states, o, c⟩ := h.covered
  have single (e : String) : (s.database.tokensOf e).length ≤ 1 := by
    have hp : (s.database.tokensOf e).Pairwise (·.executionId ≠ ·.executionId) := o.single.sublist List.filter_sublist
    match ht : s.database.tokensOf e with
    | [] => exact Nat.zero_le 1
    | [_] => exact Nat.le_refl 1
    | a :: b :: _ =>
      have hmem (t : TokenRow) (h : t ∈ s.database.tokensOf e) : t.executionId = e := by
        simpa using (List.mem_filter.1 h).2
      rw [ht] at hp hmem
      refine absurd ?_ (List.rel_of_pairwise_cons hp List.mem_cons_self)
      rw [hmem a List.mem_cons_self, hmem b (List.mem_cons_of_mem _ List.mem_cons_self)]
  refine ⟨single, fun t ht => ?_, fun row hrow e hid hstatus => ?_⟩
  · obtain ⟨row, hrow, hid, hs⟩ := Executions.mem_of_status (o.suspended t ht)
    exact ⟨row, hrow, hid, hs⟩
  · have hsus : s.database.records.status e = some Status.suspended.name := by
      rw [Executions.status_of_mem o.distinct hrow hid, hstatus]
    match ht : s.database.tokensOf e with
    | t :: rest =>
      have := single e
      rw [ht] at this
      exact .inl (Nat.le_antisymm this (Nat.succ_le_succ (Nat.zero_le _)))
    | [] =>
      rcases c e hsus with ⟨t, htw, hte⟩ | ⟨k, t, replies, f, rest, took, -, hl, hrel⟩
      · have hmem : t ∈ s.database.tokensOf e := List.mem_filter.2 ⟨htw, beq_iff_eq.2 hte⟩
        rw [ht] at hmem
        cases hmem
      · refine .inr ⟨rfl, k, t, replies, took, unsettled_of_leaves hl ?_⟩
        rw [took.execution]
        exact hrel

/-- A dispatch that has suspended its execution: one token waits for it. -/
theorem token_of_suspended : ∃ s, Pool.Reachable Operation s ∧ s.database = Sample.suspended ∧
    ((s.database.tokensOf "e").length = 1 ∨ s.database.tokensOf "e" = [] ∧ s.Resuming "e") := by
  obtain ⟨s, h, hdb⟩ := Sample.reachable_suspended
  obtain ⟨-, -, covered⟩ := tokens_of_suspended h
  have hrow : ((ExecutionRow.ofRecord Sample.record).moved .running 0 none).moved .suspended 0 none ∈ s.database.records := by
    rw [hdb]
    exact List.mem_singleton_self _
  exact ⟨s, h, hdb, covered _ hrow "e" rfl rfl⟩

end Lifecycle
