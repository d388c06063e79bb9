import Lifecycle.Proofs.Concurrent.Identifiers
import Lifecycle.Proofs.Concurrent.Ownership

/-!
# Executions in hand

At any time an execution is in the hands of at most one task, and then it has the status that the task believes it to
have; or it has one token, and then it is suspended. Every turn of ownership keeps this, whatever the statements are
answered.
-/

namespace Lifecycle

open Engine (Request Job)
open Store (Database Executions TokenRow)

/-- The tables agree with what the tasks have in hand. -/
structure Owned (s : Pool) (states : Nat → Ownership.State) : Prop where
  distinct : s.database.records.Distinct
  seen : ∀ k, ∀ row ∈ (states k).seen, row ∈ s.written
  holds : ∀ k e status, (states k).phase.holds? = some (e, status) → s.database.records.status e = some status.name
  apart : ∀ j k e st st', (states j).phase.holds? = some (e, st) → (states k).phase.holds? = some (e, st') → j = k
  single : s.database.waiting.Pairwise (·.executionId ≠ ·.executionId)
  suspended : ∀ row ∈ s.database.waiting, s.database.records.status row.executionId = some Status.suspended.name
  free : ∀ k e status, (states k).phase.holds? = some (e, status) → ∀ row ∈ s.database.waiting, row.executionId ≠ e

namespace Phase

variable {p : Phase}

theorem Waits.holds {id : String} (h : p.Waits id) :
    ∃ status, p.holds? = some (id, status) ∧ p.started.holds? = some (id, .running) := by
  cases p with
  | owner i =>
    cases h
    exact ⟨_, rfl, rfl⟩
  | claimer t =>
    cases h
    exact ⟨_, rfl, rfl⟩
  | _ => exact h.elim

theorem Leads.holds {v : Engine.Visit} (h : p.Leads v) : p.holds? = some (v.record.id, .running) := by
  cases p with
  | entering id => rw [h.1, holds?]
  | resuming t => rw [h.1, holds?]
  | visited u y =>
    cases y with
    | error f => exact h.elim
    | ok o => rw [h.1, holds?]
  | _ => exact h.elim

theorem Suspends.holds {row : TokenRow} (h : p.Suspends row) : p.holds? = some (row.executionId, .running) := by
  unfold Suspends at h
  split at h
  · obtain ⟨next, id, created, -, rfl⟩ := h
    rfl
  · exact h.elim

end Phase

namespace Owned

variable {s : Pool} {states : Nat → Ownership.State} {k : Nat} {r : Request} {x : r.Answer} {after : Database}
  {rest : Job Unit} {state : Ownership.State}

/-- A turn that changes the status only of what the task has in hand, and takes nothing more into it. -/
theorem keep (o : Owned s states) (distinct : after.records.Distinct)
    (seen : ∀ row ∈ state.seen, row ∈ (s.answered k ⟨r, x⟩ after rest).written)
    (status : ∀ e, (∀ st, (states k).phase.holds? ≠ some (e, st)) →
      after.records.status e = s.database.records.status e)
    (waiting : after.waiting.Sublist s.database.waiting)
    (hands : ∀ e st, state.phase.holds? = some (e, st) →
      (∃ st', (states k).phase.holds? = some (e, st')) ∧ after.records.status e = some st.name) :
    Owned (s.answered k ⟨r, x⟩ after rest) (Function.update states k state) := by
  -- what a task has in hand after the turn it had in hand before
  have before (j : Nat) (e : String) (st : Status) (h : (Function.update states k state j).phase.holds? = some (e, st)) :
      ∃ st', (states j).phase.holds? = some (e, st') := by
    rcases update_or states k state j with ⟨rfl, hj⟩ | ⟨-, hj⟩ <;> rw [hj] at h
    · exact (hands e st h).1
    · exact ⟨st, h⟩
  refine ⟨distinct, fun j row hrow => ?_, fun j e st h => ?_, fun j j' e st st' h h' => ?_, o.single.sublist waiting,
    fun row hrow => ?_, fun j e st h row hrow => ?_⟩
  · rcases update_or states k state j with ⟨-, hj⟩ | ⟨-, hj⟩ <;> rw [hj] at hrow
    · exact seen row hrow
    · exact Pool.mem_written (o.seen j row hrow)
  · rcases update_or states k state j with ⟨-, hj⟩ | ⟨hjk, hj⟩ <;> rw [hj] at h
    · exact (hands e st h).2
    · rw [← o.holds j e st h]
      exact status e fun st' h' => hjk (o.apart j k e st st' h h')
  · obtain ⟨_, h⟩ := before j e st h
    obtain ⟨_, h'⟩ := before j' e st' h'
    exact o.apart j j' e _ _ h h'
  · have hrow := waiting.subset hrow
    rw [← o.suspended row hrow]
    exact status _ fun st h => o.free k _ st h row hrow rfl
  · obtain ⟨_, h⟩ := before j e st h
    exact o.free j e _ h row (waiting.subset hrow)

/-- A turn that touches neither table, and takes nothing more into hand. -/
theorem still (o : Owned s states) (hu : s.database.Unchanged after)
    (seen : ∀ row ∈ state.seen, row ∈ (s.answered k ⟨r, x⟩ after rest).written)
    (hands : ∀ e st, state.phase.holds? = some (e, st) → (states k).phase.holds? = some (e, st)) :
    Owned (s.answered k ⟨r, x⟩ after rest) (Function.update states k state) := by
  refine o.keep (hu.records ▸ o.distinct) seen (fun e _ => by rw [hu.records]) (by rw [hu.waiting]) fun e st h => ?_
  rw [hu.records]
  exact ⟨⟨st, hands e st h⟩, o.holds k e st (hands e st h)⟩

/-! A turn that only changes the phase of the task. -/

theorem seen_phase {p : Phase} (o : Owned s states) (j : Nat) :
    ∀ row ∈ (Function.update states k { states k with phase := p } j).seen,
      row ∈ (s.answered k ⟨r, x⟩ after rest).written := by
  intro row hrow
  refine Pool.mem_written (o.seen j row ?_)
  rcases update_or states k { states k with phase := p } j with ⟨rfl, hj⟩ | ⟨-, hj⟩ <;> rw [hj] at hrow <;> exact hrow

theorem hands_phase {p : Phase} {j : Nat} {e : String} {st : Status}
    (h : (Function.update states k { states k with phase := p } j).phase.holds? = some (e, st)) :
    (j = k ∧ p.holds? = some (e, st)) ∨ (j ≠ k ∧ (states j).phase.holds? = some (e, st)) := by
  rcases update_or states k { states k with phase := p } j with ⟨hjk, hj⟩ | ⟨hjk, hj⟩ <;> rw [hj] at h
  · exact .inl ⟨hjk, h⟩
  · exact .inr ⟨hjk, h⟩

/-- A new execution is in the hands of nobody else, and no token waits for it. -/
theorem began {r : Record} (o : Owned s states) (hr : r.status = .pending)
    (hx : Answers s.identifiers s.database (.statement (.insertExecution (.ofRecord r))) (.ok true) after) :
    Owned (s.answered k ⟨.statement (.insertExecution (.ofRecord r)), .ok true⟩ after rest)
      (Function.update states k { states k with phase := .owner r.id }) := by
  obtain ⟨hnone, distinct, hw, status⟩ := hx.inserted o.distinct rfl
  have fresh {e : String} {name : String} (h : s.database.records.status e = some name) : e ≠ r.id := by
    rintro rfl
    cases hnone.symm.trans h
  have hands (j : Nat) (e : String) (st : Status)
      (h : (Function.update states k { states k with phase := .owner r.id } j).phase.holds? = some (e, st)) :
      (j = k ∧ e = r.id ∧ st = .pending) ∨ (states j).phase.holds? = some (e, st) := by
    rcases hands_phase h with ⟨hj, h⟩ | ⟨-, h⟩
    · cases h
      exact .inl ⟨hj, rfl, rfl⟩
    · exact .inr h
  refine ⟨distinct, o.seen_phase, fun j e st h => ?_, fun j j' e st st' h h' => ?_, ?_, fun row hrow => ?_,
    fun j e st h row hrow => ?_⟩
  · show after.records.status e = _
    rw [status]
    rcases hands j e st h with ⟨-, rfl, rfl⟩ | h
    · rw [if_pos rfl, Store.ExecutionRow.ofRecord, hr]
    · rw [if_neg (fresh (o.holds j e st h))]
      exact o.holds j e st h
  · rcases hands j e st h with ⟨hj, rfl, -⟩ | h <;> rcases hands j' _ st' h' with ⟨hj', he, -⟩ | h'
    · rw [hj, hj']
    · exact absurd rfl (fresh (o.holds j' _ st' h'))
    · exact absurd he (fresh (o.holds j _ st h))
    · exact o.apart j j' e st st' h h'
  · exact hw ▸ o.single
  · have hs := o.suspended row (hw ▸ hrow)
    show after.records.status _ = _
    rw [status, if_neg (fresh hs)]
    exact hs
  · have hrow : row ∈ s.database.waiting := hw ▸ hrow
    rcases hands j e st h with ⟨-, rfl, -⟩ | h
    · exact fresh (o.suspended row hrow)
    · exact o.free j e st h row hrow

theorem eq_of_executionId (o : Owned s states) {a b : TokenRow} (ha : a ∈ s.database.waiting)
    (hb : b ∈ s.database.waiting) (h : a.executionId = b.executionId) : a = b := by
  have : Std.Symm fun a b : TokenRow => a.executionId ≠ b.executionId := ⟨fun _ _ => Ne.symm⟩
  by_contra hne
  exact o.single.forall ha hb hne h

/-- Whoever takes the token of an execution has it in hand, and there is no other token of it. -/
theorem took {row : TokenRow} {t : Token} (o : Owned s states) (hrow : row ∈ s.database.waiting)
    (ht : row.token = .ok t)
    (hx : Answers s.identifiers s.database (.statement (.claim t.id)) (.ok true) after) :
    Owned (s.answered k ⟨.statement (.claim t.id), .ok true⟩ after rest)
      (Function.update states k { states k with phase := .claimer t }) := by
  obtain ⟨hid, he, -, -⟩ := Store.TokenRow.token_ok ht
  obtain ⟨-, hw, hr⟩ := hx.claimed
  have left {other : TokenRow} (h : other ∈ after.waiting) :
      other ∈ s.database.waiting ∧ other.executionId ≠ t.executionId := by
    rw [hw, List.mem_filter] at h
    refine ⟨h.1, fun heq => ?_⟩
    have hne : other.id ≠ some t.id := by simpa using h.2
    exact hne (o.eq_of_executionId h.1 hrow (heq.trans he.symm) ▸ hid)
  -- nobody had the execution in hand, since its token was there
  have hands (j : Nat) (e : String) (st : Status)
      (h : (Function.update states k { states k with phase := .claimer t } j).phase.holds? = some (e, st)) :
      (j = k ∧ e = t.executionId ∧ st = .suspended) ∨ (states j).phase.holds? = some (e, st) ∧ e ≠ t.executionId := by
    rcases hands_phase h with ⟨hj, h⟩ | ⟨-, h⟩
    · cases h
      exact .inl ⟨hj, rfl, rfl⟩
    · exact .inr ⟨h, fun heq => o.free j e st h row hrow (he.trans heq.symm)⟩
  refine ⟨hr ▸ o.distinct, o.seen_phase, fun j e st h => ?_, fun j j' e st st' h h' => ?_, ?_, fun other ho => ?_,
    fun j e st h other ho => ?_⟩
  · show after.records.status e = _
    rw [hr]
    rcases hands j e st h with ⟨-, rfl, rfl⟩ | ⟨h, -⟩
    · rw [← he]
      exact o.suspended row hrow
    · exact o.holds j e st h
  · rcases hands j e st h with ⟨hj, rfl, -⟩ | ⟨h, hne⟩ <;> rcases hands j' _ st' h' with ⟨hj', he', -⟩ | ⟨h', hne'⟩
    · rw [hj, hj']
    · exact absurd rfl hne'
    · exact absurd he' hne
    · exact o.apart j j' e st st' h h'
  · show after.waiting.Pairwise _
    rw [hw]
    exact o.single.sublist List.filter_sublist
  · show after.records.status _ = _
    rw [hr]
    exact o.suspended other (left ho).1
  · rcases hands j e st h with ⟨-, rfl, -⟩ | ⟨h, -⟩
    · exact (left ho).2
    · exact o.free j e st h other (left ho).1

/-- Whoever suspends an execution hands it over to the token. -/
theorem suspend {row : TokenRow} {now : Int} (o : Owned s states) (h : (states k).phase.Suspends row)
    (hx : Answers s.identifiers s.database (.statement (.suspend row now)) (.ok true) after) :
    Owned (s.answered k ⟨.statement (.suspend row now), .ok true⟩ after rest)
      (Function.update states k { states k with phase := .idle }) := by
  obtain ⟨distinct, hw, status⟩ := hx.suspended o.distinct
  have held := h.holds
  have hands (j : Nat) (e : String) (st : Status)
      (h : (Function.update states k { states k with phase := .idle } j).phase.holds? = some (e, st)) :
      (states j).phase.holds? = some (e, st) ∧ e ≠ row.executionId := by
    rcases hands_phase h with ⟨-, h⟩ | ⟨hj, h⟩
    · cases h
    · exact ⟨h, fun heq => hj (o.apart j k e st _ h (heq ▸ held))⟩
  refine ⟨distinct, o.seen_phase, fun j e st h => ?_, fun j j' e st st' h h' => ?_, ?_, fun other ho => ?_,
    fun j e st h other ho => ?_⟩
  · obtain ⟨h, hne⟩ := hands j e st h
    show after.records.status e = _
    rw [status, if_neg hne]
    exact o.holds j e st h
  · exact o.apart j j' e st st' (hands j e st h).1 (hands j' e st' h').1
  · show after.waiting.Pairwise _
    rw [hw]
    refine List.pairwise_append.2 ⟨o.single, List.pairwise_singleton _ _, fun a ha b hb => ?_⟩
    rw [List.mem_singleton.1 hb]
    exact o.free k _ _ held a ha
  · show after.records.status _ = _
    rw [status]
    split
    · rfl
    · rename_i hne
      have ho : other ∈ after.waiting := ho
      rw [hw, List.mem_append, List.mem_singleton] at ho
      rcases ho with ho | rfl
      · exact o.suspended other ho
      · exact absurd rfl hne
  · obtain ⟨h, hne⟩ := hands j e st h
    have ho : other ∈ after.waiting := ho
    rw [hw, List.mem_append, List.mem_singleton] at ho
    rcases ho with ho | rfl
    · exact o.free j e st h other ho
    · exact Ne.symm hne

/-- A token that is taken is the one that was seen under its identifier. -/
theorem mem_of_claim {drawn : Nat → Option String} {row : TokenRow} {t : Token} (o : Owned s states)
    (i : Identified s drawn) (hrow : row ∈ (states k).seen) (ht : row.token = .ok t)
    (hx : Answers s.identifiers s.database (.statement (.claim t.id)) (.ok true) after) :
    row ∈ s.database.waiting := by
  have hid := (Store.TokenRow.token_ok ht).id
  obtain ⟨⟨found, hf, hfid⟩, -, -⟩ := hx.claimed
  have heq : found = row := i.written_unique (i.tokens found hf) (o.seen k row hrow) hfid hid
  exact heq ▸ hf

theorem answered {drawn : Nat → Option String} (o : Owned s states) (i : Identified s drawn)
    (hx : Answers s.identifiers s.database r x after) (ht : Ownership.Turn (states k) r x rest state) :
    Owned (s.answered k ⟨r, x⟩ after rest) (Function.update states k state) := by
  have old : ∀ row ∈ (states k).seen, row ∈ (s.answered k ⟨r, x⟩ after rest).written := fun row hrow =>
    Pool.mem_written (o.seen k row hrow)
  cases ht with
  | quiet h => exact o.still (hx.unchanged h.still) old fun e st h => h
  | @found now limit rows =>
    refine o.still (hx.unchanged (r := .statement (.due now limit)) trivial) (fun row hrow => ?_) fun e st h => h
    rcases List.mem_append.1 hrow with hrow | hrow
    · rcases hx.due with h | ⟨f, h⟩
      · cases h
        exact Pool.mem_written (i.tokens row (Store.Tokens.mem_of_mem_due hrow))
      · cases h
    · exact old row hrow
  | began h => exact o.began h hx
  | present h => exact o.still (hx.not_inserted h) old fun e st h => h
  | took hrow ht => exact o.took (o.mem_of_claim i hrow ht hx) ht hx
  | missed h => exact o.still (hx.not_claimed h) old fun e st h => h
  | @started id now h =>
    obtain ⟨distinct, hw, status⟩ := (hx.advanced o.distinct).2
    obtain ⟨st, hold, hnew⟩ := h.holds
    refine o.keep distinct old (fun e he => ?_) (by rw [hw]) fun e st' h' => ?_
    · rw [status, if_neg]
      rintro rfl
      exact he st hold
    · obtain ⟨rfl, rfl⟩ := Prod.mk.inj (Option.some.inj (hnew.symm.trans h'))
      exact ⟨⟨st, hold⟩, by rw [status, if_pos rfl]⟩
  | refused h hne => exact o.still (hx.not_advanced hne) old fun e st h => h
  | @visited v y h _ =>
    refine o.still (hx.unchanged (r := .visit v) trivial) old fun e st h' => ?_
    rw [h.holds]
    exact h'
  | @left id status next now failure x h hn =>
    obtain ⟨distinct, hw, hst⟩ := hx.status_advance o.distinct
    refine o.keep distinct old (fun e he => ?_) (by rw [hw]) fun e st' h' => by cases h'
    rcases hst e with hst | ⟨rfl, -⟩
    · exact hst
    · exact absurd h (he status)
  | @suspended row now moved h =>
    cases moved with
    | true => exact o.suspend h hx
    | false => exact o.still (hx.not_suspended (by nofun)) old fun e st h' => by cases h'
  | unsuspended h => exact o.still (hx.not_suspended (by nofun)) old fun e st h' => h'

end Owned

/-! ### Runs -/

/-- What holds at the start and is kept by every turn among executions in hand holds in every pool. -/
theorem Pool.Reachable.owned_invariant {I : Pool → (Nat → Ownership.State) → Prop}
    (start : ∀ db, db.executions = some [] → db.tokens = some [] → I ⟨db, [], []⟩ fun _ => ⟨[], .idle⟩)
    (begin : ∀ s states job, I s states → I { s with tasks := s.tasks ++ [job] } states)
    (change : ∀ s states db, I s states → s.database.SameRecords db → I { s with database := db } states)
    (ask : ∀ (s : Pool) (states : Nat → Ownership.State) (k : Nat) (r : Request) (next : r.Answer → Job Unit)
      (x : r.Answer) (after : Database) (state : Ownership.State), Pool.Reachable Operation s → Owned s states →
      I s states → s.tasks[k]? = some (.ask r next) → Answers s.identifiers s.database r x after →
      Ownership.Turn (states k) r x (next x) state → I (s.answered k ⟨r, x⟩ after (next x)) (Function.update states k state))
    {s : Pool} (h : Pool.Reachable Operation s) : ∃ states, Owned s states ∧ I s states := by
  refine h.invariant (R := ownership) (I := fun s states => Owned s states ∧ I s states)
    (fun job hj => hj.obeys) (fun _ _ hx => hx) ?_ ?_ ?_ ?_
  · intro db he ht
    have hr : db.records = [] := by rw [Database.records, he, Option.getD_some]
    have hw : db.waiting = [] := by rw [Database.waiting, ht, Option.getD_some]
    have idle (e : String) (st : Status) : Phase.idle.holds? ≠ some (e, st) := by simp [Phase.holds?]
    refine ⟨⟨?_, by simp, ?_, ?_, ?_, ?_, ?_⟩, start db he ht⟩
    · show db.records.Distinct
      rw [hr]
      exact Executions.distinct_nil
    · exact fun _ e st h => absurd h (idle e st)
    · exact fun _ _ e st _ h => absurd h (idle e st)
    · show db.waiting.Pairwise _
      rw [hw]
      exact List.Pairwise.nil
    · show ∀ row ∈ db.waiting, _
      rw [hw]
      simp
    · exact fun _ e st h => absurd h (idle e st)
  · intro s states job _ hi
    exact ⟨⟨hi.1.distinct, hi.1.seen, hi.1.holds, hi.1.apart, hi.1.single, hi.1.suspended, hi.1.free⟩,
      begin s states job hi.2⟩
  · intro s states db hi hdb
    have hu := hdb.unchanged
    refine ⟨⟨?_, hi.1.seen, ?_, hi.1.apart, ?_, ?_, ?_⟩, change s states db hi.2 hdb⟩
    · exact hu.records ▸ hi.1.distinct
    · exact hu.records ▸ hi.1.holds
    · exact hu.waiting ▸ hi.1.single
    · exact hu.records ▸ hu.waiting ▸ hi.1.suspended
    · exact hu.waiting ▸ hi.1.free
  · intro s states k r next x after state hs hi hk hx ht
    obtain ⟨drawn, hd⟩ := hs.identified fun _ hj => hj.writes
    exact ⟨hi.1.answered hd hx ht, ask s states k r next x after state hs hi.1 hi.2 hk hx ht⟩

end Lifecycle
