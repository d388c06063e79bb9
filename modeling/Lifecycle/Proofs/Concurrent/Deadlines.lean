import Lifecycle.Proofs.Concurrent.Contexts
import Lifecycle.Proofs.Concurrent.RunOnce
import Lifecycle.Proofs.Concurrent.Suspension
import Lifecycle.Proofs.Host.Delays
import Lifecycle.Proofs.Host.Queries
import Lifecycle.Proofs.Store.Tokens

/-!
# When delays are over

The token of an execution that a delay has suspended comes due at the first whole millisecond at which the delay is over,
and is read back as it was written until then. If the delay ends in the last millisecond of the calendar or after it, the
token never comes due, and cannot be read back either.
-/

namespace Lifecycle

open Engine
open Store (Database Executions ExecutionRow TokenRow)
open Time (Instant lastNanos milliNanos roundedUp le_roundedUp roundedUp_lt)

/-- An execution waits for the end of a delay of an accepted workflow: the last visit in it was that of the delay, at
`site`. -/
structure Pool.Delayed (s : Pool) (e : String) (v : Visit) (d : Delay) (site : Host.Site) : Prop where
  accepted : ∃ definition, Workflow.ofDefinition definition = .ok v.workflow
  node : v.step ∈ v.workflow.graph.steps
  delay : v.step.kind = .delay d
  visited : (visitsOf e s.history).getLast? = some (v, (site.visit v).1)
  waits : ∃ row ∈ s.database.waiting, row.executionId = e

/-! ### The token of a delayed execution -/

/-- Where all values of `f` differ, each of them selects one element. -/
theorem filter_eq_singleton {α β : Type} [BEq β] [LawfulBEq β] {f : α → β} {l : List α} (h : l.Pairwise (f · ≠ f ·))
    {a : α} (ha : a ∈ l) : l.filter (f · == f a) = [a] := by
  obtain ⟨xs, ys, rfl⟩ := List.append_of_mem ha
  obtain ⟨-, hys, hxs⟩ := List.pairwise_append.1 h
  have hbefore : xs.filter (f · == f a) = [] := List.filter_eq_nil_iff.2 fun x hx he =>
    hxs x hx a List.mem_cons_self (eq_of_beq he)
  have hafter : ys.filter (f · == f a) = [] := List.filter_eq_nil_iff.2 fun y hy he =>
    (List.pairwise_cons.1 hys).1 y hy (eq_of_beq he).symm
  have hself : (f a == f a) = true := beq_self_eq_true (f a)
  rw [List.filter_append, hbefore, List.filter_cons, if_pos hself, hafter, List.nil_append]

variable {s : Pool} {e : String} {v : Visit} {d : Delay} {site : Host.Site}

/-- The token that waits for an execution is its only one. -/
theorem Pool.Reachable.tokensOf_eq (h : Pool.Reachable Operation s) {row : TokenRow} (hrow : row ∈ s.database.waiting) :
    s.database.tokensOf row.executionId = [row] := by
  obtain ⟨states, o, -⟩ := h.covered
  exact filter_eq_singleton o.single hrow

/-- An execution with a token that waits is on record as suspended. -/
theorem Pool.Reachable.record_of_waiting (h : Pool.Reachable Operation s) {row : TokenRow}
    (hrow : row ∈ s.database.waiting) : ∃ (r : ExecutionRow) (record : Record),
      s.database.records.get? row.executionId = some r ∧ r.record = .ok record ∧ record.id = row.executionId ∧
        record.status = .suspended := by
  obtain ⟨states, o, -⟩ := h.covered
  obtain ⟨r, hr, hstatus⟩ := Option.map_eq_some_iff.1 (o.suspended row hrow)
  obtain ⟨hmem, hid⟩ := Executions.mem_of_get? hr
  have i := h.recorded_of_writes fun _ hj => hj.writes
  obtain ⟨record, hrecord⟩ := (i.readable r hmem).record
  obtain ⟨hid', hname, -⟩ := ExecutionRow.record_ok hrecord
  exact ⟨r, record, hr, hrecord, Option.some.inj (hid'.symm.trans hid), Status.name_injective (hname.trans hstatus)⟩

/-- The only token of a delayed execution: it was written for the end of the delay, or for the last instant. -/
theorem Pool.Delayed.token (p : s.Delayed e v d site) (h : Pool.Reachable Operation s) :
    ∃ (t : Token) (next : Lifecycle.Step), s.database.tokensOf e = [.ofToken t] ∧
      v.workflow.graph.successor? v.step.id .next = some next ∧
      t.executionId = e ∧ t.resumeNodeId = next.id ∧ t.snapshot = v.context.toJson ∧ v.context.Durable ∧
      t.resumeAt.nanos = min (d.over site.worker.clock) lastNanos := by
  obtain ⟨definition, hw⟩ := p.accepted
  obtain ⟨row, hrow, rfl⟩ := p.waits
  obtain ⟨⟨u, deadline, next, id, created, hlast, hnext, hofToken⟩, durable⟩ := h.written hrow
  have hvisit := hlast.symm.trans p.visited
  rw [Host.Site.visit_delay p.delay] at hvisit
  cases hvisit
  have proper := Workflow.proper_of_mem hw p.node p.delay
  refine ⟨⟨id, v.record.id, next.id, Handling.delayEnd d site.worker.clock, v.context.toJson, created⟩, next, ?_, hnext, ?_,
    rfl, rfl, durable _ (List.mem_of_getLast? hlast), Handling.nanos_delayEnd proper _⟩
  · rw [h.tokensOf_eq hrow, hofToken]
  · rw [hofToken]
    rfl

/-! ### Reading it -/

/-- A site finds the record of a delayed execution. -/
theorem Pool.Delayed.found (p : s.Delayed e v d site) (h : Pool.Reachable Operation s) {reader : Host.Site}
    (hr : reader.database = s.database) : ∃ record : Record,
      reader.perform (getRecord e).run = (.ok (some record), reader) ∧ record.id = e ∧ record.status = .suspended := by
  obtain ⟨row, hrow, rfl⟩ := p.waits
  obtain ⟨r, record, hget, hrecord, hid, hstatus⟩ := h.record_of_waiting hrow
  have hl := h.tables.1
  rw [← hr] at hget hl
  exact ⟨record, reader.perform_getRecord hl hget hrecord, hid, hstatus⟩

/-- A site reads the only token of an execution from its row. -/
theorem Pool.Reachable.perform_tokensOf (h : Pool.Reachable Operation s) {reader : Host.Site}
    (hr : reader.database = s.database) {row : TokenRow} (hrow : s.database.tokensOf e = [row]) :
    reader.perform (tokensOf e).run = reader.perform ([row].mapM fun row => readRow row.token).run := by
  have hts := h.tables.2
  rw [← hr] at hts hrow
  have single : reader.database.waiting.ofExecution e = [row] := by
    show (reader.database.tokensOf e).mergeSort _ = _
    rw [hrow]
    exact List.mergeSort_singleton ..
  rw [reader.perform_tokensOf hts e, single]

/-- The token is read back as it was written, due at the first whole millisecond after the delay. -/
theorem Pool.Delayed.readable (p : s.Delayed e v d site) (h : Pool.Reachable Operation s) (reader : Host.Site)
    (hr : reader.database = s.database) (hin : d.over site.worker.clock ≤ Instant.last.floorMillis * milliNanos) :
    ∃ (token : Token) (next : Lifecycle.Step), v.workflow.graph.successor? v.step.id .next = some next ∧
      reader.perform (tokensOf e).run = (.ok [token], reader) ∧
      token.executionId = e ∧ token.resumeNodeId = next.id ∧ token.snapshot = v.context.toJson ∧
      token.resumeAt.nanos = roundedUp (d.over site.worker.clock) := by
  obtain ⟨t, next, htokens, hnext, he, hnode, hsnapshot, hdurable, hnanos⟩ := p.token h
  have hend : t.resumeAt.nanos = d.over site.worker.clock := by
    rw [hnanos]
    exact Int.min_eq_left (Int.le_trans hin (Int.le_of_lt Instant.floorMillis_last_lt))
  obtain ⟨token, hread, restores⟩ := TokenRow.token_ofToken (hend ▸ hin)
  have query := h.perform_tokensOf hr htokens
  rw [mapM_readRow (f := fun _ => token) (List.forall_mem_singleton.2 hread)] at query
  refine ⟨token, next, hnext, query, restores.execution.trans he, restores.node.trans hnode, ?_, ?_⟩
  · rw [restores.snapshot, hsnapshot, Context.readSnapshot_toJson hdurable]
  · rw [restores.due, hend]

/-- A token that comes due in the last millisecond of the calendar or after it cannot be read. -/
theorem Pool.Delayed.unreadable (p : s.Delayed e v d site) (h : Pool.Reachable Operation s) (reader : Host.Site)
    (hr : reader.database = s.database) (hout : Instant.last.floorMillis * milliNanos < d.over site.worker.clock) :
    reader.perform (tokensOf e).run =
      (.error (.corrupt (Store.Corruption.time "resume_at" (Instant.last.floorMillis + 1)).message), reader) := by
  obtain ⟨t, next, htokens, -, -, -, -, -, hnanos⟩ := p.token h
  have hend : Instant.last.floorMillis * milliNanos < t.resumeAt.nanos := by
    rw [hnanos]
    exact lt_min hout Instant.floorMillis_last_lt
  have corrupt := TokenRow.token_ofToken_error hend
  rw [Instant.ceilMillis_of_last hend] at corrupt
  have query := h.perform_tokensOf hr htokens
  rw [mapM_readRow_corrupt corrupt] at query
  exact query

/-! ### Coming due -/

/-- Whatever a clock finds due can be read. -/
theorem Pool.Reachable.readable (h : Pool.Reachable Operation s) {row : TokenRow} (hrow : row ∈ s.database.waiting)
    {u : Instant} (hdue : row.resumeAt.le (.int u.floorMillis) = true) : ∃ token, row.token = .ok token := by
  obtain ⟨⟨v, deadline, next, id, created, -, -, rfl⟩, -⟩ := h.written hrow
  obtain ⟨token, ht, -⟩ := TokenRow.token_of_due hdue
  exact ⟨token, ht⟩

/-- Whatever is due can be read, so that looking for tokens yields all of them up to the limit. -/
theorem Pool.Reachable.dueTokens_ok (h : Pool.Reachable Operation s) (sweeper : Host.Site)
    (hs : sweeper.database = s.database) (limit : Nat) : ∃ read : TokenRow → Token,
      (sweeper.perform (dueTokens limit).run).1 =
        .ok ((s.database.waiting.due sweeper.worker.clock.floorMillis limit).map read) ∧
      ∀ row ∈ s.database.waiting.due sweeper.worker.clock.floorMillis limit, row.token = .ok (read row) := by
  refine sweeper.perform_dueTokens_ok (hs ▸ h.tables.2) limit fun row hrow => ?_
  exact h.readable (Store.Tokens.mem_of_mem_due hrow) (Store.Tokens.le_of_mem_due hrow)

/-! ### A delay of some days -/

namespace Sample

/-- The visit of the delay. -/
def pause (days : Nat) : Visit :=
  ⟨pausing days, record, ((Context.ofChange "a" "b").enter "t" .epoch).enter "d" .epoch, ⟨"d", .delay ⟨days, .days⟩⟩⟩

/-- An execution waits for the end of the delay. -/
theorem reachable_delayed (days : Nat) (hw : Workflow.ofDefinition (pauseDefinition days) = .ok (pausing days)) :
    ∃ s, Pool.Reachable Operation s ∧ ∀ db, s.Delayed "e" (pause days) ⟨days, .days⟩ (worker .epoch db) := by
  let deadline := Handling.delayEnd ⟨days, .days⟩ .epoch
  have unseen : "k" ∉ ["e"] := by decide
  obtain ⟨history, f, walking, hids⟩ := reachable_walking (w := pausing days) rfl rfl rfl rfl
  rw [walkFrom_eq] at walking
  have now := walking.ask_alone (r := .now) (x := .epoch) rfl
  have entered := now.ask_alone (r := .visit _) (x := .ok .proceed) ⟨rfl, rfl⟩
  have second : Pool.Reachable Operation ⟨running, [(walkFrom (pausing days) record ⟨"d", .delay ⟨days, .days⟩⟩
    ((Context.ofChange "a" "b").enter "t" .epoch)).run >>= f], _⟩ := entered
  rw [walkFrom_eq] at second
  have now := second.ask_alone (r := .now) (x := .epoch) rfl
  have visited := now.ask_alone (r := .visit (pause days)) (x := .ok (.suspend deadline)) ⟨rfl, rfl⟩
  have drawn := visited.ask_alone (r := .fresh) (x := "k")
    ⟨by simp only [List.filterMap_append, hids]; exact unseen, rfl⟩
  have created := drawn.ask_alone (r := .now) (x := .epoch) rfl
  have moved := created.ask_alone (r := .now) (x := .epoch) rfl
  have written := moved.ask_alone (r := .statement (.suspend (.ofToken
    ⟨"k", "e", "g", deadline, (pause days).context.toJson, .epoch⟩) 0)) (x := .ok true) (.inl rfl)
  refine ⟨_, written, fun db => ⟨⟨_, hw⟩, ?_, rfl, ?_, _, List.mem_singleton_self _, rfl⟩⟩
  · exact List.mem_cons_of_mem _ List.mem_cons_self
  · have he : (pause days).record.id = "e" := rfl
    rw [Host.Site.visit_delay rfl, visitsOf_other rfl, visitsOf_other rfl, visitsOf_other rfl, visitsOf_other rfl,
      visitsOf_visit, if_pos he, List.getLast?_concat]
    rfl

end Sample

/-! ### What is promised -/

/-- The token of an execution that waits for the end of a delay is read back as it was written, due less than a millisecond
after the delay, and shown with the execution, if a whole millisecond follows the delay in the calendar; else it cannot be
read, and the execution cannot be shown. -/
theorem delay_read_back (h : Pool.Reachable Operation s) (p : s.Delayed e v d site) (reader : Host.Site)
    (hr : reader.database = s.database) :
    (d.over site.worker.clock ≤ Instant.last.floorMillis * milliNanos →
      ∃ (token : Token) (next : Step) (record : Record), v.workflow.graph.successor? v.step.id .next = some next ∧
        (reader.perform (tokensOf e).run).1 = .ok [token] ∧
        (reader.perform (Web.showExecution e)).1 =
          Web.ok (.object [("execution", record.toJson), ("continuations", .arr [token.toJson])]) ∧
        record.id = e ∧ record.status = .suspended ∧
        token.executionId = e ∧ token.resumeNodeId = next.id ∧ token.snapshot = v.context.toJson ∧
        d.over site.worker.clock ≤ token.resumeAt.nanos ∧
        token.resumeAt.nanos < d.over site.worker.clock + milliNanos) ∧
    (Instant.last.floorMillis * milliNanos < d.over site.worker.clock →
      (reader.perform (tokensOf e).run).1 =
          .error (.corrupt (Store.Corruption.time "resume_at" (Instant.last.floorMillis + 1)).message) ∧
        (reader.perform (Web.showExecution e)).1 = Web.broken "Failed to load continuations") := by
  obtain ⟨record, found, hid, hstatus⟩ := p.found h hr
  refine ⟨fun hin => ?_, fun hout => ?_⟩
  · obtain ⟨token, next, hnext, query, he, hnode, hsnapshot, hdue⟩ := p.readable h reader hr hin
    exact ⟨token, next, record, hnext, congrArg Prod.fst query, reader.perform_showExecution found query, hid, hstatus, he,
      hnode, hsnapshot, hdue ▸ le_roundedUp _, hdue ▸ roundedUp_lt _⟩
  · have query := p.unreadable h reader hr hout
    exact ⟨congrArg Prod.fst query, reader.perform_showExecution_error found query⟩

/-- After a delay of one day the token is read back. -/
theorem read_back_of_day : ∃ s, Pool.Reachable Operation s ∧
    s.Delayed "e" (Sample.pause 1) ⟨1, .days⟩ (Sample.worker .epoch s.database) ∧
    ∃ token : Token, ((Sample.worker .epoch s.database).perform (tokensOf "e").run).1 = .ok [token] ∧
      token.resumeNodeId = "g" ∧ (⟨1, .days⟩ : Delay).over .epoch ≤ token.resumeAt.nanos := by
  obtain ⟨s, h, p⟩ := Sample.reachable_delayed 1 rfl
  have hin : (⟨1, .days⟩ : Delay).over .epoch ≤ Instant.last.floorMillis * milliNanos := by decide
  obtain ⟨token, next, record, hnext, query, -, -, -, -, hnode, -, hdue, -⟩ :=
    (delay_read_back h (p s.database) (Sample.worker .epoch s.database) rfl).1 hin
  have hg : next.id = "g" := by
    cases hnext
    rfl
  exact ⟨s, h, p s.database, token, query, hnode.trans hg, hdue⟩

/-- After the longest delay in days nothing is read back, though the token waits. -/
theorem unreadable_of_longest : ∃ s, Pool.Reachable Operation s ∧
    s.Delayed "e" (Sample.pause 106751991167) ⟨106751991167, .days⟩ (Sample.worker .epoch s.database) ∧
    ¬ ∃ tokens : List Token, ((Sample.worker .epoch s.database).perform (tokensOf "e").run).1 = .ok tokens := by
  obtain ⟨s, h, p⟩ := Sample.reachable_delayed 106751991167 rfl
  have hout : Instant.last.floorMillis * milliNanos < (⟨106751991167, .days⟩ : Delay).over .epoch := by decide
  have query := (p s.database).unreadable h (Sample.worker .epoch s.database) rfl hout
  refine ⟨s, h, p s.database, ?_⟩
  rintro ⟨tokens, hok⟩
  rw [query] at hok
  cases hok

/-- At whatever time and at whatever site a sweep looks for tokens: it can read all that it finds; it finds the token of a
delayed execution, unless its batch is full, if and only if its clock has reached the end of the delay rounded up to a
whole millisecond; and it does not find it before the delay is over, nor if the delay is over after the calendar. -/
theorem delay_comes_due (h : Pool.Reachable Operation s) (p : s.Delayed e v d site) (sweeper : Host.Site)
    (hs : sweeper.database = s.database) (limit : Nat) :
    ∃ tokens : List Token, (sweeper.perform (dueTokens limit).run).1 = .ok tokens ∧
      ((∃ token ∈ tokens, token.executionId = e) → roundedUp (d.over site.worker.clock) ≤ sweeper.worker.clock.nanos) ∧
      (roundedUp (d.over site.worker.clock) ≤ sweeper.worker.clock.nanos →
        (∃ token ∈ tokens, token.executionId = e) ∨ tokens.length = limit) ∧
      (sweeper.worker.clock.nanos < d.over site.worker.clock ∨ lastNanos < d.over site.worker.clock →
        ∀ token ∈ tokens, token.executionId ≠ e) := by
  obtain ⟨t, next, htokens, -, he, -, -, -, hnanos⟩ := p.token h
  obtain ⟨read, hdue, hread⟩ := h.dueTokens_ok sweeper hs limit
  obtain ⟨hmem, -⟩ : TokenRow.ofToken t ∈ s.database.waiting ∧ _ :=
    List.mem_filter.1 (htokens ▸ List.mem_singleton_self (TokenRow.ofToken t))
  have reached : (TokenRow.ofToken t).resumeAt.le (.int sweeper.worker.clock.floorMillis) = true ↔
      roundedUp (d.over site.worker.clock) ≤ sweeper.worker.clock.nanos := by
    rw [TokenRow.due_ofToken_iff, hnanos, Instant.roundedUp_min_le_iff]
  have found : (∃ token ∈ (s.database.waiting.due sweeper.worker.clock.floorMillis limit).map read, token.executionId = e) →
      roundedUp (d.over site.worker.clock) ≤ sweeper.worker.clock.nanos := by
    rintro ⟨token, hmem, htoken⟩
    obtain ⟨row, hrow, rfl⟩ := List.mem_map.1 hmem
    have hexec : row.executionId = e := (TokenRow.token_ok (hread row hrow)).execution.trans htoken
    have hrow' : row ∈ s.database.tokensOf e := List.mem_filter.2 ⟨Store.Tokens.mem_of_mem_due hrow, beq_iff_eq.2 hexec⟩
    rw [htokens, List.mem_singleton] at hrow'
    exact reached.1 (hrow' ▸ Store.Tokens.le_of_mem_due hrow)
  refine ⟨_, hdue, found, fun hle => ?_, fun hearly token htoken heq => ?_⟩
  · rcases Store.Tokens.mem_due_or_full hmem (reached.2 hle) limit with hrow | hfull
    · refine .inl ⟨_, List.mem_map_of_mem hrow, ?_⟩
      exact (TokenRow.token_ok (hread _ hrow)).execution.symm.trans he
    · exact .inr ((List.length_map ..).trans hfull)
  · have hover := Int.le_trans (le_roundedUp _) (found ⟨token, htoken, heq⟩)
    have hlast := sweeper.worker.clock.le_last
    omega

/-- One day later a sweep finds the token, unless its batch is full. -/
theorem comes_due_of_day : ∃ (s : Pool) (later : Instant), Pool.Reachable Operation s ∧
    s.Delayed "e" (Sample.pause 1) ⟨1, .days⟩ (Sample.worker .epoch s.database) ∧
    ∃ tokens : List Token, ((Sample.worker later s.database).perform (dueTokens 100).run).1 = .ok tokens ∧
      ((∃ token ∈ tokens, token.executionId = "e") ∨ tokens.length = 100) := by
  obtain ⟨s, h, p⟩ := Sample.reachable_delayed 1 rfl
  let later : Instant := ⟨86400 * Time.secondNanos, by decide, by decide⟩
  have reached : roundedUp ((⟨1, .days⟩ : Delay).over .epoch) ≤ later.nanos := by decide
  obtain ⟨tokens, query, -, found, -⟩ := delay_comes_due h (p s.database) (Sample.worker later s.database) rfl 100
  exact ⟨s, later, h, p s.database, tokens, query, found reached⟩

end Lifecycle
