import Lifecycle.Proofs.Concurrent.Deadlines
import Lifecycle.Proofs.Host.Resuming

/-!
# Sweeps

A sweep reads the tokens that are due and picks them up one after the other: it takes the token out of the table, and resumes
its execution. What comes of one token is nothing to the tokens of other executions, which are resumed as they would have been
at the beginning of the sweep.
-/

namespace Lifecycle

open Engine
open Host (Site Worker)
open Store (Database ExecutionRow TokenRow Executions Tokens DefinitionRow Definitions)

namespace Host.Site

variable {s : Site} {t : Token} {id : String}

/-! ### Reading what is due -/

theorem reads_of_mapM {rows : List TokenRow} {tokens : List Token}
    (h : (s.perform (rows.mapM fun row => readRow row.token).run).1 = .ok tokens) :
    List.Forall₂ (fun row t => row.token = .ok t) rows tokens := by
  induction rows generalizing tokens with
  | nil =>
    cases h
    exact .nil
  | cons row rows ih =>
    rw [List.mapM_cons] at h
    cases hr : row.token with
    | error e =>
      rw [hr] at h
      cases h
    | ok t =>
      rw [hr, s.perform_attempt_ok (p := readRow (.ok t)) rfl, perform_attempt] at h
      match hrest : s.perform (rows.mapM fun row => readRow row.token).run with
      | (.error e, s') =>
        rw [hrest] at h
        cases h
      | (.ok rest, s') =>
        rw [hrest] at h
        cases h
        exact .cons hr (ih (congrArg Prod.fst hrest))

/-- The tokens that are due are read from their rows. -/
theorem reads_of_dueTokens {limit : Nat} {tokens : List Token} (h : (s.perform (dueTokens limit).run).1 = .ok tokens) :
    ∃ ts, s.database.tokens = some ts ∧
      List.Forall₂ (fun row t => row.token = .ok t) (ts.due s.worker.clock.floorMillis limit) tokens := by
  obtain ⟨⟨executions, tokens', definitions, templates, hostTables⟩, serial, worker⟩ := s
  cases tokens' with
  | none => cases h
  | some ts =>
    rw [perform_dueTokens _ rfl] at h
    exact ⟨ts, rfl, reads_of_mapM h⟩

/-- What is read from rows has their columns. -/
theorem map_of_reads {α : Type} {rows : List TokenRow} {tokens : List Token} {f : TokenRow → α} {g : Token → α}
    (hfg : ∀ row t, row.token = .ok t → f row = g t) (h : List.Forall₂ (fun row t => row.token = .ok t) rows tokens) :
    rows.map f = tokens.map g := by
  induction h with
  | nil => rfl
  | cons hr _ ih => rw [List.map_cons, List.map_cons, hfg _ _ hr, ih]

/-! ### Tokens in a sweep -/

/-- The site without a token. -/
def without (s : Site) (id : String) : Site :=
  { s with database := { s.database with tokens := s.database.tokens.map (·.filter (·.id != some id)) } }

theorem perform_claim {ts : Tokens} (h : s.database.tokens = some ts) (id : String) :
    s.perform (claim id).run = (.ok (ts.any (·.id == some id)), s.without id) := by
  have hx := Store.Statement.execute_claim h id
  have hrun : s.perform (claim id).run =
      ((s.execute (.claim id)).1.mapError EngineFault.database, (s.execute (.claim id)).2) := rfl
  rw [hrun]
  unfold execute without
  rw [hx, h]
  rfl

theorem perform_pickUp {ts : Tokens} (h : s.database.tokens = some ts) (t : Token) :
    s.perform (pickUp t) = if ts.any (·.id == some t.id)
      then (.resumed ((s.without t.id).perform (resume t).run).1, ((s.without t.id).perform (resume t).run).2)
      else (.missed, s.without t.id) := by
  unfold pickUp
  rw [perform_bind, perform_claim h]
  cases ts.any (·.id == some t.id) with
  | false => rfl
  | true =>
    rw [if_pos rfl]
    exact (s.without t.id).perform_bind (resume t).run fun result => pure (Pickup.resumed result)

theorem leavesBe_pickUp {ts : Tokens} (h : s.database.tokens = some ts) (filed : s.registry.Filed)
    (hne : id ≠ t.executionId) : s.LeavesBe id (s.perform (pickUp t)).2 := by
  have hwithout : s.LeavesBe id (s.without t.id) := .of_registry rfl rfl
  rw [perform_pickUp h]
  split
  · exact hwithout.trans (leavesBe_resume (hwithout.filed filed) hne)
  · exact hwithout

/-- A sweep takes no token but the ones that it picks up. -/
theorem mem_waiting_pickUp {ts : Tokens} (h : s.database.tokens = some ts) {row : TokenRow} (hrow : row ∈ ts)
    (hne : row.id ≠ some t.id) :
    ∃ ts', (s.perform (pickUp t)).2.database.tokens = some ts' ∧ row ∈ ts' := by
  have hwithout : (s.without t.id).database.tokens = some (ts.filter (·.id != some t.id)) :=
    congrArg (Option.map (List.filter fun row : TokenRow => row.id != some t.id)) h
  have hmem : row ∈ ts.filter (·.id != some t.id) := List.mem_filter.2 ⟨hrow, by simpa using hne⟩
  rw [perform_pickUp h]
  split
  · have adds := gains_resume (P := fun _ => True) (s.without t.id) t fun record w step context s' _ _ =>
      gains_of_only ((concerns_walkFrom w record step context).imp fun _ => .of_concerns) s'
    obtain ⟨ts', hts'⟩ := Option.isSome_iff_exists.1 (adds.table (hwithout ▸ rfl))
    obtain ⟨added, hw, -⟩ := adds.waiting
    refine ⟨ts', hts', ?_⟩
    unfold Database.waiting at hw
    rw [hts', hwithout, Option.getD_some, Option.getD_some] at hw
    rw [hw]
    exact List.mem_append_left _ hmem
  · exact ⟨_, hwithout, hmem⟩

/-- The site once a sweep has picked up some tokens. -/
def pickedUp (s : Site) (ts : List Token) : Site := (s.perform (ts.mapM pickUp)).2

theorem pickedUp_nil (s : Site) : s.pickedUp [] = s := rfl

theorem pickedUp_cons (s : Site) (t : Token) (ts : List Token) :
    s.pickedUp (t :: ts) = (s.perform (pickUp t)).2.pickedUp ts := by
  unfold pickedUp
  rw [List.mapM_cons, perform_bind, perform_bind]
  rfl

theorem pickedUp_there {ts : Tokens} (h : s.database.tokens = some ts) (there : ts.any (·.id == some t.id) = true)
    (after : List Token) : s.pickedUp (t :: after) = ((s.without t.id).perform (resume t).run).2.pickedUp after := by
  rw [pickedUp_cons, perform_pickUp h, if_pos there]

/-- A sweep comes to a token with its execution as it was, and with the token there. -/
theorem leavesBe_pickedUp {before : List Token} (filed : s.registry.Filed) {ts : Tokens} (h : s.database.tokens = some ts)
    {row : TokenRow} (hrow : row ∈ ts) (hid : ∀ u ∈ before, row.id ≠ some u.id)
    (hne : ∀ u ∈ before, id ≠ u.executionId) :
    s.LeavesBe id (s.pickedUp before) ∧ ∃ ts', (s.pickedUp before).database.tokens = some ts' ∧ row ∈ ts' := by
  induction before generalizing s ts with
  | nil => exact ⟨.refl s, ts, h, hrow⟩
  | cons u before ih =>
    rw [pickedUp_cons]
    have hbe := leavesBe_pickUp h filed (hne u List.mem_cons_self)
    obtain ⟨ts', hts', hrow'⟩ := mem_waiting_pickUp h hrow (hid u List.mem_cons_self)
    obtain ⟨hrest, hthere⟩ := ih (hbe.filed filed) hts' hrow' (fun v hv => hid v (List.mem_cons_of_mem u hv))
      fun v hv => hne v (List.mem_cons_of_mem u hv)
    exact ⟨hbe.trans hrest, hthere⟩

theorem perform_sweep {batch : Nat} {tokens : List Token} (h : (s.perform (dueTokens (max batch 1)).run).1 = .ok tokens) :
    s.perform (sweep batch).run =
      (.ok ((s.perform (tokens.mapM pickUp)).1.foldl SweepTally.note { due := tokens.length }), s.pickedUp tokens) := by
  have hsite : (s.perform (dueTokens (max batch 1)).run).2 = s := s.perform_queries (only_dueTokens _ trivial fun _ => trivial)
  rw [sweep_eq, s.perform_attempt_ok (Prod.ext h hsite)]
  refine (s.perform_bind (do return (← tokens.mapM pickUp).foldl SweepTally.note { due := tokens.length })
    fun report => pure (Except.ok report)).trans ?_
  rw [perform_bind]
  rfl

theorem pickedUp_append (s : Site) (before after : List Token) :
    s.pickedUp (before ++ after) = (s.pickedUp before).pickedUp after := by
  induction before generalizing s with
  | nil => rfl
  | cons t before ih => rw [List.cons_append, pickedUp_cons, pickedUp_cons, ih]

/-- In its turn a token is there to be claimed, and is resumed where it would have been resumed at the beginning of the sweep,
as no token before it is of its execution. -/
theorem claim_in_turn (filed : s.registry.Filed) (distinct : s.database.waiting.Distinct) {limit : Nat}
    {before after : List Token} (hdue : (s.perform (dueTokens limit).run).1 = .ok (before ++ t :: after))
    (other : ∀ u ∈ before, u.executionId ≠ t.executionId) :
    let here := (s.pickedUp before).without t.id
    (s.pickedUp before).perform (claim t.id).run = (.ok true, here) ∧
      s.pickedUp (before ++ t :: after) = (here.perform (resume t).run).2.pickedUp after ∧ here.origin? t = s.origin? t := by
  intro here
  obtain ⟨ts, hts, reads⟩ := reads_of_dueTokens hdue
  have hwaiting : s.database.waiting = ts := by
    unfold Database.waiting
    rw [hts, Option.getD_some]
  have hids := map_of_reads (f := (·.id)) (g := fun t => some t.id) (fun row t h => (TokenRow.token_ok h).id) reads
  obtain ⟨row, hrow, hid⟩ : ∃ row ∈ ts, row.id = some t.id := by
    have hmem : some t.id ∈ (ts.due s.worker.clock.floorMillis limit).map (·.id) :=
      hids ▸ List.mem_map.2 ⟨t, List.mem_append_right _ List.mem_cons_self, rfl⟩
    obtain ⟨row, hrow, hid⟩ := List.mem_map.1 hmem
    exact ⟨row, Tokens.mem_of_mem_due hrow, hid⟩
  -- no token before it in the batch takes its row, as the identifiers in the table differ
  have apart : ∀ u ∈ before, row.id ≠ some u.id := by
    have hdistinct := List.pairwise_map.2 (Tokens.pairwise_due Ne.symm (hwaiting ▸ distinct) s.worker.clock.floorMillis limit)
    rw [hids, List.map_append, List.pairwise_append] at hdistinct
    intro u hu he
    exact hdistinct.2.2 _ (List.mem_map_of_mem hu) _ List.mem_cons_self (he.symm.trans hid)
  obtain ⟨be, ts', hts', hrow'⟩ := leavesBe_pickedUp filed hts hrow apart fun u hu => (other u hu).symm
  have there : ts'.any (·.id == some t.id) = true := List.any_eq_true.2 ⟨row, hrow', beq_iff_eq.2 hid⟩
  refine ⟨?_, ?_, origin?_congr be.suspended be.current⟩
  · rw [perform_claim hts', there]
  · rw [pickedUp_append, pickedUp_there hts' there]

/-! ### Tokens that cannot be resumed -/

/-- A token whose execution is not on record, or not suspended, is passed over. -/
theorem resume_idle {l : Executions} (hl : s.database.executions = some l)
    (h : ∀ row, l.get? t.executionId = some row → ∃ record, row.record = .ok record ∧ record.status ≠ .suspended) :
    s.perform (resume t).run = (.ok .skipped, s) ∧ s.entered (resume t).run = [] := by
  have hrecords : s.database.records = l := by rw [Database.records, hl, Option.getD_some]
  have hidle : ∀ record, (s.perform (getRecord t.executionId).run).1 = .ok (some record) → record.status ≠ .suspended := by
    intro record hfound hs
    obtain ⟨row, hsuspended, hr⟩ := finds_iff.1 ⟨hfound, hs⟩
    obtain ⟨record', hr', hne⟩ := h row (hrecords ▸ (Database.suspended?_eq_some.1 hsuspended).1)
    cases hr.symm.trans hr'
    exact hne hs
  obtain ⟨found, hfound⟩ : ∃ found, (s.perform (getRecord t.executionId).run).1 = .ok found := by
    cases hrow : l.get? t.executionId with
    | none => exact ⟨none, congrArg Prod.fst (s.perform_getRecord_none hl hrow)⟩
    | some row =>
      obtain ⟨record, hr, -⟩ := h row hrow
      exact ⟨some record, congrArg Prod.fst (s.perform_getRecord hl hrow hr)⟩
  obtain ⟨hsite, hentered, hresult⟩ := perform_resume_idle hidle
  exact ⟨Prod.ext (hresult found hfound) hsite, hentered⟩

/-- The execution of a token that cannot go on fails at the node of the token. -/
theorem resume_stranded {l : Executions} (hl : s.database.executions = some l) {row : ExecutionRow} {record : Record}
    (hrow : l.get? t.executionId = some row) (hr : row.record = .ok record) (hs : record.status = .suspended)
    (h : ∃ e, s.Strands record t e) : ∃ e c, s.Strands record t e ∧ s.perform (resume t).run =
      (.ok (.failed t.resumeNodeId e.message), { s.withCache c with database := { s.database with
        executions := some
          (l.advance t.executionId .failed s.worker.clock.floorMillis (some ⟨t.resumeNodeId, e.message⟩)).2 } }) ∧
      s.entered (resume t).run = [] := by
  have hid : record.id = t.executionId :=
    Option.some.inj ((ExecutionRow.record_ok hr).1.symm.trans (Executions.mem_of_get? hrow).2)
  rcases s.resumption_cases record t with ⟨e, hstrands, he⟩ | ⟨w, step, context, hcontext, hw, hn, -⟩
  · obtain ⟨c, hrun, hentered⟩ := perform_resume_stranded hl (congrArg Prod.fst (s.perform_getRecord hl hrow hr)) hs he
    exact ⟨e, c, hstrands, hid ▸ hrun, hentered⟩
  · obtain ⟨e, hstrands⟩ := h
    cases hstrands with
    | snapshot h => cases hcontext.symm.trans h
    | workflow h => cases hw.symm.trans h
    | node hw' h =>
      cases hw.symm.trans hw'
      cases hn.symm.trans h

end Host.Site

/-- In a pool no two tokens have the same identifier. -/
theorem Pool.Reachable.tokens_distinct {p : Pool} (h : Pool.Reachable Operation p) : p.database.waiting.Distinct := by
  obtain ⟨states, o, -⟩ := h.covered
  obtain ⟨drawn, i⟩ := h.identified fun _ hj => hj.writes
  refine o.single.imp_of_mem fun {a b} ha hb hne hid => hne ?_
  obtain ⟨⟨v, deadline, next, id, created, -, -, rfl⟩, -⟩ := h.written ha
  rw [i.written_unique (i.tokens _ ha) (i.tokens _ hb) rfl hid.symm]

/-- In a pool the tokens of a batch belong to different executions. -/
theorem Pool.Reachable.executions_distinct {p : Pool} (h : Pool.Reachable Operation p) {s : Site}
    (hp : p.database = s.database) {limit : Nat} {tokens : List Token}
    (hdue : (s.perform (dueTokens limit).run).1 = .ok tokens) : tokens.Pairwise (·.executionId ≠ ·.executionId) := by
  obtain ⟨states, o, -⟩ := h.covered
  obtain ⟨ts, hts, reads⟩ := Site.reads_of_dueTokens hdue
  have single : ts.Pairwise (·.executionId ≠ ·.executionId) := by
    have := o.single
    rwa [hp, Database.waiting, hts] at this
  have hexecutions := Site.map_of_reads (fun row t h => (TokenRow.token_ok h).execution) reads
  refine List.pairwise_map.1 (?_ : (tokens.map (·.executionId)).Pairwise (· ≠ ·))
  rw [← hexecutions, List.pairwise_map]
  exact Tokens.pairwise_due Ne.symm single ..

/-- A token whose execution is not on record, or is not suspended, is passed over: no node is visited and nothing changes. If
its snapshot cannot be read, the workflow is not found or the workflow has no such node any more, then no node is visited and
no token is written, and the execution fails at the node of the token, as it is told. And in a sweep a token is resumed, and at
the node, as it would have been at the beginning, whatever came of the tokens of other executions before it; where no two
tokens belong to one execution, as in every pool, these are all tokens before it. -/
theorem unresumable_tokens_do_nothing (s : Site) :
    (∀ t l, s.database.executions = some l →
      ((∀ row, l.get? t.executionId = some row → ∃ record, row.record = .ok record ∧ record.status ≠ .suspended) →
        s.perform (resume t).run = (.ok .skipped, s) ∧ s.entered (resume t).run = []) ∧
      ∀ row record, l.get? t.executionId = some row → row.record = .ok record → record.status = .suspended →
        (∃ e, s.Strands record t e) → ∃ e, s.Strands record t e ∧
          let out := s.perform (resume t).run
          let failed : ExecutionRow := row.moved .failed s.worker.clock.floorMillis (some ⟨t.resumeNodeId, e.message⟩)
          out.1 = .ok (.failed t.resumeNodeId e.message) ∧ s.entered (resume t).run = [] ∧
            failed.status = Status.failed.name ∧ failed.failedNodeId = some t.resumeNodeId ∧ failed.error = some e.message ∧
            (∀ id, out.2.database.records.get? id = if id = t.executionId then some failed else l.get? id) ∧
            out.2.database.tokens = s.database.tokens ∧ out.2.database.definitions = s.database.definitions) ∧
    (∀ batch before t after, s.registry.Filed → s.database.waiting.Distinct →
      (s.perform (dueTokens (max batch 1)).run).1 = .ok (before ++ t :: after) →
      (∀ u ∈ before, u.executionId ≠ t.executionId) →
      let here := (s.pickedUp before).without t.id
      (s.pickedUp before).perform (claim t.id).run = (.ok true, here) ∧
        (s.perform (sweep batch).run).2 = (here.perform (resume t).run).2.pickedUp after ∧
        here.origin? t = s.origin? t) ∧
    ∀ p, Pool.Reachable Operation p → p.database = s.database → s.database.waiting.Distinct ∧
      ∀ limit tokens, (s.perform (dueTokens limit).run).1 = .ok tokens →
        tokens.Pairwise (·.executionId ≠ ·.executionId) := by
  refine ⟨fun t l hl => ⟨fun idle => ?_, fun row record hrow hr hs hstrands => ?_⟩, ?_, fun p hp hdb => ⟨?_, ?_⟩⟩
  · exact Site.resume_idle hl idle
  · obtain ⟨e, c, hstrands, hrun, hentered⟩ := Site.resume_stranded hl hrow hr hs hstrands
    refine ⟨e, hstrands, congrArg Prod.fst hrun, hentered, rfl, rfl, rfl, fun id => ?_, ?_, ?_⟩
    · rw [hrun]
      show (l.advance _ _ _ _).2.get? id = _
      refine Executions.get?_advance_of_admits _ _ _ _ _ hrow ?_ id
      obtain ⟨-, hstatus, -⟩ := ExecutionRow.record_ok hr
      exact ExecutionRow.admits_failed.2 ⟨(Executions.mem_of_get? hrow).2, .suspended, by decide, hs ▸ hstatus.symm⟩
    · rw [hrun]
    · rw [hrun]
  · intro batch before t after filed distinct hdue other here
    obtain ⟨claimed, picked, horigin⟩ := Site.claim_in_turn filed distinct hdue other
    exact ⟨claimed, (congrArg Prod.snd (Site.perform_sweep hdue)).trans picked, horigin⟩
  · exact hdb ▸ hp.tokens_distinct
  · exact fun limit tokens hdue => hp.executions_distinct hdb hdue

namespace Sample

/-- A question to the target: if it is open the execution pauses in front of a tag, and else it is tagged at once. -/
def asking : Workflow where
  definition :=
    { id := "w"
      name := "w"
      triggerType := .statusChanged
      triggerConditions := []
      active := true
      nodes := [⟨"t", .trigger, .null, none⟩,
        ⟨"c", .condition, .object [("conditionType", .str "status_equals"), ("conditionValue", .str "open")], none⟩,
        ⟨"d", .delay, .object [("duration", .int 1), ("unit", .str "days")], none⟩,
        ⟨"g", .tagTarget, .object [("value", .str "late")], none⟩, ⟨"n", .tagTarget, .object [("value", .str "over")], none⟩]
      connections := [⟨"t", "c", .next⟩, ⟨"c", "d", .yes⟩, ⟨"c", "n", .no⟩, ⟨"d", "g", .next⟩] }
  trigger := .statusChanged none .any .any false
  graph :=
    { steps := [⟨"t", .trigger⟩, ⟨"c", .condition (.statusEquals "open")⟩, ⟨"d", .delay ⟨1, .days⟩⟩,
        ⟨"g", .tagTarget ⟨"late"⟩⟩, ⟨"n", .tagTarget ⟨"over"⟩⟩]
      connections := [⟨"t", "c", .next⟩, ⟨"c", "d", .yes⟩, ⟨"c", "n", .no⟩, ⟨"d", "g", .next⟩]
      entry := ⟨"t", .trigger⟩
      heights := [("t", 3), ("c", 2), ("d", 1), ("g", 0), ("n", 0)]
      falls := by decide }

example : Workflow.ofDefinition asking.definition = .ok asking := rfl

/-- A suspended execution. -/
def paused (id workflowId : String) : Record := { record with id, workflowId, status := .suspended }

/-- The row of a suspended execution. -/
def pausedRow (id workflowId : String) : ExecutionRow :=
  ((ExecutionRow.ofRecord { record with id, workflowId }).moved .running 0 none).moved .suspended 0 none

/-- A token that is due, with an empty context. -/
def dueToken (id executionId nodeId : String) : Token := ⟨id, executionId, nodeId, .epoch, Context.empty.toJson, .epoch⟩

/-- Two tokens that are due. -/
def dueTwice (w : Worker) (rows : Executions) (definitions : Option Definitions) (k l : Token) : Site :=
  ⟨⟨some rows, some [.ofToken k, .ofToken l], definitions, none, []⟩, 0, w⟩

theorem token_dueToken (id executionId nodeId : String) :
    (TokenRow.ofToken (dueToken id executionId nodeId)).token = .ok (dueToken id executionId nodeId) := by
  have hsnapshot : Store.readSnapshot Context.empty.toJson.print = Context.empty.toJson :=
    Context.readSnapshot_toJson ⟨Json.Members.kept_nil, Json.Members.kept_nil⟩
  exact congrArg (fun snapshot => Except.ok (⟨id, executionId, nodeId, .epoch, snapshot, .epoch⟩ : Token)) hsnapshot

theorem dueTokens_dueTwice {w : Worker} (hw : w.clock = .epoch) (rows : Executions) (definitions : Option Definitions)
    (k e n l f m : String) :
    ((dueTwice w rows definitions (dueToken k e n) (dueToken l f m)).perform (dueTokens (max 2 1)).run).1 =
      .ok [dueToken k e n, dueToken l f m] := by
  have hdue : Tokens.due [.ofToken (dueToken k e n), .ofToken (dueToken l f m)] w.clock.floorMillis (max 2 1) =
      [.ofToken (dueToken k e n), .ofToken (dueToken l f m)] := by
    rw [hw, Tokens.due, List.mergeSort_of_pairwise]
    · rfl
    · exact List.pairwise_pair.2 rfl
  have hts : (dueTwice w rows definitions (dueToken k e n) (dueToken l f m)).database.tokens =
      some [.ofToken (dueToken k e n), .ofToken (dueToken l f m)] := rfl
  rw [Site.perform_dueTokens _ hts]
  show (Site.perform _ ((Tokens.due _ w.clock.floorMillis (max 2 1)).mapM fun row => readRow row.token).run).1 = _
  rw [hdue, List.mapM_cons, List.mapM_cons, token_dueToken, token_dueToken]
  rfl

/-- A worker that reaches one target. -/
def reaching (status : String) (cache : List (String × Workflow)) : Worker where
  clock := .epoch
  cache := cache
  applications := ⟨.memory [("1", ⟨some status, none, none, [], []⟩)], {}⟩
  contracts := ⟨.memory [], {}⟩
  types := [.application]
  templates := none

/-- Two tokens of one execution in front of the question. -/
def twins (status : String) : Site :=
  dueTwice (reaching status [("w", asking)]) [pausedRow "e" "w"] none (dueToken "k" "e" "c") (dueToken "l" "e" "c")

/-- Tokens of two executions, of which the first one cannot go on. -/
def strangers : Site :=
  dueTwice (reaching "open" [("w", asking)]) [pausedRow "e" "w", pausedRow "f" "w"] none (dueToken "k" "e" "gone")
    (dueToken "l" "f" "c")

/-- A trigger alone under a name that is not its own, and what cannot be read under its name. -/
def misfiled : Definitions :=
  [{ DefinitionRow.ofDefinition (Lone.definition "w" true) with id := "v" }, ⟨"w", "w", "status_changed", 1, "{}"⟩]

/-- Tokens of two executions, of which the first one may be missing. -/
def neighbours (rows : Executions) : Site :=
  dueTwice (reaching "open" []) (pausedRow "e" "w" :: rows) (some misfiled) (dueToken "k" "f" "t") (dueToken "l" "e" "t")

/-- Resuming the first token caches the workflow of the second one. -/
theorem pickedUp_neighbours :
    (neighbours [pausedRow "f" "v"]).pickedUp [dueToken "k" "f" "t"] =
      ((((neighbours [pausedRow "f" "v"]).without "k").withCache [("w", Lone.workflow "w" true)]).perform
        (goOn (paused "f" "v") (dueToken "k" "f" "t") (.ok (Lone.workflow "w" true, ⟨"t", .trigger⟩, .empty))).run).2 := by
  let here := (neighbours [pausedRow "f" "v"]).without "k"
  have stored : here.registry.stored = some misfiled := rfl
  have found : here.registry.find "v" = .ok (some (Lone.definition "w" true)) :=
    Host.Registry.find_eq_some (Host.Registry.row_eq stored "v") (Definition.ofText_text (Lone.storable "w" true))
  have current : here.registry.current "v" = (some (Lone.workflow "w" true), [("w", Lone.workflow "w" true)]) :=
    Host.Registry.current_eq_some found (Lone.ofDefinition "w" true)
  have suspended : here.database.suspended? "f" = some (pausedRow "f" "v") := by decide
  have read : (pausedRow "f" "v").record = .ok (paused "f" "v") := rfl
  have snapshot : Context.ofSnapshot (dueToken "k" "f" "t").snapshot = .ok .empty := rfl
  have resumed := Site.perform_resume_current suspended read snapshot current rfl
  rw [Site.pickedUp_there rfl rfl, Site.pickedUp_nil]
  exact congrArg Prod.snd resumed

end Sample

/-- Of two executions one cannot go on; the other one is resumed nonetheless. -/
theorem stranger_is_resumed :
    let s := Sample.strangers
    let l := Sample.dueToken "l" "f" "c"
    (∃ e : SchedulingFault, (s.perform (resume (Sample.dueToken "k" "e" "gone")).run).1 = .ok (.failed "gone" e.message)) ∧
      ((s.pickedUp [Sample.dueToken "k" "e" "gone"]).without "l").origin? l = some ⟨"c", .condition (.statusEquals "open")⟩ := by
  intro s l
  obtain ⟨single, sweeps, -⟩ := unresumable_tokens_do_nothing s
  constructor
  · have hw : (s.perform (currentWorkflow "w")).1 = some Sample.asking := rfl
    obtain ⟨e, -, hresult, -⟩ := (single (Sample.dueToken "k" "e" "gone") _ rfl).2 (Sample.pausedRow "e" "w") _ rfl rfl rfl
      ⟨_, .node hw rfl⟩
    exact ⟨e, hresult⟩
  · have filed : s.registry.Filed := fun ds h => by cases h
    have distinct : s.database.waiting.Distinct := List.pairwise_pair.2 (by decide)
    have hdue : (s.perform (dueTokens (max 2 1)).run).1 = .ok ([Sample.dueToken "k" "e" "gone"] ++ l :: []) :=
      Sample.dueTokens_dueTwice rfl ..
    obtain ⟨-, -, horigin⟩ := sweeps 2 _ _ _ filed distinct hdue (List.forall_mem_singleton.2 (by decide))
    exact horigin.trans (by decide +kernel)

/-- Whether a token is resumed depends on the tokens of its own execution that are before it: if the first token suspends the
execution again, the second one is resumed, and if it completes the execution it is not. And where a definition is stored under
another name, it depends on other executions as well. -/
theorem tokens_bear_on_each_other :
    let k := Sample.dueToken "k" "e" "c"
    let l := Sample.dueToken "l" "e" "c"
    ((Sample.twins "shut").perform (dueTokens (max 2 1)).run).1 = .ok [k, l] ∧
      ((Sample.twins "open").perform (dueTokens (max 2 1)).run).1 = .ok [k, l] ∧
      (((Sample.twins "shut").pickedUp [k]).without l.id).origin? l = none ∧
      (((Sample.twins "open").pickedUp [k]).without l.id).origin? l = some ⟨"c", .condition (.statusEquals "open")⟩ ∧
    let k' := Sample.dueToken "k" "f" "t"
    let l' := Sample.dueToken "l" "e" "t"
    ((Sample.neighbours []).perform (dueTokens (max 2 1)).run).1 = .ok [k', l'] ∧
      ((Sample.neighbours [Sample.pausedRow "f" "v"]).perform (dueTokens (max 2 1)).run).1 = .ok [k', l'] ∧
      (((Sample.neighbours []).pickedUp [k']).without l'.id).origin? l' = none ∧
      (((Sample.neighbours [Sample.pausedRow "f" "v"]).pickedUp [k']).without l'.id).origin? l' = some ⟨"t", .trigger⟩ := by
  intro k l
  refine ⟨Sample.dueTokens_dueTwice rfl .., Sample.dueTokens_dueTwice rfl .., by decide +kernel, by decide +kernel,
    Sample.dueTokens_dueTwice rfl .., Sample.dueTokens_dueTwice rfl .., by decide +kernel, ?_⟩
  rw [Sample.pickedUp_neighbours]
  decide +kernel

end Lifecycle
