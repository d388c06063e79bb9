import Lifecycle.Proofs.Host.Abreast

/-!
# Jobs in lockstep

Jobs on the same target, done at two sites that stand abreast, make the same requests one after the other, with identifiers that
correspond to each other, and leave the sites abreast: single statements and visits first, then walks, runs and launches, and
at last whole events.
-/

namespace Lifecycle

open Engine
open Store (ExecutionRow TokenRow Executions Statement)

namespace Host

/-! ### Identifiers given out -/

namespace Site

variable {s : Site} {α : Type}

theorem calm_perform (h : s.Calm) (p : Job α) : (s.perform p).2.Calm :=
  (Steady.of_kept Calm).perform (fun _ r _ hs => calm_answer hs r) p.only_true s h

/-- No job takes an identifier back. -/
theorem serial_perform (h : s.Calm) (p : Job α) : s.serial ≤ (s.perform p).2.serial := by
  have steady : Steady fun s s' => s.Calm → s'.Calm ∧ s.serial ≤ s'.serial :=
    ⟨fun s hs => ⟨hs, Nat.le_refl _⟩, fun h g hs => ⟨(g (h hs).1).1, (h hs).2.trans (g (h hs).1).2⟩⟩
  exact (steady.perform (fun _ r _ hs => ⟨calm_answer hs r, serial_answer hs r⟩) p.only_true s h).2

end Site

namespace Tracks

/-- Done at sites that stand abreast, the jobs have related results and leave such sites, as long as the tracks have
identifiers for them. -/
def Lockstep (T : Tracks) {α β : Type} (p : Job α) (q : Job β) (Q : α → β → Prop) : Prop :=
  ∀ s t, T.Abreast s t → (s.perform p).2.serial ≤ T.left.serial + T.drawn →
    Q (s.perform p).1 (t.perform q).1 ∧ T.Abreast (s.perform p).2 (t.perform q).2

variable {T : Tracks}

namespace Lockstep

variable {α β γ δ ε : Type} {Q : α → β → Prop} {Q' : γ → δ → Prop}

theorem done {a : α} {b : β} (h : Q a b) : T.Lockstep (.done a) (.done b) Q := fun _ _ abreast _ => ⟨h, abreast⟩

theorem bind {p : Job α} {q : Job β} {f : α → Job γ} {g : β → Job δ} (hp : T.Lockstep p q Q)
    (hf : ∀ a b, Q a b → T.Lockstep (f a) (g b) Q') : T.Lockstep (p >>= f) (q >>= g) Q' := by
  intro s t abreast hserial
  rw [Site.perform_bind] at hserial
  have hfirst := (Site.serial_perform (Site.calm_perform abreast.calm p) (f (s.perform p).1)).trans hserial
  obtain ⟨hQ, abreast'⟩ := hp s t abreast hfirst
  rw [Site.perform_bind, Site.perform_bind]
  exact hf _ _ hQ _ _ abreast' hserial

/-- What follows is done if neither fails; and both fail alike. -/
theorem attempt {p : ExceptT ε Job α} {q : ExceptT ε Job β} {f : α → ExceptT ε Job γ} {g : β → ExceptT ε Job δ}
    (hp : T.Lockstep p.run q.run (Agreed Q)) (hf : ∀ a b, Q a b → T.Lockstep (f a).run (g b).run (Agreed Q')) :
    T.Lockstep (p >>= f).run (q >>= g).run (Agreed Q') := by
  rw [ExceptT.run_bind, ExceptT.run_bind]
  refine hp.bind fun x y hxy => ?_
  cases hxy with
  | ok h => exact hf _ _ h
  | error e => exact done (.error e)

/-- A statement without which the jobs cannot go on. -/
theorem run {q q' : Statement} {R : q.Value → q'.Value → Prop} (h : T.Lockstep (statement q) (statement q') (Agreed R)) :
    T.Lockstep (Engine.run q).run (Engine.run q').run (Agreed R) :=
  h.bind fun _ _ hxy => done (hxy.mapError EngineFault.database)

end Lockstep

/-! ### Single requests -/

theorem lockstep_now : T.Lockstep now now Eq := fun _ _ abreast _ => ⟨(Site.clock_outline abreast.same_outline).symm, abreast⟩

/-- The identifiers that are given out correspond to each other. -/
theorem lockstep_fresh : T.Lockstep fresh fresh T.Pair := by
  intro s t abreast hserial
  obtain ⟨k, hk, hk'⟩ := abreast.serial
  obtain ⟨e, e', he, he', renamed, of⟩ := abreast.effects
  replace hserial : s.serial + 1 ≤ T.left.serial + T.drawn := hserial
  refine ⟨⟨k, by omega, ?_, ?_⟩, ⟨e, e', he.drawn, he'.drawn, renamed, of⟩, ⟨k + 1, ?_, ?_⟩, abreast.held⟩
  · show Site.identifier (s.serial + 1) = _
    rw [hk, Nat.add_right_comm]
  · show Site.identifier (t.serial + 1) = _
    rw [hk', Nat.add_right_comm]
  · show s.serial + 1 = _
    rw [hk, Nat.add_assoc]
  · show t.serial + 1 = _
    rw [hk', Nat.add_assoc]

theorem lockstep_visit {v : Visit} {id : String} (pair : T.Pair v.record.id id) (target : v.record.target = T.target) :
    T.Lockstep (visit v) (visit (v.under id)) Eq := by
  intro s t abreast _
  obtain ⟨answer, after⟩ := abreast.visit pair target
  exact ⟨answer.symm, after⟩

/-! ### Statements -/

section Statements

variable {i j : String} {s : Site} {e : Effects}

/-- What a statement that changes the executions leaves of a site, once something was added to it. -/
theorem withRows_of_executions {start : Site} (ready : start.Ready) (he : start.Extends T.target e s) (l : Executions) :
    ({ s with database := { s.database with executions := some l } } : Site) =
      s.withRows l (start.database.waiting ++ e.tokens) := by
  unfold Site.withRows
  rw [← he.waiting ready]

theorem answer_advance {start : Site} (ready : start.Ready) (he : start.Extends T.target e s)
    (new : ∀ r ∈ start.database.records, r.id ≠ some i) (next : Status) (now : Int) (failure : Option Store.Failure) :
    Site.answer (.statement (.advance i next now failure)) s = (.ok (e.executions.advance i next now failure).1,
      s.withRows (start.database.records ++ (e.executions.advance i next now failure).2)
        (start.database.waiting ++ e.tokens)) := by
  have hx := Statement.execute_advance (he.records ready) i next now failure
  rw [Executions.advance_behind new] at hx
  exact (s.answer_statement hx).trans (congrArg (Prod.mk _) (withRows_of_executions ready he _))

/-- A new execution is moved to another status at both sites, or at neither. -/
theorem lockstep_advance (pair : T.Pair i j) (next : Status) (now : Int) (failure : Option Store.Failure) :
    T.Lockstep (statement (.advance i next now failure)) (statement (.advance j next now failure)) (Agreed Eq) := by
  intro s t abreast _
  obtain ⟨e, e', he, he', renamed, of⟩ := abreast.effects
  obtain ⟨moved, rows⟩ := Executions.renamed_advance renamed.executions pair.single next now failure
  have hs : s.perform (statement (.advance i next now failure)) = _ :=
    answer_advance T.leftSound.toReady he pair.left_execution next now failure
  have ht : t.perform (statement (.advance j next now failure)) = _ :=
    answer_advance T.rightSound.toReady he' pair.right_execution next now failure
  rw [hs, ht]
  exact ⟨.ok moved.symm, abreast.rewritten he he' renamed rows renamed.tokens (of.advance i next now failure)⟩

theorem answer_suspend_refused {start : Site} (ready : start.Ready) (he : start.Extends T.target e s) {tok : TokenRow} {now : Int}
    (new : ∀ r ∈ start.database.records, r.id ≠ some tok.executionId)
    (refused : (e.executions.advance tok.executionId .suspended now none).1 = false) :
    Site.answer (.statement (.suspend tok now)) s = (.ok false, s) := by
  refine s.answer_statement (Statement.execute_suspend_refused (he.records ready) ?_)
  rw [Executions.advance_behind new]
  exact refused

section Suspended

variable {start : Site} (ready : start.Ready) (he : start.Extends T.target e s) {tok : TokenRow} {now : Int}
  (new : ∀ r ∈ start.database.records, r.id ≠ some tok.executionId)
  (moved : (e.executions.advance tok.executionId .suspended now none).1 = true)

include ready he new moved

theorem answer_suspend_taken (taken : e.tokens.any (·.id == tok.id) = true) :
    Site.answer (.statement (.suspend tok now)) s = (.error (.duplicateId Store.tokensName), s) := by
  refine s.answer_statement_error (Statement.execute_suspend_taken (he.records ready) (he.waiting ready) ?_ ?_)
  · rw [Executions.advance_behind new]
    exact moved
  · rw [List.any_append, taken, Bool.or_true]

theorem answer_suspend (free : e.tokens.any (·.id == tok.id) = false)
    (newToken : ∀ t ∈ start.database.waiting, t.id ≠ tok.id) :
    Site.answer (.statement (.suspend tok now)) s = (.ok true,
      s.withRows (start.database.records ++ (e.executions.advance tok.executionId .suspended now none).2)
        (start.database.waiting ++ (e.tokens ++ [tok]))) := by
  have hadvance := Executions.advance_behind new e.executions .suspended now none
  have hmoved : ((start.database.records ++ e.executions).advance tok.executionId .suspended now none).1 = true := by
    rw [hadvance]
    exact moved
  have hnew : ∀ other ∈ start.database.waiting ++ e.tokens, other.id ≠ tok.id := by
    intro other hother
    rcases List.mem_append.1 hother with hother | hother
    · exact newToken other hother
    · exact fun heq => List.any_eq_false.1 free other hother (beq_iff_eq.2 heq)
  have hx := Statement.execute_suspend (he.records ready) (he.waiting ready) hmoved hnew
  rw [hadvance, List.append_assoc] at hx
  exact s.answer_statement hx

end Suspended

/-- The token of a new execution is written at both sites, or at neither for the same reason. -/
theorem lockstep_suspend {tok tok' : TokenRow} (hid : tok.id = some i) (pair : T.Pair i j)
    (owner : T.Pair tok.executionId tok'.executionId)
    (htok : tok' = { tok with id := some j, executionId := tok'.executionId }) (now : Int) :
    T.Lockstep (statement (.suspend tok now)) (statement (.suspend tok' now)) (Agreed Eq) := by
  intro s t abreast _
  obtain ⟨e, e', he, he', renamed, of⟩ := abreast.effects
  obtain ⟨moved, rows⟩ := Executions.renamed_advance renamed.executions owner.single .suspended now none
  have hrenamed : TokenRow.Renamed T.Pair tok tok' := ⟨i, j, _, pair, owner, hid, htok⟩
  cases hmoved : (e.executions.advance tok.executionId .suspended now none).1 with
  | false =>
    have hs : s.perform (statement (.suspend tok now)) = _ :=
      answer_suspend_refused T.leftSound.toReady he owner.left_execution hmoved
    have ht : t.perform (statement (.suspend tok' now)) = _ :=
      answer_suspend_refused T.rightSound.toReady he' owner.right_execution (moved.trans hmoved)
    rw [hs, ht]
    exact ⟨.ok rfl, abreast⟩
  | true =>
    have hmoved' := moved.trans hmoved
    have htaken : e'.tokens.any (·.id == tok'.id) = e.tokens.any (·.id == tok.id) := by
      rw [hid, htok]
      exact Store.Tokens.renamed_taken renamed.tokens pair.single
    cases hfree : e.tokens.any (·.id == tok.id) with
    | true =>
      have hs : s.perform (statement (.suspend tok now)) = _ :=
        answer_suspend_taken T.leftSound.toReady he owner.left_execution hmoved hfree
      have ht : t.perform (statement (.suspend tok' now)) = _ :=
        answer_suspend_taken T.rightSound.toReady he' owner.right_execution hmoved' (htaken.trans hfree)
      rw [hs, ht]
      exact ⟨.error _, abreast⟩
    | false =>
      have hs : s.perform (statement (.suspend tok now)) = _ :=
        answer_suspend T.leftSound.toReady he owner.left_execution hmoved hfree (hid ▸ pair.left_token)
      have ht : t.perform (statement (.suspend tok' now)) = _ :=
        answer_suspend T.rightSound.toReady he' owner.right_execution hmoved' (htaken.trans hfree) (htok ▸ pair.right_token)
      rw [hs, ht]
      obtain ⟨r, hr, hadmits⟩ := List.any_eq_true.1 hmoved
      have hof := (of.token (t := tok) ⟨r, hr, ((r.admits_iff _ _).1 hadmits).1⟩).advance tok.executionId .suspended now none
      exact ⟨.ok rfl, abreast.rewritten he he' renamed rows (List.rel_append renamed.tokens (.cons hrenamed .nil)) hof⟩

theorem answer_insertExecution {start : Site} (ready : start.Ready) (he : start.Extends T.target e s) (row : ExecutionRow) :
    Site.answer (.statement (.insertExecution row)) s =
      (.ok (Executions.insert (start.database.records ++ e.executions) row).1,
        s.withRows (Executions.insert (start.database.records ++ e.executions) row).2 (start.database.waiting ++ e.tokens)) :=
  (s.answer_statement (Statement.execute_insertExecution (he.records ready) row)).trans
    (congrArg (Prod.mk _) (withRows_of_executions ready he _))

/-- A new execution finds its place at both sites, or at neither. -/
theorem lockstep_insertExecution {record : Record} (pair : T.Pair record.id j) (target : record.target = T.target) :
    T.Lockstep (statement (.insertExecution (.ofRecord record))) (statement (.insertExecution (.ofRecord (record.under j))))
      (Agreed Eq) := by
  intro s t abreast _
  obtain ⟨e, e', he, he', renamed, of⟩ := abreast.effects
  have habout : (ExecutionRow.ofRecord record).key.about T.target = true := by
    rw [← target]
    simp [Store.Key.about, ExecutionRow.key, ExecutionRow.ofRecord]
  have hplace : (Executions.insert (T.right.database.records ++ e'.executions) (.ofRecord (record.under j))).1 =
      (Executions.insert (T.left.database.records ++ e.executions) (.ofRecord record)).1 :=
    Executions.renamed_insert T.executions pair.left_execution pair.right_execution renamed.executions pair.single rfl habout
  have hs : s.perform (statement (.insertExecution (.ofRecord record))) = _ := answer_insertExecution T.leftSound.toReady he _
  have ht : t.perform (statement (.insertExecution (.ofRecord (record.under j)))) = _ :=
    answer_insertExecution T.rightSound.toReady he' _
  rw [hs, ht]
  refine ⟨.ok hplace.symm, ?_⟩
  cases hfree : (Executions.insert (T.left.database.records ++ e.executions) (.ofRecord record)).1 with
  | false =>
    have hfree' := hplace.trans hfree
    dsimp only
    rw [Executions.insert_snd_of_not hfree, Executions.insert_snd_of_not hfree']
    exact abreast.rewritten he he' renamed renamed.executions renamed.tokens of
  | true =>
    have hfree' := hplace.trans hfree
    dsimp only
    rw [Executions.insert_snd hfree, Executions.insert_snd hfree', List.append_assoc, List.append_assoc]
    refine abreast.rewritten he he' renamed (List.rel_append renamed.executions (.cons ⟨_, _, pair, rfl, rfl⟩ .nil))
      renamed.tokens ?_
    exact of.execution habout

theorem answer_owner {start : Site} (ready : start.Ready) (he : start.Extends T.target e s) (key : Store.Key) :
    Site.answer (.statement (.owner key)) s =
      ((Executions.owner? (start.database.records ++ e.executions) key).elim (.error .noRow) .ok, s) := by
  show ((Statement.execute _ s.database).1, { s with database := (Statement.execute _ s.database).2 }) = _
  rw [Statement.execute_owner (he.records ready) key]
  rfl

/-- The owner of a key is the same old execution at both sites, or the same new one. -/
theorem lockstep_owner {key : Store.Key} (hkey : key.about T.target = true) :
    T.Lockstep (statement (.owner key)) (statement (.owner key))
      (Agreed fun r r' : ExecutionRow => r' = r ∨ r.Renamed T.Pair r') := by
  intro s t abreast _
  obtain ⟨e, e', he, he', renamed, of⟩ := abreast.effects
  have howner := Executions.renamed_owner? T.executions renamed.executions hkey
  have hs : s.perform (statement (.owner key)) = _ := answer_owner T.leftSound.toReady he key
  have ht : t.perform (statement (.owner key)) = _ := answer_owner T.rightSound.toReady he' key
  rw [hs, ht]
  refine ⟨?_, abreast⟩
  generalize Executions.owner? (T.left.database.records ++ e.executions) key = found at howner ⊢
  generalize Executions.owner? (T.right.database.records ++ e'.executions) key = found' at howner ⊢
  cases howner with
  | none => exact .error _
  | some h => exact .ok h

end Statements

/-! ### Walks -/

section Walks

variable {record : Record} {id : String}

theorem lockstep_move {i j : String} (pair : T.Pair i j) (next : Status) (failure : Option Store.Failure) :
    T.Lockstep (move i next failure).run (move j next failure).run (Agreed Eq) :=
  lockstep_now.bind fun now _ same => same ▸ (lockstep_advance pair next now.floorMillis failure).run

theorem lockstep_finish (pair : T.Pair record.id id) :
    T.Lockstep (finish record).run (finish (record.under id)).run (Agreed Eq) :=
  Lockstep.attempt (p := moveTo .completed record.id) (lockstep_move pair .completed none) fun _ _ same =>
    same ▸ .done (.ok rfl)

theorem lockstep_failAt (pair : T.Pair record.id id) (nodeId message : String) :
    T.Lockstep (failAt record nodeId message).run (failAt (record.under id) nodeId message).run (Agreed Eq) :=
  Lockstep.attempt (p := moveToFailed record.id nodeId message) (lockstep_move pair .failed (some ⟨nodeId, message⟩))
    fun _ _ _ => .done (.ok rfl)

/-- Both get a token, or neither. -/
theorem lockstep_suspend_job {i j : String} (pair : T.Pair i j) (nodeId : String) (resumeAt : Time.Instant) (snapshot : Json) :
    T.Lockstep (suspend i nodeId resumeAt snapshot).run (suspend j nodeId resumeAt snapshot).run
      (Agreed fun tok tok' => tok'.isSome = tok.isSome) := by
  refine lockstep_fresh.bind fun new new' hnew => ?_
  refine lockstep_now.bind fun created _ same => same ▸ ?_
  refine lockstep_now.bind fun moved _ same => same ▸ ?_
  have written : T.Lockstep
      (statement (.suspend (.ofToken ⟨new, i, nodeId, resumeAt, snapshot, created⟩) moved.floorMillis))
      (statement (.suspend (.ofToken ⟨new', j, nodeId, resumeAt, snapshot, created⟩) moved.floorMillis)) (Agreed Eq) :=
    lockstep_suspend rfl hnew pair rfl _
  refine written.run.attempt fun suspended _ same => ?_
  subst same
  cases suspended <;> exact .done (.ok rfl)

theorem lockstep_suspendAt (pair : T.Pair record.id id) (delay next : Step) (deadline : Time.Instant) (context : Context) :
    T.Lockstep (suspendAt record delay next deadline context).run (suspendAt (record.under id) delay next deadline context).run
      (Agreed Eq) := by
  show T.Lockstep (ExceptT.run (ExceptT.lift (suspend record.id next.id deadline context.toJson).run >>= _))
    (ExceptT.run (ExceptT.lift (suspend id next.id deadline context.toJson).run >>= _)) _
  rw [ExceptT.run_bind_lift, ExceptT.run_bind_lift]
  refine (lockstep_suspend_job pair next.id deadline context.toJson).bind fun x y hxy => ?_
  cases hxy with
  | error e => exact lockstep_failAt pair delay.id _
  | @ok tok tok' same =>
    cases tok with
    | none =>
      obtain rfl : tok' = none := Option.isNone_iff_eq_none.1 (by simpa using same)
      exact .done (.ok rfl)
    | some tok =>
      obtain ⟨tok', rfl⟩ := Option.isSome_iff_exists.1 same
      exact .done (.ok rfl)

theorem lockstep_walkFrom (workflow : Workflow) (pair : T.Pair record.id id) (target : record.target = T.target) (step : Step)
    (context : Context) : T.Lockstep (walkFrom workflow record step context).run
      (walkFrom workflow (record.under id) step context).run (Agreed Eq) := by
  induction step using workflow.graph.induction_down generalizing context with
  | h step ih =>
    rw [walkFrom_eq, walkFrom_eq]
    refine lockstep_now.bind fun now _ same => same ▸ ?_
    refine (lockstep_visit (v := ⟨workflow, record, context.enter step.id now, step⟩) pair target).bind fun answer _ same =>
      same ▸ ?_
    show T.Lockstep (walkOn workflow record step _ answer).run (walkOn workflow (record.under id) step _ answer).run _
    unfold walkOn
    cases answer with
    | error f => exact lockstep_failAt pair step.id f.message
    | ok outcome =>
      dsimp only
      split
      · exact lockstep_finish pair
      · exact lockstep_suspendAt pair step _ _ _
      · exact ih _ _ ‹_› _

theorem lockstep_runNew (workflow : Workflow) (pair : T.Pair record.id id) (target : record.target = T.target)
    (context : Context) :
    T.Lockstep (runNew workflow record context).run (runNew workflow (record.under id) context).run (Agreed Eq) := by
  refine Lockstep.attempt (p := moveTo .running record.id) (lockstep_move pair .running none) fun moved _ same => same ▸ ?_
  cases moved with
  | false => exact .done (.ok rfl)
  | true => exact lockstep_walkFrom workflow pair target _ context

end Walks

/-! ### Events -/

/-- Both start a new execution, of identifiers that correspond, or neither does. -/
def Started (T : Tracks) (a b : Start) : Prop :=
  b.started = a.started ∧ (a.started = true →
    ∃ id, T.Pair a.record.id id ∧ b.record = a.record.under id ∧ a.record.target = T.target)

theorem lockstep_start (workflowId : String) (type : TriggerType) (runOnce : Bool) :
    T.Lockstep (start workflowId T.target type runOnce).run (start workflowId T.target type runOnce).run
      (Agreed T.Started) := by
  refine lockstep_now.bind fun now _ same => same ▸ ?_
  refine lockstep_fresh.bind fun new new' pair => ?_
  let call : StartCall := ⟨workflowId, T.target, type, runOnce⟩
  have inserted : T.Lockstep (statement (.insertExecution (.ofRecord (call.record new now))))
      (statement (.insertExecution (.ofRecord ((call.record new now).under new')))) (Agreed Eq) :=
    lockstep_insertExecution pair rfl
  refine inserted.run.attempt fun found _ same => ?_
  subst same
  cases found with
  | true => exact .done (.ok ⟨rfl, fun _ => ⟨new', pair, rfl, rfl⟩⟩)
  | false =>
    have habout : call.key.about T.target = true := by simp [Store.Key.about, StartCall.key, call]
    refine (lockstep_owner habout).run.attempt fun row row' h => ?_
    have hread : Agreed (fun _ _ => True) row.record row'.record := by
      rcases h with rfl | h
      · exact (Agreed.refl _).imp fun _ _ _ => trivial
      · exact h.record
    exact Lockstep.attempt (p := readRow row.record) (q := readRow row'.record) (.done (hread.mapError _)) fun _ _ _ =>
      .done (.ok ⟨rfl, nofun⟩)

theorem lockstep_launch (workflow : Workflow) (type : TriggerType) (runOnce : Bool) (context : Context) :
    T.Lockstep (launch workflow T.target type runOnce context).run (launch workflow T.target type runOnce context).run
      (Agreed Eq) := by
  refine (lockstep_start workflow.id type runOnce).attempt fun a b h => ?_
  obtain ⟨hstarted, hrecord⟩ := h
  rw [hstarted]
  cases ha : a.started with
  | false => exact .done (.ok rfl)
  | true =>
    obtain ⟨id, pair, hb, target⟩ := hrecord ha
    rw [hb]
    exact (lockstep_runNew workflow pair target context).attempt fun _ _ _ => .done (.ok rfl)

theorem lockstep_dispatchAll {event : Event} (target : event.target = T.target) (report : DispatchTally) (ws : List Workflow) :
    T.Lockstep (dispatchAll event report ws) (dispatchAll event report ws) Eq := by
  induction ws generalizing report with
  | nil => exact .done rfl
  | cons w rest ih =>
    have launched := lockstep_launch (T := T) w .statusChanged w.trigger.runOnce (.ofChange event.source event.destination)
    rw [← target] at launched
    exact launched.bind fun x y same => same.eq ▸ ih _

/-- The workflows that are active are the same at both sites. -/
theorem lockstep_activeNow (type : TriggerType) : T.Lockstep (activeNow type) (activeNow type) Eq := by
  intro s t abreast _
  obtain ⟨e, e', he, he', renamed, of⟩ := abreast.effects
  obtain ⟨ds, hds⟩ := Option.isSome_iff_exists.1 T.leftSound.toReady.definitions
  have hrefreshed {s : Site} (hs : s.database.definitions = T.left.database.definitions) :
      s.registry.refreshed = Worker.insertAll (Registry.workflows ds) := s.registry.refreshed_eq (hs.trans hds)
  rw [Site.perform_activeNow, Site.perform_activeNow, hrefreshed he.definitions,
    hrefreshed (he'.definitions.trans T.definitions)]
  exact ⟨rfl, ⟨e, e', he.withCache _, he'.withCache _, renamed, of⟩, abreast.serial, abreast.held⟩

theorem lockstep_dispatch {event : Event} (target : event.target = T.target) :
    T.Lockstep (dispatch event) (dispatch event) Eq :=
  (lockstep_activeNow .statusChanged).bind fun _ _ same => same ▸ lockstep_dispatchAll target _ _

end Tracks

end Host

end Lifecycle
