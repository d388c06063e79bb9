import Lifecycle.Proofs.Concurrent.Effects
import Lifecycle.Proofs.Concurrent.Writing
import Lifecycle.Proofs.Store.Rows

/-!
# Who may go on with an execution

An execution is in the hands of whoever has put it on record, and, once it has been suspended, of whoever has taken its
token: nobody else moves it or visits its nodes. The protocol says what may be done with an execution in one's hands, and
dispatches, scans and sweeps obey it.
-/

namespace Lifecycle

open Engine
open Store (Database Executions ExecutionRow TokenRow)

/-! ### The protocol -/

/-- How far a task is with the execution in its hands. -/
inductive Phase where
  | idle
  | owner (id : String)
  | claimer (t : Token)
  | entering (id : String)
  | resuming (t : Token)
  | visited (v : Visit) (x : Except HandlerFault Outcome)

namespace Phase

/-- The execution in hand, and the status it is in. -/
def holds? : Phase → Option (String × Status)
  | idle => none
  | owner id => some (id, .pending)
  | claimer t => some (t.executionId, .suspended)
  | entering id => some (id, .running)
  | resuming t => some (t.executionId, .running)
  | visited v _ => some (v.record.id, .running)

/-- The execution `id` is in hand and may be moved to running. -/
def Waits (id : String) : Phase → Prop
  | owner i => i = id
  | claimer t => t.executionId = id
  | _ => False

/-- Where that leads. -/
def started : Phase → Phase
  | owner id => entering id
  | claimer t => resuming t
  | p => p

/-- The node may be visited next: the entry of the workflow, the node of the token, or the one that the last outcome
selects. -/
def Leads : Phase → Visit → Prop
  | entering id, v => v.record.id = id ∧ v.step = v.workflow.graph.entry
  | resuming t, v => v.record.id = t.executionId ∧ v.workflow.graph.node? t.resumeNodeId = some v.step
  | visited u (.ok o), v => v.record.id = u.record.id ∧ v.workflow = u.workflow ∧
      u.workflow.graph.successor? u.step.id o.label = some v.step
  | _, _ => False

/-- The node is entered with the context of a new execution, that of the snapshot of the token, or that of the last
visit. -/
def Enters : Phase → Visit → Prop
  | entering _, v => ∃ (c : Context) (now : Time.Instant), c.Initial ∧ v.context = c.enter v.step.id now
  | resuming t, v => ∃ c now, Context.ofSnapshot t.snapshot = .ok c ∧ v.context = c.enter v.step.id now
  | visited u _, v => ∃ now, v.context = u.context.enter v.step.id now
  | _, _ => False

/-- The token keeps the end of the pause that the last visit asked for, its context, and the node that follows it. -/
def Suspends : Phase → TokenRow → Prop
  | visited u (.ok (.suspend deadline)), row => ∃ next id created, u.workflow.graph.successor? u.step.id .next = some next ∧
      row = .ofToken ⟨id, u.record.id, next.id, deadline, u.context.toJson, created⟩
  | _, _ => False

end Phase

/-- The rows of tokens that a task has seen, and how far it is with the execution in its hands. -/
structure Ownership.State where
  seen : List TokenRow
  phase : Phase

/-- Neither table is written, and no node visited. -/
def Engine.Request.Quiet : Request → Prop
  | .visit _ => False
  | r => r.Still

theorem Engine.Request.Quiet.still {r : Request} (h : r.Quiet) : r.Still := by
  cases r with
  | visit _ => exact h.elim
  | _ => exact h

theorem Engine.Request.Aside.quiet {r : Request} (h : r.Aside) : r.Quiet := by
  cases r with
  | statement q => cases q <;> first | exact trivial | exact h.elim
  | visit _ => exact h.elim
  | _ => exact trivial

/-- Executions are put on record by their owner. Tokens are taken by whoever has seen them, and resumed. -/
inductive Ownership.Turn : State → (r : Request) → r.Answer → {α : Type} → Program interface α → State → Prop where
  | quiet {s : State} {r : Request} {x : r.Answer} {α : Type} {p : Program interface α} (h : r.Quiet) : Turn s r x p s
  | found {s : State} {now : Int} {limit : Nat} {rows : List TokenRow} {α : Type} {p : Program interface α} :
      Turn s (.statement (.due now limit)) (.ok rows) p { s with seen := rows ++ s.seen }
  | began {s : State} {r : Record} (h : r.status = .pending) {α : Type} {p : Program interface α} :
      Turn s (.statement (.insertExecution (.ofRecord r))) (.ok true) p { s with phase := .owner r.id }
  | present {s : State} {r : Record} {x : Except Store.Fault Bool} (h : x ≠ .ok true) {α : Type}
      {p : Program interface α} : Turn s (.statement (.insertExecution (.ofRecord r))) x p s
  | took {s : State} {row : TokenRow} {t : Token} (hrow : row ∈ s.seen) (ht : row.token = .ok t) {α : Type}
      {f : Except EngineFault Result → Program interface α} :
      Turn s (.statement (.claim t.id)) (.ok true) ((resume t).run >>= f) { s with phase := .claimer t }
  | missed {s : State} {id : String} {x : Except Store.Fault Bool} (h : x ≠ .ok true) {α : Type}
      {p : Program interface α} : Turn s (.statement (.claim id)) x p s
  | started {s : State} {id : String} {now : Int} (h : s.phase.Waits id) {α : Type} {p : Program interface α} :
      Turn s (.statement (.advance id .running now none)) (.ok true) p { s with phase := s.phase.started }
  | refused {s : State} {id : String} {now : Int} {x : Except Store.Fault Bool} (h : s.phase.Waits id)
      (hx : x ≠ .ok true) {α : Type} {p : Program interface α} :
      Turn s (.statement (.advance id .running now none)) x p s
  | visited {s : State} {v : Visit} {x : Except HandlerFault Outcome} (h : s.phase.Leads v) (hc : s.phase.Enters v)
      {α : Type} {p : Program interface α} : Turn s (.visit v) x p { s with phase := .visited v x }
  | left {s : State} {id : String} {status next : Status} {now : Int} {failure : Option Store.Failure}
      {x : Except Store.Fault Bool} (h : s.phase.holds? = some (id, status)) (hn : next = .completed ∨ next = .failed)
      {α : Type} {p : Program interface α} :
      Turn s (.statement (.advance id next now failure)) x p { s with phase := .idle }
  | suspended {s : State} {row : TokenRow} {now : Int} {moved : Bool} (h : s.phase.Suspends row) {α : Type}
      {p : Program interface α} : Turn s (.statement (.suspend row now)) (.ok moved) p { s with phase := .idle }
  | unsuspended {s : State} {row : TokenRow} {now : Int} {f : Store.Fault} (h : s.phase.Suspends row) {α : Type}
      {p : Program interface α} : Turn s (.statement (.suspend row now)) (.error f) p s

/-- Executions go from hand to hand with their tokens. -/
def ownership : Protocol interface where
  State := Ownership.State
  Possible := Possible
  Turn := Ownership.Turn
  turn_bind := by
    intro s r x α β p s' f h
    cases h with
    | quiet h => exact .quiet h
    | found => exact .found
    | began h => exact .began h
    | present h => exact .present h
    | took hrow ht =>
      rw [bind_assoc]
      exact .took hrow ht
    | missed h => exact .missed h
    | started h => exact .started h
    | refused h hx => exact .refused h hx
    | visited h hc => exact .visited h hc
    | left h hn => exact .left h hn
    | suspended h => exact .suspended h
    | unsuspended h => exact .unsuspended h

/-! ### Walks -/

/-- The job keeps to ownership from the state `s` on, and forgets no token that it has seen. -/
def Heeds {α : Type} (job : Job α) (s : Ownership.State) : Prop :=
  job.Obeys ownership s fun _ s' => s'.seen = s.seen

namespace Heeds

variable {α β ε : Type} {s : Ownership.State}

theorem done (a : α) : Heeds (.done a : Job α) s := Eq.refl s.seen

theorem bind {p : Job α} {f : α → Job β} (hp : Heeds p s) (hf : ∀ a s', s'.seen = s.seen → Heeds (f a) s') :
    Heeds (p >>= f) s :=
  Program.Obeys.bind hp fun a s' h => (hf a s' h).imp fun _ _ h' => h'.trans h

theorem ask {r : Request} {next : r.Answer → Job α} (hr : r.Quiet) (hn : ∀ x, Heeds (next x) s) :
    Heeds (.ask r next) s :=
  fun x _ => ⟨s, .quiet hr, hn x⟩

end Heeds

variable {s : Ownership.State}

theorem obeys_aside {α : Type} {p : Job α} (hp : p.Only Request.Aside) : p.Obeys ownership s fun _ s' => s' = s :=
  hp.obeys fun _ _ hr _ _ => Ownership.Turn.quiet hr.quiet

theorem obeys_run {q : Store.Statement} (h : Request.Quiet (.statement q)) :
    (Engine.run q).run.Obeys ownership s fun a s' => s' = s ∧ ∀ v, a = .ok v → Possible (.statement q) (.ok v) := by
  intro x hx
  refine ⟨s, .quiet h, rfl, fun v hv => ?_⟩
  cases x with
  | error f => cases hv
  | ok w =>
    cases hv
    exact hx

theorem obeys_readRow {α : Type} (r : Except Store.RowFault α) :
    (readRow r).run.Obeys ownership s fun a s' => s' = s ∧ ∀ v, a = .ok v → r = .ok v := by
  refine ⟨rfl, fun v hv => ?_⟩
  cases r with
  | error f => cases hv
  | ok w =>
    cases hv
    rfl

theorem heeds_finish {record : Record} {status : Status} (h : s.phase.holds? = some (record.id, status)) :
    Heeds (finish record).run s := by
  refine Heeds.ask (r := .now) trivial fun now x _ => ?_
  refine ⟨{ s with phase := .idle }, .left h (.inl rfl), ?_⟩
  cases x <;> exact rfl

theorem heeds_failAt {record : Record} {status : Status} (h : s.phase.holds? = some (record.id, status))
    (nodeId message : String) : Heeds (failAt record nodeId message).run s := by
  refine Heeds.ask (r := .now) trivial fun now x _ => ?_
  refine ⟨{ s with phase := .idle }, .left h (.inr rfl), ?_⟩
  cases x <;> exact rfl

theorem heeds_suspendAt {v : Visit} {deadline : Time.Instant} {next : Step}
    (hp : s.phase = .visited v (.ok (.suspend deadline)))
    (hn : v.workflow.graph.successor? v.step.id .next = some next) (delay : Step) :
    Heeds (suspendAt v.record delay next deadline v.context).run s := by
  refine Heeds.ask (r := .fresh) trivial fun id => Heeds.ask (r := .now) trivial fun now => ?_
  refine Heeds.ask (r := .now) trivial fun moved x _ => ?_
  have hs : s.phase.Suspends (.ofToken ⟨id, v.record.id, next.id, deadline, v.context.toJson, now⟩) := by
    rw [hp]
    exact ⟨next, id, now, hn, rfl⟩
  match x with
  | .ok true => exact ⟨_, .suspended hs, rfl⟩
  | .ok false => exact ⟨_, .suspended hs, rfl⟩
  | .error f =>
    refine ⟨s, .unsuspended hs, ?_⟩
    have hh : s.phase.holds? = some (v.record.id, .running) := by
      rw [hp]
      rfl
    exact heeds_failAt hh delay.id _

theorem heeds_walkFrom (workflow : Workflow) (record : Record) (step : Step) (context : Context)
    (h : ∀ c, s.phase.Leads ⟨workflow, record, c, step⟩)
    (hc : ∀ now, s.phase.Enters ⟨workflow, record, context.enter step.id now, step⟩) :
    Heeds (walkFrom workflow record step context).run s := by
  induction step using workflow.graph.induction_down generalizing context s with
  | h step ih =>
    rw [walkFrom_eq]
    refine Heeds.ask (r := .now) trivial fun now x hx => ⟨_, .visited (h _) (hc now), ?_⟩
    clear hx
    have hold (c : Context) : (Phase.visited ⟨workflow, record, c, step⟩ x).holds? = some (record.id, .running) := rfl
    cases x with
    | error f => exact heeds_failAt (hold _) step.id f.message
    | ok outcome =>
      show Heeds (walkOn workflow record step _ (.ok outcome)).run _
      unfold walkOn
      dsimp only
      cases hn : workflow.graph.successor? step.id outcome.label with
      | none => exact heeds_finish (hold _)
      | some next =>
        match outcome with
        | .suspend deadline => exact heeds_suspendAt (v := ⟨workflow, record, _, step⟩) rfl hn step
        | .proceed => exact ih _ _ hn _ (fun c => ⟨rfl, rfl, hn⟩) fun now => ⟨now, rfl⟩
        | .branch yes => exact ih _ _ hn _ (fun c => ⟨rfl, rfl, hn⟩) fun now => ⟨now, rfl⟩

theorem heeds_moveTo {α : Type} {id : String} {f : Bool → Attempt α} (h : s.phase.Waits id)
    (moved : Heeds (f true).run { s with phase := s.phase.started }) (other : Heeds (f false).run s) :
    Heeds (moveTo .running id >>= f).run s := by
  refine Heeds.ask (r := .now) trivial fun now x _ => ?_
  match x with
  | .error f => exact ⟨s, .refused h (by nofun), rfl⟩
  | .ok false => exact ⟨s, .refused h (by nofun), other⟩
  | .ok true => exact ⟨_, .started h, moved⟩

theorem heeds_runNew (workflow : Workflow) (record : Record) {context : Context} (hc : context.Initial)
    (h : s.phase = .owner record.id) : Heeds (runNew workflow record context).run s := by
  refine heeds_moveTo ?_ (heeds_walkFrom _ _ _ _ (fun c => ?_) fun now => ?_) (Heeds.done _)
  · rw [h]
    exact rfl
  · rw [h]
    exact ⟨rfl, rfl⟩
  · rw [h]
    exact ⟨context, now, hc, rfl⟩

/-- A record is read under its own identifier. -/
theorem Possible.execution {id : String} {row : ExecutionRow}
    (h : Possible (.statement (.execution id)) (.ok (some row))) : row.id = some id := by
  obtain ⟨ids, db, after, h⟩ := h
  rcases h.execution with h | ⟨f, h⟩
  · exact (Executions.mem_of_get? (Except.ok.inj h).symm).2
  · cases h

theorem obeys_getRecord (id : String) : (getRecord id).run.Obeys ownership s fun found s' =>
    s' = s ∧ ∀ record, found = .ok (some record) → record.id = id := by
  refine Program.Obeys.attempt (obeys_run (q := .execution id) trivial) (fun row s' h => ?_)
    fun e s' h => ⟨h.1, fun r hr => by cases hr⟩
  obtain ⟨rfl, hp⟩ := h
  match row with
  | none =>
    refine ⟨rfl, fun r hr => ?_⟩
    cases hr
  | some row =>
    have hid : row.id = some id := Possible.execution (hp _ rfl)
    refine Program.Obeys.attempt (obeys_readRow row.record) (fun record s'' h => ?_)
      fun e s'' h => ⟨h.1, fun r hr => by cases hr⟩
    refine ⟨h.1, fun r hr => ?_⟩
    cases hr
    exact Option.some.inj ((ExecutionRow.record_ok (h.2 _ rfl)).1.symm.trans hid)

theorem obeys_resumption (record : Record) (t : Token) : (resumption record t).Obeys ownership s fun found s' =>
    s' = s ∧ ∀ w step context, found = .ok (w, step, context) →
      w.graph.node? t.resumeNodeId = some step ∧ Context.ofSnapshot t.snapshot = .ok context := by
  unfold resumption
  split
  · refine ⟨rfl, fun w step context h => ?_⟩
    cases h
  · rename_i snapshot hs
    refine (obeys_aside (only_currentWorkflow _)).bind fun w s' hs' => ?_
    cases w with
    | none =>
      refine ⟨hs', fun w step context h => ?_⟩
      cases h
    | some w =>
      dsimp only
      split
      · refine ⟨hs', fun w step context h => ?_⟩
        cases h
      · rename_i found hn
        refine ⟨hs', fun w step context h => ?_⟩
        cases h
        exact ⟨hn, hs⟩

theorem heeds_resume (t : Token) (h : s.phase = .claimer t) : Heeds (resume t).run s := by
  refine Program.Obeys.attempt (obeys_getRecord t.executionId) (fun found s' hf => ?_) fun e s' hf => congrArg _ hf.1
  obtain ⟨rfl, hid⟩ := hf
  match found with
  | none => exact Heeds.done _
  | some record =>
    have hid : record.id = t.executionId := hid record rfl
    have hh : s'.phase.holds? = some (record.id, .suspended) := by
      rw [h, hid]
      rfl
    dsimp only
    split
    · exact Heeds.done _
    · refine Program.Obeys.lift (obeys_resumption record t) fun found s'' hs => ?_
      obtain ⟨rfl, hn⟩ := hs
      match found with
      | .error e => exact heeds_failAt hh t.resumeNodeId _
      | .ok (w, step, context) =>
        obtain ⟨hnode, hsnapshot⟩ := hn w step context rfl
        refine heeds_moveTo ?_ (heeds_walkFrom _ _ _ _ (fun c => ?_) fun now => ?_) (Heeds.done _)
        · rw [h]
          exact hid.symm
        · rw [h]
          exact ⟨hid, hnode⟩
        · rw [h]
          exact ⟨context, now, hsnapshot, rfl⟩

/-! ### Operations -/

theorem obeys_start (workflowId : String) (target : Target) (type : TriggerType) (runOnce : Bool) :
    (start workflowId target type runOnce).run.Obeys ownership s fun result s' =>
      s'.seen = s.seen ∧ ∀ r : Start, result = .ok r → r.started = true → s'.phase = .owner r.record.id := by
  intro now _
  refine ⟨s, .quiet trivial, fun id _ => ⟨s, .quiet trivial, fun x _ => ?_⟩⟩
  match x with
  | .error f =>
    refine ⟨s, .present (by nofun), rfl, fun r hr => ?_⟩
    cases hr
  | .ok true =>
    refine ⟨_, .began rfl, rfl, fun r hr _ => ?_⟩
    cases hr
    rfl
  | .ok false =>
    refine ⟨s, .present (by nofun), ?_⟩
    refine Program.Obeys.attempt (obeys_run (q := .owner ⟨workflowId, target.type.name, target.id, type.name⟩) trivial)
      (fun row s' h => ?_) fun e s' h => ⟨congrArg _ h.1, fun r hr => by cases hr⟩
    refine Program.Obeys.attempt (obeys_readRow row.record) (fun record s'' h' => ?_)
      fun e s'' h' => ⟨congrArg _ (h'.1.trans h.1), fun r hr => by cases hr⟩
    refine ⟨congrArg _ (h'.1.trans h.1), fun r hr hs => ?_⟩
    cases hr
    cases hs

theorem heeds_launch (workflow : Workflow) (target : Target) (type : TriggerType) (runOnce : Bool) {context : Context}
    (hc : context.Initial) : Heeds (launch workflow target type runOnce context).run s := by
  refine Program.Obeys.attempt (obeys_start workflow.id target type runOnce) (fun r s' h => ?_) fun e s' h => h.1
  split
  · rename_i hs
    refine (heeds_runNew workflow r.record hc (h.2 r rfl hs)).attempt (fun _ s'' h'' => ?_) fun _ s'' h'' => ?_
    · exact h''.trans h.1
    · exact h''.trans h.1
  · exact h.1

theorem heeds_closed : Closed fun _ p => ∀ s, Heeds p s where
  done a _ := .done a
  bind hp hf s := (hp s).bind fun a s' _ => hf a s'
  aside h _ := .ask h.quiet fun x => .done x

theorem heeds_dispatch (e : Event) : Heeds (dispatch e) s :=
  heeds_closed.dispatch (fun w target type once _ hc _ => heeds_launch w target type once hc) e s

theorem heeds_scan (types : List TargetType) : Heeds (scan types) s :=
  heeds_closed.scan (fun w target type once _ hc _ => heeds_launch w target type once hc) types s

theorem obeys_readTokens : ∀ rows : List TokenRow,
    (rows.mapM fun row => readRow row.token).run.Obeys ownership s fun a s' =>
      s' = s ∧ ∀ tokens : List Token, a = .ok tokens → ∀ t ∈ tokens, ∃ row ∈ rows, row.token = .ok t
  | [] => by
    refine ⟨rfl, fun tokens h t ht => ?_⟩
    cases h
    cases ht
  | row :: rows => by
    rw [List.mapM_cons]
    refine (obeys_readRow row.token).attempt (fun t s' h => ?_) fun e s' h => ⟨h.1, fun tokens h => by cases h⟩
    obtain ⟨hs, hrow⟩ := h
    rw [hs]
    refine (obeys_readTokens rows).attempt (fun ts s'' h => ?_) fun e s'' h => ⟨h.1, fun tokens h => by cases h⟩
    refine ⟨h.1, fun tokens he t' ht => ?_⟩
    cases he
    rcases List.mem_cons.1 ht with rfl | ht
    · exact ⟨row, List.mem_cons_self, hrow _ rfl⟩
    · obtain ⟨row', hr, ht'⟩ := h.2 _ rfl t' ht
      exact ⟨row', List.mem_cons_of_mem _ hr, ht'⟩

theorem obeys_dueTokens (limit : Nat) : (dueTokens limit).run.Obeys ownership s fun a s' =>
    ∀ tokens : List Token, a = .ok tokens → ∀ t ∈ tokens, ∃ row ∈ s'.seen, row.token = .ok t := by
  refine fun now _ => ⟨s, .quiet trivial, fun x _ => ?_⟩
  match x with
  | .error f =>
    refine ⟨s, .quiet trivial, fun tokens h => ?_⟩
    cases h
  | .ok rows =>
    refine ⟨_, .found, (obeys_readTokens rows).imp fun a s' h tokens ha t ht => ?_⟩
    obtain ⟨row, hr, hrow⟩ := h.2 tokens ha t ht
    rw [h.1]
    exact ⟨row, List.mem_append_left _ hr, hrow⟩

theorem heeds_sweepTokens (report : SweepTally) : ∀ (tokens : List Token) (s : Ownership.State),
    (∀ t ∈ tokens, ∃ row ∈ s.seen, row.token = .ok t) → Heeds (sweepTokens report tokens) s
  | [], _, _ => .done _
  | t :: rest, s, h => by
    obtain ⟨row, hrow, ht⟩ := h t List.mem_cons_self
    intro x _
    match x with
    | .ok true =>
      refine ⟨_, .took hrow ht, ?_⟩
      refine Heeds.bind (p := (resume t).run) (heeds_resume t rfl) fun result s' hs => ?_
      refine heeds_sweepTokens _ rest _ fun t' ht' => ?_
      rw [hs]
      exact h t' (List.mem_cons_of_mem _ ht')
    | .ok false =>
      exact ⟨s, .missed (by nofun), heeds_sweepTokens _ rest _ fun t' ht' => h t' (List.mem_cons_of_mem _ ht')⟩
    | .error _ =>
      exact ⟨s, .missed (by nofun), heeds_sweepTokens _ rest _ fun t' ht' => h t' (List.mem_cons_of_mem _ ht')⟩

theorem obeys_sweep (batch : Nat) : (sweep batch).run.Obeys ownership s fun _ _ => True := by
  refine (obeys_dueTokens (max batch 1)).attempt (fun tokens s' h => ?_) fun _ _ _ => trivial
  exact Program.Obeys.bind (heeds_sweepTokens _ tokens _ (h tokens rfl)) fun _ _ _ => trivial

/-! ### What workers do -/

/-- The operations of the workers: dispatching an event, scanning, and sweeping. -/
inductive Operation : Job Unit → Prop where
  | dispatch (e : Event) : Operation (dispatch e >>= fun _ => .done ())
  | scan (types : List TargetType) : Operation (scan types >>= fun _ => .done ())
  | sweep (batch : Nat) : Operation ((sweep batch).run >>= fun _ => .done ())

theorem Operation.obeys {job : Job Unit} (h : Operation job) : job.Obeys ownership ⟨[], .idle⟩ fun _ _ => True := by
  cases h with
  | dispatch e => exact Program.Obeys.bind (heeds_dispatch e) fun _ _ _ => trivial
  | scan types => exact Program.Obeys.bind (heeds_scan types) fun _ _ _ => trivial
  | sweep batch => exact Program.Obeys.bind (obeys_sweep batch) fun _ _ _ => trivial

theorem Operation.writes {job : Job Unit} (h : Operation job) : Writes job := by
  cases h with
  | dispatch e => exact (writes_dispatch e).bind fun _ => .done _
  | scan types => exact (writes_scan types).bind fun _ => .done _
  | sweep batch => exact (writes_sweep batch).bind fun _ => .done _

/-! ### A dispatch up to its first suspension -/

namespace Sample

def graph : Graph where
  steps := [⟨"t", .trigger⟩, ⟨"d", .delay ⟨1, .days⟩⟩]
  connections := [⟨"t", "d", .next⟩]
  entry := ⟨"t", .trigger⟩
  heights := [("t", 1), ("d", 0)]
  falls := by decide

def workflow : Workflow :=
  ⟨⟨"w", "w", .statusChanged, [], true, [], []⟩, .statusChanged none .any .any true, graph⟩

def event : Event := ⟨⟨.application, "1"⟩, "a", "b"⟩

def record : Record := ⟨"e", "w", event.target, .statusChanged, .pending, true, none, none, .epoch, none, .epoch⟩

def token : Token := ⟨"k", "e", "d", .epoch, ((Context.ofChange "a" "b").enter "t" .epoch).toJson, .epoch⟩

/-- The execution is running. -/
def running : Database := ⟨some [(ExecutionRow.ofRecord record).moved .running 0 none], some [], none, none, []⟩

/-- The execution is suspended in front of the delay. -/
def suspended : Database :=
  ⟨some [((ExecutionRow.ofRecord record).moved .running 0 none).moved .suspended 0 none], some [.ofToken token], none, none, []⟩

theorem activeAmong_singleton {w : Workflow} (hactive : w.active = true) (htype : w.definition.triggerType = .statusChanged) :
    activeAmong .statusChanged [w] = [w] := by
  have hkept : (w.active && w.definition.triggerType == .statusChanged) = true := by rw [hactive, htype]; rfl
  rw [activeAmong, List.filter_cons, if_pos hkept]
  exact List.mergeSort_singleton ..

/-- The worker cannot read the definitions, starts a workflow that it has cached, and is on its first visit. -/
theorem reachable_walking {w : Workflow} (hid : w.id = "w") (hactive : w.active = true)
    (htype : w.definition.triggerType = .statusChanged) (htrigger : w.trigger = .statusChanged none .any .any true) :
    ∃ (history : List Entry) (f : Except EngineFault Result → Job Unit),
      Pool.Reachable Operation ⟨running, [(walkFrom w record w.graph.entry (.ofChange "a" "b")).run >>= f], history⟩ ∧
        history.filterMap Entry.identifier? = ["e"] := by
  have active := activeAmong_singleton hactive htype
  obtain ⟨⟨id, name, type, conditions, on, nodes, connections⟩, trigger, graph⟩ := w
  obtain rfl : id = "w" := hid
  obtain rfl : trigger = _ := htrigger
  generalize hw : Workflow.mk _ _ graph = w at active
  have begun : Pool.Reachable Operation ⟨⟨some [], some [], none, none, []⟩, [_], []⟩ :=
    (Pool.Reachable.start _ rfl rfl).step (.begin _ (.dispatch event))
  have failed := begun.ask_alone (r := .statement .definitions) (x := .error (.noTable "workflows")) (.inl rfl)
  have found := failed.ask_alone (r := .cachedAll) (x := [("w", w)]) rfl
  have matched : Pool.Reachable Operation ⟨_, [dispatchAll event
      ⟨((activeAmong .statusChanged [w]).filter fun w => w.trigger.admits .application "a" "b").length, 0, 0, 0⟩
      ((activeAmong .statusChanged [w]).filter fun w => w.trigger.admits .application "a" "b") >>=
        fun _ => .done ()], _⟩ := found
  rw [active] at matched
  subst hw
  have now := matched.ask_alone (r := .now) (x := .epoch) rfl
  have drawn := now.ask_alone (r := .fresh) (x := "e") ⟨List.not_mem_nil, rfl⟩
  have started := drawn.ask_alone (r := .statement (.insertExecution (.ofRecord record))) (x := .ok true) (.inl rfl)
  have again := started.ask_alone (r := .now) (x := .epoch) rfl
  have moved := again.ask_alone (r := .statement (.advance "e" .running 0 none)) (x := .ok true) (.inl rfl)
  have walking : Pool.Reachable Operation ⟨running,
      [(ExceptT.run (do let _ ← walkFrom _ record graph.entry (.ofChange "a" "b"); return true) >>= fun result =>
        dispatchAll event ((⟨1, 0, 0, 0⟩ : DispatchTally).count result) []) >>= fun _ => .done ()], _⟩ := moved
  rw [ExceptT.run_bind, bind_assoc, bind_assoc] at walking
  exact ⟨_, _, walking, rfl⟩

theorem reachable_suspended : ∃ s, Pool.Reachable Operation s ∧ s.database = suspended := by
  obtain ⟨history, f, walking, hids⟩ := reachable_walking (w := workflow) rfl rfl rfl rfl
  rw [walkFrom_eq] at walking
  have now := walking.ask_alone (r := .now) (x := .epoch) rfl
  have visited := now.ask_alone (r := .visit _) (x := .ok (.suspend .epoch)) ⟨rfl, rfl⟩
  have drawn := visited.ask_alone (r := .fresh) (x := "k")
    ⟨by rw [List.filterMap_append, List.filterMap_append, hids]; decide, rfl⟩
  have created := drawn.ask_alone (r := .now) (x := .epoch) rfl
  have moved := created.ask_alone (r := .now) (x := .epoch) rfl
  have written : Pool.Reachable Operation ⟨suspended, _, _⟩ :=
    moved.ask_alone (r := .statement (.suspend (.ofToken token) 0)) (x := .ok true) (.inl rfl)
  exact ⟨_, written, rfl⟩

end Sample

end Lifecycle
