import Lifecycle.Engine.Triggers
import Lifecycle.Proofs.Engine.Walk
import Lifecycle.Proofs.Program.Protocol

/-!
# Operations from their parts

Looking up workflows touches neither executions nor tokens. So a property of jobs that is closed under sequence and
holds of what touches neither holds of dispatches and scans as soon as it holds of a launch; and it holds of launches,
resumptions and sweeps as soon as it holds of the few jobs that they are made of.
-/

namespace Lifecycle

open Engine
open Time (Instant)
open Program (Only)

/-! ### Looking up workflows -/

/-- Neither executions nor tokens are read or written, and no identifier is drawn. -/
def Engine.Request.Aside : Request → Prop
  | .now | .cached _ | .cachedAll | .cache _ | .uncache _ | .cacheOnly _ | .target _ _ => True
  | .statement .definitions | .statement (.definition _) => True
  | _ => False

/-- Executions and tokens are not written, though a token may be taken, and no identifier is drawn. -/
def Engine.Request.Unwriting : Request → Prop
  | .fresh | .statement (.insertExecution _) | .statement (.advance _ _ _ _) | .statement (.suspend _ _) => False
  | _ => True

/-- No node is visited. -/
def Engine.Request.Indoors : Request → Prop
  | .visit _ => False
  | _ => True

theorem Engine.Request.Aside.indoors {r : Request} (h : r.Aside) : r.Indoors := by
  cases r with
  | visit v => exact h
  | _ => trivial

theorem Engine.Request.Aside.unwriting {r : Request} (h : r.Aside) : r.Unwriting := by
  cases r with
  | statement q => cases q <;> trivial
  | fresh => exact h
  | _ => trivial

theorem only_run {sort : Request → Prop} {q : Store.Statement} (h : sort (.statement q)) :
    (Engine.run q).run.Only sort :=
  ⟨h, fun _ => trivial⟩

theorem only_stored {sort : Request → Prop} {q : Store.Statement} (h : sort (.statement q)) :
    (stored q).run.Only sort :=
  ⟨h, fun _ => trivial⟩

theorem only_getDefinition {sort : Request → Prop} {id : String} (h : sort (.statement (.definition id))) :
    (getDefinition id).run.Only sort := by
  refine (only_stored h).attempt fun row => ?_
  cases row <;> exact trivial

theorem only_move {sort : Request → Prop} {id : String} {next : Status} {failure : Option Store.Failure} (hnow : sort .now)
    (h : ∀ t, sort (.statement (.advance id next t failure))) : (move id next failure).run.Only sort :=
  ⟨hnow, fun _ => only_run (h _)⟩

theorem only_suspend {sort : Request → Prop} {executionId nodeId : String} {resumeAt : Time.Instant} {snapshot : Json}
    (hfresh : sort .fresh) (hnow : sort .now) (h : ∀ id created t,
      sort (.statement (.suspend (.ofToken ⟨id, executionId, nodeId, resumeAt, snapshot, created⟩) t))) :
    (suspend executionId nodeId resumeAt snapshot).run.Only sort :=
  ⟨hfresh, fun _ => ⟨hnow, fun _ => ⟨hnow, fun _ => (only_run (h _ _ _)).attempt fun _ => trivial⟩⟩⟩

theorem only_getRecord {sort : Request → Prop} {id : String} (h : sort (.statement (.execution id))) :
    (getRecord id).run.Only sort := by
  refine (only_run h).attempt fun row => ?_
  cases row with
  | none => trivial
  | some row => exact Only.attempt (p := readRow _) trivial fun _ => trivial

theorem only_dueTokens {sort : Request → Prop} (limit : Nat) (hnow : sort .now)
    (h : ∀ t, sort (.statement (.due t limit))) : (dueTokens limit).run.Only sort :=
  ⟨hnow, fun _ => (only_run (h _)).attempt (Only.mapM fun _ => trivial)⟩

section Endings

variable {sort : Request → Prop} (record : Record)

theorem only_finish (hnow : sort .now) (h : ∀ t, sort (.statement (.advance record.id .completed t none))) :
    (finish record).run.Only sort :=
  (only_move hnow h).attempt fun _ => trivial

theorem only_failAt (nodeId message : String) (hnow : sort .now)
    (h : ∀ t, sort (.statement (.advance record.id .failed t (some ⟨nodeId, message⟩)))) :
    (failAt record nodeId message).run.Only sort :=
  (only_move hnow h).attempt fun _ => trivial

theorem only_suspendAt (delay next : Step) (deadline : Instant) (context : Context) (hfresh : sort .fresh) (hnow : sort .now)
    (hs : ∀ id created t, sort (.statement (.suspend
      (.ofToken ⟨id, record.id, next.id, deadline, context.toJson, created⟩) t)))
    (h : ∀ t e, sort (.statement (.advance record.id .failed t (some ⟨delay.id, (SchedulingFault.persist e).message⟩)))) :
    (suspendAt record delay next deadline context).run.Only sort := by
  refine Only.attempt (p := settled _) ((only_suspend hfresh hnow hs).bind fun _ => trivial) fun result => ?_
  match result with
  | .ok (some _) => trivial
  | .ok none => trivial
  | .error e => exact only_failAt record delay.id _ hnow fun t => h t e

end Endings

theorem only_cacheAll : cacheAll.run.Only Request.Aside := by
  have read : readDefinitions.run.Only Request.Aside := (only_stored (q := .definitions) trivial).attempt fun rows => trivial
  exact read.attempt fun ds => ⟨trivial, fun _ => trivial⟩

theorem only_activeNow (type : TriggerType) : (activeNow type).Only Request.Aside :=
  only_cacheAll.bind fun _ => ⟨trivial, fun _ => trivial⟩

theorem only_cacheDefinition {sort : Request → Prop} (h : ∀ w, sort (.cache w)) (d : Definition) :
    (cacheDefinition d).Only sort := by
  unfold cacheDefinition
  split
  · trivial
  · exact ⟨h _, fun _ => trivial⟩

theorem only_currentWorkflow (id : String) : (currentWorkflow id).Only Request.Aside := by
  refine (only_getDefinition trivial).bind fun found => ?_
  match found with
  | .ok (some d) =>
    refine (only_cacheDefinition (fun _ => trivial) d).bind fun w => ?_
    cases w with
    | ok w => trivial
    | error e => exact ⟨trivial, fun _ => trivial⟩
  | .ok none => exact ⟨trivial, fun _ => trivial⟩
  | .error _ => exact ⟨trivial, fun _ => trivial⟩

theorem only_resumption (record : Record) (token : Token) : (resumption record token).Only Request.Aside := by
  unfold resumption
  split
  · trivial
  · refine (only_currentWorkflow _).bind fun w => ?_
    cases w with
    | none => trivial
    | some w =>
      dsimp only
      split <;> trivial

/-! ### Closed properties -/

/-- The contexts with which executions start. -/
inductive Context.Initial : Context → Prop where
  | change (source target : String) : Initial (.ofChange source target)
  | stuck (status : String) (since : Instant) : Initial (.ofStuck status since)

/-- A property of jobs that is closed under sequence, and holds of what touches neither executions nor tokens. -/
structure Closed (W : (α : Type) → Job α → Prop) : Prop where
  done : ∀ {α : Type} (a : α), W α (.done a)
  bind : ∀ {α β : Type} {p : Job α} {f : α → Job β}, W α p → (∀ a, W β (f a)) → W β (p >>= f)
  aside : ∀ {r : Request}, r.Aside → W r.Answer (Program.call (P := interface) r)

namespace Closed

variable {W : (α : Type) → Job α → Prop} (c : Closed W)

include c

theorem request {α : Type} {r : Request} {next : r.Answer → Job α} (h : W r.Answer (Program.call (P := interface) r))
    (hn : ∀ x, W α (next x)) : W α (.ask r next) :=
  c.bind h hn

theorem ask {α : Type} {r : Request} {next : r.Answer → Job α} (h : r.Aside) (hn : ∀ x, W α (next x)) :
    W α (.ask r next) :=
  c.request (c.aside h) hn

theorem of_only {α : Type} {p : Job α} (hp : p.Only Request.Aside) : W α p := by
  induction p with
  | done a => exact c.done a
  | ask r next ih => exact c.ask hp.1 fun x => ih x (hp.2 x)

/-- The property holds of every launch of the workflow. -/
def Launches (W : (α : Type) → Job α → Prop) (w : Workflow) : Prop :=
  ∀ target type once context, context.Initial → W _ (launch w target type once context).run

theorem dispatchAll (e : Event) (report : DispatchTally) :
    ∀ ws : List Workflow, (∀ w ∈ ws, Launches W w) → W _ (dispatchAll e report ws)
  | [], _ => c.done _
  | w :: rest, h => c.bind (h w List.mem_cons_self e.target .statusChanged _ _ (.change _ _)) fun _ =>
    dispatchAll e _ rest fun v hv => h v (List.mem_cons_of_mem w hv)

section Scans

variable {w : Workflow} (launches : Launches W w)

include launches

theorem scanFound (type : TargetType) (status : String) (cutoff : Instant) (runOnce : Bool) (report : ScanTally) :
    ∀ ids : List String, W _ (scanFound w type status cutoff runOnce report ids)
  | [] => c.done _
  | id :: rest => by
    refine c.ask (r := .target type (.changedAt id)) trivial fun changed => ?_
    have go (since : Instant) : W _ ((launch w ⟨type, id⟩ .stuckAtStatus runOnce (.ofStuck status since)).run >>=
        fun result => Engine.scanFound w type status cutoff runOnce
          ({ report with candidates := report.candidates + 1 }.count result) rest) :=
      c.bind (launches ⟨type, id⟩ .stuckAtStatus runOnce _ (.stuck _ _)) fun _ =>
        scanFound type status cutoff runOnce _ rest
    match changed with
    | .ok (some t) => exact go t
    | .ok none => exact go cutoff
    | .error _ => exact go cutoff

theorem scanTypes (status : String) (cutoff : Instant) (runOnce : Bool) (report : ScanTally) :
    ∀ types : List TargetType, W _ (scanTypes w status cutoff runOnce report types)
  | [] => c.done _
  | type :: rest => by
    refine c.ask (r := .target type (.find status cutoff)) trivial fun found => ?_
    match found with
    | .ok ids =>
      show W _ (Engine.scanFound w type status cutoff runOnce report ids >>= fun report =>
        Engine.scanTypes w status cutoff runOnce report rest)
      exact c.bind (c.scanFound launches type status cutoff runOnce report ids) fun _ =>
        scanTypes status cutoff runOnce _ rest
    | .error _ => exact scanTypes status cutoff runOnce _ rest

theorem scanFor (types : List TargetType) (report : ScanTally) : W _ (scanFor types w report) := by
  unfold Engine.scanFor
  split
  · exact c.done _
  · refine c.bind (p := now) (c.aside (r := .now) trivial) fun now => ?_
    split
    · exact c.done _
    · exact c.scanTypes launches _ _ _ _ _

end Scans

theorem scanAll (types : List TargetType) (report : ScanTally) :
    ∀ ws : List Workflow, (∀ w ∈ ws, Launches W w) → W _ (scanAll types report ws)
  | [], _ => c.done _
  | w :: rest, h => c.bind (c.scanFor (h w List.mem_cons_self) types _) fun _ =>
    scanAll types _ rest fun v hv => h v (List.mem_cons_of_mem w hv)

section Launches

variable (launches : ∀ w, Launches W w)

include launches

theorem dispatch (e : Event) : W _ (dispatch e) :=
  c.bind (c.of_only (only_activeNow _)) fun _ => c.dispatchAll e _ _ fun w _ => launches w

theorem scan (types : List TargetType) : W _ (scan types) :=
  c.bind (c.of_only (only_activeNow _)) fun ws => c.scanAll types {} ws fun w _ => launches w

end Launches

theorem attempt {α β : Type} {p : Attempt α} {f : α → Attempt β} (hp : W _ p.run) (hf : ∀ a, W _ (f a).run) :
    W _ (p >>= f).run := by
  rw [ExceptT.run_bind]
  refine c.bind hp fun x => ?_
  cases x with
  | ok a => exact hf a
  | error e => exact c.done _

theorem mapM {α β : Type} {f : α → Attempt β} (hf : ∀ a, W _ (f a).run) : ∀ l : List α, W _ (l.mapM f).run
  | [] => c.done _
  | a :: l => by
    rw [List.mapM_cons]
    exact c.attempt (hf a) fun b => c.attempt (mapM hf l) fun bs => c.done _

end Closed

/-! ### Records, walks and sweeps -/

/-- A closed property that holds of what is done to the executions and tokens there are, walks apart: of reading and
taking rows, and of moves, which tell of a failure if and only if they fail the execution. -/
structure Moves (W : (α : Type) → Job α → Prop) : Prop extends Closed W where
  statement : ∀ {q : Store.Statement}, Request.Unwriting (.statement q) → W _ (Engine.run q).run
  move : ∀ id next failure, (failure.isSome = true ↔ next = .failed) → W _ (move id next failure).run

/-- One that holds of starts as well. -/
structure Parts (W : (α : Type) → Job α → Prop) : Prop extends Moves W where
  start : ∀ workflowId target type once, W _ (start workflowId target type once).run

namespace Moves

variable {W : (α : Type) → Job α → Prop} (c : Moves W)

include c

theorem finish (record : Record) : W _ (finish record).run :=
  c.attempt (c.move record.id .completed none (by simp)) fun _ => c.done _

theorem failAt (record : Record) (nodeId message : String) : W _ (failAt record nodeId message).run :=
  c.attempt (c.move record.id .failed (some ⟨nodeId, message⟩) (by simp)) fun _ => c.done _

theorem getRecord (id : String) : W _ (getRecord id).run := by
  refine c.attempt (c.statement (q := .execution id) trivial) fun row => ?_
  cases row with
  | none => exact c.done _
  | some row => exact c.attempt (c.done _) fun _ => c.done _

theorem dueTokens (limit : Nat) : W _ (dueTokens limit).run :=
  c.ask (r := .now) trivial fun _ => c.attempt (c.statement (q := .due _ limit) trivial) (c.mapM fun _ => c.done _)

/-- A walk visits nodes of its own only. -/
theorem walkFrom_own (suspends : ∀ executionId nodeId resumeAt snapshot, W _ (suspend executionId nodeId resumeAt snapshot).run)
    (workflow : Workflow) (record : Record) (step : Step) (context : Context)
    (visits : ∀ v : Visit, v.workflow = workflow → v.record = record → v.context.trigger = context.trigger →
      W _ (visit v)) : W _ (walkFrom workflow record step context).run := by
  induction step using workflow.graph.induction_down generalizing context with
  | h step ih =>
    rw [walkFrom_eq]
    refine c.ask (r := .now) trivial fun now => c.request (r := .visit _) (visits _ rfl rfl rfl) fun answer => ?_
    cases answer with
    | error f => exact c.failAt record step.id f.message
    | ok outcome =>
      show W _ (walkOn workflow record step _ (.ok outcome)).run
      unfold walkOn
      dsimp only
      split
      · exact c.finish record
      · refine c.attempt (p := settled _) (c.bind (suspends _ _ _ _) fun _ => c.done _) fun result => ?_
        match result with
        | .ok (some _) => exact c.done _
        | .ok none => exact c.done _
        | .error e => exact c.failAt record step.id _
      · exact ih _ _ ‹_› _ visits

theorem walkFrom (visits : ∀ v, W _ (visit v))
    (suspends : ∀ executionId nodeId resumeAt snapshot, W _ (suspend executionId nodeId resumeAt snapshot).run)
    (workflow : Workflow) (record : Record) (step : Step) (context : Context) :
    W _ (walkFrom workflow record step context).run :=
  c.walkFrom_own suspends workflow record step context fun v _ _ _ => visits v

section Walks

variable {C : Context → Prop}
  (walks : ∀ workflow record step context, C context → W _ (Engine.walkFrom workflow record step context).run)

include walks

theorem runNew (workflow : Workflow) (record : Record) {context : Context} (h : C context) :
    W _ (runNew workflow record context).run := by
  refine c.attempt (c.move record.id .running none (by simp)) fun moved => ?_
  cases moved with
  | false => exact c.done _
  | true => exact walks _ _ _ _ h

theorem resume {token : Token} (h : ∀ context, Context.ofSnapshot token.snapshot = .ok context → C context) :
    W _ (resume token).run := by
  refine c.attempt (c.getRecord token.executionId) fun record => ?_
  cases record with
  | none => exact c.done _
  | some record =>
    dsimp only
    split
    · exact c.done _
    · show W _ (ExceptT.run (ExceptT.lift (resumption record token) >>= _))
      rw [ExceptT.run_bind_lift]
      unfold resumption
      split
      · exact c.failAt record token.resumeNodeId _
      · rename_i context hcontext
        rw [bind_assoc]
        refine c.bind (c.of_only (only_currentWorkflow _)) fun w => ?_
        cases w with
        | none => exact c.failAt record token.resumeNodeId _
        | some w =>
          dsimp only
          split
          · exact c.failAt record token.resumeNodeId _
          · refine c.attempt (c.move record.id .running none (by simp)) fun moved => ?_
            cases moved with
            | false => exact c.done _
            | true => exact walks _ _ _ _ (h context hcontext)

theorem sweepTokens (report : SweepTally) : ∀ tokens : List Token,
    (∀ t ∈ tokens, ∀ context, Context.ofSnapshot t.snapshot = .ok context → C context) →
      W _ (sweepTokens report tokens)
  | [], _ => c.done _
  | t :: rest, h => by
    have left : ∀ t ∈ rest, ∀ context, Context.ofSnapshot t.snapshot = .ok context → C context :=
      fun t' ht' => h t' (List.mem_cons_of_mem _ ht')
    refine c.bind (c.statement (q := .claim t.id) trivial) fun claimed => ?_
    match claimed with
    | .ok true => exact c.bind (c.resume walks (h t List.mem_cons_self)) fun _ => sweepTokens _ rest left
    | .ok false => exact sweepTokens _ rest left
    | .error e => exact sweepTokens _ rest left

theorem launch_of_start {workflow : Workflow} {target : Target} {type : TriggerType} {runOnce : Bool} {context : Context}
    (starts : W _ (start workflow.id target type runOnce).run) (h : C context) :
    W _ (launch workflow target type runOnce context).run := by
  refine c.attempt starts fun start => ?_
  split
  · exact c.attempt (c.runNew walks workflow start.record h) fun _ => c.done _
  · exact c.done _

end Walks

theorem sweep (walks : ∀ workflow record step context, W _ (Engine.walkFrom workflow record step context).run)
    (batch : Nat) : W _ (sweep batch).run :=
  c.attempt (c.dueTokens _) fun tokens =>
    c.bind (c.sweepTokens (C := fun _ => True) (fun _ _ _ _ _ => walks _ _ _ _) _ tokens fun _ _ _ _ => trivial)
      fun _ => c.done _

end Moves

theorem Parts.launch {W : (α : Type) → Job α → Prop} (c : Parts W) {C : Context → Prop}
    (walks : ∀ workflow record step context, C context → W _ (Engine.walkFrom workflow record step context).run)
    (workflow : Workflow) (target : Target) (type : TriggerType) (runOnce : Bool) {context : Context} (h : C context) :
    W _ (launch workflow target type runOnce context).run :=
  c.launch_of_start walks (c.start workflow.id target type runOnce) h

/-- What makes no walk visits no node. -/
theorem indoors_moves : Moves fun _ p => p.Only Request.Indoors where
  done _ := trivial
  bind := Only.bind
  aside h := ⟨h.indoors, fun _ => trivial⟩
  statement _ := only_run trivial
  move _ _ _ _ := only_move trivial fun _ => trivial

/-! ### New executions -/

/-- No execution is put on record. -/
def Engine.Request.AddsNone : Request → Prop
  | .statement (.insertExecution _) => False
  | _ => True

theorem Engine.Request.Unwriting.addsNone {r : Request} (h : r.Unwriting) : r.AddsNone := by
  cases r with
  | statement q =>
    cases q with
    | insertExecution row => exact h.elim
    | _ => trivial
  | _ => trivial

theorem addsNone_moves : Moves fun _ p => p.Only Request.AddsNone where
  done _ := trivial
  bind := Only.bind
  aside h := ⟨h.unwriting.addsNone, fun _ => trivial⟩
  statement h := only_run h.addsNone
  move _ _ _ _ := only_move trivial fun _ => trivial

theorem addsNone_walkFrom (workflow : Workflow) (record : Record) (step : Step) (context : Context) :
    (walkFrom workflow record step context).run.Only Request.AddsNone :=
  addsNone_moves.walkFrom (fun _ => ⟨trivial, fun _ => trivial⟩)
    (fun _ _ _ _ => only_suspend trivial trivial fun _ _ _ => trivial) workflow record step context

end Lifecycle
