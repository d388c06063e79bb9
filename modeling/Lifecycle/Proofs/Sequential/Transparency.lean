import Lifecycle.Proofs.Engine.Walk
import Lifecycle.Proofs.Execution.Context
import Lifecycle.Proofs.Sequential.Jobs

/-!
# Suspensions do not show

An execution that is suspended and resumed at its delays enters the nodes that one walk would enter that goes on at every
delay at once, and ends as that walk ends. What is left of its course is what its record and its token hold.
-/

namespace Lifecycle

open Engine
open Store (Database ExecutionRow TokenRow)
open Time (Instant)

/-! ### The course of a walk -/

/-- What a node that is no delay yields, if it does not fail. -/
inductive Verdict where
  | proceed
  | branch (yes : Bool)
deriving DecidableEq, Repr

def Verdict.outcome : Verdict → Outcome
  | .proceed => .proceed
  | .branch yes => .branch yes

/-- What each node yields. -/
abbrev Results := Step → Except HandlerFault Verdict

namespace Results

variable (results : Results)

/-- Visits of delays ask to be resumed at some time if `pauses` says so, and go on at once if not; those of other nodes are
answered as they yield. -/
def Answer (pauses : Bool) : Visits := fun step x =>
  if step.kind.type = .delay then
    if pauses then ∃ deadline, x = .ok (.suspend deadline) else x = .ok .proceed
  else x = (results step).map Verdict.outcome

/-- What a node yields if delays go on at once. -/
def through (step : Step) : Except HandlerFault Verdict :=
  if step.kind.type = .delay then .ok .proceed else results step

/-- The nodes that a walk enters from a step on if delays go on at once, and how it ends. -/
def course (g : Graph) (step : Step) : List String × Ending :=
  match results.through step with
  | .error f => ([step.id], .failed step.id f.message)
  | .ok v => match _h : g.successor? step.id v.outcome.label with
    | none => ([step.id], .completed)
    | some next => (step.id :: (course g next).1, (course g next).2)
termination_by g.height step.id
decreasing_by all_goals exact Graph.height_successor? _h

variable {results} {g : Graph} {step : Step}

theorem course_error {f : HandlerFault} (h : results.through step = .error f) :
    results.course g step = ([step.id], .failed step.id f.message) := by
  rw [course, h]

theorem course_none {v : Verdict} (h : results.through step = .ok v)
    (hn : g.successor? step.id v.outcome.label = none) : results.course g step = ([step.id], .completed) := by
  rw [course, h]
  dsimp only
  split
  · rfl
  · rename_i hs
    cases hn.symm.trans hs

theorem course_some {v : Verdict} {next : Step} (h : results.through step = .ok v)
    (hn : g.successor? step.id v.outcome.label = some next) :
    results.course g step = (step.id :: (results.course g next).1, (results.course g next).2) := by
  rw [course, h]
  dsimp only
  split
  · rename_i hs
    cases hs.symm.trans hn
  · rename_i hs
    rw [Option.some.inj (hs.symm.trans hn)]

/-- A visit is answered by a suspension of a delay, or by what the node yields. -/
theorem Answer.cases {pauses : Bool} {x : Except HandlerFault Outcome} (h : results.Answer pauses step x) :
    x = (results.through step).map Verdict.outcome ∨
      pauses = true ∧ ∃ deadline, x = .ok (.suspend deadline) ∧ results.through step = .ok .proceed := by
  unfold Answer at h
  unfold through
  by_cases ht : step.kind.type = .delay
  · rw [if_pos ht] at h ⊢
    cases pauses with
    | false => exact .inl h
    | true =>
      obtain ⟨deadline, rfl⟩ := h
      exact .inr ⟨rfl, deadline, rfl, rfl⟩
  · rw [if_neg ht] at h ⊢
    exact .inl h

theorem exists_answer (results : Results) (pauses : Bool) (step : Step) : ∃ x, results.Answer pauses step x := by
  unfold Answer
  by_cases ht : step.kind.type = .delay
  · cases pauses with
    | false => exact ⟨.ok .proceed, by simp [ht]⟩
    | true => exact ⟨.ok (.suspend .epoch), by simp [ht]⟩
  · exact ⟨(results step).map Verdict.outcome, by simp [ht]⟩

end Results

theorem walkOn_none {w : Workflow} {record : Record} {step : Step} {context : Context} {outcome : Outcome}
    (hn : w.graph.successor? step.id outcome.label = none) : walkOn w record step context (.ok outcome) = finish record := by
  unfold walkOn
  dsimp only
  rw [hn]

theorem walkOn_verdict {w : Workflow} {record : Record} {step next : Step} {context : Context} {v : Verdict}
    (hn : w.graph.successor? step.id v.outcome.label = some next) :
    walkOn w record step context (.ok v.outcome) = walkFrom w record next context := by
  unfold walkOn
  dsimp only
  rw [hn]
  cases v <;> rfl

theorem walkOn_suspend {w : Workflow} {record : Record} {step next : Step} {context : Context} {deadline : Instant}
    (hn : w.graph.successor? step.id .next = some next) :
    walkOn w record step context (.ok (.suspend deadline)) = suspendAt record step next deadline context := by
  unfold walkOn
  dsimp only [Outcome.label]
  rw [hn]

/-! ### What is left of the course -/

variable {results : Results} {pauses : Bool} {w : Workflow} {id : String} {db after : Database}

/-- What is still to come of an execution: nothing, or the course from the node on in front of which it waits. -/
inductive Ahead (results : Results) (pauses : Bool) (w : Workflow) (id : String) (db : Database) :
    List String × Ending → Prop where
  | ended {e : Ending} (h : Over db id e) : Ahead results pauses w id db ([], e)
  | waits {next : Step} {context : Context} (hp : pauses = true) (h : Waits db w id next context)
      (hn : w.graph.node? next.id = some next) (hc : context.Durable) :
      Ahead results pauses w id db (results.course w.graph next)

/-- A part of a course is behind: the nodes `ids`, one at least, and what is still to come is the rest. -/
def Behind (results : Results) (pauses : Bool) (w : Workflow) (id : String) (course : List String × Ending)
    (ids : List String) (after : Database) : Prop :=
  ids ≠ [] ∧ ∃ rest, Ahead results pauses w id after rest ∧ course = (ids ++ rest.1, rest.2)

/-- A walk goes along the course until its end or until it suspends. -/
theorem ensures_walkFrom {record : Record} (step : Step) (context : Context) (hc : context.Durable)
    (h : OnRecord db w record.id .running) (hn : ∀ row ∈ db.waiting, row.executionId ≠ record.id) :
    Ensures (results.Answer pauses) (walkFrom w record step context).run db fun ids _ after =>
      Behind results pauses w record.id (results.course w.graph step) ids after := by
  induction step using w.graph.induction_down generalizing context db with
  | h step ih =>
    rw [walkFrom_eq]
    intro now mid hnow x after ⟨hx, hsame⟩
    obtain rfl : mid = db := hnow
    have hr := h.same hsame
    have hw : after.waiting = mid.waiting := hsame.1.unchanged.waiting
    have hn : ∀ row ∈ after.waiting, row.executionId ≠ record.id := hw ▸ hn
    have hc := hc.enter step.id now
    show Ensures _ (walkOn w record step (context.enter step.id now) x).run after _
    rcases hx.cases with rfl | ⟨hp, deadline, rfl, hthrough⟩
    · cases hthrough : results.through step with
      | error f =>
        refine (ensures_failAt hr hn step.id f.message).imp ?_
        rintro ids _ last ⟨rfl, hover⟩
        exact ⟨by simp [Request.entered], _, .ended hover, Results.course_error hthrough⟩
      | ok v =>
        show Ensures _ (walkOn w record step _ (.ok v.outcome)).run after _
        cases hs : w.graph.successor? step.id v.outcome.label with
        | none =>
          rw [walkOn_none hs]
          refine (ensures_finish hr hn).imp ?_
          rintro ids _ last ⟨rfl, -, hover, -⟩
          exact ⟨by simp [Request.entered], _, .ended hover, Results.course_none hthrough hs⟩
        | some next =>
          rw [walkOn_verdict hs]
          refine (ih _ next hs _ hc hr hn).imp ?_
          rintro ids _ last ⟨-, rest, hrest, hcourse⟩
          refine ⟨by simp [Request.entered], rest, hrest, ?_⟩
          rw [Results.course_some hthrough hs, hcourse]
          rfl
    · cases hs : w.graph.successor? step.id .next with
      | none =>
        rw [walkOn_none hs]
        refine (ensures_finish hr hn).imp ?_
        rintro ids _ last ⟨rfl, -, hover, -⟩
        exact ⟨by simp [Request.entered], _, .ended hover, Results.course_none hthrough hs⟩
      | some next =>
        rw [walkOn_suspend hs]
        refine (ensures_suspendAt hr hn step next deadline _).imp ?_
        rintro ids _ last ⟨rfl, hwaits⟩
        refine ⟨by simp [Request.entered], _, .waits hp hwaits (Graph.node?_of_successor? hs) hc, ?_⟩
        rw [Results.course_some hthrough hs]
        rfl

theorem ensures_runNew {record : Record} {context : Context} (hc : context.Durable)
    (h : OnRecord db w record.id .pending) (hn : ∀ row ∈ db.waiting, row.executionId ≠ record.id) :
    Ensures (results.Answer pauses) (runNew w record context).run db fun ids _ after =>
      Behind results pauses w record.id (results.course w.graph w.graph.entry) ids after := by
  refine (ensures_move h .running (by decide) none).attempt ?_
  rintro moved mid ⟨rfl, hr, hw, -⟩
  exact ensures_walkFrom w.graph.entry context hc hr (hw ▸ hn)

/-- A delay that nothing follows ends the walk; no token is written. -/
theorem ensures_walkFrom_delay {record : Record} {step : Step} (hk : step.kind.type = .delay)
    (hs : w.graph.successor? step.id .next = none) (context : Context) (h : OnRecord db w record.id .running)
    (hn : ∀ row ∈ db.waiting, row.executionId ≠ record.id) :
    Ensures (results.Answer true) (walkFrom w record step context).run db fun ids x after =>
      ids = [step.id] ∧ x = .ok .completed ∧ Over after record.id .completed ∧ after.waiting = db.waiting := by
  rw [walkFrom_eq]
  intro now mid hnow x after ⟨hx, hsame⟩
  obtain rfl : mid = db := hnow
  have hr := h.same hsame
  have hw : after.waiting = mid.waiting := hsame.1.unchanged.waiting
  obtain ⟨deadline, rfl⟩ : ∃ deadline, x = .ok (.suspend deadline) := by
    have hx : results.Answer true step x := hx
    unfold Results.Answer at hx
    rw [if_pos hk, if_pos rfl] at hx
    exact hx
  show Ensures _ (walkOn w record step _ (.ok (.suspend deadline))).run after _
  rw [walkOn_none hs]
  refine (ensures_finish hr (hw ▸ hn)).imp ?_
  rintro ids _ last ⟨rfl, rfl, hover, hwaiting⟩
  exact ⟨rfl, rfl, hover, hwaiting.trans hw⟩

/-! ### Resumptions -/

theorem ensures_resumption {visits : Visits} {record : Record} {next : Step} {context : Context} {t : Token}
    (ht : t.resumeNodeId = next.id) (hs : Context.ofSnapshot t.snapshot = .ok context)
    (hnode : w.graph.node? next.id = some next) (h : db.Yields record.workflowId w) :
    Ensures visits (resumption record t) db fun ids x mid => ids = [] ∧ x = .ok (w, next, context) ∧ mid = db := by
  unfold resumption
  rw [hs]
  refine (ensures_currentWorkflow h).bind ?_
  rintro ids x mid ⟨rfl, rfl, rfl⟩
  simp only [ht, hnode]
  exact ⟨rfl, rfl, rfl⟩

theorem ensures_resume {next : Step} {context : Context} {t : Token} (ht : t.resumeNodeId = next.id)
    (hs : Context.ofSnapshot t.snapshot = .ok context) (hnode : w.graph.node? next.id = some next)
    (hc : context.Durable) (h : OnRecord db w t.executionId .suspended)
    (hn : ∀ row ∈ db.waiting, row.executionId ≠ t.executionId) :
    Ensures (results.Answer pauses) (resume t).run db fun ids _ after =>
      Behind results pauses w t.executionId (results.course w.graph next) ids after := by
  refine (ensures_getRecord h).attempt ?_
  rintro found mid ⟨rfl, record, rfl, hid, hstatus, hyields⟩
  dsimp only
  rw [if_neg (by simp [hstatus])]
  refine Ensures.lift (ensures_resumption ht hs hnode hyields) ?_
  rintro ids x last ⟨rfl, rfl, rfl⟩
  rw [← hid] at h hn ⊢
  refine (ensures_move h .running (by decide) none).attempt ?_
  rintro moved mid ⟨rfl, hr, hw, -⟩
  exact ensures_walkFrom next context hc hr (hw ▸ hn)

/-- A sweep that finds the token of a waiting execution goes on with the course. -/
theorem ensures_sweepTokens {next : Step} {context : Context} (hw : Waits db w id next context)
    (hnode : w.graph.node? next.id = some next) (hc : context.Durable) {row : TokenRow} (hrow : row ∈ db.waiting)
    (hid : row.executionId = id) {t : Token} (ht : row.Holds t) (tally : SweepTally) :
    Ensures (results.Answer pauses) (sweepTokens tally [t]) db fun ids _ after =>
      Behind results pauses w id (results.course w.graph next) ids after := by
  obtain ⟨hr, found, hfound, -, he, hresume, hsnapshot, only⟩ := hw
  obtain rfl := only row hrow hid
  obtain ⟨htid, hte, htn, hts⟩ := ht
  have hread : Context.ofSnapshot t.snapshot = .ok context := by
    rw [hts, hsnapshot, Context.ofSnapshot_readSnapshot hc]
  refine Ensures.bind (p := (claim t.id).run) (ensures_claim hr hrow htid) ?_
  rintro ids x mid ⟨rfl, rfl, hmid, hleft⟩
  obtain rfl : id = t.executionId := hid.symm.trans hte
  have hn : ∀ other ∈ mid.waiting, other.executionId ≠ t.executionId := by
    intro other ho he
    rw [hleft, List.mem_filter] at ho
    obtain rfl := only other ho.1 he
    simp [htid] at ho
  refine Ensures.bind (p := (resume t).run) (ensures_resume (htn.symm.trans hresume) hread hnode hc hmid hn) ?_
  intro ids result last hbehind
  show Behind results pauses w t.executionId _ ([] ++ (ids ++ [])) last
  rw [List.nil_append, List.append_nil]
  exact hbehind

/-- Tokens of the execution `id` are found by sweeps, one after the other, until none is left: the nodes entered in
order, and the database before and after. When a token is found and what its row has as its times is not asked. -/
inductive Resumes (visits : Visits) (id : String) : Database → List String → Database → Prop where
  | rest {db : Database} (h : ∀ row ∈ db.waiting, row.executionId ≠ id) : Resumes visits id db [] db
  | sweep {db mid after : Database} {row : TokenRow} {t : Token} {tally tally' : SweepTally} {ids ids' : List String}
      (hrow : row ∈ db.waiting) (hid : row.executionId = id) (ht : row.Holds t)
      (h : Runs visits db (sweepTokens tally [t]) ids tally' mid) (hrest : Resumes visits id mid ids' after) :
      Resumes visits id db (ids ++ ids') after

/-- The resumptions go to the end of the course. -/
theorem Resumes.ahead {ids : List String} (h : Resumes (results.Answer pauses) id db ids after)
    {course : List String × Ending} (ha : Ahead results pauses w id db course) :
    ids = course.1 ∧ Over after id course.2 := by
  induction h generalizing course with
  | rest hn =>
    cases ha with
    | ended h => exact ⟨rfl, h⟩
    | waits hp h hnode hc =>
      obtain ⟨row, hrow, -, he, -⟩ := h.token
      exact absurd he (hn row hrow)
  | sweep hrow hid ht h hrest ih =>
    cases ha with
    | ended h => exact absurd hid (h.tokens _ hrow)
    | waits hp hw hnode hc =>
      obtain ⟨-, rest, hrest, hcourse⟩ := h.ensures (ensures_sweepTokens hw hnode hc hrow hid ht _)
      obtain ⟨rfl, hover⟩ := ih hrest
      rw [hcourse]
      exact ⟨rfl, hover⟩

/-- There are resumptions to the end of the course. -/
theorem Ahead.exists_resumes {course : List String × Ending} (ha : Ahead results pauses w id db course) :
    ∃ ids after, Resumes (results.Answer pauses) id db ids after := by
  induction hl : course.1.length using Nat.strongRecOn generalizing course db with
  | ind n ih =>
    cases ha with
    | ended h => exact ⟨[], db, .rest h.tokens⟩
    | @waits next context hp hw hnode hc =>
      obtain ⟨row, hrow, hsome, hid, -⟩ := hw.token
      obtain ⟨tokenId, htid⟩ := Option.isSome_iff_exists.1 hsome
      let t : Token := ⟨tokenId, row.executionId, row.resumeNodeId, .epoch, Store.readSnapshot row.snapshot, .epoch⟩
      have ht : row.Holds t := ⟨htid, rfl, rfl, rfl⟩
      obtain ⟨ids, tally, mid, hrun⟩ := exists_runs (results.exists_answer pauses) db (sweepTokens {} [t])
      obtain ⟨hne, rest, hrest, hcourse⟩ := hrun.ensures (ensures_sweepTokens hw hnode hc hrow hid ht _)
      have hshorter : rest.1.length < n := by
        have hpos := List.length_pos_iff.2 hne
        rw [← hl, hcourse, List.length_append]
        omega
      obtain ⟨ids', after, h⟩ := ih _ hshorter hrest rfl
      exact ⟨ids ++ ids', after, .sweep hrow hid ht hrun h⟩

/-- A run of a new execution from its start, and all resumptions that follow it. -/
inductive RunsThrough (visits : Visits) (w : Workflow) (record : Record) (context : Context) (db : Database) :
    List String → Database → Prop where
  | intro {mid after : Database} {ids ids' : List String} {result : Except EngineFault Result}
      (h : Runs visits db (runNew w record context).run ids result mid) (hr : Resumes visits record.id mid ids' after) :
      RunsThrough visits w record context db (ids ++ ids') after

/-! ### Suspended and resumed, or straight through -/

/-- A walk that passes its delays enters the nodes of the course and ends as the course does. If the delays suspend the
execution instead, it gets to the same end through the same nodes, whoever finds its tokens, and no token of it is left;
and a delay that nothing follows writes none. The contexts of changes and of lasting statuses are durable. -/
theorem suspensions_do_not_show (results : Results) {record : Record} {context : Context} (hc : context.Durable)
    (h : OnRecord db w record.id .pending) (hn : ∀ row ∈ db.waiting, row.executionId ≠ record.id) :
    (∃ ids result after, Runs (results.Answer false) db (runNew w record context).run ids result after) ∧
      (∀ ids result after, Runs (results.Answer false) db (runNew w record context).run ids result after →
        ids = (results.course w.graph w.graph.entry).1 ∧
          Over after record.id (results.course w.graph w.graph.entry).2) ∧
      (∃ ids after, RunsThrough (results.Answer true) w record context db ids after) ∧
      (∀ ids after, RunsThrough (results.Answer true) w record context db ids after →
        ids = (results.course w.graph w.graph.entry).1 ∧
          Over after record.id (results.course w.graph w.graph.entry).2) ∧
      ∀ (step : Step) (context : Context) (db : Database) ids result after, step.kind.type = .delay →
        w.graph.successor? step.id .next = none → OnRecord db w record.id .running →
        (∀ row ∈ db.waiting, row.executionId ≠ record.id) →
        Runs (results.Answer true) db (walkFrom w record step context).run ids result after →
          ids = [step.id] ∧ result = .ok .completed ∧ Over after record.id .completed ∧ after.waiting = db.waiting := by
  refine ⟨exists_runs (results.exists_answer false) db _, ?_, ?_, ?_, ?_⟩
  · intro ids result after hrun
    obtain ⟨-, rest, hrest, hcourse⟩ := hrun.ensures (ensures_runNew hc h hn)
    rw [hcourse]
    cases hrest with
    | ended hover => exact ⟨(List.append_nil ids).symm, hover⟩
    | waits hp => cases hp
  · obtain ⟨ids, result, mid, hrun⟩ := exists_runs (results.exists_answer true) db (runNew w record context).run
    obtain ⟨-, rest, hrest, -⟩ := hrun.ensures (ensures_runNew hc h hn)
    obtain ⟨ids', after, hresumes⟩ := hrest.exists_resumes
    exact ⟨ids ++ ids', after, .intro hrun hresumes⟩
  · rintro _ after ⟨hrun, hresumes⟩
    obtain ⟨-, rest, hrest, hcourse⟩ := hrun.ensures (ensures_runNew hc h hn)
    obtain ⟨rfl, hover⟩ := hresumes.ahead hrest
    rw [hcourse]
    exact ⟨rfl, hover⟩
  · intro step context db ids result after hk hs hr hw hrun
    exact hrun.ensures (ensures_walkFrom_delay hk hs context hr hw)

namespace Delays

/-- A delay behind a delay. -/
def definition : Definition :=
  ⟨"w", "w", .statusChanged, [], true,
    [⟨"t", .trigger, .null, none⟩, ⟨"d", .delay, .obj [("duration", .int 1), ("unit", .str "days")], none⟩,
      ⟨"e", .delay, .obj [("duration", .int 2), ("unit", .str "days")], none⟩],
    [⟨"t", "d", .next⟩, ⟨"d", "e", .next⟩]⟩

def graph : Graph where
  steps := [⟨"t", .trigger⟩, ⟨"d", .delay ⟨1, .days⟩⟩, ⟨"e", .delay ⟨2, .days⟩⟩]
  connections := definition.connections
  entry := ⟨"t", .trigger⟩
  heights := [("t", 2), ("d", 1), ("e", 0)]
  falls := by decide

def workflow : Workflow := ⟨definition, .statusChanged none .any .any false, graph⟩

def record : Record := ⟨"x", "w", ⟨.application, "1"⟩, .statusChanged, .pending, false, none, none, .epoch, none, .epoch⟩

/-- The execution is pending, and its workflow stored. -/
def pending : Database := ⟨some [.ofRecord record], some [], some [.ofDefinition definition], none, []⟩

theorem yields_workflow : pending.Yields "w" workflow := by
  have hread : Definition.ofText definition.text = .ok definition := by
    rw [Definition.ofText, Definition.text, Json.Decoder.ofText, Json.Draft.ofText, Json.print, String.toList_ofList]
    decide +kernel
  exact ⟨_, .ofDefinition definition, definition, rfl, rfl, hread, rfl⟩

theorem onRecord_pending : OnRecord pending workflow record.id .pending :=
  ⟨rfl, rfl, .ofRecord record, rfl, Store.readable_ofRecord record, rfl, yields_workflow⟩

theorem course_graph : Results.course (fun _ => .ok .proceed) graph graph.entry = (["t", "d", "e"], .completed) := by
  have first : graph.successor? "t" .next = some ⟨"d", .delay ⟨1, .days⟩⟩ := rfl
  have second : graph.successor? "d" .next = some ⟨"e", .delay ⟨2, .days⟩⟩ := rfl
  rw [Results.course_some (v := .proceed) rfl first, Results.course_some (v := .proceed) rfl second,
    Results.course_none (v := .proceed) rfl rfl]
  rfl

end Delays

/-- An execution that is suspended once, and completes at a delay that nothing follows. -/
theorem suspension_of_delays : ∃ after, RunsThrough (Results.Answer (fun _ => .ok .proceed) true) Delays.workflow
    Delays.record (.ofChange "a" "b") Delays.pending ["t", "d", "e"] after ∧ Over after "x" .completed := by
  have free : ∀ row ∈ Delays.pending.waiting, row.executionId ≠ Delays.record.id := fun row hrow => by cases hrow
  obtain ⟨-, -, ⟨ids, after, h⟩, same, -⟩ := suspensions_do_not_show (fun _ => .ok .proceed)
    (Context.durable_ofChange "a" "b") Delays.onRecord_pending free
  obtain ⟨hids, hover⟩ := same ids after h
  have hcourse : Results.course (fun _ => .ok .proceed) Delays.workflow.graph Delays.workflow.graph.entry =
    (["t", "d", "e"], .completed) := Delays.course_graph
  rw [hcourse] at hids hover
  subst hids
  exact ⟨after, h, hover⟩

end Lifecycle
