import Lifecycle.Proofs.Engine.Operations
import Lifecycle.Proofs.Host.Caches
import Lifecycle.Proofs.Host.Holdings
import Lifecycle.Proofs.Host.Registry
import Lifecycle.Proofs.Host.Site

/-!
# What a run leaves to others

A run touches the row of its own execution, adds tokens of its own, and writes to its own target what the nodes that it enters
say. Everything else is as it was: the other executions and tokens, the definitions, the other entities, and of its target
the outline, every tag and every field that no such node names.
-/

namespace Lifecycle

open Engine
open Host (Site Steady Registry)
open Program (Only)
open Store (Database ExecutionRow TokenRow)
open Target (Call Holding HostRow)

/-! ### What a visit asks for -/

/-- The field that a node sets, with its value. -/
def Kind.written : Kind → List (String × Json)
  | .mutateTarget m => [(m.field, m.value)]
  | _ => []

/-- The tag that a node gives. -/
def Kind.labels : Kind → List String
  | .tagTarget t => [t.label]
  | _ => []

/-- A call is on the target of the execution, and writes no more than the node says. -/
def Handling.Request.Within (v : Visit) : Request → Prop
  | .target type c => type = v.record.target.type ∧ c.subject? = some v.record.target.id ∧
    c.written ⊆ v.step.kind.written ∧ c.labels ⊆ v.step.kind.labels
  | _ => True

namespace Handling

variable {v : Visit}

theorem only_onTarget {types : List TargetType} {c : Call} (hc : c.subject? = some v.record.target.id)
    (hwritten : c.written ⊆ v.step.kind.written) (hlabels : c.labels ⊆ v.step.kind.labels) :
    (onTarget types v c).run.Only (Request.Within v) := by
  unfold onTarget
  split
  · exact ⟨⟨rfl, hc, hwritten, hlabels⟩, fun _ => trivial⟩
  · trivial

theorem only_reading {types : List TargetType} {c : Call} (hc : c.subject? = some v.record.target.id)
    (hwritten : c.written = []) (hlabels : c.labels = []) : (onTarget types v c).run.Only (Request.Within v) :=
  only_onTarget hc (hwritten ▸ List.nil_subset _) (hlabels ▸ List.nil_subset _)

/-- A visit stays with the target of its execution, and with what its node says. -/
theorem only_handle (types : List TargetType) (v : Visit) : (handle types v).run.Only (Request.Within v) := by
  unfold handle
  cases hkind : v.step.kind with
  | trigger => trivial
  | email e =>
    refine (only_reading rfl rfl rfl).attempt fun recipient => ?_
    cases recipient with
    | none => trivial
    | some recipient =>
      refine (only_reading rfl rfl rfl).attempt fun view => ?_
      refine Only.attempt (p := template e.templateId) ⟨trivial, fun _ => trivial⟩ fun source => ?_
      refine Only.attempt (p := ExceptT.mk (pure _)) trivial fun rendered => ?_
      exact Only.attempt (p := deliver _) ⟨trivial, fun _ => trivial⟩ fun _ => trivial
  | delay d => exact Only.attempt (p := now) ⟨trivial, fun _ => trivial⟩ fun _ => trivial
  | condition p =>
    refine Only.attempt (p := answer types v p) ?_ fun yes => trivial
    cases p with
    | statusEquals status => exact (only_reading rfl rfl rfl).attempt fun _ => trivial
    | stuckDuration operator threshold unit =>
      refine (only_reading rfl rfl rfl).attempt fun changed => ?_
      cases changed with
      | none => trivial
      | some t => exact Only.attempt (p := now) ⟨trivial, fun _ => trivial⟩ fun _ => trivial
    | fieldEquals field value =>
      refine (only_reading rfl rfl rfl).attempt fun actual => ?_
      match actual with
      | none => trivial
      | some j => cases j <;> trivial
  | webhook w =>
    refine Only.attempt (p := send _) ⟨trivial, fun _ => trivial⟩ fun response => ?_
    split <;> trivial
  | mutateTarget m =>
    refine (only_onTarget rfl ?_ ?_).attempt fun _ => trivial
    · rw [hkind]
      exact List.Subset.refl _
    · exact List.nil_subset _
  | tagTarget t =>
    refine (only_onTarget rfl ?_ ?_).attempt fun _ => trivial
    · exact List.nil_subset _
    · rw [hkind]
      exact List.Subset.refl _

end Handling

/-! ### The frame -/

namespace Host.Site

/-- From one site to another, nothing is different but the row of the execution `id`, tokens of it that are new, and of
its target what was written. -/
structure Frame (id : String) (target : Lifecycle.Target) (written : List (String × Json)) (labels : List String)
    (s s' : Site) : Prop where
  records : List.Forall₂ (fun r r' : ExecutionRow => r'.id = r.id ∧ (r.id ≠ some id → r' = r)) s.database.records
    s'.database.records
  tokens : ∃ added, s'.database.waiting = s.database.waiting ++ added ∧ ∀ t ∈ added, t.executionId = id
  definitions : s'.database.definitions = s.database.definitions
  outline : s'.outline = s.outline
  others : ∀ other ≠ target, s'.held other = s.held other
  target : Holding.Kept written labels (s.held target) (s'.held target)

variable {id : String} {target : Lifecycle.Target} {written written' : List (String × Json)} {labels labels' : List String}
  {s mid s' : Site}

theorem same_records (id : String) (l : Store.Executions) :
    List.Forall₂ (fun r r' : ExecutionRow => r'.id = r.id ∧ (r.id ≠ some id → r' = r)) l l :=
  List.forall₂_same.2 fun _ _ => ⟨rfl, fun _ => rfl⟩

theorem frame_refl (s : Site) : Frame id target written labels s s where
  records := same_records id _
  tokens := ⟨[], (List.append_nil _).symm, by simp⟩
  definitions := rfl
  outline := rfl
  others _ _ := rfl
  target := Holding.kept_refl _

theorem Frame.trans (h : Frame id target written labels s mid) (g : Frame id target written' labels' mid s') :
    Frame id target (written ++ written') (labels ++ labels') s s' where
  records := by
    have compose {l l' l'' : Store.Executions}
        (hl : List.Forall₂ (fun r r' : ExecutionRow => r'.id = r.id ∧ (r.id ≠ some id → r' = r)) l l')
        (hl' : List.Forall₂ (fun r r' : ExecutionRow => r'.id = r.id ∧ (r.id ≠ some id → r' = r)) l' l'') :
        List.Forall₂ (fun r r' : ExecutionRow => r'.id = r.id ∧ (r.id ≠ some id → r' = r)) l l'' := by
      induction hl generalizing l'' with
      | nil => exact hl'
      | cons hr _ ih =>
        cases hl' with
        | cons hr' hl' =>
          exact .cons ⟨hr'.1.trans hr.1, fun hne => (hr'.2 (hr.1 ▸ hne)).trans (hr.2 hne)⟩ (ih hl')
    exact compose h.records g.records
  tokens := by
    obtain ⟨added, hadded, hid⟩ := h.tokens
    obtain ⟨added', hadded', hid'⟩ := g.tokens
    refine ⟨added ++ added', by rw [hadded', hadded, List.append_assoc], fun t ht => ?_⟩
    rcases List.mem_append.1 ht with ht | ht
    · exact hid t ht
    · exact hid' t ht
  definitions := g.definitions.trans h.definitions
  outline := g.outline.trans h.outline
  others other hne := (g.others other hne).trans (h.others other hne)
  target := h.target.trans g.target

theorem Frame.mono (h : Frame id target written labels s s') (hwritten : written ⊆ written') (hlabels : labels ⊆ labels') :
    Frame id target written' labels' s s' where
  records := h.records
  tokens := h.tokens
  definitions := h.definitions
  outline := h.outline
  others := h.others
  target := h.target.mono hwritten hlabels

/-- What leaves the tables of the engine as they are leaves others alone if it does so with the entities. -/
theorem Frame.of_kept (h : s.Kept s') (outline : s'.outline = s.outline) (others : ∀ other ≠ target, s'.held other = s.held other)
    (keeps : Holding.Kept written labels (s.held target) (s'.held target)) :
    Frame id target written labels s s' where
  records := by
    rw [h.database.1.unchanged.records]
    exact same_records id _
  tokens := ⟨[], by rw [h.database.1.unchanged.waiting, List.append_nil], by simp⟩
  definitions := h.database.2
  outline := outline
  others := others
  target := keeps

/-! ### Visits -/

variable {v : Visit}

theorem frame_before (s : Site) (r : Handling.Request) : Frame id target written labels s (s.before r) := by
  refine .of_kept (s.kept_before r) (s.outline_before r) (fun other _ => ?_) ?_
  · cases r <;> rfl
  · have hsame : (s.before r).held target = s.held target := by cases r <;> rfl
    rw [hsame]
    exact Holding.kept_refl _

theorem held_deliver (s : Site) (m : Mail.Message) (other : Lifecycle.Target) : (s.deliver m).2.held other = s.held other := by
  unfold deliver
  dsimp only
  split <;> rfl

theorem frame_after (calm : s.Calm) (tidy : s.Tidy) (separate : s.Separate) {r : Handling.Request} (hr : r.Within v) :
    Frame id v.record.target v.step.kind.written v.step.kind.labels s (after r s).2 := by
  cases r with
  | target type c =>
    obtain ⟨rfl, hsubject, hwritten, hlabels⟩ := hr
    refine .of_kept (s.kept_call _ c) (outline_call tidy _ c) (fun other hne => held_call_of_ne separate hsubject hne) ?_
    exact (keeps_call hsubject s).mono hwritten hlabels
  | deliver m =>
    have hcalm : s.worker.mailer.interferes = false := calm
    have hsite : (after (.deliver m) s).2 = (s.deliver m).2 := by
      show ((if s.worker.mailer.interferes then s.interfere else s).deliver m).2 = _
      rw [hcalm]
      rfl
    rw [hsite]
    refine .of_kept (s.kept_deliver m) (s.outline_deliver m) (fun other _ => s.held_deliver m other) ?_
    rw [s.held_deliver m]
    exact Holding.kept_refl _
  | _ => exact frame_refl s

theorem frame_visit (calm : s.Calm) (tidy : s.Tidy) (separate : s.Separate) (v : Visit) :
    Frame id v.record.target v.step.kind.written v.step.kind.labels s (s.visit v).2 := by
  -- Every request writes what the node says, and all of them together no more than that.
  have twice {α : Type} (l : List α) : l ++ l ⊆ l := List.append_subset.2 ⟨List.Subset.refl l, List.Subset.refl l⟩
  have framed : Steady fun s s' => (s.Calm → s'.Calm) ∧ Frame id v.record.target v.step.kind.written v.step.kind.labels s s' :=
    ⟨fun s => ⟨fun h => h, frame_refl s⟩, fun h g => ⟨g.1 ∘ h.1, (h.2.trans g.2).mono (twice _) (twice _)⟩⟩
  have steady := framed.under (Q := fun s => s.Calm ∧ s.Tidy ∧ s.Separate) fun h hs =>
    ⟨h.1 hs.1, hs.2.1.of_outline h.2.outline, hs.2.2.of_outline h.2.outline⟩
  refine (steady.visit (fun s r _ _ => ⟨(s.kept_before r).calm, s.frame_before r⟩) (fun s r hr hs => ?_)
    (Handling.only_handle s.worker.types v) ⟨calm, tidy, separate⟩).2
  exact ⟨(kept_after hs.1 r).calm, frame_after hs.1 hs.2.1 hs.2.2 hr⟩

end Host.Site

/-! ### Runs -/

namespace Engine

/-- The node that a request visits. -/
def Request.visit? : Request → Option Visit
  | .visit v => some v
  | _ => none

/-- Of the executions the request touches `record` alone. -/
def Request.Concerns (record : Record) : Request → Prop
  | .now | .fresh | .statement (.execution _) => True
  | .statement (.advance id _ _ _) => id = record.id
  | .statement (.suspend token _) => token.executionId = record.id
  | .visit v => v.record = record
  | _ => False

theorem Request.Concerns.apart {record : Record} {r : Request} (h : r.Concerns record) : r.Apart := by
  cases r with
  | statement q =>
    cases q with
    | execution _ => trivial
    | advance _ _ _ _ => trivial
    | suspend _ _ => trivial
    | _ => exact h.elim
  | now => trivial
  | fresh => trivial
  | visit v => trivial
  | _ => exact h.elim

/-- The fields that visits set, with their values. -/
def written (vs : List Visit) : List (String × Json) := vs.flatMap (·.step.kind.written)

/-- The tags that visits give. -/
def labels (vs : List Visit) : List String := vs.flatMap (·.step.kind.labels)

theorem written_append (vs ws : List Visit) : written (vs ++ ws) = written vs ++ written ws := List.flatMap_append

theorem labels_append (vs ws : List Visit) : labels (vs ++ ws) = labels vs ++ labels ws := List.flatMap_append

variable {record : Record}

theorem concerns_finish (record : Record) : (finish record).run.Only (Request.Concerns record) :=
  (only_move trivial fun _ => rfl).attempt fun _ => trivial

theorem concerns_failAt (record : Record) (nodeId message : String) :
    (failAt record nodeId message).run.Only (Request.Concerns record) :=
  (only_move trivial fun _ => rfl).attempt fun _ => trivial

theorem concerns_suspendAt (record : Record) (delay next : Step) (deadline : Time.Instant) (context : Context) :
    (suspendAt record delay next deadline context).run.Only (Request.Concerns record) :=
  only_suspendAt record delay next deadline context trivial trivial (fun _ _ _ => rfl) fun _ _ => rfl

theorem concerns_walkFrom (workflow : Workflow) (record : Record) (step : Step) (context : Context) :
    (walkFrom workflow record step context).run.Only (Request.Concerns record) := by
  induction step using workflow.graph.induction_down generalizing context with
  | h step ih =>
    rw [walkFrom_eq]
    refine ⟨trivial, fun now => ⟨rfl, fun answer => ?_⟩⟩
    show (walkOn workflow record step _ answer).run.Only _
    unfold walkOn
    cases answer with
    | error f => exact concerns_failAt record step.id _
    | ok outcome =>
      dsimp only
      split
      · exact concerns_finish record
      · exact concerns_suspendAt record step _ _ _
      · exact ih _ _ ‹_› _

theorem concerns_runNew (workflow : Workflow) (record : Record) (context : Context) :
    (runNew workflow record context).run.Only (Request.Concerns record) := by
  refine (only_move trivial fun _ => rfl).attempt fun moved => ?_
  cases moved with
  | false => trivial
  | true => exact concerns_walkFrom workflow record _ context

end Engine

namespace Host.Site

variable {s s' : Site} {record : Record}

/-- The nodes that are entered in a job at a site, by their visits. -/
def entered (s : Site) {α : Type} : Job α → List Visit
  | .done _ => []
  | .ask r next => r.visit?.toList ++ entered (answer r s).2 (next (answer r s).1)

theorem forall₂_advance (l : Store.Executions) (id : String) (next : Status) (now : Int) (failure : Option Store.Failure) :
    List.Forall₂ (fun r r' : ExecutionRow => r'.id = r.id ∧ (r.id ≠ some id → r' = r)) l (l.advance id next now failure).2 := by
  show List.Forall₂ _ l (l.map fun r => if r.admits id next then r.moved next now failure else r)
  rw [List.forall₂_map_right_iff]
  refine List.forall₂_same.2 fun r _ => ?_
  split
  · rename_i hadmits
    have hid : r.id = some id := beq_iff_eq.1 (Bool.and_eq_true_iff.1 hadmits).1
    exact ⟨rfl, fun hne => absurd hid hne⟩
  · exact ⟨rfl, fun _ => rfl⟩

theorem frame_statement {q : Store.Statement} (hq : Request.Concerns record (.statement q)) (s : Site) :
    Frame record.id record.target [] [] s (s.execute q).2 := by
  have outline : (s.execute q).2.outline = s.outline :=
    congrArg (fun db => Site.mk db 0 s.worker.outline) (Database.outline_execute q s.database)
  have target : Holding.Kept [] [] (s.held record.target) ((s.execute q).2.held record.target) := by
    rw [s.held_execute q]
    exact Holding.kept_refl _
  have stored : (s.execute q).2.database.definitions = s.database.definitions :=
    congrArg (·.stored) (s.registry_answer hq.apart)
  have hx : Answers [] s.database (.statement q) (s.execute q).1 (s.execute q).2.database := .inl rfl
  cases q with
  | advance id next now failure =>
    obtain rfl : id = record.id := hq
    refine ⟨?_, ?_, stored, outline, fun other _ => s.held_execute _ other, target⟩
    · rcases hx.advance with ⟨-, h, -⟩ | ⟨-, h⟩
      · rw [h]
        exact forall₂_advance _ _ _ _ _
      · rw [h]
        exact same_records _ _
    · rcases hx.advance with ⟨-, -, h⟩ | ⟨-, h⟩
      · exact ⟨[], by rw [h, List.append_nil], by simp⟩
      · exact ⟨[], by rw [h, List.append_nil], by simp⟩
  | suspend token now =>
    have hid : token.executionId = record.id := hq
    refine ⟨?_, ?_, stored, outline, fun other _ => s.held_execute _ other, target⟩
    · rcases hx.suspend with ⟨-, -, h, -⟩ | ⟨-, -, h⟩ | ⟨-, h⟩
      · rw [h, ← hid]
        exact forall₂_advance _ _ _ _ _
      · rw [h]
        exact same_records _ _
      · rw [h]
        exact same_records _ _
    · rcases hx.suspend with ⟨-, -, -, h⟩ | ⟨-, -, h⟩ | ⟨-, h⟩
      · exact ⟨[token], h, fun t ht => by rw [List.mem_singleton.1 ht, hid]⟩
      · exact ⟨[], by rw [h, List.append_nil], by simp⟩
      · exact ⟨[], by rw [h, List.append_nil], by simp⟩
  | execution id =>
    have unchanged := Answers.unchanged (by trivial) hx
    refine ⟨?_, ⟨[], ?_, by simp⟩, stored, outline, fun other _ => s.held_execute _ other, target⟩
    · rw [unchanged.records]
      exact same_records _ _
    · rw [unchanged.waiting, List.append_nil]
  | _ => exact hq.elim

theorem frame_answer (calm : s.Calm) (tidy : s.Tidy) (separate : s.Separate) {r : Request} (hr : r.Concerns record) :
    Frame record.id record.target (written r.visit?.toList) (labels r.visit?.toList) s (answer r s).2 := by
  cases r with
  | statement q => exact frame_statement hr s
  | visit v =>
    obtain rfl : v.record = record := hr
    have hv : Frame v.record.id v.record.target v.step.kind.written v.step.kind.labels s (s.visit v).2 :=
      frame_visit calm tidy separate v
    exact hv.mono (by simp [written, Request.visit?]) (by simp [labels, Request.visit?])
  | now => exact frame_refl s
  | fresh => exact ⟨same_records _ _, ⟨[], (List.append_nil _).symm, by simp⟩, rfl, rfl, fun _ _ => rfl, Holding.kept_refl _⟩
  | _ => exact hr.elim

/-- Done at the site, the job leaves to others what is theirs. -/
def Framed (s : Site) (record : Record) {α : Type} (p : Job α) : Prop :=
  Frame record.id record.target (written (s.entered p)) (labels (s.entered p)) s (s.perform p).2

theorem entered_bind {α β : Type} (p : Job α) (f : α → Job β) :
    s.entered (p >>= f) = s.entered p ++ (s.perform p).2.entered (f (s.perform p).1) := by
  induction p generalizing s with
  | done a => rfl
  | ask r next ih => exact (congrArg (r.visit?.toList ++ ·) (ih _)).trans (List.append_assoc _ _ _).symm

theorem Framed.bind {α β : Type} {p : Job α} {f : α → Job β} (hp : s.Framed record p)
    (hf : (s.perform p).2.Framed record (f (s.perform p).1)) : s.Framed record (p >>= f) := by
  unfold Framed
  rw [entered_bind, written_append, labels_append, perform_bind]
  exact Frame.trans hp hf

/-- A job that touches `record` alone leaves everything else as it is. -/
theorem framed_of_only {α : Type} {p : Job α} (hp : p.Only (Request.Concerns record)) (calm : s.Calm) (tidy : s.Tidy)
    (separate : s.Separate) : s.Framed record p := by
  induction p generalizing s with
  | done a => exact frame_refl s
  | ask r next ih =>
    have hr : Frame record.id record.target _ _ s (answer r s).2 := frame_answer calm tidy separate hp.1
    have hrest := ih _ (hp.2 (answer r s).1) (calm_answer calm r) (tidy.of_outline hr.outline)
      (separate.of_outline hr.outline)
    have hentered : s.entered (.ask r next) = r.visit?.toList ++ (answer r s).2.entered (next (answer r s).1) := rfl
    unfold Framed
    rw [hentered, written_append, labels_append]
    exact hr.trans hrest

/-- A job that visits no node enters none. -/
theorem entered_of_indoors {α : Type} {p : Job α} (hp : p.Only Request.Indoors) (s : Site) : s.entered p = [] := by
  induction p generalizing s with
  | done a => rfl
  | ask r next ih =>
    have hr : r.visit? = none := by
      cases r with
      | visit v => exact hp.1.elim
      | _ => rfl
    exact (congrArg₂ (·.toList ++ ·) hr (ih _ (hp.2 _) _))

theorem entered_of_aside {α : Type} {p : Job α} (hp : p.Only Request.Aside) (s : Site) : s.entered p = [] :=
  entered_of_indoors (hp.imp fun _ h => h.indoors) s

/-- Looking up the workflow of a token touches the cache alone. -/
theorem perform_resumption_snd (s : Site) (record : Record) (token : Token) :
    (s.perform (resumption record token)).2 = s ∨
      (s.perform (resumption record token)).2 = s.withCache (s.registry.current record.workflowId).2 := by
  unfold resumption
  split
  · exact .inl rfl
  · refine .inr ?_
    rw [perform_bind, perform_currentWorkflow]
    dsimp only
    split
    · rfl
    · split <;> rfl

theorem perform_resumption (s : Site) (record : Record) (token : Token) :
    ∃ c, (s.perform (resumption record token)).2 = s.withCache c := by
  rcases s.perform_resumption_snd record token with h | h
  · exact ⟨s.worker.cache, h⟩
  · exact ⟨_, h⟩

theorem framed_resumption (s : Site) (record : Record) (token : Token) : s.Framed record (resumption record token) := by
  obtain ⟨c, hc⟩ := s.perform_resumption record token
  unfold Framed
  rw [entered_of_aside (only_resumption record token), hc]
  exact ⟨same_records _ _, ⟨[], (List.append_nil _).symm, by simp⟩, rfl, rfl, fun _ _ => rfl, Holding.kept_refl _⟩

/-- A run or a resumption of a record. -/
inductive Conducts (s : Site) (record : Record) : Attempt Result → Prop
  | run (workflow : Workflow) (context : Context) : Conducts s record (runNew workflow record context)
  | resume {token : Token} {table : Store.Executions} {row : ExecutionRow} (present : s.database.executions = some table)
      (there : table.get? token.executionId = some row) (read : row.record = .ok record) :
      Conducts s record (Engine.resume token)

theorem framed_conducts {job : Attempt Result} (conducts : s.Conducts record job) (calm : s.Calm) (tidy : s.Tidy)
    (separate : s.Separate) : s.Framed record job.run := by
  cases conducts with
  | run workflow context => exact framed_of_only (concerns_runNew workflow record context) calm tidy separate
  | @resume token table row present there read =>
    -- the record is read and the workflow looked up; from there on the job touches the record alone
    have hfound : s.perform (getRecord token.executionId).run = (.ok (some record), s) :=
      s.perform_getRecord present there read
    unfold Engine.resume
    rw [ExceptT.run_bind]
    refine (framed_of_only (only_getRecord trivial) calm tidy separate).bind ?_
    rw [hfound]
    dsimp only
    split
    · exact frame_refl s
    · show s.Framed record (ExceptT.run (ExceptT.lift (resumption record token) >>= _))
      rw [ExceptT.run_bind_lift]
      refine (s.framed_resumption record token).bind ?_
      obtain ⟨c, hc⟩ := s.perform_resumption record token
      rw [hc]
      have outline : (s.withCache c).outline = s.outline := rfl
      refine framed_of_only ?_ calm (tidy.of_outline outline) (separate.of_outline outline)
      match (s.perform (resumption record token)).1 with
      | .error e => exact concerns_failAt record token.resumeNodeId _
      | .ok (w, step, context) =>
        refine (only_move trivial fun _ => rfl).attempt fun moved => ?_
        cases moved with
        | false => trivial
        | true => exact concerns_walkFrom w record step context

end Host.Site

/-! ### Executions -/

/-- A run or a resumption changes of the executions its own alone, writes no token but its own, and leaves the definitions and
every entity but its target as they are. The target keeps its outline, every tag, and every field that no node names which was
entered; for a row of a table the last holds if its fields and what is written to them are durable, since its text of fields is
written anew. -/
theorem executions_stay_apart {s : Site} {record : Record} {job : Attempt Result} (conducts : s.Conducts record job)
    (calm : s.Calm) (tidy : s.Tidy) (separate : s.Separate) :
    let s' := (s.perform job.run).2
    let entered := s.entered job.run
    List.Forall₂ (fun r r' : ExecutionRow => r'.id = r.id ∧ (r.id ≠ some record.id → r' = r)) s.database.records
      s'.database.records ∧
    (∃ added, s'.database.waiting = s.database.waiting ++ added ∧ ∀ t ∈ added, t.executionId = record.id) ∧
    s'.database.definitions = s.database.definitions ∧
    (∀ other ≠ record.target, s'.held other = s.held other) ∧
    (s.held record.target = none → s'.held record.target = none) ∧
    ∀ h, s.held record.target = some h → ∃ h', s'.held record.target = some h' ∧ h'.outline = h.outline ∧
      (∃ added : List String, (∀ l ∈ added, l ∈ labels entered) ∧ h'.tags = h.tags.map (· ++ added.map .str)) ∧
      (h.Durable → (∀ w ∈ written entered, h.Takes w.2) →
        ∀ name ∉ (written entered).map (·.1), h'.fields.map (·.lookup name) = h.fields.map (·.lookup name)) := by
  intro s' entered
  obtain ⟨records, tokens, definitions, -, others, target⟩ := Site.framed_conducts conducts calm tidy separate
  refine ⟨records, tokens, definitions, others, fun hnone => ?_, fun h hsome => ?_⟩
  · rw [hnone] at target
    cases htarget : (s.perform job.run).2.held record.target with
    | none => rfl
    | some h' =>
      rw [htarget] at target
      cases target
  · rw [hsome] at target
    cases htarget : (s.perform job.run).2.held record.target with
    | none =>
      rw [htarget] at target
      cases target
    | some h' =>
      rw [htarget] at target
      cases target with
      | some keeps => exact ⟨h', rfl, keeps.outline, keeps.tags, fun durable takes => (keeps.fields durable takes).2⟩

namespace Lone

/-- A trigger, and a node behind it that sets the field `note`. -/
def noting : Definition :=
  { definition "note" true with
    nodes := [⟨"t", .trigger, .null, none⟩, ⟨"m", .mutateTarget, .obj [("field", .str "note"), ("value", .str "seen")], none⟩]
    connections := [⟨"t", "m", .next⟩] }

theorem falls_noting : ∀ c ∈ [(⟨"t", "m", .next⟩ : Connection)],
    heightOf [("t", 1), ("m", 0)] c.target < heightOf [("t", 1), ("m", 0)] c.source :=
  List.forall_mem_singleton.2 (by decide)

def noter : Workflow where
  definition := noting
  trigger := .statusChanged none .any .any false
  graph := ⟨[⟨"t", .trigger⟩, ⟨"m", .mutateTarget ⟨"note", .str "seen"⟩⟩], [⟨"t", "m", .next⟩], ⟨"t", .trigger⟩,
    [("t", 1), ("m", 0)], falls_noting⟩

def pending : Record :=
  ⟨"p", "note", ⟨.contract, "1"⟩, .statusChanged, .pending, false, none, none, .epoch, none, .epoch⟩

def contract (fields : String) : HostRow := ⟨"1", some "draft", none, none, some fields, none⟩

/-- A pending execution of it on a contract with some fields. -/
def ledger (fields : String) : Site :=
  { site true with
    database := { database true with
      executions := some [.ofRecord pending], hostTables := [⟨"contracts", false, [contract fields]⟩] } }

/-- The run of that execution. -/
def note : Attempt Result := runNew noter pending (.ofChange "new" "draft")

theorem tidy_ledger (fields : String) : (ledger fields).Tidy where
  names := List.nodup_singleton _
  rows t ht := by
    obtain rfl := List.mem_singleton.1 ht
    exact List.nodup_singleton _
  memory type m h := by cases type <;> cases h

theorem separate_ledger (fields : String) : (ledger fields).Separate := by
  intro name name' h h'
  cases h
  cases h'
  decide

/-- What a field of the contract holds. -/
def field (name : String) (s : Site) : Option Json :=
  ((s.held ⟨.contract, "1"⟩).bind (·.fields.toOption)).bind (·.lookup name)

/-- A field that holds a whole number. -/
abbrev whole : String := "\x7b\"amount\":12\x7d"

/-- A field that holds a number of the binary format whose shortest digits are read as the number below it. -/
abbrev broken : String := "\x7b\"amount\":9.7131234104864e36\x7d"

theorem durable_whole : (contract whole).Durable := by
  intro ms hms
  have hread : (contract whole).readFields = .ok [("amount", .num (.int 12))] := by decide +kernel
  rw [hread] at hms
  cases hms
  exact ⟨List.pairwise_singleton _ _, ⟨by decide, by decide⟩, trivial⟩

end Lone

/-- A whole number stays in its field when another one is set. -/
theorem executions_stay_apart_of_lone :
    let s := Lone.ledger Lone.whole
    let s' := (s.perform Lone.note.run).2
    s.Conducts Lone.pending Lone.note ∧ s.Calm ∧ s.Tidy ∧ s.Separate ∧
      ∃ h', s'.held ⟨.contract, "1"⟩ = some h' ∧ h'.fields.map (·.lookup "amount") = .ok (some (.num (.int 12))) ∧
        Lone.field "note" s' = some (.str "seen") := by
  intro s s'
  have conducts : s.Conducts Lone.pending Lone.note := .run _ _
  have calm : s.Calm := rfl
  obtain ⟨-, -, -, -, -, target⟩ :=
    executions_stay_apart conducts calm (Lone.tidy_ledger _) (Lone.separate_ledger _)
  have hwritten : written (s.entered Lone.note.run) = [("note", .str "seen")] := by decide +kernel
  have held : s.held Lone.pending.target = some (.row (Lone.contract Lone.whole)) := rfl
  obtain ⟨h', held', -, -, fields⟩ := target _ held
  rw [hwritten] at fields
  have takes : ∀ w ∈ [("note", Json.str "seen")], (Holding.row (Lone.contract Lone.whole)).Takes w.2 :=
    List.forall_mem_singleton.2 ⟨trivial, Nat.zero_le 126⟩
  refine ⟨conducts, calm, Lone.tidy_ledger _, Lone.separate_ledger _, h', held', ?_, by decide +kernel⟩
  exact (fields Lone.durable_whole takes "amount" (by decide)).trans (by decide +kernel)

/-- A number of the binary format is another one when another field was set. -/
theorem amount_is_rewritten :
    let s := Lone.ledger Lone.broken
    let s' := (s.perform Lone.note.run).2
    Workflow.ofDefinition Lone.noting = .ok Lone.noter ∧ s.Conducts Lone.pending Lone.note ∧ s.Calm ∧ s.Tidy ∧ s.Separate ∧
      "amount" ∉ (written (s.entered Lone.note.run)).map (·.1) ∧ Lone.field "amount" s' ≠ Lone.field "amount" s := by
  refine ⟨rfl, .run _ _, rfl, Lone.tidy_ledger _, Lone.separate_ledger _, ?_, by decide +kernel⟩
  have hwritten : written (Site.entered (Lone.ledger Lone.broken) Lone.note.run) = [("note", .str "seen")] := by
    decide +kernel
  rw [hwritten]
  decide

end Lifecycle
