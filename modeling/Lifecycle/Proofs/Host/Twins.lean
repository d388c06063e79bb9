import Lifecycle.Proofs.Engine.Operations
import Lifecycle.Proofs.Host.Registry
import Mathlib.Data.Option.Basic

/-!
# The same job at two sites

Two sites that differ only in their registries go the same way as long as lookups find alike workflows at both: workflows
of one name with the same graph. Then a token is resumed, and a sweep is made, with the same result at both, and they
differ only in their registries afterwards.
-/

namespace Lifecycle

open Engine
open Host (Site Registry)
open Program (Only)

/-- Workflows that differ neither in what they are called nor in their graphs. -/
structure Workflow.Alike (v w : Workflow) : Prop where
  id : v.id = w.id
  name : v.definition.name = w.definition.name
  graph : v.graph = w.graph

theorem Workflow.Alike.refl (w : Workflow) : w.Alike w := ⟨rfl, rfl, rfl⟩

/-- The sites differ in nothing but their registries, which are related. -/
structure Host.Site.Paired (L : Registry → Registry → Prop) (s s' : Site) : Prop where
  rest : s' = s.withRegistry s'.registry
  registries : L s.registry s'.registry

namespace Host.Site

variable {L : Registry → Registry → Prop} {s s' : Site}

theorem paired_withRegistry {g : Registry} (h : L s.registry g) : s.Paired L (s.withRegistry g) := ⟨rfl, h⟩

theorem Paired.withCache (hs : s.Paired L s') {c c' : List (String × Workflow)}
    (h : L { s.registry with cached := c } { s'.registry with cached := c' }) :
    (s.withCache c).Paired L (s'.withCache c') := by
  refine ⟨?_, h⟩
  rw [hs.rest]
  rfl

theorem Paired.eq_withCache (hs : s.Paired L s') (stored : s'.registry.stored = s.registry.stored) :
    s' = s.withCache s'.worker.cache :=
  calc s' = s.withRegistry s'.registry := hs.rest
    _ = s.withRegistry ⟨s'.registry.stored, s'.worker.cache⟩ := rfl
    _ = s.withCache s'.worker.cache := by rw [stored]; rfl

end Host.Site

/-- Done at sites with related registries, the jobs have related results and leave such sites. -/
def Twins (L : Registry → Registry → Prop) {α β : Type} (p : Job α) (q : Job β) (Q : α → β → Prop) : Prop :=
  ∀ s s' : Site, s.Paired L s' → Q (s.perform p).1 (s'.perform q).1 ∧ (s.perform p).2.Paired L (s'.perform q).2

namespace Twins

variable {L : Registry → Registry → Prop} {α β γ δ : Type} {Q : α → β → Prop} {Q' : γ → δ → Prop}

theorem done {a : α} {b : β} (h : Q a b) : Twins L (.done a) (.done b) Q := fun _ _ hs => ⟨h, hs⟩

theorem bind {p : Job α} {q : Job β} {f : α → Job γ} {g : β → Job δ} (hp : Twins L p q Q)
    (hf : ∀ a b, Q a b → Twins L (f a) (g b) Q') : Twins L (p >>= f) (q >>= g) Q' := by
  intro s s' hs
  obtain ⟨hQ, hs'⟩ := hp s s' hs
  rw [Site.perform_bind, Site.perform_bind]
  exact hf _ _ hQ _ _ hs'

/-- What leaves the registry alone is answered the same way at both sites. -/
theorem request {r : Request} (hr : r.Apart) : Twins L (Program.call (P := interface) r) (Program.call (P := interface) r) Eq := by
  intro s s' hs
  have hx : s'.perform (Program.call (P := interface) r) =
      ((Site.answer r s).1, (Site.answer r s).2.withRegistry s'.registry) := by
    show Site.answer r s' = _
    rw [← s.answer_withRegistry s'.registry hr, ← hs.rest]
  rw [hx]
  refine ⟨rfl, Site.paired_withRegistry ?_⟩
  show L (Site.answer r s).2.registry _
  rw [s.registry_answer hr]
  exact hs.registries

theorem ask {r : Request} (hr : r.Apart) {next : r.Answer → Job α} {next' : r.Answer → Job β}
    (h : ∀ x, Twins L (next x) (next' x) Q) : Twins L (.ask r next) (.ask r next') Q :=
  bind (p := Program.call (P := interface) r) (q := Program.call (P := interface) r) (request hr) fun x _ hx => hx ▸ h x

theorem of_only {p : Job α} (hp : p.Only Request.Apart) : Twins L p p Eq := by
  induction p with
  | done a => exact done rfl
  | ask r next ih => exact ask hp.1 fun x => ih x (hp.2 x)

/-- After the same first part, which leaves the registry alone. -/
theorem after {p : Job α} (hp : p.Only Request.Apart) {f : α → Job γ} {g : α → Job δ}
    (hf : ∀ a, Twins L (f a) (g a) Q') : Twins L (p >>= f) (p >>= g) Q' :=
  (of_only hp).bind fun a _ ha => ha ▸ hf a

theorem after_attempt {ε : Type} {p : ExceptT ε Job α} (hp : p.run.Only Request.Apart) {f g : α → ExceptT ε Job γ}
    (hf : ∀ a, Twins L (f a).run (g a).run Eq) : Twins L (p >>= f).run (p >>= g).run Eq := by
  rw [ExceptT.run_bind, ExceptT.run_bind]
  refine after hp fun x => ?_
  cases x with
  | ok a => exact hf a
  | error e => exact done rfl

end Twins

/-! ### Walks and sweeps -/

variable {L : Registry → Registry → Prop}

/-- A visit does not tell alike workflows from each other. -/
theorem Handling.handle_alike {v w : Workflow} (h : v.Alike w) (types : List TargetType) (record : Record)
    (context : Context) (step : Step) :
    handle types ⟨v, record, context, step⟩ = handle types ⟨w, record, context, step⟩ := by
  obtain ⟨id, kind⟩ := step
  cases kind with
  | email e =>
    have hmail : mailContext ⟨v, record, context, ⟨id, .email e⟩⟩ = mailContext ⟨w, record, context, ⟨id, .email e⟩⟩ := by
      unfold mailContext
      dsimp only
      rw [h.id, h.name]
    show mail _ _ _ = mail _ _ _
    unfold mail
    rw [hmail]
    refine bind_congr fun recipient => ?_
    cases recipient <;> rfl
  | webhook k =>
    have hdescription : description ⟨v, record, context, ⟨id, .webhook k⟩⟩ =
        description ⟨w, record, context, ⟨id, .webhook k⟩⟩ := by
      unfold description
      dsimp only
      rw [h.id, h.name]
    show invoke _ _ = invoke _ _
    unfold invoke
    rw [hdescription]
  | condition p => cases p <;> rfl
  | _ => rfl

theorem twins_visit {v w : Workflow} (h : v.Alike w) (record : Record) (context : Context) (step : Step) :
    Twins L (visit ⟨v, record, context, step⟩) (visit ⟨w, record, context, step⟩) Eq := by
  intro s s' hs
  have hsame : s'.perform (visit ⟨v, record, context, step⟩) = s'.perform (visit ⟨w, record, context, step⟩) := by
    show Site.visit s' _ = Site.visit s' _
    unfold Site.visit
    rw [Handling.handle_alike h]
  rw [← hsame]
  exact Twins.request (r := .visit ⟨v, record, context, step⟩) trivial s s' hs

/-- Along alike workflows a walk goes the same way. -/
theorem twins_walkFrom {v w : Workflow} (h : v.Alike w) (record : Record) (step : Step) (context : Context) :
    Twins L (walkFrom v record step context).run (walkFrom w record step context).run Eq := by
  -- both walks take the same steps, so one induction down the graph serves for both
  induction step using v.graph.induction_down generalizing context with
  | h step ih =>
    rw [walkFrom_eq, walkFrom_eq]
    refine Twins.ask (r := .now) trivial fun now => ?_
    refine (twins_visit h record (context.enter step.id now) step).bind fun answer _ ha => ha ▸ ?_
    cases answer with
    | error f => exact .of_only (only_failAt record step.id f.message trivial fun _ => trivial)
    | ok outcome =>
      show Twins L (walkOn v record step _ (.ok outcome)).run (walkOn w record step _ (.ok outcome)).run Eq
      unfold walkOn
      rw [← h.graph]
      dsimp only
      split
      · exact .of_only (only_finish record trivial fun _ => trivial)
      · exact .of_only (only_suspendAt record step _ _ _ trivial trivial (fun _ _ _ => trivial) fun _ _ => trivial)
      · exact ih _ _ ‹_› _

/-- The same fault, or the same place in alike workflows to go on from. -/
inductive SamePlace : Except SchedulingFault (Workflow × Step × Context) →
    Except SchedulingFault (Workflow × Step × Context) → Prop where
  | fault (e : SchedulingFault) : SamePlace (.error e) (.error e)
  | place {v w : Workflow} (h : v.Alike w) (step : Step) (context : Context) :
    SamePlace (.ok (v, step, context)) (.ok (w, step, context))

section Lookups

/-! If lookups find alike workflows, so do resumptions. -/

variable (current : ∀ id, Twins L (currentWorkflow id) (currentWorkflow id) (Option.Rel Workflow.Alike))

include current

theorem twins_resumption (record : Record) (token : Token) :
    Twins L (resumption record token) (resumption record token) SamePlace := by
  unfold resumption
  split
  · exact .done (.fault _)
  · rename_i context _
    refine (current record.workflowId).bind fun found found' hfound => ?_
    cases hfound with
    | none => exact .done (.fault _)
    | @some v w h =>
      dsimp only
      rw [← h.graph]
      split
      · exact .done (.fault _)
      · exact .done (.place h _ context)

/-- A token is resumed the same way at both sites. -/
theorem twins_resume (token : Token) : Twins L (resume token).run (resume token).run Eq := by
  refine Twins.after_attempt (only_getRecord trivial) fun found => ?_
  cases found with
  | none => exact .done rfl
  | some record =>
    dsimp only
    split
    · exact .done rfl
    · show Twins L (ExceptT.run (ExceptT.lift (resumption record token) >>= _))
        (ExceptT.run (ExceptT.lift (resumption record token) >>= _)) Eq
      rw [ExceptT.run_bind_lift]
      refine (twins_resumption current record token).bind fun place place' hplace => ?_
      cases hplace with
      | fault e => exact .of_only (only_failAt record token.resumeNodeId e.message trivial fun _ => trivial)
      | place h step context =>
        refine Twins.after_attempt (only_move trivial fun _ => trivial) fun moved => ?_
        cases moved with
        | false => exact .done rfl
        | true => exact twins_walkFrom h record step context

theorem twins_sweepTokens (report : SweepTally) (tokens : List Token) :
    Twins L (sweepTokens report tokens) (sweepTokens report tokens) Eq := by
  induction tokens generalizing report with
  | nil => exact .done rfl
  | cons t rest ih =>
    refine Twins.after (only_run (q := .claim t.id) trivial) fun claimed => ?_
    match claimed with
    | .ok true => exact (twins_resume current t).bind fun result _ hr => hr ▸ ih _
    | .ok false => exact ih report
    | .error e => exact ih _

/-- A sweep is made the same way at both sites. -/
theorem twins_sweep (batch : Nat) : Twins L (sweep batch).run (sweep batch).run Eq := by
  refine Twins.after_attempt (only_dueTokens _ trivial fun _ => trivial) fun tokens => ?_
  exact (twins_sweepTokens current _ tokens).bind fun report _ hr => hr ▸ .done rfl

end Lookups

end Lifecycle
