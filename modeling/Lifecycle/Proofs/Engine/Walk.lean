import Lifecycle.Engine.Walk
import Mathlib.Data.List.Chain

/-!
# Walks, visit by visit

A walk visits a node and goes on from there, to a lower node of its graph if it goes on at all. So visits that follow one
another come to no node twice.
-/

namespace Lifecycle

/-- Induction along the connections of a graph: what holds of a node if it holds of all that follow it. -/
theorem Graph.induction_down (g : Graph) {motive : Step → Prop}
    (h : ∀ step, (∀ label next, g.successor? step.id label = some next → motive next) → motive step) (step : Step) :
    motive step := by
  induction hn : g.height step.id using Nat.strongRecOn generalizing step with
  | _ n ih =>
    refine h step fun label next hs => ih (g.height next.id) ?_ next rfl
    rw [← hn]
    exact Graph.height_successor? hs

theorem Graph.node?_of_successor? {g : Graph} {id : String} {label : Label} {next : Step}
    (h : g.successor? id label = some next) : g.node? next.id = some next := by
  obtain ⟨t, -, hn⟩ := Option.bind_eq_some_iff.1 h
  rw [Graph.id_of_node? hn]
  exact hn

namespace Engine

/-- How a walk goes on from a node that was visited, with the context of the visit. -/
def walkOn (workflow : Workflow) (record : Record) (step : Step) (context : Context) :
    Except HandlerFault Outcome → Attempt Result
  | .error f => failAt record step.id f.message
  | .ok outcome => match workflow.graph.successor? step.id outcome.label, outcome with
    | none, _ => finish record
    | some next, .suspend deadline => suspendAt record step next deadline context
    | some next, _ => walkFrom workflow record next context

theorem walkFrom_eq (workflow : Workflow) (record : Record) (step : Step) (context : Context) :
    walkFrom workflow record step context = (do
      let context := context.enter step.id (← now)
      walkOn workflow record step context (← visit ⟨workflow, record, context, step⟩)) := by
  rw [walkFrom]
  refine congrArg (_ >>= ·) (funext fun now => ?_)
  refine congrArg (_ >>= ·) (funext fun answer => ?_)
  match answer with
  | .error f => rfl
  | .ok (.suspend deadline) =>
    simp only [walkOn, Outcome.label]
    split <;> rename_i h <;> rw [h]
  | .ok .proceed =>
    simp only [walkOn]
    split <;> rename_i h <;> rw [h]
  | .ok (.branch yes) =>
    simp only [walkOn]
    split <;> rename_i h <;> rw [h]

end Engine

/-! ### Stops -/

/-- A visit of a node, and how it went. -/
abbrev Stop := Engine.Visit × Except HandlerFault Engine.Outcome

/-- The outcome at the first stop selects the node of the second one. -/
def Stop.Selects (w : Workflow) (a b : Stop) : Prop :=
  ∃ outcome, a.2 = .ok outcome ∧ w.graph.successor? a.1.step.id outcome.label = some b.1.step

theorem Stop.nodup_of_selects {w : Workflow} {stops : List Stop} (h : stops.IsChain (Selects w)) :
    (stops.map (·.1.step.id)).Nodup := by
  have down : stops.IsChain fun a b => w.graph.height b.1.step.id < w.graph.height a.1.step.id := by
    refine h.imp fun a b hab => ?_
    obtain ⟨outcome, -, hs⟩ := hab
    exact Graph.height_successor? hs
  have trans : IsTrans Stop fun a b => w.graph.height b.1.step.id < w.graph.height a.1.step.id :=
    ⟨fun _ _ _ hab hbc => lt_trans hbc hab⟩
  refine List.pairwise_map.2 ((List.isChain_iff_pairwise.1 down).imp fun {a b} hab he => ?_)
  rw [he] at hab
  exact lt_irrefl _ hab

end Lifecycle
