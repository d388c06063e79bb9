import Lifecycle.Proofs.Engine.Handling
import Lifecycle.Proofs.Engine.Operations
import Lifecycle.Proofs.Engine.Replies
import Lifecycle.Proofs.Workflow.Shape
import Mathlib.Data.Finset.Card

/-!
# The course of a walk

Whatever the handlers return and the database answers, a walk goes from each node to the one that the outcome selects,
until there is none, a handler fails or the execution is suspended. In the graph of an accepted definition it so comes to
no node twice, and completes the execution only at a node that nothing leaves.
-/

namespace Lifecycle

open Engine
open Program (AtMost Leaves Only)
open Relation (ReflTransGen)
open Time (Instant)

/-! ### Requests of a walk -/

namespace Engine.Request

/-- The execution `id` is to be completed. -/
def Completes (id : String) : Request → Prop
  | .statement (.advance e .completed _ _) => e = id
  | _ => False

/-- The execution `id` is to be failed at a node. -/
def Fails (id nodeId message : String) : Request → Prop
  | .statement (.advance e .failed _ failure) => e = id ∧ failure = some ⟨nodeId, message⟩
  | _ => False

/-- The execution `id` is to be suspended in front of a node. -/
def Suspends (id nodeId : String) : Request → Prop
  | .statement (.suspend row _) => row.executionId = id ∧ row.resumeNodeId = nodeId
  | _ => False

end Engine.Request

/-- The visit that was answered. -/
def Reply.stop? : Reply interface → Option Stop
  | ⟨.visit v, x⟩ => some (v, x)
  | _ => none

/-- The visits that were answered, in their order. -/
def stopsOf (ys : List (Reply interface)) : List Stop := ys.filterMap Reply.stop?

section Walks

variable {ys zs : List (Reply interface)} {rest : Job (Except EngineFault Result)} {result : Except EngineFault Result}
  {record : Record} {nodeId message : String}

@[simp] theorem stopsOf_now (t : Instant) : stopsOf (⟨.now, t⟩ :: ys) = stopsOf ys := rfl

@[simp] theorem stopsOf_visit (v : Visit) (x : Except HandlerFault Outcome) :
    stopsOf (⟨.visit v, x⟩ :: ys) = (v, x) :: stopsOf ys := rfl

theorem stopsOf_eq_nil (h : ∀ y ∈ ys, y.request.Indoors) : stopsOf ys = [] := by
  refine List.filterMap_eq_nil_iff.2 fun ⟨r, x⟩ hy => ?_
  cases r with
  | visit v => exact (h _ hy).elim
  | _ => rfl

/-! ### Ends of walks -/

theorem atMost_finish (record : Record) : (finish record).run.AtMost 2 := by
  intro now x
  cases x <;> trivial

theorem atMost_failAt (record : Record) (nodeId message : String) : (failAt record nodeId message).run.AtMost 2 := by
  intro now x
  cases x <;> trivial

theorem atMost_suspendAt (record : Record) (delay next : Step) (deadline : Instant) (context : Context) :
    (suspendAt record delay next deadline context).run.AtMost 6 := by
  intro id created moved x
  match x with
  | .ok true => trivial
  | .ok false => trivial
  | .error f => exact atMost_failAt record delay.id _

theorem asked_finish (h : Leaves (finish record).run ys (.done result)) : ∃ y ∈ ys, y.request.Completes record.id := by
  obtain ⟨now, us, rfl, h₁⟩ := Leaves.ask_done_inv (P := interface) (r := .now) h
  obtain ⟨x, us, rfl, -⟩ := Leaves.ask_done_inv (P := interface) (r := .statement (.advance _ _ _ _)) h₁
  exact ⟨_, List.mem_cons_of_mem _ List.mem_cons_self, rfl⟩

theorem asked_failAt (h : Leaves (failAt record nodeId message).run ys (.done result)) :
    ∃ y ∈ ys, y.request.Fails record.id nodeId message := by
  obtain ⟨now, us, rfl, h₁⟩ := Leaves.ask_done_inv (P := interface) (r := .now) h
  obtain ⟨x, us, rfl, -⟩ := Leaves.ask_done_inv (P := interface) (r := .statement (.advance _ _ _ _)) h₁
  exact ⟨_, List.mem_cons_of_mem _ List.mem_cons_self, rfl, rfl⟩

theorem asked_suspendAt {delay next : Step} {deadline : Instant} {context : Context}
    (h : Leaves (suspendAt record delay next deadline context).run ys (.done result)) :
    ∃ y ∈ ys, y.request.Suspends record.id next.id := by
  obtain ⟨id, us, rfl, h₁⟩ := Leaves.ask_done_inv (P := interface) (r := .fresh) h
  obtain ⟨created, us, rfl, h₂⟩ := Leaves.ask_done_inv (P := interface) (r := .now) h₁
  obtain ⟨moved, us, rfl, h₃⟩ := Leaves.ask_done_inv (P := interface) (r := .now) h₂
  obtain ⟨x, us, rfl, -⟩ := Leaves.ask_done_inv (P := interface) (r := .statement (.suspend _ _)) h₃
  exact ⟨⟨.statement (.suspend _ _), x⟩, by simp, rfl, rfl⟩

/-! ### Walks from node to node -/

/-- How a walk ends at its last stop. -/
def Stop.Closes (w : Workflow) (id : String) (ys : List (Reply interface)) (a : Stop) : Prop :=
  match a.2 with
  | .error f => ∃ y ∈ ys, y.request.Fails id a.1.step.id f.message
  | .ok o => (w.graph.successor? a.1.step.id o.label = none ∧ ∃ y ∈ ys, y.request.Completes id) ∨
      ∃ deadline next, o = .suspend deadline ∧ w.graph.successor? a.1.step.id .next = some next ∧
        ∃ y ∈ ys, y.request.Suspends id next.id

/-- What a walk from a node was answered, and what it has left to do. -/
structure Trail (w : Workflow) (id : String) (start : Step) (ys : List (Reply interface))
    (rest : Job (Except EngineFault Result)) : Prop where
  starts : ∀ a ∈ (stopsOf ys).head?, a.1.step = start
  edges : (stopsOf ys).IsChain (Stop.Selects w)
  length : ys.length ≤ 2 * (stopsOf ys).length + 6
  completes : ∀ y ∈ ys, y.request.Completes id → ∃ v o, (stopsOf ys).getLast? = some (v, .ok o) ∧
    w.graph.successor? v.step.id o.label = none
  ends : ∀ result, rest = .done result → ∃ a, (stopsOf ys).getLast? = some a ∧ a.Closes w id ys

theorem Stop.Closes.cons {w : Workflow} {id : String} {a : Stop} (h : a.Closes w id ys) (y : Reply interface) :
    a.Closes w id (y :: ys) := by
  unfold Closes at h ⊢
  split at h
  · obtain ⟨z, hz, hf⟩ := h
    exact ⟨z, List.mem_cons_of_mem y hz, hf⟩
  · obtain ⟨hn, z, hz, hf⟩ | ⟨deadline, next, ho, hs, z, hz, hf⟩ := h
    · exact .inl ⟨hn, z, List.mem_cons_of_mem y hz, hf⟩
    · exact .inr ⟨deadline, next, ho, hs, z, List.mem_cons_of_mem y hz, hf⟩

namespace Trail

variable {w : Workflow} {id : String} {step next : Step} {v : Visit} {x : Except HandlerFault Outcome} {o : Outcome}
  {now : Instant}

/-- A walk that has not made its first visit. -/
theorem early (h : ∀ y ∈ ys, y.request = .now) (hl : ys.length ≤ 6) (hr : ∀ result, rest ≠ .done result) :
    Trail w id step ys rest := by
  have none : stopsOf ys = [] := stopsOf_eq_nil fun y hy => h y hy ▸ trivial
  refine ⟨fun a ha => ?_, ?_, hl.trans (Nat.le_add_left _ _), fun y hy hc => ?_, fun result he => absurd he (hr result)⟩
  · rw [none] at ha
    cases ha
  · rw [none]
    exact .nil
  · rw [h y hy] at hc
    exact hc.elim

/-- A visit after which the walk visits nothing. -/
theorem last (hv : v.step = step) (indoors : ∀ z ∈ zs, z.request.Indoors) (hl : zs.length ≤ 6)
    (completes : ∀ z ∈ zs, z.request.Completes id → ∃ o, x = .ok o ∧ w.graph.successor? step.id o.label = none)
    (ends : ∀ result, rest = .done result → Stop.Closes w id zs (v, x)) :
    Trail w id step (⟨.now, now⟩ :: ⟨.visit v, x⟩ :: zs) rest := by
  subst hv
  have one : stopsOf (⟨.now, now⟩ :: ⟨.visit v, x⟩ :: zs) = [(v, x)] := by
    rw [stopsOf_now, stopsOf_visit, stopsOf_eq_nil indoors]
  constructor
  · rw [one]
    rintro a ⟨⟩
    rfl
  · rw [one]
    exact .singleton _
  · rw [one]
    simp only [List.length_cons, List.length_nil]
    omega
  · intro y hy hc
    rw [one]
    rcases List.mem_cons.1 hy with rfl | hy
    · exact hc.elim
    rcases List.mem_cons.1 hy with rfl | hy
    · exact hc.elim
    obtain ⟨o, rfl, hn⟩ := completes y hy hc
    exact ⟨v, o, rfl, hn⟩
  · intro result hr
    rw [one]
    exact ⟨_, rfl, ((ends result hr).cons _).cons _⟩

/-- A visit after which the walk goes on from the node that the outcome selects. -/
theorem further (hv : v.step = step) (hs : w.graph.successor? step.id o.label = some next) (h : Trail w id next zs rest) :
    Trail w id step (⟨.now, now⟩ :: ⟨.visit v, .ok o⟩ :: zs) rest := by
  subst hv
  have more {a : Stop} (ha : (stopsOf zs).getLast? = some a) : ((v, Except.ok o) :: stopsOf zs).getLast? = some a := by
    rw [List.getLast?_cons, ha, Option.getD_some]
  constructor
  · rintro a ⟨⟩
    rfl
  · refine h.edges.cons fun b hb => ⟨o, rfl, ?_⟩
    rw [h.starts b hb]
    exact hs
  · have := h.length
    simp only [stopsOf_now, stopsOf_visit, List.length_cons]
    omega
  · intro y hy hc
    rcases List.mem_cons.1 hy with rfl | hy
    · exact hc.elim
    rcases List.mem_cons.1 hy with rfl | hy
    · exact hc.elim
    obtain ⟨u, o', hlast, hn⟩ := h.completes y hy hc
    exact ⟨u, o', more hlast, hn⟩
  · intro result hr
    obtain ⟨a, hlast, hclose⟩ := h.ends result hr
    exact ⟨a, more hlast, (hclose.cons _).cons _⟩

end Trail

/-- Of a walk either the first visit is still to be made, or it is left to go on from there. -/
theorem leaves_walkFrom {w : Workflow} {step : Step} {context : Context}
    (h : Leaves (walkFrom w record step context).run ys rest) :
    ((∀ y ∈ ys, y.request = .now) ∧ ys.length ≤ 1 ∧ ∀ result, rest ≠ .done result) ∨
      ∃ now x zs, ys = ⟨.now, now⟩ :: ⟨.visit ⟨w, record, context.enter step.id now, step⟩, x⟩ :: zs ∧
        Leaves (walkOn w record step (context.enter step.id now) x).run zs rest := by
  rw [walkFrom_eq] at h
  cases h with
  | here => exact .inl ⟨List.forall_mem_nil _, Nat.zero_le 1, fun result => nofun⟩
  | @ask _ _ now _ _ h =>
    cases h with
    | here => exact .inl ⟨List.forall_mem_singleton.2 rfl, Nat.le_refl 1, fun result => nofun⟩
    | @ask _ _ x zs _ h => exact .inr ⟨now, x, zs, rfl, h⟩

theorem walkFrom_leaves {w : Workflow} {step : Step} {context : Context} {now : Instant}
    {x : Except HandlerFault Outcome} (h : Leaves (walkOn w record step (context.enter step.id now) x).run zs rest) :
    Leaves (walkFrom w record step context).run
      (⟨.now, now⟩ :: ⟨.visit ⟨w, record, context.enter step.id now, step⟩, x⟩ :: zs) rest := by
  rw [walkFrom_eq]
  exact .ask (.ask h)

theorem trail_walkFrom {w : Workflow} {start : Step} {context : Context}
    (h : Leaves (walkFrom w record start context).run ys rest) : Trail w record.id start ys rest := by
  induction start using w.graph.induction_down generalizing context ys with
  | h step ih =>
    obtain ⟨hnow, hl, hr⟩ | ⟨now, x, zs, rfl, on⟩ := leaves_walkFrom h
    · exact .early hnow (by omega) hr
    -- what follows the last visit visits nothing, and completes nothing unless the walk finishes
    let sort (r : Request) : Prop := r.Indoors ∧ ¬ r.Completes record.id
    have stay {p : Job (Except EngineFault Result)} (hp : p.Only sort) (g : Leaves p zs rest) :
        (∀ z ∈ zs, z.request.Indoors) ∧ ∀ z ∈ zs, ¬ z.request.Completes record.id :=
      ⟨fun z hz => (g.only hp z hz).1, fun z hz => (g.only hp z hz).2⟩
    cases x with
    | error f =>
      have on : Leaves (failAt record step.id f.message).run zs rest := on
      obtain ⟨indoors, none⟩ := stay (only_failAt record _ _ ⟨trivial, id⟩ fun _ => ⟨trivial, id⟩) on
      refine .last rfl indoors ((on.length_le (atMost_failAt _ _ _)).trans (by omega)) (fun z hz hc => absurd hc (none z hz))
        fun result hr => ?_
      subst hr
      exact asked_failAt on
    | ok o =>
      unfold walkOn at on
      dsimp only at on
      split at on
      · rename_i hs
        have indoors : (finish record).run.Only Request.Indoors := only_finish record trivial fun _ => trivial
        refine .last rfl (on.only indoors) ((on.length_le (atMost_finish _)).trans (by omega)) (fun _ _ _ => ⟨_, rfl, hs⟩)
          fun result hr => ?_
        subst hr
        exact .inl ⟨hs, asked_finish on⟩
      · rename_i next deadline hs
        obtain ⟨indoors, none⟩ := stay (only_suspendAt record _ _ _ _ ⟨trivial, id⟩ ⟨trivial, id⟩ (fun _ _ _ => ⟨trivial, id⟩)
          fun _ _ => ⟨trivial, id⟩) on
        refine .last rfl indoors (on.length_le (atMost_suspendAt _ _ _ _ _)) (fun z hz hc => absurd hc (none z hz))
          fun result hr => ?_
        subst hr
        exact .inr ⟨deadline, next, rfl, hs, asked_suspendAt on⟩
      · rename_i o next _ hs
        exact .further rfl hs (ih _ _ hs on)

/-! ### Accepted graphs -/

/-- The nodes to which connections lead are finitely many. -/
theorem exists_reached (cs : List Connection) (start : String) :
    ∃ reached : Finset String, ∀ id, id ∈ reached ↔ ReflTransGen (Leads cs) start id := by
  classical
  refine ⟨(start :: cs.map (·.target)).toFinset.filter (ReflTransGen (Leads cs) start), fun id => ?_⟩
  rw [Finset.mem_filter, List.mem_toFinset]
  refine and_iff_right_of_imp fun h => ?_
  obtain rfl | ⟨b, -, label, hc⟩ := ReflTransGen.cases_tail h
  · exact List.mem_cons_self
  · exact List.mem_cons_of_mem _ (List.mem_map.2 ⟨_, hc, rfl⟩)

/-- Nothing leaves a node that has no successor for an outcome of its kind; so it is no condition. -/
theorem Graph.Built.sink {g : Graph} {nodes : List Node} {cs : List Connection} (b : g.Built nodes cs) {s : Step}
    (hs : s ∈ g.steps) {o : Outcome} (ho : s.kind.Allows o) (hn : g.successor? s.id o.label = none) :
    (∀ c ∈ cs, c.source ≠ s.id) ∧ s.kind.type ≠ .condition := by
  have free (c : Connection) (hc : c ∈ cs) (he : c.source = s.id) : c.label ≠ o.label := by
    intro hl
    obtain ⟨t, ht⟩ := Option.isSome_iff_exists.1 (b.of_ends hc).2.1
    have hid := Graph.id_of_node? ht
    have hsome := (b.successor?_iff s.id o.label t).2 ⟨by rw [← he, ← hl, hid]; exact hc, hid ▸ ht⟩
    rw [hn] at hsome
    cases hsome
  have none : countFrom cs s.id o.label = 0 := by
    refine List.countP_eq_zero.2 fun c hc hp => ?_
    simp only [Bool.and_eq_true, beq_iff_eq] at hp
    exact free c hc hp.1 hp.2
  obtain ⟨hcondition, hother⟩ := of_checkLeaving (b.leaving s hs)
  have hk : s.kind.type ≠ .condition := by
    intro hk
    obtain ⟨hyes, hno, -⟩ := hcondition hk
    obtain ⟨p, hp⟩ : ∃ p, s.kind = .condition p := by
      cases hkind : s.kind <;> rw [hkind] at hk <;> cases hk
      exact ⟨_, rfl⟩
    rw [hp] at ho
    obtain ⟨yes, rfl⟩ := ho
    cases yes
    · exact absurd (hno.symm.trans none) (by decide)
    · exact absurd (hyes.symm.trans none) (by decide)
  refine ⟨fun c hc he => ?_, hk⟩
  obtain ⟨hyes, hno, -⟩ := hother hk
  have hlabel : o.label = .next := by
    cases o with
    | branch yes =>
      cases hkind : s.kind <;> rw [hkind] at ho hk
      case condition => exact absurd rfl hk
      case delay => obtain ⟨deadline, h⟩ := ho; cases h
      all_goals cases ho
    | _ => rfl
  have hpos : 0 < countFrom cs s.id c.label := List.countP_pos_iff.2 ⟨c, hc, by simp [he]⟩
  cases hl : c.label with
  | next => exact free c hc he (hl.trans hlabel.symm)
  | yes => rw [hl] at hpos; omega
  | no => rw [hl] at hpos; omega

/-- The course of a walk of the execution `id` through a definition: what it was answered from `start` on, and what it
has left to do. -/
structure Course (d : Definition) (id start : String) (ys : List (Reply interface))
    (rest : Job (Except EngineFault Result)) : Prop where
  /-- The first visit is that of the node where the walk starts. -/
  starts : ∀ a ∈ (stopsOf ys).head?, a.1.step.id = start
  /-- Each visit that another one follows has an outcome, and the connection that it selects leads to the other one. -/
  follows : (stopsOf ys).IsChain fun a b => ∃ o, a.2 = .ok o ∧ ⟨a.1.step.id, b.1.step.id, o.label⟩ ∈ d.connections
  /-- No node is visited twice. -/
  once : ((stopsOf ys).map (·.1.step.id)).Nodup
  /-- There are no more visits than nodes within reach, and the walk ends. -/
  bounded : ∃ reached : Finset String, (∀ n, n ∈ reached ↔ ReflTransGen (Leads d.connections) start n) ∧
    (stopsOf ys).length ≤ reached.card ∧ ys.length ≤ 2 * reached.card + 6
  /-- Nothing is visited after a fault. -/
  faults : ∀ before v f after, stopsOf ys = before ++ (v, .error f) :: after → after = []
  /-- The execution is completed only after the visit of a node that nothing leaves. -/
  completes : ∀ y ∈ ys, y.request.Completes id → ∃ v o, (stopsOf ys).getLast? = some (v, .ok o) ∧
    (∀ c ∈ d.connections, c.source ≠ v.step.id) ∧ v.step.kind.type ≠ .condition
  /-- A walk that has ended failed the execution at its last node, or completed it where nothing leaves that node, or
  suspended it in front of the node that is next. -/
  ends : ∀ result, rest = .done result → ∃ v x, (stopsOf ys).getLast? = some (v, x) ∧
    ((∃ f, x = .error f ∧ ∃ y ∈ ys, y.request.Fails id v.step.id f.message) ∨
      (∃ o, x = .ok o ∧ (∀ c ∈ d.connections, c.source ≠ v.step.id) ∧ ∃ y ∈ ys, y.request.Completes id) ∨
      ∃ deadline next, x = .ok (.suspend deadline) ∧ ⟨v.step.id, next, .next⟩ ∈ d.connections ∧
        ∃ y ∈ ys, y.request.Suspends id next)

/-- Whatever the handlers return and the database answers, a walk through an accepted definition keeps to its course. -/
theorem walks_keep_to_their_course {d : Definition} {w : Workflow} (hw : Workflow.ofDefinition d = .ok w) {start : Step}
    (hs : start ∈ w.graph.steps) {context : Context} (h : Leaves (walkFrom w record start context).run ys rest)
    (hx : ∀ a ∈ stopsOf ys, Handling.Returns a.1 a.2) : Course d record.id start.id ys rest := by
  have b := Workflow.built hw
  have trail := trail_walkFrom h
  have reached : ∀ a ∈ stopsOf ys,
      a.1.step ∈ w.graph.steps ∧ ReflTransGen (Leads d.connections) start.id a.1.step.id := by
    refine trail.edges.induction (fun a => _ ∧ _) _ ?_ fun hne => ?_
    · rintro a a' ⟨o, -, hsucc⟩ ⟨-, hreach⟩
      obtain ⟨hc, hn⟩ := (b.successor?_iff _ _ _).1 hsucc
      exact ⟨((b.node?_iff _ _).1 hn).1, hreach.tail ⟨_, hc⟩⟩
    · rw [trail.starts _ (List.head?_eq_some_head hne)]
      exact ⟨hs, .refl⟩
  have sink {v : Visit} {o : Outcome} (hlast : (stopsOf ys).getLast? = some (v, .ok o))
      (hn : w.graph.successor? v.step.id o.label = none) :
      (∀ c ∈ d.connections, c.source ≠ v.step.id) ∧ v.step.kind.type ≠ .condition :=
    have hmem := List.mem_of_getLast? hlast
    b.sink (reached _ hmem).1 (hx _ hmem).allowed hn
  have once := Stop.nodup_of_selects trail.edges
  refine ⟨fun a ha => congrArg Step.id (trail.starts a ha), trail.edges.imp fun a a' => ?_, once, ?_, ?_, ?_, ?_⟩
  · rintro ⟨o, ho, hsucc⟩
    exact ⟨o, ho, ((b.successor?_iff _ _ _).1 hsucc).1⟩
  · obtain ⟨found, hfound⟩ := exists_reached d.connections start.id
    have le : (stopsOf ys).length ≤ found.card := by
      have hmap : ((stopsOf ys).map (·.1.step.id)).length = (stopsOf ys).length := List.length_map ..
      rw [← hmap, ← List.toFinset_card_of_nodup once]
      refine Finset.card_le_card fun id hid => (hfound id).2 ?_
      obtain ⟨a, ha, rfl⟩ := List.mem_map.1 (List.mem_toFinset.1 hid)
      exact (reached a ha).2
    have := trail.length
    exact ⟨found, hfound, le, by omega⟩
  · intro before v f after he
    cases after with
    | nil => rfl
    | cons c after =>
      obtain ⟨o, ho, -⟩ := List.isChain_iff_forall_rel_of_append_cons_cons.1 trail.edges he
      cases ho
  · intro y hy hc
    obtain ⟨v, o, hlast, hn⟩ := trail.completes y hy hc
    exact ⟨v, o, hlast, sink hlast hn⟩
  · intro result hr
    obtain ⟨⟨v, x⟩, hlast, hclose⟩ := trail.ends result hr
    refine ⟨v, x, hlast, ?_⟩
    cases x with
    | error f => exact .inl ⟨f, rfl, hclose⟩
    | ok o =>
      obtain ⟨hn, hc⟩ | ⟨deadline, next, ho, hsucc, hasked⟩ := hclose
      · exact .inr (.inl ⟨o, rfl, (sink hlast hn).1, hc⟩)
      · exact .inr (.inr ⟨deadline, next.id, congrArg _ ho, ((b.successor?_iff _ _ _).1 hsucc).1, hasked⟩)

end Walks

/-! ### A walk past a delay -/

namespace Fork

def workflow : Workflow := ⟨definition, .statusChanged none .any .any false, graph⟩

def record : Record :=
  ⟨"x", "w", ⟨.application, "1"⟩, .statusChanged, .running, false, none, none, .epoch, none, .epoch⟩

/-- The visit of a step at the first moment. -/
def visit (context : Context) (step : Step) : Visit := ⟨workflow, record, context.enter step.id .epoch, step⟩

def first : Visit := visit (.ofChange "a" "b") ⟨"t", .trigger⟩
def second : Visit := visit first.context ⟨"c", .condition (.statusEquals "open")⟩
def third : Visit := visit second.context ⟨"e", .tagTarget ⟨"late"⟩⟩

/-- The condition is answered with no, so the walk passes the delay by. -/
def replies : List (Reply interface) :=
  [⟨.now, Instant.epoch⟩, ⟨.visit first, .ok .proceed⟩, ⟨.now, Instant.epoch⟩, ⟨.visit second, .ok (.branch false)⟩,
    ⟨.now, Instant.epoch⟩, ⟨.visit third, .ok .proceed⟩, ⟨.now, Instant.epoch⟩,
    ⟨.statement (.advance "x" .completed 0 none), .ok true⟩]

theorem ofDefinition_eq : Workflow.ofDefinition definition = .ok workflow := rfl

theorem leaves_replies : Leaves (walkFrom workflow record ⟨"t", .trigger⟩ (.ofChange "a" "b")).run replies
    (.done (.ok .completed)) := by
  refine walkFrom_leaves (show Leaves (walkFrom workflow record second.step first.context).run _ _ from ?_)
  refine walkFrom_leaves (show Leaves (walkFrom workflow record third.step second.context).run _ _ from ?_)
  refine walkFrom_leaves (show Leaves (finish record).run _ _ from ?_)
  exact .ask (.ask (.here _))

theorem returns_of_mem : ∀ a ∈ stopsOf replies, Handling.Returns a.1 a.2 := by
  have hstops : stopsOf replies = [(first, .ok .proceed), (second, .ok (.branch false)), (third, .ok .proceed)] := rfl
  rw [hstops]
  intro a ha
  simp only [List.mem_cons, List.not_mem_nil, or_false] at ha
  obtain rfl | rfl | rfl := ha
  · exact @Handling.Returns.handled _ [] _ _ (.here _)
  · refine @Handling.Returns.handled _ [.application] [⟨.target .application (.status "1"), .ok (some "shut")⟩] _ ?_
    exact .ask (.here _)
  · refine @Handling.Returns.handled _ [.application] [⟨.target .application (.tag "1" "late"), .ok ()⟩] _ ?_
    exact .ask (.here _)

end Fork

theorem fork_keeps_to_its_course : Course Fork.definition "x" "t" Fork.replies (.done (.ok .completed)) :=
  walks_keep_to_their_course Fork.ofDefinition_eq (by decide) Fork.leaves_replies Fork.returns_of_mem

end Lifecycle
