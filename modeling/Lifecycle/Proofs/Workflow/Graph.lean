import Lifecycle.Proofs.Store.Rows
import Lifecycle.Proofs.Time.Span
import Lifecycle.Workflow.Graph
import Mathlib.Data.List.Forall2

/-!
# Nodes of accepted workflows

What a node of an accepted workflow does was read from its configuration: a delay is longer than nothing and no longer
than the longest span.
-/

namespace Lifecycle

/-- A delay with a span that is not empty. -/
structure Delay.Proper (d : Delay) : Prop where
  positive : 0 < d.duration
  span : d.span.isSome = true

/-- The length of a delay in nanoseconds. -/
def Delay.nanos (d : Delay) : Int := d.duration * d.unit.seconds * Time.secondNanos

theorem Delay.Proper.span_eq {d : Delay} (h : d.Proper) : d.span = some ⟨d.nanos⟩ := by
  obtain ⟨span, hspan⟩ := Option.isSome_iff_exists.1 h.span
  obtain ⟨-, rfl⟩ := d.unit.span_eq_some_iff.1 hspan
  exact hspan

theorem Delay.nanos_nonneg (d : Delay) : 0 ≤ d.nanos := by
  unfold Delay.nanos
  exact Int.mul_nonneg (Int.mul_nonneg (Int.natCast_nonneg _) (Int.natCast_nonneg _)) (by decide)

theorem Delay.Proper.nanos_pos {d : Delay} (h : d.Proper) : 0 < d.nanos := by
  have hunit : 0 < d.unit.seconds := by cases d.unit <;> decide
  unfold Delay.nanos
  exact Int.mul_pos (Int.mul_pos (Int.natCast_pos.2 h.positive) (Int.natCast_pos.2 hunit)) (by decide)

/-- What a node does is of the type of the node. -/
theorem Kind.type_of_read {type : NodeType} {config : Json} {kind : Kind} (h : Kind.read type config = .ok kind) :
    kind.type = type := by
  unfold Kind.read at h
  cases type with
  | trigger =>
    cases h
    rfl
  | condition =>
    obtain ⟨c, -, h⟩ := bind_ok h
    obtain ⟨p, -, h⟩ := bind_ok h
    cases h
    rfl
  | delay =>
    obtain ⟨d, -, h⟩ := bind_ok h
    split at h
    · cases h
    · split at h <;> cases h
      rfl
  | _ =>
    obtain ⟨c, -, h⟩ := bind_ok h
    split at h <;> cases h
    rfl

theorem Kind.proper_of_read {type : NodeType} {config : Json} {d : Delay} (h : Kind.read type config = .ok (.delay d)) :
    d.Proper := by
  obtain rfl : NodeType.delay = type := Kind.type_of_read h
  obtain ⟨d', -, h⟩ := bind_ok h
  split at h
  · cases h
  · split at h <;> cases h
    rename_i hpos hspan
    exact ⟨Nat.pos_of_ne_zero hpos, Option.isSome_iff_ne_none.2 fun hn => hspan (Option.isNone_iff_eq_none.2 hn)⟩

/-! ### What was checked -/

/-- The step is the one of the node: it has its name, and does what was read from its configuration. -/
structure Node.Reads (n : Node) (s : Step) : Prop where
  id : s.id = n.id
  kind : Kind.read n.type n.config = .ok s.kind

theorem Node.Reads.eq {n : Node} {s t : Step} (hs : n.Reads s) (ht : n.Reads t) : s = t := by
  obtain ⟨id, kind⟩ := s
  obtain ⟨id', kind'⟩ := t
  obtain rfl : id = id' := hs.id.trans ht.id.symm
  obtain rfl : kind = kind' := Except.ok.inj (hs.kind.symm.trans ht.kind)
  rfl

namespace Graph

/-- The nodes are read one by one, and none has the name of one before. -/
theorem readSteps_ok {nodes : List Node} {steps all : List Step} (h : readSteps steps nodes = .ok all)
    (hd : (steps.map (·.id)).Nodup) :
    (all.map (·.id)).Nodup ∧ ∃ new, all = steps ++ new ∧ List.Forall₂ Node.Reads nodes new := by
  induction nodes generalizing steps with
  | nil =>
    cases h
    exact ⟨hd, [], (List.append_nil _).symm, .nil⟩
  | cons n rest ih =>
    unfold readSteps at h
    split at h
    · cases h
    rename_i hnew
    split at h
    · cases h
    rename_i kind hkind
    have hn : n.id ∉ steps.map (·.id) := by
      intro hmem
      obtain ⟨s, hs, he⟩ := List.mem_map.1 hmem
      exact hnew (List.any_eq_true.2 ⟨s, hs, by simpa using he⟩)
    have hd' : ((steps ++ [(⟨n.id, kind⟩ : Step)]).map (·.id)).Nodup := by
      rw [List.map_append]
      refine List.nodup_append.2 ⟨hd, List.pairwise_singleton _ _, fun a ha b hb hab => hn ?_⟩
      have hb : b = n.id := List.mem_singleton.1 hb
      rwa [hab, hb] at ha
    obtain ⟨hall, new, rfl, hreads⟩ := ih h hd'
    exact ⟨hall, ⟨n.id, kind⟩ :: new, by simp, .cons ⟨rfl, hkind⟩ hreads⟩

/-- All checks have passed on the nodes and connections of the graph. -/
structure Built (g : Graph) (nodes : List Node) (cs : List Connection) : Prop where
  steps : readSteps [] nodes = .ok g.steps
  entry : findEntry g.steps = .ok g.entry
  connections : g.connections = cs
  ends : ∀ c ∈ cs, checkConnection g.steps g.entry c = .ok ()
  leaving : ∀ s ∈ g.steps, checkLeaving cs s = .ok ()
  reached : ∀ s ∈ g.steps, s.id ∈ spread cs g.steps.length [g.entry.id]

theorem forM_ok {ε α : Type} {l : List α} {f : α → Except ε Unit} (h : l.forM f = .ok ()) : ∀ a ∈ l, f a = .ok () := by
  induction l with
  | nil => simp
  | cons a l ih =>
    obtain ⟨u, ha, hl⟩ := bind_ok h
    exact List.forall_mem_cons.2 ⟨ha, ih hl⟩

variable {g : Graph} {nodes : List Node} {cs : List Connection}

theorem built (h : build nodes cs = .ok g) : g.Built nodes cs := by
  obtain ⟨steps, hsteps, h⟩ := bind_ok h
  obtain ⟨entry, hentry, h⟩ := bind_ok h
  obtain ⟨_, hends, h⟩ := bind_ok h
  obtain ⟨_, hleaving, h⟩ := bind_ok h
  dsimp only at h
  split at h
  · split at h
    · cases h
    · rename_i hreached
      cases h
      refine ⟨hsteps, hentry, rfl, forM_ok hends, forM_ok hleaving, fun s hs => ?_⟩
      simpa using List.find?_eq_none.1 hreached s hs
  · cases h

/-- The steps are those of the nodes. -/
theorem Built.reads (b : g.Built nodes cs) : List.Forall₂ Node.Reads nodes g.steps := by
  obtain ⟨-, new, hnew, hreads⟩ := readSteps_ok b.steps List.nodup_nil
  rw [hnew]
  exact hreads

/-- Each node has its step, and each step its node. -/
theorem exists_reads {steps : List Step} (h : List.Forall₂ Node.Reads nodes steps) :
    (∀ n ∈ nodes, ∃ s ∈ steps, n.Reads s) ∧ ∀ s ∈ steps, ∃ n ∈ nodes, n.Reads s := by
  induction h with
  | nil => simp
  | @cons n s nodes steps hr _ ih =>
    refine ⟨List.forall_mem_cons.2 ⟨⟨s, List.mem_cons_self, hr⟩, fun m hm => ?_⟩,
      List.forall_mem_cons.2 ⟨⟨n, List.mem_cons_self, hr⟩, fun t ht => ?_⟩⟩
    · obtain ⟨t, ht, h⟩ := ih.1 m hm
      exact ⟨t, List.mem_cons_of_mem s ht, h⟩
    · obtain ⟨m, hm, h⟩ := ih.2 t ht
      exact ⟨m, List.mem_cons_of_mem n hm, h⟩

end Graph

theorem Workflow.definition_eq {d : Definition} {w : Workflow} (h : Workflow.ofDefinition d = .ok w) : w.definition = d := by
  obtain ⟨trigger, -, h⟩ := bind_ok h
  obtain ⟨graph, -, h⟩ := bind_ok h
  cases h
  rfl

theorem Workflow.built {d : Definition} {w : Workflow} (h : Workflow.ofDefinition d = .ok w) :
    w.graph.Built d.nodes d.connections := by
  obtain ⟨trigger, -, h⟩ := bind_ok h
  obtain ⟨graph, hg, h⟩ := bind_ok h
  cases h
  exact Graph.built hg

/-- The steps of an accepted workflow are those of its nodes. -/
theorem Workflow.read_of_mem {definition : Definition} {w : Workflow} (h : Workflow.ofDefinition definition = .ok w)
    {s : Step} (hs : s ∈ w.graph.steps) : ∃ n ∈ definition.nodes, Kind.read n.type n.config = .ok s.kind := by
  obtain ⟨n, hn, hreads⟩ := (Graph.exists_reads (Workflow.built h).reads).2 s hs
  exact ⟨n, hn, hreads.kind⟩

/-- The delays of an accepted workflow have spans. -/
theorem Workflow.proper_of_mem {definition : Definition} {w : Workflow} (h : Workflow.ofDefinition definition = .ok w)
    {s : Step} (hs : s ∈ w.graph.steps) {d : Delay} (hd : s.kind = .delay d) : d.Proper := by
  obtain ⟨n, -, hread⟩ := Workflow.read_of_mem h hs
  exact Kind.proper_of_read (hd ▸ hread)

end Lifecycle
