import Lifecycle.Proofs.Keyed
import Lifecycle.Proofs.Workflow.Graph
import Mathlib.Logic.ExistsUnique
import Mathlib.Logic.Function.Basic
import Mathlib.Logic.Relation

/-!
# The shape of accepted graphs

A definition that passes the checks has the graph that it draws: nodes and connections are found under their names, walks
start at the only trigger, no walk comes back to a node, and every node is on some walk.
-/

namespace Lifecycle

open Relation (ReflTransGen TransGen)

/-- A connection leads from the one name to the other. -/
def Leads (cs : List Connection) (a b : String) : Prop := ∃ label, ⟨a, b, label⟩ ∈ cs

namespace Graph

/-- The label that a walk follows from a node if the conditions are answered so. -/
def way (answers : String → Bool) (s : Step) : Label :=
  if s.kind.type = .condition then if answers s.id then .yes else .no else .next

/-- A walk goes from the one node to the other if the conditions are answered so. -/
def Follows (g : Graph) (answers : String → Bool) (a b : Step) : Prop := g.successor? a.id (way answers a) = some b

/-- The graph is the one that the definition draws. -/
structure Depicts (g : Graph) (d : Definition) : Prop where
  /-- No two nodes have the same name. -/
  distinct : (d.nodes.map (·.id)).Nodup
  /-- A name finds its node, which does what was read from the configuration. -/
  node : ∀ id s, g.node? id = some s ↔ ∃ n ∈ d.nodes, n.id = id ∧ n.Reads s
  /-- Connections join nodes. -/
  ends : ∀ c ∈ d.connections, (g.node? c.source).isSome = true ∧ (g.node? c.target).isSome = true
  /-- A label finds the node to which the connection with it leads. -/
  successor : ∀ id label s,
    g.successor? id label = some s ↔ ⟨id, s.id, label⟩ ∈ d.connections ∧ g.node? s.id = some s
  /-- There is one trigger, where walks start. -/
  trigger : ∃! n, n ∈ d.nodes ∧ n.type = .trigger
  entry : ∀ n ∈ d.nodes, n.type = .trigger → n.Reads g.entry
  /-- Nothing leads to the trigger. -/
  free : ∀ c ∈ d.connections, c.target ≠ g.entry.id
  /-- A condition has one connection for each answer and no other. -/
  condition : ∀ n ∈ d.nodes, n.type = .condition → countFrom d.connections n.id .yes = 1 ∧
    countFrom d.connections n.id .no = 1 ∧ countFrom d.connections n.id .next = 0
  /-- Any other node has at most one connection, and none for an answer. -/
  other : ∀ n ∈ d.nodes, n.type ≠ .condition → countFrom d.connections n.id .yes = 0 ∧
    countFrom d.connections n.id .no = 0 ∧ countFrom d.connections n.id .next ≤ 1
  /-- No walk comes back. -/
  acyclic : ∀ id, ¬ TransGen (Leads d.connections) id id
  /-- Every node is on the walk that some answers choose. -/
  alive : ∀ n ∈ d.nodes, ∃ answers s, n.Reads s ∧ ReflTransGen (g.Follows answers) g.entry s

/-! ### Single checks -/

/-- One element at most with a property is found by it. -/
theorem find?_of_countP_le_one {α : Type} {p : α → Bool} {l : List α} {a : α} (h : l.countP p ≤ 1) (ha : a ∈ l)
    (hp : p a = true) : l.find? p = some a := by
  induction l with
  | nil => cases ha
  | cons b l ih =>
    rw [List.find?_cons]
    cases hb : p b with
    | true =>
      rw [List.countP_cons_of_pos hb] at h
      have hl : ∀ x ∈ l, ¬ p x = true := List.countP_eq_zero.1 (by omega)
      rcases List.mem_cons.1 ha with rfl | ha
      · rfl
      · exact absurd hp (hl a ha)
    | false =>
      rw [List.countP_cons_of_neg (by simp [hb])] at h
      rcases List.mem_cons.1 ha with rfl | ha
      · rw [hp] at hb
        cases hb
      · exact ih h ha

theorem filter_of_findEntry {steps : List Step} {s : Step} (h : findEntry steps = .ok s) :
    steps.filter (·.kind.type == .trigger) = [s] := by
  unfold findEntry at h
  split at h
  · cases h
  · rename_i hs
    cases h
    exact hs
  · cases h

theorem map_id_of_reads {nodes : List Node} {steps : List Step} (h : List.Forall₂ Node.Reads nodes steps) :
    nodes.map (·.id) = steps.map (·.id) := by
  induction h with
  | nil => rfl
  | cons h _ ih => rw [List.map_cons, List.map_cons, h.id, ih]

variable {g : Graph} {nodes : List Node} {cs : List Connection}

theorem mem_steps_iff {steps : List Step} (id : String) : steps.any (·.id == id) = true ↔ ∃ s ∈ steps, s.id = id := by
  simp [List.any_eq_true]

theorem of_checkConnection {steps : List Step} {entry : Step} {c : Connection}
    (h : checkConnection steps entry c = .ok ()) :
    (∃ s ∈ steps, s.id = c.source) ∧ (∃ s ∈ steps, s.id = c.target) ∧ c.target ≠ entry.id := by
  unfold checkConnection at h
  split at h
  · cases h
  rename_i hsource
  split at h
  · cases h
  rename_i htarget
  split at h
  · cases h
  rename_i hentry
  simp only [Bool.not_eq_true', Bool.not_eq_false] at hsource htarget
  exact ⟨(mem_steps_iff _).1 hsource, (mem_steps_iff _).1 htarget, hentry⟩

theorem of_checkLeaving {s : Step} (h : checkLeaving cs s = .ok ()) :
    (s.kind.type = .condition → countFrom cs s.id .yes = 1 ∧ countFrom cs s.id .no = 1 ∧ countFrom cs s.id .next = 0) ∧
      (s.kind.type ≠ .condition →
        countFrom cs s.id .yes = 0 ∧ countFrom cs s.id .no = 0 ∧ countFrom cs s.id .next ≤ 1) := by
  unfold checkLeaving at h
  dsimp only at h
  split at h
  · rename_i hk
    split at h
    · rename_i hc
      exact ⟨fun _ => hc, fun hn => absurd hk hn⟩
    · cases h
  · rename_i hk
    refine ⟨fun hc => absurd hc hk, fun _ => ?_⟩
    split at h
    · cases h
    split at h
    · cases h
    split at h
    · cases h
    omega

/-! ### Walks -/

/-- Where the heights fall along all connections, they fall along all walks. -/
theorem heightOf_lt {heights : List (String × Nat)}
    (hfalls : ∀ c ∈ cs, heightOf heights c.target < heightOf heights c.source) {a b : String}
    (h : TransGen (Leads cs) a b) : heightOf heights b < heightOf heights a := by
  have one {a b : String} (h : Leads cs a b) : heightOf heights b < heightOf heights a := by
    obtain ⟨label, hc⟩ := h
    exact hfalls _ hc
  induction h with
  | single h => exact one h
  | tail _ h ih => exact Nat.lt_trans (one h) ih

/-- What is found by a search is led to from where it started. -/
theorem leads_of_spread {rounds : Nat} {found : List String} {start id : String}
    (h : ∀ a ∈ found, ReflTransGen (Leads cs) start a) (hid : id ∈ spread cs rounds found) :
    ReflTransGen (Leads cs) start id := by
  induction rounds generalizing found with
  | zero => exact h id hid
  | succ rounds ih =>
    unfold spread at hid
    dsimp only at hid
    split at hid
    · exact h id hid
    · refine ih (fun a ha => ?_) hid
      rcases List.mem_append.1 ha with ha | ha
      · exact h a ha
      · obtain ⟨c, hc, rfl⟩ := List.mem_map.1 (List.mem_eraseDups.1 ha)
        obtain ⟨hmem, hfound⟩ := List.mem_filter.1 hc
        simp only [Bool.and_eq_true, List.contains_iff_mem] at hfound
        exact (h c.source hfound.1).tail ⟨c.label, hmem⟩

/-- A walk asks only the conditions that it passes, and those are no higher than its start. -/
theorem walk_congr {answers answers' : String → Bool} {s t : Step} (h : ReflTransGen (g.Follows answers) s t)
    (ha : ∀ id, g.height id ≤ g.height s.id → answers' id = answers id) : ReflTransGen (g.Follows answers') s t := by
  induction h using ReflTransGen.head_induction_on with
  | refl => exact .refl
  | @head s u hs _ ih =>
    have hlt : g.height u.id < g.height s.id := height_successor? hs
    refine .head ?_ (ih fun id hid => ha id (by omega))
    unfold Follows way at hs ⊢
    rwa [ha s.id (Nat.le_refl _)]

/-! ### Nodes -/

namespace Built

variable (b : g.Built nodes cs)

include b

theorem distinct : (g.steps.map (·.id)).Nodup := (readSteps_ok b.steps List.nodup_nil).1

theorem node?_iff (id : String) (s : Step) : g.node? id = some s ↔ s ∈ g.steps ∧ s.id = id := find?_key_iff b.distinct

/-- A name finds a step of its node. -/
theorem node_iff (id : String) (s : Step) : g.node? id = some s ↔ ∃ n ∈ nodes, n.id = id ∧ n.Reads s := by
  obtain ⟨hstep, hnode⟩ := exists_reads b.reads
  rw [b.node?_iff]
  constructor
  · rintro ⟨hs, rfl⟩
    obtain ⟨n, hn, hr⟩ := hnode s hs
    exact ⟨n, hn, hr.id.symm, hr⟩
  · rintro ⟨n, hn, rfl, hr⟩
    obtain ⟨t, ht, hr'⟩ := hstep n hn
    obtain rfl : s = t := hr.eq hr'
    exact ⟨ht, hr.id⟩

/-! ### Connections -/

theorem of_ends {c : Connection} (hc : c ∈ cs) :
    (g.node? c.source).isSome = true ∧ (g.node? c.target).isSome = true ∧ c.target ≠ g.entry.id := by
  obtain ⟨⟨s, hs, hsource⟩, ⟨t, ht, htarget⟩, hentry⟩ := of_checkConnection (b.ends c hc)
  exact ⟨Option.isSome_of_mem ((b.node?_iff _ s).2 ⟨hs, hsource⟩), Option.isSome_of_mem ((b.node?_iff _ t).2 ⟨ht, htarget⟩),
    hentry⟩

/-- No node has two connections with the same label. -/
theorem countFrom_le_one {c : Connection} (hc : c ∈ cs) : countFrom cs c.source c.label ≤ 1 := by
  obtain ⟨s, hs⟩ := Option.isSome_iff_exists.1 (b.of_ends hc).1
  obtain ⟨hmem, hid⟩ := (b.node?_iff _ s).1 hs
  obtain ⟨hcondition, hother⟩ := of_checkLeaving (b.leaving s hmem)
  rw [hid] at hcondition hother
  by_cases hk : s.kind.type = .condition
  · have := hcondition hk
    cases c.label <;> omega
  · have := hother hk
    cases c.label <;> omega

theorem target?_iff (id : String) (label : Label) (target : String) :
    g.target? id label = some target ↔ ⟨id, target, label⟩ ∈ cs := by
  unfold target?
  rw [b.connections, Option.map_eq_some_iff]
  constructor
  · rintro ⟨c, hc, rfl⟩
    have hp := List.find?_some hc
    simp only [Bool.and_eq_true, beq_iff_eq] at hp
    obtain ⟨rfl, rfl⟩ := hp
    exact List.mem_of_find?_eq_some hc
  · intro hc
    exact ⟨⟨id, target, label⟩, find?_of_countP_le_one (b.countFrom_le_one hc) hc (by simp), rfl⟩

theorem successor?_iff (id : String) (label : Label) (s : Step) :
    g.successor? id label = some s ↔ ⟨id, s.id, label⟩ ∈ cs ∧ g.node? s.id = some s := by
  unfold successor?
  rw [Option.bind_eq_some_iff]
  constructor
  · rintro ⟨target, ht, hs⟩
    obtain rfl := id_of_node? hs
    exact ⟨(b.target?_iff id label s.id).1 ht, hs⟩
  · rintro ⟨hc, hs⟩
    exact ⟨s.id, (b.target?_iff id label s.id).2 hc, hs⟩

/-! ### The trigger -/

theorem entry_mem : g.entry ∈ g.steps ∧ g.entry.kind.type = .trigger := by
  have hmem : g.entry ∈ g.steps.filter (·.kind.type == .trigger) := by
    rw [filter_of_findEntry b.entry]
    exact List.mem_singleton_self _
  simpa using List.mem_filter.1 hmem

theorem eq_entry {s : Step} (hs : s ∈ g.steps) (hk : s.kind.type = .trigger) : s = g.entry := by
  have hmem : s ∈ g.steps.filter (·.kind.type == .trigger) := List.mem_filter.2 ⟨hs, by simp [hk]⟩
  rw [filter_of_findEntry b.entry] at hmem
  exact List.mem_singleton.1 hmem

theorem reads_entry {n : Node} (hn : n ∈ nodes) (ht : n.type = .trigger) : n.Reads g.entry := by
  obtain ⟨s, hs, hr⟩ := (exists_reads b.reads).1 n hn
  obtain rfl := b.eq_entry hs ((Kind.type_of_read hr.kind).trans ht)
  exact hr

/-! ### Walks -/

/-- Connections go down. -/
theorem height_lt {x y : String} (h : TransGen (Leads cs) x y) : g.height y < g.height x :=
  heightOf_lt (fun c hc => g.falls c (b.connections ▸ hc)) h

/-- The search that looked for dead nodes finds only what the entry leads to. -/
theorem leads_of_mem {s : Step} (hs : s ∈ g.steps) : ReflTransGen (Leads cs) g.entry.id s.id :=
  leads_of_spread (List.forall_mem_singleton.2 .refl) (b.reached s hs)

/-- A connection is taken if its source, where it is a condition, is answered as its label says. -/
theorem follows {s t : Step} {label : Label} (hc : ⟨s.id, t.id, label⟩ ∈ cs) (hs : g.node? s.id = some s)
    (ht : g.node? t.id = some t) {answers : String → Bool} (ha : answers s.id = decide (label = .yes)) :
    g.Follows answers s t := by
  have hpos : 0 < countFrom cs s.id label := List.countP_pos_iff.2 ⟨_, hc, by simp⟩
  obtain ⟨hcondition, hother⟩ := of_checkLeaving (b.leaving s ((b.node?_iff _ s).1 hs).1)
  have hway : way answers s = label := by
    unfold way
    rw [ha]
    by_cases hk : s.kind.type = .condition
    · have hnext := (hcondition hk).2.2
      rw [if_pos hk]
      cases label with
      | next => omega
      | yes => rfl
      | no => rfl
    · obtain ⟨hyes, hno, -⟩ := hother hk
      rw [if_neg hk]
      cases label with
      | next => rfl
      | yes => omega
      | no => omega
  unfold Follows
  rw [hway]
  exact (b.successor?_iff _ _ t).2 ⟨hc, ht⟩

/-- Whatever a node leads to is on a walk from it: each step is answered as the way wants it, and none comes twice. -/
theorem exists_answers {s t : Step} (hs : g.node? s.id = some s) (ht : g.node? t.id = some t)
    (h : ReflTransGen (Leads cs) s.id t.id) : ∃ answers, ReflTransGen (g.Follows answers) s t := by
  generalize hx : s.id = x at h
  generalize hy : t.id = y at h
  induction h using ReflTransGen.head_induction_on generalizing s with
  | refl =>
    obtain rfl : s = t := Option.some.inj (hs.symm.trans (by rw [hx, ← hy]; exact ht))
    exact ⟨fun _ => false, .refl⟩
  | @head x z hxz _ ih =>
    subst hx hy
    obtain ⟨label, hc⟩ := hxz
    obtain ⟨u, hu⟩ := Option.isSome_iff_exists.1 (b.of_ends hc).2.1
    obtain rfl : u.id = z := id_of_node? hu
    obtain ⟨answers, hwalk⟩ := ih hu rfl
    have hlt : g.height u.id < g.height s.id := b.height_lt (.single ⟨label, hc⟩)
    -- the walk from `u` passes only lower nodes, so it does not ask for `s`
    refine ⟨Function.update answers s.id (decide (label = .yes)), ?_⟩
    refine .head (b.follows hc hs hu (Function.update_self ..)) (walk_congr hwalk fun id hid => ?_)
    rw [Function.update_of_ne]
    rintro rfl
    omega

end Built

/-- The graph that is built is the one that the definition draws. -/
theorem depicts_of_build {d : Definition} (h : build d.nodes d.connections = .ok g) : g.Depicts d := by
  have b := built h
  obtain ⟨hstep, hnode⟩ := exists_reads b.reads
  obtain ⟨hentry, htrigger⟩ := b.entry_mem
  refine ⟨?_, b.node_iff, fun c hc => ⟨(b.of_ends hc).1, (b.of_ends hc).2.1⟩, b.successor?_iff, ?_, ?_,
    fun c hc => (b.of_ends hc).2.2, ?_, ?_, ?_, ?_⟩
  · rw [map_id_of_reads b.reads]
    exact b.distinct
  · obtain ⟨n, hn, hr⟩ := hnode g.entry hentry
    refine ⟨n, ⟨hn, (Kind.type_of_read hr.kind).symm.trans htrigger⟩, fun m ⟨hm, ht⟩ => ?_⟩
    have hid : m.id = n.id := (b.reads_entry hm ht).id.symm.trans hr.id
    have hd : (d.nodes.map (·.id)).Nodup := map_id_of_reads b.reads ▸ b.distinct
    exact List.inj_on_of_nodup_map hd hm hn hid
  · exact fun n hn => b.reads_entry hn
  · intro n hn ht
    obtain ⟨s, hs, hr⟩ := hstep n hn
    exact hr.id ▸ (of_checkLeaving (b.leaving s hs)).1 ((Kind.type_of_read hr.kind).trans ht)
  · intro n hn ht
    obtain ⟨s, hs, hr⟩ := hstep n hn
    exact hr.id ▸ (of_checkLeaving (b.leaving s hs)).2 fun hk => ht ((Kind.type_of_read hr.kind).symm.trans hk)
  · exact fun id hid => Nat.lt_irrefl _ (b.height_lt hid)
  · intro n hn
    obtain ⟨s, hs, hr⟩ := hstep n hn
    obtain ⟨answers, hwalk⟩ := b.exists_answers ((b.node?_iff _ _).2 ⟨hentry, rfl⟩) ((b.node?_iff _ s).2 ⟨hs, rfl⟩)
      (b.leads_of_mem hs)
    exact ⟨answers, s, hr, hwalk⟩

end Graph

namespace Fork

/-- Both answers of a condition lead to the same end. -/
def definition : Definition :=
  ⟨"w", "w", .statusChanged, [], true,
    [⟨"t", .trigger, .null, none⟩,
      ⟨"c", .condition, .obj [("conditionType", .str "status_equals"), ("conditionValue", .str "open")], none⟩,
      ⟨"d", .delay, .obj [("duration", .int 1), ("unit", .str "days")], none⟩,
      ⟨"e", .tagTarget, .obj [("value", .str "late")], none⟩],
    [⟨"t", "c", .next⟩, ⟨"c", "d", .yes⟩, ⟨"c", "e", .no⟩, ⟨"d", "e", .next⟩]⟩

def graph : Graph where
  steps := [⟨"t", .trigger⟩, ⟨"c", .condition (.statusEquals "open")⟩, ⟨"d", .delay ⟨1, .days⟩⟩,
    ⟨"e", .tagTarget ⟨"late"⟩⟩]
  connections := definition.connections
  entry := ⟨"t", .trigger⟩
  heights := [("t", 3), ("c", 2), ("d", 1), ("e", 0)]
  falls := by decide

end Fork

/-- The graph of a condition whose answers meet again. -/
theorem depicts_of_fork : Graph.build Fork.definition.nodes Fork.definition.connections = .ok Fork.graph ∧
    Fork.graph.Depicts Fork.definition :=
  have h : Graph.build Fork.definition.nodes Fork.definition.connections = .ok Fork.graph := rfl
  ⟨h, Graph.depicts_of_build h⟩

end Lifecycle
