import Lifecycle.Proofs.Workflow.Search

/-!
# Diagnoses

The checks of a definition have an order, and a definition is refused for the first defect in that order: the trigger
conditions, the nodes one by one, the number of triggers, the connections one by one, what leaves each node, cycles, and
nodes that no walk reaches.
-/

namespace Lifecycle

open Relation (ReflTransGen TransGen)

/-! ### The first of a list -/

/-- The element is the first of the list without the property. -/
def FirstWithout {α : Type} (P : α → Prop) (l : List α) (a : α) : Prop :=
  ∃ before after, l = before ++ a :: after ∧ (∀ b ∈ before, P b) ∧ ¬ P a

section First

variable {α β ε : Type} {P : α → Prop} {Q : β → Prop} {l : List α} {a b : α}

theorem firstWithout_cons : FirstWithout P (b :: l) a ↔ (a = b ∧ ¬ P b) ∨ (P b ∧ FirstWithout P l a) := by
  constructor
  · rintro ⟨before, after, heq, hbefore, ha⟩
    cases before with
    | nil =>
      cases heq
      exact .inl ⟨rfl, ha⟩
    | cons c before =>
      cases heq
      obtain ⟨hb, hbefore⟩ := List.forall_mem_cons.1 hbefore
      exact .inr ⟨hb, before, after, rfl, hbefore, ha⟩
  · rintro (⟨rfl, ha⟩ | ⟨hb, before, after, rfl, hbefore, ha⟩)
    · exact ⟨[], l, rfl, by simp, ha⟩
    · exact ⟨b :: before, after, rfl, List.forall_mem_cons.2 ⟨hb, hbefore⟩, ha⟩

theorem not_firstWithout_nil : ¬ FirstWithout P [] a := by
  rintro ⟨before, after, heq, -⟩
  simp at heq

theorem all_or_first (P : α → Prop) (l : List α) : (∀ a ∈ l, P a) ∨ ∃ a, FirstWithout P l a := by
  induction l with
  | nil => simp
  | cons b l ih =>
    by_cases hb : P b
    · rcases ih with h | ⟨a, ha⟩
      · exact .inl (List.forall_mem_cons.2 ⟨hb, h⟩)
      · exact .inr ⟨a, firstWithout_cons.2 (.inr ⟨hb, ha⟩)⟩
    · exact .inr ⟨b, firstWithout_cons.2 (.inl ⟨rfl, hb⟩)⟩

namespace FirstWithout

theorem mem (h : FirstWithout P l a) : a ∈ l := by
  obtain ⟨before, after, rfl, -⟩ := h
  simp

theorem not (h : FirstWithout P l a) : ¬ P a := by
  obtain ⟨-, -, -, -, ha⟩ := h
  exact ha

/-- Lists whose elements have their properties together have the same first. -/
theorem transfer {R : α → β → Prop} {l' : List β} (hR : List.Forall₂ R l l') (hPQ : ∀ a b, R a b → (P a ↔ Q b))
    (h : FirstWithout P l a) : ∃ b, R a b ∧ FirstWithout Q l' b := by
  induction hR with
  | nil => exact absurd h not_firstWithout_nil
  | @cons x y l l' hxy _ ih =>
    rcases firstWithout_cons.1 h with ⟨rfl, ha⟩ | ⟨hx, h⟩
    · exact ⟨y, hxy, firstWithout_cons.2 (.inl ⟨rfl, mt (hPQ a y hxy).2 ha⟩)⟩
    · obtain ⟨b, hab, hb⟩ := ih h
      exact ⟨b, hab, firstWithout_cons.2 (.inr ⟨(hPQ x y hxy).1 hx, hb⟩)⟩

/-- A check of one element after the other fails at the first that does not pass. -/
theorem forM_eq {f : α → Except ε Unit} {e : ε} (h : FirstWithout P l a) (hP : ∀ b, P b → f b = .ok ())
    (ha : f a = .error e) : l.forM f = .error e := by
  induction l with
  | nil => exact absurd h not_firstWithout_nil
  | cons b l ih =>
    show (f b >>= fun _ => l.forM f) = _
    rcases firstWithout_cons.1 h with ⟨rfl, -⟩ | ⟨hb, h⟩
    · rw [ha]
      rfl
    · rw [hP b hb]
      exact ih h

theorem find?_eq {p : α → Bool} (h : FirstWithout P l a) (hp : ∀ b, p b = true ↔ ¬ P b) : l.find? p = some a := by
  obtain ⟨before, after, rfl, hbefore, ha⟩ := h
  refine List.find?_eq_some_iff_append.2 ⟨(hp a).2 ha, before, after, rfl, fun b hb => ?_⟩
  have hnot : ¬ p b = true := fun h => (hp b).1 h (hbefore b hb)
  simpa using hnot

end FirstWithout

theorem forM_eq_ok {f : α → Except ε Unit} (h : ∀ a ∈ l, f a = .ok ()) : l.forM f = .ok () := by
  induction l with
  | nil => rfl
  | cons a l ih =>
    obtain ⟨ha, hl⟩ := List.forall_mem_cons.1 h
    show (f a >>= fun _ => l.forM f) = _
    rw [ha]
    exact ih hl

end First

/-! ### What is asked of a definition -/

/-- Each node has a name of its own and a proper configuration. -/
structure Tidy (nodes : List Node) : Prop where
  distinct : (nodes.map (·.id)).Nodup
  configs : ∀ n ∈ nodes, ∃ kind, Kind.read n.type n.config = .ok kind

/-- A condition has one connection for each answer and no other; any other node has at most one, and none for an
answer. -/
structure Node.Branches (cs : List Connection) (n : Node) : Prop where
  condition : n.type = .condition → Graph.countFrom cs n.id .yes = 1 ∧ Graph.countFrom cs n.id .no = 1 ∧
    Graph.countFrom cs n.id .next = 0
  other : n.type ≠ .condition → Graph.countFrom cs n.id .yes = 0 ∧ Graph.countFrom cs n.id .no = 0 ∧
    Graph.countFrom cs n.id .next ≤ 1

namespace Definition

def ids (d : Definition) : List String := d.nodes.map (·.id)

def triggers (d : Definition) : List Node := d.nodes.filter (·.type == .trigger)

theorem id_mem_of_mem_triggers {d : Definition} {t : Node} (h : t ∈ d.triggers) : t.id ∈ d.ids :=
  List.mem_map_of_mem (List.mem_of_mem_filter h)

/-- The connection joins two nodes, and does not lead to a trigger. -/
structure Joins (d : Definition) (c : Connection) : Prop where
  source : c.source ∈ d.ids
  target : c.target ∈ d.ids
  free : ∀ t ∈ d.triggers, c.target ≠ t.id

/-- The connections lead from a trigger to the node. -/
def Reaches (d : Definition) (n : Node) : Prop := ∃ t ∈ d.triggers, ReflTransGen (Leads d.connections) t.id n.id

/-- The trigger conditions are proper. -/
structure Timely (d : Definition) : Prop where
  conditions : ∃ t, Trigger.read d.triggerType d.triggerConditions = .ok t

/-- So are the nodes. -/
structure Readable (d : Definition) : Prop extends d.Timely where
  tidy : Tidy d.nodes

/-- One node is the trigger. -/
structure Headed (d : Definition) : Prop extends d.Readable where
  one : ∃ t, d.triggers = [t]

/-- The connections join nodes. -/
structure Joined (d : Definition) : Prop extends d.Headed where
  joins : ∀ c ∈ d.connections, d.Joins c

/-- The connections that leave a node fit it. -/
structure Fitted (d : Definition) : Prop extends d.Joined where
  branches : ∀ n ∈ d.nodes, n.Branches d.connections

/-- The connections do not lead back to where they came from. -/
structure Acyclic (d : Definition) : Prop extends d.Fitted where
  acyclic : ∀ id, ¬ TransGen (Leads d.connections) id id

/-- No node is dead. -/
structure Sound (d : Definition) : Prop extends d.Acyclic where
  reached : ∀ n ∈ d.nodes, d.Reaches n

/-- The first defect of a definition, with what came before it in order. -/
inductive Shows (d : Definition) : Defect → Prop where
  | trigger {f : Trigger.Fault} (h : Trigger.read d.triggerType d.triggerConditions = .error f) : Shows d (.trigger f)
  | duplicate {before after : List Node} {n : Node} (hd : d.Timely) (h : d.nodes = before ++ n :: after)
      (hbefore : Tidy before) (hn : n.id ∈ before.map (·.id)) : Shows d (.duplicateNode n.id)
  | config {before after : List Node} {n : Node} {f : ConfigFault} (hd : d.Timely) (h : d.nodes = before ++ n :: after)
      (hbefore : Tidy before) (hn : n.id ∉ before.map (·.id)) (hf : Kind.read n.type n.config = .error f) :
      Shows d (.config n.id f)
  | noTrigger (hd : d.Readable) (h : d.triggers.length = 0) : Shows d .noTrigger
  | manyTriggers (hd : d.Readable) (h : 2 ≤ d.triggers.length) : Shows d (.manyTriggers d.triggers.length)
  | unknownSource {c : Connection} (hd : d.Headed) (h : FirstWithout d.Joins d.connections c) (hc : c.source ∉ d.ids) :
      Shows d (.unknownNode c.source .source)
  | unknownTarget {c : Connection} (hd : d.Headed) (h : FirstWithout d.Joins d.connections c) (hs : c.source ∈ d.ids)
      (hc : c.target ∉ d.ids) : Shows d (.unknownNode c.target .target)
  | intoTrigger {c : Connection} {t : Node} (hd : d.Headed) (h : FirstWithout d.Joins d.connections c)
      (hs : c.source ∈ d.ids) (ht : t ∈ d.triggers) (hc : c.target = t.id) : Shows d (.intoTrigger c.target)
  | branches {n : Node} (hd : d.Joined) (h : FirstWithout (Node.Branches d.connections) d.nodes n)
      (hn : n.type = .condition) : Shows d (.branches n.id (Graph.countFrom d.connections n.id .yes)
        (Graph.countFrom d.connections n.id .no) (Graph.countFrom d.connections n.id .next))
  | unexpectedYes {n : Node} (hd : d.Joined) (h : FirstWithout (Node.Branches d.connections) d.nodes n)
      (hn : n.type ≠ .condition) (hyes : 0 < Graph.countFrom d.connections n.id .yes) :
      Shows d (.unexpectedBranch n.id .yes)
  | unexpectedNo {n : Node} (hd : d.Joined) (h : FirstWithout (Node.Branches d.connections) d.nodes n)
      (hn : n.type ≠ .condition) (hyes : Graph.countFrom d.connections n.id .yes = 0)
      (hno : 0 < Graph.countFrom d.connections n.id .no) : Shows d (.unexpectedBranch n.id .no)
  | manySuccessors {n : Node} (hd : d.Joined) (h : FirstWithout (Node.Branches d.connections) d.nodes n)
      (hn : n.type ≠ .condition) (hyes : Graph.countFrom d.connections n.id .yes = 0)
      (hno : Graph.countFrom d.connections n.id .no = 0) (hnext : 2 ≤ Graph.countFrom d.connections n.id .next) :
      Shows d (.manySuccessors n.id)
  | cycle {id : String} (hd : d.Fitted) (h : TransGen (Leads d.connections) id id) : Shows d .cycle
  | unreachable {n : Node} (hd : d.Acyclic) (h : FirstWithout d.Reaches d.nodes n) : Shows d (.unreachable n.id)

/-! ### Every definition is sound or shows a defect -/

theorem tidy_concat {nodes : List Node} {n : Node} : Tidy (nodes ++ [n]) ↔
    Tidy nodes ∧ n.id ∉ nodes.map (·.id) ∧ ∃ kind, Kind.read n.type n.config = .ok kind := by
  constructor
  · rintro ⟨hdistinct, hconfigs⟩
    rw [List.map_append, List.nodup_append] at hdistinct
    refine ⟨⟨hdistinct.1, fun m hm => hconfigs m (by simp [hm])⟩, fun hn => ?_, hconfigs n (by simp)⟩
    exact hdistinct.2.2 _ hn n.id (by simp) rfl
  · rintro ⟨⟨hdistinct, hconfigs⟩, hn, hconfig⟩
    refine ⟨?_, ?_⟩
    · rw [List.map_append, List.nodup_append]
      refine ⟨hdistinct, List.nodup_singleton _, ?_⟩
      rintro x hx y hy rfl
      obtain rfl : x = n.id := List.mem_singleton.1 hy
      exact hn hx
    · intro m hm
      rcases List.mem_append.1 hm with hm | hm
      · exact hconfigs m hm
      · exact List.mem_singleton.1 hm ▸ hconfig

/-- The nodes are in order, or one is the first that is not. -/
theorem tidy_or (nodes : List Node) : Tidy nodes ∨ ∃ before n after, nodes = before ++ n :: after ∧ Tidy before ∧
    (n.id ∈ before.map (·.id) ∨ n.id ∉ before.map (·.id) ∧ ∃ f, Kind.read n.type n.config = .error f) := by
  induction nodes using List.reverseRecOn with
  | nil => exact .inl ⟨List.nodup_nil, by simp⟩
  | append_singleton nodes n ih =>
    rcases ih with h | ⟨before, m, after, rfl, h⟩
    · by_cases hn : n.id ∈ nodes.map (·.id)
      · exact .inr ⟨nodes, n, [], rfl, h, .inl hn⟩
      · cases hk : Kind.read n.type n.config with
        | error f => exact .inr ⟨nodes, n, [], rfl, h, .inr ⟨hn, f, hk⟩⟩
        | ok kind => exact .inl (tidy_concat.2 ⟨h, hn, kind, hk⟩)
    · exact .inr ⟨before, m, after ++ [n], by simp, h⟩

variable {d : Definition}

theorem Timely.cases (hd : d.Timely) : d.Readable ∨ ∃ e, d.Shows e := by
  rcases tidy_or d.nodes with h | ⟨before, n, after, h, hbefore, hn | ⟨hn, f, hf⟩⟩
  · exact .inl ⟨hd, h⟩
  · exact .inr ⟨_, .duplicate hd h hbefore hn⟩
  · exact .inr ⟨_, .config hd h hbefore hn hf⟩

theorem Readable.cases (hd : d.Readable) : d.Headed ∨ ∃ e, d.Shows e := by
  match h : d.triggers with
  | [] => exact .inr ⟨_, .noTrigger hd (congrArg List.length h)⟩
  | [t] => exact .inl ⟨hd, t, h⟩
  | s :: t :: rest => exact .inr ⟨_, .manyTriggers hd (by simp [h])⟩

theorem Headed.cases (hd : d.Headed) : d.Joined ∨ ∃ e, d.Shows e := by
  rcases all_or_first d.Joins d.connections with h | ⟨c, hc⟩
  · exact .inl ⟨hd, h⟩
  right
  by_cases hs : c.source ∈ d.ids
  · by_cases ht : c.target ∈ d.ids
    · by_cases hfree : ∀ t ∈ d.triggers, c.target ≠ t.id
      · exact absurd ⟨hs, ht, hfree⟩ hc.not
      · simp only [not_forall, not_not] at hfree
        obtain ⟨t, hmem, heq⟩ := hfree
        exact ⟨_, .intoTrigger hd hc hs hmem heq⟩
    · exact ⟨_, .unknownTarget hd hc hs ht⟩
  · exact ⟨_, .unknownSource hd hc hs⟩

theorem Joined.cases (hd : d.Joined) : d.Fitted ∨ ∃ e, d.Shows e := by
  rcases all_or_first (Node.Branches d.connections) d.nodes with h | ⟨n, hn⟩
  · exact .inl ⟨hd, h⟩
  right
  by_cases hk : n.type = .condition
  · exact ⟨_, .branches hd hn hk⟩
  by_cases hyes : Graph.countFrom d.connections n.id .yes = 0
  · by_cases hno : Graph.countFrom d.connections n.id .no = 0
    · by_cases hnext : Graph.countFrom d.connections n.id .next ≤ 1
      · exact absurd ⟨fun h => absurd h hk, fun _ => ⟨hyes, hno, hnext⟩⟩ hn.not
      · exact ⟨_, .manySuccessors hd hn hk hyes hno (by omega)⟩
    · exact ⟨_, .unexpectedNo hd hn hk hyes (Nat.pos_of_ne_zero hno)⟩
  · exact ⟨_, .unexpectedYes hd hn hk (Nat.pos_of_ne_zero hyes)⟩

theorem Fitted.cases (hd : d.Fitted) : d.Acyclic ∨ ∃ e, d.Shows e := by
  by_cases h : ∀ id, ¬ TransGen (Leads d.connections) id id
  · exact .inl ⟨hd, h⟩
  · simp only [not_forall, not_not] at h
    obtain ⟨id, h⟩ := h
    exact .inr ⟨_, .cycle hd h⟩

theorem Acyclic.cases (hd : d.Acyclic) : d.Sound ∨ ∃ e, d.Shows e := by
  rcases all_or_first d.Reaches d.nodes with h | ⟨n, hn⟩
  · exact .inl ⟨hd, h⟩
  · exact .inr ⟨_, .unreachable hd hn⟩

/-- A definition that passes no further has a defect there. -/
theorem sound_or_shows (d : Definition) : d.Sound ∨ ∃ e, d.Shows e := by
  cases ht : Trigger.read d.triggerType d.triggerConditions with
  | error f => exact .inr ⟨_, .trigger ht⟩
  | ok t =>
    rcases Timely.cases ⟨t, ht⟩ with h | h
    · rcases h.cases with h | h
      · rcases h.cases with h | h
        · rcases h.cases with h | h
          · rcases h.cases with h | h
            · exact h.cases
            · exact .inr h
          · exact .inr h
        · exact .inr h
      · exact .inr h
    · exact .inr h

end Definition

/-! ### The checks -/

namespace Graph

theorem readSteps_append {steps all : List Step} {before : List Node} (h : readSteps steps before = .ok all)
    (rest : List Node) : readSteps steps (before ++ rest) = readSteps all rest := by
  induction before generalizing steps with
  | nil =>
    cases h
    rfl
  | cons n before ih =>
    unfold readSteps at h
    rw [List.cons_append]
    conv => lhs; unfold readSteps
    split at h
    · cases h
    rename_i hnew
    rw [if_neg hnew]
    split at h
    · cases h
    · exact ih h

theorem any_id_iff {steps : List Step} {nodes : List Node} (h : List.Forall₂ Node.Reads nodes steps) (id : String) :
    steps.any (·.id == id) = true ↔ id ∈ nodes.map (·.id) := by
  rw [mem_steps_iff, map_id_of_reads h, List.mem_map]

theorem readSteps_of_tidy {nodes : List Node} (h : Tidy nodes) :
    ∃ steps, readSteps [] nodes = .ok steps ∧ List.Forall₂ Node.Reads nodes steps := by
  have hsteps : ∃ steps, readSteps [] nodes = .ok steps := by
    induction nodes using List.reverseRecOn with
    | nil => exact ⟨[], rfl⟩
    | append_singleton nodes n ih =>
      obtain ⟨hnodes, hn, kind, hkind⟩ := Definition.tidy_concat.1 h
      obtain ⟨steps, hsteps⟩ := ih hnodes
      obtain ⟨-, _, rfl, hreads⟩ := readSteps_ok hsteps List.nodup_nil
      refine ⟨steps ++ [⟨n.id, kind⟩], ?_⟩
      rw [readSteps_append hsteps]
      unfold readSteps
      rw [if_neg (mt (any_id_iff hreads n.id).1 hn), hkind]
      rfl
  obtain ⟨steps, hsteps⟩ := hsteps
  obtain ⟨-, _, rfl, hreads⟩ := readSteps_ok hsteps List.nodup_nil
  exact ⟨steps, hsteps, hreads⟩

/-- What the checks find out before they come to the connections. -/
structure Checked (d : Definition) (steps : List Step) (entry : Step) : Prop where
  read : readSteps [] d.nodes = .ok steps
  reads : List.Forall₂ Node.Reads d.nodes steps
  found : findEntry steps = .ok entry
  trigger : ∃ t, d.triggers = [t] ∧ t.Reads entry

/-- The triggers among the steps are those among the nodes. -/
theorem reads_triggers {d : Definition} {steps : List Step} (h : List.Forall₂ Node.Reads d.nodes steps) :
    List.Forall₂ Node.Reads d.triggers (steps.filter (·.kind.type == .trigger)) := by
  refine List.rel_filter ?_ h
  intro n s hr
  dsimp only
  rw [Kind.type_of_read hr.kind]

theorem checked {d : Definition} (hd : d.Headed) : ∃ steps entry, Checked d steps entry := by
  obtain ⟨steps, hsteps, hreads⟩ := readSteps_of_tidy hd.tidy
  obtain ⟨t, ht⟩ := hd.one
  have htriggers := reads_triggers hreads
  rw [ht] at htriggers
  obtain ⟨entry, rest, hentry, hrest, heq⟩ := List.forall₂_cons_left_iff.1 htriggers
  cases hrest
  refine ⟨steps, entry, hsteps, hreads, ?_, t, ht, hentry⟩
  unfold findEntry
  rw [heq]

section Connections

variable {d : Definition} {steps : List Step} {entry : Step} (k : Checked d steps entry) {c : Connection}

include k

theorem Checked.any_iff (id : String) : steps.any (·.id == id) = true ↔ id ∈ d.ids := any_id_iff k.reads id

/-- A connection leads to the entry if it leads to a trigger. -/
theorem Checked.entry_iff (id : String) : id = entry.id ↔ ∃ t ∈ d.triggers, id = t.id := by
  obtain ⟨t, ht, hr⟩ := k.trigger
  rw [ht, hr.id]
  simp

theorem Checked.checkConnection_eq_ok (h : d.Joins c) : checkConnection steps entry c = .ok () := by
  have hfree : c.target ≠ entry.id := fun heq => by
    obtain ⟨t, ht, heq⟩ := (k.entry_iff _).1 heq
    exact h.free t ht heq
  unfold checkConnection
  simp [(k.any_iff _).2 h.source, (k.any_iff _).2 h.target, hfree]

theorem Checked.ids_eq : steps.map (·.id) = d.ids := (map_id_of_reads k.reads).symm

end Connections

theorem checkLeaving_eq_ok {cs : List Connection} {n : Node} {s : Step} (hr : n.Reads s) (h : n.Branches cs) :
    checkLeaving cs s = .ok () := by
  have ht := Kind.type_of_read hr.kind
  unfold checkLeaving
  dsimp only
  rw [hr.id, ht]
  split
  · rename_i hk
    rw [if_pos (h.condition hk)]
  · rename_i hk
    obtain ⟨hyes, hno, hnext⟩ := h.other hk
    rw [if_neg (by omega), if_neg (by omega), if_neg (by omega)]

/-- The check of what leaves the nodes fails at the first that it does not fit. -/
theorem Checked.leaving_eq {d : Definition} {steps : List Step} {entry : Step} (k : Checked d steps entry) {n : Node}
    (h : FirstWithout (Node.Branches d.connections) d.nodes n) {e : Defect}
    (he : ∀ s, n.Reads s → checkLeaving d.connections s = .error e) :
    steps.forM (checkLeaving d.connections) = .error e := by
  have hiff : ∀ (m : Node) (s : Step), m.Reads s → (m.Branches d.connections ↔ checkLeaving d.connections s = .ok ()) := by
    intro m s hr
    refine ⟨checkLeaving_eq_ok hr, fun hs => ?_⟩
    obtain ⟨hcondition, hother⟩ := of_checkLeaving hs
    rw [hr.id, Kind.type_of_read hr.kind] at hcondition hother
    exact ⟨hcondition, hother⟩
  obtain ⟨s, hs, hfirst⟩ := h.transfer k.reads hiff
  exact hfirst.forM_eq (fun _ h => h) (he s hs)

/-! ### The result of all checks -/

section Build

variable {d : Definition} {steps : List Step} {entry : Step} {e : Defect}

theorem build_eq_of_steps (h : readSteps [] d.nodes = .error e) : build d.nodes d.connections = .error e := by
  unfold build
  rw [h]
  rfl

theorem build_eq_of_entry (hs : readSteps [] d.nodes = .ok steps) (h : findEntry steps = .error e) :
    build d.nodes d.connections = .error e := by
  unfold build
  rw [hs, ok_bind, h]
  rfl

variable (k : Checked d steps entry)

include k

theorem Checked.build_eq_of_ends (h : d.connections.forM (checkConnection steps entry) = .error e) :
    build d.nodes d.connections = .error e := by
  unfold build
  rw [k.read, ok_bind, k.found, ok_bind, h]
  rfl

theorem Checked.ends_eq (hd : d.Joined) : d.connections.forM (checkConnection steps entry) = .ok () :=
  forM_eq_ok fun c hc => k.checkConnection_eq_ok (hd.joins c hc)

theorem Checked.leaves_eq (hd : d.Fitted) : steps.forM (checkLeaving d.connections) = .ok () := by
  refine forM_eq_ok fun s hs => ?_
  obtain ⟨n, hn, hr⟩ := (exists_reads k.reads).2 s hs
  exact checkLeaving_eq_ok hr (hd.branches n hn)

theorem Checked.build_eq_of_leaving (hd : d.Joined) (h : steps.forM (checkLeaving d.connections) = .error e) :
    build d.nodes d.connections = .error e := by
  unfold build
  rw [k.read, ok_bind, k.found, ok_bind, k.ends_eq hd, ok_bind, h]
  rfl

/-- The heights fall if no walk comes back. -/
theorem Checked.falls_iff (hd : d.Joined) :
    (∀ c ∈ d.connections, heightOf (settle d.connections steps.length (steps.map fun s => (s.id, 0))) c.target <
        heightOf (settle d.connections steps.length (steps.map fun s => (s.id, 0))) c.source) ↔
      ∀ id, ¬ TransGen (Leads d.connections) id id := by
  have hs (c : Connection) (hc : c ∈ d.connections) : c.source ∈ steps.map (·.id) := k.ids_eq ▸ (hd.joins c hc).source
  have ht (c : Connection) (hc : c ∈ d.connections) : c.target ∈ steps.map (·.id) := k.ids_eq ▸ (hd.joins c hc).target
  have h := Graph.falls_iff hs ht
  rwa [List.length_map, List.map_map] at h

/-- The search from the entry finds the nodes that are reached. -/
theorem Checked.contains_iff (hd : d.Joined) {n : Node} {s : Step} (hr : n.Reads s) :
    (spread d.connections steps.length [entry.id]).contains s.id = true ↔ d.Reaches n := by
  have ht (c : Connection) (hc : c ∈ d.connections) : c.target ∈ steps.map (·.id) := k.ids_eq ▸ (hd.joins c hc).target
  obtain ⟨t, htriggers, hentry⟩ := k.trigger
  have hmem : entry.id ∈ steps.map (·.id) := by
    rw [k.ids_eq, hentry.id]
    exact Definition.id_mem_of_mem_triggers (htriggers ▸ List.mem_singleton_self t)
  have h := mem_spread_iff ht hmem s.id
  rw [List.length_map] at h
  rw [List.contains_iff_mem, h, hentry.id, hr.id]
  unfold Definition.Reaches
  rw [htriggers]
  simp

theorem Checked.build_eq_of_cycle (hd : d.Fitted) {id : String} (h : TransGen (Leads d.connections) id id) :
    build d.nodes d.connections = .error .cycle := by
  unfold build
  rw [k.read, ok_bind, k.found, ok_bind, k.ends_eq hd.toJoined, ok_bind, k.leaves_eq hd, ok_bind]
  dsimp only
  rw [dif_neg fun hfalls => (k.falls_iff hd.toJoined).1 hfalls id h]

/-- Without a cycle there is a graph, unless a node of it is dead. -/
theorem Checked.build_eq_of_acyclic (hd : d.Acyclic) : ∃ g, build d.nodes d.connections =
    match steps.find? fun s => !(spread d.connections steps.length [entry.id]).contains s.id with
    | some s => .error (.unreachable s.id)
    | none => .ok g := by
  have hfalls := (k.falls_iff hd.toJoined).2 hd.acyclic
  refine ⟨⟨steps, d.connections, entry, _, hfalls⟩, ?_⟩
  unfold build
  rw [k.read, ok_bind, k.found, ok_bind, k.ends_eq hd.toJoined, ok_bind, k.leaves_eq hd.toFitted, ok_bind]
  dsimp only
  rw [dif_pos hfalls]
  rfl

theorem Checked.build_eq_of_unreachable (hd : d.Acyclic) {n : Node} (h : FirstWithout d.Reaches d.nodes n) :
    build d.nodes d.connections = .error (.unreachable n.id) := by
  have hiff (m : Node) (s : Step) (hr : m.Reads s) := k.contains_iff hd.toJoined hr
  obtain ⟨s, hs, hfirst⟩ := h.transfer k.reads fun m s hr => (hiff m s hr).symm
  obtain ⟨g, hg⟩ := k.build_eq_of_acyclic hd
  rw [hg, hfirst.find?_eq (by simp), ← hs.id]

theorem Checked.exists_build_eq (hd : d.Sound) : ∃ g, build d.nodes d.connections = .ok g := by
  obtain ⟨g, hg⟩ := k.build_eq_of_acyclic hd.toAcyclic
  refine ⟨g, ?_⟩
  rw [hg, List.find?_eq_none.2]
  intro s hs
  obtain ⟨n, hn, hr⟩ := (exists_reads k.reads).2 s hs
  have hfound := (k.contains_iff hd.toJoined hr).2 (hd.reached n hn)
  simpa using hfound

end Build

end Graph

/-! ### The definitions that are refused -/

theorem Workflow.ofDefinition_eq_error {d : Definition} (hd : d.Timely) {e : Defect}
    (h : Graph.build d.nodes d.connections = .error e) : Workflow.ofDefinition d = .error e := by
  obtain ⟨t, ht⟩ := hd.conditions
  unfold Workflow.ofDefinition
  rw [ht, h]
  rfl

namespace Definition

variable {d : Definition} {e : Defect}

/-- A definition is refused for the first node that is not in order. -/
theorem Timely.eq_error (hd : d.Timely) {before after : List Node} {n : Node} (h : d.nodes = before ++ n :: after)
    (hbefore : Tidy before) (he : ∀ steps, List.Forall₂ Node.Reads before steps →
      Graph.readSteps steps (n :: after) = .error e) : Workflow.ofDefinition d = .error e := by
  obtain ⟨steps, hsteps, hreads⟩ := Graph.readSteps_of_tidy hbefore
  refine Workflow.ofDefinition_eq_error hd (Graph.build_eq_of_steps ?_)
  rw [h, Graph.readSteps_append hsteps]
  exact he steps hreads

/-- It is refused for the triggers that it has. -/
theorem Readable.eq_error (hd : d.Readable)
    (he : ∀ steps, d.triggers.length = (steps.filter (·.kind.type == .trigger)).length →
      Graph.findEntry steps = .error e) : Workflow.ofDefinition d = .error e := by
  obtain ⟨steps, hsteps, hreads⟩ := Graph.readSteps_of_tidy hd.tidy
  exact Workflow.ofDefinition_eq_error hd.toTimely
    (Graph.build_eq_of_entry hsteps (he steps (Graph.reads_triggers hreads).length_eq))

/-- It is refused for the first connection that does not join nodes. -/
theorem Headed.eq_error (hd : d.Headed) {c : Connection} (h : FirstWithout d.Joins d.connections c)
    (he : ∀ steps entry, Graph.Checked d steps entry → Graph.checkConnection steps entry c = .error e) :
    Workflow.ofDefinition d = .error e := by
  obtain ⟨steps, entry, k⟩ := Graph.checked hd
  refine Workflow.ofDefinition_eq_error hd.toTimely (k.build_eq_of_ends ?_)
  exact h.forM_eq (fun c => k.checkConnection_eq_ok) (he steps entry k)

/-- It is refused for the first node that its connections do not fit. -/
theorem Joined.eq_error (hd : d.Joined) {n : Node} (h : FirstWithout (Node.Branches d.connections) d.nodes n)
    (he : ∀ s, n.Reads s → Graph.checkLeaving d.connections s = .error e) : Workflow.ofDefinition d = .error e := by
  obtain ⟨steps, entry, k⟩ := Graph.checked hd.toHeaded
  exact Workflow.ofDefinition_eq_error hd.toTimely (k.build_eq_of_leaving hd (k.leaving_eq h he))

/-- A definition is refused for what it shows. -/
theorem Shows.eq_error (h : d.Shows e) : Workflow.ofDefinition d = .error e := by
  cases h with
  | trigger h =>
    unfold Workflow.ofDefinition
    rw [h]
    rfl
  | duplicate hd h hbefore hn =>
    refine hd.eq_error h hbefore fun steps hreads => ?_
    unfold Graph.readSteps
    rw [if_pos ((Graph.any_id_iff hreads _).2 hn)]
  | config hd h hbefore hn hf =>
    refine hd.eq_error h hbefore fun steps hreads => ?_
    unfold Graph.readSteps
    rw [if_neg (mt (Graph.any_id_iff hreads _).1 hn), hf]
  | noTrigger hd h =>
    refine hd.eq_error fun steps hlen => ?_
    unfold Graph.findEntry
    rw [List.length_eq_zero_iff.1 (hlen.symm.trans h)]
  | manyTriggers hd h =>
    refine hd.eq_error fun steps hlen => ?_
    unfold Graph.findEntry
    split
    · rename_i hnil
      rw [hlen, hnil] at h
      simp at h
    · rename_i hone
      rw [hlen, hone] at h
      simp at h
    · rw [hlen]
  | unknownSource hd h hc =>
    refine hd.eq_error h fun steps entry k => ?_
    have hsource := mt (k.any_iff _).1 hc
    unfold Graph.checkConnection
    rw [if_pos (by simpa using hsource)]
  | unknownTarget hd h hs hc =>
    refine hd.eq_error h fun steps entry k => ?_
    have htarget := mt (k.any_iff _).1 hc
    unfold Graph.checkConnection
    rw [(k.any_iff _).2 hs, if_neg (by simp), if_pos (by simpa using htarget)]
  | intoTrigger hd h hs ht hc =>
    refine hd.eq_error h fun steps entry k => ?_
    have htarget := id_mem_of_mem_triggers ht
    rw [← hc] at htarget
    unfold Graph.checkConnection
    rw [(k.any_iff _).2 hs, (k.any_iff _).2 htarget, if_neg (by simp), if_neg (by simp),
      if_pos ((k.entry_iff _).2 ⟨_, ht, hc⟩)]
  | branches hd h hn =>
    refine hd.eq_error h fun s hr => ?_
    unfold Graph.checkLeaving
    dsimp only
    rw [hr.id, Kind.type_of_read hr.kind, if_pos hn, if_neg fun hcounts => h.not ⟨fun _ => hcounts, absurd hn⟩]
  | unexpectedYes hd h hn hyes =>
    refine hd.eq_error h fun s hr => ?_
    unfold Graph.checkLeaving
    dsimp only
    rw [hr.id, Kind.type_of_read hr.kind, if_neg hn, if_pos hyes]
  | unexpectedNo hd h hn hyes hno =>
    refine hd.eq_error h fun s hr => ?_
    unfold Graph.checkLeaving
    dsimp only
    rw [hr.id, Kind.type_of_read hr.kind, if_neg hn, if_neg (by omega), if_pos hno]
  | manySuccessors hd h hn hyes hno hnext =>
    refine hd.eq_error h fun s hr => ?_
    unfold Graph.checkLeaving
    dsimp only
    rw [hr.id, Kind.type_of_read hr.kind, if_neg hn, if_neg (by omega), if_neg (by omega), if_pos (by omega)]
  | cycle hd h =>
    obtain ⟨steps, entry, k⟩ := Graph.checked hd.toHeaded
    exact Workflow.ofDefinition_eq_error hd.toTimely (k.build_eq_of_cycle hd h)
  | unreachable hd h =>
    obtain ⟨steps, entry, k⟩ := Graph.checked hd.toHeaded
    exact Workflow.ofDefinition_eq_error hd.toTimely (k.build_eq_of_unreachable hd h)

theorem Sound.exists_eq_ok (h : d.Sound) : ∃ w, Workflow.ofDefinition d = .ok w := by
  obtain ⟨t, ht⟩ := h.conditions
  obtain ⟨steps, entry, k⟩ := Graph.checked h.toHeaded
  obtain ⟨g, hg⟩ := k.exists_build_eq h
  refine ⟨⟨d, t, g⟩, ?_⟩
  unfold Workflow.ofDefinition
  rw [ht, hg]
  rfl

end Definition

/-- A definition is refused just for the first defect that it shows, and accepted if it shows none. -/
theorem Workflow.ofDefinition_diagnoses (d : Definition) :
    (∀ e, Workflow.ofDefinition d = .error e ↔ d.Shows e) ∧ ((∃ w, Workflow.ofDefinition d = .ok w) ↔ d.Sound) := by
  refine ⟨fun e => ⟨fun h => ?_, Definition.Shows.eq_error⟩, ⟨fun ⟨w, hw⟩ => ?_, Definition.Sound.exists_eq_ok⟩⟩
  · rcases d.sound_or_shows with hs | ⟨e', he'⟩
    · obtain ⟨w, hw⟩ := hs.exists_eq_ok
      rw [h] at hw
      cases hw
    · have heq := he'.eq_error
      rw [h] at heq
      cases heq
      exact he'
  · rcases d.sound_or_shows with hs | ⟨e, he⟩
    · exact hs
    · have heq := he.eq_error
      rw [hw] at heq
      cases heq

end Lifecycle
