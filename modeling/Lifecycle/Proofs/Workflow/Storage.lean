import Lifecycle.Proofs.Json.Readings
import Lifecycle.Proofs.Json.RoundTrip
import Lifecycle.Workflow.Graph
import Mathlib.Tactic.Ring

/-!
# Definitions read back from storage

The text under which a definition is stored holds that definition, if its values are durable and no deeper than a text may
be. A definition that was itself read from a text is such a one, unless it has numbers of the binary format.
-/

namespace Lifecycle

open Json (Decoder Fields Members)

/-! ### JSON forms, by ascending names -/

/-- The members of a node by ascending names. -/
def Node.members (n : Node) : Members :=
  ("config", n.config) :: ("id", .str n.id) ::
    ((n.position.map fun p => ("position", p)).toList ++ [("type", .str n.type.name)])

theorem Node.ordered_members (n : Node) : n.members.Ordered := by
  unfold members
  cases n.position with
  | none => exact Members.ordered_of_names ["config", "id", "type"] rfl (by decide)
  | some p => exact Members.ordered_of_names ["config", "id", "position", "type"] rfl (by decide)

theorem Node.toJson_eq (n : Node) : n.toJson = .obj n.members := by
  refine congrArg Json.obj (Members.ofList_eq_of_perm (List.perm_iff_count.2 fun e => ?_) n.ordered_members)
  simp only [members, List.count_cons, List.count_append, List.count_nil]
  ring

/-- The members of a connection by ascending names. -/
def Connection.members (c : Connection) : Members :=
  [("from", .str c.source), ("to", .str c.target), ("type", .str c.label.name)]

theorem Connection.ordered_members (c : Connection) : c.members.Ordered :=
  Members.ordered_of_names ["from", "to", "type"] rfl (by decide)

theorem Connection.toJson_eq (c : Connection) : c.toJson = .obj c.members :=
  congrArg Json.obj (Members.ofList_of_ordered c.ordered_members)

/-- The members of a definition by ascending names. -/
def Definition.members (d : Definition) : Members :=
  [("active", .bool d.active), ("connections", .arr (d.connections.map Connection.toJson)), ("id", .str d.id),
    ("name", .str d.name), ("nodes", .arr (d.nodes.map Node.toJson)), ("triggerConditions", .obj d.triggerConditions),
    ("triggerType", .str d.triggerType.name)]

theorem Definition.ordered_members (d : Definition) : d.members.Ordered :=
  Members.ordered_of_names
    ["active", "connections", "id", "name", "nodes", "triggerConditions", "triggerType"] rfl (by decide)

theorem Definition.toJson_eq (d : Definition) : d.toJson = .obj d.members := by
  refine congrArg Json.obj (Members.ofList_eq_of_perm (List.perm_iff_count.2 fun e => ?_) d.ordered_members)
  simp only [members, List.count_cons, List.count_nil]
  ring

/-! ### Reading -/

theorem NodeType.yields (t : NodeType) : NodeType.decoder.Yields (.str t.name) t :=
  Decoder.yields_variant (by cases t <;> rfl)

theorem Label.yields (l : Label) : Label.decoder.Yields (.str l.name) l := Decoder.yields_variant (by cases l <;> rfl)

theorem TriggerType.yields (t : TriggerType) : TriggerType.decoder.Yields (.str t.name) t :=
  Decoder.yields_variant (by cases t <;> rfl)

theorem Connection.yields (c : Connection) : Connection.decoder.Yields c.toJson c := by
  rw [Connection.toJson_eq]
  have fields : Connection.fields.Yields c.members c :=
    (((Fields.yields_field rfl (Decoder.yields_string c.source)).map Connection.mk).seq
      (Fields.yields_field rfl (Decoder.yields_string c.target))).seq (Fields.yields_field rfl (Label.yields c.label))
  exact fields.record "Connection" false ["from", "to", "type"] rfl (by decide) (by decide)

/-- The node as it is read back: a null in place of its position is read as none. -/
def Node.settled (n : Node) : Node := { n with position := n.position.filter (· ≠ .null) }

theorem Node.yields {n : Node} (h : n.toJson.Durable) : Node.decoder.Yields n.toJson n.settled := by
  obtain ⟨id, type, config, position⟩ := n
  rw [Node.toJson_eq] at h ⊢
  obtain ⟨-, hconfig, -, hrest⟩ := h
  have fields {ms : Members} {p? : Option Json} (hid : ms.lookup "id" = some (.str id))
      (htype : ms.lookup "type" = some (.str type.name)) (hc : ms.lookup "config" = some config)
      (hposition : (Fields.optional "position" Decoder.json).Yields ms p?) : Node.fields.Yields ms ⟨id, type, config, p?⟩ :=
    ((((Fields.yields_field hid (Decoder.yields_string id)).map Node.mk).seq
      (Fields.yields_field htype (NodeType.yields type))).seq
      (Fields.yields_field hc (Decoder.yields_json hconfig.inOrder))).seq hposition
  cases position with
  | none =>
    exact (fields rfl rfl rfl (Fields.yields_absent rfl)).record "Node" false ["config", "id", "type"] rfl
      (by decide) (by decide)
  | some p =>
    have hread : Decoder.json.optional.Yields p ((some p).filter (· ≠ .null)) := by
      by_cases hp : p = .null
      · subst hp
        exact Decoder.yields_nothing Decoder.json
      · rw [Option.filter_some_pos (by simpa using hp)]
        exact (Decoder.yields_json hrest.1.inOrder).optional hp
    exact (fields rfl rfl rfl (Fields.yields_field rfl hread)).record "Node" false
      ["config", "id", "position", "type"] rfl (by decide) (by decide)

/-- The definition as it is read back. -/
def Definition.settled (d : Definition) : Definition := { d with nodes := d.nodes.map Node.settled }

theorem Definition.yields {d : Definition} (h : d.toJson.Durable) : Definition.decoder.Yields d.toJson d.settled := by
  rw [Definition.toJson_eq] at h ⊢
  obtain ⟨-, -, -, -, -, hnodes, hconditions, -⟩ := h
  have nodes : (Decoder.list Node.decoder).Yields (.arr (d.nodes.map Node.toJson)) (d.nodes.map Node.settled) :=
    Decoder.yields_list fun n hn => Node.yields ((Json.durableItems_iff _).1 hnodes _ (List.mem_map_of_mem hn))
  have connections : (Decoder.list Connection.decoder).Yields (.arr (d.connections.map Connection.toJson)) d.connections := by
    simpa using Decoder.yields_list (g := fun c => c) fun c (_ : c ∈ d.connections) => Connection.yields c
  have fields : Definition.fields.Yields d.members d.settled :=
    (((((((Fields.yields_field rfl (Decoder.yields_string d.id)).map Definition.mk).seq
      (Fields.yields_field rfl (Decoder.yields_string d.name))).seq
      (Fields.yields_field rfl (TriggerType.yields d.triggerType))).seq
      (Fields.yields_field rfl (Decoder.yields_members (Json.Durable.inOrder hconditions)))).seq
      (Fields.yields_field rfl (Decoder.yields_boolean d.active))).seq
      (Fields.yields_field rfl nodes)).seq
      (Fields.yields_field rfl connections)
  exact fields.record "WorkflowDefinition" false
    ["active", "connections", "id", "name", "nodes", "triggerConditions", "triggerType"] rfl (by decide) (by decide)

/-- The values of a definition can be read back from a text. -/
structure Definition.Lasting (d : Definition) : Prop where
  durable : d.toJson.Durable
  shallow : d.toJson.depth ≤ 127

/-- A definition of which the stored text loses nothing. -/
structure Definition.Storable (d : Definition) : Prop where
  durable : d.toJson.Durable
  shallow : d.toJson.depth ≤ 127
  placed : ∀ n ∈ d.nodes, n.position ≠ some .null

theorem Definition.Storable.lasting {d : Definition} (h : d.Storable) : d.Lasting := ⟨h.durable, h.shallow⟩

theorem Node.settled_of_placed {n : Node} (h : n.position ≠ some .null) : n.settled = n := by
  obtain ⟨id, type, config, position⟩ := n
  cases position with
  | none => rfl
  | some p =>
    have hp : p ≠ .null := fun hp => h (congrArg some hp)
    unfold settled
    rw [Option.filter_some_pos (by simpa using hp)]

theorem Definition.settled_of_placed {d : Definition} (h : ∀ n ∈ d.nodes, n.position ≠ some .null) : d.settled = d := by
  have hnodes : d.nodes.map Node.settled = d.nodes :=
    (List.map_congr_left fun n hn => Node.settled_of_placed (h n hn)).trans (List.map_id _)
  unfold settled
  rw [hnodes]

/-- What is read from the stored text is the definition as it settles. -/
theorem Definition.ofText_settled {d : Definition} (h : d.Lasting) : Definition.ofText d.text = .ok d.settled :=
  (Definition.yields h.durable).ofText_print h.durable h.shallow

/-- The definition is the one that is read from its stored text. -/
theorem Definition.ofText_text {d : Definition} (h : d.Storable) : Definition.ofText d.text = .ok d := by
  rw [Definition.ofText_settled h.lasting, Definition.settled_of_placed h.placed]

/-- Its names, its type and its flag do not matter to how a definition is stored. -/
theorem Definition.Storable.congr {d e : Definition} (h : d.Storable) (hc : e.triggerConditions = d.triggerConditions)
    (hn : e.nodes = d.nodes) (hs : e.connections = d.connections) : e.Storable := by
  obtain ⟨durable, shallow, placed⟩ := h
  rw [Definition.toJson_eq] at durable shallow
  obtain ⟨-, -, hconnections, -, -, hnodes, hconditions, -⟩ := durable
  refine ⟨?_, ?_, hn ▸ placed⟩
  · rw [Definition.toJson_eq]
    refine ⟨e.ordered_members, ?_⟩
    unfold Definition.members
    rw [hc, hn, hs]
    exact ⟨trivial, hconnections, trivial, trivial, hnodes, hconditions, trivial, trivial⟩
  · rw [Definition.toJson_eq]
    unfold Definition.members
    rw [hc, hn, hs]
    exact shallow

/-! ### Settled definitions -/

theorem Node.settled_of_null {n : Node} (h : n.position = some .null) : n.settled = { n with position := none } := by
  unfold settled
  rw [h, Option.filter_some_neg (by simp)]

theorem Node.placed_settled (n : Node) : n.settled.position ≠ some .null := by
  by_cases h : n.position = some .null
  · rw [settled_of_null h]
    exact nofun
  · rw [settled_of_placed h]
    exact h

theorem Node.durable_settled {n : Node} (h : n.toJson.Durable) : n.settled.toJson.Durable := by
  by_cases hp : n.position = some .null
  · rw [Node.toJson_eq] at h
    obtain ⟨-, hconfig, -⟩ := h
    rw [settled_of_null hp, Node.toJson_eq]
    exact ⟨Node.ordered_members _, hconfig, trivial, trivial, trivial⟩
  · rw [settled_of_placed hp]
    exact h

theorem Node.depth_settled (n : Node) : n.settled.toJson.depth ≤ n.toJson.depth := by
  by_cases hp : n.position = some .null
  · rw [settled_of_null hp, Node.toJson_eq, Node.toJson_eq]
    simp [Node.members, hp, Json.depth, Json.depthMembers]
  · rw [settled_of_placed hp]

theorem Definition.Lasting.settled {d : Definition} (h : d.Lasting) : d.settled.Storable := by
  obtain ⟨durable, shallow⟩ := h
  rw [Definition.toJson_eq] at durable shallow
  obtain ⟨-, hactive, hconnections, hid, hname, hnodes, hrest⟩ := durable
  refine ⟨?_, ?_, fun n hn => ?_⟩
  · rw [Definition.toJson_eq]
    refine ⟨d.settled.ordered_members, hactive, hconnections, hid, hname, (Json.durableItems_iff _).2 fun j hj => ?_, hrest⟩
    rw [Definition.settled, List.map_map] at hj
    obtain ⟨n, hn, rfl⟩ := List.mem_map.1 hj
    exact Node.durable_settled ((Json.durableItems_iff _).1 hnodes _ (List.mem_map_of_mem hn))
  · have hdepth : Json.depthItems (d.settled.nodes.map Node.toJson) ≤ Json.depthItems (d.nodes.map Node.toJson) := by
      rw [Json.depthItems_le_iff, Definition.settled, List.map_map]
      intro j hj
      obtain ⟨n, hn, rfl⟩ := List.mem_map.1 hj
      exact le_trans n.depth_settled ((Json.depthItems_le_iff _ _).1 le_rfl _ (List.mem_map_of_mem hn))
    rw [Definition.toJson_eq]
    simp only [Definition.members, Json.depth, Json.depthMembers] at shallow ⊢
    simp only [Definition.settled] at hdepth ⊢
    omega
  · obtain ⟨n, -, rfl⟩ := List.mem_map.1 hn
    exact n.placed_settled

theorem Graph.readSteps_settled (nodes : List Node) :
    ∀ steps, readSteps steps (nodes.map Node.settled) = readSteps steps nodes := by
  induction nodes with
  | nil => exact fun _ => rfl
  | cons n rest ih =>
    intro steps
    have hread : Kind.read n.settled.type n.settled.config = Kind.read n.type n.config := rfl
    have hid : n.settled.id = n.id := rfl
    rw [List.map_cons, readSteps, readSteps, hread, hid]
    split
    · rfl
    split
    · rfl
    · exact ih _

/-- Of a definition only the trigger and the graph matter to whether it has a workflow. -/
theorem Workflow.ofDefinition_congr {d e : Definition} (ht : e.triggerType = d.triggerType)
    (hc : e.triggerConditions = d.triggerConditions)
    (hg : Graph.build e.nodes e.connections = Graph.build d.nodes d.connections) :
    ofDefinition e = (ofDefinition d).map fun w => { w with definition := e } := by
  unfold ofDefinition
  rw [ht, hc, hg]
  cases (Trigger.read d.triggerType d.triggerConditions).mapError Defect.trigger with
  | error f => rfl
  | ok trigger => cases Graph.build d.nodes d.connections <;> rfl

theorem Workflow.ofDefinition_settled (d : Definition) (active : Bool) :
    ofDefinition { d.settled with active := active } =
      (ofDefinition d).map fun w => { w with definition := { d.settled with active := active } } := by
  refine ofDefinition_congr rfl rfl ?_
  show Graph.build (d.nodes.map Node.settled) d.connections = _
  unfold Graph.build
  rw [Graph.readSteps_settled]

/-! ### What is read can be stored -/

open Json (Levels Fits fits_bool fits_str fits_null fits_arr fits_obj)

theorem Node.gives : Node.decoder.Gives fun levels n => Fits levels n.toJson ∧ n.position ≠ some .null := by
  have fields : Node.fields.Gives fun levels n => Fits levels n.config ∧ ∀ p ∈ n.position, Fits levels p ∧ p ≠ .null := by
    refine .seq (.seq (.seq (.map (Fields.gives_required "id" (Decoder.gives_anything _)) ?_)
      (Fields.gives_required "type" (Decoder.gives_anything _)))
      (Fields.gives_withDefault "config" Decoder.gives_json fits_null))
      (Fields.gives_optional "position" Decoder.gives_optional_json nofun)
    exact fun levels id _ type _ config hconfig position hposition => ⟨hconfig, hposition⟩
  refine (fields.record "Node" false).imp fun levels n hn => ?_
  obtain ⟨inner, hunder, hconfig, hposition⟩ := hn
  refine ⟨?_, fun hnull => (hposition .null hnull).2 rfl⟩
  rw [Node.toJson_eq]
  refine fits_obj (hunder.allow inner.allow_zero) n.ordered_members fun e he => ⟨inner, hunder, ?_⟩
  simp only [Node.members, List.mem_cons, List.mem_append, Option.mem_toList, Option.map_eq_some_iff, List.not_mem_nil, or_false] at he
  rcases he with rfl | rfl | ⟨p, hp, rfl⟩ | rfl
  · exact hconfig
  · exact fits_str inner n.id
  · exact (hposition p hp).1
  · exact fits_str inner n.type.name

theorem Connection.gives : Connection.decoder.Gives fun levels c => Fits levels c.toJson := by
  have fields : Connection.fields.Gives fun _ _ => True := by
    refine .seq (.seq (.map (Fields.gives_required "from" (Decoder.gives_anything _)) ?_)
      (Fields.gives_required "to" (Decoder.gives_anything _)))
      (Fields.gives_withDefault "type" (Decoder.gives_anything _) fun _ => trivial)
    exact fun _ _ _ _ _ _ _ => trivial
  refine (fields.record "Connection" false).imp fun levels c hc => ?_
  obtain ⟨inner, hunder, -⟩ := hc
  rw [Connection.toJson_eq]
  refine fits_obj (hunder.allow inner.allow_zero) c.ordered_members fun e he => ⟨inner, hunder, ?_⟩
  simp only [Connection.members, List.mem_cons, List.not_mem_nil, or_false] at he
  rcases he with rfl | rfl | rfl
  · exact fits_str inner c.source
  · exact fits_str inner c.target
  · exact fits_str inner c.label.name

/-- A definition that is read fits, with its nodes in their places. Where conditions and connections are left out, there is
room for empty ones, since the list of nodes is never left out. -/
theorem Definition.gives :
    Definition.decoder.Gives fun levels d => Fits levels d.toJson ∧ ∀ n ∈ d.nodes, n.position ≠ some .null := by
  have fields : Definition.fields.Gives fun levels d => levels.Allow 1 ∧ Fits levels (.obj d.triggerConditions) ∧
      Fits levels (.arr (d.connections.map Connection.toJson)) ∧
      ∀ n ∈ d.nodes, ∃ inner, levels.Under inner ∧ Fits inner n.toJson ∧ n.position ≠ some .null := by
    have conditions : Decoder.members.Gives fun levels ms => levels.Allow 1 → Fits levels (.obj ms) :=
      Decoder.gives_members.imp fun _ _ h _ => h
    have connections : (Decoder.list Connection.decoder).Gives fun levels cs =>
        levels.Allow 1 → Fits levels (.arr (cs.map Connection.toJson)) :=
      (Decoder.gives_list Connection.gives).imp fun levels cs h hl => fits_arr hl (by simpa using h.2)
    refine .seq (.seq (.seq (.seq (.seq (.seq (.map (Fields.gives_required "id" (Decoder.gives_anything _)) ?_)
      (Fields.gives_required "name" (Decoder.gives_anything _)))
      (Fields.gives_required "triggerType" (Decoder.gives_anything _)))
      (Fields.gives_withDefault "triggerConditions" conditions fun levels hl => fits_obj hl Members.ordered_nil nofun))
      (Fields.gives_withDefault "active" (Decoder.gives_anything _) fun _ => trivial))
      (Fields.gives_required "nodes" (Decoder.gives_list Node.gives)))
      (Fields.gives_withDefault "connections" connections fun levels hl => fits_arr hl nofun)
    exact fun levels id _ name _ type _ conditions hc active _ nodes hn connections hs => ⟨hn.1, hc hn.1, hs hn.1, hn.2⟩
  refine (fields.record "WorkflowDefinition" false).imp fun levels d hd => ?_
  obtain ⟨inner, hunder, hl, hconditions, hconnections, hnodes⟩ := hd
  refine ⟨?_, fun n hn => ?_⟩
  · have nodes : Fits inner (.arr (d.nodes.map Node.toJson)) := by
      refine fits_arr hl fun j hj => ?_
      obtain ⟨n, hn, rfl⟩ := List.mem_map.1 hj
      obtain ⟨deeper, hd, hfits, -⟩ := hnodes n hn
      exact ⟨deeper, hd, hfits⟩
    rw [Definition.toJson_eq]
    refine fits_obj (hunder.allow inner.allow_zero) d.ordered_members fun e he => ⟨inner, hunder, ?_⟩
    simp only [Definition.members, List.mem_cons, List.not_mem_nil, or_false] at he
    rcases he with rfl | rfl | rfl | rfl | rfl | rfl | rfl
    · exact fits_bool inner d.active
    · exact hconnections
    · exact fits_str inner d.id
    · exact fits_str inner d.name
    · exact nodes
    · exact hconditions
    · exact fits_str inner d.triggerType.name
  · obtain ⟨_, -, -, placed⟩ := hnodes n hn
    exact placed

/-- A definition that was read is settled. -/
theorem Definition.settled_of_ofText {text : String} {d : Definition} (h : Definition.ofText text = .ok d) : d.settled = d :=
  Definition.settled_of_placed (Definition.gives.ofText h).2

/-! ### The smallest definitions -/

namespace Lone

/-- A trigger alone. -/
def definition (id : String) (active : Bool) : Definition :=
  ⟨id, id, .statusChanged, [], active, [⟨"t", .trigger, .null, none⟩], []⟩

def workflow (id : String) (active : Bool) : Workflow where
  definition := definition id active
  trigger := .statusChanged none .any .any false
  graph := ⟨[⟨"t", .trigger⟩], [], ⟨"t", .trigger⟩, [("t", 0)], by decide⟩

variable (id : String) (active : Bool)

theorem ofDefinition : Workflow.ofDefinition (definition id active) = .ok (workflow id active) := rfl

theorem storable : (definition id active).Storable := by
  have hnode : (Node.mk "t" .trigger .null none).toJson = .obj [("config", .null), ("id", .str "t"), ("type", .str "trigger")] :=
    Node.toJson_eq _
  refine ⟨?_, ?_, by simp [definition]⟩
  · rw [Definition.toJson_eq]
    refine ⟨Definition.ordered_members _, trivial, trivial, trivial, trivial, ⟨?_, trivial⟩, ⟨List.Pairwise.nil, trivial⟩,
      trivial, trivial⟩
    rw [hnode]
    exact ⟨Members.ordered_of_names ["config", "id", "type"] rfl (by decide), trivial, trivial, trivial, trivial⟩
  · rw [Definition.toJson_eq]
    simp [Definition.members, definition, hnode, Json.depth, Json.depthItems, Json.depthMembers]

end Lone

end Lifecycle
