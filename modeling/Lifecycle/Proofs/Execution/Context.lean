import Lifecycle.Execution.Context
import Lifecycle.Proofs.Json.Records
import Lifecycle.Proofs.Json.RoundTrip
import Lifecycle.Store.Row

/-!
# Contexts read back from their snapshots

The contexts with which executions start are durable, and entering a node keeps them so. A durable context is the one
that is read from the snapshot of it that a token holds.
-/

namespace Lifecycle

open Json (Members Draft DraftMembers Decoder Fields)
open Time (Instant)

/-! ### Members of a snapshot -/

namespace Json

/-- The members are durable and leave room for the two levels around them. -/
structure Members.Kept (ms : Members) : Prop where
  ordered : ms.Ordered
  durable : ∀ e ∈ ms, e.2.Durable
  shallow : ∀ e ∈ ms, e.2.depth ≤ 125

theorem Members.kept_nil : Members.Kept [] := ⟨ordered_nil, by simp, by simp⟩

theorem Members.Kept.insert {ms : Members} (h : ms.Kept) (name : String) (value : Json) (hv : value.Durable)
    (hd : value.depth ≤ 125) : (Members.insert name value ms).Kept := by
  refine ⟨ordered_insert name value h.ordered, fun e he => ?_, fun e he => ?_⟩
  · rcases mem_of_mem_insert he with rfl | he
    · exact hv
    · exact h.durable e he
  · rcases mem_of_mem_insert he with rfl | he
    · exact hd
    · exact h.shallow e he

theorem Members.kept_ofList {entries : List (String × Json)} (h : ∀ e ∈ entries, e.2.Durable ∧ e.2.depth ≤ 125) :
    (Members.ofList entries).Kept := by
  unfold Members.ofList
  refine List.foldlRecOn entries _ (motive := Members.Kept) Members.kept_nil fun ms hms e he => ?_
  exact hms.insert e.1 e.2 (h e he).1 (h e he).2

theorem Members.Kept.lookup {ms : Members} (h : ms.Kept) (name : String) {j : Json} (hj : ms.lookup name = some j) :
    j.Durable ∧ j.depth ≤ 125 :=
  ⟨h.durable _ (mem_of_lookup hj), h.shallow _ (mem_of_lookup hj)⟩

theorem Members.Kept.obj {ms : Members} (h : ms.Kept) : (Json.obj ms).Durable ∧ (Json.obj ms).depth ≤ 126 := by
  have hd := (depthMembers_le_iff ms 125).2 h.shallow
  refine ⟨⟨h.ordered, (durableMembers_iff ms).2 h.durable⟩, ?_⟩
  simp only [depth]
  omega

end Json

/-! ### Contexts -/

namespace Context

/-- The context is what its snapshot holds. -/
structure Durable (c : Context) : Prop where
  trigger : c.trigger.Kept
  metadata : c.metadata.Kept

theorem metadata_lt_trigger : "metadata" < "trigger" := by decide

theorem toJson_eq (c : Context) : c.toJson = .obj [("metadata", .obj c.metadata), ("trigger", .obj c.trigger)] := by
  simp only [toJson, Json.object, Members.ofList, List.foldl_cons, List.foldl_nil, Members.insert]
  rw [if_pos metadata_lt_trigger]

theorem ofSnapshot_toJson {c : Context} (h : c.Durable) : ofSnapshot c.toJson = .ok c := by
  rw [toJson_eq]
  have trigger : (Fields.required "trigger" Decoder.members).Yields [("metadata", .obj c.metadata), ("trigger", .obj c.trigger)]
      c.trigger := Fields.yields_field rfl (Decoder.yields_members h.trigger.obj.1.inOrder)
  have metadata : (Fields.required "metadata" Decoder.members).Yields
      [("metadata", .obj c.metadata), ("trigger", .obj c.trigger)] c.metadata :=
    Fields.yields_field rfl (Decoder.yields_members h.metadata.obj.1.inOrder)
  have fields := (trigger.map Context.mk).seq metadata
  have yields := fields.record "ExecutionContext" false ["metadata", "trigger"] rfl (by decide) (by decide)
  exact yields (Json.holds_ofJson _) fun n hn => by cases hn

/-- What is kept of a durable context is read as it was written. -/
theorem readSnapshot_toJson {c : Context} (h : c.Durable) : Store.readSnapshot c.toJson.print = c.toJson := by
  have ⟨htd, hts⟩ := h.trigger.obj
  have ⟨hmd, hms⟩ := h.metadata.obj
  have durable : c.toJson.Durable := by
    rw [toJson_eq]
    have hordered : Members.Ordered [("metadata", Json.obj c.metadata), ("trigger", Json.obj c.trigger)] :=
      List.pairwise_pair.2 metadata_lt_trigger
    exact ⟨hordered, hmd, htd, trivial⟩
  have shallow : c.toJson.depth ≤ 127 := by
    rw [toJson_eq]
    simp only [Json.depth, Json.depthMembers] at hts hms ⊢
    omega
  rw [Store.readSnapshot, Json.parse_print durable shallow]

/-- The snapshot that a token holds is read as the context that was written. -/
theorem ofSnapshot_readSnapshot {c : Context} (h : c.Durable) :
    ofSnapshot (Store.readSnapshot c.toJson.print) = .ok c := by
  rw [readSnapshot_toJson h]
  exact ofSnapshot_toJson h

/-! ### Where contexts come from -/

theorem durable_noteVisit (id : String) {noted : Option Json} (h : ∀ j ∈ noted, j.Durable ∧ j.depth ≤ 125) :
    (noteVisit id noted).Durable ∧ (noteVisit id noted).depth ≤ 125 := by
  unfold noteVisit
  split
  · exact ⟨⟨trivial, trivial⟩, by simp [Json.depth, Json.depthItems]⟩
  · rename_i ids
    obtain ⟨hd, hs⟩ := h (.arr ids) rfl
    have hitems : ∀ j ∈ ids, j.Durable := (Json.durableItems_iff ids).1 hd
    simp only [Json.depth] at hs
    have hdepth := (Json.depthItems_le_iff ids 124).1 (by omega)
    have hdepth' : Json.depthItems (ids ++ [.str id]) ≤ 124 := by
      refine (Json.depthItems_le_iff _ _).2 fun j hj => ?_
      rcases List.mem_append.1 hj with hj | hj
      · exact hdepth j hj
      · rw [List.mem_singleton.1 hj]
        exact Nat.zero_le _
    refine ⟨(Json.durableItems_iff _).2 fun j hj => ?_, by simp only [Json.depth]; omega⟩
    rcases List.mem_append.1 hj with hj | hj
    · exact hitems j hj
    · rw [List.mem_singleton.1 hj]
      exact trivial
  · rename_i other _
    exact h other rfl

theorem Durable.enter {c : Context} (h : c.Durable) (id : String) (now : Instant) : (c.enter id now).Durable := by
  refine ⟨h.trigger, ?_⟩
  have hid := h.metadata.insert "current_node_id" (.str id) trivial (Nat.zero_le _)
  have hnow := hid.insert "current_node_started_at" (.str now.offsetText) trivial (Nat.zero_le _)
  have ⟨hd, hs⟩ := durable_noteVisit id fun _ hj => hnow.lookup "visited" hj
  exact hnow.insert "visited" _ hd hs

theorem durable_ofChange (source target : String) : (ofChange source target).Durable := by
  refine ⟨Members.kept_ofList fun e he => ?_, Members.kept_nil⟩
  simp only [List.mem_cons, List.not_mem_nil, or_false] at he
  rcases he with rfl | rfl <;> exact ⟨trivial, Nat.zero_le _⟩

theorem durable_ofStuck (status : String) (since : Instant) : (ofStuck status since).Durable := by
  refine ⟨Members.kept_ofList fun e he => ?_, Members.kept_nil⟩
  simp only [List.mem_cons, List.not_mem_nil, or_false] at he
  rcases he with rfl | rfl <;> exact ⟨trivial, Nat.zero_le _⟩

/-! ### What contexts tell -/

/-- The nodes were entered in this order, and the last of them is the current one. -/
structure Notes (c : Context) (ids : List String) : Prop where
  visited : c.metadata.lookup "visited" = if ids = [] then none else some (.arr (ids.map .str))
  current : c.metadata.lookup "current_node_id" = ids.getLast?.map .str

variable {c : Context} {ids : List String}

theorem notes_nil (h : c.metadata = []) : c.Notes [] := by
  constructor <;> rw [h] <;> rfl

theorem Notes.visited_eq (h : c.Notes ids) : c.visited = ids := by
  unfold Context.visited
  rw [h.visited]
  by_cases hids : ids = []
  · simp [hids]
  · simp [hids, List.filterMap_map, Function.comp_def, Json.text?]

theorem Notes.enter (h : c.Notes ids) (id : String) (now : Instant) : (c.enter id now).Notes (ids ++ [id]) := by
  have hvisited (noted : Members) (hn : noted.lookup "visited" = c.metadata.lookup "visited") :
      noteVisit id (noted.lookup "visited") = .arr ((ids ++ [id]).map .str) := by
    rw [hn, h.visited]
    by_cases hids : ids = []
    · simp [hids, noteVisit]
    · simp [hids, noteVisit]
  constructor
  · rw [if_neg (by simp)]
    refine (Members.lookup_insert_self ..).trans (congrArg some (hvisited _ ?_))
    rw [Members.lookup_insert_of_ne (by decide), Members.lookup_insert_of_ne (by decide)]
  · rw [List.getLast?_concat]
    refine (Members.lookup_insert_of_ne (by decide) _ _).trans ((Members.lookup_insert_of_ne (by decide) _ _).trans ?_)
    exact Members.lookup_insert_self ..

end Context

end Lifecycle
