import Lifecycle.Proofs.Host.Keeping
import Lifecycle.Proofs.Store.Definitions

/-!
# Storage as a map from identifiers to definitions

However definitions are saved, switched and deleted, storage returns for every identifier the definition that was saved
last, with the flag to which it was switched last; and it lists and loads those and no others. Nothing of a definition is
lost, but that a null in place of the position of a node, which no definition has that was itself read, is read as none.
-/

namespace Lifecycle

open Engine
open Host (Site)
open Store (Definitions DefinitionRow)
open Workflow (ofDefinition ofDefinition_settled)

/-- The calls that change what is stored. -/
inductive StorageCall where
  | save (d : Definition)
  | switch (id : String) (active : Bool)
  | delete (id : String)

namespace StorageCall

def Answer : StorageCall → Type
  | save _ => Unit
  | switch _ _ | delete _ => Bool

def job : (c : StorageCall) → StorageJob c.Answer
  | save d => saveDefinition d
  | switch id active => switchDefinition id active
  | delete id => deleteDefinition id

/-! ### What calls mean

Lists of calls have the latest call first. -/

/-- The definition that was last saved under an identifier and not deleted since. -/
def saved (id : String) : List StorageCall → Option Definition
  | [] => none
  | save d :: earlier => if d.id = id then some d else saved id earlier
  | switch _ _ :: earlier => saved id earlier
  | delete i :: earlier => if i = id then none else saved id earlier

/-- The flag to which the definition under an identifier was last switched since it was saved. -/
def flag (id : String) : List StorageCall → Option Bool
  | [] => none
  | save d :: earlier => if d.id = id then none else flag id earlier
  | switch i active :: earlier => if i = id then some active else flag id earlier
  | delete i :: earlier => if i = id then none else flag id earlier

/-- The definition that the calls leave under an identifier. -/
def contents (calls : List StorageCall) (id : String) : Option Definition :=
  (saved id calls).map fun d => { d.settled with active := (flag id calls).getD d.active }

/-- What a call is answered: a switch and a deletion tell whether the definition was there. -/
def answer (m : String → Option Definition) : (c : StorageCall) → c.Answer
  | save _ => ()
  | switch id _ => (m id).isSome
  | delete id => (m id).isSome

/-- A definition that is saved can be read back. -/
def Lasting : StorageCall → Prop
  | save d => d.Lasting
  | switch _ _ | delete _ => True

variable {calls : List StorageCall}

/-- What was saved is there but for its flag, unless a node has a null in place of its position. -/
theorem contents_of_placed {id : String} {d : Definition} (h : saved id calls = some d)
    (placed : ∀ n ∈ d.nodes, n.position ≠ some .null) :
    contents calls id = some { d with active := (flag id calls).getD d.active } := by
  unfold contents
  rw [h, Option.map_some, Definition.settled_of_placed placed]

theorem contents_save (d : Definition) :
    contents (save d :: calls) = Function.update (contents calls) d.id (some d.settled) := by
  funext id
  by_cases h : d.id = id
  · subst h
    rw [Function.update_self]
    simp only [contents, saved, flag, if_true]
    rfl
  · rw [Function.update_of_ne (Ne.symm h)]
    simp [contents, saved, flag, h]

theorem contents_switch (id : String) (active : Bool) : contents (switch id active :: calls) =
    Function.update (contents calls) id ((contents calls id).map fun d => { d with active := active }) := by
  funext other
  by_cases h : id = other
  · subst h
    rw [Function.update_self]
    simp only [contents, saved, flag, if_true, Option.map_map]
    rfl
  · rw [Function.update_of_ne (Ne.symm h)]
    simp [contents, saved, flag, h]

theorem contents_delete (id : String) : contents (delete id :: calls) = Function.update (contents calls) id none := by
  funext other
  by_cases h : id = other
  · subst h
    simp [contents, saved]
  · rw [Function.update_of_ne (Ne.symm h)]
    simp [contents, saved, flag, h]

end StorageCall

/-- What is listed of a definition. -/
def Definition.listing (d : Definition) : Listing := ⟨d.id, d.name, d.triggerType.name, d.active⟩

namespace Host.Site

/-- The table of definitions holds the map. -/
def Shelves (s : Site) (m : String → Option Definition) : Prop := ∃ ds, s.database.definitions = some ds ∧ ds.Lists m

variable {s : Site} {m : String → Option Definition}

theorem Shelves.find (h : s.Shelves m) (id : String) : s.registry.find id = .ok (m id) := by
  obtain ⟨ds, hds, hl⟩ := h
  have hrow := Registry.row_eq (g := s.registry) hds id
  have hget := hl.get id
  generalize ds.get? id = row?, m id = d? at hrow hget ⊢
  cases hget with
  | none => exact Registry.find_eq_none hrow
  | some hholds => exact Registry.find_eq_some hrow hholds.text

/-- What is loaded is the map. -/
theorem Shelves.read (h : s.Shelves m) : ∃ entries, s.perform readDefinitions.run = (.ok entries, s) ∧
    (entries.map (·.1)).Nodup ∧ ∀ id d, (id, d) ∈ entries ↔ m id = some d := by
  obtain ⟨ds, hds, hl⟩ := h
  let entry (row : DefinitionRow) : Option (String × Definition) := (Definition.ofText row.definition).toOption.map (row.id, ·)
  have hentry {row : DefinitionRow} {d : Definition} (hd : row.Holds d) : entry row = some (row.id, d) := by
    show (Definition.ofText row.definition).toOption.map (row.id, ·) = _
    rw [hd.text]
    rfl
  have hkey {row : DefinitionRow} {e : String × Definition} (he : entry row = some e) : e.1 = row.id := by
    obtain ⟨d, -, rfl⟩ := Option.map_eq_some_iff.1 he
    rfl
  refine ⟨ds.filterMap entry, s.perform_ask (s.answer_statement (Store.Statement.execute_definitions hds)), ?_, fun id d => ?_⟩
  · refine List.pairwise_map.2 (List.Pairwise.filterMap entry (fun a b hne e he f hf => ?_) (List.pairwise_map.1 hl.distinct))
    rw [hkey he, hkey hf]
    exact hne
  · rw [List.mem_filterMap]
    constructor
    · rintro ⟨row, hrow, he⟩
      obtain ⟨e, hm, hholds⟩ := hl.of_mem hrow
      rw [hentry hholds] at he
      cases he
      exact hm
    · intro hd
      obtain ⟨row, hrow, hholds⟩ := hl.of_some hd
      have hid : row.id = id := hholds.id.trans (hl.own id d hd).1
      exact ⟨row, hrow, hid ▸ hentry hholds⟩

/-- What is listed are the definitions of the map, each once. -/
theorem Shelves.list (h : s.Shelves m) : ∃ ls, s.perform listDefinitions.run = (.ok ls, s) ∧
    (ls.map (·.id)).Nodup ∧ ∀ l, l ∈ ls ↔ ∃ d, m l.id = some d ∧ l = d.listing := by
  obtain ⟨ds, hds, hl⟩ := h
  let listed (row : DefinitionRow) : Listing := ⟨row.id, row.name, row.triggerType, row.active ≠ 0⟩
  have hlisted {row : DefinitionRow} {d : Definition} (hd : row.Holds d) : listed row = d.listing := by
    show Listing.mk row.id row.name row.triggerType (row.active ≠ 0) = ⟨d.id, d.name, d.triggerType.name, d.active⟩
    rw [hd.id, hd.name, hd.triggerType, hd.active]
    cases d.active <;> rfl
  have hperm := List.mergeSort_perm ds fun a b => decide (a.id ≤ b.id)
  refine ⟨(ds.mergeSort fun a b => a.id ≤ b.id).map listed,
    s.perform_ask (s.answer_statement (Store.Statement.execute_definitions hds)), ?_, fun l => ?_⟩
  · rw [List.map_map]
    exact (hperm.map (·.id)).nodup_iff.2 hl.distinct
  · rw [List.mem_map]
    constructor
    · rintro ⟨row, hrow, rfl⟩
      obtain ⟨d, hd, hholds⟩ := hl.of_mem (hperm.mem_iff.1 hrow)
      exact ⟨d, hd, hlisted hholds⟩
    · rintro ⟨d, hd, rfl⟩
      obtain ⟨row, hrow, hholds⟩ := hl.of_some hd
      exact ⟨row, hperm.mem_iff.2 hrow, hlisted hholds⟩

/-- A call is answered from the map, and changes it as the call says. -/
theorem Shelves.call {calls : List StorageCall} (h : s.Shelves (StorageCall.contents calls)) {c : StorageCall}
    (hc : c.Lasting) : ∃ s', s.perform c.job.run = (.ok (c.answer (StorageCall.contents calls)), s') ∧
      s'.Shelves (StorageCall.contents (c :: calls)) := by
  have hfind := h.find
  obtain ⟨ds, hds, hl⟩ := h
  cases c with
  | save d =>
    refine ⟨s.withRegistry ⟨some (ds.save (.ofDefinition d)), s.registry.cached⟩, s.perform_saveDefinition hds d, _, rfl, ?_⟩
    rw [StorageCall.contents_save]
    exact hl.save hc
  | switch id active =>
    have hperform := s.perform_switchDefinition hds id active
    rw [hfind] at hperform
    cases hd : StorageCall.contents calls id with
    | none =>
      rw [hd] at hperform
      refine ⟨s, ?_, ds, hds, ?_⟩
      · simp only [StorageCall.answer, hd]
        exact hperform
      · rw [StorageCall.contents_switch, hd, Option.map_none, ← hd, Function.update_eq_self]
        exact hl
    | some d =>
      rw [hd] at hperform
      obtain ⟨rfl, hstorable⟩ := hl.own id d hd
      let switched : Definition := { d with active := active }
      have hswitched : switched.Storable := hstorable.congr rfl rfl rfl
      refine ⟨s.withRegistry ⟨some (ds.save (.ofDefinition switched)), s.registry.cached⟩, ?_, _, rfl, ?_⟩
      · simp only [StorageCall.answer, hd]
        exact hperform
      · have hsaved := hl.save hswitched.lasting
        rw [Definition.settled_of_placed hswitched.placed] at hsaved
        rw [StorageCall.contents_switch, hd]
        exact hsaved
  | delete id =>
    refine ⟨s.withRegistry ⟨some (ds.delete id).2, s.registry.cached⟩, ?_, _, rfl, ?_⟩
    · simp only [StorageCall.answer, ← hl.delete_fst id]
      exact s.perform_deleteDefinition hds id
    · rw [StorageCall.contents_delete]
      exact hl.delete id

/-- The site after some calls, the latest of which comes first. -/
def afterCalls (s : Site) : List StorageCall → Site
  | [] => s
  | c :: earlier => ((s.afterCalls earlier).perform c.job.run).2

/-- After any calls the table holds what the calls have left. -/
theorem shelves_afterCalls (h : s.database.definitions = some []) :
    ∀ calls : List StorageCall, (∀ c ∈ calls, c.Lasting) → (s.afterCalls calls).Shelves (StorageCall.contents calls)
  | [], _ => ⟨[], h, Definitions.Lists.empty⟩
  | c :: earlier, hcalls => by
    obtain ⟨hc, hearlier⟩ := List.forall_mem_cons.1 hcalls
    obtain ⟨s', hs', hshelves⟩ := (shelves_afterCalls h earlier hearlier).call hc
    show ((s.afterCalls earlier).perform c.job.run).2.Shelves _
    rw [hs']
    exact hshelves

end Host.Site

/-- Storage is a map from identifiers to definitions. After any calls on an empty table it returns under every identifier the
definition that was saved last, unless it was deleted since, with the flag to which it was switched last, and as it was but
for nulls in place of positions; the definitions so returned are the ones it loads, and their names, types and flags are what
it lists; a further call is answered by whether its definition is there; and a definition that is returned has the workflow,
or the defect, of the one that was saved. -/
theorem storage_is_a_map {s : Site} (h : s.database.definitions = some []) (calls : List StorageCall)
    (hcalls : ∀ c ∈ calls, c.Lasting) :
    (∀ id, (s.afterCalls calls).perform (getDefinition id).run =
      (.ok (StorageCall.contents calls id), s.afterCalls calls)) ∧
    (∀ id d, StorageCall.saved id calls = some d → (∀ n ∈ d.nodes, n.position ≠ some .null) →
      StorageCall.contents calls id = some { d with active := (StorageCall.flag id calls).getD d.active }) ∧
    (∃ entries, (s.afterCalls calls).perform readDefinitions.run = (.ok entries, s.afterCalls calls) ∧
      (entries.map (·.1)).Nodup ∧ ∀ id d, (id, d) ∈ entries ↔ StorageCall.contents calls id = some d) ∧
    (∃ ls, (s.afterCalls calls).perform listDefinitions.run = (.ok ls, s.afterCalls calls) ∧
      (ls.map (·.id)).Nodup ∧ ∀ l, l ∈ ls ↔ ∃ d, StorageCall.contents calls l.id = some d ∧ l = d.listing) ∧
    (∀ c : StorageCall, c.Lasting →
      ((s.afterCalls calls).perform c.job.run).1 = .ok (c.answer (StorageCall.contents calls))) ∧
    ∀ id d e, StorageCall.saved id calls = some d → StorageCall.contents calls id = some e →
      ofDefinition e = (ofDefinition d).map fun w => { w with definition := e } := by
  have hshelves := s.shelves_afterCalls h calls hcalls
  refine ⟨fun id => ?_, fun id d => StorageCall.contents_of_placed, hshelves.read, hshelves.list, fun c hc => ?_,
    fun id d e hd he => ?_⟩
  · rw [Host.Site.perform_getDefinition, hshelves.find]
  · obtain ⟨s', hs', -⟩ := hshelves.call hc
    rw [hs']
  · rw [StorageCall.contents, hd] at he
    cases he
    exact ofDefinition_settled d _

/-- A site with no definition. -/
def Lone.bare : Site := ⟨{ Lone.database true with definitions := some [] }, 0, Lone.worker⟩

/-- A definition that was saved and switched off. -/
def Lone.toggling : List StorageCall := [.switch "new" false, .save (Lone.definition "new" true)]

theorem storage_is_a_map_of_lone : Lone.bare.database.definitions = some [] ∧ (∀ c ∈ Lone.toggling, c.Lasting) ∧
    (Lone.bare.afterCalls Lone.toggling).perform (getDefinition "new").run =
      (.ok (some (Lone.definition "new" false)), Lone.bare.afterCalls Lone.toggling) := by
  have hcalls : ∀ c ∈ Lone.toggling, c.Lasting := by
    simp only [Lone.toggling, List.forall_mem_cons]
    exact ⟨trivial, (Lone.storable "new" true).lasting, nofun⟩
  refine ⟨rfl, hcalls, ((storage_is_a_map rfl Lone.toggling hcalls).1 "new").trans ?_⟩
  have hcontents : StorageCall.contents Lone.toggling "new" = some (Lone.definition "new" false) := by decide
  rw [hcontents]

end Lifecycle
