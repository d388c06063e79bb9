import Lifecycle.Proofs.Host.Outline
import Lifecycle.Proofs.Target.Holdings

/-!
# Entities of a site

Where the entities of each type are kept apart from those of the other, a call on one entity is answered from that entity and
the outline of the site alone, and changes no other entity.
-/

namespace Lifecycle

open Engine (Request Job Visit)
open Store (Database HostTable)
open Target (Call Holding Memory HostRows)

/-! ### Tables by their names -/

namespace Store.Database

variable {db : Database} {name other : String} {t : HostTable}

theorem find?_setHostRows (db : Database) (name : String) (rows : HostRows) (other : String) :
    (db.setHostRows name rows).hostTables.find? (HostTable.named other) =
      (db.hostTables.find? (HostTable.named other)).map fun u => if HostTable.named name u then { u with rows := rows } else u := by
  have hnamed : (HostTable.named other ∘ fun u => if HostTable.named name u then { u with rows := rows } else u) =
      HostTable.named other := by
    funext u
    show HostTable.named other (if HostTable.named name u then { u with rows := rows } else u) = _
    split <;> rfl
  show (db.hostTables.map _).find? _ = _
  rw [List.find?_map, hnamed]

theorem hostTable_setHostRows (h : db.hostTable name = .ok t) (rows : HostRows) :
    (db.setHostRows name rows).hostTable name = .ok { t with rows := rows } := by
  unfold hostTable at h ⊢
  rw [find?_setHostRows]
  cases ht : db.hostTables.find? (HostTable.named name) with
  | none =>
    rw [ht] at h
    cases h
  | some u =>
    rw [ht] at h
    cases h
    rw [Option.map_some, if_pos (List.find?_some ht)]
    rfl

theorem hostTable_setHostRows_of_apart (h : Text.sameName name other = false) (db : Database) (rows : HostRows) :
    (db.setHostRows name rows).hostTable other = db.hostTable other := by
  have hnamed (u : HostTable) (hu : HostTable.named other u = true) : HostTable.named name u = false := by
    refine Bool.eq_false_iff.2 fun hname => ?_
    have hsame : Text.lowerAscii name = Text.lowerAscii other := (beq_iff_eq.1 hname).symm.trans (beq_iff_eq.1 hu)
    exact absurd (beq_iff_eq.2 hsame) (Bool.eq_false_iff.1 h)
  unfold hostTable
  rw [find?_setHostRows]
  cases ht : db.hostTables.find? (HostTable.named other) with
  | none => rfl
  | some u => rw [Option.map_some, if_neg (Bool.eq_false_iff.1 (hnamed u (List.find?_some ht)))]

end Store.Database

namespace Host

theorem Worker.source_setSource (w : Worker) (type : TargetType) (source : Source) :
    (w.setSource type source).source type = source := by
  cases type <;> rfl

theorem Worker.source_setSource_of_ne {type other : TargetType} (h : other ≠ type) (w : Worker) (source : Source) :
    (w.setSource type source).source other = w.source other := by
  cases type <;> cases other <;> first | rfl | exact absurd rfl h

/-- What a collection keeps under an identifier. -/
def Collection.kept (db : Database) (id : String) : Collection → Option Holding
  | .memory m => (m.lookup id).map .entity
  | .table name => (db.hostTable name).toOption.bind fun t => (t.rows.get id).toOption.map .row

section Tables

variable {db : Database} {name : String}

theorem Collection.kept_table {t : HostTable} (h : db.hostTable name = .ok t) (id : String) :
    (Collection.table name).kept db id = (t.rows.get id).toOption.map .row := by
  show (db.hostTable name).toOption.bind _ = _
  rw [h]
  rfl

theorem Collection.kept_missing {f : Store.Fault} (h : db.hostTable name = .error f) (id : String) :
    (Collection.table name).kept db id = none := by
  show (db.hostTable name).toOption.bind _ = _
  rw [h]
  rfl

theorem Collection.kept_congr {after : Database} (h : after.hostTable name = db.hostTable name) (id : String) :
    (Collection.table name).kept after id = (Collection.table name).kept db id := by
  show (after.hostTable name).toOption.bind _ = (db.hostTable name).toOption.bind _
  rw [h]

end Tables

namespace Site

/-- An entity as the site keeps it. -/
def held (s : Site) (target : Lifecycle.Target) : Option Holding :=
  (s.worker.source target.type).collection.kept s.database target.id

/-- No table keeps the entities of both types. -/
def Separate (s : Site) : Prop := ∀ name name', (s.worker.source .application).collection = .table name →
  (s.worker.source .contract).collection = .table name' → Text.sameName name name' = false

variable {s s' : Site} {target other : Lifecycle.Target} {type : TargetType} {c : Call} {m : Memory} {name : String}
  {t : HostTable}

theorem Separate.apart (separate : s.Separate) {type' : TargetType} (hne : type' ≠ type)
    (h : (s.worker.source type).collection = .table name) {name' : String}
    (h' : (s.worker.source type').collection = .table name') : Text.sameName name name' = false := by
  have swap : Text.sameName name' name = false → Text.sameName name name' = false := fun hsame => by
    unfold Text.sameName at hsame ⊢
    rw [Bool.beq_comm]
    exact hsame
  cases type with
  | application =>
    cases type' with
    | application => exact absurd rfl hne
    | contract => exact separate name name' h h'
  | contract =>
    cases type' with
    | application => exact swap (separate name' name h' h)
    | contract => exact absurd rfl hne

theorem table_outline (h : s'.outline = s.outline) (hc : (s.worker.source type).collection = .table name) :
    (s'.worker.source type).collection = .table name := by
  have hsource : (s'.worker.source type).collection.outline = (s.worker.source type).collection.outline :=
    congrArg (·.collection) (outline_source h type)
  rw [hc] at hsource
  cases hc' : (s'.worker.source type).collection with
  | table name' =>
    rw [hc'] at hsource
    cases hsource
    rfl
  | memory m =>
    rw [hc'] at hsource
    cases hsource

theorem memory_outline (h : s'.outline = s.outline) (hc : (s.worker.source type).collection = .memory m) :
    ∃ m', (s'.worker.source type).collection = .memory m' := by
  cases hc' : (s'.worker.source type).collection with
  | memory m' => exact ⟨m', rfl⟩
  | table name =>
    have := table_outline h.symm hc'
    rw [hc] at this
    cases this

theorem Separate.of_outline (separate : s.Separate) (h : s'.outline = s.outline) : s'.Separate :=
  fun name name' hname hname' => separate name name' (table_outline h.symm hname) (table_outline h.symm hname')

theorem held_execute (s : Site) (q : Store.Statement) (target : Lifecycle.Target) :
    (s.execute q).2.held target = s.held target := by
  show Collection.kept (q.execute s.database).2 target.id (s.worker.source target.type).collection =
    Collection.kept s.database target.id (s.worker.source target.type).collection
  cases (s.worker.source target.type).collection with
  | memory m => rfl
  | table name =>
    refine Collection.kept_congr ?_ _
    unfold Database.hostTable
    rw [(Database.sameHost_execute q s.database).hostTables]

/-! ### Calls, as entities are kept -/

theorem reach_memory (h : (s.worker.source type).collection = .memory m) (c : Call) :
    s.reach type c = ((m.answer c).1,
      s.setWorker (s.worker.setSource type { s.worker.source type with collection := .memory (m.answer c).2 })) := by
  unfold reach
  dsimp only
  rw [h]

theorem reach_table (h : (s.worker.source type).collection = .table name) (ht : s.database.hostTable name = .ok t) (c : Call) :
    s.reach type c = ((t.rows.answer c).1, { s with database := s.database.setHostRows name (t.rows.answer c).2 }) := by
  unfold reach
  dsimp only
  rw [h]
  dsimp only
  rw [ht]

theorem reach_missing (h : (s.worker.source type).collection = .table name) {f : Store.Fault}
    (ht : s.database.hostTable name = .error f) (c : Call) : s.reach type c = (.error (.store f), s) := by
  unfold reach
  dsimp only
  rw [h]
  dsimp only
  rw [ht]

/-! ### What is held -/

theorem held_memory (h : (s.worker.source target.type).collection = .memory m) :
    s.held target = (m.lookup target.id).map .entity := by
  unfold held
  rw [h]
  rfl

theorem held_table (h : (s.worker.source target.type).collection = .table name) (ht : s.database.hostTable name = .ok t) :
    s.held target = (t.rows.get target.id).toOption.map .row := by
  unfold held
  rw [h, Collection.kept_table ht]

theorem held_missing (h : (s.worker.source target.type).collection = .table name) {f : Store.Fault}
    (ht : s.database.hostTable name = .error f) : s.held target = none := by
  unfold held
  rw [h, Collection.kept_missing ht]

theorem held_reach_memory (h : (s.worker.source target.type).collection = .memory m) (c : Call) :
    (s.reach target.type c).2.held target = ((m.answer c).2.lookup target.id).map .entity := by
  rw [reach_memory h]
  exact held_memory (congrArg (·.collection) (s.worker.source_setSource target.type _))

theorem held_reach_table (h : (s.worker.source target.type).collection = .table name) (ht : s.database.hostTable name = .ok t)
    (c : Call) : (s.reach target.type c).2.held target = ((t.rows.answer c).2.get target.id).toOption.map .row := by
  rw [reach_table h ht]
  unfold held
  show Collection.kept _ _ (s.worker.source target.type).collection = _
  rw [h, Collection.kept_table (Database.hostTable_setHostRows ht _)]

/-- A call changes no other entity. -/
theorem held_reach_of_ne (separate : s.Separate) (h : c.subject? = some target.id) (hne : other ≠ target) :
    (s.reach target.type c).2.held other = s.held other := by
  by_cases htype : other.type = target.type
  · have hid : other.id ≠ target.id := fun hid => hne (by
      cases other
      cases target
      cases htype
      cases hid
      rfl)
    rw [← htype]
    cases hc : (s.worker.source other.type).collection with
    | memory m => rw [held_reach_memory hc, held_memory hc, Memory.lookup_answer_of_ne h hid]
    | table name =>
      cases ht : s.database.hostTable name with
      | error f => rw [reach_missing hc ht]
      | ok t => rw [held_reach_table hc ht, held_table hc ht, HostRows.get_answer_of_ne h hid]
  · unfold held
    cases hc : (s.worker.source target.type).collection with
    | memory m =>
      rw [reach_memory hc]
      show Collection.kept _ _ (Worker.source (s.worker.setSource target.type _) other.type).collection = _
      rw [Worker.source_setSource_of_ne htype]
      rfl
    | table name =>
      cases ht : s.database.hostTable name with
      | error f => rw [reach_missing hc ht]
      | ok t =>
        rw [reach_table hc ht]
        show Collection.kept _ _ (s.worker.source other.type).collection = _
        cases hc' : (s.worker.source other.type).collection with
        | memory m => rfl
        | table name' =>
          exact Collection.kept_congr (Database.hostTable_setHostRows_of_apart (separate.apart htype hc hc') _ _) _

/-- A call changes no more of its entity than what it writes. -/
theorem keeps_reach (h : c.subject? = some target.id) (s : Site) :
    Holding.Kept c.written c.labels (s.held target) ((s.reach target.type c).2.held target) := by
  cases hc : (s.worker.source target.type).collection with
  | memory m =>
    rw [held_reach_memory hc, held_memory hc]
    exact Memory.keeps_answer h m
  | table name =>
    cases ht : s.database.hostTable name with
    | error f =>
      rw [reach_missing hc ht, held_missing hc ht]
      exact .none
    | ok t =>
      rw [held_reach_table hc ht, held_table hc ht]
      exact HostRows.keeps_answer h t.rows

/-- Where the outlines agree, a call is answered from its entity alone. -/
theorem reach_of_held (h : c.subject? = some target.id) (outline : s'.outline = s.outline)
    (same : s'.held target = s.held target) :
    (s'.reach target.type c).1 = (s.reach target.type c).1 ∧
      (s'.reach target.type c).2.held target = (s.reach target.type c).2.held target := by
  cases hc : (s.worker.source target.type).collection with
  | memory m =>
    obtain ⟨m', hc'⟩ := memory_outline outline hc
    rw [held_memory hc, held_memory hc'] at same
    have hlookup : m'.lookup target.id = m.lookup target.id :=
      Option.map_injective (fun _ _ heq => Holding.entity.inj heq) same
    obtain ⟨hanswer, hafter⟩ := Memory.answer_of_lookup h hlookup
    rw [held_reach_memory hc, held_reach_memory hc', hafter, reach_memory hc, reach_memory hc']
    exact ⟨hanswer, rfl⟩
  | table name =>
    have hc' := table_outline outline hc
    have htables : (s'.database.hostTable name).map (·.outline) = (s.database.hostTable name).map (·.outline) := by
      rw [← Database.hostTable_outline, ← Database.hostTable_outline, outline_database outline]
    cases ht : s.database.hostTable name with
    | error f =>
      rw [ht] at htables
      cases ht' : s'.database.hostTable name with
      | ok t' =>
        rw [ht'] at htables
        cases htables
      | error f' =>
        rw [ht'] at htables
        cases htables
        rw [reach_missing hc ht, reach_missing hc' ht']
        exact ⟨rfl, same⟩
    | ok t =>
      rw [ht] at htables
      cases ht' : s'.database.hostTable name with
      | error f' =>
        rw [ht'] at htables
        cases htables
      | ok t' =>
        rw [held_table hc ht, held_table hc' ht'] at same
        have hget : t'.rows.get target.id = t.rows.get target.id :=
          HostRows.get_of_toOption (Option.map_injective (fun _ _ heq => Holding.row.inj heq) same)
        obtain ⟨hanswer, hafter⟩ := HostRows.answer_of_get h hget
        rw [held_reach_table hc ht, held_reach_table hc' ht', hafter, reach_table hc ht, reach_table hc' ht']
        exact ⟨hanswer, rfl⟩

theorem held_call_of_ne (separate : s.Separate) (h : c.subject? = some target.id) (hne : other ≠ target) :
    (s.call target.type c).2.held other = s.held other := by
  unfold call
  split
  · rfl
  · exact held_reach_of_ne separate h hne

theorem keeps_call (h : c.subject? = some target.id) (s : Site) :
    Holding.Kept c.written c.labels (s.held target) ((s.call target.type c).2.held target) := by
  unfold call
  split
  · exact Holding.kept_refl _
  · exact keeps_reach h s

theorem call_of_held (h : c.subject? = some target.id) (outline : s'.outline = s.outline)
    (same : s'.held target = s.held target) :
    (s'.call target.type c).1 = (s.call target.type c).1 ∧
      (s'.call target.type c).2.held target = (s.call target.type c).2.held target := by
  have hrefusal : s'.refusal? target.type c = s.refusal? target.type c := by
    rw [← refusal_outline s', outline, refusal_outline]
  unfold call
  rw [hrefusal]
  split
  · exact ⟨rfl, same⟩
  · exact reach_of_held h outline same

end Site

end Host

end Lifecycle
