import Lifecycle.Proofs.Host.Queries
import Lifecycle.Proofs.Target.Outline

/-!
# What runs leave as it is

The outline of a site is what no request of the engine changes: the clock, how collaborators answer, the templates, and the
outlines of all entities. What asks for outlines of entities is answered from it, so it is answered in the same way at any
time of a run.
-/

namespace Lifecycle

open Engine (Request Job Visit)
open Store (Database HostTable)
open Target (Memory HostRows)

/-! ### Tables of the host -/

namespace Store

def HostTable.outline (t : HostTable) : HostTable := { t with rows := t.rows.outline }

namespace Database

/-- The database without the tables of the engine, and of the host's with the outlines alone. -/
def outline (db : Database) : Database :=
  { db with executions := none, tokens := none, definitions := none, hostTables := db.hostTables.map (·.outline) }

/-- Every table of the host has a name of its own, and every row of it an identifier. -/
structure Tidy (db : Database) : Prop where
  names : (db.hostTables.map fun t => Text.lowerAscii t.name).Nodup
  rows : ∀ t ∈ db.hostTables, (t.rows.map (·.id)).Nodup

variable {db : Database} {name : String} {t : HostTable}

theorem hostTable_outline (db : Database) (name : String) :
    db.outline.hostTable name = (db.hostTable name).map (·.outline) := by
  have hfind : db.outline.hostTables.find? (HostTable.named name) =
      (db.hostTables.find? (HostTable.named name)).map (·.outline) := List.find?_map
  unfold hostTable
  rw [hfind]
  cases db.hostTables.find? (HostTable.named name) <;> rfl

theorem mem_of_hostTable (h : db.hostTable name = .ok t) : t ∈ db.hostTables ∧ HostTable.named name t = true := by
  unfold hostTable present at h
  split at h
  · rename_i found hfound
    cases h
    exact ⟨List.mem_of_find?_eq_some hfound, List.find?_some hfound⟩
  · cases h

theorem eq_of_named (names : (db.hostTables.map fun t => Text.lowerAscii t.name).Nodup) {u : HostTable}
    (ht : t ∈ db.hostTables) (hu : u ∈ db.hostTables) (hnamed : HostTable.named name t = true)
    (hnamed' : HostTable.named name u = true) : u = t := by
  have hlower : Text.lowerAscii u.name = Text.lowerAscii t.name :=
    (beq_iff_eq.1 hnamed').trans (beq_iff_eq.1 hnamed).symm
  exact List.inj_on_of_nodup_map names hu ht hlower

theorem outline_setHostRows (tidy : db.Tidy) (h : db.hostTable name = .ok t) {rows : HostRows}
    (hrows : rows.outline = t.rows.outline) : (db.setHostRows name rows).outline = db.outline := by
  obtain ⟨hmem, hnamed⟩ := mem_of_hostTable h
  unfold outline setHostRows
  dsimp only
  rw [List.map_map]
  refine congrArg (Database.mk none none none db.templates) (List.map_congr_left fun u hu => ?_)
  show HostTable.outline (if HostTable.named name u then { u with rows := rows } else u) = u.outline
  split
  · rename_i hnamed'
    rw [eq_of_named tidy.names hmem hu hnamed hnamed']
    unfold HostTable.outline
    dsimp only
    rw [hrows]
  · rfl

/-- Rows that are written back as they are change nothing. -/
theorem setHostRows_rows (names : (db.hostTables.map fun t => Text.lowerAscii t.name).Nodup) (h : db.hostTable name = .ok t) :
    db.setHostRows name t.rows = db := by
  obtain ⟨hmem, hnamed⟩ := mem_of_hostTable h
  have hrows : (db.hostTables.map fun u => if HostTable.named name u then { u with rows := t.rows } else u) =
      db.hostTables := by
    refine (List.map_congr_left fun u hu => ?_).trans (List.map_id _)
    split
    · rename_i hnamed'
      rw [eq_of_named names hmem hu hnamed hnamed']
      rfl
    · rfl
  unfold Database.setHostRows
  rw [hrows]

/-- Whether the tables are in order is told by their outlines. -/
theorem Tidy.of_outline {after : Database} (tidy : db.Tidy) (h : after.outline = db.outline) : after.Tidy := by
  have hnames (d : Database) : d.outline.hostTables.map (fun t => Text.lowerAscii t.name) =
      d.hostTables.map fun t => Text.lowerAscii t.name := by
    show (d.hostTables.map _).map _ = _
    rw [List.map_map]
    rfl
  have hids (t : HostTable) : t.outline.rows.map (·.id) = t.rows.map (·.id) := t.rows.ids_outline
  refine ⟨?_, fun t ht => ?_⟩
  · rw [← hnames, h, hnames]
    exact tidy.names
  · have hmem : t.outline ∈ db.outline.hostTables := by
      rw [← h]
      exact List.mem_map_of_mem ht
    obtain ⟨u, hu, hsame⟩ := List.mem_map.1 hmem
    rw [← hids, ← hsame, hids]
    exact tidy.rows u hu

/-- The tables of the host and the templates are the same. -/
structure SameHost (db after : Database) : Prop where
  hostTables : after.hostTables = db.hostTables
  templates : after.templates = db.templates

theorem sameHost_suspend (db : Database) (token : TokenRow) (now : Int) {b : Bool} {after : Database}
    (h : db.suspend token now = .ok (b, after)) : db.SameHost after := by
  unfold Database.suspend at h
  obtain ⟨l, -, h⟩ := bind_ok h
  dsimp only at h
  split at h
  · cases h
    exact ⟨rfl, rfl⟩
  · obtain ⟨ts, -, h⟩ := bind_ok h
    split at h <;> cases h
    exact ⟨rfl, rfl⟩

/-- Statements change the tables of the engine alone. -/
theorem sameHost_execute (q : Statement) (db : Database) : db.SameHost (q.execute db).2 := by
  unfold Statement.execute
  split
  · rename_i v after h
    cases q with
    | suspend token now => exact sameHost_suspend db token now h
    | owner key =>
      obtain ⟨l, -, h⟩ := bind_ok h
      split at h <;> cases h
      exact ⟨rfl, rfl⟩
    | _ =>
      obtain ⟨l, -, h⟩ := bind_ok h
      cases h
      exact ⟨rfl, rfl⟩
  · exact ⟨rfl, rfl⟩

theorem outline_execute (q : Statement) (db : Database) : (q.execute db).2.outline = db.outline := by
  obtain ⟨hostTables, templates⟩ := sameHost_execute q db
  unfold outline
  rw [hostTables, templates]

end Database

end Store

/-! ### Sites -/

namespace Host

def Collection.outline : Collection → Collection
  | .memory m => .memory m.outline
  | .table name => .table name

def Source.outline (s : Source) : Source := { s with collection := s.collection.outline }

/-- The worker without what it has cached, sent and requested, and of its entities the outlines alone. -/
def Worker.outline (w : Worker) : Worker :=
  { w with
    cache := []
    mailer := { w.mailer with sent := [] }
    client := { w.client with requests := [] }
    applications := w.applications.outline
    contracts := w.contracts.outline }

theorem Worker.source_outline (w : Worker) (type : TargetType) : w.outline.source type = (w.source type).outline := by
  cases type <;> rfl

theorem Worker.outline_setSource (w : Worker) (type : TargetType) {source : Source}
    (h : source.outline = (w.source type).outline) : (w.setSource type source).outline = w.outline := by
  cases type with
  | application => exact congrArg (fun source => { w.outline with applications := source }) h
  | contract => exact congrArg (fun source => { w.outline with contracts := source }) h

namespace Site

def outline (s : Site) : Site := ⟨s.database.outline, 0, s.worker.outline⟩

/-- Entities are found under identifiers, each under one of its own. -/
structure Tidy (s : Site) : Prop extends s.database.Tidy where
  memory : ∀ type m, (s.worker.source type).collection = .memory m → (m.map (·.1)).Nodup

variable {s s' : Site}

theorem outline_database (h : s'.outline = s.outline) : s'.database.outline = s.database.outline := congrArg (·.database) h

theorem outline_worker (h : s'.outline = s.outline) : s'.worker.outline = s.worker.outline := congrArg (·.worker) h

theorem outline_source (h : s'.outline = s.outline) (type : TargetType) :
    (s'.worker.source type).outline = (s.worker.source type).outline := by
  rw [← Worker.source_outline, ← Worker.source_outline, outline_worker h]

theorem clock_outline (h : s'.outline = s.outline) : s'.worker.clock = s.worker.clock := congrArg (·.worker.clock) h

theorem Tidy.of_outline (tidy : s.Tidy) (h : s'.outline = s.outline) : s'.Tidy := by
  refine ⟨tidy.toTidy.of_outline (outline_database h), fun type m hm => ?_⟩
  have hsource := congrArg (·.collection) (outline_source h type)
  replace hsource : (s'.worker.source type).collection.outline = (s.worker.source type).collection.outline := hsource
  rw [hm] at hsource
  cases hc : (s.worker.source type).collection with
  | table name =>
    rw [hc] at hsource
    cases hsource
  | memory m' =>
    rw [hc] at hsource
    have hsame : m.outline = m'.outline := by injection hsource
    rw [← Memory.names_outline, hsame, Memory.names_outline]
    exact tidy.memory type m' hc

/-! ### Calls -/

theorem outline_reach (tidy : s.Tidy) (type : TargetType) (c : Target.Call) : (s.reach type c).2.outline = s.outline := by
  unfold reach
  dsimp only
  split
  · rename_i m hm
    refine congrArg (Site.mk s.database.outline 0) (s.worker.outline_setSource type ?_)
    unfold Source.outline
    rw [hm]
    exact congrArg (fun m => Source.mk (.memory m) _) (m.outline_answer c)
  · rename_i name _
    split
    · rfl
    · rename_i t ht
      obtain ⟨hmem, -⟩ := Database.mem_of_hostTable ht
      refine congrArg (fun db => Site.mk db 0 s.worker.outline) ?_
      exact Database.outline_setHostRows tidy.toTidy ht (HostRows.outline_answer (tidy.rows t hmem) c)

theorem outline_call (tidy : s.Tidy) (type : TargetType) (c : Target.Call) : (s.call type c).2.outline = s.outline := by
  unfold call
  split
  · rfl
  · exact outline_reach tidy type c

/-- What only asks changes nothing. -/
theorem call_reads (names : (s.database.hostTables.map fun t => Text.lowerAscii t.name).Nodup) (type : TargetType)
    {c : Target.Call} (h : c.Reads) : (s.call type c).2 = s := by
  unfold call
  split
  · rfl
  · unfold reach
    dsimp only
    split
    · rename_i m hm
      have hsource : (⟨.memory m, (s.worker.source type).access⟩ : Host.Source) = s.worker.source type := by rw [← hm]
      show s.setWorker (s.worker.setSource type ⟨.memory (m.answer c).2, (s.worker.source type).access⟩) = s
      rw [Memory.answer_reads h, hsource]
      cases type <;> rfl
    · rename_i name _
      split
      · rfl
      · rename_i t ht
        show { s with database := s.database.setHostRows name (t.rows.answer c).2 } = s
        rw [HostRows.answer_reads h, Database.setHostRows_rows names ht]

theorem refusal_outline (s : Site) (type : TargetType) (c : Target.Call) : s.outline.refusal? type c = s.refusal? type c := by
  have hsource : s.outline.worker.source type = (s.worker.source type).outline := s.worker.source_outline type
  unfold refusal?
  rw [hsource]
  rfl

/-- What asks for outlines is answered from the outline of the site. -/
theorem call_outline (s : Site) (type : TargetType) {c : Target.Call} (h : c.Standing) :
    (s.outline.call type c).1 = (s.call type c).1 := by
  unfold call
  rw [refusal_outline]
  split
  · rfl
  · unfold reach
    have hsource : s.outline.worker.source type = (s.worker.source type).outline := s.worker.source_outline type
    rw [hsource]
    unfold Source.outline
    dsimp only
    cases (s.worker.source type).collection with
    | memory m => exact m.answer_outline h
    | table name =>
      have htable : s.outline.database.hostTable name = (s.database.hostTable name).map (·.outline) :=
        s.database.hostTable_outline name
      dsimp only [Collection.outline]
      rw [htable]
      cases s.database.hostTable name with
      | error f => rfl
      | ok t => exact t.rows.answer_outline h

theorem call_of_outline (h : s'.outline = s.outline) (type : TargetType) {c : Target.Call} (hc : c.Standing) :
    (s'.call type c).1 = (s.call type c).1 := by
  rw [← call_outline s' type hc, h, call_outline s type hc]

/-! ### Everything else -/

theorem outline_deliver (s : Site) (m : Mail.Message) : (s.deliver m).2.outline = s.outline := by
  unfold deliver
  dsimp only
  split <;> rfl

theorem outline_before (s : Site) (r : Handling.Request) : (s.before r).outline = s.outline := by
  cases r <;> rfl

theorem outline_after (tidy : s.Tidy) (r : Handling.Request) : (after r s).2.outline = s.outline := by
  cases r with
  | target type c => exact outline_call tidy type c
  | deliver m =>
    refine (outline_deliver _ m).trans ?_
    split <;> rfl
  | _ => rfl

/-- Sites that are in order stay so as long as their outlines do. -/
theorem steady_outline : Steady fun s s' => s.Tidy → s'.outline = s.outline :=
  (Steady.of_same Site.outline).under fun h tidy => tidy.of_outline h

theorem outline_visit (tidy : s.Tidy) (v : Visit) : (s.visit v).2.outline = s.outline :=
  steady_outline.visit (fun s r _ _ => s.outline_before r) (fun _ r _ tidy => outline_after tidy r) (Program.only_true _) tidy

theorem outline_answer (tidy : s.Tidy) (r : Request) : (answer r s).2.outline = s.outline := by
  cases r with
  | target type c => exact outline_call tidy type c
  | visit v => exact outline_visit tidy v
  | statement q => exact congrArg (fun db => Site.mk db 0 s.worker.outline) (Database.outline_execute q s.database)
  | _ => rfl

/-- No job changes the outline of the site. -/
theorem outline_perform (tidy : s.Tidy) {α : Type} (p : Job α) : (s.perform p).2.outline = s.outline :=
  steady_outline.perform (fun _ r _ tidy => outline_answer tidy r) p.only_true s tidy

end Site

end Host

end Lifecycle
