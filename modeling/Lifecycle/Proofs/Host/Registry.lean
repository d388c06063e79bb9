import Lifecycle.Host.Startup
import Lifecycle.Proofs.Ascending
import Lifecycle.Proofs.Host.Queries
import Lifecycle.Proofs.Workflow.Graph
import Lifecycle.Proofs.Workflow.Storage

/-!
# What workflows are looked up in

The registry of a site is its table of definitions with the workflows that its worker has cached. Only what looks up
workflows or changes definitions touches it; all else goes the same way at sites that differ in their registries. A
lookup is a function of the registry.
-/

namespace Lifecycle

open Engine (Request Job Visit Outcome)
open Store (Database Definitions DefinitionRow)

/-- The table of definitions, if it is there, and the workflows cached. -/
structure Host.Registry where
  stored : Option Definitions
  cached : List (String × Workflow)

/-- Neither definitions nor cached workflows are read or written. -/
def Engine.Request.Apart : Request → Prop
  | .now | .fresh | .target _ _ | .visit _ => True
  | .statement .definitions | .statement (.definition _) | .statement (.saveDefinition _)
  | .statement (.deleteDefinition _) => False
  | .statement _ => True
  | .cached _ | .cachedAll | .cache _ | .uncache _ | .cacheOnly _ => False

namespace Host.Site

variable (s : Site) (g : Registry)

def registry : Registry := ⟨s.database.definitions, s.worker.cache⟩

/-- The site with another registry. -/
def withRegistry : Site :=
  { s with
    database := { s.database with definitions := g.stored }
    worker := { s.worker with cache := g.cached } }

/-- The site with other workflows cached. -/
def withCache (c : List (String × Workflow)) : Site := s.withRegistry { s.registry with cached := c }

/-! ### What goes the same way with another registry -/

theorem source_withRegistry (type : TargetType) : (s.withRegistry g).worker.source type = s.worker.source type := by
  cases type <;> rfl

theorem reach_withRegistry (type : TargetType) (c : Target.Call) :
    (s.withRegistry g).reach type c = ((s.reach type c).1, (s.reach type c).2.withRegistry g) := by
  unfold reach
  rw [source_withRegistry]
  dsimp only
  split
  · cases type <;> rfl
  · rename_i name _
    have ht : (s.withRegistry g).database.hostTable name = s.database.hostTable name := rfl
    rw [ht]
    cases s.database.hostTable name <;> rfl

theorem call_withRegistry (type : TargetType) (c : Target.Call) :
    (s.withRegistry g).call type c = ((s.call type c).1, (s.call type c).2.withRegistry g) := by
  unfold call
  have hr : (s.withRegistry g).refusal? type c = s.refusal? type c := by
    unfold refusal?
    rw [source_withRegistry]
  rw [hr]
  split
  · rfl
  · exact s.reach_withRegistry g type c

theorem deliver_withRegistry (m : Mail.Message) :
    (s.withRegistry g).deliver m = ((s.deliver m).1, (s.deliver m).2.withRegistry g) := by
  have hm : (s.withRegistry g).worker.mailer = s.worker.mailer := rfl
  unfold deliver
  rw [hm]
  dsimp only
  cases (if s.worker.mailer.checksRecipient then Mail.checkRecipient m.recipient else .ok ()) with
  | error f => rfl
  | ok checked => cases s.worker.mailer.failure <;> rfl

theorem before_withRegistry (r : Handling.Request) : (s.withRegistry g).before r = (s.before r).withRegistry g := by
  cases r <;> rfl

theorem latency_withRegistry (r : Handling.Request) : (s.withRegistry g).latency r = s.latency r := by
  cases r with
  | target type c => exact congrArg (·.access.latency) (s.source_withRegistry g type)
  | _ => rfl

theorem after_withRegistry (r : Handling.Request) :
    after r (s.withRegistry g) = ((after r s).1, (after r s).2.withRegistry g) := by
  cases r with
  | now => rfl
  | target type c => exact s.call_withRegistry g type c
  | template id => rfl
  | deliver m =>
    have hm : (if (s.withRegistry g).worker.mailer.interferes then (s.withRegistry g).interfere else s.withRegistry g) =
        (if s.worker.mailer.interferes then s.interfere else s).withRegistry g := by
      show (if s.worker.mailer.interferes then _ else _) = _
      split <;> rfl
    show Site.deliver _ m = _
    rw [hm]
    exact deliver_withRegistry _ g m
  | send r => rfl

theorem within_withRegistry {α : Type} (p : Program Handling.interface α) (limit : Option Nat) (waited : Nat) :
    within limit waited p (s.withRegistry g) =
      ((within limit waited p s).1, (within limit waited p s).2.withRegistry g) := by
  induction p generalizing waited s with
  | done a => rfl
  | ask r next ih =>
    have hb := s.before_withRegistry g r
    have hl := (s.before r).latency_withRegistry g r
    have ha := (s.before r).after_withRegistry g r
    unfold within
    dsimp only at hb hl ha ⊢
    rw [hb, hl, ha]
    by_cases hw : (limit.any fun x => decide (x < waited + (s.before r).latency r)) = true
    · rw [if_pos hw, if_pos hw]
    · rw [if_neg hw, if_neg hw]
      exact ih _ _ _

theorem visit_withRegistry (v : Visit) :
    (s.withRegistry g).visit v = ((s.visit v).1, (s.visit v).2.withRegistry g) := by
  have hw := s.within_withRegistry g (Handling.handle s.worker.types v).run (s.worker.timeouts.limit? v.step.kind.type) 0
  have ht : (s.withRegistry g).worker.timeouts = s.worker.timeouts := rfl
  have hy : (s.withRegistry g).worker.types = s.worker.types := rfl
  unfold visit
  rw [ht, hy]
  dsimp only
  rw [hw]
  cases within (s.worker.timeouts.limit? v.step.kind.type) 0 (Handling.handle s.worker.types v).run s with
  | mk result s' => cases result <;> rfl

/-- A statement about executions or tokens goes the same way with other definitions. -/
theorem execute_withDefinitions {q : Store.Statement} (hq : Request.Apart (.statement q)) (db : Database)
    (ds : Option Definitions) :
    q.execute { db with definitions := ds } = ((q.execute db).1, { (q.execute db).2 with definitions := ds }) := by
  have of_apply (ha : q.apply { db with definitions := ds } =
      (q.apply db).map fun x => (x.1, { x.2 with definitions := ds })) :
      q.execute { db with definitions := ds } = ((q.execute db).1, { (q.execute db).2 with definitions := ds }) := by
    unfold Store.Statement.execute
    rw [ha]
    cases q.apply db <;> rfl
  refine of_apply ?_
  obtain ⟨executions, tokens, definitions, templates, hostTables⟩ := db
  cases q with
  | definitions => exact hq.elim
  | definition id => exact hq.elim
  | saveDefinition row => exact hq.elim
  | deleteDefinition id => exact hq.elim
  | owner key =>
    cases executions with
    | none => rfl
    | some l =>
      simp only [Store.Statement.apply, Store.present, bind, Except.bind]
      cases l.owner? key <;> rfl
  | suspend token now =>
    cases executions with
    | none => rfl
    | some l =>
      show Database.suspend _ token now = Except.map _ (Database.suspend _ token now)
      show (if !(l.advance token.executionId .suspended now none).1 then _ else _) =
        Except.map _ (if !(l.advance token.executionId .suspended now none).1 then _ else _)
      split
      · rfl
      · cases tokens with
        | none => rfl
        | some ts =>
          show (if ts.any (·.id == token.id) then _ else _) = Except.map _ (if ts.any (·.id == token.id) then _ else _)
          split <;> rfl
  | due _ _ => cases tokens <;> rfl
  | claim _ => cases tokens <;> rfl
  | tokensOf _ => cases tokens <;> rfl
  | _ => cases executions <;> rfl

theorem answer_withRegistry {r : Request} (hr : r.Apart) :
    answer r (s.withRegistry g) = ((answer r s).1, (answer r s).2.withRegistry g) := by
  cases r with
  | now => rfl
  | fresh => rfl
  | target type c => exact s.call_withRegistry g type c
  | visit v => exact s.visit_withRegistry g v
  | statement q =>
    have hq := execute_withDefinitions hr s.database g.stored
    show ((q.execute { s.database with definitions := g.stored }).1,
      { s.withRegistry g with database := (q.execute { s.database with definitions := g.stored }).2 }) = _
    rw [hq]
    rfl
  | _ => exact hr.elim

/-- What leaves the registry alone leaves it as it is. -/
theorem registry_answer {r : Request} (hr : r.Apart) : (answer r s).2.registry = s.registry :=
  congrArg (·.2.registry) (s.answer_withRegistry s.registry hr)

theorem registry_of_only {α : Type} {p : Job α} (hp : p.Only Request.Apart) : (s.perform p).2.registry = s.registry :=
  (Steady.of_same registry).perform (fun s _ hr => s.registry_answer hr) hp s

theorem answer_withCache {r : Request} (hr : r.Apart) (c : List (String × Workflow)) :
    answer r (s.withCache c) = ((answer r s).1, (answer r s).2.withCache c) := by
  unfold withCache
  rw [answer_withRegistry s _ hr, registry_answer s hr]

end Host.Site

/-! ### Cached workflows -/

namespace Host.Worker

variable {key : String} {w : Workflow} {c : List (String × Workflow)} {e : String × Workflow}

theorem insertWorkflow_eq (key : String) (w : Workflow) (c : List (String × Workflow)) :
    insertWorkflow key w c = putAscending key w c := by
  induction c with
  | nil => rfl
  | cons m c ih => rw [insertWorkflow, putAscending, ih]

theorem mem_of_mem_insertWorkflow (h : e ∈ insertWorkflow key w c) : e = (key, w) ∨ e ∈ c :=
  mem_of_mem_putAscending (insertWorkflow_eq key w c ▸ h)

theorem lookup_insertWorkflow (key : String) (w : Workflow) (c : List (String × Workflow)) (id : String) :
    (insertWorkflow key w c).lookup id = if id = key then some w else c.lookup id := by
  rw [insertWorkflow_eq, lookup_putAscending]

/-- Workflows cached one after the other. -/
def insertAll (entries : List (String × Workflow)) : List (String × Workflow) :=
  entries.foldl (fun c e => insertWorkflow e.1 e.2 c) []

theorem insertAll_eq (entries : List (String × Workflow)) : insertAll entries = putAll entries := by
  unfold insertAll putAll
  simp only [insertWorkflow_eq]

theorem mem_of_mem_insertAll {entries : List (String × Workflow)} (h : e ∈ insertAll entries) : e ∈ entries :=
  mem_of_mem_putAll (insertAll_eq entries ▸ h)

end Host.Worker

/-! ### Lookups -/

namespace Host.Registry

variable (g : Registry)

/-- The row of an identifier. -/
def row (id : String) : Except Store.Fault (Option DefinitionRow) :=
  g.stored.elim (.error (.noTable Store.definitionsName)) fun ds => .ok (ds.get? id)

/-- The definition stored under an identifier. -/
def find (id : String) : Except StorageFault (Option Definition) :=
  match g.row id with
  | .error f => .error (.store f)
  | .ok none => .ok none
  | .ok (some row) => ((Definition.ofText row.definition).map some).mapError (.undecodable row.definition)

variable {g} {ds : Definitions} {id : String}

theorem row_eq (h : g.stored = some ds) (id : String) : g.row id = .ok (ds.get? id) := by
  unfold row
  rw [h]
  rfl

theorem find_eq_none (h : g.row id = .ok none) : g.find id = .ok none := by
  unfold find
  rw [h]

theorem find_eq_store {f : Store.Fault} (h : g.row id = .error f) : g.find id = .error (.store f) := by
  unfold find
  rw [h]

theorem find_eq_undecodable {row : DefinitionRow} {f : Json.Fault} (h : g.row id = .ok (some row))
    (hd : Definition.ofText row.definition = .error f) : g.find id = .error (.undecodable row.definition f) := by
  unfold find
  rw [h]
  dsimp only
  rw [hd]
  rfl

theorem find_eq_some {row : DefinitionRow} {d : Definition} (h : g.row id = .ok (some row))
    (hd : Definition.ofText row.definition = .ok d) : g.find id = .ok (some d) := by
  unfold find
  rw [h]
  dsimp only
  rw [hd]
  rfl

variable (g)

/-- The workflow of an identifier, and the workflows that are cached then. -/
def current (id : String) : Option Workflow × List (String × Workflow) :=
  match g.find id with
  | .ok (some d) => match Workflow.ofDefinition d with
    | .ok w => (some w, Worker.insertWorkflow w.id w g.cached)
    | .error _ => (g.cached.lookup id, g.cached)
  | .ok none => (none, g.cached.filter (·.1 != id))
  | .error _ => (g.cached.lookup id, g.cached)

variable {g} in
/-- A stored definition without a defect is cached under its own identifier. -/
theorem current_eq_some {d : Definition} {w : Workflow} (h : g.find id = .ok (some d)) (hw : Workflow.ofDefinition d = .ok w) :
    g.current id = (some w, Worker.insertWorkflow w.id w g.cached) := by
  unfold current
  rw [h]
  dsimp only
  rw [hw]

/-- The workflows of the definitions that have no defect, under the identifiers of their rows. -/
def workflows (ds : Definitions) : List (String × Workflow) :=
  (ds.filterMap fun r => (Definition.ofText r.definition).toOption.map (r.id, ·)).filterMap fun (id, d) =>
    (Workflow.ofDefinition d).toOption.map (id, ·)

theorem mem_workflows {e : String × Workflow} (h : e ∈ workflows ds) :
    ∃ row ∈ ds, ∃ d, row.id = e.1 ∧ Definition.ofText row.definition = .ok d ∧ Workflow.ofDefinition d = .ok e.2 := by
  obtain ⟨⟨id, d⟩, hd, hw⟩ := List.mem_filterMap.1 h
  obtain ⟨row, hrow, hr⟩ := List.mem_filterMap.1 hd
  obtain ⟨d', hd', hpair⟩ := Option.map_eq_some_iff.1 hr
  obtain ⟨w, hw', rfl⟩ := Option.map_eq_some_iff.1 hw
  obtain ⟨rfl, rfl⟩ := Prod.mk.inj hpair
  exact ⟨row, hrow, d', rfl, toOption_ok hd', toOption_ok hw'⟩

theorem workflows_cons {d : Definition} {w : Workflow} (h : d.Storable) (hw : Workflow.ofDefinition d = .ok w)
    (ds : Definitions) : workflows (.ofDefinition d :: ds) = (d.id, w) :: workflows ds := by
  have hread : (Definition.ofText (DefinitionRow.ofDefinition d).definition).toOption.map ((DefinitionRow.ofDefinition d).id, ·) =
      some (d.id, d) := by
    show (Definition.ofText d.text).toOption.map (d.id, ·) = _
    rw [Definition.ofText_text h]
    rfl
  have hcompiled : (Workflow.ofDefinition d).toOption.map (d.id, ·) = some (d.id, w) := by
    rw [hw]
    rfl
  simp only [workflows, List.filterMap_cons, hread, hcompiled]

/-- The workflows that are cached once all definitions have been read. -/
def refreshed : List (String × Workflow) := g.stored.elim g.cached fun ds => Worker.insertAll (workflows ds)

theorem refreshed_eq {ds : Definitions} (h : g.stored = some ds) : g.refreshed = Worker.insertAll (workflows ds) := by
  unfold refreshed
  rw [h]
  rfl

end Host.Registry

namespace Host.Site

variable (s : Site)

theorem answer_definition (id : String) : answer (.statement (.definition id)) s = (s.registry.row id, s) := by
  obtain ⟨⟨executions, tokens, definitions, templates, hostTables⟩, serial, worker⟩ := s
  cases definitions <;> rfl

theorem perform_getDefinition (id : String) : s.perform (Engine.getDefinition id).run = (s.registry.find id, s) := by
  refine (s.perform_ask (s.answer_definition id)).trans ?_
  unfold Registry.find
  match s.registry.row id with
  | .error _ => rfl
  | .ok none => rfl
  | .ok (some _) => rfl

theorem perform_currentWorkflow (id : String) : s.perform (Engine.currentWorkflow id) =
    ((s.registry.current id).1, s.withCache (s.registry.current id).2) := by
  unfold Engine.currentWorkflow Registry.current
  rw [perform_bind, perform_getDefinition]
  match s.registry.find id with
  | .ok none => rfl
  | .error _ => rfl
  | .ok (some d) =>
    show s.perform (Engine.cacheDefinition d >>= _) = _
    rw [perform_bind]
    unfold Engine.cacheDefinition
    dsimp only
    cases Workflow.ofDefinition d <;> rfl

theorem perform_cacheAll : (s.perform Engine.cacheAll.run).2 = s.withCache s.registry.refreshed := by
  obtain ⟨⟨executions, tokens, definitions, templates, hostTables⟩, serial, worker⟩ := s
  cases definitions <;> rfl

theorem perform_activeNow (type : TriggerType) : s.perform (Engine.activeNow type) =
    (Engine.activeAmong type (s.registry.refreshed.map (·.2)), s.withCache s.registry.refreshed) := by
  unfold Engine.activeNow
  rw [perform_bind, perform_cacheAll]
  rfl

end Host.Site

/-! ### The smallest sites -/

namespace Lone

/-- Storage with one definition, and one execution of it that is suspended and due. -/
def database (active : Bool) : Database where
  executions := some [⟨some "e", "new", "contract", "1", "status_changed", "suspended", .int 0, none, none, .int 0, none, .int 0⟩]
  tokens := some [⟨some "k", "e", "t", .int 0, (Context.ofChange "draft" "signed").toJson.print, .int 0⟩]
  definitions := some [.ofDefinition (definition "new" active)]
  templates := some []
  hostTables := []

def worker : Host.Worker := Host.Startup.worker .epoch "applications" "contracts"

def site (active : Bool) : Host.Site := ⟨database active, 0, worker⟩

end Lone

end Lifecycle
