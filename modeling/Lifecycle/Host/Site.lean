import Lifecycle.Host.Worker

/-!
The answers of a site to the requests of the engine and of its handlers. A handler whose waiting
exceeds its limit is given up, with what it did until then.
-/

namespace Lifecycle.Host

open Engine (Visit Outcome)

namespace Site

/-! ### Parts -/

def setWorker (s : Site) (w : Worker) : Site := { s with worker := w }

/-- An identifier; later ones are greater as texts. -/
def identifier (serial : Nat) : String := "00000000-0000-4000-8000-" ++ Text.padded 12 serial

/-- A statement of the database. -/
def execute (s : Site) (q : Store.Statement) : Except Store.Fault q.Value × Site :=
  let (answer, db) := q.execute s.database
  (answer, { s with database := db })

/-! ### Entities -/

/-- A call on the entities of a type, as they are kept. -/
def reach (s : Site) (type : TargetType) (c : Target.Call) : c.Answer × Site :=
  let source := s.worker.source type
  match source.collection with
  | .memory m =>
    let (answer, m) := m.answer c
    (answer, s.setWorker (s.worker.setSource type { source with collection := .memory m }))
  | .table name => match s.database.hostTable name with
    | .error f => (.error (.store f), s)
    | .ok t =>
      let (answer, rows) := t.rows.answer c
      (answer, { s with database := s.database.setHostRows name rows })

/-- Why a call does not come through. -/
def refusal? (s : Site) (type : TargetType) (c : Target.Call) : Option String :=
  let access := (s.worker.source type).access
  access.failure.filter fun _ => access.only.all (· == c.operation)

/-- A call on the entities of a type. -/
def call (s : Site) (type : TargetType) (c : Target.Call) : c.Answer × Site :=
  match s.refusal? type c with
  | some message => (.error (.refused message), s)
  | none => s.reach type c

/-! ### Templates, mail and requests -/

def template (s : Site) (id : String) : Except Mail.TemplateFault Mail.Source :=
  match s.worker.templates with
  | some ts => match ts.lookup id with
    | some t => .ok t
    | none => .error (.notFound id)
  | none => match s.database.templates with
    | none => .error (.store (.noTable Store.templatesName))
    | some rows => match rows.find? (·.id == id) with
      | some r => .ok ⟨r.subject, r.body⟩
      | none => .error (.notFound id)

/-- Every running execution failed by somebody else, at the moment of a delivery. -/
def interfere (s : Site) : Site :=
  let failed (r : Store.ExecutionRow) : Store.ExecutionRow :=
    if r.status == Status.running.name then
      r.moved .failed s.worker.clock.floorMillis (some ⟨"hook", "failed elsewhere"⟩)
    else r
  { s with database := { s.database with executions := s.database.executions.map (·.map failed) } }

def deliver (s : Site) (m : Mail.Message) : Except Mail.DeliveryFault Unit × Site :=
  let mailer := s.worker.mailer
  match (if mailer.checksRecipient then Mail.checkRecipient m.recipient else .ok ()), mailer.failure with
  | .error f, _ => (.error f, s)
  | .ok (), some message => (.error ⟨message⟩, s)
  | .ok (), none => (.ok (), s.setWorker { s.worker with mailer := { mailer with sent := mailer.sent ++ [m] } })

def response (s : Site) (r : Http.Outbound) : Except Http.NetworkFault Http.Response :=
  if !s.worker.client.connected then .error r.refusal
  else match s.worker.client.failure with
  | some message => .error (.told message)
  | none => .ok ⟨s.worker.client.status, .obj []⟩

/-! ### Handlers -/

/-- How long an answer takes. -/
def latency (s : Site) : Handling.Request → Nat
  | .target type _ => (s.worker.source type).access.latency
  | .deliver _ => s.worker.mailer.latency
  | .send _ => s.worker.client.latency
  | .now | .template _ => 0

/-- What happens before the wait: a request is on its way. -/
def before (s : Site) : Handling.Request → Site
  | .send r =>
    let client := s.worker.client
    s.setWorker { s.worker with client := { client with requests := client.requests ++ [r] } }
  | .now | .target _ _ | .template _ | .deliver _ => s

/-- The answer after the wait. -/
def after : (r : Handling.Request) → Site → r.Answer × Site
  | .now, s => (s.worker.clock, s)
  | .target type c, s => s.call type c
  | .template id, s => (s.template id, s)
  | .deliver m, s => (if s.worker.mailer.interferes then s.interfere else s).deliver m
  | .send r, s => (s.response r, s)

/-- A program of requests run within a limit; nothing if it waits longer. -/
def within (limit : Option Nat) {α : Type} : Nat → Program Handling.interface α → Site → Option α × Site
  | _, .done a, s => (some a, s)
  | waited, .ask r next, s =>
    let s := s.before r
    let waited := waited + s.latency r
    if limit.any (· < waited) then (none, s)
    else
      let (answer, s) := after r s
      within limit waited (next answer) s

/-- The visit of a node within the limit of its type. -/
def visit (s : Site) (v : Visit) : Except HandlerFault Outcome × Site :=
  let limit := s.worker.timeouts.limit? v.step.kind.type
  match within limit 0 (Handling.handle s.worker.types v).run s with
  | (some result, s) => (result, s)
  | (none, s) => (.error (.timeout v.step.kind.type (limit.getD 0)), s)

/-! ### The engine -/

/-- The answer to a request of the engine. -/
def answer : (r : Engine.Request) → Site → r.Answer × Site
  | .now, s => (s.worker.clock, s)
  | .fresh, s => (identifier (s.serial + 1), { s with serial := s.serial + 1 })
  | .statement q, s => s.execute q
  | .cached id, s => (s.worker.cache.lookup id, s)
  | .cachedAll, s => (s.worker.cache, s)
  | .cache w, s => ((), s.setWorker { s.worker with cache := Worker.insertWorkflow w.id w s.worker.cache })
  | .uncache id, s => ((), s.setWorker { s.worker with cache := s.worker.cache.filter (·.1 != id) })
  | .cacheOnly entries, s =>
    ((), s.setWorker { s.worker with cache := entries.foldl (fun c e => Worker.insertWorkflow e.1 e.2 c) [] })
  | .target type c, s => s.call type c
  | .visit v, s => s.visit v

/-- A job of the engine, done at a site. -/
def perform {α : Type} (s : Site) (job : Engine.Job α) : α × Site := job.run answer s

end Site

end Lifecycle.Host
