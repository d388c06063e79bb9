import Lifecycle.Proofs.Host.Twins

/-!
# Caches do not show

While all stored definitions can be read and have no defect, what a worker has cached does not show: an event, a scan, a
sweep, a token and a request are handled with the same result, and with the same effects on everything but the cache.
Scans and events read all definitions first, resumptions read the one that they need, and all else reads no cache.
-/

namespace Lifecycle

open Engine
open Host (Site Registry Worker)
open Program (Only)
open Store (Database Definitions)

/-- All of them can be read and have no defect. -/
def Store.Definitions.Sound (ds : Definitions) : Prop :=
  ∀ row ∈ ds, ∃ d w, Definition.ofText row.definition = .ok d ∧ Workflow.ofDefinition d = .ok w

/-- Cached workflows are not read. -/
def Engine.Request.Blind : Request → Prop
  | .cached _ | .cachedAll => False
  | _ => True

theorem Engine.Request.Apart.blind {r : Request} (h : r.Apart) : r.Blind := by
  cases r with
  | cached id => exact h
  | cachedAll => exact h
  | _ => trivial

/-! ### Agreement -/

/-- With other workflows cached the job has the same result and the same effects on everything but the cache. -/
def Host.Site.Agrees (s : Site) (c : List (String × Workflow)) {α : Type} (job : Job α) : Prop :=
  ∃ c', (s.withCache c).perform job = ((s.perform job).1, (s.perform job).2.withCache c')

namespace Host.Site

variable {s : Site} {c : List (String × Workflow)} {α β : Type}

theorem Agrees.bind {p : Job α} {f : α → Job β} (hp : s.Agrees c p)
    (hf : ∀ c', (s.perform p).2.Agrees c' (f (s.perform p).1)) : s.Agrees c (p >>= f) := by
  obtain ⟨c', hp⟩ := hp
  obtain ⟨c'', hf⟩ := hf c'
  refine ⟨c'', ?_⟩
  rw [perform_bind, perform_bind, hp]
  exact hf

theorem agrees_done (a : α) : s.Agrees c (.done a) := ⟨c, rfl⟩

theorem agrees_request {r : Request} (hr : r.Blind) : s.Agrees c (Program.call (P := interface) r) := by
  cases r with
  | cached id => exact hr.elim
  | cachedAll => exact hr.elim
  | cache w => exact ⟨Worker.insertWorkflow w.id w c, rfl⟩
  | uncache id => exact ⟨c.filter (·.1 != id), rfl⟩
  | cacheOnly entries => exact ⟨entries.foldl (fun c e => Worker.insertWorkflow e.1 e.2 c) [], rfl⟩
  | statement q => exact ⟨c, rfl⟩
  | now => exact ⟨c, rfl⟩
  | fresh => exact ⟨c, rfl⟩
  | target type call => exact ⟨c, s.answer_withCache (r := .target type call) trivial c⟩
  | visit v => exact ⟨c, s.answer_withCache (r := .visit v) trivial c⟩

theorem agrees_of_blind {p : Job α} (hp : p.Only Request.Blind) : s.Agrees c p := by
  induction p generalizing s c with
  | done a => exact agrees_done a
  | ask r next ih =>
    exact Agrees.bind (p := Program.call (P := interface) r) (agrees_request hp.1) fun _ => ih _ (hp.2 _)

/-- What begins with reading all definitions does not depend on what was cached before. -/
theorem agrees_activeNow {ds : Definitions} (hds : s.database.definitions = some ds) (type : TriggerType)
    (f : List Workflow → Job α) : s.Agrees c (activeNow type >>= f) := by
  have hactive : (s.withCache c).perform (activeNow type) = s.perform (activeNow type) := by
    rw [perform_activeNow, perform_activeNow]
    have hr : (s.withCache c).registry.refreshed = s.registry.refreshed := by
      show (s.database.definitions).elim c _ = (s.database.definitions).elim _ _
      rw [hds]
      rfl
    rw [hr]
    rfl
  refine ⟨((s.perform (activeNow type >>= f)).2).worker.cache, ?_⟩
  rw [perform_bind, perform_bind, hactive]
  rfl

/-- The definitions are the same in both, and sound. -/
structure SameDefinitions (g h : Registry) : Prop where
  stored : h.stored = g.stored
  sound : ∃ ds, g.stored = some ds ∧ Store.Definitions.Sound ds

/-- A stored definition is found with its workflow. -/
theorem find_of_sound {g : Registry} (hg : ∃ ds, g.stored = some ds ∧ Store.Definitions.Sound ds) (id : String) :
    g.find id = .ok none ∨ ∃ d w, g.find id = .ok (some d) ∧ Workflow.ofDefinition d = .ok w := by
  obtain ⟨ds, hds, sound⟩ := hg
  have hrow := Registry.row_eq hds id
  cases hfound : ds.get? id with
  | none => exact .inl (Registry.find_eq_none (hrow.trans (congrArg _ hfound)))
  | some row =>
    obtain ⟨d, w, hd, hw⟩ := sound row (List.mem_of_find?_eq_some hfound)
    exact .inr ⟨d, w, Registry.find_eq_some (hrow.trans (congrArg _ hfound)) hd, hw⟩

/-- Workflows are looked up in storage, whatever is cached. -/
theorem twins_currentWorkflow (id : String) :
    Twins SameDefinitions (currentWorkflow id) (currentWorkflow id) (Option.Rel Workflow.Alike) := by
  intro s s' hs
  have hfind : s'.registry.find id = s.registry.find id := by
    unfold Registry.find Registry.row
    rw [hs.registries.stored]
  rw [perform_currentWorkflow, perform_currentWorkflow]
  refine ⟨?_, hs.withCache ⟨hs.registries.stored, hs.registries.sound⟩⟩
  unfold Registry.current
  rw [hfind]
  rcases find_of_sound hs.registries.sound id with hf | ⟨d, w, hf, hw⟩
  · rw [hf]
    exact .none
  · rw [hf]
    dsimp only
    rw [hw]
    exact .some (.refl w)

/-- A job that goes the same way at sites with related registries does so with other workflows cached, if that leaves the
registries related. -/
theorem agrees_of_related {L : Registry → Registry → Prop} (stored : ∀ g h, L g h → h.stored = g.stored) {p : Job α}
    (hp : Twins L p p Eq) (h : L s.registry { s.registry with cached := c }) : s.Agrees c p := by
  obtain ⟨hresult, hpaired⟩ := hp s (s.withCache c) (paired_withRegistry h)
  have hafter := hpaired.eq_withCache (stored _ _ hpaired.registries)
  exact ⟨((s.withCache c).perform p).2.worker.cache, Prod.ext hresult.symm hafter⟩

theorem agrees_of_twins {p : Job α} (hp : Twins SameDefinitions p p Eq) {ds : Definitions}
    (hds : s.database.definitions = some ds) (sound : Store.Definitions.Sound ds) : s.Agrees c p :=
  agrees_of_related (fun _ _ h => h.stored) hp ⟨rfl, ds, hds, sound⟩

end Host.Site

/-! ### Requests to a server -/

namespace Web

/-- A request served, and the event dispatched that it reports. -/
def handled (types : List TargetType) (batch : Nat) (r : Request) : Job (Reply × Option DispatchTally) := do
  let reply ← serve types batch r
  match reply.event with
  | none => return (reply, none)
  | some e => return (reply, some (← dispatch e))

theorem blind_keep (d : Definition) (done : Reply) : (keep d done).Only Engine.Request.Blind := by
  refine (only_stored (q := .saveDefinition _) trivial).bind fun saved => ?_
  cases saved with
  | error f => trivial
  | ok u =>
    refine (only_cacheDefinition (fun _ => trivial) d).bind fun w => ?_
    cases w <;> trivial

theorem blind_create (d : Definition) : (create d).Only Engine.Request.Blind := by
  unfold create
  split
  · trivial
  · refine (only_getDefinition trivial).bind fun found => ?_
    match found with
    | .error _ => trivial
    | .ok (some _) => trivial
    | .ok none => exact blind_keep d _

theorem blind_replace (id : String) (d : Definition) : (replace id d).Only Engine.Request.Blind := by
  unfold replace
  dsimp only
  split
  · trivial
  · refine (only_getDefinition trivial).bind fun found => ?_
    match found with
    | .error _ => trivial
    | .ok none => trivial
    | .ok (some _) => exact blind_keep _ _

theorem blind_list : list.Only Engine.Request.Blind := by
  have read : listDefinitions.run.Only Engine.Request.Blind :=
    (only_stored (q := .definitions) trivial).attempt fun rows => trivial
  refine read.bind fun ls => ?_
  cases ls <;> trivial

theorem blind_showDefinition (id : String) : (showDefinition id).Only Engine.Request.Blind := by
  refine (only_getDefinition trivial).bind fun found => ?_
  match found with
  | .error _ => trivial
  | .ok none => trivial
  | .ok (some _) => trivial

theorem blind_delete (id : String) : (delete id).Only Engine.Request.Blind := by
  refine (only_stored (q := .deleteDefinition id) trivial).bind fun found => ?_
  match found with
  | .error _ => trivial
  | .ok true => exact ⟨trivial, fun _ => trivial⟩
  | .ok false => trivial

theorem blind_switch (id : String) (active : Bool) : (switch id active).Only Engine.Request.Blind := by
  have set : (switchDefinition id active).run.Only Engine.Request.Blind := by
    refine (only_getDefinition trivial).attempt fun found => ?_
    cases found with
    | none => trivial
    | some d => exact (only_stored (q := .saveDefinition _) trivial).attempt fun _ => trivial
  have reload : (cacheStored id).run.Only Engine.Request.Blind := by
    refine (only_getDefinition trivial).attempt fun found => ?_
    cases found with
    | none => trivial
    | some d =>
      refine Only.attempt (p := ExceptT.lift _) ((only_cacheDefinition (fun _ => trivial) d).bind fun _ => trivial) fun w => ?_
      cases w <;> trivial
  refine set.bind fun found => ?_
  match found with
  | .error _ => trivial
  | .ok false => trivial
  | .ok true =>
    refine reload.bind fun done => ?_
    cases done <;> trivial

theorem blind_showExecution (id : String) : (showExecution id).Only Engine.Request.Blind := by
  refine (only_getRecord trivial).bind fun found => ?_
  match found with
  | .error _ => trivial
  | .ok none => trivial
  | .ok (some r) =>
    have read : (tokensOf id).run.Only Engine.Request.Apart :=
      (only_run (q := .tokensOf id) trivial).attempt
        (Only.mapM (f := fun row => readRow (Store.TokenRow.token row)) fun _ => trivial)
    refine (read.imp fun _ => Engine.Request.Apart.blind).bind fun ts => ?_
    cases ts <;> trivial

theorem blind_showExecutionsOf (type id : String) : (showExecutionsOf type id).Only Engine.Request.Blind := by
  unfold showExecutionsOf
  split
  · trivial
  · rename_i t _
    have read : (recordsOf ⟨t, id⟩).run.Only Engine.Request.Apart :=
      (only_run (q := .executionsOf t.name id) trivial).attempt
        (Only.mapM (f := fun row => readRow (Store.ExecutionRow.record row)) fun _ => trivial)
    refine (read.imp fun _ => Engine.Request.Apart.blind).bind fun rs => ?_
    cases rs <;> trivial

/-- Neither a scan nor a sweep is asked for. -/
def Route.Plain : Route → Prop
  | .scan | .sweep => False
  | _ => True

theorem blind_withContent {α : Type} (dec : Json.Decoder α) (r : Request) {f : α → Job Reply}
    (hf : ∀ a, (f a).Only Engine.Request.Blind) : (withContent dec r f).Only Engine.Request.Blind := by
  unfold withContent
  split
  · trivial
  · exact hf _

theorem blind_answer (types : List TargetType) (batch : Nat) (r : Request) {route : Route} (h : route.Plain) :
    (answer types batch r route).Only Engine.Request.Blind := by
  unfold answer
  cases route with
  | health => trivial
  | workflows =>
    dsimp only
    split
    · exact blind_withContent _ r blind_create
    · exact blind_list
  | workflow id =>
    dsimp only
    split
    · exact blind_withContent _ r (blind_replace id)
    split
    · exact blind_delete id
    · exact blind_showDefinition id
  | activation id active => exact blind_switch id active
  | events => exact blind_withContent _ r fun _ => trivial
  | execution id => exact blind_showExecution id
  | executionsOf type id => exact blind_showExecutionsOf type id
  | scan => exact h.elim
  | sweep => exact h.elim

end Web

namespace Host.Site

variable {s : Site} {c : List (String × Workflow)} {ds : Definitions}

/-! ### Agreement of all that is asked of a worker -/

theorem agrees_dispatch (hds : s.database.definitions = some ds) (e : Event) : s.Agrees c (dispatch e) :=
  agrees_activeNow hds _ _

theorem agrees_scan (hds : s.database.definitions = some ds) (types : List TargetType) : s.Agrees c (scan types) :=
  agrees_activeNow hds _ _

theorem agrees_answer (hds : s.database.definitions = some ds) (sound : ds.Sound) (types : List TargetType) (batch : Nat)
    (r : Web.Request) (route : Web.Route) : s.Agrees c (Web.answer types batch r route) := by
  cases route with
  | scan => exact (agrees_scan hds types).bind fun _ => agrees_done _
  | sweep =>
    refine (agrees_of_twins (twins_sweep twins_currentWorkflow batch) hds sound).bind fun _ => ?_
    split <;> exact agrees_done _
  | _ => exact agrees_of_blind (Web.blind_answer types batch r trivial)

theorem agrees_serve (hds : s.database.definitions = some ds) (sound : ds.Sound) (types : List TargetType) (batch : Nat)
    (r : Web.Request) : s.Agrees c (Web.serve types batch r) := by
  unfold Web.serve
  split
  · exact agrees_done _
  split
  · exact agrees_done _
  split
  · exact agrees_done _
  · exact (agrees_answer hds sound types batch r _).bind fun _ => agrees_done _

end Host.Site

/-! ### The table of definitions stays -/

namespace Host.Site

variable {s : Site}

theorem readable_answer (h : s.database.definitions.isSome = true) (r : Request) :
    (answer r s).2.database.definitions.isSome = true := by
  have apart (hr : r.Apart) : (answer r s).2.database.definitions.isSome = true := by
    have hg : (answer r s).2.database.definitions = s.database.definitions :=
      congrArg Registry.stored (s.registry_answer hr)
    rw [hg]
    exact h
  obtain ⟨ds, hds⟩ := Option.isSome_iff_exists.1 h
  cases r with
  | statement q =>
    show (q.execute s.database).2.definitions.isSome = true
    cases q with
    | definitions => rw [Store.Statement.execute_definitions hds]; exact h
    | definition id => rw [Store.Statement.execute_definition hds]; exact h
    | saveDefinition row => rw [Store.Statement.execute_saveDefinition hds]; rfl
    | deleteDefinition id => rw [Store.Statement.execute_deleteDefinition hds]; rfl
    | _ => exact apart trivial
  | now => exact apart trivial
  | fresh => exact apart trivial
  | target type call => exact apart trivial
  | visit v => exact apart trivial
  | _ => exact h

theorem readable_perform {α : Type} (p : Job α) (h : s.database.definitions.isSome = true) :
    (s.perform p).2.database.definitions.isSome = true :=
  (Steady.of_kept fun s => s.database.definitions.isSome = true).perform (fun _ r _ hs => readable_answer hs r) p.only_true s h

theorem agrees_handled {c : List (String × Workflow)} {ds : Definitions} (hds : s.database.definitions = some ds)
    (sound : ds.Sound) (types : List TargetType) (batch : Nat) (r : Web.Request) :
    s.Agrees c (Web.handled types batch r) := by
  refine (agrees_serve hds sound types batch r).bind fun c' => ?_
  have hs := readable_perform (Web.serve types batch r) (Option.isSome_iff_exists.2 ⟨ds, hds⟩)
  obtain ⟨ds', hds'⟩ := Option.isSome_iff_exists.1 hs
  split
  · exact agrees_done _
  · exact (agrees_dispatch hds' _).bind fun _ => agrees_done _

end Host.Site

/-! ### Workers on one database -/

/-- What a worker is asked for: to handle an event, to scan, to sweep, to resume a token, or to answer a request. -/
inductive Engine.Asked : {α : Type} → Job α → Prop where
  | dispatch (e : Event) : Asked (dispatch e)
  | scan (types : List TargetType) : Asked (scan types)
  | sweep (batch : Nat) : Asked (sweep batch).run
  | resume (token : Token) : Asked (resume token).run
  | handled (types : List TargetType) (batch : Nat) (r : Web.Request) : Asked (Web.handled types batch r)

/-- The workers differ at most in the workflows that they have cached. -/
def Host.Worker.SameButCache (w w' : Worker) : Prop := w' = { w with cache := w'.cache }

/-- Workers that differ in their caches get the same result from the same database, and leave the same database; nor do
they differ in more than their caches afterwards. So it does not matter which of them handles an event, or resumes what
the other has suspended. -/
theorem caches_do_not_show {db : Database} {ds : Definitions} (hds : db.definitions = some ds) (sound : ds.Sound)
    (serial : Nat) {w w' : Worker} (hw : w.SameButCache w') {α : Type} {job : Job α} (hj : Asked job) :
    let a := Site.perform ⟨db, serial, w⟩ job
    let b := Site.perform ⟨db, serial, w'⟩ job
    b.1 = a.1 ∧ b.2.database = a.2.database ∧ b.2.serial = a.2.serial ∧ a.2.worker.SameButCache b.2.worker := by
  have agrees : Site.Agrees ⟨db, serial, w⟩ w'.cache job := by
    cases hj with
    | dispatch e => exact Site.agrees_dispatch hds e
    | scan types => exact Site.agrees_scan hds types
    | sweep batch => exact Site.agrees_of_twins (twins_sweep Site.twins_currentWorkflow batch) hds sound
    | resume token => exact Site.agrees_of_twins (twins_resume Site.twins_currentWorkflow token) hds sound
    | handled types batch r => exact Site.agrees_handled hds sound types batch r
  obtain ⟨c, hc⟩ := agrees
  have hsite : Site.withCache ⟨db, serial, w⟩ w'.cache = ⟨db, serial, w'⟩ := by
    rw [hw]
    rfl
  rw [hsite] at hc
  dsimp only
  rw [hc]
  exact ⟨rfl, rfl, rfl, rfl⟩

namespace Lone

/-- A worker that has not heard that one workflow is gone and another has come. -/
def staleWorker : Worker := { worker with cache := [("old", workflow "old" true)] }

theorem sound : Definitions.Sound [.ofDefinition (definition "new" true)] :=
  List.forall_mem_singleton.2 ⟨definition "new" true, workflow "new" true, Definition.ofText_text (storable "new" true), rfl⟩

end Lone

/-- An event at a worker that has cached nothing, and at one that has cached what is no longer there. -/
theorem caches_do_not_show_of_stale :
    (Lone.database true).definitions = some [.ofDefinition (Lone.definition "new" true)] ∧
      Definitions.Sound [.ofDefinition (Lone.definition "new" true)] ∧ Lone.worker.SameButCache Lone.staleWorker ∧
      let job := dispatch ⟨⟨.contract, "1"⟩, "draft", "signed"⟩
      let a := Site.perform ⟨Lone.database true, 0, Lone.worker⟩ job
      let b := Site.perform ⟨Lone.database true, 0, Lone.staleWorker⟩ job
      b.1 = a.1 ∧ b.2.database = a.2.database ∧ b.2.serial = a.2.serial ∧ a.2.worker.SameButCache b.2.worker :=
  have differ : Lone.worker.SameButCache Lone.staleWorker := rfl
  ⟨rfl, Lone.sound, differ, caches_do_not_show rfl Lone.sound 0 differ (.dispatch _)⟩

end Lifecycle
