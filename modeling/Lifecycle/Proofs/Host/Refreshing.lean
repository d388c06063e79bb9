import Lifecycle.Proofs.Host.Caches
import Lifecycle.Proofs.Host.Outline

/-!
# Starting nothing

An event that no workflow waits for, and a scan that finds nobody, start nothing. But they read all definitions, and a
workflow whose definition can no longer be used is not cached afterwards, while a resumption would still have gone on with
it. So a sweep after them goes as it would have gone without them if no such workflow is cached, and it may fail executions
if one is.
-/

namespace Lifecycle

open Engine
open Host (Site Registry Worker)
open Store (Database Definitions DefinitionRow)

/-! ### Definitions that cannot be used -/

/-- The definition can be read and has no defect. -/
def Store.DefinitionRow.Usable (row : DefinitionRow) : Prop :=
  ∃ d w, Definition.ofText row.definition = .ok d ∧ Workflow.ofDefinition d = .ok w

namespace Host.Registry

/-- Something is stored under the identifier that cannot be used. -/
def Spoilt (g : Registry) (id : String) : Prop := ∃ row, g.row id = .ok (some row) ∧ ¬ row.Usable

/-- No workflow is cached whose stored definition cannot be used. -/
def Unspoilt (g : Registry) : Prop := ∀ id, g.Spoilt id → g.cached.lookup id = none

/-- The same definitions are stored, and where they cannot be used the same workflow is cached, if any. -/
structure SameFallback (g h : Registry) : Prop where
  stored : h.stored = g.stored
  readable : g.stored.isSome = true
  cached : ∀ id, g.Spoilt id → h.cached.lookup id = g.cached.lookup id

variable {g h : Registry}

/-- What is spoilt is looked up in the cache. -/
theorem current_of_spoilt {id : String} (h : g.Spoilt id) : g.current id = (g.cached.lookup id, g.cached) := by
  obtain ⟨row, hrow, unusable⟩ := h
  cases hd : Definition.ofText row.definition with
  | error f =>
    have hfind : g.find id = .error (.undecodable row.definition f) := by
      unfold find
      rw [hrow]
      dsimp only
      rw [hd]
      rfl
    unfold current
    rw [hfind]
  | ok d =>
    cases hw : Workflow.ofDefinition d with
    | ok w => exact absurd ⟨d, w, hd, hw⟩ unusable
    | error e =>
      unfold current
      rw [find_eq_some hrow hd]
      dsimp only
      rw [hw]

/-- Under an identifier there is nothing, a definition that can be used, or one that cannot. -/
theorem find_cases (hg : g.stored.isSome = true) (id : String) :
    g.find id = .ok none ∨ (∃ d w, g.find id = .ok (some d) ∧ Workflow.ofDefinition d = .ok w) ∨ g.Spoilt id := by
  obtain ⟨ds, hds⟩ := Option.isSome_iff_exists.1 hg
  have hrow := row_eq hds id
  cases hfound : ds.get? id with
  | none => exact .inl (find_eq_none (hrow.trans (congrArg _ hfound)))
  | some row =>
    rw [hfound] at hrow
    by_cases usable : row.Usable
    · obtain ⟨d, w, hd, hw⟩ := usable
      exact .inr (.inl ⟨d, w, find_eq_some hrow hd, hw⟩)
    · exact .inr (.inr ⟨row, hrow, usable⟩)

theorem SameFallback.spoilt (hs : g.SameFallback h) {id : String} (hid : g.Spoilt id) : h.Spoilt id := by
  unfold Spoilt row
  rw [hs.stored]
  exact hid

/-- The same workflow is current, and what is cached afterwards is again the same where it counts. -/
theorem SameFallback.current (hs : g.SameFallback h) (id : String) :
    (h.current id).1 = (g.current id).1 ∧
      SameFallback { g with cached := (g.current id).2 } { h with cached := (h.current id).2 } := by
  have hfind : h.find id = g.find id := by
    unfold find row
    rw [hs.stored]
  rcases find_cases hs.readable id with hf | ⟨d, w, hf, hw⟩ | hspoilt
  · unfold Registry.current
    rw [hfind, hf]
    refine ⟨rfl, hs.stored, hs.readable, fun other ho => ?_⟩
    show (h.cached.filter _).lookup other = (g.cached.filter _).lookup other
    rw [lookup_filter, lookup_filter, hs.cached other ho]
  · unfold Registry.current
    rw [hfind, hf]
    dsimp only
    rw [hw]
    refine ⟨rfl, hs.stored, hs.readable, fun other ho => ?_⟩
    show (Worker.insertWorkflow _ _ _).lookup other = (Worker.insertWorkflow _ _ _).lookup other
    rw [Worker.lookup_insertWorkflow, Worker.lookup_insertWorkflow, hs.cached other ho]
  · rw [current_of_spoilt hspoilt, current_of_spoilt (hs.spoilt hspoilt)]
    exact ⟨hs.cached id hspoilt, hs⟩

/-- Read again, no workflow is cached whose stored definition cannot be used. -/
theorem lookup_refreshed {ds : Definitions} (hds : g.stored = some ds) (distinct : (ds.map (·.id)).Nodup) {id : String}
    (h : g.Spoilt id) : g.refreshed.lookup id = none := by
  obtain ⟨row, hrow, unusable⟩ := h
  rw [row_eq hds] at hrow
  have hget : ds.get? id = some row := Except.ok.inj hrow
  have hid : row.id = id := by simpa using List.find?_some hget
  have hrefreshed : g.refreshed = Worker.insertAll (workflows ds) := by
    unfold refreshed
    rw [hds]
    rfl
  rw [hrefreshed]
  refine Option.eq_none_iff_forall_not_mem.2 fun w hw => unusable ?_
  -- an entry comes from a row of its identifier, and there is only one
  obtain ⟨other, hother, d, hoid, hd, hcompiled⟩ :=
    mem_workflows (Worker.mem_of_mem_insertAll (mem_of_lookup hw))
  have hsame : other = row :=
    List.inj_on_of_nodup_map distinct hother (List.mem_of_find?_eq_some hget) (hoid.trans hid.symm)
  exact ⟨d, w, hsame ▸ hd, hcompiled⟩

end Host.Registry

namespace Host.Site

variable {s s' : Site} {c : List (String × Workflow)}

theorem twins_fallback (id : String) :
    Twins Registry.SameFallback (currentWorkflow id) (currentWorkflow id) (Option.Rel Workflow.Alike) := by
  intro s s' hs
  obtain ⟨hresult, hafter⟩ := hs.registries.current id
  rw [perform_currentWorkflow, perform_currentWorkflow]
  refine ⟨?_, hs.withCache hafter⟩
  rw [hresult]
  cases (s.registry.current id).1 with
  | none => exact .none
  | some w => exact .some (.refl w)

/-- A sweep goes the same way if for what is spoilt the same is cached. -/
theorem agrees_sweep (readable : s.database.definitions.isSome = true)
    (h : ∀ id, s.registry.Spoilt id → c.lookup id = s.registry.cached.lookup id) (batch : Nat) :
    s.Agrees c (sweep batch).run :=
  agrees_of_related (fun _ _ h => h.stored) (twins_sweep twins_fallback batch) ⟨rfl, readable, h⟩

/-! ### Nothing that starts -/

end Host.Site

/-- Every definition has an identifier of its own, and every table of the host a name of its own. -/
structure Store.Database.Keyed (db : Database) : Prop where
  definitions : ∀ ds, db.definitions = some ds → (ds.map (·.id)).Nodup
  hostTables : (db.hostTables.map fun t => Text.lowerAscii t.name).Nodup

namespace Host.Site

variable {s s' : Site} {c : List (String × Workflow)}

/-- The job counts candidates from `n` on, and where it counts none it leaves the site as it is. -/
def Counts (s : Site) (job : Job ScanTally) (n : Nat) : Prop :=
  n ≤ (s.perform job).1.candidates ∧
    (s.database.Keyed → (s.perform job).1.candidates = n → (s.perform job).2 = s)

theorem counts_done (report : ScanTally) : s.Counts (.done report) report.candidates :=
  ⟨le_rfl, fun _ _ => rfl⟩

theorem Counts.bind {p : Job ScanTally} {f : ScanTally → Job ScanTally} {n : Nat} (hp : s.Counts p n)
    (hf : ∀ (s : Site) (report : ScanTally), s.Counts (f report) report.candidates) : s.Counts (p >>= f) n := by
  unfold Counts
  rw [perform_bind]
  obtain ⟨hle, hsame⟩ := hf (s.perform p).2 (s.perform p).1
  refine ⟨hp.1.trans hle, fun keyed hn => ?_⟩
  have hnone : (s.perform p).1.candidates = n := le_antisymm (hle.trans hn.le) hp.1
  have hleft : (s.perform p).2 = s := hp.2 keyed hnone
  rw [hleft] at hsame hn ⊢
  exact hsame keyed (hn.trans hnone.symm)

/-- What comes before the counting leaves the site as it is. -/
theorem Counts.after {α : Type} {p : Job α} {f : α → Job ScanTally} {n : Nat}
    (hp : s.database.Keyed → (s.perform p).2 = s) (hf : ∀ (s : Site) (a : α), s.Counts (f a) n) : s.Counts (p >>= f) n := by
  unfold Counts
  rw [perform_bind]
  obtain ⟨hle, hsame⟩ := hf (s.perform p).2 (s.perform p).1
  refine ⟨hle, fun keyed hn => ?_⟩
  rw [hp keyed] at hsame hn ⊢
  exact hsame keyed hn

theorem candidates_count (report : ScanTally) (result : Except EngineFault Bool) :
    (report.count result).candidates = report.candidates := by
  match result with
  | .ok true => rfl
  | .ok false => rfl
  | .error _ => rfl

section Scans

variable (w : Workflow) (status : String) (cutoff : Time.Instant) (runOnce : Bool)

/-- Every entity that was found is counted. -/
theorem candidates_scanFound (type : TargetType) (ids : List String) (s : Site) (report : ScanTally) :
    (s.perform (scanFound w type status cutoff runOnce report ids)).1.candidates = report.candidates + ids.length := by
  induction ids generalizing s report with
  | nil => rfl
  | cons id rest ih =>
    unfold scanFound
    rw [perform_bind, perform_bind, ih, candidates_count, List.length_cons]
    show report.candidates + 1 + rest.length = _
    omega

theorem counts_scanFound (type : TargetType) (ids : List String) (report : ScanTally) :
    s.Counts (scanFound w type status cutoff runOnce report ids) report.candidates := by
  refine ⟨?_, fun _ hn => ?_⟩
  · rw [candidates_scanFound]
    exact Nat.le_add_right _ _
  · rw [candidates_scanFound] at hn
    have hnone : ids = [] := List.length_eq_zero_iff.1 (by omega)
    rw [hnone]
    rfl

theorem counts_scanTypes (types : List TargetType) (s : Site) (report : ScanTally) :
    s.Counts (scanTypes w status cutoff runOnce report types) report.candidates := by
  induction types generalizing s report with
  | nil => exact counts_done report
  | cons type rest ih =>
    refine Counts.after (p := target type (.find status cutoff)) (fun keyed => call_reads keyed.hostTables type trivial)
      fun s' found => ?_
    match found with
    | .ok ids => exact (s'.counts_scanFound w status cutoff runOnce type ids report).bind ih
    | .error _ => exact ih s' { report with failed := report.failed + 1 }

end Scans

theorem counts_scanFor (types : List TargetType) (w : Workflow) (s : Site) (report : ScanTally) :
    s.Counts (scanFor types w report) report.candidates := by
  unfold scanFor
  split
  · exact counts_done report
  · refine Counts.after (p := now) (fun _ => rfl) fun s' now => ?_
    split
    · exact counts_done report
    · exact counts_scanTypes w _ _ _ _ s' report

theorem counts_scanAll (types : List TargetType) (ws : List Workflow) (s : Site) (report : ScanTally) :
    s.Counts (scanAll types report ws) report.candidates := by
  induction ws generalizing s report with
  | nil => exact counts_done report
  | cons w rest ih => exact (counts_scanFor types w s { report with workflows := report.workflows + 1 }).bind ih

theorem matched_dispatchAll (e : Event) (ws : List Workflow) (s : Site) (report : DispatchTally) :
    (s.perform (dispatchAll e report ws)).1.matched = report.matched := by
  induction ws generalizing s report with
  | nil => rfl
  | cons w rest ih =>
    unfold dispatchAll
    rw [perform_bind, ih]
    match (s.perform (launch w e.target .statusChanged w.trigger.runOnce (.ofChange e.source e.destination)).run).1 with
    | .ok true => rfl
    | .ok false => rfl
    | .error _ => rfl

/-- The site after an event that no workflow waits for, or after a scan that finds nobody. -/
inductive Idles (s : Site) : Site → Prop where
  | event (e : Event) (h : (s.perform (dispatch e)).1.matched = 0) : Idles s (s.perform (dispatch e)).2
  | scan (types : List TargetType) (h : (s.perform (scan types)).1.candidates = 0) : Idles s (s.perform (scan types)).2

/-- What starts nothing reads the definitions and does no more. -/
theorem Idles.eq_refreshed (keyed : s.database.Keyed) (idle : s.Idles s') : s' = s.withCache s.registry.refreshed := by
  cases idle with
  | event e h =>
    have hnone : (activeAmong .statusChanged (s.registry.refreshed.map (·.2))).filter
        (fun w => w.trigger.admits e.target.type e.source e.destination) = [] := by
      unfold dispatch at h
      rw [perform_bind, perform_activeNow, matched_dispatchAll] at h
      exact List.length_eq_zero_iff.1 h
    unfold dispatch
    rw [perform_bind, perform_activeNow]
    dsimp only
    rw [hnone]
    rfl
  | scan types h =>
    unfold Engine.scan at h ⊢
    rw [perform_bind, perform_activeNow] at h ⊢
    exact (counts_scanAll types _ _ {}).2 keyed h

end Host.Site

/-- What starts nothing has no bearing on a later sweep, unless a workflow is cached whose stored definition cannot be used.
A sweep after it goes as at a worker that has cached nothing, if the definitions can be read; and if no such workflow is
cached it goes as it would have gone before: with the same result, and with the same effects on everything but the cache. -/
theorem idle_before_sweep {s s' : Site} (keyed : s.database.Keyed) (idle : s.Idles s') (batch : Nat) :
    (s.database.definitions.isSome = true → ∃ c, s'.perform (sweep batch).run =
      (((s.withCache []).perform (sweep batch).run).1, ((s.withCache []).perform (sweep batch).run).2.withCache c)) ∧
    (s.registry.Unspoilt → ∃ c, s'.perform (sweep batch).run =
      ((s.perform (sweep batch).run).1, (s.perform (sweep batch).run).2.withCache c)) := by
  rw [idle.eq_refreshed keyed]
  cases hds : s.database.definitions with
  | none =>
    have hsame : s.withCache s.registry.refreshed = s := by
      show s.withCache (s.database.definitions.elim s.worker.cache _) = s
      rw [hds]
      rfl
    rw [hsame]
    exact ⟨fun h => absurd h Bool.false_ne_true, fun _ => ⟨(s.perform (sweep batch).run).2.worker.cache, rfl⟩⟩
  | some ds =>
    have readable : s.database.definitions.isSome = true := by rw [hds]; rfl
    have forgotten (id : String) (h : s.registry.Spoilt id) : s.registry.refreshed.lookup id = none :=
      Registry.lookup_refreshed hds (keyed.definitions ds hds) h
    refine ⟨fun _ => ?_, fun unspoilt => ?_⟩
    · exact (s.withCache []).agrees_sweep (c := s.registry.refreshed) readable forgotten batch
    · exact s.agrees_sweep readable (fun id h => (forgotten id h).trans (unspoilt id h).symm) batch

namespace Lone

/-- A worker with the workflow of the stored definition in its cache. -/
def reader : Site := ⟨database true, 0, { worker with cache := [("new", workflow "new" true)] }⟩

theorem keyed_reader : reader.database.Keyed where
  definitions ds h := by
    cases h
    exact List.nodup_singleton _
  hostTables := List.nodup_nil

/-- Another definition stored under the name since: one without nodes. -/
def behind : Site :=
  { reader with
    database := { reader.database with definitions := some [.ofDefinition { definition "new" true with nodes := [] }] } }

end Lone

/-- A scan for nobody before an execution is resumed. -/
theorem idle_before_sweep_of_lone :
    Lone.reader.database.Keyed ∧ Lone.reader.Idles (Lone.reader.perform (scan TargetType.all)).2 ∧
      Lone.reader.registry.Unspoilt ∧
      ∃ c, (Lone.reader.perform (scan TargetType.all)).2.perform (sweep 10).run =
        ((Lone.reader.perform (sweep 10).run).1, (Lone.reader.perform (sweep 10).run).2.withCache c) := by
  have idle : Lone.reader.Idles (Lone.reader.perform (scan TargetType.all)).2 := .scan _ (by decide +kernel)
  have unspoilt : Lone.reader.registry.Unspoilt := by
    rintro id ⟨row, hrow, unusable⟩
    have hget : Definitions.get? [.ofDefinition (Lone.definition "new" true)] id = some row := Except.ok.inj hrow
    exact absurd (Lone.sound row (List.mem_of_find?_eq_some hget)) unusable
  exact ⟨Lone.keyed_reader, idle, unspoilt, (idle_before_sweep Lone.keyed_reader idle 10).2 unspoilt⟩

/-- How many executions a sweep has completed, and how many have failed. -/
def Engine.SweepTally.ended (t : SweepTally) : Nat × Nat := (t.completed, t.failed)

/-- An execution is completed if it is resumed at once, and fails after an event that starts nothing. -/
theorem idle_fails_sweep :
    let idle := (Lone.behind.perform (dispatch ⟨⟨.contract, "1"⟩, "draft", "signed"⟩)).2
    Lone.behind.database.Keyed ∧ Lone.behind.Idles idle ∧
      (Lone.behind.perform (sweep 10).run).1.toOption.map (·.ended) = some (1, 0) ∧
      (idle.perform (sweep 10).run).1.toOption.map (·.ended) = some (0, 1) ∧
      (idle.perform (sweep 10).run).1 ≠ (Lone.behind.perform (sweep 10).run).1 := by
  intro idle
  have keyed : Lone.behind.database.Keyed :=
    ⟨fun ds h => by cases h; exact List.nodup_singleton _, List.nodup_nil⟩
  obtain ⟨nobody, atOnce, after⟩ : (Lone.behind.perform (dispatch ⟨⟨.contract, "1"⟩, "draft", "signed"⟩)).1.matched = 0 ∧
      (Lone.behind.perform (sweep 10).run).1.toOption.map (·.ended) = some (1, 0) ∧
      (idle.perform (sweep 10).run).1.toOption.map (·.ended) = some (0, 1) := by decide +kernel
  refine ⟨keyed, .event _ nobody, atOnce, after, fun h => ?_⟩
  rw [h, atOnce] at after
  cases after

end Lifecycle
