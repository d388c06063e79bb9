import Lifecycle.Proofs.Host.Outline
import Lifecycle.Proofs.Host.Starting
import Lifecycle.Proofs.Target.Finding
import Lifecycle.Proofs.Time.Span

/-!
# What a scan starts

A scan asks, for every workflow that storage offers, for the entities of each type in its scope that have been in its status
long enough, and attempts the workflow on each of them. The runs that it starts change no outline of any entity, so whatever
it asks is answered as it would have been at the start of the scan; and a question that fails has no bearing on the others.
-/

namespace Lifecycle

open Engine
open Host (Site Registry Worker)
open Store (Database Definitions DefinitionRow HostTable)
open Target (Memory HostRows HostRow)
open Time (Instant Span)

/-! ### Questions -/

/-- What a scan asks of the entities of one type for one workflow. -/
structure Engine.Query where
  workflow : Workflow
  type : TargetType
  status : String
  threshold : Span
  once : Bool

/-- The questions for a workflow, among the types that are registered. -/
def Engine.queries (types : List TargetType) (w : Workflow) : List Query :=
  match w.trigger with
  | .statusChanged _ _ _ _ => []
  | .stuckAtStatus scope status threshold once =>
    (types.filter fun t => scope.all (· == t)).map fun t => ⟨w, t, status, threshold, once⟩

namespace Engine.Query

variable (q : Query) (s : Site)

/-- The time that an entity must have been in the status since: none if the calendar begins later. -/
def cutoff? : Option Instant := s.worker.clock.earlier? q.threshold

/-- The entities found at a site. Nothing is asked for if the calendar begins later than they could have changed. -/
def found : Except Target.Fault (List String) :=
  (q.cutoff? s).elim (.ok []) fun cutoff => (s.call q.type (.find q.status cutoff)).1

/-- The entity is in the status, and has been since the threshold ago or longer. -/
def Stuck (id : String) : Prop :=
  (s.reach q.type (.status id)).1 = .ok (some q.status) ∧
    ∃ t : Instant, (s.reach q.type (.changedAt id)).1 = .ok (some t) ∧ t.nanos + q.threshold.nanos ≤ s.worker.clock.nanos

variable {q s}

theorem found_of_none (h : q.cutoff? s = none) : q.found s = .ok [] := by
  rw [found, h]
  rfl

theorem found_of_some {cutoff : Instant} (h : q.cutoff? s = some cutoff) :
    q.found s = (s.call q.type (.find q.status cutoff)).1 := by
  rw [found, h]
  rfl

end Engine.Query

/-- The time of the last change, if it can be told; or else the time that was asked for. -/
def Host.Site.sinceOr (s : Site) (cutoff : Instant) (type : TargetType) (id : String) : Instant :=
  match (s.call type (.changedAt id)).1 with
  | .ok (some t) => t
  | _ => cutoff

namespace Engine.Query

variable (q : Query) (s : Site)

/-- What is launched of the workflow for an entity. -/
def launch (cutoff : Instant) (id : String) : Launch :=
  ⟨q.workflow, ⟨q.type, id⟩, .stuckAtStatus, q.once, .ofStuck q.status (s.sinceOr cutoff q.type id)⟩

/-- What is launched for the entities found. -/
def launches : List Launch :=
  match q.cutoff? s, q.found s with
  | some cutoff, .ok ids => ids.map (q.launch s cutoff)
  | _, _ => []

/-- The question fails. -/
def fails : Bool := match q.found s with
  | .ok _ => false
  | .error _ => true

variable {q s}

theorem launches_of_found {cutoff : Instant} {ids : List String} (h : q.cutoff? s = some cutoff) (found : q.found s = .ok ids) :
    q.launches s = ids.map (q.launch s cutoff) := by
  unfold launches
  rw [h, found]

theorem fails_of_found {ids : List String} (found : q.found s = .ok ids) : q.fails s = false := by
  unfold fails
  rw [found]

theorem launches_of_fault {f : Target.Fault} (fault : q.found s = .error f) : q.launches s = [] := by
  unfold launches
  rw [fault]
  cases q.cutoff? s <;> rfl

theorem fails_of_fault {f : Target.Fault} (fault : q.found s = .error f) : q.fails s = true := by
  unfold fails
  rw [fault]

end Engine.Query

/-! ### Counts -/

/-- The report with some more attempts. -/
def Engine.ScanTally.plus (r : ScanTally) (as : List Attempted) : ScanTally :=
  { r with
    candidates := r.candidates + as.length
    started := r.started + as.countP (·.started)
    skipped := r.skipped + as.countP (·.skipped)
    failed := r.failed + as.countP (·.failed) }

/-- The report with some more questions that have failed. -/
def Engine.ScanTally.plusFailed (r : ScanTally) (n : Nat) : ScanTally := { r with failed := r.failed + n }

theorem Engine.ScanTally.plus_count (r : ScanTally) (l : Launch) (recorded : Bool) (x : Except EngineFault Bool)
    (as : List Attempted) :
    (({ r with candidates := r.candidates + 1 } : ScanTally).count x).plus as = r.plus (⟨l, recorded, x⟩ :: as) := by
  match x with
  | .ok true => simp [plus, count, Attempted.started, Attempted.skipped, Attempted.failed]; omega
  | .ok false => simp [plus, count, Attempted.started, Attempted.skipped, Attempted.failed]; omega
  | .error f => simp [plus, count, Attempted.started, Attempted.skipped, Attempted.failed]; omega

theorem Engine.ScanTally.plus_plus (r : ScanTally) (as bs : List Attempted) : (r.plus as).plus bs = r.plus (as ++ bs) := by
  simp [plus]; omega

/-- It does not matter when a question has failed. -/
theorem Engine.ScanTally.plusFailed_succ (r : ScanTally) (as : List Attempted) (n : Nat) :
    (({ r with failed := r.failed + 1 } : ScanTally).plus as).plusFailed n = (r.plus as).plusFailed (n + 1) := by
  simp [plus, plusFailed]; omega

/-! ### The scan -/

namespace Host.Site

variable {s₀ s : Site}

theorem Launched.outline {s s' : Site} {a : Attempted} (h : Launched s a s') (tidy : s.Tidy) : s'.outline = s.outline := by
  have run {l : Launch} {x : Except EngineFault Result} {s' : Site}
      (ran : (s.opened l).perform (runNew l.workflow (s.newcomer l) l.context).run = (x, s')) : s'.outline = s.outline := by
    have hopened : (s.opened l).outline = s.outline := rfl
    have := outline_perform (tidy.of_outline hopened) (runNew l.workflow (s.newcomer l) l.context).run
    rw [ran] at this
    exact this.trans hopened
  cases h with
  | started _ _ ran => exact run ran
  | broken _ _ ran => exact run ran
  | existed => rfl
  | refused => rfl

/-- What asks for outlines of entities is answered as at the start, and changes nothing. -/
theorem answer_standing {c : Target.Call} (tidy : s₀.Tidy) (same : s.outline = s₀.outline) (type : TargetType)
    (standing : c.Standing) (reads : c.Reads) : answer (.target type c) s = ((s₀.call type c).1, s) :=
  Prod.ext (call_of_outline same type standing) (call_reads (tidy.of_outline same).names type reads)

/-- The entities found are attempted one after the other. -/
theorem perform_scanFound (q : Query) (cutoff : Instant) (ids : List String) (tidy : s₀.Tidy) (same : s.outline = s₀.outline)
    (report : ScanTally) :
    ∃ attempts, attempts.map (·.launch) = ids.map (q.launch s₀ cutoff) ∧
      s.Launches attempts (s.perform (scanFound q.workflow q.type q.status cutoff q.once report ids)).2 ∧
      (s.perform (scanFound q.workflow q.type q.status cutoff q.once report ids)).1 = report.plus attempts := by
  induction ids generalizing s report with
  | nil => exact ⟨[], rfl, .nil s, rfl⟩
  | cons id rest ih =>
    -- the time of the last change is told as it was at the start
    let l : Launch := q.launch s₀ cutoff id
    have hanswer : answer (.target q.type (.changedAt id)) s = ((s₀.call q.type (.changedAt id)).1, s) :=
      answer_standing tidy same q.type trivial trivial
    have hstep : s.perform (scanFound q.workflow q.type q.status cutoff q.once report (id :: rest)) =
        (s.perform l.job).2.perform (scanFound q.workflow q.type q.status cutoff q.once
          (({ report with candidates := report.candidates + 1 } : ScanTally).count (s.perform l.job).1) rest) :=
      (s.perform_ask hanswer).trans (s.perform_bind l.job fun result => scanFound q.workflow q.type q.status cutoff
        q.once (({ report with candidates := report.candidates + 1 } : ScanTally).count result) rest)
    obtain ⟨recorded, hlaunched⟩ := s.launched_perform l
    have hsame : (s.perform l.job).2.outline = s₀.outline := (hlaunched.outline (tidy.of_outline same)).trans same
    obtain ⟨attempts, hlaunches, hsteps, hreport⟩ := ih hsame
      (({ report with candidates := report.candidates + 1 } : ScanTally).count (s.perform l.job).1)
    rw [hstep]
    refine ⟨⟨l, recorded, (s.perform l.job).1⟩ :: attempts, ?_, .cons hlaunched hsteps, ?_⟩
    · rw [List.map_cons, List.map_cons, hlaunches]
    · rw [hreport, ScanTally.plus_count]

theorem Launches.outline {s s' : Site} {as : List Attempted} (h : Launches s as s') (tidy : s.Tidy) :
    s'.outline = s.outline := by
  induction h with
  | nil s => rfl
  | cons ha _ ih =>
    have := ha.outline tidy
    exact (ih (tidy.of_outline this)).trans this

/-- The questions for one workflow are asked one after the other, whatever they are answered. -/
theorem perform_scanTypes (w : Workflow) (status : String) (threshold : Span) (once : Bool) {cutoff : Instant}
    (tidy : s₀.Tidy) (early : s₀.worker.clock.earlier? threshold = some cutoff) (types : List TargetType)
    (same : s.outline = s₀.outline) (report : ScanTally) :
    let qs : List Query := types.map fun t => ⟨w, t, status, threshold, once⟩
    ∃ attempts, attempts.map (·.launch) = qs.flatMap (·.launches s₀) ∧
      s.Launches attempts (s.perform (scanTypes w status cutoff once report types)).2 ∧
      (s.perform (scanTypes w status cutoff once report types)).1 =
        (report.plus attempts).plusFailed (qs.countP (·.fails s₀)) := by
  induction types generalizing s report with
  | nil => exact ⟨[], rfl, .nil s, rfl⟩
  | cons type rest ih =>
    intro qs
    let q : Query := ⟨w, type, status, threshold, once⟩
    have hqs : qs = q :: rest.map fun t => ⟨w, t, status, threshold, once⟩ := rfl
    have hanswer : answer (.target type (.find status cutoff)) s = ((s₀.call type (.find status cutoff)).1, s) :=
      answer_standing tidy same type trivial trivial
    have hcutoff : q.cutoff? s₀ = some cutoff := early
    have hfound : q.found s₀ = (s₀.call type (.find status cutoff)).1 := Query.found_of_some hcutoff
    rw [hqs, List.flatMap_cons]
    cases hx : (s₀.call type (.find status cutoff)).1 with
    | ok ids =>
      rw [hx] at hanswer hfound
      have hstep : s.perform (scanTypes w status cutoff once report (type :: rest)) =
          (s.perform (scanFound w type status cutoff once report ids)).2.perform (scanTypes w status cutoff once
            (s.perform (scanFound w type status cutoff once report ids)).1 rest) :=
        (s.perform_ask hanswer).trans (s.perform_bind (scanFound w type status cutoff once report ids) fun report =>
          scanTypes w status cutoff once report rest)
      obtain ⟨attempts, hlaunches, hsteps, hreport⟩ := perform_scanFound q cutoff ids tidy same report
      obtain ⟨attempts', hlaunches', hsteps', hreport'⟩ := ih ((hsteps.outline (tidy.of_outline same)).trans same)
        (s.perform (scanFound w type status cutoff once report ids)).1
      rw [hstep, Query.launches_of_found hcutoff hfound, List.countP_cons_of_neg (by simp [Query.fails_of_found hfound])]
      refine ⟨attempts ++ attempts', ?_, hsteps.append hsteps', ?_⟩
      · rw [List.map_append, hlaunches, hlaunches']
      · rw [hreport', hreport, ScanTally.plus_plus]
    | error f =>
      rw [hx] at hanswer hfound
      have hstep : s.perform (scanTypes w status cutoff once report (type :: rest)) =
          s.perform (scanTypes w status cutoff once { report with failed := report.failed + 1 } rest) :=
        s.perform_ask hanswer
      obtain ⟨attempts, hlaunches, hsteps, hreport⟩ := ih same { report with failed := report.failed + 1 }
      rw [hstep, Query.launches_of_fault hfound,
        List.countP_cons_of_pos (p := fun q : Query => q.fails s₀) (Query.fails_of_fault hfound)]
      exact ⟨attempts, hlaunches, hsteps, hreport.trans (ScanTally.plusFailed_succ report attempts _)⟩

/-- Nothing is found, and nothing fails, if the calendar begins too late. -/
theorem launches_of_cutoff_none {q : Query} (h : q.cutoff? s₀ = none) : q.launches s₀ = [] ∧ q.fails s₀ = false := by
  unfold Query.launches Query.fails
  rw [h, Query.found_of_none h]
  exact ⟨rfl, rfl⟩

/-- What is looked for of a workflow depends on the time, and nothing is where the calendar begins too late. -/
theorem perform_scanFor_eq {w : Workflow} {scope : Option TargetType} {status : String} {threshold : Span} {once : Bool}
    (waits : w.trigger = .stuckAtStatus scope status threshold once) (types : List TargetType) (report : ScanTally) :
    s.perform (scanFor types w report) = match s.worker.clock.earlier? threshold with
      | none => (report, s)
      | some cutoff => s.perform (scanTypes w status cutoff once report (types.filter fun t => scope.all (· == t))) := by
  have hnow : s.perform now = (s.worker.clock, s) := rfl
  unfold scanFor
  rw [waits]
  dsimp only
  rw [perform_bind, hnow]
  dsimp only
  cases s.worker.clock.earlier? threshold <;> rfl

theorem perform_scanFor (types : List TargetType) (w : Workflow) (tidy : s₀.Tidy) (same : s.outline = s₀.outline)
    (report : ScanTally) :
    ∃ attempts, attempts.map (·.launch) = (queries types w).flatMap (·.launches s₀) ∧
      s.Launches attempts (s.perform (scanFor types w report)).2 ∧
      (s.perform (scanFor types w report)).1 = (report.plus attempts).plusFailed ((queries types w).countP (·.fails s₀)) := by
  cases htrigger : w.trigger with
  | statusChanged scope source target once =>
    unfold scanFor queries
    rw [htrigger]
    exact ⟨[], rfl, .nil s, rfl⟩
  | stuckAtStatus scope status threshold once =>
    have hclock : s.worker.clock = s₀.worker.clock := clock_outline same
    have hqueries : queries types w = (types.filter fun t => scope.all (· == t)).map fun t =>
        ⟨w, t, status, threshold, once⟩ := by
      unfold queries
      rw [htrigger]
    rw [hqueries, perform_scanFor_eq htrigger, hclock]
    cases early : s₀.worker.clock.earlier? threshold with
    | some cutoff => exact perform_scanTypes w status threshold once tidy early _ same report
    | none =>
      have hnone (q : Query) (hq : q ∈ (types.filter fun t => scope.all (· == t)).map fun t =>
          (⟨w, t, status, threshold, once⟩ : Query)) : q.launches s₀ = [] ∧ q.fails s₀ = false := by
        obtain ⟨t, -, rfl⟩ := List.mem_map.1 hq
        exact launches_of_cutoff_none early
      refine ⟨[], ?_, .nil s, ?_⟩
      · exact (List.flatMap_eq_nil_iff.2 fun q hq => (hnone q hq).1).symm
      · rw [List.countP_eq_zero.2 fun q hq => by simp [(hnone q hq).2]]
        rfl

/-- The workflows are gone through one after the other. -/
theorem perform_scanAll (types : List TargetType) (ws : List Workflow) (tidy : s₀.Tidy) (same : s.outline = s₀.outline)
    (report : ScanTally) :
    ∃ attempts, attempts.map (·.launch) = (ws.flatMap (queries types)).flatMap (·.launches s₀) ∧
      s.Launches attempts (s.perform (scanAll types report ws)).2 ∧
      (s.perform (scanAll types report ws)).1 = (({ report with workflows := report.workflows + ws.length }).plus
        attempts).plusFailed ((ws.flatMap (queries types)).countP fun q : Query => q.fails s₀) := by
  induction ws generalizing s report with
  | nil => exact ⟨[], rfl, .nil s, rfl⟩
  | cons w rest ih =>
    let counted : ScanTally := { report with workflows := report.workflows + 1 }
    have hstep : s.perform (scanAll types report (w :: rest)) = (s.perform (scanFor types w counted)).2.perform
        (scanAll types (s.perform (scanFor types w counted)).1 rest) :=
      s.perform_bind (scanFor types w counted) fun report => scanAll types report rest
    obtain ⟨attempts, hlaunches, hsteps, hreport⟩ := perform_scanFor types w tidy same counted
    obtain ⟨attempts', hlaunches', hsteps', hreport'⟩ := ih ((hsteps.outline (tidy.of_outline same)).trans same)
      (s.perform (scanFor types w counted)).1
    rw [hstep]
    refine ⟨attempts ++ attempts', ?_, hsteps.append hsteps', ?_⟩
    · rw [List.map_append, hlaunches, hlaunches', List.flatMap_cons, List.flatMap_append]
    · rw [hreport', hreport, List.flatMap_cons, List.countP_append, List.length_cons]
      simp only [counted, ScanTally.plus, ScanTally.plusFailed, List.length_append, List.countP_append, ScanTally.mk.injEq]
      omega

end Host.Site

/-! ### Who is found -/

/-- Times of changes are whole numbers of milliseconds that stand for instants. -/
def Store.Database.Timely (db : Database) : Prop :=
  ∀ t ∈ db.hostTables, ∀ r ∈ t.rows, ∀ c ∈ r.changedAt, ∃ n, c = .int n ∧ Store.IsTime n

/-- A lasting status lasts for no negative time. -/
theorem Trigger.threshold_nonneg {conditions : Json.Members} {scope : Option TargetType} {status : String}
    {threshold : Span} {once : Bool} (h : read .stuckAtStatus conditions = .ok (.stuckAtStatus scope status threshold once)) :
    0 ≤ threshold.nanos := by
  obtain ⟨stuck, -, h⟩ := bind_ok h
  split at h
  · cases h
  · split at h
    · cases h
    · rename_i span hspan
      cases h
      exact stuck.unit.span_nonneg hspan

theorem Engine.threshold_nonneg {types : List TargetType} {row : DefinitionRow} {w : Workflow}
    (h : row.Offers .stuckAtStatus w) {q : Query} (hq : q ∈ queries types w) : 0 ≤ q.threshold.nanos := by
  obtain ⟨d, -, hw, -, htype⟩ := h
  have hread := Workflow.trigger_of hw
  rw [htype] at hread
  unfold queries at hq
  split at hq
  · cases hq
  · rename_i htrigger
    obtain ⟨t, -, rfl⟩ := List.mem_map.1 hq
    rw [htrigger] at hread
    exact Trigger.threshold_nonneg hread

namespace Host.Site

variable {s : Site} {ids : List String}

/-- A site finds the entities that are in the status since the time, each once, and no others. -/
theorem mem_find (tidy : s.Tidy) (timely : s.database.Timely) {type : TargetType} {status : String} {before : Instant}
    (h : (s.call type (.find status before)).1 = .ok ids) : ids.Nodup ∧
      ∀ id, id ∈ ids ↔ (s.reach type (.status id)).1 = .ok (some status) ∧
        ∃ t : Instant, (s.reach type (.changedAt id)).1 = .ok (some t) ∧ t ≤ before := by
  replace h : (s.reach type (.find status before)).1 = .ok ids := by
    unfold call at h
    split at h
    · cases h
    · exact h
  unfold reach at h ⊢
  dsimp only at h ⊢
  cases hcollection : (s.worker.source type).collection with
  | memory m =>
    rw [hcollection] at h
    exact Memory.mem_found (tidy.memory type m hcollection) h
  | table name =>
    rw [hcollection] at h
    dsimp only at h ⊢
    cases htable : s.database.hostTable name with
    | error f =>
      rw [htable] at h
      cases h
    | ok t =>
      rw [htable] at h
      obtain ⟨ht, -⟩ := Database.mem_of_hostTable htable
      exact HostRows.mem_found (tidy.rows t ht) (timely t ht) h

/-- A question finds the entities that are stuck, each once, and no others. -/
theorem mem_found (tidy : s.Tidy) (timely : s.database.Timely) {q : Query} (forward : 0 ≤ q.threshold.nanos)
    (h : q.found s = .ok ids) : ids.Nodup ∧ ∀ id, id ∈ ids ↔ q.Stuck s id := by
  have long (t : Instant) := s.worker.clock.exists_earlier?_iff t forward
  cases hcutoff : q.cutoff? s with
  | none =>
    rw [Query.found_of_none hcutoff] at h
    obtain rfl : [] = ids := Except.ok.inj h
    refine ⟨List.nodup_nil, fun id => iff_of_false List.not_mem_nil ?_⟩
    rintro ⟨-, t, -, hle⟩
    obtain ⟨cutoff, hsome, -⟩ := (long t).2 hle
    cases hcutoff.symm.trans hsome
  | some cutoff =>
    rw [Query.found_of_some hcutoff] at h
    obtain ⟨hnodup, hmem⟩ := mem_find tidy timely h
    refine ⟨hnodup, fun id => (hmem id).trans (and_congr_right fun _ => exists_congr fun t => and_congr_right fun _ => ?_)⟩
    rw [← long t]
    exact ⟨fun hle => ⟨cutoff, hcutoff, hle⟩, fun ⟨_, hsome, hle⟩ => Option.some.inj (hcutoff.symm.trans hsome) ▸ hle⟩

/-- What is launched is launched for those found. -/
theorem targets_launches {q : Query} (h : q.found s = .ok ids) :
    (q.launches s).map (·.target) = ids.map fun id => ⟨q.type, id⟩ := by
  cases hcutoff : q.cutoff? s with
  | none =>
    rw [(launches_of_cutoff_none hcutoff).1]
    rw [Query.found_of_none hcutoff] at h
    cases h
    rfl
  | some cutoff =>
    unfold Query.launches
    rw [hcutoff, h]
    exact List.map_map

end Host.Site

/-! ### Scans -/

/-- A scan goes through exactly the workflows of the rows that hold a definition which is active, has no defect and is started
by a lasting status: each once, by ascending identifiers. For each type in its scope it attempts the workflow on exactly the
entities that are stuck as the scan begins, each once; a question that fails is counted, and goes without attempts. However an
attempt goes, the next one follows; the new records are those of the attempts; and the report counts the attempts by how they
went. -/
theorem scan_attempts {s : Site} {ds : Definitions} (readable : s.database.definitions = some ds)
    (distinct : (ds.map (·.id)).Nodup) (tidy : s.Tidy) (timely : s.database.Timely) (types : List TargetType) :
    ∃ (offers : List (DefinitionRow × Workflow)) (attempts : List Attempted),
      let asked := offers.flatMap fun offer => queries types offer.2
      (offers.map (·.1)).Nodup ∧
      (∀ row w, (row, w) ∈ offers ↔ row ∈ ds ∧ row.Offers .stuckAtStatus w) ∧
      (offers.Pairwise fun a b => a.2.id ≤ b.2.id) ∧
      attempts.map (·.launch) = asked.flatMap (·.launches s) ∧
      (∀ q ∈ asked, ∀ ids, q.found s = .ok ids → (q.launches s).map (·.target) = ids.map (fun id => ⟨q.type, id⟩) ∧
        ids.Nodup ∧ ∀ id, id ∈ ids ↔ q.Stuck s id) ∧
      (∀ q ∈ asked, q.fails s = true → q.launches s = []) ∧
      (s.withCache s.registry.refreshed).Launches attempts (s.perform (scan types)).2 ∧
      s.database.records.Extended ((attempts.filter (·.recorded)).map (·.launch.call.key))
        (s.perform (scan types)).2.database.records ∧
      (s.perform (scan types)).1 = ⟨offers.length, attempts.length, attempts.countP (·.started), attempts.countP (·.skipped),
        attempts.countP (·.failed) + asked.countP (·.fails s)⟩ ∧
      (s.perform (scan types)).1.started + (s.perform (scan types)).1.skipped + (s.perform (scan types)).1.failed =
        (s.perform (scan types)).1.candidates + asked.countP (·.fails s) := by
  obtain ⟨offers, hactive, hnodup, hmem, hsorted⟩ := Registry.activeAmong_eq distinct .stuckAtStatus
  have hscan : s.perform (scan types) =
      (s.withCache s.registry.refreshed).perform (scanAll types {} (offers.map (·.2))) := by
    unfold scan
    rw [Site.perform_bind, Site.perform_activeNow]
    dsimp only
    rw [s.registry.refreshed_eq readable, hactive]
  obtain ⟨attempts, hlaunches, hsteps, hreport⟩ := Site.perform_scanAll types (offers.map (·.2)) tidy
    (s := s.withCache s.registry.refreshed) rfl {}
  rw [← hscan] at hsteps hreport
  have hasked : (offers.map (·.2)).flatMap (queries types) = offers.flatMap fun offer => queries types offer.2 := by
    rw [List.flatMap_map]
  rw [hasked] at hlaunches hreport
  refine ⟨offers, attempts, hnodup, hmem, hsorted, hlaunches, fun q hq ids hids => ?_, fun q _ hfails => ?_, hsteps,
    hsteps.records, ?_, ?_⟩
  · obtain ⟨⟨row, w⟩, ho, hqw⟩ := List.mem_flatMap.1 hq
    exact ⟨Site.targets_launches hids,
      Site.mem_found tidy timely (threshold_nonneg ((hmem row w).1 ho).2 hqw) hids⟩
  · unfold Query.fails at hfails
    unfold Query.launches
    cases hfound : q.found s with
    | ok ids => simp [hfound] at hfails
    | error f => cases q.cutoff? s <;> rfl
  · rw [hreport]
    simp [ScanTally.plus, ScanTally.plusFailed]
  · have := Attempted.counted attempts
    rw [hreport]
    simp only [ScanTally.plus, ScanTally.plusFailed]
    omega

namespace Lone

/-- A definition that waits for drafts. -/
def waiting : Definition :=
  { definition "wait" true with
    triggerType := .stuckAtStatus, triggerConditions := [("duration", .num (.int 0)), ("stuckStatus", .str "draft")] }

/-- Two contracts of which one is a draft, and no table of applications. -/
def drafts : Site :=
  { site true with
    database := { database true with
      definitions := some [.ofDefinition waiting, .ofDefinition (definition "new" true)]
      hostTables := [⟨"contracts", false, [⟨"1", some "draft", some (.int 0), none, none, none⟩,
        ⟨"2", some "signed", some (.int 0), none, none, none⟩]⟩] } }

theorem tidy_drafts : drafts.Tidy where
  names := by decide
  rows t ht := by
    obtain rfl := List.mem_singleton.1 ht
    decide
  memory type m h := by cases type <;> cases h

theorem timely_drafts : drafts.database.Timely := by
  intro t ht r hr c hc
  obtain rfl := List.mem_singleton.1 ht
  refine ⟨0, ?_, .epoch, rfl⟩
  rcases List.mem_cons.1 hr with rfl | hr
  · exact (Option.some.inj hc).symm
  · obtain rfl := List.mem_singleton.1 hr
    exact (Option.some.inj hc).symm

end Lone

/-- A scan attempts the only workflow that waits on the only contract that is a draft, and counts the applications that cannot
be asked for. -/
theorem scan_attempts_of_lone :
    Lone.drafts.database.definitions = some [.ofDefinition Lone.waiting, .ofDefinition (Lone.definition "new" true)] ∧
      Lone.drafts.Tidy ∧ Lone.drafts.database.Timely ∧ ∃ attempts : List Attempted,
        attempts.length = 1 ∧ attempts.countP (·.started) = 1 ∧
        (Lone.drafts.withCache Lone.drafts.registry.refreshed).Launches attempts
          (Lone.drafts.perform (scan TargetType.all)).2 ∧
        (Lone.drafts.perform (scan TargetType.all)).1.failed = 1 := by
  obtain ⟨offers, attempts, -, -, -, -, -, -, hsteps, -, hreport, -⟩ :=
    scan_attempts (s := Lone.drafts) rfl (by decide) Lone.tidy_drafts Lone.timely_drafts TargetType.all
  have counted : (Lone.drafts.perform (scan TargetType.all)).1 = ⟨1, 1, 1, 0, 1⟩ := by decide +kernel
  rw [counted] at hreport
  injection hreport with _ hcandidates hstarted
  exact ⟨rfl, Lone.tidy_drafts, Lone.timely_drafts, attempts, hcandidates.symm, hstarted.symm, hsteps, by rw [counted]⟩

end Lifecycle
