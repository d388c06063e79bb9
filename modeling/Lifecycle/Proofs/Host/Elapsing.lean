import Lifecycle.Proofs.Host.Scanning

/-!
# How long a status has lasted

A condition counts the whole units since the last change of the status, and a scan asks for the entities that have changed by
a time. Both see the same entities from one unit on. They are counted toward zero, which is not the same as rounding down
where the change lies ahead of the clock: what is ahead by less than a unit counts as no time at all, and not as a unit less.
-/

namespace Lifecycle

open Engine (Visit Outcome Query queries scanFor)
open Host (Site)
open Target (Memory HostRows)
open Time (Instant Span TimeUnit)

/-! ### The condition -/

namespace Handling

variable {types : List TargetType} {v : Visit} {p : Predicate} {c : Target.Call}

/-- A condition asks for what it is about, and goes on with the answer. -/
theorem handle_condition {f : c.Value → Attempt Bool} (kind : v.step.kind = .condition p)
    (asks : answer types v p = onTarget types v c >>= f) (registered : v.record.target.type ∈ types) :
    (handle types v).run = .ask (.target v.record.target.type c) fun
      | .error e => .done (.error (.target e))
      | .ok x => (Outcome.branch <$> f x).run := by
  unfold handle
  rw [kind]
  dsimp only
  rw [asks]
  unfold onTarget
  rw [if_pos (List.contains_iff_mem.2 registered)]
  refine congrArg (Program.ask (P := interface) (.target _ c)) (funext fun x => ?_)
  match x with
  | .error e => rfl
  | .ok x => rfl

end Handling

namespace Host.Site

variable {s s' : Site} {v : Visit} {p : Predicate} {c : Target.Call}

/-- A program goes on with what is answered in time. -/
theorem within_ask {α : Type} {limit waited : Nat} {r : Handling.Request} {next : r.Answer → Program Handling.interface α}
    (h : waited + (s.before r).latency r ≤ limit) : within (some limit) waited (.ask r next) s =
      within (some limit) (waited + (s.before r).latency r) (next (after r (s.before r)).1) (after r (s.before r)).2 := by
  show (if decide (limit < _) = true then _ else _) = _
  rw [if_neg (by simpa using h)]
  rfl

/-- A visit of a condition comes to what the condition makes of the answer, if both come in time. -/
theorem visit_condition {f : c.Value → Handling.Attempt Bool} {x : c.Value} {yes : Bool} (kind : v.step.kind = .condition p)
    (asks : Handling.answer s.worker.types v p = Handling.onTarget s.worker.types v c >>= f)
    (registered : v.record.target.type ∈ s.worker.types)
    (intime : (s.worker.source v.record.target.type).access.latency ≤ s.worker.timeouts.condition)
    (told : s.call v.record.target.type c = (.ok x, s'))
    (answered : within (some s.worker.timeouts.condition) (0 + (s.worker.source v.record.target.type).access.latency)
      (Outcome.branch <$> f x).run s' = (some (.ok (.branch yes)), s')) :
    s.visit v = (.ok (.branch yes), s') := by
  have hlimit : s.worker.timeouts.limit? v.step.kind.type = some s.worker.timeouts.condition := by
    rw [kind]
    rfl
  have hwaited : 0 + (s.worker.source v.record.target.type).access.latency ≤ s.worker.timeouts.condition :=
    (Nat.zero_add _).trans_le intime
  have hhandled : within (some s.worker.timeouts.condition) 0 (Handling.handle s.worker.types v).run s =
      (some (.ok (.branch yes)), s') := by
    rw [Handling.handle_condition kind asks registered]
    have hafter : after (.target v.record.target.type c) (s.before (.target v.record.target.type c)) = (.ok x, s') := told
    refine (within_ask hwaited).trans ?_
    rw [hafter]
    exact answered
  unfold visit
  dsimp only
  rw [hlimit, hhandled]

/-- The condition branches by the whole units since the last change, and to no where there has been none. -/
theorem visit_stuck {op : Comparison} {threshold : Int} {unit : TimeUnit} {x : Option Instant}
    (kind : v.step.kind = .condition (.stuckDuration op threshold unit)) (registered : v.record.target.type ∈ s.worker.types)
    (intime : (s.worker.source v.record.target.type).access.latency ≤ s.worker.timeouts.condition)
    (changed : s.call v.record.target.type (.changedAt v.record.target.id) = (.ok x, s')) :
    s.visit v = (.ok (.branch (x.any fun t => op.holds (unit.unitsIn (s.worker.clock.since t)) threshold)), s') := by
  have hclock : s'.worker.clock = s.worker.clock := by
    have := s.clock_call v.record.target.type (.changedAt v.record.target.id)
    rwa [changed] at this
  refine visit_condition (c := .changedAt v.record.target.id) kind rfl registered intime changed ?_
  rw [← hclock]
  cases x with
  | none => rfl
  | some t => exact within_ask ((Nat.zero_add _).trans_le intime)

end Host.Site

/-! ### Rounding -/

/-- Of two negative numbers of units next to each other, the greater one may be zero; it is all that a threshold can tell. -/
theorem Comparison.holds_succ_iff (op : Comparison) {units threshold : Int} (behind : units < 0) (h : 0 ≤ threshold) :
    (op.holds (units + 1) threshold = op.holds units threshold) ↔
      ¬(units = -1 ∧ threshold = 0 ∧ (op = .gte ∨ op = .lt ∨ op = .eq)) := by
  cases op <;> simp [holds] <;> omega

/-- The condition holds or not as the units do, rounded down where the last change lies behind or is ahead by whole units, and
rounded up where not. With a threshold that workflows may have, that makes a difference only if the threshold is zero, the
last change is ahead by less than a unit, and the operator is one of three. -/
theorem elapsed_units_are_compared {s : Site} {v : Visit} {op : Comparison} {threshold : Int} {unit : TimeUnit} {t : Instant}
    (kind : v.step.kind = .condition (.stuckDuration op threshold unit)) (registered : v.record.target.type ∈ s.worker.types)
    (intime : (s.worker.source v.record.target.type).access.latency ≤ s.worker.timeouts.condition)
    (changed : (s.call v.record.target.type (.changedAt v.record.target.id)).1 = .ok (some t)) :
    ∃ yes, (s.visit v).1 = .ok (.branch yes) ∧
      (¬unit.Upcoming (s.worker.clock.since t) → yes = op.holds (unit.unitsDown (s.worker.clock.since t)) threshold) ∧
      (unit.Upcoming (s.worker.clock.since t) → yes = op.holds (unit.unitsDown (s.worker.clock.since t) + 1) threshold) ∧
      (0 ≤ threshold → (yes = op.holds (unit.unitsDown (s.worker.clock.since t)) threshold ↔
        ¬(threshold = 0 ∧ (op = .gte ∨ op = .lt ∨ op = .eq) ∧
          s.worker.clock.nanos < t.nanos ∧ t.nanos < s.worker.clock.nanos + unit.nanos))) := by
  have hvisit := Host.Site.visit_stuck kind registered intime (Prod.ext changed rfl)
  have hspan : (s.worker.clock.since t).nanos = s.worker.clock.nanos - t.nanos := rfl
  refine ⟨op.holds (unit.unitsIn (s.worker.clock.since t)) threshold, by rw [hvisit]; rfl, fun hwhole => ?_,
    fun hpart => ?_, fun accepted => ?_⟩
  · rw [unit.unitsIn_of_not_upcoming hwhole]
  · rw [unit.unitsIn_of_upcoming hpart]
  · by_cases hpart : unit.Upcoming (s.worker.clock.since t)
    · have hahead := hpart.1
      rw [unit.unitsIn_of_upcoming hpart, Comparison.holds_succ_iff op (unit.unitsDown_neg hpart) accepted,
        unit.unitsDown_eq_neg_one_iff hpart, not_iff_not]
      constructor
      · rintro ⟨hshort, hzero, hop⟩
        exact ⟨hzero, hop, by omega, by omega⟩
      · rintro ⟨hzero, hop, -, hshort⟩
        exact ⟨by omega, hzero, hop⟩
    · rw [unit.unitsIn_of_not_upcoming hpart]
      refine iff_of_true rfl ?_
      rintro ⟨-, -, hahead, hshort⟩
      exact hpart (unit.upcoming_of_lt (by omega) (by omega))

namespace Lone

/-- A contract of a table that has been a draft since `millis`, and a worker whose clock is at `now`. -/
def since (millis : Int) (now : Instant) : Site where
  database := { database true with
    hostTables := [⟨"contracts", false, [⟨"1", some "draft", some (.int millis), none, none, none⟩]⟩] }
  serial := 0
  worker := { worker with clock := now }

theorem tidy_since (millis : Int) (now : Instant) : (since millis now).Tidy where
  names := List.nodup_singleton _
  rows t ht := by
    obtain rfl := List.mem_singleton.1 ht
    exact List.nodup_singleton _
  memory type m h := by cases type <;> cases h

/-- Whether the contract has been a draft for at least `minutes`. -/
def asksFor (minutes : Nat) : Visit where
  workflow := workflow "new" true
  record := ⟨"e", "new", ⟨.contract, "1"⟩, .statusChanged, .running, false, none, none, .epoch, none, .epoch⟩
  context := .ofChange "draft" "signed"
  step := ⟨"c", .condition (.stuckDuration .gte minutes .minutes)⟩

/-- Thirty seconds past the beginning. -/
def thirtySeconds : Instant := ⟨30 * Time.secondNanos, by decide, by decide⟩

end Lone

/-- A change thirty seconds ahead, asked about in minutes. -/
theorem elapsed_units_of_lone :
    ((Lone.since 30000 .epoch).call .contract (.changedAt "1")).1 = .ok (some Lone.thirtySeconds) ∧
      ∃ yes, ((Lone.since 30000 .epoch).visit (Lone.asksFor 1)).1 = .ok (.branch yes) ∧
        yes = Comparison.gte.holds (TimeUnit.minutes.unitsDown (Instant.epoch.since Lone.thirtySeconds)) 1 := by
  obtain ⟨yes, hvisit, -, -, hfloor⟩ := elapsed_units_are_compared (s := Lone.since 30000 .epoch) (v := Lone.asksFor 1)
    (t := Lone.thirtySeconds) rfl (by decide) (by decide) rfl
  exact ⟨rfl, yes, hvisit, (hfloor (by decide)).2 fun h => absurd h.1 (by decide)⟩

/-- Rounded down, what is thirty seconds ahead has lasted for less than no minute; and yet the condition takes it for none. -/
theorem change_ahead_counts_as_none :
    ((Lone.since 30000 .epoch).call .contract (.changedAt "1")).1 = .ok (some Lone.thirtySeconds) ∧
      Comparison.gte.holds (TimeUnit.minutes.unitsDown (Instant.epoch.since Lone.thirtySeconds)) 0 = false ∧
      ((Lone.since 30000 .epoch).visit (Lone.asksFor 0)).1 = .ok (.branch true) :=
  ⟨rfl, by decide, rfl⟩

/-! ### The scan -/

namespace Host.Site

variable {s : Site}

/-- An entity whose time can be told is found by a source that can be reached if it is in the status, and its time has come. -/
theorem mem_find_of_changed (tidy : s.Tidy) {type : TargetType} {id : String} {t : Instant} (status : String) (before : Instant)
    (works : (s.worker.source type).access.failure = none) (changed : (s.call type (.changedAt id)).1 = .ok (some t)) :
    ∃ ids : List String, (s.call type (.find status before)).1 = .ok ids ∧
      (id ∈ ids ↔ (s.call type (.status id)).1 = .ok (some status) ∧ t ≤ before) := by
  have hcall (c : Target.Call) : s.call type c = s.reach type c := by
    unfold call refusal?
    dsimp only
    rw [works]
    rfl
  rw [hcall] at changed
  rw [hcall, hcall]
  unfold reach at changed ⊢
  dsimp only at changed ⊢
  cases hcollection : (s.worker.source type).collection with
  | memory m =>
    rw [hcollection] at changed
    refine ⟨_, rfl, ((Memory.mem_found (tidy.memory type m hcollection) rfl).2 id).trans (and_congr_right fun _ => ?_)⟩
    refine ⟨?_, fun hle => ⟨t, changed, hle⟩⟩
    rintro ⟨u, hu, hle⟩
    obtain rfl : t = u := Option.some.inj (Except.ok.inj (changed.symm.trans hu))
    exact hle
  | table name =>
    rw [hcollection] at changed
    dsimp only at changed ⊢
    cases htable : s.database.hostTable name with
    | error f =>
      rw [htable] at changed
      cases changed
    | ok table =>
      rw [htable] at changed
      obtain ⟨hmem, -⟩ := Store.Database.mem_of_hostTable htable
      exact ⟨_, rfl, HostRows.mem_inStatusSince_of_changed (tidy.rows table hmem) changed⟩

end Host.Site

/-- What is asked for a workflow is asked of registered types, and as its trigger has it. -/
theorem Engine.mem_queries {types : List TargetType} {w : Workflow} {scope : Option TargetType} {status : String}
    {threshold : Span} {once : Bool} {q : Query} (waits : w.trigger = .stuckAtStatus scope status threshold once)
    (h : q ∈ queries types w) : q.type ∈ types ∧ q.status = status ∧ q.threshold = threshold := by
  unfold queries at h
  rw [waits] at h
  obtain ⟨type, htype, rfl⟩ := List.mem_map.1 h
  exact ⟨(List.mem_filter.1 htype).1, rfl, rfl⟩

/-- A scan and a condition with the same threshold of one unit or more agree on every entity whose last change can be told:
the scan finds it if and only if it is in the status and the condition says yes. If the calendar begins too late, the scan
finds none, and the condition says no of any. -/
theorem scan_and_condition_agree {s : Site} (tidy : s.Tidy) {w : Workflow} {scope : Option TargetType} {status : String}
    {threshold : Span} {once : Bool} {unit : TimeUnit} {amount : Nat} (positive : 1 ≤ amount)
    (inRange : unit.span amount = some threshold) (waits : w.trigger = .stuckAtStatus scope status threshold once)
    {q : Query} (asked : q ∈ queries s.worker.types w) (works : (s.worker.source q.type).access.failure = none)
    (intime : (s.worker.source q.type).access.latency ≤ s.worker.timeouts.condition) :
    (∀ {id : String} {t : Instant} {v : Visit}, (s.call q.type (.changedAt id)).1 = .ok (some t) →
        v.record.target = ⟨q.type, id⟩ → v.step.kind = .condition (.stuckDuration .gte amount unit) →
        ∃ ids yes, q.found s = .ok ids ∧ s.visit v = (.ok (.branch yes), s) ∧
          (id ∈ ids ↔ (s.call q.type (.status id)).1 = .ok (some status) ∧ yes = true)) ∧
      (s.worker.clock.earlier? threshold = none →
        (q.found s = .ok [] ∧ ∀ report, s.perform (scanFor s.worker.types w report) = (report, s)) ∧
        ∀ {id : String} {x : Option Instant} {v : Visit}, (s.call q.type (.changedAt id)).1 = .ok x →
          v.record.target = ⟨q.type, id⟩ → v.step.kind = .condition (.stuckDuration .gte amount unit) →
          s.visit v = (.ok (.branch false), s)) := by
  obtain ⟨registered, rfl, rfl⟩ := Engine.mem_queries waits asked
  have forward := unit.span_nonneg inRange
  -- the condition says yes if the last change lies before what the scan asks for
  have lasted (t : Instant) : Comparison.gte.holds (unit.unitsIn (s.worker.clock.since t)) amount = true ↔
      ∃ cutoff, s.worker.clock.earlier? q.threshold = some cutoff ∧ t ≤ cutoff := by
    have hlong : q.threshold.nanos ≤ s.worker.clock.nanos - t.nanos ↔ t.nanos + q.threshold.nanos ≤ s.worker.clock.nanos := by
      omega
    rw [s.worker.clock.exists_earlier?_iff t forward, ← hlong]
    exact decide_eq_true_iff.trans (unit.le_unitsIn_iff_of_span inRange positive)
  have visited {id : String} {x : Option Instant} {v : Visit} (changed : (s.call q.type (.changedAt id)).1 = .ok x)
      (target : v.record.target = ⟨q.type, id⟩) (kind : v.step.kind = .condition (.stuckDuration .gte amount unit)) :
      s.visit v = (.ok (.branch (x.any fun t => Comparison.gte.holds (unit.unitsIn (s.worker.clock.since t)) amount)), s) := by
    have still : (s.call q.type (.changedAt id)).2 = s := Host.Site.call_reads tidy.names q.type trivial
    refine Host.Site.visit_stuck kind ?_ ?_ ?_ <;> rw [target]
    · exact registered
    · exact intime
    · exact Prod.ext changed still
  refine ⟨fun {id t v} changed target kind => ?_, fun early => ⟨⟨Query.found_of_none early, fun report => ?_⟩, ?_⟩⟩
  · cases early : s.worker.clock.earlier? q.threshold with
    | none =>
      refine ⟨[], _, Query.found_of_none early, visited changed target kind, iff_of_false List.not_mem_nil ?_⟩
      rintro ⟨-, hyes⟩
      obtain ⟨cutoff, hcutoff, -⟩ := (lasted t).1 hyes
      rw [early] at hcutoff
      cases hcutoff
    | some cutoff =>
      obtain ⟨ids, hfind, hmem⟩ := Host.Site.mem_find_of_changed tidy q.status cutoff works changed
      refine ⟨ids, _, (Query.found_of_some early).trans hfind, visited changed target kind, hmem.trans (and_congr_right fun _ => ?_)⟩
      show _ ↔ Comparison.gte.holds (unit.unitsIn (s.worker.clock.since t)) amount = true
      rw [lasted t, early]
      simp
  · rw [Host.Site.perform_scanFor_eq waits, early]
  · intro id x v changed target kind
    rw [visited changed target kind]
    cases x with
    | none => rfl
    | some t =>
      have hno : ¬Comparison.gte.holds (unit.unitsIn (s.worker.clock.since t)) amount = true := by
        rw [lasted t, early]
        simp
      rw [Option.any_some, Bool.eq_false_iff.2 hno]

namespace Lone

/-- Waits for drafts that have lasted for a minute. -/
def lasting : Workflow :=
  { workflow "wait" true with trigger := .stuckAtStatus none "draft" (.ofSeconds 60) false }

/-- A minute and half a millisecond past the beginning. -/
def minuteOrSo : Instant := ⟨60 * Time.secondNanos + 500000, by decide, by decide⟩

end Lone

/-- A draft of a minute and half a millisecond, kept in whole milliseconds, is found, and the condition says yes. -/
theorem scan_and_condition_of_lone :
    let s := Lone.since 0 Lone.minuteOrSo
    let q : Query := ⟨Lone.lasting, .contract, "draft", .ofSeconds 60, false⟩
    s.Tidy ∧ q ∈ queries s.worker.types Lone.lasting ∧ ∃ ids yes, q.found s = .ok ids ∧
      s.visit (Lone.asksFor 1) = (.ok (.branch yes), s) ∧ yes = true ∧ "1" ∈ ids := by
  intro s q
  have asked : q ∈ queries s.worker.types Lone.lasting := List.mem_cons_of_mem _ List.mem_cons_self
  have minute : TimeUnit.minutes.span 1 = some (.ofSeconds 60) := rfl
  have changed : (s.call .contract (.changedAt "1")).1 = .ok (some .epoch) := rfl
  have target : (Lone.asksFor 1).record.target = ⟨.contract, "1"⟩ := rfl
  obtain ⟨agree, -⟩ := scan_and_condition_agree (Lone.tidy_since 0 Lone.minuteOrSo) (Nat.le_refl 1) minute rfl asked rfl
    (by decide)
  obtain ⟨ids, yes, hfound, hvisit, hmem⟩ := agree changed target rfl
  have said : (s.visit (Lone.asksFor 1)).1 = .ok (.branch true) := rfl
  rw [hvisit] at said
  obtain rfl : yes = true := Outcome.branch.inj (Except.ok.inj said)
  exact ⟨Lone.tidy_since 0 Lone.minuteOrSo, asked, ids, true, hfound, hvisit, rfl, hmem.2 ⟨rfl, rfl⟩⟩

end Lifecycle
