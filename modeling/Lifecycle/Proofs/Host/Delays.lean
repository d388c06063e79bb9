import Lifecycle.Proofs.Host.Site
import Lifecycle.Proofs.Time.Instant
import Lifecycle.Proofs.Workflow.Graph

/-!
# The ends of delays

A delay that is too long to be a span is refused with its workflow, so that no delay that is visited is taken for an empty
one. It ends after the time at which it is visited, unless the calendar ends there: the end of a delay that the calendar does
not reach is the last instant.
-/

namespace Lifecycle

open Engine (Visit)
open Time (Instant Span TimeUnit lastNanos longestSeconds)

/-- The time in nanoseconds at which a delay is over that begins at `t`, also beyond the calendar. -/
def Delay.over (d : Delay) (t : Instant) : Int := t.nanos + d.nanos

namespace Handling

variable {d : Delay}

theorem nanos_delayEnd (h : d.Proper) (t : Instant) : (delayEnd d t).nanos = min (d.over t) lastNanos := by
  rw [delayEnd, h.span_eq, Option.getD_some]
  exact t.nanos_later? d.nanos_nonneg

theorem delayEnd_of_lt (h : d.Proper) {t : Instant} (beyond : lastNanos < d.over t) : delayEnd d t = .last := by
  rw [Instant.eq_iff, nanos_delayEnd h]
  exact Int.min_eq_right (Int.le_of_lt beyond)

/-- No delay is empty, and only that of the last instant ends where it begins. -/
theorem lt_delayEnd_iff (h : d.Proper) (t : Instant) : t < delayEnd d t ↔ t < .last := by
  have hpos := h.nanos_pos
  show t.nanos < (delayEnd d t).nanos ↔ t.nanos < lastNanos
  rw [nanos_delayEnd h, lt_min_iff]
  exact and_iff_right (Int.lt_add_of_pos_right _ hpos)

end Handling

/-! ### A delay of some days -/

namespace Sample

/-- A trigger, a delay of some days, and a node behind it. -/
def pauseDefinition (days : Nat) : Definition where
  id := "w"
  name := "w"
  triggerType := .statusChanged
  triggerConditions := [("runOnce", .bool true)]
  active := true
  nodes := [⟨"t", .trigger, .null, none⟩, ⟨"d", .delay, .object [("duration", .int days), ("unit", .str "days")], none⟩,
    ⟨"g", .tagTarget, .object [("value", .str "late")], none⟩]
  connections := [⟨"t", "d", .next⟩, ⟨"d", "g", .next⟩]

def pausing (days : Nat) : Workflow where
  definition := pauseDefinition days
  trigger := .statusChanged none .any .any true
  graph :=
    { steps := [⟨"t", .trigger⟩, ⟨"d", .delay ⟨days, .days⟩⟩, ⟨"g", .tagTarget ⟨"late"⟩⟩]
      connections := [⟨"t", "d", .next⟩, ⟨"d", "g", .next⟩]
      entry := ⟨"t", .trigger⟩
      heights := [("t", 2), ("d", 1), ("g", 0)]
      falls := by decide }

/-- A worker with nothing around it. -/
def worker (clock : Instant) (db : Store.Database) : Host.Site :=
  ⟨db, 0, { clock, applications := ⟨.memory [], {}⟩, contracts := ⟨.memory [], {}⟩, types := [], templates := none }⟩

/-- A visit of the delay, in an execution that has just begun. -/
def visitOfPause (days : Nat) : Visit where
  workflow := pausing days
  record := ⟨"e", "w", ⟨.application, "1"⟩, .statusChanged, .running, true, none, none, .epoch, none, .epoch⟩
  context := .ofChange "a" "b"
  step := ⟨"d", .delay ⟨days, .days⟩⟩

end Sample

/-! ### What is promised -/

/-- An amount of units has a span if and only if there are spans of as many seconds. It is then as long as that, and has as
many units. The delays of accepted workflows have spans: wherever one of them is visited it suspends the execution, for its
whole length if the calendar reaches that far and else until the last instant; in either case for later than the time of the
visit, unless that is the last instant itself. -/
theorem delays_end_later :
    (∀ (u : TimeUnit) (amount : Nat),
      ((u.span amount).isSome = true ↔ amount * u.seconds ≤ longestSeconds) ∧
      ∀ span, u.span amount = some span → span = .ofSeconds (amount * u.seconds) ∧ u.unitsIn span = amount) ∧
    ∀ (definition : Definition) (w : Workflow), Workflow.ofDefinition definition = .ok w →
      ∀ step ∈ w.graph.steps, ∀ d : Delay, step.kind = .delay d →
        (∃ span, d.span = some span ∧ span.nanos = d.nanos) ∧
        ∀ (v : Visit) (site : Host.Site), v.step = step →
          ∃ resumeAt, site.visit v = (.ok (.suspend resumeAt), site) ∧
            (d.over site.worker.clock ≤ lastNanos → resumeAt.nanos = d.over site.worker.clock) ∧
            (lastNanos < d.over site.worker.clock → resumeAt = .last) ∧
            (site.worker.clock < resumeAt ↔ site.worker.clock < .last) := by
  refine ⟨fun u amount => ⟨u.isSome_span_iff, fun span h => ?_⟩, fun definition w accepted step hstep d hd => ?_⟩
  · exact ⟨(u.span_eq_some_iff.1 h).2, u.unitsIn_of_span h⟩
  · have proper := Workflow.proper_of_mem accepted hstep hd
    refine ⟨⟨_, proper.span_eq, rfl⟩, ?_⟩
    rintro v site rfl
    refine ⟨_, site.visit_delay hd, fun hle => ?_, Handling.delayEnd_of_lt proper, Handling.lt_delayEnd_iff proper _⟩
    rw [Handling.nanos_delayEnd proper]
    exact Int.min_eq_left hle

/-- The longest delay in days, visited in 1970, lasts beyond the calendar, but is not taken for an empty one. -/
theorem longest_delay_ends_last :
    (Sample.worker .epoch .empty).visit (Sample.visitOfPause 106751991167) =
      (.ok (.suspend .last), Sample.worker .epoch .empty) := by
  have beyond : lastNanos < (⟨106751991167, .days⟩ : Delay).over .epoch := by decide
  obtain ⟨resumeAt, visited, -, last, -⟩ := (delays_end_later.2 (Sample.pauseDefinition 106751991167) (Sample.pausing 106751991167)
    rfl _ (List.mem_cons_of_mem _ List.mem_cons_self) _ rfl).2 (Sample.visitOfPause 106751991167) (Sample.worker .epoch .empty) rfl
  rw [visited, last beyond]

/-- The longest delay in days has a span, and one day more has none. -/
example : ((⟨106751991167, .days⟩ : Delay).span.isSome, (⟨106751991168, .days⟩ : Delay).span.isSome) = (true, false) := by decide

end Lifecycle
