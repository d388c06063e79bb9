import Lifecycle.Time.Span
import Mathlib.Data.Int.Init

/-!
# Whole units

The whole units in a span are counted without what is left over. That rounds down a span that lies behind, and up one that is
still to come and no whole number of units long. They reach a positive number when, and only when, the span is as long as that
many units, so that it makes no difference whether units are counted or spans are compared.
-/

namespace Lifecycle.Time

theorem signed64?_eq_some_iff {n m : Int} :
    signed64? n = some m ↔ (-(Text.int64Bound : Int) ≤ n ∧ n < Text.int64Bound) ∧ n = m := by
  rw [signed64?, Option.ite_none_right_eq_some, Option.some.injEq]

theorem Span.ofNanos?_eq_some_iff {n : Int} {s : Span} :
    ofNanos? n = some s ↔ (-(longestMillis * milliNanos) ≤ n ∧ n ≤ longestMillis * milliNanos) ∧ ⟨n⟩ = s := by
  rw [ofNanos?, Option.ite_none_right_eq_some, Option.some.injEq]

namespace TimeUnit

variable (u : TimeUnit) {s : Span}

/-- The nanoseconds in a unit. -/
abbrev nanos : Int := u.seconds * secondNanos

theorem seconds_pos : 0 < u.seconds := by cases u <;> decide

theorem nanos_pos : 0 < u.nanos := by cases u <;> decide

/-! ### Spans of units -/

/-- The range of 64 bits is wider than that of spans, for the amount as well as for its seconds: only the latter bounds what
has a span. -/
theorem span_eq_some_iff {amount : Nat} :
    u.span amount = some s ↔ amount * u.seconds ≤ longestSeconds ∧ s = .ofSeconds (amount * u.seconds) := by
  have hamount : amount ≤ amount * u.seconds := Nat.le_mul_of_pos_right amount u.seconds_pos
  simp only [span, bind, Option.bind_eq_some_iff, signed64?_eq_some_iff, Span.ofNanos?_eq_some_iff]
  simp only [longestSeconds, longestMillis, milliNanos, secondNanos, Text.int64Bound]
  constructor
  · rintro ⟨_, ⟨-, rfl⟩, _, ⟨-, rfl⟩, hrange, rfl⟩
    exact ⟨by omega, rfl⟩
  · rintro ⟨hle, rfl⟩
    exact ⟨amount, ⟨by omega, rfl⟩, amount * u.seconds, ⟨by omega, rfl⟩, by omega, rfl⟩

theorem isSome_span_iff {amount : Nat} : (u.span amount).isSome = true ↔ amount * u.seconds ≤ longestSeconds := by
  rw [Option.isSome_iff_exists]
  exact ⟨fun ⟨_, h⟩ => (u.span_eq_some_iff.1 h).1, fun h => ⟨_, u.span_eq_some_iff.2 ⟨h, rfl⟩⟩⟩

theorem nanos_of_span {amount : Nat} (h : u.span amount = some s) : s.nanos = amount * u.nanos := by
  obtain ⟨-, rfl⟩ := u.span_eq_some_iff.1 h
  exact Int.mul_assoc _ _ _

theorem span_nonneg {amount : Nat} (h : u.span amount = some s) : 0 ≤ s.nanos := by
  rw [u.nanos_of_span h]
  exact Int.mul_nonneg (Int.natCast_nonneg amount) (Int.le_of_lt u.nanos_pos)

/-! ### Rounding -/

/-- The whole units in a span, rounded down. -/
def unitsDown (s : Span) : Int := s.nanos.fdiv u.nanos

/-- The span is still to come, and no whole number of units long. -/
def Upcoming (s : Span) : Prop := s.nanos < 0 ∧ ¬u.nanos ∣ s.nanos

theorem unitsDown_eq (s : Span) : u.unitsDown s = s.nanos / u.nanos := Int.fdiv_eq_ediv_of_nonneg _ (Int.le_of_lt u.nanos_pos)

theorem unitsIn_eq (s : Span) : u.unitsIn s = u.unitsDown s + if 0 ≤ s.nanos ∨ u.nanos ∣ s.nanos then 0 else 1 := by
  rw [unitsDown_eq, ← Int.sign_eq_one_of_pos u.nanos_pos]
  exact Int.tdiv_eq_ediv

theorem unitsIn_of_upcoming (h : u.Upcoming s) : u.unitsIn s = u.unitsDown s + 1 := by
  rw [unitsIn_eq, if_neg (not_or.2 ⟨Int.not_le.2 h.1, h.2⟩)]

theorem unitsIn_of_not_upcoming (h : ¬u.Upcoming s) : u.unitsIn s = u.unitsDown s := by
  have hwhole : 0 ≤ s.nanos ∨ u.nanos ∣ s.nanos :=
    Decidable.or_iff_not_imp_left.2 fun hneg => Decidable.not_not.1 fun hnot => h ⟨Int.not_le.1 hneg, hnot⟩
  rw [unitsIn_eq, if_pos hwhole, Int.add_zero]

theorem unitsDown_neg (h : u.Upcoming s) : u.unitsDown s < 0 := by
  rw [unitsDown_eq]
  exact Int.ediv_neg_of_neg_of_pos h.1 u.nanos_pos

/-- What is ahead by less than a unit is ahead by no whole number of them. -/
theorem upcoming_of_lt (h : s.nanos < 0) (short : -u.nanos < s.nanos) : u.Upcoming s := by
  refine ⟨h, fun hdvd => ?_⟩
  have hle : u.nanos ≤ -s.nanos := Int.le_of_dvd (by omega) (Int.dvd_neg.2 hdvd)
  omega

/-- A span that is still to come is less than a unit long if it is rounded down to one unit. -/
theorem unitsDown_eq_neg_one_iff (h : u.Upcoming s) : u.unitsDown s = -1 ↔ -u.nanos < s.nanos := by
  have hneg := u.unitsDown_neg h
  have hbound : -1 ≤ u.unitsDown s ↔ -1 * u.nanos ≤ s.nanos := by
    rw [unitsDown_eq]
    exact Int.le_ediv_iff_mul_le u.nanos_pos
  have hne : s.nanos ≠ -u.nanos := fun heq => h.2 (heq ▸ (Int.dvd_neg.2 (Int.dvd_refl _)))
  omega

/-! ### Counting and comparing -/

/-- The units of a span are counted back. -/
theorem unitsIn_of_span {amount : Nat} (h : u.span amount = some s) : u.unitsIn s = amount := by
  rw [unitsIn, u.nanos_of_span h]
  exact Int.mul_tdiv_cancel _ (Int.ne_of_gt u.nanos_pos)

/-- A positive number of units is reached by a span that is as long. -/
theorem le_unitsIn_iff {n : Int} (h : 0 < n) : n ≤ u.unitsIn s ↔ n * u.nanos ≤ s.nanos := by
  have hdown : n ≤ u.unitsDown s ↔ n * u.nanos ≤ s.nanos := by
    rw [unitsDown_eq]
    exact Int.le_ediv_iff_mul_le u.nanos_pos
  by_cases hp : u.Upcoming s
  · -- what is still to come reaches no positive number, rounded either way
    have hneg := u.unitsDown_neg hp
    rw [unitsIn_of_upcoming u hp, ← hdown]
    omega
  · rw [unitsIn_of_not_upcoming u hp, hdown]

theorem le_unitsIn_iff_of_span {amount : Nat} {threshold : Span} (h : u.span amount = some threshold) (positive : 1 ≤ amount) :
    (amount : Int) ≤ u.unitsIn s ↔ threshold.nanos ≤ s.nanos := by
  rw [u.nanos_of_span h]
  exact u.le_unitsIn_iff (by omega)

/-- Thirty seconds that are still to come are no minute, but rounded down they are one. -/
example : (TimeUnit.minutes.unitsIn ⟨-30 * secondNanos⟩, TimeUnit.minutes.unitsDown ⟨-30 * secondNanos⟩) = (0, -1) := by decide

end TimeUnit

end Lifecycle.Time
