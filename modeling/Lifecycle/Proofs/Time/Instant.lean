import Lifecycle.Time.Instant

/-!
# Whole milliseconds

An instant rounded up is reached by a clock that is rounded down when, and only when, the clock has reached the whole
millisecond. The calendar ends in the middle of a millisecond, so that the instants of its last one cannot be rounded up.
-/

namespace Lifecycle.Time

/-- A number of nanoseconds rounded up to whole milliseconds. -/
def roundedUp (n : Int) : Int := -(-n / milliNanos) * milliNanos

theorem le_roundedUp (n : Int) : n ≤ roundedUp n := by
  unfold roundedUp milliNanos
  omega

theorem roundedUp_lt (n : Int) : roundedUp n < n + milliNanos := by
  unfold roundedUp milliNanos
  omega

namespace Instant

theorem eq_iff (a b : Instant) : a = b ↔ a.nanos = b.nanos := by
  cases a
  cases b
  simp

theorem floorMillis_eq (a : Instant) : a.floorMillis = a.nanos / milliNanos := Int.fdiv_eq_ediv_of_nonneg _ (by decide)

theorem ceilMillis_eq (a : Instant) : a.ceilMillis = -(-a.nanos / milliNanos) := by
  have hmod : a.nanos.fmod milliNanos = a.nanos % milliNanos := Int.fmod_eq_emod_of_nonneg _ (by decide)
  unfold ceilMillis
  rw [hmod, floorMillis_eq]
  unfold milliNanos
  split <;> omega

theorem ceilMillis_mul (a : Instant) : a.ceilMillis * milliNanos = roundedUp a.nanos := by
  rw [ceilMillis_eq, roundedUp]

/-- A clock that is rounded down has reached what is rounded up if and only if it has reached the whole millisecond. -/
theorem ceilMillis_le_floorMillis_iff (a u : Instant) : a.ceilMillis ≤ u.floorMillis ↔ roundedUp a.nanos ≤ u.nanos := by
  rw [ceilMillis_eq, floorMillis_eq, roundedUp]
  unfold milliNanos
  omega

theorem floorMillis_last : last.floorMillis = 8210266876799999 := by decide

/-- What a clock can reach after it was rounded up can be rounded up in the calendar. -/
theorem le_floorMillis_last {n : Int} {u : Instant} (h : roundedUp n ≤ u.nanos) : n ≤ last.floorMillis * milliNanos := by
  have hu := u.le_last
  rw [floorMillis_last]
  simp only [roundedUp, lastNanos, milliNanos] at h hu ⊢
  omega

theorem floorMillis_last_lt : last.floorMillis * milliNanos < lastNanos := by decide

/-- No clock reaches what lies beyond the calendar, nor the last instant rounded up. -/
theorem roundedUp_min_le_iff (n : Int) (u : Instant) : roundedUp (min n lastNanos) ≤ u.nanos ↔ roundedUp n ≤ u.nanos := by
  have hu := u.le_last
  simp only [roundedUp, lastNanos, milliNanos] at hu ⊢
  omega

/-- What is rounded up is an instant, if a whole millisecond follows in the calendar. -/
theorem ofMillis?_ceilMillis {a : Instant} (h : a.nanos ≤ last.floorMillis * milliNanos) :
    ∃ t, ofMillis? a.ceilMillis = some t ∧ t.nanos = roundedUp a.nanos := by
  have hlow := a.first_le
  rw [floorMillis_last] at h
  have hrange : firstNanos ≤ a.ceilMillis * milliNanos ∧ a.ceilMillis * milliNanos ≤ lastNanos := by
    rw [ceilMillis_eq]
    simp only [firstNanos, lastNanos, milliNanos] at hlow h ⊢
    omega
  exact ⟨_, dif_pos hrange, a.ceilMillis_mul⟩

theorem ofMillis?_ceilMillis_eq_none {a : Instant} (h : last.floorMillis * milliNanos < a.nanos) :
    ofMillis? a.ceilMillis = none := by
  rw [floorMillis_last] at h
  refine dif_neg fun hrange => ?_
  rw [ceilMillis_eq] at hrange
  simp only [firstNanos, lastNanos, milliNanos] at h hrange
  omega

theorem ceilMillis_of_last {a : Instant} (h : last.floorMillis * milliNanos < a.nanos) :
    a.ceilMillis = last.floorMillis + 1 := by
  have ha := a.le_last
  rw [floorMillis_last] at h ⊢
  rw [ceilMillis_eq]
  simp only [lastNanos, milliNanos] at h ha ⊢
  omega

/-- What is later by a span of no negative length, or the end of the calendar. -/
theorem nanos_later? (a : Instant) {s : Span} (h : 0 ≤ s.nanos) :
    ((a.later? s).getD last).nanos = min (a.nanos + s.nanos) lastNanos := by
  have hlow : firstNanos ≤ a.nanos + s.nanos := Int.le_trans a.first_le (Int.le_add_of_nonneg_right h)
  unfold later? ofNanos?
  split
  · rename_i hrange
    exact (Int.min_eq_left hrange.2).symm
  · rename_i hrange
    have hhigh : lastNanos ≤ a.nanos + s.nanos := by omega
    exact (Int.min_eq_right hhigh).symm

/-- An instant lies a span or more before another one if and only if it is no later than the one that is the span earlier. -/
theorem exists_earlier?_iff (a t : Instant) {s : Span} (h : 0 ≤ s.nanos) :
    (∃ cutoff, a.earlier? s = some cutoff ∧ t ≤ cutoff) ↔ t.nanos + s.nanos ≤ a.nanos := by
  have ha := a.le_last
  have ht := t.first_le
  unfold earlier? ofNanos?
  split
  · have hle (cutoff : Instant) (hnanos : cutoff.nanos = a.nanos - s.nanos) : t ≤ cutoff ↔ t.nanos + s.nanos ≤ a.nanos := by
      show t.nanos ≤ cutoff.nanos ↔ _
      omega
    constructor
    · rintro ⟨cutoff, hcutoff, hbefore⟩
      cases hcutoff
      exact (hle _ rfl).1 hbefore
    · exact fun hpast => ⟨_, rfl, (hle _ rfl).2 hpast⟩
  · refine iff_of_false ?_ (by omega)
    rintro ⟨cutoff, hcutoff, -⟩
    cases hcutoff

/-! ### Milliseconds of columns -/

/-- The whole millisecond in which an instant lies, also before 1970: what is kept of it in a column. -/
def truncated (t : Instant) : Instant where
  nanos := t.floorMillis * milliNanos
  first_le := by
    have hlow := t.first_le
    rw [floorMillis_eq]
    simp only [firstNanos, milliNanos] at hlow ⊢
    omega
  le_last := by
    have hhigh := t.le_last
    rw [floorMillis_eq]
    simp only [lastNanos, milliNanos] at hhigh ⊢
    omega

theorem ofMillis?_floorMillis (t : Instant) : ofMillis? t.floorMillis = some t.truncated :=
  dif_pos ⟨t.truncated.first_le, t.truncated.le_last⟩

/-- What is kept of an instant is the instant itself, or earlier by less than a millisecond. -/
theorem truncated_bounds (t : Instant) : t.truncated.nanos ≤ t.nanos ∧ t.nanos < t.truncated.nanos + milliNanos := by
  show t.floorMillis * milliNanos ≤ t.nanos ∧ t.nanos < t.floorMillis * milliNanos + milliNanos
  rw [floorMillis_eq]
  simp only [milliNanos]
  omega

theorem nanos_of_ofMillis? {n : Int} {t : Instant} (h : ofMillis? n = some t) : t.nanos = n * milliNanos := by
  unfold ofMillis? ofNanos? at h
  split at h <;> cases h
  rfl

/-- A time in whole milliseconds has come if it has come in milliseconds rounded down. -/
theorem le_floorMillis_iff {n : Int} {t : Instant} (h : ofMillis? n = some t) (u : Instant) :
    n ≤ u.floorMillis ↔ t ≤ u := by
  show n ≤ u.floorMillis ↔ t.nanos ≤ u.nanos
  rw [floorMillis_eq, nanos_of_ofMillis? h]
  exact Int.le_ediv_iff_mul_le (by decide)

end Instant

end Lifecycle.Time
