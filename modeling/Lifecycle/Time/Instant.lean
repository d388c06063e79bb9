import Lifecycle.Time.Calendar
import Lifecycle.Time.Span

/-!
Instants: nanoseconds since 1970-01-01T00:00:00Z within the range of the calendar, their arithmetic
with spans, whole milliseconds rounded either way, and their texts.
-/

namespace Lifecycle.Time

/-- The first and the last instant, in nanoseconds: from the start of the year -262143 to the end of
the year 262142. -/
abbrev firstNanos : Int := -8334601228800000 * milliNanos
abbrev lastNanos : Int := 8210266876799999 * milliNanos + 999999

/-- An instant of the calendar. -/
structure Instant where
  nanos : Int
  first_le : firstNanos ≤ nanos
  le_last : nanos ≤ lastNanos
deriving DecidableEq, Repr

namespace Instant

/-- The instant of a number of nanoseconds, if the calendar has it. -/
def ofNanos? (n : Int) : Option Instant :=
  if h : firstNanos ≤ n ∧ n ≤ lastNanos then some ⟨n, h.1, h.2⟩ else none

/-- 1970-01-01T00:00:00Z. -/
def epoch : Instant := ⟨0, by decide, by decide⟩

/-- The last instant of the calendar. -/
def last : Instant := ⟨lastNanos, by decide, by decide⟩

instance : Inhabited Instant := ⟨epoch⟩

instance : LE Instant := ⟨fun a b => a.nanos ≤ b.nanos⟩
instance : LT Instant := ⟨fun a b => a.nanos < b.nanos⟩
instance (a b : Instant) : Decidable (a ≤ b) := inferInstanceAs (Decidable (a.nanos ≤ b.nanos))
instance (a b : Instant) : Decidable (a < b) := inferInstanceAs (Decidable (a.nanos < b.nanos))

/-! ### Arithmetic -/

/-- `s` later, if the calendar has it. -/
def later? (a : Instant) (s : Span) : Option Instant := ofNanos? (a.nanos + s.nanos)

/-- `s` earlier, if the calendar has it. -/
def earlier? (a : Instant) (s : Span) : Option Instant := ofNanos? (a.nanos - s.nanos)

/-- The span from `b` to `a`. -/
def since (a b : Instant) : Span := ⟨a.nanos - b.nanos⟩

/-! ### Whole milliseconds -/

/-- Milliseconds since the epoch, rounded down. -/
def floorMillis (a : Instant) : Int := a.nanos.fdiv milliNanos

/-- Milliseconds since the epoch, rounded up. -/
def ceilMillis (a : Instant) : Int :=
  if a.nanos.fmod milliNanos = 0 then a.floorMillis else a.floorMillis + 1

/-- The instant of a number of milliseconds, if the calendar has it. -/
def ofMillis? (ms : Int) : Option Instant := ofNanos? (ms * milliNanos)

/-! ### Texts -/

/-- Date and time of day, without a zone. -/
def dateTime (a : Instant) : String :=
  let seconds := a.nanos.fdiv secondNanos
  (Date.ofDay (seconds.fdiv 86400)).text ++ "T" ++
    clockText (seconds.fmod 86400).toNat (a.nanos.fmod secondNanos).toNat

/-- The text with the zone written as an offset: in contexts and in snapshots of targets. -/
def offsetText (a : Instant) : String := a.dateTime ++ "+00:00"

/-- The text with the zone written as a letter: in records and tokens. -/
def zuluText (a : Instant) : String := a.dateTime ++ "Z"

end Instant

end Lifecycle.Time
