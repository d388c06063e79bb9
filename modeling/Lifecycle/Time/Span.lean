import Lifecycle.Text.Integer

/-!
Spans of time in nanoseconds, and the units in which workflows give them.
-/

namespace Lifecycle.Time

/-- A span of time, of either sign. -/
structure Span where
  nanos : Int
deriving DecidableEq, Repr

/-- Nanoseconds in a second and in a millisecond. -/
abbrev secondNanos : Int := 1000000000
abbrev milliNanos : Int := 1000000

/-- The longest span, in whole seconds. -/
abbrev longestSeconds : Nat := 9223372036854775

/-- The longest span, in milliseconds. -/
abbrev longestMillis : Int := 9223372036854775807

/-- The span of a number of nanoseconds, unless it is longer than the longest span. -/
def Span.ofNanos? (n : Int) : Option Span :=
  if -(longestMillis * milliNanos) ≤ n ∧ n ≤ longestMillis * milliNanos then some ⟨n⟩ else none

/-- A span of whole seconds. -/
def Span.ofSeconds (n : Int) : Span := ⟨n * secondNanos⟩

/-- A number as a signed integer of 64 bits, unless it is out of range. -/
def signed64? (n : Int) : Option Int :=
  if -(Text.int64Bound : Int) ≤ n ∧ n < Text.int64Bound then some n else none

/-- The units of the spans of workflows. -/
inductive TimeUnit where
  | minutes | hours | days
deriving DecidableEq, Repr

namespace TimeUnit

def seconds : TimeUnit → Nat
  | .minutes => 60
  | .hours => 3600
  | .days => 86400

def name : TimeUnit → String
  | .minutes => "minutes"
  | .hours => "hours"
  | .days => "days"

/-- The span of `amount` units; `none` if the amount or its seconds are no signed integers of 64 bits, or if there is no
span as long. -/
def span (u : TimeUnit) (amount : Nat) : Option Span := do
  let amount ← signed64? amount
  let seconds ← signed64? (amount * u.seconds)
  Span.ofNanos? (seconds * secondNanos)

/-- The whole units in a span, without what is left over: rounded toward zero. -/
def unitsIn (u : TimeUnit) (s : Span) : Int := s.nanos.tdiv (u.seconds * secondNanos)

end TimeUnit

/-- A number of milliseconds in words: seconds with the fewest decimals from one second on. -/
def millisText (ms : Nat) : String :=
  if ms = 0 then "0ns"
  else if ms < 1000 then toString ms ++ "ms"
  else
    let fraction := ms % 1000
    let decimals :=
      if fraction = 0 then ""
      else if fraction % 100 = 0 then "." ++ toString (fraction / 100)
      else if fraction % 10 = 0 then "." ++ (if fraction < 100 then "0" else "") ++ toString (fraction / 10)
      else "." ++ (if fraction < 10 then "00" else if fraction < 100 then "0" else "") ++ toString fraction
    toString (ms / 1000) ++ decimals ++ "s"

end Lifecycle.Time
