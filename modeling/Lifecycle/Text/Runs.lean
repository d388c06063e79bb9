/-!
Properties of characters as runs: lists of lengths that cut the numbers from 0 on into pieces. A set
is written as the lengths of a gap and of a run in turn, a division into classes as a class and the
length of its run in turn.
-/

namespace Lifecycle.Text

/-- Is `n` in one of the runs? -/
def inRuns : List Nat → Nat → Bool
  | gap :: run :: rest, n => if n < gap then false else n - gap < run || inRuns rest (n - gap - run)
  | _, _ => false

/-- The class of `n`; 0 behind the last run. -/
def classAt : List Nat → Nat → Nat
  | cls :: run :: rest, n => if n < run then cls else classAt rest (n - run)
  | _, _ => 0

/-- Behind a gap and a run the rest counts. -/
theorem inRuns_add (gap run : Nat) (rest : List Nat) (n : Nat) :
    inRuns (gap :: run :: rest) (gap + run + n) = inRuns rest n := by
  have h : gap + run + n - gap - run = n := by omega
  have g : ¬ gap + run + n < gap := by omega
  have r : ¬ gap + run + n - gap < run := by omega
  simp [inRuns, h, g, r]

/-- Behind a run the rest counts. -/
theorem classAt_add (cls run : Nat) (rest : List Nat) (n : Nat) :
    classAt (cls :: run :: rest) (run + n) = classAt rest n := by
  have r : ¬ run + n < run := by omega
  simp [classAt, r]

end Lifecycle.Text
