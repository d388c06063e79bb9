import Lifecycle.Engine.Walk

/-!
# Resumptions and sweeps in their parts

A resumption finds its record and what it needs to go on, and then goes on. A sweep picks up its tokens one after the other,
and its report is counted from what became of each of them.
-/

namespace Lifecycle.Engine

/-! ### Resumptions -/

/-- How an execution goes on with what was found for its token. -/
def goOn (record : Record) (token : Token) : Except SchedulingFault (Workflow × Step × Context) → Attempt Result
  | .error e => failAt record token.resumeNodeId e.message
  | .ok (w, step, context) => do
    if ← moveTo .running record.id then walkFrom w record step context
    else return .skipped

theorem resume_eq (token : Token) : (resume token).run = (getRecord token.executionId).run >>= fun
    | .error e => pure (.error e)
    | .ok none => pure (.ok .skipped)
    | .ok (some record) =>
      if record.status ≠ .suspended then pure (.ok .skipped)
      else resumption record token >>= fun found => (goOn record token found).run := by
  unfold resume
  rw [ExceptT.run_bind]
  refine congrArg (_ >>= ·) (funext fun found => ?_)
  match found with
  | .error e => rfl
  | .ok none => rfl
  | .ok (some record) =>
    dsimp only
    split
    · rfl
    · show ExceptT.run (ExceptT.lift (resumption record token) >>= _) = _
      rw [ExceptT.run_bind_lift]
      refine congrArg (_ >>= ·) (funext fun found => ?_)
      match found with
      | .error e => rfl
      | .ok (w, step, context) => rfl

/-! ### Sweeps -/

/-- What became of a token: it was claimed and resumed, somebody else had claimed it, or it could not be claimed. -/
inductive Pickup where
  | resumed (result : Except EngineFault Result)
  | missed
  | failed

/-- Claims a token, and resumes it if that was possible. -/
def pickUp (t : Token) : Job Pickup := do
  match ← (claim t.id).run with
  | .ok true => return .resumed (← (resume t).run)
  | .ok false => return .missed
  | .error _ => return .failed

/-- The report with one more token. -/
def SweepTally.note (report : SweepTally) : Pickup → SweepTally
  | .resumed result => { report with claimed := report.claimed + 1 }.count result
  | .missed => report
  | .failed => { report with failed := report.failed + 1 }

/-- The tokens of which the report says how their resumption ended, or that they could not be claimed. -/
def SweepTally.ends (t : SweepTally) : Nat := t.completed + t.suspended + t.failed + t.skipped

theorem SweepTally.note_resumed (report : SweepTally) (result : Except EngineFault Result) :
    (report.note (.resumed result)).due = report.due ∧ (report.note (.resumed result)).claimed = report.claimed + 1 ∧
      (report.note (.resumed result)).ends = report.ends + 1 := by
  unfold note ends
  rcases result with e | (_ | _ | _ | _) <;> simp only [count, true_and] <;> omega

/-- The report of tokens that were all claimed and resumed. -/
theorem SweepTally.foldl_note_resumed (report : SweepTally) (results : List (Except EngineFault Result)) :
    let all := (results.map Pickup.resumed).foldl note report
    all.due = report.due ∧ all.claimed = report.claimed + results.length ∧ all.ends = report.ends + results.length := by
  induction results generalizing report with
  | nil => exact ⟨rfl, rfl, rfl⟩
  | cons result results ih =>
    obtain ⟨hdue, hclaimed, hends⟩ := report.note_resumed result
    obtain ⟨hdue', hclaimed', hends'⟩ := ih (report.note (.resumed result))
    rw [List.map_cons, List.foldl_cons, List.length_cons]
    refine ⟨hdue'.trans hdue, hclaimed'.trans ?_, hends'.trans ?_⟩ <;> omega

theorem sweepTokens_eq (report : SweepTally) (tokens : List Token) :
    sweepTokens report tokens = (do return (← tokens.mapM pickUp).foldl SweepTally.note report) := by
  induction tokens generalizing report with
  | nil => rfl
  | cons t rest ih =>
    rw [List.mapM_cons, pickUp]
    simp only [bind_assoc]
    refine congrArg ((claim t.id).run >>= ·) (funext fun claimed => ?_)
    match claimed with
    | .ok true =>
      simp only [bind_assoc, pure_bind]
      exact congrArg ((resume t).run >>= ·) (funext fun result => ih _)
    | .ok false =>
      simp only [pure_bind]
      exact ih report
    | .error e =>
      simp only [pure_bind]
      exact ih _

theorem sweep_eq (batch : Nat) : sweep batch = (do
    let tokens ← dueTokens (max batch 1)
    ExceptT.lift do return (← tokens.mapM pickUp).foldl SweepTally.note { due := tokens.length }) := by
  unfold sweep
  simp only [sweepTokens_eq]

end Lifecycle.Engine
