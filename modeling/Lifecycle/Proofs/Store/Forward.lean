import Lifecycle.Proofs.Store.Executions
import Mathlib.Data.List.Forall2
import Mathlib.Logic.Relation

/-!
# Executions over time

A row that is moved keeps its identifier, its key and its start, and takes a status that may follow the one it has. A table
that is written has the rows that it had in their places, each as it was or moved, and behind them pending ones.
-/

namespace Lifecycle

/-- The changes of status that there are. -/
inductive Status.Precedes : Status → Status → Prop where
  | pending_running : Precedes .pending .running
  | suspended_running : Precedes .suspended .running
  | running_suspended : Precedes .running .suspended
  | running_completed : Precedes .running .completed
  | pending_failed : Precedes .pending .failed
  | running_failed : Precedes .running .failed
  | suspended_failed : Precedes .suspended .failed

theorem Status.precedes_iff {prior next : Status} : prior.Precedes next ↔ next.before.contains prior = true := by
  constructor
  · intro h
    cases h <;> rfl
  · intro h
    cases prior <;> cases next <;> first | constructor | exact absurd h (by decide)

theorem Status.follows_iff {next : Status} {name : String} :
    next.follows name = true ↔ ∃ prior : Status, prior.Precedes next ∧ name = prior.name := by
  constructor
  · intro h
    obtain ⟨prior, hmem, hname⟩ := List.any_eq_true.1 h
    exact ⟨prior, precedes_iff.2 (List.contains_iff_mem.2 hmem), (beq_iff_eq.1 hname).symm⟩
  · rintro ⟨prior, hp, rfl⟩
    rw [follows_name]
    exact precedes_iff.1 hp

namespace Store

/-! ### One row -/

namespace ExecutionRow

/-- The second row is the first one at a later time. -/
structure Continues (a b : ExecutionRow) : Prop where
  id : b.id = a.id
  key : b.key = a.key
  runOnce : b.runOnce = a.runOnce

namespace Continues

variable {a b c : ExecutionRow}

theorem refl (a : ExecutionRow) : a.Continues a := ⟨rfl, rfl, rfl⟩

theorem trans (h : a.Continues b) (g : b.Continues c) : a.Continues c :=
  ⟨g.id.trans h.id, g.key.trans h.key, g.runOnce.trans h.runOnce⟩

theorem of_moved (r : ExecutionRow) (id : String) (next : Status) (now : Int) (failure : Option Failure) :
    r.Continues (if r.admits id next then r.moved next now failure else r) := by
  split <;> exact ⟨rfl, rfl, rfl⟩

end Continues

/-- It has started at the same time, too. -/
structure Keeps (a b : ExecutionRow) : Prop extends a.Continues b where
  startedAt : b.startedAt = a.startedAt

/-- The execution is over. -/
def Ended (r : ExecutionRow) : Prop := r.status = Status.completed.name ∨ r.status = Status.failed.name

/-- The second row is the first one after at most one change of status. -/
inductive Advances (a : ExecutionRow) : ExecutionRow → Prop where
  | same : Advances a a
  | moved {b : ExecutionRow} {prior next : Status} (keeps : a.Keeps b) (change : prior.Precedes next)
      (before : a.status = prior.name) (after : b.status = next.name) : Advances a b

section Advances

variable {a b : ExecutionRow}

theorem Advances.keeps (h : a.Advances b) : a.Keeps b := by
  cases h with
  | same => exact ⟨.refl a, rfl⟩
  | moved keeps => exact keeps

/-- What is over stays as it is, in every column. -/
theorem Advances.eq_of_ended (h : a.Advances b) (ha : a.Ended) : b = a := by
  cases h with
  | same => rfl
  | moved _ change before _ =>
    rcases ha with ha | ha <;> cases Status.name_injective (before.symm.trans ha) <;> cases change

theorem advances_moved {r : ExecutionRow} {id : String} {next : Status} (h : r.admits id next = true) (now : Int)
    (failure : Option Failure) : r.Advances (r.moved next now failure) := by
  obtain ⟨prior, hp, hs⟩ := Status.follows_iff.1 ((r.admits_iff next id).1 h).2
  exact .moved ⟨⟨rfl, rfl, rfl⟩, rfl⟩ hp hs rfl

/-- Any number of changes keep what one change keeps. -/
theorem keeps_of_advances (h : Relation.ReflTransGen Advances a b) : a.Keeps b ∧ (a.Ended → b = a) := by
  induction h with
  | refl => exact ⟨⟨.refl a, rfl⟩, fun _ => rfl⟩
  | tail _ hstep ih =>
    obtain ⟨keeps, same⟩ := ih
    refine ⟨⟨keeps.toContinues.trans hstep.keeps.toContinues, hstep.keeps.startedAt.trans keeps.startedAt⟩, fun ha => ?_⟩
    cases same ha
    exact hstep.eq_of_ended ha

end Advances

/-- The times and texts of the end stand in the row if and only if its status has them. -/
structure Marked (r : ExecutionRow) (s : Status) : Prop where
  status : r.status = s.name
  finishedAt : r.finishedAt = if s = .completed ∨ s = .failed then some r.updatedAt else none
  failedNodeId : r.failedNodeId.isSome = true ↔ s = .failed
  error : r.error.isSome = true ↔ s = .failed

section Marked

variable {r : ExecutionRow} {status next : Status} {failure : Option Failure}

theorem marked_ofRecord {new : Record} (hs : new.status = .pending) (hn : new.failedNodeId = none) (he : new.error = none)
    (hf : new.finishedAt = none) : (ofRecord new).Marked .pending := by
  refine ⟨congrArg Status.name hs, ?_, ?_, ?_⟩
  · simp [ofRecord, hf]
  · simp [ofRecord, hn]
  · simp [ofRecord, he]

theorem Marked.moved (h : r.Marked status) (hp : status.Precedes next) (hf : failure.isSome = true ↔ next = .failed)
    (now : Int) : (r.moved next now failure).Marked next := by
  have open_ : ¬ (status = .completed ∨ status = .failed) := by
    rintro (rfl | rfl) <;> cases hp
  have hfinished := h.finishedAt
  have hnode := h.failedNodeId
  have herror := h.error
  rw [if_neg open_] at hfinished
  rw [not_or] at open_
  have hnone : r.failedNodeId = none := by simpa [open_.2] using hnode
  have hnone' : r.error = none := by simpa [open_.2] using herror
  refine ⟨rfl, ?_, ?_, ?_⟩
  · cases next <;> simp [ExecutionRow.moved, Status.terminal, hfinished]
  · rw [← hf]
    cases failure <;> simp [ExecutionRow.moved, hnone]
  · rw [← hf]
    cases failure <;> simp [ExecutionRow.moved, hnone']

end Marked

end ExecutionRow

/-! ### The table -/

namespace Executions

variable {l : Executions} {row : ExecutionRow} {id : String} {next : Status} {now : Int} {failure : Option Failure}

/-- The rows in their places, each after at most one change of status, and behind them pending ones. -/
def Forward (l after : Executions) : Prop :=
  ∃ old new, after = old ++ new ∧ List.Forall₂ ExecutionRow.Advances l old ∧ ∀ r ∈ new, r.status = Status.pending.name

theorem forward_refl (l : Executions) : l.Forward l :=
  ⟨l, [], (List.append_nil l).symm, List.forall₂_same.2 fun _ _ => .same, fun _ h => absurd h List.not_mem_nil⟩

theorem forward_insert (hs : row.status = Status.pending.name) : l.Forward (l.insert row).2 := by
  cases h : (l.insert row).1 with
  | false =>
    rw [insert_snd_of_not h]
    exact l.forward_refl
  | true =>
    refine ⟨l, [row], insert_snd h, List.forall₂_same.2 fun _ _ => .same, fun r hr => ?_⟩
    rw [List.mem_singleton.1 hr]
    exact hs

theorem forward_advance : l.Forward (l.advance id next now failure).2 := by
  refine ⟨_, [], (List.append_nil _).symm, ?_, fun _ h => absurd h List.not_mem_nil⟩
  show List.Forall₂ _ l (l.map _)
  rw [List.forall₂_map_right_iff]
  refine List.forall₂_same.2 fun r _ => ?_
  split
  · exact ExecutionRow.advances_moved ‹_› now failure
  · exact .same

/-- No row is lost. -/
theorem Forward.exists_advances {after : Executions} (h : l.Forward after) {r : ExecutionRow} (hr : r ∈ l) :
    ∃ r' ∈ after, r.Advances r' := by
  obtain ⟨old, new, rfl, hold, -⟩ := h
  obtain ⟨i, hi, rfl⟩ := List.mem_iff_getElem.1 hr
  have hi' : i < old.length := hold.length_eq ▸ hi
  exact ⟨old[i], List.mem_append_left _ (List.getElem_mem hi'), hold.get hi hi'⟩

/-- The end of every row is marked as its status has it. -/
def Marked (l : Executions) : Prop := ∀ r ∈ l, ∃ status : Status, r.Marked status

theorem marked_insert (h : l.Marked) (hrow : row.Marked .pending) : (l.insert row).2.Marked := by
  intro r hr
  rcases mem_of_mem_insert hr with hr | rfl
  · exact h r hr
  · exact ⟨.pending, hrow⟩

theorem marked_advance (h : l.Marked) (hf : failure.isSome = true ↔ next = .failed) :
    (l.advance id next now failure).2.Marked := by
  intro r hr
  obtain ⟨old, ho, rfl⟩ := mem_advance.1 hr
  obtain ⟨status, hstatus⟩ := h old ho
  split
  · rename_i hadmits
    obtain ⟨prior, hp, hs⟩ := Status.follows_iff.1 ((old.admits_iff next id).1 hadmits).2
    obtain rfl := Status.name_injective (hstatus.status.symm.trans hs)
    exact ⟨next, hstatus.moved hp hf now⟩
  · exact ⟨status, hstatus⟩

/-- The row that is moved, before and after. -/
theorem get?_of_advance (hd : l.Distinct) (h : (l.advance id next now failure).1 = true) :
    ∃ old : ExecutionRow, l.get? id = some old ∧ (∃ prior : Status, prior.Precedes next ∧ old.status = prior.name) ∧
      (l.advance id next now failure).2.get? id = some (old.moved next now failure) := by
  obtain ⟨old, ho, hadmits⟩ := List.any_eq_true.1 h
  obtain ⟨hid, hf⟩ := (old.admits_iff next id).1 hadmits
  have hget := get?_of_mem hd ho hid
  refine ⟨old, hget, Status.follows_iff.1 hf, ?_⟩
  rw [get?_advance, hget, Option.map_some, if_pos hadmits]

/-- The execution `id` is on record in a status before `next`. -/
def Admits (l : Executions) (id : String) (next : Status) : Prop :=
  ∃ r ∈ l, r.id = some id ∧ ∃ prior : Status, r.status = prior.name ∧ prior.Precedes next

theorem advance_fst_iff : (l.advance id next now failure).1 = true ↔ l.Admits id next := by
  show l.any (·.admits id next) = true ↔ _
  rw [List.any_eq_true]
  refine exists_congr fun r => and_congr_right fun _ => ?_
  rw [ExecutionRow.admits_iff, Status.follows_iff]
  exact and_congr_right fun _ => exists_congr fun prior => and_comm

end Executions

end Store

end Lifecycle
