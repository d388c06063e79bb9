import Lifecycle.Proofs.Store.Executions
import Lifecycle.Proofs.Store.Rows
import Mathlib.Data.Prod.Lex
import Mathlib.Data.String.Basic

/-!
# Records in rows

A record is kept as it is, but for its times, which are kept in whole milliseconds. The rows of a target are in the order of
the records that are read from them, which is strict since no two of them have the same identifier.
-/

namespace Lifecycle

open Time (Instant milliNanos)

/-- What is kept of a record. -/
def Record.kept (r : Record) : Record :=
  { r with
    startedAt := r.startedAt.truncated
    finishedAt := r.finishedAt.map (·.truncated)
    updatedAt := r.updatedAt.truncated }

/-- Started earlier, or as early and of a smaller identifier. -/
def Record.Precedes (a b : Record) : Prop := a.startedAt < b.startedAt ∨ a.startedAt = b.startedAt ∧ a.id < b.id

/-- The place of a record among those of its target. -/
def Record.place (r : Record) : Int ×ₗ String := toLex (r.startedAt.nanos, r.id)

theorem Record.precedes_iff {a b : Record} : a.Precedes b ↔ a.place < b.place := by
  unfold Precedes place
  rw [Prod.Lex.toLex_lt_toLex, Instant.eq_iff]
  rfl

theorem TargetType.name_injective : ∀ {a b : TargetType}, a.name = b.name → a = b := by
  intro a b h
  cases a <;> cases b <;> first | rfl | exact absurd h (by decide)

namespace Store

/-- The columns tell what the target of a record is. -/
theorem ExecutionRow.Holds.target_eq_iff {row : ExecutionRow} {r : Record} (h : row.Holds r) {target : Target} :
    r.target = target ↔ row.targetType = target.type.name ∧ row.targetId = target.id := by
  rw [← h.targetType, ← h.targetId]
  constructor
  · rintro rfl
    exact ⟨rfl, rfl⟩
  · rintro ⟨htype, hid⟩
    obtain ⟨type, id⟩ := target
    exact (congrArg₂ Target.mk (TargetType.name_injective htype) hid : _)

/-- A row that was written is read as what was kept. -/
theorem ExecutionRow.record_ofRecord (r : Record) : (ofRecord r).record = .ok r.kept := by
  have whole (column : String) (t : Instant) : toTime column t.floorMillis = .ok t.truncated := by
    rw [toTime, t.ofMillis?_floorMillis]
  have time (column : String) (t : Instant) : readTime column (.int t.floorMillis) = .ok t.truncated := whole column t
  obtain ⟨id, workflowId, target, type, status, runOnce, nodeId, error, startedAt, finishedAt, updatedAt⟩ := r
  unfold ExecutionRow.record ofRecord
  dsimp only
  rw [readName_target, readName_trigger, readName_status, time, time]
  cases finishedAt with
  | none => cases runOnce <;> rfl
  | some t =>
    show ((some t.floorMillis).mapM (toTime "finished_at") >>= fun finishedAt => Except.ok _) = _
    rw [Option.mapM_some, whole]
    cases runOnce <;> rfl

namespace Executions

variable {l : Executions} {read : ExecutionRow → Record}

/-- Rows are in order as their records are. -/
theorem startsBefore_eq {a b : ExecutionRow} {q r : Record} (ha : a.record = .ok q) (hb : b.record = .ok r) :
    startsBefore a b = decide (q.place ≤ r.place) := by
  have qa := ExecutionRow.record_holds ha
  have rb := ExecutionRow.record_holds hb
  obtain ⟨m, hm, hqm⟩ := qa.startedAt
  obtain ⟨n, hn, hrn⟩ := rb.startedAt
  unfold startsBefore Cell.leBy Record.place
  dsimp only
  rw [qa.id, rb.id, hm, hn, Cell.int_le_int, Cell.int_le_int, Bool.eq_iff_iff, decide_eq_true_iff, Prod.Lex.toLex_le_toLex,
    hqm, hrn]
  simp only [Bool.and_eq_true, Bool.or_eq_true, Bool.not_eq_true', decide_eq_true_iff, decide_eq_false_iff_not]
  unfold milliNanos
  by_cases hid : q.id ≤ r.id <;> simp only [hid, or_true, or_false, and_true, and_false] <;> omega

/-- The records of a target, each once and in their order. -/
theorem pairwise_precedes_ofTarget (distinct : l.Distinct) (readable : ∀ row ∈ l, row.record = .ok (read row))
    (type id : String) : ((l.ofTarget type id).map read).Pairwise Record.Precedes := by
  have sub : ∀ row ∈ l.filter fun r => r.targetType == type && r.targetId == id, row.record = .ok (read row) :=
    fun row hrow => readable row (List.mem_filter.1 hrow).1
  have sorted : ((l.ofTarget type id).map read).Pairwise fun a b => a.place ≤ b.place :=
    pairwise_mergeSort_read (fun a ha b hb => startsBefore_eq (sub a ha) (sub b hb)) (fun _ _ _ => le_trans)
      fun _ _ => le_total ..
  have different : ((l.ofTarget type id).map read).Pairwise fun a b => a.id ≠ b.id := by
    have rows : Distinct (l.ofTarget type id) := ((List.mergeSort_perm _ _).pairwise_iff Ne.symm).2 (distinct.filter _)
    refine List.pairwise_map.2 (rows.imp_of_mem fun {a b} ha hb hne he => hne ?_)
    have held (row) (hrow : row ∈ l.ofTarget type id) := ExecutionRow.record_holds (sub row (List.mem_mergeSort.1 hrow))
    rw [(held a ha).id, (held b hb).id, he]
  refine (sorted.and different).imp fun {a b} ⟨hle, hne⟩ => Record.precedes_iff.2 (lt_of_le_of_ne hle fun he => hne ?_)
  exact congrArg (fun place : Int ×ₗ String => (ofLex place).2) he

theorem mem_ofTarget {type id : String} {row : ExecutionRow} :
    row ∈ l.ofTarget type id ↔ row ∈ l ∧ row.targetType = type ∧ row.targetId = id := by
  rw [ofTarget, List.mem_mergeSort, List.mem_filter, Bool.and_eq_true, beq_iff_eq, beq_iff_eq]

end Executions

end Store

end Lifecycle
