import Lifecycle.Proofs.Store.Rows
import Mathlib.Data.List.Nodup

/-!
# Tokens from their rows

A token is read from the row that was written for it, with its time rounded up, unless it comes due in the last
millisecond of the calendar: then nothing can be read from the row, and no clock finds it due. What is due is found, up to
the limit.
-/

namespace Lifecycle

open Time (Instant roundedUp milliNanos)

/-- The token as it is read from the row that was written for `t`: it comes due at a whole millisecond. -/
structure Token.Restores (restored t : Token) : Prop where
  id : restored.id = t.id
  execution : restored.executionId = t.executionId
  node : restored.resumeNodeId = t.resumeNodeId
  due : restored.resumeAt.nanos = roundedUp t.resumeAt.nanos
  snapshot : restored.snapshot = Store.readSnapshot t.snapshot.print

namespace Store

/-! ### Reading what was written -/

theorem TokenRow.token_ofToken {t : Token} (h : t.resumeAt.nanos ≤ Instant.last.floorMillis * milliNanos) :
    ∃ restored, (ofToken t).token = .ok restored ∧ restored.Restores t := by
  obtain ⟨resumeAt, hr, hnanos⟩ := Instant.ofMillis?_ceilMillis h
  obtain ⟨createdAt, hc⟩ := readTime_ok "created_at" (isTime_floorMillis t.createdAt)
  refine ⟨⟨t.id, t.executionId, t.resumeNodeId, resumeAt, readSnapshot t.snapshot.print, createdAt⟩, ?_,
    ⟨rfl, rfl, rfl, hnanos, rfl⟩⟩
  have hr : readTime "resume_at" (.int t.resumeAt.ceilMillis) = .ok resumeAt := by
    show toTime "resume_at" t.resumeAt.ceilMillis = _
    rw [toTime, hr]
  unfold TokenRow.token ofToken
  rw [hr, hc]
  rfl

theorem TokenRow.token_ofToken_error {t : Token} (h : Instant.last.floorMillis * milliNanos < t.resumeAt.nanos) :
    (ofToken t).token = .error (.corrupt (.time "resume_at" t.resumeAt.ceilMillis)) := by
  have hr : readTime "resume_at" (.int t.resumeAt.ceilMillis) =
      .error (.corrupt (.time "resume_at" t.resumeAt.ceilMillis)) := by
    show toTime "resume_at" t.resumeAt.ceilMillis = _
    rw [toTime, Instant.ofMillis?_ceilMillis_eq_none h]
  unfold TokenRow.token ofToken
  rw [hr]
  rfl

/-! ### What is due -/

namespace Tokens

/-- No two tokens have the same identifier. -/
def Distinct (ts : Tokens) : Prop := ts.Pairwise fun a b => a.id ≠ b.id

variable {ts : Tokens} {row : TokenRow} {now : Int} {limit : Nat}

theorem le_of_mem_due (h : row ∈ ts.due now limit) : row.resumeAt.le (.int now) = true :=
  (List.mem_filter.1 (List.mem_mergeSort.1 (List.mem_of_mem_take h))).2

theorem Distinct.eq_of_id (h : ts.Distinct) {other : TokenRow} (ho : other ∈ ts) (hrow : row ∈ ts) (hid : other.id = row.id) :
    other = row :=
  List.inj_on_of_nodup_map (List.pairwise_map.2 h) ho hrow hid

theorem pairwise_due {R : TokenRow → TokenRow → Prop} (symm : ∀ {a b}, R a b → R b a) (h : ts.Pairwise R) (now : Int)
    (limit : Nat) : (ts.due now limit).Pairwise R :=
  (((List.mergeSort_perm _ _).pairwise_iff symm).2 (h.sublist List.filter_sublist)).sublist (List.take_sublist _ _)

/-- What is due is found, or the limit is reached. -/
theorem mem_due_or_full (h : row ∈ ts) (hdue : row.resumeAt.le (.int now) = true) (limit : Nat) :
    row ∈ ts.due now limit ∨ (ts.due now limit).length = limit := by
  have hmem : row ∈ (ts.filter (·.resumeAt.le (.int now))).mergeSort dueBefore :=
    List.mem_mergeSort.2 (List.mem_filter.2 ⟨h, hdue⟩)
  rcases Nat.le_total limit ((ts.filter (·.resumeAt.le (.int now))).mergeSort dueBefore).length with hle | hle
  · exact .inr ((List.length_take ..).trans (Nat.min_eq_left hle))
  · refine .inl ?_
    rw [due, List.take_of_length_le hle]
    exact hmem

end Tokens

/-- A clock finds the token due when, and only when, it has reached the millisecond that its time was rounded up to. -/
theorem TokenRow.due_ofToken_iff (t : Token) (u : Instant) :
    (ofToken t).resumeAt.le (.int u.floorMillis) = true ↔ roundedUp t.resumeAt.nanos ≤ u.nanos := by
  show (Cell.int t.resumeAt.ceilMillis).le (.int u.floorMillis) = true ↔ _
  rw [Cell.int_le_int, decide_eq_true_iff, Instant.ceilMillis_le_floorMillis_iff]

/-- What a clock finds due can be read. -/
theorem TokenRow.token_of_due {t : Token} {u : Instant} (h : (ofToken t).resumeAt.le (.int u.floorMillis) = true) :
    ∃ restored, (ofToken t).token = .ok restored ∧ restored.Restores t :=
  token_ofToken (Instant.le_floorMillis_last ((due_ofToken_iff t u).1 h))

end Store

end Lifecycle
