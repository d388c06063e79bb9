import Lifecycle.Proofs.Results
import Lifecycle.Proofs.Time.Instant
import Lifecycle.Store.Executions
import Lifecycle.Store.Tokens

/-!
# Rows and what is read from them

A row that can be read has an identifier, and the record or token read from it has the same one, with the texts of the
row as they are.
-/

namespace Lifecycle.Store

open Time (Instant milliNanos)

theorem readId_ok {id? : Option String} {id : String} (h : readId id? = .ok id) : id? = some id := by
  cases id? with
  | none => cases h
  | some i =>
    cases h
    rfl

theorem name_of_readName {α : Type} {noun : String} {all : List α} {name : α → String} {text : String} {a : α}
    (h : readName (recognize noun all name text) = .ok a) : name a = text := by
  unfold recognize at h
  split at h
  · rename_i a' ha
    cases h
    simpa using List.find?_some ha
  · cases h

theorem int_of_readTime {column : String} {c : Cell} {t : Instant} (h : readTime column c = .ok t) :
    ∃ n, c = .int n ∧ t.nanos = n * milliNanos := by
  obtain ⟨n, hn, ht⟩ := bind_ok h
  cases c with
  | int m =>
    cases hn
    unfold toTime at ht
    split at ht <;> cases ht
    rename_i hmillis
    exact ⟨_, rfl, Instant.nanos_of_ofMillis? hmillis⟩
  | _ => cases hn

/-- The row holds the record: its names and texts, and the time of its start in milliseconds. -/
structure ExecutionRow.Holds (row : ExecutionRow) (r : Record) : Prop where
  id : row.id = some r.id
  workflow : r.workflowId = row.workflowId
  targetType : r.target.type.name = row.targetType
  targetId : r.target.id = row.targetId
  status : r.status.name = row.status
  startedAt : ∃ n, row.startedAt = .int n ∧ r.startedAt.nanos = n * milliNanos

theorem ExecutionRow.record_holds {row : ExecutionRow} {r : Record} (h : row.record = .ok r) : row.Holds r := by
  unfold ExecutionRow.record at h
  obtain ⟨finished, -, h⟩ := bind_ok h
  obtain ⟨id, hid, h⟩ := bind_ok h
  obtain ⟨targetType, htarget, h⟩ := bind_ok h
  obtain ⟨triggerType, -, h⟩ := bind_ok h
  obtain ⟨status, hs, h⟩ := bind_ok h
  obtain ⟨runOnce, -, h⟩ := bind_ok h
  obtain ⟨startedAt, hstart, h⟩ := bind_ok h
  obtain ⟨finishedAt, -, h⟩ := bind_ok h
  obtain ⟨updatedAt, -, h⟩ := bind_ok h
  cases h
  exact ⟨readId_ok hid, rfl, name_of_readName htarget, rfl, name_of_readName hs, int_of_readTime hstart⟩

theorem ExecutionRow.record_ok {row : ExecutionRow} {r : Record} (h : row.record = .ok r) :
    row.id = some r.id ∧ r.status.name = row.status ∧ r.workflowId = row.workflowId :=
  ⟨(record_holds h).id, (record_holds h).status, (record_holds h).workflow⟩

/-- The row holds the token, but for its times. -/
structure TokenRow.Holds (row : TokenRow) (t : Token) : Prop where
  id : row.id = some t.id
  execution : row.executionId = t.executionId
  node : row.resumeNodeId = t.resumeNodeId
  snapshot : t.snapshot = readSnapshot row.snapshot

theorem TokenRow.token_ok {row : TokenRow} {t : Token} (h : row.token = .ok t) : row.Holds t := by
  unfold TokenRow.token at h
  obtain ⟨id, hid, h⟩ := bind_ok h
  obtain ⟨resumeAt, -, h⟩ := bind_ok h
  obtain ⟨createdAt, -, h⟩ := bind_ok h
  cases h
  exact ⟨readId_ok hid, rfl, rfl, rfl⟩

theorem Tokens.mem_of_mem_due {ts : Tokens} {now : Int} {limit : Nat} {row : TokenRow} (h : row ∈ ts.due now limit) :
    row ∈ ts := by
  have h := List.mem_mergeSort.1 (List.mem_of_mem_take h)
  exact (List.mem_filter.1 h).1

/-! ### Rows in order -/

/-- Rows that are sorted as what is read of them, by a relation that is total and transitive there: it is in order. -/
theorem pairwise_mergeSort_read {ρ α : Type} {before : ρ → ρ → Bool} {R : α → α → Prop} [DecidableRel R] {read : ρ → α}
    {rows : List ρ} (hbefore : ∀ a ∈ rows, ∀ b ∈ rows, before a b = decide (R (read a) (read b)))
    (trans : ∀ a b c, R a b → R b c → R a c) (total : ∀ a b, R a b ∨ R b a) :
    ((rows.mergeSort before).map read).Pairwise R := by
  -- on rows that cannot be read the order of the columns is no order, so it is sorted by what is read
  rw [List.map_mergeSort (s := fun a b => decide (R a b)) hbefore]
  refine (List.pairwise_mergeSort ?_ ?_ _).imp of_decide_eq_true
  · exact fun a b c hab hbc => decide_eq_true (trans a b c (of_decide_eq_true hab) (of_decide_eq_true hbc))
  · exact fun a b => by simpa using total a b

/-! ### Rows that can be read -/

/-- A number of milliseconds that stands for an instant. -/
def IsTime (millis : Int) : Prop := ∃ t, Instant.ofMillis? millis = some t

theorem isTime_floorMillis (t : Instant) : IsTime t.floorMillis := ⟨_, t.ofMillis?_floorMillis⟩

/-- The row as it was written, or moved since: every value is one that can be read. -/
structure ExecutionRow.Readable (row : ExecutionRow) : Prop where
  id : row.id.isSome = true
  targetType : ∃ type : TargetType, row.targetType = type.name
  triggerType : ∃ type : TriggerType, row.triggerType = type.name
  status : ∃ status : Status, row.status = status.name
  runOnce : ∃ n, row.runOnce = .int n
  startedAt : ∃ n, row.startedAt = .int n ∧ IsTime n
  finishedAt : ∀ c, row.finishedAt = some c → ∃ n, c = .int n ∧ IsTime n
  updatedAt : ∃ n, row.updatedAt = .int n ∧ IsTime n

theorem runOnce_ofRecord {r : Record} : (ExecutionRow.ofRecord r).runOnce = .int 1 ↔ r.runOnce = true := by
  cases h : r.runOnce <;> simp [ExecutionRow.ofRecord, h]

theorem readable_ofRecord (r : Record) : (ExecutionRow.ofRecord r).Readable where
  id := rfl
  targetType := ⟨_, rfl⟩
  triggerType := ⟨_, rfl⟩
  status := ⟨_, rfl⟩
  runOnce := ⟨_, rfl⟩
  startedAt := ⟨_, rfl, isTime_floorMillis r.startedAt⟩
  finishedAt c h := by
    obtain ⟨t, -, rfl⟩ := Option.map_eq_some_iff.1 h
    exact ⟨_, rfl, isTime_floorMillis t⟩
  updatedAt := ⟨_, rfl, isTime_floorMillis r.updatedAt⟩

theorem ExecutionRow.Readable.moved {row : ExecutionRow} (h : row.Readable) (next : Status) (now : Instant)
    (failure : Option Failure) : (row.moved next now.floorMillis failure).Readable where
  id := h.id
  targetType := h.targetType
  triggerType := h.triggerType
  status := ⟨next, rfl⟩
  runOnce := h.runOnce
  startedAt := h.startedAt
  finishedAt c hc := by
    unfold ExecutionRow.moved at hc
    dsimp only at hc
    split at hc
    · cases hc
      exact ⟨_, rfl, isTime_floorMillis now⟩
    · exact h.finishedAt c hc
  updatedAt := ⟨_, rfl, isTime_floorMillis now⟩

theorem readName_status (s : Status) : readName (Status.ofName s.name) = .ok s := by cases s <;> rfl

theorem readName_target (t : TargetType) : readName (TargetType.ofName t.name) = .ok t := by cases t <;> rfl

theorem readName_trigger (t : TriggerType) : readName (TriggerType.ofName t.name) = .ok t := by cases t <;> rfl

theorem readTime_ok (column : String) {n : Int} (h : IsTime n) : ∃ t, readTime column (.int n) = .ok t := by
  obtain ⟨t, ht⟩ := h
  refine ⟨t, ?_⟩
  show toTime column n = .ok t
  rw [toTime, ht]

/-- Such a row is read as a record. -/
theorem ExecutionRow.Readable.record {row : ExecutionRow} (h : row.Readable) : ∃ r, row.record = .ok r := by
  obtain ⟨id, hid⟩ := Option.isSome_iff_exists.1 h.id
  obtain ⟨targetType, htarget⟩ := h.targetType
  obtain ⟨triggerType, htrigger⟩ := h.triggerType
  obtain ⟨status, hstatus⟩ := h.status
  obtain ⟨runOnce, hrun⟩ := h.runOnce
  obtain ⟨_, hstarted, hstart⟩ := h.startedAt
  obtain ⟨startedAt, hstart⟩ := readTime_ok "started_at" hstart
  obtain ⟨_, hupdated, hupdate⟩ := h.updatedAt
  obtain ⟨updatedAt, hupdate⟩ := readTime_ok "updated_at" hupdate
  have hname : readName (TargetType.ofName row.targetType) = .ok targetType := htarget ▸ readName_target targetType
  have htype : readName (TriggerType.ofName row.triggerType) = .ok triggerType := htrigger ▸ readName_trigger triggerType
  have hstat : readName (Status.ofName row.status) = .ok status := hstatus ▸ readName_status status
  unfold ExecutionRow.record
  rw [hname, htype, hstat, hid, hrun, hstarted, hupdated, hstart, hupdate]
  cases hf : row.finishedAt with
  | none => exact ⟨_, rfl⟩
  | some c =>
    obtain ⟨n, rfl, t, ht⟩ := h.finishedAt c hf
    refine ⟨⟨id, row.workflowId, ⟨targetType, row.targetId⟩, triggerType, status, runOnce ≠ 0, row.failedNodeId, row.error,
      startedAt, some t, updatedAt⟩, ?_⟩
    have htime : toTime "finished_at" n = .ok t := by rw [toTime, ht]
    show ((some n).mapM (toTime "finished_at") >>= fun finishedAt => Except.ok _) = _
    rw [Option.mapM_some, htime]
    rfl

end Lifecycle.Store
