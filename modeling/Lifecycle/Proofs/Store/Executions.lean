import Lifecycle.Store.Executions

/-!
# The statuses of executions

The table of executions by the status of each identifier. A new row adds one status, a change of status replaces one
that the new status may follow, and every other status stays.
-/

namespace Lifecycle

/-- May the status `next` follow the one of this name? -/
def Status.follows (next : Status) (name : String) : Bool := next.before.any (·.name == name)

theorem Status.name_injective : ∀ {a b : Status}, a.name = b.name → a = b := by
  intro a b h
  cases a <;> cases b <;> first | rfl | exact absurd h (by decide)

@[simp] theorem Status.follows_name (next prior : Status) : next.follows prior.name = next.before.contains prior := by
  cases next <;> cases prior <;> decide

namespace Store

/-! ### One row -/

namespace ExecutionRow

variable (r : ExecutionRow) (next : Status) (now : Int) (failure : Option Failure)

@[simp] theorem moved_status : (r.moved next now failure).status = next.name := rfl

theorem admits_iff (id : String) : r.admits id next = true ↔ r.id = some id ∧ next.follows r.status = true := by
  simp [admits, Status.follows]

end ExecutionRow

namespace Executions

/-- The status of an execution. -/
def status (l : Executions) (id : String) : Option String := (l.get? id).map (·.status)

/-- No two rows have the same identifier. -/
def Distinct (l : Executions) : Prop := l.Pairwise fun a b => a.id ≠ b.id

theorem distinct_nil : Distinct [] := List.Pairwise.nil

theorem get?_cons (r : ExecutionRow) (l : Executions) (id : String) :
    get? (r :: l) id = if r.id = some id then some r else get? l id := by
  unfold get?
  rw [List.find?_cons]
  by_cases h : r.id = some id
  · simp [h]
  · simp [h, beq_eq_false_iff_ne.2 h]

theorem mem_of_get? {l : Executions} {id : String} {r : ExecutionRow} (h : l.get? id = some r) :
    r ∈ l ∧ r.id = some id :=
  ⟨List.mem_of_find?_eq_some h, by simpa using List.find?_some h⟩

theorem get?_of_mem {l : Executions} (hd : l.Distinct) {id : String} {r : ExecutionRow} (hr : r ∈ l)
    (hid : r.id = some id) : l.get? id = some r := by
  induction l with
  | nil => cases hr
  | cons a l ih =>
    rw [get?_cons]
    rcases List.mem_cons.1 hr with rfl | hr
    · rw [if_pos hid]
    · have ha : a.id ≠ some id := hid ▸ List.rel_of_pairwise_cons hd hr
      rw [if_neg ha]
      exact ih hd.of_cons hr

theorem mem_of_status {l : Executions} {id name : String} (h : l.status id = some name) :
    ∃ r ∈ l, r.id = some id ∧ r.status = name := by
  obtain ⟨r, hr, rfl⟩ := Option.map_eq_some_iff.1 h
  exact ⟨r, (mem_of_get? hr).1, (mem_of_get? hr).2, rfl⟩

theorem status_of_mem {l : Executions} (hd : l.Distinct) {id : String} {r : ExecutionRow} (hr : r ∈ l)
    (hid : r.id = some id) : l.status id = some r.status := by
  unfold status
  rw [get?_of_mem hd hr hid, Option.map_some]

/-! ### New rows -/

section Insert

variable {l : Executions} {row : ExecutionRow}

theorem insert_fst (l : Executions) (row : ExecutionRow) : (l.insert row).1 = !l.any row.clashes := by
  unfold insert
  cases l.any row.clashes <;> rfl

theorem insert_snd_of_not (h : (l.insert row).1 = false) : (l.insert row).2 = l := by
  rw [insert_fst, Bool.not_eq_false'] at h
  rw [insert, if_pos h]

theorem insert_snd (h : (l.insert row).1 = true) : (l.insert row).2 = l ++ [row] := by
  rw [insert_fst, Bool.not_eq_true'] at h
  rw [insert, if_neg (by simp [h])]

/-- A row that finds its place has a new identifier. -/
theorem id_ne_of_insert {id : String} (h : (l.insert row).1 = true) (hid : row.id = some id) :
    ∀ r ∈ l, r.id ≠ some id := by
  intro r hr hrid
  rw [insert_fst, Bool.not_eq_true'] at h
  have hc := List.any_eq_false.1 h r hr
  simp [ExecutionRow.clashes, hid, hrid] at hc

theorem distinct_insert {id : String} (hd : l.Distinct) (hid : row.id = some id) : (l.insert row).2.Distinct := by
  cases h : (l.insert row).1 with
  | false => rwa [insert_snd_of_not h]
  | true =>
    rw [insert_snd h]
    refine List.pairwise_append.2 ⟨hd, List.pairwise_singleton _ _, fun a ha b hb => ?_⟩
    rw [List.mem_singleton.1 hb, hid]
    exact id_ne_of_insert h hid a ha

theorem mem_of_mem_insert {r : ExecutionRow} (h : r ∈ (l.insert row).2) : r ∈ l ∨ r = row := by
  cases hi : (l.insert row).1 with
  | false => exact .inl (insert_snd_of_not hi ▸ h)
  | true =>
    rw [insert_snd hi, List.mem_append, List.mem_singleton] at h
    exact h

theorem get?_append_single (l : Executions) (row : ExecutionRow) (id : String) :
    get? (l ++ [row]) id = (l.get? id).or (if row.id = some id then some row else none) := by
  induction l with
  | nil => simp [get?]
  | cons a l ih =>
    rw [List.cons_append, get?_cons, get?_cons, ih]
    split <;> simp

theorem status_insert {id : String} (h : (l.insert row).1 = true) (hid : row.id = some id) (other : String) :
    (l.insert row).2.status other = if other = id then some row.status else l.status other := by
  unfold status
  rw [insert_snd h, get?_append_single, hid]
  by_cases ho : other = id
  · have hn : l.get? id = none := List.find?_eq_none.2 fun r hr => by simpa using id_ne_of_insert h hid r hr
    rw [ho, hn]
    simp
  · have ho' : some id ≠ some other := fun e => ho (Option.some.inj e).symm
    simp [ho, ho']

theorem status_eq_none_of_insert {id : String} (h : (l.insert row).1 = true) (hid : row.id = some id) :
    l.status id = none := by
  have hn : l.get? id = none := List.find?_eq_none.2 fun r hr => by simpa using id_ne_of_insert h hid r hr
  rw [status, hn, Option.map_none]

end Insert

/-! ### Changes of status -/

section Advance

variable (l : Executions) (id : String) (next : Status) (now : Int) (failure : Option Failure)

theorem get?_advance (other : String) :
    (l.advance id next now failure).2.get? other =
      (l.get? other).map fun r => if r.admits id next then r.moved next now failure else r := by
  have hid : ∀ r : ExecutionRow, (if r.admits id next then r.moved next now failure else r).id = r.id := by
    intro r
    split <;> rfl
  simp only [advance]
  induction l with
  | nil => rfl
  | cons r l ih =>
    rw [List.map_cons, get?_cons, get?_cons, hid, ih]
    split <;> rfl

/-- The row that is moved takes its own place. -/
theorem get?_advance_of_admits {r : ExecutionRow} (hr : l.get? id = some r) (h : r.admits id next = true) (other : String) :
    (l.advance id next now failure).2.get? other = if other = id then some (r.moved next now failure) else l.get? other := by
  rw [get?_advance]
  by_cases hid : other = id
  · subst hid
    rw [hr, if_pos rfl, Option.map_some, if_pos h]
  · rw [if_neg hid]
    refine (Option.map_congr fun q hq => if_neg fun ha => ?_).trans (Option.map_id' ..)
    exact hid (Option.some.inj ((mem_of_get? hq).2.symm.trans ((q.admits_iff next id).1 ha).1))

variable {l} in
theorem advance_fst (hd : l.Distinct) :
    (l.advance id next now failure).1 = (l.status id).any next.follows := by
  show l.any (·.admits id next) = _
  cases hs : l.get? id with
  | none =>
    rw [status, hs, Option.map_none, Option.any_none]
    refine List.any_eq_false.2 fun r hr => ?_
    rw [ExecutionRow.admits_iff]
    intro h
    exact absurd h.1 (by simpa using List.find?_eq_none.1 hs r hr)
  | some r =>
    rw [status, hs, Option.map_some, Option.any_some, Bool.eq_iff_iff, List.any_eq_true]
    constructor
    · rintro ⟨q, hq, ha⟩
      rw [ExecutionRow.admits_iff] at ha
      have hqr := (get?_of_mem hd hq ha.1).symm.trans hs
      rw [← Option.some.inj hqr]
      exact ha.2
    · intro ha
      exact ⟨r, (mem_of_get? hs).1, (r.admits_iff next id).2 ⟨(mem_of_get? hs).2, ha⟩⟩

theorem status_advance (other : String) :
    (l.advance id next now failure).2.status other =
      if other = id ∧ (l.status id).any next.follows then some next.name else l.status other := by
  unfold status
  rw [get?_advance, Option.map_map]
  cases hs : l.get? other with
  | none =>
    rw [if_neg]
    · rfl
    · rintro ⟨rfl, h⟩
      rw [hs] at h
      simp at h
  | some r =>
    have hr := (mem_of_get? hs).2
    by_cases ha : r.admits id next
    · obtain ⟨h1, h2⟩ := (r.admits_iff next id).1 ha
      have ho : other = id := Option.some.inj (hr.symm.trans h1)
      rw [if_pos ⟨ho, by rw [← ho, hs]; exact h2⟩]
      simp [ha]
    · rw [if_neg]
      · simp [ha]
      · rintro ⟨rfl, h⟩
        rw [hs] at h
        exact ha ((r.admits_iff next other).2 ⟨hr, h⟩)

variable {l} in
theorem distinct_advance (hd : l.Distinct) : (l.advance id next now failure).2.Distinct := by
  refine List.pairwise_map.2 (hd.imp fun {a b} h => ?_)
  split <;> split <;> exact h

variable {l id next now failure} in
theorem mem_advance {r : ExecutionRow} : r ∈ (l.advance id next now failure).2 ↔
    ∃ old ∈ l, (if old.admits id next then old.moved next now failure else old) = r := List.mem_map

variable {l id next now failure} in
theorem mem_of_mem_advance {r : ExecutionRow} (h : r ∈ (l.advance id next now failure).2) : ∃ old ∈ l, old.id = r.id := by
  obtain ⟨old, ho, rfl⟩ := mem_advance.1 h
  refine ⟨old, ho, ?_⟩
  split <;> rfl

variable {l id next now failure} in
/-- A change that is refused changes nothing. -/
theorem advance_snd_of_not (h : (l.advance id next now failure).1 = false) :
    (l.advance id next now failure).2 = l := by
  have hn := List.any_eq_false.1 h
  exact (List.map_congr_left fun r hr => if_neg (hn r hr)).trans (List.map_id l)

end Advance

/-! ### Executions that run only once -/

/-- Of the executions that run only once no two have the same key. -/
def Once (l : Executions) : Prop :=
  l.Pairwise fun a b => a.runOnce = .int 1 → b.runOnce = .int 1 → a.key ≠ b.key

section Once

variable {l : Executions} {row : ExecutionRow}

theorem once_nil : Once [] := List.Pairwise.nil

/-- A row under a new identifier finds its place unless it is to run only once and its key is taken. -/
theorem insert_fst_iff {id : String} (hid : row.id = some id) (hnew : ∀ r ∈ l, r.id ≠ some id) :
    (l.insert row).1 = true ↔ (row.runOnce = .int 1 → ∀ r ∈ l, r.runOnce = .int 1 → r.key ≠ row.key) := by
  rw [insert_fst, Bool.not_eq_true', List.any_eq_false]
  constructor
  · intro h hrow r hr honce hkey
    refine h r hr ?_
    simp [ExecutionRow.clashes, hrow, honce, hkey]
  · intro h r hr
    have hne : some id ≠ r.id := (hnew r hr).symm
    by_cases hrow : row.runOnce = .int 1
    · by_cases honce : r.runOnce = .int 1
      · have hkey : row.key ≠ r.key := (h hrow r hr honce).symm
        simp [ExecutionRow.clashes, hid, hne, hkey]
      · simp [ExecutionRow.clashes, hid, hne, honce]
    · simp [ExecutionRow.clashes, hid, hne, hrow]

theorem once_insert (ho : l.Once) : (l.insert row).2.Once := by
  cases h : (l.insert row).1 with
  | false => rwa [insert_snd_of_not h]
  | true =>
    rw [insert_snd h]
    refine List.pairwise_append.2 ⟨ho, List.pairwise_singleton _ _, fun a ha b hb honce honce' hkey => ?_⟩
    rw [List.mem_singleton.1 hb] at honce' hkey
    rw [insert_fst, Bool.not_eq_true'] at h
    refine List.any_eq_false.1 h a ha ?_
    simp [ExecutionRow.clashes, honce, honce', hkey]

theorem once_advance (id : String) (next : Status) (now : Int) (failure : Option Failure) (ho : l.Once) :
    (l.advance id next now failure).2.Once := by
  refine List.pairwise_map.2 (ho.imp fun {a b} h => ?_)
  split <;> split <;> exact h

theorem owner?_some {key : Key} {r : ExecutionRow} (h : l.owner? key = some r) :
    r ∈ l ∧ r.key = key ∧ r.runOnce = .int 1 := by
  have hp := List.find?_some h
  simp only [Bool.and_eq_true, beq_iff_eq] at hp
  exact ⟨List.mem_of_find?_eq_some h, hp.1, hp.2⟩

/-- The row under a key is the only one. -/
theorem Once.eq (ho : l.Once) {a b : ExecutionRow} (ha : a ∈ l) (hb : b ∈ l) (hao : a.runOnce = .int 1)
    (hbo : b.runOnce = .int 1) (hkey : a.key = b.key) : a = b := by
  induction l with
  | nil => cases ha
  | cons r l ih =>
    rcases List.mem_cons.1 ha with har | hal <;> rcases List.mem_cons.1 hb with hbr | hbl
    · rw [har, hbr]
    · subst har
      exact absurd hkey (List.rel_of_pairwise_cons ho hbl hao hbo)
    · subst hbr
      exact absurd hkey.symm (List.rel_of_pairwise_cons ho hal hbo hao)
    · exact ih ho.of_cons hal hbl

end Once

end Executions

end Store

end Lifecycle
