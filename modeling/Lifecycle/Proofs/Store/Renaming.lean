import Lifecycle.Proofs.Results
import Lifecycle.Proofs.Store.Executions
import Lifecycle.Store.Tokens
import Mathlib.Data.List.Forall2

/-!
# Tables with other identifiers in them

Two tables of executions that hold the same rows of one target, and behind them the same new rows under identifiers that
correspond to each other, answer statements about that target in the same way.
-/

namespace Lifecycle.Store

variable {C : String → String → Prop}

/-- Is the key that of an execution on the target? -/
def Key.about (target : Target) (k : Key) : Bool := k.targetType == target.type.name && k.targetId == target.id

theorem Key.about_unique {target other : Target} {k : Key} (h : k.about target = true) (h' : k.about other = true) :
    other = target := by
  obtain ⟨htype, hid⟩ := Bool.and_eq_true_iff.1 h
  obtain ⟨htype', hid'⟩ := Bool.and_eq_true_iff.1 h'
  have hname : other.type.name = target.type.name := (beq_iff_eq.1 htype').symm.trans (beq_iff_eq.1 htype)
  have htypes : ∀ t t' : TargetType, t.name = t'.name → t = t' := by
    intro t t' h
    cases t <;> cases t' <;> first | rfl | exact absurd h (by decide)
  obtain ⟨type, id⟩ := target
  obtain ⟨type', id'⟩ := other
  obtain rfl := htypes _ _ hname
  obtain rfl : id' = id := (beq_iff_eq.1 hid').symm.trans (beq_iff_eq.1 hid)
  rfl

/-! ### Rows -/

/-- The same row under a corresponding identifier. -/
def ExecutionRow.Renamed (C : String → String → Prop) (r r' : ExecutionRow) : Prop :=
  ∃ i i', C i i' ∧ r.id = some i ∧ r' = { r with id := some i' }

/-- The same token, of an execution and under an identifier that correspond. -/
def TokenRow.Renamed (C : String → String → Prop) (t t' : TokenRow) : Prop :=
  ∃ i i' owner', C i i' ∧ C t.executionId owner' ∧ t.id = some i ∧ t' = { t with id := some i', executionId := owner' }

theorem TokenRow.Renamed.mono {D : String → String → Prop} (hD : ∀ i j, C i j → D i j) {t t' : TokenRow}
    (h : t.Renamed C t') : t.Renamed D t' := by
  obtain ⟨i, i', owner', pair, owner, h⟩ := h
  exact ⟨i, i', owner', hD _ _ pair, hD _ _ owner, h⟩

namespace ExecutionRow

variable {r r' : ExecutionRow}

theorem Renamed.mono {D : String → String → Prop} (hD : ∀ i j, C i j → D i j) (h : r.Renamed C r') : r.Renamed D r' := by
  obtain ⟨i, i', pair, h⟩ := h
  exact ⟨i, i', hD _ _ pair, h⟩

theorem Renamed.key (h : r.Renamed C r') : r'.key = r.key := by
  obtain ⟨i, i', -, -, rfl⟩ := h
  rfl

theorem Renamed.runOnce (h : r.Renamed C r') : r'.runOnce = r.runOnce := by
  obtain ⟨i, i', -, -, rfl⟩ := h
  rfl

theorem Renamed.moved (h : r.Renamed C r') (next : Status) (now : Int) (failure : Option Failure) :
    (r.moved next now failure).Renamed C (r'.moved next now failure) := by
  obtain ⟨i, i', pair, hid, rfl⟩ := h
  exact ⟨i, i', pair, hid, rfl⟩

/-- Which identifier a row has is seen on either side. -/
theorem Renamed.id_iff (h : r.Renamed C r') {i i' : String} (single : ∀ j j', C j j' → (j = i ↔ j' = i')) :
    r'.id = some i' ↔ r.id = some i := by
  obtain ⟨j, j', pair, hid, rfl⟩ := h
  rw [hid, Option.some.injEq, Option.some.injEq]
  exact (single j j' pair).symm

theorem Renamed.admits (h : r.Renamed C r') {i i' : String} (single : ∀ j j', C j j' → (j = i ↔ j' = i')) (next : Status) :
    r'.admits i' next = r.admits i next := by
  have hstatus : r'.status = r.status := by
    obtain ⟨j, j', -, -, rfl⟩ := h
    rfl
  rw [Bool.eq_iff_iff, admits_iff, admits_iff, h.id_iff single, hstatus]

/-- Both can be read, or neither for the same reason. -/
theorem Renamed.record (h : r.Renamed C r') : Agreed (fun _ _ => True) r.record r'.record := by
  obtain ⟨i, i', -, hid, rfl⟩ := h
  unfold ExecutionRow.record
  rw [hid]
  refine (Agreed.refl _).bind fun _ _ same => same ▸ ?_
  refine Agreed.bind (.ok trivial : Agreed (fun _ _ => True) (readId (some i)) (readId (some i'))) fun _ _ _ => ?_
  refine (Agreed.refl _).bind fun _ _ same => same ▸ ?_
  refine (Agreed.refl _).bind fun _ _ same => same ▸ ?_
  refine (Agreed.refl _).bind fun _ _ same => same ▸ ?_
  refine (Agreed.refl _).bind fun _ _ same => same ▸ ?_
  refine (Agreed.refl _).bind fun _ _ same => same ▸ ?_
  refine (Agreed.refl _).bind fun _ _ same => same ▸ ?_
  exact (Agreed.refl _).bind fun _ _ same => same ▸ .ok trivial

end ExecutionRow

/-! ### Tables -/

namespace Executions

variable {l l' e e' : Executions} {i i' : String} {target : Target}

/-- Rows of other identifiers stay as they are. -/
theorem advance_behind (new : ∀ r ∈ l, r.id ≠ some i) (e : Executions) (next : Status) (now : Int) (failure : Option Failure) :
    advance (l ++ e) i next now failure = ((e.advance i next now failure).1, l ++ (e.advance i next now failure).2) := by
  have refused (r : ExecutionRow) (hr : r ∈ l) : ¬ r.admits i next = true := by
    rw [ExecutionRow.admits_iff]
    exact fun h => new r hr h.1
  have hany : l.any (·.admits i next) = false := List.any_eq_false.2 refused
  have hmap : (l.map fun r => if r.admits i next then r.moved next now failure else r) = l :=
    (List.map_congr_left fun r hr => if_neg (refused r hr)).trans (List.map_id l)
  unfold advance
  rw [List.any_append, hany, List.map_append, hmap, Bool.false_or]

theorem renamed_advance (h : List.Forall₂ (ExecutionRow.Renamed C) e e') (single : ∀ j j', C j j' → (j = i ↔ j' = i'))
    (next : Status) (now : Int) (failure : Option Failure) :
    (e'.advance i' next now failure).1 = (e.advance i next now failure).1 ∧
      List.Forall₂ (ExecutionRow.Renamed C) (e.advance i next now failure).2 (e'.advance i' next now failure).2 := by
  unfold advance
  induction h with
  | nil => exact ⟨rfl, .nil⟩
  | @cons r r' e e' hr _ ih =>
    refine ⟨?_, .cons ?_ ih.2⟩
    · show (r'.admits i' next || _) = (r.admits i next || _)
      rw [hr.admits single, show e'.any _ = _ from ih.1]
    · dsimp only
      rw [hr.admits single]
      split
      · exact hr.moved next now failure
      · exact hr

/-- The run-once rows under a key of the target: found among the old rows, which are the same, or among the new ones. -/
theorem renamed_owner? (old : l'.filter (·.key.about target) = l.filter (·.key.about target))
    (h : List.Forall₂ (ExecutionRow.Renamed C) e e') {key : Key} (hkey : key.about target = true) :
    Option.Rel (fun r r' => r' = r ∨ r.Renamed C r') (owner? (l ++ e) key) (owner? (l' ++ e') key) := by
  have among (l : Executions) : owner? l key = owner? (l.filter (·.key.about target)) key := by
    unfold owner?
    rw [List.find?_filter]
    refine congrArg (l.find? ·) (funext fun r => ?_)
    rw [Bool.eq_iff_iff]
    by_cases hr : r.key = key
    · simp [hr, hkey]
    · simp [hr]
  have behind : Option.Rel (fun r r' => r' = r ∨ r.Renamed C r') (e.owner? key) (e'.owner? key) := by
    unfold owner?
    induction h with
    | nil => exact .none
    | @cons r r' e e' hr _ ih =>
      rw [List.find?_cons, List.find?_cons, hr.key, hr.runOnce]
      split
      · exact .some (.inr hr)
      · exact ih
  have hfront : l'.owner? key = l.owner? key := by rw [among l', old, ← among l]
  have hfind (l e : Executions) : owner? (l ++ e) key = (l.owner? key).or (e.owner? key) := List.find?_append
  rw [hfind, hfind, hfront]
  cases l.owner? key with
  | none => exact behind
  | some r => exact .some (.inl rfl)

/-- A row of the target and its counterpart find their places both, or neither. -/
theorem renamed_insert (old : l'.filter (·.key.about target) = l.filter (·.key.about target))
    (new : ∀ r ∈ l, r.id ≠ some i) (new' : ∀ r ∈ l', r.id ≠ some i') (h : List.Forall₂ (ExecutionRow.Renamed C) e e')
    (single : ∀ j j', C j j' → (j = i ↔ j' = i')) {row : ExecutionRow} (hid : row.id = some i)
    (habout : row.key.about target = true) :
    (insert (l' ++ e') { row with id := some i' }).1 = (insert (l ++ e) row).1 := by
  let row' : ExecutionRow := { row with id := some i' }
  -- among the old rows only a row that runs only once under the same key is in the way, and it is on the target
  have among {l : Executions} {row : ExecutionRow} {i : String} (hid : row.id = some i) (new : ∀ r ∈ l, r.id ≠ some i)
      (habout : row.key.about target = true) :
      l.any row.clashes = (l.filter (·.key.about target)).any fun r =>
        row.runOnce == .int 1 && r.runOnce == .int 1 && row.key == r.key := by
    rw [List.any_filter, Bool.eq_iff_iff, List.any_eq_true, List.any_eq_true]
    refine exists_congr fun r => and_congr_right fun hr => ?_
    have hne : ¬ some i = r.id := fun heq => new r hr heq.symm
    by_cases hkey : row.key = r.key
    · simp [ExecutionRow.clashes, hid, hne, ← hkey, habout]
    · simp [ExecutionRow.clashes, hid, hne, hkey]
  have behind : e'.any row'.clashes = e.any row.clashes := by
    induction h with
    | nil => rfl
    | @cons r r' e e' hr _ ih =>
      have hsame : (some i' == r'.id) = (some i == r.id) := by
        rw [Bool.eq_iff_iff, beq_iff_eq, beq_iff_eq, eq_comm, hr.id_iff single, eq_comm]
      have hclash : row'.clashes r' = row.clashes r := by
        unfold ExecutionRow.clashes
        rw [hr.runOnce, hr.key, hid]
        exact congrArg (· || _) hsame
      rw [List.any_cons, List.any_cons, hclash, ih]
  have hfront : l'.any row'.clashes = l.any row.clashes := by
    rw [among hid new habout, ← old]
    exact among rfl new' habout
  rw [insert_fst, insert_fst, List.any_append, List.any_append, hfront, behind]

end Executions

/-- Whether a token of an identifier is there is seen on either side. -/
theorem Tokens.renamed_taken {ts ts' : Tokens} {i i' : String} (h : List.Forall₂ (TokenRow.Renamed C) ts ts')
    (single : ∀ j j', C j j' → (j = i ↔ j' = i')) : ts'.any (·.id == some i') = ts.any (·.id == some i) := by
  induction h with
  | nil => rfl
  | @cons t t' ts ts' ht _ ih =>
    obtain ⟨j, j', -, pair, -, hid, rfl⟩ := ht
    rw [List.any_cons, List.any_cons, ih, hid]
    refine congrArg (· || _) ?_
    rw [Bool.eq_iff_iff, beq_iff_eq, beq_iff_eq, Option.some.injEq, Option.some.injEq]
    exact (single j j' pair).symm

end Lifecycle.Store
