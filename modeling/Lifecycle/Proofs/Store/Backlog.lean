import Lifecycle.Proofs.Store.Tokens

/-!
# What is due first

The backlog at some time is all that is due then. Of a backlog that can be read, what is found up to a limit comes before
the rest: it is due earlier, or as early and written no later.
-/

namespace Lifecycle

open Time (Instant milliNanos)

/-- Due earlier, or as early and written no later. -/
def Token.Precedes (a b : Token) : Prop := a.resumeAt < b.resumeAt ∨ a.resumeAt = b.resumeAt ∧ a.createdAt ≤ b.createdAt

instance (a b : Token) : Decidable (a.Precedes b) := inferInstanceAs (Decidable (_ ∨ _))

theorem Token.precedes_iff {a b : Token} : a.Precedes b ↔ a.resumeAt.nanos < b.resumeAt.nanos ∨
    a.resumeAt.nanos = b.resumeAt.nanos ∧ a.createdAt.nanos ≤ b.createdAt.nanos := by
  unfold Precedes
  rw [Instant.eq_iff]
  rfl

theorem Token.Precedes.trans {a b c : Token} (h : a.Precedes b) (g : b.Precedes c) : a.Precedes c := by
  rw [precedes_iff] at h g ⊢
  omega

theorem Token.precedes_total (a b : Token) : a.Precedes b ∨ b.Precedes a := by
  rw [precedes_iff, precedes_iff]
  omega

namespace Store

/-! ### Times of tokens -/

theorem TokenRow.times_of_token {row : TokenRow} {t : Token} (h : row.token = .ok t) :
    ∃ due created, row.resumeAt = .int due ∧ row.createdAt = .int created ∧ t.resumeAt.nanos = due * milliNanos ∧
      t.createdAt.nanos = created * milliNanos := by
  unfold TokenRow.token at h
  obtain ⟨id, -, h⟩ := bind_ok h
  obtain ⟨resumeAt, hdue, h⟩ := bind_ok h
  obtain ⟨createdAt, hcreated, h⟩ := bind_ok h
  cases h
  obtain ⟨due, hd, hdn⟩ := int_of_readTime hdue
  obtain ⟨created, hc, hcn⟩ := int_of_readTime hcreated
  exact ⟨due, created, hd, hc, hdn, hcn⟩

namespace Tokens

/-- Rows are ordered as their tokens are. -/
theorem dueBefore_eq {a b : TokenRow} {t u : Token} (ha : a.token = .ok t) (hb : b.token = .ok u) :
    dueBefore a b = decide (t.Precedes u) := by
  obtain ⟨due, created, had, hac, htd, htc⟩ := TokenRow.times_of_token ha
  obtain ⟨due', created', hbd, hbc, hud, huc⟩ := TokenRow.times_of_token hb
  have hle (m n : Int) : m * milliNanos ≤ n * milliNanos ↔ m ≤ n := by
    unfold milliNanos
    omega
  unfold dueBefore Cell.leBy
  dsimp only
  rw [had, hac, hbd, hbc, Cell.int_le_int, Cell.int_le_int, Cell.int_le_int, Bool.eq_iff_iff, decide_eq_true_iff,
    Token.precedes_iff, htd, htc, hud, huc, hle]
  simp only [Bool.and_eq_true, Bool.or_eq_true, Bool.not_eq_true', decide_eq_true_iff, decide_eq_false_iff_not]
  unfold milliNanos
  omega

/-! ### Backlogs -/

/-- All that is due. -/
def backlog (ts : Tokens) (now : Int) : Tokens := ts.filter (·.resumeAt.le (.int now))

variable {ts : Tokens} {now : Int} {limit : Nat} {row : TokenRow}

theorem length_due : (ts.due now limit).length = min (ts.backlog now).length limit := by
  rw [due, List.length_take, List.length_mergeSort, Nat.min_comm]
  rfl

theorem mem_backlog_of_mem_due (h : row ∈ ts.due now limit) : row ∈ ts.backlog now :=
  List.mem_mergeSort.1 (List.mem_of_mem_take h)

/-- What is found comes before what is left. -/
theorem precedes_of_due {read : TokenRow → Token} (readable : ∀ row ∈ ts.backlog now, row.token = .ok (read row))
    {a b : TokenRow} (ha : a ∈ ts.due now limit) (hb : b ∈ ts.backlog now) (hleft : b ∉ ts.due now limit) :
    (read a).Precedes (read b) := by
  have hsorted : ((ts.backlog now).mergeSort dueBefore).Pairwise fun a b => (read a).Precedes (read b) :=
    List.pairwise_map.1 (pairwise_mergeSort_read (fun a ha b hb => dueBefore_eq (readable a ha) (readable b hb))
      (fun _ _ _ => .trans) Token.precedes_total)
  have hmem : b ∈ ((ts.backlog now).mergeSort dueBefore).drop limit := by
    have hall : b ∈ (ts.backlog now).mergeSort dueBefore := List.mem_mergeSort.2 hb
    rw [← List.take_append_drop limit ((ts.backlog now).mergeSort dueBefore), List.mem_append] at hall
    exact hall.resolve_left hleft
  rw [← List.take_append_drop limit ((ts.backlog now).mergeSort dueBefore)] at hsorted
  exact (List.pairwise_append.1 hsorted).2.2 a ha b hmem

/-! ### Taking tokens -/

/-- The tokens that are not among the rows. -/
def lacking (ts rows : Tokens) : Tokens := ts.filter fun row => !rows.any (·.id == row.id)

theorem not_mem_of_lacking {rows : Tokens} (h : row ∈ ts.lacking rows) : row ∈ ts ∧ row ∉ rows := by
  obtain ⟨hmem, hnone⟩ := List.mem_filter.1 h
  refine ⟨hmem, fun hrow => ?_⟩
  simp only [Bool.not_eq_true', List.any_eq_false, beq_iff_eq] at hnone
  exact hnone row hrow rfl

theorem lacking_nil (ts : Tokens) : ts.lacking [] = ts := List.filter_eq_self.2 fun _ _ => rfl

theorem lacking_append (ts us rows : Tokens) : lacking (ts ++ us) rows = ts.lacking rows ++ us.lacking rows :=
  List.filter_append ..

theorem lacking_lacking (ts rows rows' : Tokens) : (ts.lacking rows).lacking rows' = ts.lacking (rows ++ rows') := by
  unfold lacking
  rw [List.filter_filter]
  refine List.filter_congr fun row _ => ?_
  rw [List.any_append, Bool.not_or, Bool.and_comm]

theorem backlog_append (ts us : Tokens) (now : Int) : backlog (ts ++ us) now = ts.backlog now ++ us.backlog now :=
  List.filter_append ..

theorem backlog_lacking (ts rows : Tokens) (now : Int) : (ts.lacking rows).backlog now = (ts.backlog now).lacking rows :=
  List.filter_comm ..

/-- Tokens are those that are taken and the rest. -/
theorem perm_lacking {rows : Tokens} (distinct : ts.Distinct) (nodup : rows.Distinct) (hrows : ∀ row ∈ rows, row ∈ ts) :
    (rows ++ ts.lacking rows).Perm ts := by
  have hself {l : Tokens} (h : l.Distinct) : l.Nodup := h.imp fun hne he => hne (congrArg (·.id) he)
  have htaken : rows.Perm (ts.filter fun row => rows.any (·.id == row.id)) := by
    refine (List.perm_ext_iff_of_nodup (hself nodup) ((hself distinct).filter _)).2 fun row => ?_
    rw [List.mem_filter, List.any_eq_true]
    constructor
    · exact fun h => ⟨hrows row h, row, h, beq_self_eq_true _⟩
    · rintro ⟨hrow, other, hother, hid⟩
      rwa [← distinct.eq_of_id (hrows other hother) hrow (beq_iff_eq.1 hid)]
  exact (htaken.append_right _).trans (List.filter_append_perm _ ts)

end Tokens

end Store

end Lifecycle
