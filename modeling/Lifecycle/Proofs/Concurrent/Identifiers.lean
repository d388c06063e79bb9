import Lifecycle.Proofs.Concurrent.Effects
import Lifecycle.Proofs.Concurrent.Writing
import Mathlib.Data.List.Nodup
import Mathlib.Data.List.Pairwise

/-!
# Rows under identifiers of their own

Among operations that write as their protocol says, no identifier is used for two rows, in the tables or over time. So a
token that was read once is the token under its identifier for ever, whoever else has come and gone.
-/

namespace Lifecycle

open Engine (Request Job)
open Store (Database ExecutionRow TokenRow)

/-! ### What an entry writes -/

/-- The identifier of the row that was to be written. -/
def Entry.writes? (e : Entry) : Option String :=
  match e.reply with
  | ⟨.statement (.insertExecution row), _⟩ => row.id
  | ⟨.statement (.suspend row _), _⟩ => row.id
  | _ => none

/-- The token that was written. -/
def Entry.token? (e : Entry) : Option TokenRow :=
  match e.reply with
  | ⟨.statement (.suspend row _), .ok true⟩ => some row
  | _ => none

/-- The tokens that were ever written. -/
def Pool.written (s : Pool) : List TokenRow := s.history.filterMap Entry.token?

theorem Entry.writes?_of_token? {e : Entry} {t : TokenRow} (h : e.token? = some t) : e.writes? = t.id := by
  unfold Entry.token? at h
  split at h
  · rename_i row _ he
    cases h
    simp only [Entry.writes?, he]
  · cases h

/-- An entry draws an identifier, or uses the one that was drawn last, or leaves it alone. -/
theorem Writing.Turn.cases {d d' : Option String} {r : Request} {x : r.Answer} (h : Writing.Turn d r x d') (k : Nat)
    (before after : Database) :
    (∃ id, d' = some id ∧ (⟨r, x⟩ : Reply Engine.interface) = ⟨.fresh, id⟩) ∨
      (∃ id, d = some id ∧ d' = none ∧ Entry.writes? ⟨k, ⟨r, x⟩, before, after⟩ = some id ∧
        Entry.identifier? ⟨k, ⟨r, x⟩, before, after⟩ = none) ∨
      (d' = d ∧ Entry.writes? ⟨k, ⟨r, x⟩, before, after⟩ = none ∧
        Entry.identifier? ⟨k, ⟨r, x⟩, before, after⟩ = none) := by
  cases h with
  | draw _ id => exact .inl ⟨id, rfl, rfl⟩
  | record r _ _ _ _ x => exact .inr (.inl ⟨r.id, rfl, rfl, rfl, rfl⟩)
  | token t now x => exact .inr (.inl ⟨t.id, rfl, rfl, rfl, rfl⟩)
  | advance _ _ _ _ _ _ => exact .inr (.inr ⟨rfl, rfl, rfl⟩)
  | other _ h x =>
    refine .inr (.inr ⟨rfl, ?_⟩)
    cases r with
    | statement q => cases q <;> first | exact ⟨rfl, rfl⟩ | exact h.elim
    | fresh => exact h.elim
    | _ => exact ⟨rfl, rfl⟩

/-! ### The invariant -/

/-- The identifiers under which a row was to be written. -/
def Pool.used (s : Pool) : List String := s.history.filterMap Entry.writes?

/-- Every identifier that is drawn waits for its one use, and every row in the tables was written under one. -/
structure Identified (s : Pool) (drawn : Nat → Option String) : Prop where
  given : ∀ k id, drawn k = some id → id ∈ s.identifiers ∧ id ∉ s.used
  apart : ∀ j k id, drawn j = some id → drawn k = some id → j = k
  known : ∀ id ∈ s.used, id ∈ s.identifiers
  once : s.used.Nodup
  tokens : ∀ row ∈ s.database.waiting, row ∈ s.written
  rows : ∀ row ∈ s.database.records, ∀ id, row.id = some id → id ∈ s.used

section Answered

variable {s : Pool} {k : Nat} {r : Request} {x : r.Answer} {after : Database} {rest : Job Unit}

theorem Pool.identifiers_answered : (s.answered k ⟨r, x⟩ after rest).identifiers =
    s.identifiers ++ (Entry.identifier? ⟨k, ⟨r, x⟩, s.database, after⟩).toList := by
  simp only [identifiers, answered, List.filterMap_append]
  cases h : Entry.identifier? ⟨k, ⟨r, x⟩, s.database, after⟩ <;> simp [h]

theorem Pool.used_answered : (s.answered k ⟨r, x⟩ after rest).used =
    s.used ++ (Entry.writes? ⟨k, ⟨r, x⟩, s.database, after⟩).toList := by
  simp only [used, answered, List.filterMap_append]
  cases h : Entry.writes? ⟨k, ⟨r, x⟩, s.database, after⟩ <;> simp [h]

theorem Pool.written_answered : (s.answered k ⟨r, x⟩ after rest).written =
    s.written ++ (Entry.token? ⟨k, ⟨r, x⟩, s.database, after⟩).toList := by
  simp only [written, answered, List.filterMap_append]
  cases h : Entry.token? ⟨k, ⟨r, x⟩, s.database, after⟩ <;> simp [h]

theorem Pool.mem_written {row : TokenRow} (h : row ∈ s.written) : row ∈ (s.answered k ⟨r, x⟩ after rest).written := by
  rw [written_answered]
  exact List.mem_append_left _ h

/-- A token that is new in the table was written by this very statement. -/
theorem Answers.waiting_written (hx : Answers s.identifiers s.database r x after)
    (hw : ∀ row ∈ s.database.waiting, row ∈ s.written) :
    ∀ row ∈ after.waiting, row ∈ (s.answered k ⟨r, x⟩ after rest).written := by
  intro row hrow
  rw [Pool.written_answered, List.mem_append]
  rcases hx.mem_waiting hrow with h | ⟨now, h⟩
  · exact .inl (hw row h)
  · right
    rw [h]
    simp [Entry.token?]

/-- So was an identifier that is new on record. -/
theorem Answers.records_used (hx : Answers s.identifiers s.database r x after)
    (hr : ∀ row ∈ s.database.records, ∀ id, row.id = some id → id ∈ s.used) :
    ∀ row ∈ after.records, ∀ id, row.id = some id → id ∈ (s.answered k ⟨r, x⟩ after rest).used := by
  intro row hrow id hid
  rw [Pool.used_answered, List.mem_append]
  rcases hx.mem_records hrow with ⟨old, ho, he⟩ | rfl
  · exact .inl (hr old ho id (he.trans hid))
  · exact .inr (by simp [Entry.writes?, hid])

namespace Identified

variable {drawn : Nat → Option String}

/-- An identifier that is drawn is none of those that are known. -/
theorem drew {id : String} {rest : Job Unit} (i : Identified s drawn)
    (hx : Answers s.identifiers s.database .fresh id after) :
    Identified (s.answered k ⟨.fresh, id⟩ after rest) (Function.update drawn k (some id)) := by
  have hnew : id ∉ s.identifiers := hx.1
  have hids : (s.answered k ⟨.fresh, id⟩ after rest).identifiers = s.identifiers ++ [id] := Pool.identifiers_answered
  have hused : (s.answered k ⟨.fresh, id⟩ after rest).used = s.used := Pool.used_answered.trans (List.append_nil _)
  have old {j : Nat} {other : String} (hj : drawn j = some other) : other ≠ id :=
    fun h => hnew (h ▸ (i.given j other hj).1)
  refine ⟨fun j other hj => ?_, fun j j' other hj hj' => ?_, fun other ho => ?_, hused ▸ i.once,
    hx.waiting_written i.tokens, hx.records_used i.rows⟩
  · rw [hids, hused, List.mem_append]
    rcases update_or drawn k (some id) j with ⟨-, h⟩ | ⟨-, h⟩
    · cases h.symm.trans hj
      exact ⟨.inr (List.mem_singleton_self _), fun h => hnew (i.known id h)⟩
    · rw [h] at hj
      exact ⟨.inl (i.given j other hj).1, (i.given j other hj).2⟩
  · rcases update_or drawn k (some id) j with ⟨hjk, h⟩ | ⟨-, h⟩ <;>
      rcases update_or drawn k (some id) j' with ⟨hjk', h'⟩ | ⟨-, h'⟩
    · rw [hjk, hjk']
    · cases h.symm.trans hj
      exact absurd rfl (old (h'.symm.trans hj'))
    · cases h'.symm.trans hj'
      exact absurd rfl (old (h.symm.trans hj))
    · exact i.apart j j' other (h.symm.trans hj) (h'.symm.trans hj')
  · rw [hused] at ho
    rw [hids]
    exact List.mem_append_left _ (i.known other ho)

/-- An identifier under which a row is written is used up. -/
theorem wrote {id : String} (i : Identified s drawn) (hx : Answers s.identifiers s.database r x after)
    (hid : drawn k = some id) (hwr : Entry.writes? ⟨k, ⟨r, x⟩, s.database, after⟩ = some id)
    (hidn : Entry.identifier? ⟨k, ⟨r, x⟩, s.database, after⟩ = none) :
    Identified (s.answered k ⟨r, x⟩ after rest) (Function.update drawn k none) := by
  have hids : (s.answered k ⟨r, x⟩ after rest).identifiers = s.identifiers := by
    rw [Pool.identifiers_answered, hidn]
    exact List.append_nil _
  have hused : (s.answered k ⟨r, x⟩ after rest).used = s.used ++ [id] := by
    rw [Pool.used_answered, hwr]
    rfl
  have kept {j : Nat} {other : String} (hj : Function.update drawn k none j = some other) :
      j ≠ k ∧ drawn j = some other := by
    rcases update_or drawn k none j with ⟨-, h⟩ | ⟨hjk, h⟩
    · cases h.symm.trans hj
    · exact ⟨hjk, h.symm.trans hj⟩
  refine ⟨fun j other hj => ?_, fun j j' other hj hj' => ?_, fun other ho => ?_, ?_, hx.waiting_written i.tokens,
    hx.records_used i.rows⟩
  · obtain ⟨hjk, hj⟩ := kept hj
    rw [hids, hused, List.mem_append, List.mem_singleton]
    refine ⟨(i.given j other hj).1, ?_⟩
    rintro (h | rfl)
    · exact (i.given j other hj).2 h
    · exact hjk (i.apart j k other hj hid)
  · exact i.apart j j' other (kept hj).2 (kept hj').2
  · rw [hused, List.mem_append, List.mem_singleton] at ho
    rw [hids]
    rcases ho with ho | rfl
    · exact i.known other ho
    · exact (i.given k other hid).1
  · rw [hused]
    refine List.nodup_append.2 ⟨i.once, List.nodup_singleton id, fun a ha b hb => ?_⟩
    rw [List.mem_singleton.1 hb]
    exact fun h => (i.given k id hid).2 (h ▸ ha)

/-- An entry that neither draws nor writes leaves the identifiers as they are. -/
theorem still (i : Identified s drawn) (hx : Answers s.identifiers s.database r x after)
    (hwr : Entry.writes? ⟨k, ⟨r, x⟩, s.database, after⟩ = none)
    (hidn : Entry.identifier? ⟨k, ⟨r, x⟩, s.database, after⟩ = none) :
    Identified (s.answered k ⟨r, x⟩ after rest) drawn := by
  have hids : (s.answered k ⟨r, x⟩ after rest).identifiers = s.identifiers := by
    rw [Pool.identifiers_answered, hidn]
    exact List.append_nil _
  have hused : (s.answered k ⟨r, x⟩ after rest).used = s.used := by
    rw [Pool.used_answered, hwr]
    exact List.append_nil _
  exact ⟨fun j other hj => hids ▸ hused ▸ i.given j other hj, i.apart, hids ▸ hused ▸ i.known, hused ▸ i.once,
    hx.waiting_written i.tokens, hx.records_used i.rows⟩

/-- The protocol keeps identifiers apart. -/
theorem answered {d : Option String} (i : Identified s drawn) (hx : Answers s.identifiers s.database r x after)
    (ht : Writing.Turn (drawn k) r x d) : Identified (s.answered k ⟨r, x⟩ after rest) (Function.update drawn k d) := by
  rcases ht.cases k s.database after with ⟨id, rfl, he⟩ | ⟨id, hid, rfl, hwr, hidn⟩ | ⟨rfl, hwr, hidn⟩
  · obtain rfl := congrArg Reply.request he
    cases he
    exact i.drew hx
  · exact i.wrote hx hid hwr hidn
  · rw [Function.update_eq_self]
    exact i.still hx hwr hidn

end Identified

end Answered

/-! ### Runs -/

variable {offered : Job Unit → Prop} {s : Pool}

theorem Pool.Reachable.identified (writes : ∀ job, offered job → Writes job) (h : Pool.Reachable offered s) :
    ∃ drawn, Identified s drawn := by
  refine h.invariant (R := writing) (fun job hj => writes job hj none) (fun _ _ hx => hx) ?_ ?_ ?_ ?_
  · intro db he ht
    refine ⟨nofun, nofun, nofun, List.nodup_nil, fun row hrow => ?_, fun row hrow => ?_⟩
    · simp [Database.waiting, ht] at hrow
    · simp [Database.records, he] at hrow
  · intro s drawn job _ i
    exact ⟨i.given, i.apart, i.known, i.once, i.tokens, i.rows⟩
  · intro s drawn db i hdb
    refine ⟨i.given, i.apart, i.known, i.once, fun row hrow => ?_, fun row hrow => ?_⟩
    · exact i.tokens row (hdb.unchanged.waiting ▸ hrow)
    · exact i.rows row (hdb.unchanged.records ▸ hrow)
  · intro s drawn k r next x after d _ i _ hx ht
    exact i.answered hx ht

/-- Entries that write under one identifier are one entry. -/
theorem Identified.entry_unique {drawn : Nat → Option String} (i : Identified s drawn) {a b : Entry} {id : String}
    (ha : a ∈ s.history) (hb : b ∈ s.history) (hwa : a.writes? = some id) (hwb : b.writes? = some id) : a = b := by
  have hp : s.history.Pairwise fun c d => ∀ i, c.writes? = some i → ∀ j, d.writes? = some j → i ≠ j :=
    List.pairwise_filterMap.1 i.once
  have : Std.Symm fun c d : Entry => ∀ i, c.writes? = some i → ∀ j, d.writes? = some j → i ≠ j :=
    ⟨fun _ _ h i hi j hj => (h j hj i hi).symm⟩
  by_contra hne
  exact hp.forall ha hb hne id hwa id hwb rfl

/-- Tokens that were written under one identifier are one token. -/
theorem Identified.written_unique {drawn : Nat → Option String} (i : Identified s drawn) {a b : TokenRow} {id : String}
    (ha : a ∈ s.written) (hb : b ∈ s.written) (hia : a.id = some id) (hib : b.id = some id) : a = b := by
  obtain ⟨e, he, hta⟩ := List.mem_filterMap.1 ha
  obtain ⟨e', he', htb⟩ := List.mem_filterMap.1 hb
  obtain rfl := i.entry_unique he he' ((Entry.writes?_of_token? hta).trans hia) ((Entry.writes?_of_token? htb).trans hib)
  exact Option.some.inj (hta.symm.trans htb)

/-- A token that is to be written is under an identifier that no token has. -/
theorem Pool.Reachable.token_new (writes : ∀ job, offered job → Writes job) (h : Pool.Reachable offered s)
    {pre post : List Entry} {k : Nat} {t : Token} {now : Int} {x : Except Store.Fault Bool} {before after : Database}
    (hs : s.history = pre ++ ⟨k, ⟨.statement (.suspend (.ofToken t) now), x⟩, before, after⟩ :: post) :
    ∀ row ∈ before.waiting, row.id ≠ some t.id := by
  intro row hrow hid
  obtain ⟨s₀, h₀, hpre, hdb, -⟩ := h.entry hs
  obtain ⟨drawn, i⟩ := h.identified writes
  obtain ⟨drawn₀, i₀⟩ := h₀.identified writes
  obtain ⟨e, he, ht⟩ := List.mem_filterMap.1 (i₀.tokens row (hdb ▸ hrow))
  have hused : t.id ∈ pre.filterMap Entry.writes? :=
    List.mem_filterMap.2 ⟨e, hpre ▸ he, (Entry.writes?_of_token? ht).trans hid⟩
  have once := i.once
  rw [Pool.used, hs, List.filterMap_append] at once
  exact List.disjoint_of_nodup_append once hused List.mem_cons_self

end Lifecycle
