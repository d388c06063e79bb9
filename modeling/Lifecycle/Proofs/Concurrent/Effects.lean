import Lifecycle.Proofs.Concurrent.Pool
import Lifecycle.Proofs.Store.Executions

/-!
# What answers do to the tables

One lemma for each statement that the engine makes on executions or tokens: what it may answer, and the two tables then.
All other requests leave both tables as they are.
-/

namespace Lifecycle

open Engine (Request)
open Store (Database Executions Tokens ExecutionRow TokenRow Failure)

namespace Store.Database

/-- The executions on record. -/
def records (db : Database) : Executions := db.executions.getD []

/-- The tokens outstanding. -/
def waiting (db : Database) : Tokens := db.tokens.getD []

/-- Both tables are as they were. -/
structure Unchanged (db after : Database) : Prop where
  records : after.records = db.records
  waiting : after.waiting = db.waiting

theorem Unchanged.refl (db : Database) : Unchanged db db := ⟨rfl, rfl⟩

theorem SameRecords.unchanged {db after : Database} (h : db.SameRecords after) : Unchanged db after :=
  ⟨congrArg (·.getD []) h.1, congrArg (·.getD []) h.2⟩

end Store.Database

/-- Neither table is written. -/
def Engine.Request.Still : Request → Prop
  | .statement (.insertExecution _) | .statement (.advance _ _ _ _) | .statement (.suspend _ _)
  | .statement (.claim _) => False
  | _ => True

theorem Engine.Request.still_or (r : Request) :
    r.Still ∨ (∃ row, r = .statement (.insertExecution row)) ∨
      (∃ id next now failure, r = .statement (.advance id next now failure)) ∨
      (∃ row now, r = .statement (.suspend row now)) ∨ ∃ id, r = .statement (.claim id) := by
  cases r with
  | statement q =>
    cases q with
    | insertExecution row => exact .inr (.inl ⟨row, rfl⟩)
    | advance id next now failure => exact .inr (.inr (.inl ⟨id, next, now, failure, rfl⟩))
    | suspend row now => exact .inr (.inr (.inr (.inl ⟨row, now, rfl⟩)))
    | claim id => exact .inr (.inr (.inr (.inr ⟨id, rfl⟩)))
    | _ => exact .inl trivial
  | _ => exact .inl trivial

namespace Answers

variable {ids : List String} {db after : Database}

/-- A table that is read for `f`: the answer, if it is there. -/
theorem present_ok {α β : Type} {name : String} {t : Option α} {f : α → Except Store.Fault β} {b : β}
    (h : (Store.present name t >>= f) = .ok b) : ∃ a, t = some a ∧ f a = .ok b := by
  cases t with
  | none => cases h
  | some a => exact ⟨a, rfl, h⟩

/-- A statement that is answered was executed, or else nothing has happened. -/
theorem executed {q : Store.Statement} {x : Except Store.Fault q.Value}
    (h : Answers ids db (.statement q) x after) :
    (∃ v, x = .ok v ∧ q.apply db = .ok (v, after)) ∨ (∃ f, x = .error f) ∧ after = db := by
  rcases h with h | h
  · unfold Store.Statement.execute at h
    split at h
    · rename_i v db' hq
      obtain ⟨rfl, rfl⟩ := Prod.mk.inj h
      exact .inl ⟨v, rfl, hq⟩
    · obtain ⟨rfl, rfl⟩ := Prod.mk.inj h
      exact .inr ⟨⟨_, rfl⟩, rfl⟩
  · exact .inr h

theorem insertExecution {row : ExecutionRow} {x : Except Store.Fault Bool}
    (h : Answers ids db (.statement (.insertExecution row)) x after) :
    x = .ok (db.records.insert row).1 ∧ after.records = (db.records.insert row).2 ∧ after.waiting = db.waiting ∨
      (∃ f, x = .error f) ∧ after = db := by
  refine (executed h).imp_left ?_
  rintro ⟨v, rfl, hq⟩
  obtain ⟨l, hl, hv⟩ := present_ok hq
  cases hv
  simp only [Store.Database.records, Store.Database.waiting, hl, Option.getD_some]
  exact ⟨rfl, rfl, trivial⟩

/-- A row that was put on record has found its place. -/
theorem insert_of_ok {row : ExecutionRow} (h : Answers ids db (.statement (.insertExecution row)) (.ok true) after) :
    (db.records.insert row).1 = true ∧ after.records = (db.records.insert row).2 := by
  rcases h.insertExecution with ⟨hi, hr, -⟩ | ⟨⟨f, hf⟩, -⟩
  · exact ⟨(Except.ok.inj hi).symm, hr⟩
  · cases hf

theorem advance {id : String} {next : Status} {now : Int} {failure : Option Failure} {x : Except Store.Fault Bool}
    (h : Answers ids db (.statement (.advance id next now failure)) x after) :
    x = .ok (db.records.advance id next now failure).1 ∧
        after.records = (db.records.advance id next now failure).2 ∧ after.waiting = db.waiting ∨
      (∃ f, x = .error f) ∧ after = db := by
  refine (executed h).imp_left ?_
  rintro ⟨v, rfl, hq⟩
  obtain ⟨l, hl, hv⟩ := present_ok hq
  cases hv
  simp only [Store.Database.records, Store.Database.waiting, hl, Option.getD_some]
  exact ⟨rfl, rfl, trivial⟩

/-- A suspension that is executed moves the record and writes the token, or does neither. -/
theorem suspend_ok {t : TokenRow} {now : Int} {moved : Bool} (h : db.suspend t now = .ok (moved, after)) :
    ∃ l, db.executions = some l ∧ (l.advance t.executionId .suspended now none).1 = moved ∧
      (moved = false ∧ after = db ∨ moved = true ∧ ∃ ts, db.tokens = some ts ∧ after = { db with
        executions := some (l.advance t.executionId .suspended now none).2, tokens := some (ts ++ [t]) }) := by
  obtain ⟨l, hl, hq⟩ := present_ok h
  refine ⟨l, hl, ?_⟩
  generalize l.advance t.executionId .suspended now none = advanced at hq ⊢
  obtain ⟨done, l'⟩ := advanced
  cases done with
  | false =>
    cases hq
    exact ⟨rfl, .inl ⟨rfl, rfl⟩⟩
  | true =>
    obtain ⟨ts, hts, hq⟩ := present_ok hq
    by_cases hc : ts.any (·.id == t.id)
    · rw [if_pos hc] at hq
      cases hq
    · rw [if_neg hc] at hq
      cases hq
      exact ⟨rfl, .inr ⟨rfl, ts, hts, rfl⟩⟩

theorem suspend {t : TokenRow} {now : Int} {x : Except Store.Fault Bool}
    (h : Answers ids db (.statement (.suspend t now)) x after) :
    x = .ok true ∧ (db.records.advance t.executionId .suspended now none).1 = true ∧
        after.records = (db.records.advance t.executionId .suspended now none).2 ∧
        after.waiting = db.waiting ++ [t] ∨
      x = .ok false ∧ (db.records.advance t.executionId .suspended now none).1 = false ∧ after = db ∨
      (∃ f, x = .error f) ∧ after = db := by
  rw [← or_assoc]
  refine (executed h).imp_left ?_
  rintro ⟨v, rfl, hq⟩
  obtain ⟨l, hl, hm, ⟨rfl, rfl⟩ | ⟨rfl, ts, hts, rfl⟩⟩ := suspend_ok hq
  · simp only [Store.Database.records, hl, Option.getD_some]
    exact .inr ⟨rfl, hm, trivial⟩
  · simp only [Store.Database.records, Store.Database.waiting, hl, hts, Option.getD_some]
    exact .inl ⟨rfl, hm, trivial, trivial⟩

theorem claim {id : String} {x : Except Store.Fault Bool} (h : Answers ids db (.statement (.claim id)) x after) :
    x = .ok (db.waiting.any (·.id == some id)) ∧ after.waiting = db.waiting.filter (·.id != some id) ∧
        after.records = db.records ∨
      (∃ f, x = .error f) ∧ after = db := by
  refine (executed h).imp_left ?_
  rintro ⟨v, rfl, hq⟩
  obtain ⟨ts, hts, hv⟩ := present_ok hq
  cases hv
  simp only [Store.Database.records, Store.Database.waiting, hts, Option.getD_some]
  exact ⟨rfl, trivial, trivial⟩

theorem execution {id : String} {x : Except Store.Fault (Option ExecutionRow)}
    (h : Answers ids db (.statement (.execution id)) x after) :
    x = .ok (db.records.get? id) ∨ ∃ f, x = .error f := by
  refine (executed h).imp ?_ And.left
  rintro ⟨v, rfl, hq⟩
  obtain ⟨l, hl, hv⟩ := present_ok hq
  cases hv
  simp only [Store.Database.records, hl, Option.getD_some]
  rfl

theorem owner {key : Store.Key} {x : Except Store.Fault ExecutionRow}
    (h : Answers ids db (.statement (.owner key)) x after) :
    (∃ row, x = .ok row ∧ db.records.owner? key = some row) ∨ ∃ f, x = .error f := by
  refine (executed h).imp ?_ And.left
  rintro ⟨v, rfl, hq⟩
  obtain ⟨l, hl, hv⟩ := present_ok hq
  simp only [Store.Database.records, hl, Option.getD_some]
  cases ho : l.owner? key with
  | none =>
    rw [ho] at hv
    cases hv
  | some row =>
    rw [ho] at hv
    cases hv
    exact ⟨_, rfl, rfl⟩

theorem due {now : Int} {limit : Nat} {x : Except Store.Fault (List TokenRow)}
    (h : Answers ids db (.statement (.due now limit)) x after) :
    x = .ok (db.waiting.due now limit) ∨ ∃ f, x = .error f := by
  refine (executed h).imp ?_ And.left
  rintro ⟨v, rfl, hq⟩
  obtain ⟨ts, hts, hv⟩ := present_ok hq
  cases hv
  simp only [Store.Database.waiting, hts, Option.getD_some]
  rfl

/-- The frame of every other request. -/
theorem unchanged {r : Request} (hr : r.Still) {x : r.Answer} (h : Answers ids db r x after) : db.Unchanged after := by
  cases r with
  | fresh => exact h.2 ▸ .refl db
  | target _ _ => exact Store.Database.SameRecords.unchanged h
  | visit _ => exact Store.Database.SameRecords.unchanged h
  | statement q =>
    rcases executed h with ⟨v, rfl, hq⟩ | ⟨-, rfl⟩
    · cases q with
      | insertExecution _ => exact hr.elim
      | advance _ _ _ _ => exact hr.elim
      | suspend _ _ => exact hr.elim
      | claim _ => exact hr.elim
      | owner key =>
        obtain ⟨l, hl, hv⟩ := present_ok hq
        cases ho : l.owner? key with
        | none =>
          rw [ho] at hv
          cases hv
        | some row =>
          rw [ho] at hv
          cases hv
          exact .refl db
      | _ =>
        obtain ⟨l, hl, hv⟩ := present_ok hq
        cases hv
        exact ⟨rfl, rfl⟩
    · exact .refl _
  | _ => exact h ▸ .refl db

/-- A table that is there stays. -/
theorem tables {r : Request} {x : r.Answer} (h : Answers ids db r x after) :
    (db.executions.isSome = true → after.executions.isSome = true) ∧
      (db.tokens.isSome = true → after.tokens.isSome = true) := by
  have same {db after : Database} (h : db.SameRecords after) : (db.executions.isSome = true → after.executions.isSome = true) ∧
      (db.tokens.isSome = true → after.tokens.isSome = true) := ⟨fun he => h.1 ▸ he, fun ht => h.2 ▸ ht⟩
  cases r with
  | fresh => exact h.2 ▸ same ⟨rfl, rfl⟩
  | target _ _ => exact same h
  | visit _ => exact same h
  | statement q =>
    rcases executed h with ⟨v, rfl, hq⟩ | ⟨-, rfl⟩
    · cases q with
      | owner key =>
        obtain ⟨l, hl, hv⟩ := present_ok hq
        cases ho : l.owner? key with
        | none =>
          rw [ho] at hv
          cases hv
        | some row =>
          rw [ho] at hv
          cases hv
          exact ⟨id, id⟩
      | suspend row now =>
        obtain ⟨l, hl, -, ⟨-, rfl⟩ | ⟨-, ts, hts, rfl⟩⟩ := suspend_ok hq
        · exact ⟨id, id⟩
        · exact ⟨fun _ => rfl, fun _ => rfl⟩
      | _ =>
        obtain ⟨l, hl, hv⟩ := present_ok hq
        cases hv
        simp [hl]
    · exact same ⟨rfl, rfl⟩
  | _ => exact h ▸ same ⟨rfl, rfl⟩

/-! ### Rows that are new -/

/-- A token that was not in the table is the one of a suspension that has taken effect. -/
theorem mem_waiting {r : Request} {x : r.Answer} (h : Answers ids db r x after) {row : TokenRow}
    (hrow : row ∈ after.waiting) :
    row ∈ db.waiting ∨ ∃ now, (⟨r, x⟩ : Reply Engine.interface) = ⟨.statement (.suspend row now), .ok true⟩ := by
  rcases r.still_or with hs | ⟨_, rfl⟩ | ⟨_, _, _, _, rfl⟩ | ⟨_, now, rfl⟩ | ⟨_, rfl⟩
  · exact .inl ((h.unchanged hs).waiting ▸ hrow)
  · rcases h.insertExecution with ⟨-, -, hw⟩ | ⟨-, rfl⟩
    · exact .inl (hw ▸ hrow)
    · exact .inl hrow
  · rcases h.advance with ⟨-, -, hw⟩ | ⟨-, rfl⟩
    · exact .inl (hw ▸ hrow)
    · exact .inl hrow
  · rcases h.suspend with ⟨rfl, -, -, hw⟩ | ⟨-, -, rfl⟩ | ⟨-, rfl⟩
    · rw [hw, List.mem_append] at hrow
      rcases hrow with hrow | hrow
      · exact .inl hrow
      · obtain rfl := List.mem_singleton.1 hrow
        exact .inr ⟨now, rfl⟩
    · exact .inl hrow
    · exact .inl hrow
  · rcases h.claim with ⟨-, hw, -⟩ | ⟨-, rfl⟩
    · rw [hw] at hrow
      exact .inl (List.mem_filter.1 hrow).1
    · exact .inl hrow

/-- An execution that is on record under an identifier was so before, or has just been inserted. -/
theorem mem_records {r : Request} {x : r.Answer} (h : Answers ids db r x after) {row : ExecutionRow}
    (hrow : row ∈ after.records) :
    (∃ old ∈ db.records, old.id = row.id) ∨ r = .statement (.insertExecution row) := by
  rcases r.still_or with hs | ⟨_, rfl⟩ | ⟨_, _, _, _, rfl⟩ | ⟨_, _, rfl⟩ | ⟨_, rfl⟩
  · exact .inl ⟨row, (h.unchanged hs).records ▸ hrow, rfl⟩
  · rcases h.insertExecution with ⟨-, hr, -⟩ | ⟨-, rfl⟩
    · rw [hr] at hrow
      rcases Store.Executions.mem_of_mem_insert hrow with hrow | rfl
      · exact .inl ⟨row, hrow, rfl⟩
      · exact .inr rfl
    · exact .inl ⟨row, hrow, rfl⟩
  · rcases h.advance with ⟨-, hr, -⟩ | ⟨-, rfl⟩
    · rw [hr] at hrow
      obtain ⟨old, ho, he⟩ := Store.Executions.mem_of_mem_advance hrow
      exact .inl ⟨old, ho, he⟩
    · exact .inl ⟨row, hrow, rfl⟩
  · rcases h.suspend with ⟨-, -, hr, -⟩ | ⟨-, -, rfl⟩ | ⟨-, rfl⟩
    · rw [hr] at hrow
      obtain ⟨old, ho, he⟩ := Store.Executions.mem_of_mem_advance hrow
      exact .inl ⟨old, ho, he⟩
    · exact .inl ⟨row, hrow, rfl⟩
    · exact .inl ⟨row, hrow, rfl⟩
  · rcases h.claim with ⟨-, -, hr⟩ | ⟨-, rfl⟩
    · exact .inl ⟨row, hr ▸ hrow, rfl⟩
    · exact .inl ⟨row, hrow, rfl⟩

/-! ### Statuses -/

/-! A statement that does not answer yes has changed nothing. -/

theorem not_inserted {row : ExecutionRow} {x : Except Store.Fault Bool} (hx : x ≠ .ok true)
    (h : Answers ids db (.statement (.insertExecution row)) x after) : db.Unchanged after := by
  rcases h.insertExecution with ⟨rfl, hr, hw⟩ | ⟨-, rfl⟩
  · refine ⟨hr.trans (Executions.insert_snd_of_not ?_), hw⟩
    simpa using hx
  · exact .refl _

theorem not_advanced {id : String} {next : Status} {now : Int} {failure : Option Failure} {x : Except Store.Fault Bool}
    (hx : x ≠ .ok true) (h : Answers ids db (.statement (.advance id next now failure)) x after) :
    db.Unchanged after := by
  rcases h.advance with ⟨rfl, hr, hw⟩ | ⟨-, rfl⟩
  · refine ⟨hr.trans (Executions.advance_snd_of_not ?_), hw⟩
    simpa using hx
  · exact .refl _

theorem not_suspended {t : TokenRow} {now : Int} {x : Except Store.Fault Bool} (hx : x ≠ .ok true)
    (h : Answers ids db (.statement (.suspend t now)) x after) : db.Unchanged after := by
  rcases h.suspend with ⟨rfl, -⟩ | ⟨-, -, rfl⟩ | ⟨-, rfl⟩
  · exact absurd rfl hx
  · exact .refl _
  · exact .refl _

theorem not_claimed {id : String} {x : Except Store.Fault Bool} (hx : x ≠ .ok true)
    (h : Answers ids db (.statement (.claim id)) x after) : db.Unchanged after := by
  rcases h.claim with ⟨rfl, hw, hr⟩ | ⟨-, rfl⟩
  · refine ⟨hr, hw.trans (List.filter_eq_self.2 fun row hrow => ?_)⟩
    have hn : db.waiting.any (·.id == some id) = false := by simpa using hx
    simpa using List.any_eq_false.1 hn row hrow
  · exact .refl _

theorem records_claim {id : String} {x : Except Store.Fault Bool} (h : Answers ids db (.statement (.claim id)) x after) :
    after.records = db.records := by
  rcases h.claim with ⟨-, -, hr⟩ | ⟨-, rfl⟩
  · exact hr
  · rfl

/-- A token that is taken was there, and is not any more. -/
theorem claimed {id : String} (h : Answers ids db (.statement (.claim id)) (.ok true) after) :
    (∃ row ∈ db.waiting, row.id = some id) ∧ after.waiting = db.waiting.filter (·.id != some id) ∧
      after.records = db.records := by
  rcases h.claim with ⟨hx, hw, hr⟩ | ⟨⟨f, hf⟩, -⟩
  · obtain ⟨row, hrow, hid⟩ := List.any_eq_true.1 (Except.ok.inj hx).symm
    exact ⟨⟨row, hrow, by simpa using hid⟩, hw, hr⟩
  · cases hf

/-- A new record: no other one had its identifier. -/
theorem inserted {row : ExecutionRow} {id : String} (hd : db.records.Distinct) (hid : row.id = some id)
    (h : Answers ids db (.statement (.insertExecution row)) (.ok true) after) :
    db.records.status id = none ∧ after.records.Distinct ∧ after.waiting = db.waiting ∧
      ∀ e, after.records.status e = if e = id then some row.status else db.records.status e := by
  rcases h.insertExecution with ⟨hx, hr, hw⟩ | ⟨⟨f, hf⟩, -⟩
  · have hi := (Except.ok.inj hx).symm
    rw [hr]
    exact ⟨Executions.status_eq_none_of_insert hi hid, Executions.distinct_insert hd hid, hw,
      Executions.status_insert hi hid⟩
  · cases hf

/-- A record that was moved had a status that the next one may follow. -/
theorem advanced {id : String} {next : Status} {now : Int} {failure : Option Failure} (hd : db.records.Distinct)
    (h : Answers ids db (.statement (.advance id next now failure)) (.ok true) after) :
    (db.records.status id).any next.follows = true ∧ after.records.Distinct ∧ after.waiting = db.waiting ∧
      ∀ e, after.records.status e = if e = id then some next.name else db.records.status e := by
  rcases h.advance with ⟨hx, hr, hw⟩ | ⟨⟨f, hf⟩, -⟩
  · have hi := (Except.ok.inj hx).symm
    rw [Executions.advance_fst id next now failure hd] at hi
    rw [hr]
    refine ⟨hi, Executions.distinct_advance id next now failure hd, hw, fun e => ?_⟩
    simp only [Executions.status_advance, hi, and_true]
  · cases hf

/-- A suspension moves the record and writes the token. -/
theorem suspended {t : TokenRow} {now : Int} (hd : db.records.Distinct)
    (h : Answers ids db (.statement (.suspend t now)) (.ok true) after) :
    after.records.Distinct ∧ after.waiting = db.waiting ++ [t] ∧
      ∀ e, after.records.status e = if e = t.executionId then some Status.suspended.name else db.records.status e := by
  rcases h.suspend with ⟨-, hi, hr, hw⟩ | ⟨hf, -⟩ | ⟨⟨f, hf⟩, -⟩
  · rw [Executions.advance_fst t.executionId .suspended now none hd] at hi
    rw [hr]
    refine ⟨Executions.distinct_advance t.executionId .suspended now none hd, hw, fun e => ?_⟩
    simp only [Executions.status_advance, hi, and_true]
  · cases hf
  · cases hf

/-! What statements leave of the statuses, whatever they answer. -/

theorem status_advance {id : String} {next : Status} {now : Int} {failure : Option Failure} {x : Except Store.Fault Bool}
    (hd : db.records.Distinct) (h : Answers ids db (.statement (.advance id next now failure)) x after) :
    after.records.Distinct ∧ after.waiting = db.waiting ∧ ∀ e, after.records.status e = db.records.status e ∨
      (e = id ∧ after.records.status e = some next.name) := by
  by_cases hx : x = .ok true
  · subst hx
    obtain ⟨-, distinct, hw, status⟩ := h.advanced hd
    refine ⟨distinct, hw, fun e => ?_⟩
    rw [status]
    by_cases he : e = id
    · exact .inr ⟨he, if_pos he⟩
    · exact .inl (if_neg he)
  · have hu := h.not_advanced hx
    exact ⟨hu.records ▸ hd, hu.waiting, fun e => .inl (by rw [hu.records])⟩

theorem status_suspend {t : TokenRow} {now : Int} {x : Except Store.Fault Bool} (hd : db.records.Distinct)
    (h : Answers ids db (.statement (.suspend t now)) x after) :
    (∀ row ∈ db.waiting, row ∈ after.waiting) ∧ ∀ e, after.records.status e = db.records.status e ∨
      (e = t.executionId ∧ t ∈ after.waiting ∧ after.records.status e = some Status.suspended.name) := by
  by_cases hx : x = .ok true
  · subst hx
    obtain ⟨-, hw, status⟩ := h.suspended hd
    rw [hw]
    refine ⟨fun row hrow => List.mem_append_left _ hrow, fun e => ?_⟩
    rw [status]
    by_cases he : e = t.executionId
    · exact .inr ⟨he, List.mem_append_right _ (List.mem_singleton_self t), if_pos he⟩
    · exact .inl (if_neg he)
  · have hu := h.not_suspended hx
    exact ⟨fun row hrow => hu.waiting ▸ hrow, fun e => .inl (by rw [hu.records])⟩

end Answers

/-- The table of executions and that of tokens are always there. -/
theorem Pool.Reachable.tables {offered : Engine.Job Unit → Prop} {s : Pool} (h : Pool.Reachable offered s) :
    s.database.executions = some s.database.records ∧ s.database.tokens = some s.database.waiting := by
  suffices hs : s.database.executions.isSome = true ∧ s.database.tokens.isSome = true by
    obtain ⟨⟨l, hl⟩, ⟨ts, hts⟩⟩ := hs.imp Option.isSome_iff_exists.1 Option.isSome_iff_exists.1
    simp only [Database.records, Database.waiting, hl, hts, Option.getD_some, and_self]
  induction h with
  | start db he ht => exact ⟨he ▸ rfl, ht ▸ rfl⟩
  | step h hs ih =>
    cases hs with
    | begin job hj => exact ih
    | change db hdb => exact ⟨hdb.1 ▸ ih.1, hdb.2 ▸ ih.2⟩
    | ask hk hx => exact ⟨hx.tables.1 ih.1, hx.tables.2 ih.2⟩

end Lifecycle
