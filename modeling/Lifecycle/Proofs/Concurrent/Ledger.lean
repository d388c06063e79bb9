import Lifecycle.Proofs.Concurrent.RunOnce
import Lifecycle.Proofs.Host.Queries
import Lifecycle.Proofs.Store.Records

/-!
# Records read back

Whatever has been done to records, each of them can be read. A record is told by its identifier, and among those of its
target, where it stands once and in its place. One that has just been started is told as it was written, with its times in
whole milliseconds.
-/

namespace Lifecycle

open Engine
open Program (Leaves)
open Store (Database Executions ExecutionRow)

/-- At every site with this database the job yields `a`, and leaves the site as it is. -/
def Store.Database.Tells {α : Type} (db : Database) (job : Attempt α) (a : α) : Prop :=
  ∀ site : Host.Site, site.database = db → site.perform job.run = (.ok a, site)

namespace Store.Database

variable {db : Database}

theorem exists_site (db : Database) : ∃ site : Host.Site, site.database = db :=
  ⟨⟨db, 0, { clock := .epoch, applications := ⟨.memory [], {}⟩, contracts := ⟨.memory [], {}⟩, types := [], templates := none }⟩,
    rfl⟩

theorem Tells.eq {α : Type} {job : Attempt α} {a b : α} (ha : db.Tells job a) (hb : db.Tells job b) : a = b := by
  obtain ⟨site, hsite⟩ := db.exists_site
  have h := (ha site hsite).symm.trans (hb site hsite)
  exact Except.ok.inj (congrArg Prod.fst h)

theorem tells_getRecord (h : db.executions = some db.records) {id : String} {row : ExecutionRow} {r : Record}
    (hrow : db.records.get? id = some row) (hr : row.record = .ok r) : db.Tells (getRecord id) (some r) := by
  rintro site rfl
  exact site.perform_getRecord h hrow hr

theorem tells_getRecord_none (h : db.executions = some db.records) {id : String} (hrow : db.records.get? id = none) :
    db.Tells (getRecord id) none := by
  rintro site rfl
  exact site.perform_getRecord_none h hrow

theorem tells_recordsOf (h : db.executions = some db.records) {read : ExecutionRow → Record}
    (readable : ∀ row ∈ db.records, row.record = .ok (read row)) (target : Target) :
    db.Tells (recordsOf target) ((db.records.ofTarget target.type.name target.id).map read) := by
  rintro site rfl
  exact site.perform_recordsOf h target fun row hrow => readable row (Executions.mem_ofTarget.1 hrow).1

end Store.Database

variable {s : Pool}

/-- The row of a record that is told. -/
theorem Pool.Reachable.tells_iff (h : Pool.Reachable LedgerJob s) {r : Record} :
    s.database.Tells (getRecord r.id) (some r) ↔ ∃ row ∈ s.database.records, row.record = .ok r := by
  have i := h.recorded
  constructor
  · intro told
    cases hget : s.database.records.get? r.id with
    | none => cases told.eq (Database.tells_getRecord_none h.tables.1 hget)
    | some row =>
      obtain ⟨hrow, -⟩ := Executions.mem_of_get? hget
      obtain ⟨r', hr⟩ := (i.readable row hrow).record
      obtain rfl := Option.some.inj (told.eq (Database.tells_getRecord h.tables.1 hget hr))
      exact ⟨row, hrow, hr⟩
  · rintro ⟨row, hrow, hr⟩
    exact Database.tells_getRecord h.tables.1 (Executions.get?_of_mem i.distinct hrow (ExecutionRow.record_holds hr).id) hr

/-- Looking for a record never fails. -/
theorem Pool.Reachable.found (h : Pool.Reachable LedgerJob s) (id : String) :
    ∃ found, s.database.Tells (getRecord id) found ∧ ∀ r ∈ found, r.id = id := by
  cases hget : s.database.records.get? id with
  | none => exact ⟨none, Database.tells_getRecord_none h.tables.1 hget, fun r hr => by cases hr⟩
  | some row =>
    obtain ⟨hrow, hid⟩ := Executions.mem_of_get? hget
    obtain ⟨r, hr⟩ := (h.recorded.readable row hrow).record
    refine ⟨some r, Database.tells_getRecord h.tables.1 hget hr, fun r' hr' => ?_⟩
    obtain rfl := Option.some.inj hr'
    exact Option.some.inj ((ExecutionRow.record_holds hr).id.symm.trans hid)

/-- The records of a target are those that are told one by one. -/
theorem Pool.Reachable.listed (h : Pool.Reachable LedgerJob s) (target : Target) :
    ∃ records, s.database.Tells (recordsOf target) records ∧ records.Pairwise Record.Precedes ∧
      ∀ r, r ∈ records ↔ r.target = target ∧ s.database.Tells (getRecord r.id) (some r) := by
  have i := h.recorded
  have : Nonempty Record := ⟨⟨"", "", target, .statusChanged, .pending, false, none, none, .epoch, none, .epoch⟩⟩
  have readable : ∀ row ∈ s.database.records, ∃ r, row.record = .ok r := fun row hrow => (i.readable row hrow).record
  choose! read hread using readable
  refine ⟨_, Database.tells_recordsOf h.tables.1 hread target, Executions.pairwise_precedes_ofTarget i.distinct hread _ _, ?_⟩
  intro r
  rw [h.tells_iff, List.mem_map]
  constructor
  · rintro ⟨row, hmem, rfl⟩
    obtain ⟨hrow, htarget⟩ := Executions.mem_ofTarget.1 hmem
    exact ⟨(ExecutionRow.record_holds (hread row hrow)).target_eq_iff.2 htarget, row, hrow, hread row hrow⟩
  · rintro ⟨htarget, row, hrow, hr⟩
    exact ⟨row, Executions.mem_ofTarget.2 ⟨hrow, (ExecutionRow.record_holds hr).target_eq_iff.1 htarget⟩,
      Except.ok.inj ((hread row hrow).symm.trans hr)⟩

/-- A record that has been inserted is told as it was kept. -/
theorem Pool.Reachable.inserted (h : Pool.Reachable LedgerJob s) {pre post : List Entry} {k : Nat} {new : Record}
    {before after : Database}
    (hs : s.history = pre ++ ⟨k, ⟨.statement (.insertExecution (.ofRecord new)), .ok true⟩, before, after⟩ :: post) :
    after.Tells (getRecord new.id) (some new.kept) := by
  obtain ⟨s₀, h₀, -, rfl, hx⟩ := h.entry hs
  have present : after.executions = some after.records := by
    obtain ⟨l, hl⟩ := Option.isSome_iff_exists.1 (hx.tables.1 (h₀.tables.1 ▸ rfl))
    rw [Database.records, hl, Option.getD_some]
  obtain ⟨hinsert, hafter⟩ := hx.insert_of_ok
  have hrow : after.records.get? new.id = some (.ofRecord new) := by
    refine Executions.get?_of_mem ?_ ?_ rfl
    · exact hafter ▸ Executions.distinct_insert h₀.recorded.distinct rfl
    · rw [hafter, Executions.insert_snd hinsert]
      exact List.mem_append_right _ (List.mem_singleton_self _)
  exact Database.tells_getRecord present hrow (ExecutionRow.record_ofRecord new)

/-! ### What is promised -/

/-- Whatever has been done to records, at whatever times: looking for a record never fails, each row of the table is told by
its identifier, and the records of a target are told each once and in order, each as it is told by its identifier, and no
others. A record that has just been started is told as its starter has it, but for its times, which are in whole
milliseconds. -/
theorem records_read_back (h : Pool.Reachable LedgerJob s) :
    (∀ id, ∃ found, s.database.Tells (getRecord id) found ∧ ∀ r ∈ found, r.id = id) ∧
    (∀ row ∈ s.database.records, ∃ r, row.record = .ok r ∧ s.database.Tells (getRecord r.id) (some r)) ∧
    (∀ target, ∃ records, s.database.Tells (recordsOf target) records ∧ records.Pairwise Record.Precedes ∧
      ∀ r, r ∈ records ↔ r.target = target ∧ s.database.Tells (getRecord r.id) (some r)) ∧
    ∀ (c : StartCall) (k : Nat) (pre mid post : List Entry) (new : Record), s.history = pre ++ mid ++ post →
      Leaves c.job.run (repliesOf k mid) (.done (.ok ⟨new, true⟩)) →
      ∃ (m₁ m₂ : List Entry) (before after : Database),
        mid = m₁ ++ ⟨k, ⟨.statement (.insertExecution (.ofRecord new)), .ok true⟩, before, after⟩ :: m₂ ∧
        repliesOf k m₂ = [] ∧
        after.Tells (getRecord new.id)
          (some { new with startedAt := new.startedAt.truncated, updatedAt := new.updatedAt.truncated }) := by
  refine ⟨h.found, fun row hrow => ?_, h.listed, fun c k pre mid post new hs hl => ?_⟩
  · obtain ⟨r, hr⟩ := (h.recorded.readable row hrow).record
    exact ⟨r, hr, h.tells_iff.2 ⟨row, hrow, hr⟩⟩
  · obtain ⟨now, id, ys, hreplies, hend⟩ := leaves_start hl
    generalize hresult : (Except.ok ⟨new, true⟩ : Except EngineFault Start) = result at hend
    cases hend with
    | won =>
      cases hresult
      have hinsert : repliesOf k mid = [⟨.now, now⟩, ⟨.fresh, id⟩] ++
          ⟨.statement (.insertExecution (.ofRecord (c.record id now))), .ok true⟩ :: [] := hreplies
      obtain ⟨m₁, before, after, m₂, rfl, -, hrest⟩ := entry_of_repliesOf hinsert
      exact ⟨m₁, m₂, before, after, rfl, hrest, h.inserted (eq_append_of_mid hs)⟩
    | failed | unanswered | lost | corrupt => cases hresult

/-- One that was started a millisecond and a half before 1970 is told to have started two milliseconds before. -/
theorem reads_back_before_1970 : ∃ s, Pool.Reachable LedgerJob s ∧ ∃ e ∈ s.history, ∃ r : Record,
    e.after.Tells (getRecord "e") (some r) ∧ r.startedAt.nanos = -2 * Time.milliNanos := by
  let early : Time.Instant := ⟨-1500000, by decide, by decide⟩
  let call : StartCall := ⟨"w", ⟨.application, "1"⟩, .statusChanged, true⟩
  have begun : Pool.Reachable LedgerJob ⟨⟨some [], some [], none, none, []⟩, [_], []⟩ :=
    (Pool.Reachable.start _ rfl rfl).step (.begin _ (.start call))
  have now := begun.ask_alone (r := .now) (x := early) rfl
  have drawn := now.ask_alone (r := .fresh) (x := "e") ⟨by decide, rfl⟩
  have started := drawn.ask_alone (r := .statement (.insertExecution (.ofRecord (call.record "e" early)))) (x := .ok true)
    (.inl rfl)
  obtain ⟨m₁, m₂, before, after, hmid, -, told⟩ := (records_read_back started).2.2.2 call 0 [] _ [] (call.record "e" early)
    (List.append_nil _).symm (.ask (.ask (.ask (.here _))))
  let insertion : Entry := ⟨0, ⟨.statement (.insertExecution (.ofRecord (call.record "e" early))), .ok true⟩, before, after⟩
  have hmem : insertion ∈ m₁ ++ insertion :: m₂ := List.mem_append_right m₁ List.mem_cons_self
  rw [← hmid] at hmem
  exact ⟨_, started, insertion, hmem, _, told, by decide⟩

end Lifecycle
