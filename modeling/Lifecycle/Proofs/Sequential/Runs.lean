import Lifecycle.Proofs.Concurrent.Effects
import Mathlib.Data.Fintype.EquivFin

/-!
# A worker that nobody disturbs

Statements take effect, nobody else writes the tables of the engine, and visits of nodes are answered as they are given;
clocks, caches and new identifiers are anything. `Ensures` says what holds after every run of a job, and there is a run
of every job.
-/

namespace Lifecycle

open Engine (Request Job Outcome)
open Store (Database)

/-- The tables of the engine are the same. -/
def Store.Database.SameEngine (db after : Database) : Prop :=
  db.SameRecords after ∧ after.definitions = db.definitions

/-- What the visit of a node may be answered. -/
abbrev Visits := Step → Except HandlerFault Outcome → Prop

/-- What a request is answered if nobody interferes, and the database then. A new identifier is that of no token. -/
def Undisturbed (visits : Visits) (db : Database) : (r : Request) → r.Answer → Database → Prop
  | .fresh, id, after => (∀ row ∈ db.waiting, row.id ≠ some id) ∧ after = db
  | .statement s, x, after => (x, after) = s.execute db
  | .target _ _, _, after => db.SameEngine after
  | .visit v, x, after => visits v.step x ∧ db.SameEngine after
  | _, _, after => after = db

/-- The node that is entered with a request. -/
def Engine.Request.entered : Request → List String
  | .visit v => [v.step.id]
  | _ => []

/-- The job is done from start to end: the nodes entered in order, the result, and the database before and after. -/
inductive Runs (visits : Visits) {α : Type} : Database → Job α → List String → α → Database → Prop where
  | done (db : Database) (a : α) : Runs visits db (.done a) [] a db
  | ask {db mid after : Database} {r : Request} {next : r.Answer → Job α} {x : r.Answer} {ids : List String} {a : α}
      (hx : Undisturbed visits db r x mid) (h : Runs visits mid (next x) ids a after) :
      Runs visits db (.ask r next) (r.entered ++ ids) a after

variable {visits : Visits} {α β ε : Type} {db after : Database}

/-! ### There is a run -/

/-- There is always one more identifier. -/
theorem exists_fresh (ts : Store.Tokens) : ∃ id : String, ∀ row ∈ ts, row.id ≠ some id := by
  have : Infinite String := Infinite.of_injective String.ofList fun _ _ => String.ofList_injective
  obtain ⟨id, hid⟩ := Infinite.exists_notMem_finset (ts.filterMap (·.id)).toFinset
  refine ⟨id, fun row hrow he => hid ?_⟩
  rw [List.mem_toFinset]
  exact List.mem_filterMap.2 ⟨row, hrow, he⟩

theorem exists_undisturbed (hv : ∀ step, ∃ x, visits step x) (db : Database) (r : Request) :
    ∃ x after, Undisturbed visits db r x after := by
  have same : db.SameEngine db := ⟨⟨rfl, rfl⟩, rfl⟩
  cases r with
  | now => exact ⟨Time.Instant.epoch, db, rfl⟩
  | fresh =>
    obtain ⟨id, hid⟩ := exists_fresh db.waiting
    exact ⟨id, db, hid, rfl⟩
  | statement s => exact ⟨(s.execute db).1, (s.execute db).2, rfl⟩
  | cached id => exact ⟨none, db, rfl⟩
  | cachedAll => exact ⟨[], db, rfl⟩
  | cache w => exact ⟨(), db, rfl⟩
  | uncache id => exact ⟨(), db, rfl⟩
  | cacheOnly entries => exact ⟨(), db, rfl⟩
  | target type c => exact ⟨.error (.notFound ""), db, same⟩
  | visit v =>
    obtain ⟨x, hx⟩ := hv v.step
    exact ⟨x, db, hx, same⟩

theorem exists_runs (hv : ∀ step, ∃ x, visits step x) (db : Database) (job : Job α) :
    ∃ ids a after, Runs visits db job ids a after := by
  induction job generalizing db with
  | done a => exact ⟨[], a, db, .done db a⟩
  | ask r next ih =>
    obtain ⟨x, mid, hx⟩ := exists_undisturbed hv db r
    obtain ⟨ids, a, after, h⟩ := ih x mid
    exact ⟨_, a, after, .ask hx h⟩

/-! ### What holds after every run -/

/-- After every run of the job `post` holds of the nodes entered, the result and the database. -/
def Ensures (visits : Visits) : Job α → Database → (List String → α → Database → Prop) → Prop
  | .done a, db, post => post [] a db
  | .ask r next, db, post => ∀ x mid, Undisturbed visits db r x mid →
      Ensures visits (next x) mid fun ids a after => post (r.entered ++ ids) a after

theorem Runs.ensures {job : Job α} {ids : List String} {a : α} {post : List String → α → Database → Prop}
    (h : Runs visits db job ids a after) (hp : Ensures visits job db post) : post ids a after := by
  induction h generalizing post with
  | done db a => exact hp
  | ask hx h ih => exact ih (hp _ _ hx)

namespace Ensures

theorem imp {job : Job α} {post post' : List String → α → Database → Prop} (h : Ensures visits job db post)
    (hp : ∀ ids a after, post ids a after → post' ids a after) : Ensures visits job db post' := by
  induction job generalizing db post post' with
  | done a => exact hp [] a db h
  | ask r next ih =>
    intro x mid hx
    exact ih x (h x mid hx) fun ids a after => hp (r.entered ++ ids) a after

theorem bind {p : Job α} {f : α → Job β} {post : List String → α → Database → Prop}
    {post' : List String → β → Database → Prop} (h : Ensures visits p db post)
    (hf : ∀ ids a mid, post ids a mid → Ensures visits (f a) mid fun ids' b after => post' (ids ++ ids') b after) :
    Ensures visits (p >>= f) db post' := by
  induction p generalizing db post post' with
  | done a => exact hf [] a db h
  | ask r next ih =>
    intro x mid hx
    refine ih x (h x mid hx) fun ids a mid' ha => ?_
    have hrest := hf (r.entered ++ ids) a mid' ha
    simp only [List.append_assoc] at hrest
    exact hrest

/-- An attempt after one that enters no node and ends well. -/
theorem attempt {p : ExceptT ε (Program Engine.interface) α} {f : α → ExceptT ε (Program Engine.interface) β}
    {post : α → Database → Prop} {post' : List String → Except ε β → Database → Prop}
    (h : Ensures visits p.run db fun ids x mid => ids = [] ∧ ∃ a, x = .ok a ∧ post a mid)
    (hf : ∀ a mid, post a mid → Ensures visits (f a).run mid post') : Ensures visits (p >>= f).run db post' := by
  rw [ExceptT.run_bind]
  refine h.bind ?_
  rintro ids x mid ⟨rfl, a, rfl, ha⟩
  exact hf a mid ha

theorem lift {p : Job α} {f : α → ExceptT ε (Program Engine.interface) β} {post : List String → α → Database → Prop}
    {post' : List String → Except ε β → Database → Prop} (h : Ensures visits p db post)
    (hf : ∀ ids a mid, post ids a mid → Ensures visits (f a).run mid fun ids' b after => post' (ids ++ ids') b after) :
    Ensures visits (ExceptT.lift p >>= f).run db post' := by
  rw [ExceptT.run_bind_lift]
  exact h.bind hf

end Ensures

end Lifecycle
