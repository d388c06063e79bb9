import Lifecycle.Engine.Request
import Lifecycle.Proofs.Program.Protocol
import Lifecycle.Proofs.Program.Replies
import Mathlib.Data.List.Basic
import Mathlib.Data.List.Induction
import Mathlib.Logic.Function.Basic

/-!
# Operations on one database

Any number of operations, of any number of workers, make their requests in any order. A statement of the database is
executed or fails without effect; clocks, caches and collaborators answer anything; new identifiers are new to all.
Between requests an operation may begin, and the definitions and whatever else is neither an execution nor a token may
change. An operation that is never given a turn again is one whose worker has stopped.

`Reachable.invariant` is the induction over such runs, for operations that obey a protocol.
-/

namespace Lifecycle

open Engine (Request Job)
open Store (Database)

/-- The executions and the tokens are the same. -/
def Store.Database.SameRecords (db after : Database) : Prop :=
  after.executions = db.executions ∧ after.tokens = db.tokens

/-- What a request may be answered, and the database then: `ids` are the identifiers given out so far. -/
def Answers (ids : List String) (db : Database) : (r : Request) → r.Answer → Database → Prop
  | .fresh, id, after => id ∉ ids ∧ after = db
  | .statement s, x, after => (x, after) = s.execute db ∨ (∃ f, x = .error f) ∧ after = db
  | .target _ _, _, after => db.SameRecords after
  | .visit _, _, after => db.SameRecords after
  | _, _, after => after = db

/-- An answer that some database may give. -/
def Possible (r : Request) (x : r.Answer) : Prop := ∃ ids db after, Answers ids db r x after

/-- A request that a task made with its answer, and the database before and after. -/
structure Entry where
  task : Nat
  reply : Reply Engine.interface
  before : Database
  after : Database

/-- The identifier that was given out. -/
def Entry.identifier? (e : Entry) : Option String :=
  match e.reply with
  | ⟨.fresh, id⟩ => some id
  | _ => none

/-- The replies that a task was given. -/
def repliesOf (k : Nat) (history : List Entry) : List (Reply Engine.interface) :=
  (history.filter (·.task == k)).map (·.reply)

/-- What is left to do of the operations that have begun, and what they have asked. -/
structure Pool where
  database : Database
  tasks : List (Job Unit)
  history : List Entry

namespace Pool

def identifiers (s : Pool) : List String := s.history.filterMap Entry.identifier?

/-- The pool after an answer to the task `k`, which goes on with `rest`. -/
def answered (s : Pool) (k : Nat) (reply : Reply Engine.interface) (after : Database) (rest : Job Unit) : Pool :=
  ⟨after, s.tasks.set k rest, s.history ++ [⟨k, reply, s.database, after⟩]⟩

/-- A step of a pool in which the operations `offered` may begin. -/
inductive Step (offered : Job Unit → Prop) (s : Pool) : Pool → Prop where
  | begin (job : Job Unit) (h : offered job) : Step offered s { s with tasks := s.tasks ++ [job] }
  | change (db : Database) (h : s.database.SameRecords db) : Step offered s { s with database := db }
  | ask {k : Nat} {r : Request} {next : r.Answer → Job Unit} {x : r.Answer} {after : Database}
      (hk : s.tasks[k]? = some (.ask r next)) (hx : Answers s.identifiers s.database r x after) :
      Step offered s (s.answered k ⟨r, x⟩ after (next x))

/-- The pools that come about, from tables with no execution and no token in them. -/
inductive Reachable (offered : Job Unit → Prop) : Pool → Prop where
  | start (db : Database) (he : db.executions = some []) (ht : db.tokens = some []) : Reachable offered ⟨db, [], []⟩
  | step {s s' : Pool} (h : Reachable offered s) (hs : Step offered s s') : Reachable offered s'

end Pool

/-! ### Replies -/

theorem repliesOf_nil (k : Nat) : repliesOf k [] = [] := rfl

theorem repliesOf_append (k : Nat) (xs ys : List Entry) : repliesOf k (xs ++ ys) = repliesOf k xs ++ repliesOf k ys := by
  simp [repliesOf]

theorem repliesOf_same (k : Nat) (reply : Reply Engine.interface) (before after : Database) :
    repliesOf k [⟨k, reply, before, after⟩] = [reply] := by
  simp [repliesOf]

theorem repliesOf_other {k j : Nat} (h : j ≠ k) (reply : Reply Engine.interface) (before after : Database) :
    repliesOf k [⟨j, reply, before, after⟩] = [] := by
  simp [repliesOf, h]

theorem mem_repliesOf {history : List Entry} {e : Entry} (he : e ∈ history) {k : Nat} (hk : e.task = k) :
    e.reply ∈ repliesOf k history :=
  List.mem_map.2 ⟨e, List.mem_filter.2 ⟨he, beq_iff_eq.2 hk⟩, rfl⟩

theorem exists_of_mem_repliesOf {history : List Entry} {k : Nat} {y : Reply Engine.interface}
    (h : y ∈ repliesOf k history) : ∃ e ∈ history, e.task = k ∧ e.reply = y := by
  obtain ⟨e, he, rfl⟩ := List.mem_map.1 h
  exact ⟨e, (List.mem_filter.1 he).1, beq_iff_eq.1 (List.mem_filter.1 he).2, rfl⟩

/-- A reply to a task is an entry of the history. -/
theorem entry_of_repliesOf {k : Nat} {history : List Entry} {xs ys : List (Reply Engine.interface)}
    {y : Reply Engine.interface} (h : repliesOf k history = xs ++ y :: ys) :
    ∃ pre before after post, history = pre ++ ⟨k, y, before, after⟩ :: post ∧ repliesOf k pre = xs ∧
      repliesOf k post = ys := by
  induction history generalizing xs with
  | nil => exact absurd h.symm (by simp [repliesOf_nil])
  | cons e history ih =>
    obtain ⟨j, reply, before, after⟩ := e
    rw [← List.singleton_append, repliesOf_append] at h
    by_cases hj : j = k
    · subst hj
      rw [repliesOf_same] at h
      cases xs with
      | nil =>
        obtain ⟨rfl, hrest⟩ := List.cons_eq_cons.1 h
        exact ⟨[], before, after, history, rfl, rfl, hrest⟩
      | cons x xs =>
        obtain ⟨rfl, hrest⟩ := List.cons_eq_cons.1 h
        obtain ⟨pre, b, a, post, rfl, hpre, hpost⟩ := ih hrest
        refine ⟨⟨j, reply, before, after⟩ :: pre, b, a, post, rfl, ?_, hpost⟩
        rw [← List.singleton_append, repliesOf_append, repliesOf_same, hpre]
        rfl
    · rw [repliesOf_other hj] at h
      obtain ⟨pre, b, a, post, rfl, hpre, hpost⟩ := ih h
      refine ⟨⟨j, reply, before, after⟩ :: pre, b, a, post, rfl, ?_, hpost⟩
      rw [← List.singleton_append, repliesOf_append, repliesOf_other hj, hpre]
      rfl

/-- An element of a longer history is the last one, or it is one of the history before. -/
theorem concat_eq_append {α : Type} {xs ys zs : List α} {a b : α} (h : xs ++ [a] = ys ++ b :: zs) :
    (zs = [] ∧ xs = ys ∧ a = b) ∨ ∃ ws, zs = ws ++ [a] ∧ xs = ys ++ b :: ws := by
  rcases List.eq_nil_or_concat' zs with rfl | ⟨ws, c, rfl⟩
  · obtain ⟨hxs, hab⟩ := List.append_inj' h rfl
    exact .inl ⟨rfl, hxs, List.singleton_inj.1 hab⟩
  · rw [← List.cons_append, ← List.append_assoc] at h
    obtain ⟨hxs, hac⟩ := List.append_inj' h rfl
    obtain rfl := List.singleton_inj.1 hac
    exact .inr ⟨ws, rfl, hxs⟩

/-- An element of a part of a history is one of the history. -/
theorem eq_append_of_mid {α : Type} {history pre m₁ m₂ post : List α} {a : α}
    (h : history = pre ++ (m₁ ++ a :: m₂) ++ post) : history = (pre ++ m₁) ++ a :: (m₂ ++ post) := by
  rw [h]
  simp only [List.append_assoc, List.cons_append]

/-- A relation of each element to all that come before it. -/
theorem pairwise_of_splits {α : Type} {R : α → α → Prop} {l : List α}
    (h : ∀ pre b post, l = pre ++ b :: post → ∀ a ∈ pre, R a b) : l.Pairwise R := by
  induction l using List.reverseRecOn with
  | nil => exact List.Pairwise.nil
  | append_singleton l b ih =>
    refine List.pairwise_append.2 ⟨ih fun pre c post hl => ?_, List.pairwise_singleton _ _, fun a ha c hc => ?_⟩
    · exact h pre c (post ++ [b]) (by rw [hl, List.append_assoc, List.cons_append])
    · rw [List.mem_singleton.1 hc]
      exact h l b [] rfl a ha

/-! ### Induction over runs -/

/-- The state of one task is replaced, that of any other one stays. -/
theorem update_or {σ : Type} (states : Nat → σ) (k : Nat) (state : σ) (j : Nat) :
    (j = k ∧ Function.update states k state j = state) ∨ (j ≠ k ∧ Function.update states k state j = states j) := by
  rcases eq_or_ne j k with rfl | h
  · exact .inl ⟨rfl, Function.update_self ..⟩
  · exact .inr ⟨h, Function.update_of_ne h ..⟩

namespace Pool

variable {offered : Job Unit → Prop}

/-- Every entry of the history was an answer in a pool of the same operations. -/
theorem Reachable.entry {s : Pool} (h : Reachable offered s) {pre : List Entry} {e : Entry} {post : List Entry}
    (hs : s.history = pre ++ e :: post) :
    ∃ s₀ : Pool, Reachable offered s₀ ∧ s₀.history = pre ∧ s₀.database = e.before ∧
      Answers s₀.identifiers e.before e.reply.request e.reply.answer e.after := by
  induction h generalizing post with
  | start db he ht => exact absurd hs.symm (by simp)
  | @step s s' h hstep ih =>
    cases hstep with
    | begin job hjob => exact ih hs
    | change db hdb => exact ih hs
    | @ask k r next x after hk hx =>
      rcases concat_eq_append hs with ⟨-, rfl, rfl⟩ | ⟨post, -, hpre⟩
      · exact ⟨s, h, rfl, rfl, hx⟩
      · exact ih hpre

/-- Every entry of a part of the history was an answer in a pool of the same operations. -/
theorem Reachable.entry_of_mem {s : Pool} (h : Reachable offered s) {pre mid post : List Entry}
    (hs : s.history = pre ++ mid ++ post) {e : Entry} (he : e ∈ mid) :
    ∃ s₀ : Pool, Reachable offered s₀ ∧ s₀.database = e.before ∧
      Answers s₀.identifiers e.before e.reply.request e.reply.answer e.after := by
  obtain ⟨m₁, m₂, rfl⟩ := List.append_of_mem he
  obtain ⟨s₀, h₀, -, hdb, hx⟩ := h.entry (eq_append_of_mid hs)
  exact ⟨s₀, h₀, hdb, hx⟩

variable {R : Protocol Engine.interface} {s₀ : R.State}

/-- What holds at the start and is kept by every turn of the protocol holds in every pool of operations that obey it. -/
theorem Reachable.invariant (obeys : ∀ job, offered job → job.Obeys R s₀ fun _ _ => True)
    (possible : ∀ r x, Possible r x → R.Possible r x) {I : Pool → (Nat → R.State) → Prop}
    (start : ∀ db, db.executions = some [] → db.tokens = some [] → I ⟨db, [], []⟩ fun _ => s₀)
    (begin : ∀ s states job, Reachable offered s → I s states → I { s with tasks := s.tasks ++ [job] } states)
    (change : ∀ s states db, I s states → s.database.SameRecords db → I { s with database := db } states)
    (ask : ∀ (s : Pool) (states : Nat → R.State) (k : Nat) (r : Request) (next : r.Answer → Job Unit) (x : r.Answer)
      (after : Database) (state : R.State), Reachable offered s → I s states → s.tasks[k]? = some (.ask r next) →
      Answers s.identifiers s.database r x after → R.Turn (states k) r x (next x) state →
      I (s.answered k ⟨r, x⟩ after (next x)) (Function.update states k state))
    {s : Pool} (h : Reachable offered s) : ∃ states, I s states := by
  suffices hs : ∃ states, I s states ∧ (∀ k, s.tasks.length ≤ k → states k = s₀) ∧
      ∀ (k : Nat) (job : Job Unit), s.tasks[k]? = some job → job.Obeys R (states k) fun _ _ => True from hs.imp fun _ h => h.1
  induction h with
  | start db he ht => exact ⟨_, start db he ht, fun _ _ => rfl, fun k job hk => by cases hk⟩
  | @step s s' h hs ih =>
    obtain ⟨states, hi, hout, hobeys⟩ := ih
    cases hs with
    | begin job hjob =>
      refine ⟨states, begin s states job h hi, fun k hk => hout k ?_, fun k j hj => ?_⟩
      · rw [List.length_append] at hk
        omega
      · rcases Nat.lt_or_ge k s.tasks.length with hlt | hge
        · rw [List.getElem?_append_left hlt] at hj
          exact hobeys k j hj
        · rw [hout k hge]
          rw [List.getElem?_append_right hge] at hj
          rw [List.mem_singleton.1 (List.mem_of_getElem? hj)]
          exact obeys job hjob
    | change db hdb => exact ⟨states, change s states db hi hdb, hout, hobeys⟩
    | @ask k r next x after hk hx =>
      obtain ⟨state, ht, hn⟩ := hobeys k _ hk x (possible r x ⟨_, _, _, hx⟩)
      have hklt : k < s.tasks.length := (List.getElem?_eq_some_iff.1 hk).1
      refine ⟨Function.update states k state, ask s states k r next x after state h hi hk hx ht, ?_, ?_⟩
      · intro j hj
        rw [answered, List.length_set] at hj
        rw [Function.update_of_ne (by omega)]
        exact hout j hj
      · intro j job hj
        by_cases hjk : j = k
        · subst hjk
          rw [answered, List.getElem?_set_self hklt] at hj
          cases hj
          rw [Function.update_self]
          exact hn
        · rw [answered, List.getElem?_set_ne (Ne.symm hjk)] at hj
          rw [Function.update_of_ne hjk]
          exact hobeys j job hj

theorem Reachable.mono {wider : Job Unit → Prop} (sub : ∀ job, offered job → wider job) {s : Pool}
    (h : Reachable offered s) : Reachable wider s := by
  induction h with
  | start db he ht => exact .start db he ht
  | step _ hs ih =>
    cases hs with
    | begin job hj => exact ih.step (.begin job (sub job hj))
    | change db hdb => exact ih.step (.change db hdb)
    | ask hk hx => exact ih.step (.ask hk hx)

/-- What is left of the tasks makes only requests of the sort that all operations make. -/
theorem Reachable.only {sort : Request → Prop} (only : ∀ job, offered job → job.Only sort) {s : Pool}
    (h : Reachable offered s) : ∀ job ∈ s.tasks, job.Only sort := by
  induction h with
  | start db he ht => exact fun job hj => absurd hj List.not_mem_nil
  | step _ hs ih =>
    intro job hj
    cases hs with
    | begin new hn =>
      rcases List.mem_append.1 hj with hj | hj
      · exact ih job hj
      · rw [List.mem_singleton.1 hj]
        exact only new hn
    | change db hdb => exact ih job hj
    | ask hk hx =>
      rcases List.mem_or_eq_of_mem_set hj with hj | rfl
      · exact ih job hj
      · exact (ih _ (List.mem_of_getElem? hk)).2 _

/-- A task is given one more answer. -/
theorem Reachable.ask_at {db after : Database} {tasks : List (Job Unit)} {history : List Entry} (k : Nat) {r : Request}
    {next : r.Answer → Job Unit} {x : r.Answer} (h : Reachable offered ⟨db, tasks, history⟩)
    (hk : tasks[k]? = some (.ask r next)) (hx : Answers (history.filterMap Entry.identifier?) db r x after) :
    Reachable offered ⟨after, tasks.set k (next x), history ++ [⟨k, ⟨r, x⟩, db, after⟩]⟩ :=
  h.step (.ask hk hx)

/-- A task that is alone is given one more answer. -/
theorem Reachable.ask_alone {db after : Database} {history : List Entry} {r : Request} {next : r.Answer → Job Unit}
    {x : r.Answer} (h : Reachable offered ⟨db, [.ask r next], history⟩)
    (hx : Answers (history.filterMap Entry.identifier?) db r x after) :
    Reachable offered ⟨after, [next x], history ++ [⟨0, ⟨r, x⟩, db, after⟩]⟩ :=
  h.ask_at 0 rfl hx

/-- The last task is given one more answer. -/
theorem Reachable.ask_last {db after : Database} {tasks : List (Job Unit)} {history : List Entry} {r : Request}
    {next : r.Answer → Job Unit} {x : r.Answer} (h : Reachable offered ⟨db, tasks ++ [.ask r next], history⟩)
    (hx : Answers (history.filterMap Entry.identifier?) db r x after) :
    Reachable offered ⟨after, tasks ++ [next x], history ++ [⟨tasks.length, ⟨r, x⟩, db, after⟩]⟩ := by
  have := h.ask_at tasks.length List.getElem?_concat_length hx
  rwa [List.set_append_right _ _ (Nat.le_refl _), Nat.sub_self] at this

/-- Entries of the task `k`, one right after the other, from one database to another. -/
inductive Consecutive (k : Nat) : List String → Database → List Entry → Database → Prop where
  | nil (ids : List String) (db : Database) : Consecutive k ids db [] db
  | cons {ids : List String} {db after last : Database} {r : Request} {x : r.Answer} {es : List Entry}
      (hx : Answers ids db r x after)
      (h : Consecutive k (ids ++ [⟨k, ⟨r, x⟩, db, after⟩].filterMap Entry.identifier?) after es last) :
      Consecutive k ids db (⟨k, ⟨r, x⟩, db, after⟩ :: es) last

/-- The last task is given answers one right after the other. -/
theorem Reachable.consecutive {α : Type} {f : α → Job Unit} {tasks : List (Job Unit)} {ids : List String} {db last : Database}
    {es : List Entry} (hes : Consecutive tasks.length ids db es last) {p rest : Job α} {history : List Entry}
    (h : Reachable offered ⟨db, tasks ++ [p >>= f], history⟩) (hids : ids = history.filterMap Entry.identifier?)
    (hl : Program.Leaves p (repliesOf tasks.length es) rest) :
    Reachable offered ⟨last, tasks ++ [rest >>= f], history ++ es⟩ := by
  induction hes generalizing p history with
  | nil ids db =>
    cases hl
    rwa [List.append_nil]
  | @cons ids db after last r x es hx _ ih =>
    subst hids
    rw [← List.singleton_append, repliesOf_append, repliesOf_same] at hl
    cases hl with
    | ask hl =>
      have later := ih (h.ask_last hx) (List.filterMap_append ..).symm hl
      rw [List.append_assoc] at later
      exact later

end Pool

end Lifecycle
