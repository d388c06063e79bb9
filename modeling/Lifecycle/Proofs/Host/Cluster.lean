import Lifecycle.Host.Cluster
import Lifecycle.Proofs.Concurrent.Identifiers
import Lifecycle.Proofs.Host.Site

/-!
# Workers of a cluster at the same time

The workers of a cluster have jobs under way, and one after the other answers a request of a job of its own. That is what
operations on one database do. A job that a site performs on its own, from start to end, is one that nobody disturbs.
-/

namespace Lifecycle.Host

open Engine (Job Request)
open Store (Database)

/-- A cluster, and the jobs that its workers have under way, each with the place of its worker. -/
structure Activity where
  cluster : Cluster
  tasks : List (Nat × Job Unit)

namespace Activity

/-- A worker begins a job, a request of one is answered at the site of its worker, or somebody edits what is neither an
execution nor a token. -/
inductive Step (offered : Job Unit → Prop) (a : Activity) : Activity → Prop where
  | begin (place : Nat) (job : Job Unit) (h : offered job) : Step offered a { a with tasks := a.tasks ++ [(place, job)] }
  | change (db : Database) (h : a.cluster.database.SameRecords db) :
      Step offered a { a with cluster := { a.cluster with database := db } }
  | turn {k place : Nat} {r : Request} {next : r.Answer → Job Unit} {x : r.Answer} {after : Cluster}
      (hk : a.tasks[k]? = some (place, .ask r next)) (hw : a.cluster.work place (Site.answer r) = some (x, after)) :
      Step offered a ⟨after, a.tasks.set k (place, next x)⟩

/-- What comes about from a new cluster whose mailers fail no executions of their own accord. -/
inductive Reachable (offered : Job Unit → Prop) : Activity → Prop where
  | start (c : Cluster) (he : c.database.executions = some []) (ht : c.database.tokens = some [])
      (hc : ∀ w ∈ c.workers, w.mailer.interferes = false) : Reachable offered ⟨c, []⟩
  | step {a a' : Activity} (h : Reachable offered a) (hs : Step offered a a') : Reachable offered a'

/-- The pool of the same jobs on the same database. -/
structure Pooled (a : Activity) (s : Pool) : Prop where
  database : s.database = a.cluster.database
  tasks : s.tasks = a.tasks.map (·.2)
  issued : ∀ id ∈ s.identifiers, ∃ n ≤ a.cluster.serial, id = Site.identifier n
  calm : ∀ w ∈ a.cluster.workers, w.mailer.interferes = false

variable {offered : Job Unit → Prop} {a : Activity}

/-- An answer at a site is a step of the pool. -/
theorem Pooled.turn {s : Pool} {k place : Nat} {r : Request} {next : r.Answer → Job Unit} {x : r.Answer}
    {after : Cluster} (h : a.Pooled s) (hk : a.tasks[k]? = some (place, .ask r next))
    (hw : a.cluster.work place (Site.answer r) = some (x, after)) :
    Pool.Step offered s (s.answered k ⟨r, x⟩ after.database (next x)) ∧
      Pooled ⟨after, a.tasks.set k (place, next x)⟩ (s.answered k ⟨r, x⟩ after.database (next x)) := by
  obtain ⟨site, hsite, hafter⟩ := Option.map_eq_some_iff.1 hw
  obtain ⟨rfl, rfl⟩ := Prod.mk.inj hafter
  obtain ⟨w, hplace, rfl⟩ := Option.map_eq_some_iff.1 hsite
  have hcalm : Site.Calm ⟨a.cluster.database, a.cluster.serial, w⟩ := h.calm w (List.mem_of_getElem? hplace)
  have hserial := Site.serial_answer hcalm r
  have hx := Site.answers_answer hcalm h.issued r
  refine ⟨.ask ?_ ?_, rfl, ?_, ?_, ?_⟩
  · rw [h.tasks, List.getElem?_map, hk]
    rfl
  · rw [h.database]
    exact hx
  · show s.tasks.set k _ = _
    rw [h.tasks, List.map_set]
  · intro id hid
    rw [Pool.identifiers_answered, List.mem_append, Option.mem_toList] at hid
    rcases hid with hid | hid
    · obtain ⟨n, hn, hid⟩ := h.issued id hid
      exact ⟨n, hn.trans hserial, hid⟩
    · exact Site.issued_answer hid
  · intro w' hw'
    rcases List.mem_or_eq_of_mem_set hw' with hw' | rfl
    · exact h.calm w' hw'
    · exact Site.calm_answer hcalm r

/-- Jobs of a cluster are operations on its database. -/
theorem Reachable.pooled (h : Reachable offered a) : ∃ s, Pool.Reachable offered s ∧ a.Pooled s := by
  induction h with
  | start c he ht hc => exact ⟨⟨c.database, [], []⟩, .start _ he ht, rfl, rfl, by simp [Pool.identifiers], hc⟩
  | step _ hs ih =>
    obtain ⟨s, hr, hp⟩ := ih
    cases hs with
    | begin place job hj =>
      refine ⟨_, .step hr (.begin job hj), hp.database, ?_, hp.issued, hp.calm⟩
      show s.tasks ++ [job] = _
      rw [hp.tasks, List.map_append]
      rfl
    | change db hdb => exact ⟨_, .step hr (.change db (hp.database ▸ hdb)), rfl, hp.tasks, hp.issued, hp.calm⟩
    | turn hk hw =>
      obtain ⟨hstep, hp'⟩ : Pool.Step offered s _ ∧ _ := hp.turn hk hw
      exact ⟨_, .step hr hstep, hp'⟩

end Activity

/-! ### A site on its own -/

namespace Site

variable {s : Site} {α : Type}

/-- What an answer at a site leaves drawn is issued, if what was drawn before is. -/
theorem issued_drawn (h : s.Calm) {r : Request} {d d' : Option String} (ht : Writing.Turn d r (answer r s).1 d')
    (hd : ∀ id, d = some id → s.Issued id) : ∀ id, d' = some id → (answer r s).2.Issued id := by
  intro id hid
  have hserial := serial_answer h r
  rcases ht.cases 0 s.database s.database with ⟨drawn, hd', he⟩ | ⟨_, _, hd', _⟩ | ⟨hd', _⟩
  · obtain rfl : drawn = id := Option.some.inj (hd'.symm.trans hid)
    have hgiven : Entry.identifier? ⟨0, ⟨r, (answer r s).1⟩, s.database, s.database⟩ = some drawn := by
      rw [he]
      rfl
    exact issued_answer hgiven
  · cases hd'.symm.trans hid
  · exact (hd id (hd' ▸ hid)).mono hserial

/-- A job that writes as the protocol says is performed as one that nobody disturbs, if the tokens that are there are of
identifiers that were given out. -/
theorem runs_perform {job : Job α} (h : s.Calm) {d : Option String} (hw : job.Obeys writing d fun _ _ => True)
    (hd : ∀ id, d = some id → s.Issued id)
    (hrows : ∀ row ∈ s.database.waiting, ∀ id, row.id = some id → s.Issued id) :
    ∃ ids, Runs visits s.database job ids (s.perform job).1 (s.perform job).2.database := by
  induction job generalizing s d with
  | done a => exact ⟨[], .done _ _⟩
  | ask r next ih =>
    have hx : Answers [] s.database r (answer r s).1 (answer r s).2.database := answers_answer h (by simp) r
    obtain ⟨d', ht, hn⟩ := hw _ ⟨_, _, _, hx⟩
    have hrows' : ∀ row ∈ (answer r s).2.database.waiting, ∀ id, row.id = some id → (answer r s).2.Issued id := by
      intro row hrow id hid
      rcases hx.mem_waiting hrow with hold | ⟨now, he⟩
      · exact (hrows row hold id hid).mono (serial_answer h r)
      · have hwrites : Entry.writes? ⟨0, ⟨r, (answer r s).1⟩, s.database, s.database⟩ = some id := by
          rw [he]
          exact hid
        -- a token is written under the identifier that was drawn
        rcases ht.cases 0 s.database s.database with ⟨_, _, he'⟩ | ⟨drawn, hdrawn, _, hwrites', _⟩ | ⟨_, hwrites', _⟩
        · cases he.symm.trans he'
        · obtain rfl : drawn = id := Option.some.inj (hwrites'.symm.trans hwrites)
          exact (hd drawn hdrawn).mono (serial_answer h r)
        · cases hwrites.symm.trans hwrites'
    obtain ⟨ids, hrun⟩ := ih _ (calm_answer h r) hn (issued_drawn h ht hd) hrows'
    exact ⟨_, .ask (undisturbed_answer h hrows r) hrun⟩

end Site

end Lifecycle.Host
