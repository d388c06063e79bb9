import Lifecycle.Proofs.Concurrent.Contexts
import Lifecycle.Proofs.Concurrent.Duties

/-!
# What contexts tell of their walks

The context of a visit names all nodes that were entered in the execution up to it, in order, and has the trigger data with
which the execution was started, however often it was suspended and whoever resumed it.
-/

namespace Lifecycle

open Engine
open Program (Leaves)
open Store (Database TokenRow)

/-! ### Routes with their contexts -/

/-- Each stop was made with a context that names the stops up to it, and has the trigger data of the first. -/
def Recounted (stops : List Stop) : Prop :=
  ∀ pre a post, stops = pre ++ a :: post → a.1.context.Notes ((pre ++ [a]).map (·.1.step.id)) ∧
    ∀ first ∈ stops.head?, a.1.context.trigger = first.1.context.trigger

namespace Recounted

variable {stops : List Stop} {a b : Stop}

theorem nil : Recounted [] := by
  intro pre a post h
  simp at h

/-- What the context of the last stop tells. -/
theorem last (h : Recounted stops) (hb : b ∈ stops.getLast?) : b.1.context.Notes (stops.map (·.1.step.id)) := by
  obtain ⟨pre, rfl⟩ := List.getLast?_eq_some_iff.1 hb
  exact (h pre b [] rfl).1

theorem concat (h : Recounted stops) (notes : a.1.context.Notes ((stops ++ [a]).map (·.1.step.id)))
    (trigger : ∀ b ∈ stops.getLast?, a.1.context.trigger = b.1.context.trigger) : Recounted (stops ++ [a]) := by
  intro pre c post hsplit
  have hhead (first : Stop) (hf : first ∈ (stops ++ [a]).head?) : (stops = [] ∧ first = a) ∨ first ∈ stops.head? := by
    cases stops with
    | nil =>
      cases hf
      exact .inl ⟨rfl, rfl⟩
    | cons b stops => exact .inr hf
  rcases concat_eq_append hsplit with ⟨rfl, rfl, rfl⟩ | ⟨post, rfl, hstops⟩
  · refine ⟨notes, fun first hf => ?_⟩
    rcases hhead first hf with ⟨-, rfl⟩ | hf
    · rfl
    · -- the last stop before this one has the trigger data of the first
      rcases List.eq_nil_or_concat' stops with rfl | ⟨pre, b, rfl⟩
      · cases hf
      · exact (trigger b List.getLast?_concat).trans ((h pre b [] rfl).2 first hf)
  · obtain ⟨hnotes, htrigger⟩ := h pre c post hstops
    refine ⟨hnotes, fun first hf => ?_⟩
    rcases hhead first hf with ⟨rfl, -⟩ | hf
    · simp at hstops
    · exact htrigger first hf

end Recounted

/-! ### Phases -/

namespace Phase

variable {p : Phase} {visits visits' : String → List Stop}

/-- The snapshot of the token in hand is the context of the last stop. -/
def Recalls (visits : String → List Stop) : Phase → Prop
  | claimer t | resuming t => ∀ a ∈ (visits t.executionId).getLast?, Context.ofSnapshot t.snapshot = .ok a.1.context
  | _ => True

/-- Only the execution in hand matters. -/
theorem Recalls.congr (h : p.Recalls visits) (hv : ∀ e st, p.holds? = some (e, st) → visits' e = visits e) :
    p.Recalls visits' := by
  cases p with
  | claimer t =>
    intro a ha
    rw [hv t.executionId _ rfl] at ha
    exact h a ha
  | resuming t =>
    intro a ha
    rw [hv t.executionId _ rfl] at ha
    exact h a ha
  | _ => trivial

theorem Recalls.started (h : p.Recalls visits) : p.started.Recalls visits := by
  cases p with
  | owner id => trivial
  | _ => exact h

/-- The execution is in the hands of the task that has put it on record, and no node of it was visited yet. -/
def Opens (e : String) : Phase → Prop
  | owner id | entering id => id = e
  | _ => False

theorem Opens.of_started {e : String} (h : p.started.Opens e) : p.Opens e := by
  cases p <;> exact h

/-- The first visit in an execution is made by the task that has put it on record. -/
theorem Fits.opens {v : Visit} (h : p.Fits visits) (hl : p.Leads v) (hnil : visits v.record.id = []) :
    p.Opens v.record.id := by
  cases p with
  | entering id => exact hl.1.symm
  | resuming t =>
    obtain ⟨u, deadline, next, hlast, -⟩ := h
    rw [← hl.1, hnil] at hlast
    cases hlast
  | visited u y =>
    cases y with
    | error f => exact hl.elim
    | ok outcome =>
      have hlast : (visits u.record.id).getLast? = some (u, .ok outcome) := h
      rw [← hl.1, hnil] at hlast
      cases hlast
  | _ => exact hl.elim

/-- The next node is entered with a context that goes on from that of the last stop. -/
theorem Recalls.enters {v : Visit} (h : p.Recalls visits) (fits : p.Fits visits) (hl : p.Leads v) (he : p.Enters v)
    (hr : Recounted (visits v.record.id)) (x : Except HandlerFault Outcome) :
    Recounted (visits v.record.id ++ [(v, x)]) := by
  have later {u : Visit} {y : Except HandlerFault Outcome} {now : Time.Instant}
      (hlast : (visits v.record.id).getLast? = some (u, y)) (hv : v.context = u.context.enter v.step.id now) :
      Recounted (visits v.record.id ++ [(v, x)]) := by
    refine hr.concat ?_ fun b hb => ?_
    · rw [List.map_append]
      show v.context.Notes _
      rw [hv]
      exact (hr.last hlast).enter v.step.id now
    · cases hlast.symm.trans hb
      show v.context.trigger = u.context.trigger
      rw [hv]
      rfl
  cases p with
  | entering id =>
    obtain ⟨hid, -⟩ := hl
    obtain ⟨c, now, hc, hv⟩ := he
    have hnil : visits v.record.id = [] := hid ▸ fits
    rw [hnil]
    refine Recounted.nil.concat ?_ fun b hb => by cases hb
    show v.context.Notes _
    rw [hv]
    have hstart : c.Notes [] := Context.notes_nil (by cases hc <;> rfl)
    exact hstart.enter v.step.id now
  | resuming t =>
    obtain ⟨hid, -⟩ := hl
    obtain ⟨c, now, hc, hv⟩ := he
    obtain ⟨u, deadline, next, hlast, -⟩ := fits
    have hu := (h _ hlast).symm.trans hc
    cases hu
    exact later (hid ▸ hlast) hv
  | visited u y =>
    obtain ⟨now, hv⟩ := he
    cases y with
    | error f => exact hl.elim
    | ok outcome =>
      obtain ⟨hid, -⟩ := hl
      have hlast : (visits u.record.id).getLast? = some (u, .ok outcome) := fits
      exact later (hid ▸ hlast) hv
  | _ => exact hl.elim

end Phase

/-! ### All executions at once -/

/-- The task has put the execution on record. -/
def Begins (history : List Entry) (k : Nat) (e : String) : Prop :=
  ∃ row before after, ⟨k, ⟨.statement (.insertExecution row), .ok true⟩, before, after⟩ ∈ history ∧ row.id = some e

theorem Begins.append {history : List Entry} {k : Nat} {e : String} (h : Begins history k e) (more : List Entry) :
    Begins (history ++ more) k e := by
  obtain ⟨row, before, after, hmem, hid⟩ := h
  exact ⟨row, before, after, List.mem_append_left _ hmem, hid⟩

/-- The stop was made by the task that had put the execution on record. -/
def Opened (history : List Entry) (e : String) (a : Stop) : Prop :=
  ∃ k pre before after post, history = pre ++ ⟨k, ⟨.visit a.1, a.2⟩, before, after⟩ :: post ∧ Begins pre k e

theorem Opened.append {history : List Entry} {e : String} {a : Stop} (h : Opened history e a) (more : List Entry) :
    Opened (history ++ more) e a := by
  obtain ⟨k, pre, before, after, post, rfl, hb⟩ := h
  exact ⟨k, pre, before, after, post ++ more, by rw [List.append_assoc, List.cons_append], hb⟩

/-- All contexts tell of the walks, and all walks are opened by those who put their executions on record. -/
structure Remembered (s : Pool) (states : Nat → Ownership.State) : Prop where
  stops : ∀ e, Recounted (visitsOf e s.history)
  recalls : ∀ k, (states k).phase.Recalls (visitsOf · s.history)
  begins : ∀ k e, (states k).phase.Opens e → Begins s.history k e
  opened : ∀ e, ∀ a ∈ (visitsOf e s.history).head?, Opened s.history e a

namespace Remembered

variable {s : Pool} {states : Nat → Ownership.State} {k : Nat} {r : Request} {x : r.Answer} {after : Database}
  {rest : Job Unit} {state : Ownership.State}

/-- A turn without a visit. -/
theorem keep (m : Remembered s states) (none : Entry.visit? ⟨k, ⟨r, x⟩, s.database, after⟩ = none)
    (recalls : state.phase.Recalls (visitsOf · s.history))
    (begins : ∀ e, state.phase.Opens e → Begins (s.answered k ⟨r, x⟩ after rest).history k e) :
    Remembered (s.answered k ⟨r, x⟩ after rest) (Function.update states k state) := by
  have same (e : String) : visitsOf e (s.answered k ⟨r, x⟩ after rest).history = visitsOf e s.history :=
    visitsOf_other none
  refine ⟨fun e => (same e).symm ▸ m.stops e, fun j => ?_, fun j e hj => ?_, fun e a ha => ?_⟩
  · simp only [same]
    rcases update_or states k state j with ⟨-, hj⟩ | ⟨-, hj⟩ <;> rw [hj]
    · exact recalls
    · exact m.recalls j
  · rcases update_or states k state j with ⟨rfl, heq⟩ | ⟨-, heq⟩ <;> rw [heq] at hj
    · exact begins e hj
    · exact (m.begins j e hj).append _
  · rw [same] at ha
    exact (m.opened e a ha).append _

/-- A turn that leaves the task where it is. -/
theorem still (m : Remembered s states) (none : Entry.visit? ⟨k, ⟨r, x⟩, s.database, after⟩ = none)
    (hands : state.phase = (states k).phase) :
    Remembered (s.answered k ⟨r, x⟩ after rest) (Function.update states k state) :=
  m.keep none (hands ▸ m.recalls k) fun e h => (m.begins k e (hands ▸ h)).append _

theorem visit {v : Visit} {y : Except HandlerFault Outcome} (m : Remembered s states) (t : Routed s states)
    (o : Owned s states) (hl : (states k).phase.Leads v) (he : (states k).phase.Enters v) :
    Remembered (s.answered k ⟨.visit v, y⟩ after rest) (Function.update states k { states k with phase := .visited v y }) := by
  have one : visitsOf v.record.id (s.answered k ⟨.visit v, y⟩ after rest).history =
      visitsOf v.record.id s.history ++ [(v, y)] := (visitsOf_visit v y).trans (by rw [if_pos rfl])
  have same {e : String} (h : e ≠ v.record.id) :
      visitsOf e (s.answered k ⟨.visit v, y⟩ after rest).history = visitsOf e s.history :=
    (visitsOf_visit v y).trans (by rw [if_neg (Ne.symm h), List.append_nil])
  refine ⟨fun e => ?_, fun j => ?_, fun j e hj => ?_, fun e a ha => ?_⟩
  · by_cases h : e = v.record.id
    · rw [h, one]
      exact (m.recalls k).enters (t.fits k) hl he (m.stops _) y
    · rw [same h]
      exact m.stops e
  · rcases update_or states k { states k with phase := .visited v y } j with ⟨-, hj⟩ | ⟨hjk, hj⟩ <;> rw [hj]
    · trivial
    · refine (m.recalls j).congr fun e st h => same ?_
      rintro rfl
      exact hjk (o.apart j k _ st _ h hl.holds)
  · rcases update_or states k { states k with phase := .visited v y } j with ⟨-, heq⟩ | ⟨-, heq⟩ <;> rw [heq] at hj
    · exact hj.elim
    · exact (m.begins j e hj).append _
  · by_cases h : e = v.record.id
    · rw [h, one] at ha
      cases hv : visitsOf v.record.id s.history with
      | nil =>
        -- the first visit is made by the task that has the new execution in hand
        rw [hv] at ha
        cases ha
        refine ⟨k, s.history, s.database, after, [], rfl, m.begins k e ?_⟩
        rw [h]
        exact (t.fits k).opens hl hv
      | cons b stops =>
        rw [hv] at ha
        rw [h]
        exact (m.opened v.record.id a (hv ▸ ha)).append _
    · rw [same h] at ha
      exact (m.opened e a ha).append _

theorem answered {drawn : Nat → Option String} (m : Remembered s states) (l : Lasting s states) (t : Routed s states)
    (o : Owned s states) (i : Identified s drawn) (hx : Answers s.identifiers s.database r x after)
    (ht : Ownership.Turn (states k) r x rest state) :
    Remembered (s.answered k ⟨r, x⟩ after rest) (Function.update states k state) := by
  cases ht with
  | quiet h =>
    refine m.still ?_ rfl
    cases r with
    | visit v => exact h.elim
    | _ => rfl
  | @began record h =>
    refine m.keep rfl trivial fun e he => ?_
    obtain rfl : record.id = e := he
    exact ⟨_, _, _, List.mem_append_right _ (List.mem_singleton_self _), rfl⟩
  | @took row token hrow htoken =>
    refine m.keep rfl (fun a ha => ?_) fun e he => he.elim
    -- the token was written for the last stop
    obtain ⟨u, deadline, next, id, created, hlast, -, rfl⟩ := t.tokens row (o.mem_of_claim i hrow htoken hx)
    obtain ⟨-, hexecution, -, hsnapshot⟩ := Store.TokenRow.token_ok htoken
    rw [← hexecution] at ha
    cases hlast.symm.trans ha
    rw [hsnapshot]
    exact Context.ofSnapshot_readSnapshot (l.visits _ _ (List.mem_of_getLast? hlast))
  | started h => exact m.keep rfl (m.recalls k).started fun e he => (m.begins k e he.of_started).append _
  | visited hl he => exact m.visit t o hl he
  | left h hn => exact m.keep rfl trivial fun e he => he.elim
  | suspended h => exact m.keep rfl trivial fun e he => he.elim
  | _ => exact m.still rfl rfl

end Remembered

/-! ### Runs -/

namespace Pool

variable {s : Pool} {duties : List Duty}

theorem Reachable.remembered (h : Reachable Operation s) :
    ∃ states, Routed s states ∧ Lasting s states ∧ Remembered s states := by
  refine (h.routed_invariant (I := fun s states => Lasting s states ∧ Remembered s states) ?_ ?_ ?_ ?_).imp
    fun _ h => h.2
  · exact fun db _ _ => ⟨⟨fun e a ha => (by cases ha), fun k => trivial⟩,
      ⟨fun e => Recounted.nil, fun k => trivial, fun k e h => h.elim, fun e a ha => (by cases ha)⟩⟩
  · exact fun s states job h => ⟨⟨h.1.visits, h.1.hands⟩, ⟨h.2.stops, h.2.recalls, h.2.begins, h.2.opened⟩⟩
  · exact fun s states db h _ => ⟨⟨h.1.visits, h.1.hands⟩, ⟨h.2.stops, h.2.recalls, h.2.begins, h.2.opened⟩⟩
  · intro s states k r next x after state hs o t h hx ht
    obtain ⟨drawn, i⟩ := hs.identified fun _ hj => hj.writes
    exact ⟨h.1.answered t o i hx ht, h.2.answered h.1 t o i hx ht⟩

/-- An execution is opened by a dispatch or a scan, which starts it. -/
theorem Serves.starts (h : Serves duties s) {e : String} {a : Stop} (ho : Opened s.history e a) :
    ∃ k d pre entry post, s.history = pre ++ entry :: post ∧ Begins pre k e ∧ duties[k]? = some d ∧
      d.Starts (repliesOf k pre) a.1 := by
  obtain ⟨k, pre, before, after, post, hs, hb⟩ := ho
  obtain ⟨d, next, hd, hl⟩ := h.asked hs
  refine ⟨k, d, pre, _, post, hs, hb, hd, Duty.starts ?_ hl⟩
  rintro batch rfl
  -- a sweep has put nothing on record
  obtain ⟨row, _, _, hmem, -⟩ := hb
  exact hl.only (Duty.addsNone_sweep batch) _ (mem_repliesOf hmem rfl)

/-- The visit under way is one that a next step makes. -/
theorem Serves.exists_made (h : Serves duties s) {e : String} {stops : List Stop} (hv : s.Visits e stops) :
    ∃ s', Serves duties s' ∧ visitsOf e s'.history = stops ∧
      (s'.history = s.history ∨ ∃ entry, s'.history = s.history ++ [entry]) := by
  cases hv with
  | made => exact ⟨s, h, rfl, .inl rfl⟩
  | @underway k v next x hk he =>
    refine ⟨s.answered k ⟨.visit v, x⟩ s.database (next x), h.step (.ask (r := .visit v) hk ⟨rfl, rfl⟩), ?_, .inr ⟨_, rfl⟩⟩
    exact (visitsOf_visit v x).trans (by rw [if_pos he])

end Pool

variable {s : Pool} {duties : List Duty}

/-- Whoever takes part in a walk, however often it is suspended: each context tells of all nodes entered so far, and of the
one entered last; it has the trigger data with which a dispatch or a scan has started the execution; and what is read from
the token of a suspended execution is the context of the last visit. -/
theorem contexts_tell_of_walks (h : Pool.Serves duties s) (e : String) :
    (∀ stops, s.Visits e stops →
      (∀ pre a post, stops = pre ++ a :: post → a.1.context.visited = (pre ++ [a]).map (·.1.step.id) ∧
        a.1.context.metadata.lookup "current_node_id" = some (.str a.1.step.id)) ∧
      ∀ first ∈ stops.head?, (∀ a ∈ stops, a.1.context.trigger = first.1.context.trigger) ∧
        ∃ k d, Begins s.history k e ∧ duties[k]? = some d ∧ d.Starts (repliesOf k s.history) first.1) ∧
    ∀ row ∈ s.database.waiting, row.executionId = e → ∃ v deadline,
      (visitsOf e s.history).getLast? = some (v, .ok (.suspend deadline)) ∧
        Context.ofSnapshot (Store.readSnapshot row.snapshot) = .ok v.context := by
  refine ⟨fun stops hv => ?_, fun row hrow he => ?_⟩
  · obtain ⟨s', h', rfl, hs'⟩ := h.exists_made hv
    obtain ⟨states, -, -, m⟩ := h'.reachable.remembered
    refine ⟨fun pre a post hsplit => ?_, fun first hf => ⟨fun a ha => ?_, ?_⟩⟩
    · obtain ⟨notes, -⟩ := m.stops e pre a post hsplit
      refine ⟨notes.visited_eq, ?_⟩
      rw [notes.current, List.map_append]
      exact congrArg (Option.map Json.str) List.getLast?_concat
    · obtain ⟨pre, post, hsplit⟩ := List.append_of_mem ha
      exact (m.stops e pre a post hsplit).2 first hf
    · obtain ⟨k, d, pre, entry, post, hsplit, hb, hd, hstarts⟩ := h'.starts (m.opened e first hf)
      -- the visit that opens the execution comes after all that is needed
      obtain ⟨more, hmore⟩ : ∃ more, s.history = pre ++ more := by
        rcases hs' with hs' | ⟨last, hs'⟩
        · exact ⟨_, hs'.symm.trans hsplit⟩
        · rcases concat_eq_append (hs'.symm.trans hsplit) with ⟨-, hpre, -⟩ | ⟨post, -, hpre⟩
          · exact ⟨[], by rw [hpre, List.append_nil]⟩
          · exact ⟨_, hpre⟩
      rw [hmore]
      refine ⟨k, d, hb.append more, hd, hstarts.mono ?_⟩
      rw [repliesOf_append]
      exact List.subset_append_left _ _
  · obtain ⟨hwritten, hdurable⟩ := h.reachable.written hrow
    obtain ⟨v, deadline, next, id, created, hlast, -, rfl⟩ := hwritten
    rw [he] at hlast
    refine ⟨v, deadline, hlast, Context.ofSnapshot_readSnapshot (hdurable (v, .ok (.suspend deadline)) ?_)⟩
    rw [he]
    exact List.mem_of_getLast? hlast

/-- A dispatch that has suspended its execution: its token keeps the statuses of the event and the node that was entered. -/
theorem contexts_tell_of_suspended : ∃ s duties, Pool.Serves duties s ∧ s.database = Sample.suspended ∧
    ∃ v deadline, (visitsOf "e" s.history).getLast? = some (v, .ok (.suspend deadline)) ∧
      Context.ofSnapshot (Store.readSnapshot (Store.TokenRow.ofToken Sample.token).snapshot) = .ok v.context := by
  obtain ⟨s, h, hdb⟩ := Sample.reachable_suspended
  obtain ⟨duties, h⟩ := h.exists_serves
  obtain ⟨-, htokens⟩ := contexts_tell_of_walks h "e"
  refine ⟨s, duties, h, hdb, htokens (.ofToken Sample.token) ?_ rfl⟩
  rw [hdb]
  exact List.mem_singleton_self _

end Lifecycle
