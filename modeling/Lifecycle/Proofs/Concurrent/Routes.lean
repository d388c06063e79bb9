import Lifecycle.Proofs.Concurrent.Walking

/-!
# One route for an execution

The visits that are made in an execution, by whomever and across all its suspensions, are the stops of one route through
its workflow: from the entry on, each at the node that the outcome of the one before selects. Routes go down, so they
come to no node twice.
-/

namespace Lifecycle

open Engine
open Store (Database Executions TokenRow)

/-! ### Routes -/

/-- Stops from the entry of a workflow along the connections that their outcomes select. -/
structure Route (w : Workflow) (stops : List Stop) : Prop where
  entry : ∀ a ∈ stops.head?, a.1.step = w.graph.entry
  edges : stops.IsChain (Stop.Selects w)

namespace Route

variable {w : Workflow} {stops : List Stop} {a : Stop}

theorem nil (w : Workflow) : Route w [] := ⟨fun _ h => absurd h (Option.not_mem_none _), .nil⟩

/-- One more stop at the end. -/
theorem concat (h : Route w stops) (first : stops = [] → a.1.step = w.graph.entry)
    (later : ∀ b ∈ stops.getLast?, b.Selects w a) : Route w (stops ++ [a]) := by
  constructor
  · cases stops with
    | nil =>
      intro b hb
      cases hb
      exact first rfl
    | cons c stops => exact h.entry
  · refine List.isChain_append.2 ⟨h.edges, .singleton a, fun b hb c hc => ?_⟩
    cases hc
    exact later b hb

/-- A route comes to no node twice. -/
theorem nodup (h : Route w stops) : (stops.map (·.1.step.id)).Nodup := Stop.nodup_of_selects h.edges

end Route

/-! ### Visits in a history -/

/-- The visit that was made. -/
def Entry.visit? (e : Entry) : Option Stop :=
  match e.reply with
  | ⟨.visit v, x⟩ => some (v, x)
  | _ => none

/-- The visits made in an execution. -/
def visitsOf (e : String) (history : List Entry) : List Stop :=
  (history.filterMap Entry.visit?).filter (·.1.record.id == e)

section Visits

variable {history : List Entry} {e : String} {k : Nat} {before after : Database}

theorem visitsOf_visit (v : Visit) (x : Except HandlerFault Outcome) :
    visitsOf e (history ++ [⟨k, ⟨.visit v, x⟩, before, after⟩]) =
      visitsOf e history ++ if v.record.id = e then [(v, x)] else [] := by
  simp only [visitsOf, List.filterMap_append, List.filter_append]
  by_cases h : v.record.id = e <;> simp [Entry.visit?, h]

theorem visitsOf_other {entry : Entry} (h : entry.visit? = none) : visitsOf e (history ++ [entry]) = visitsOf e history := by
  simp [visitsOf, List.filterMap_append, h]

end Visits

/-- The execution was suspended at its last stop, in front of the node `id`. -/
def Paused (stops : List Stop) (id : String) : Prop :=
  ∃ v deadline next, stops.getLast? = some (v, .ok (.suspend deadline)) ∧
    v.workflow.graph.successor? v.step.id .next = some next ∧ next.id = id

/-- The token was written for the last stop, at which the execution was suspended. -/
def Written (stops : List Stop) (row : TokenRow) : Prop :=
  ∃ v deadline next id created, stops.getLast? = some (v, .ok (.suspend deadline)) ∧
    v.workflow.graph.successor? v.step.id .next = some next ∧
    row = .ofToken ⟨id, v.record.id, next.id, deadline, v.context.toJson, created⟩

theorem Written.paused {stops : List Stop} {row : TokenRow} (h : Written stops row) : Paused stops row.resumeNodeId := by
  obtain ⟨v, deadline, next, id, created, hlast, hnext, rfl⟩ := h
  exact ⟨v, deadline, next, hlast, hnext, rfl⟩

/-- The task knows where the execution in its hands has come to. -/
def Phase.Fits (visits : String → List Stop) : Phase → Prop
  | idle => True
  | owner id | entering id => visits id = []
  | claimer t | resuming t => Paused (visits t.executionId) t.resumeNodeId
  | visited v x => (visits v.record.id).getLast? = some (v, x)

namespace Phase

variable {p : Phase} {visits visits' : String → List Stop}

/-- Only the execution in hand matters. -/
theorem Fits.congr (h : p.Fits visits) (hv : ∀ e st, p.holds? = some (e, st) → visits' e = visits e) : p.Fits visits' := by
  cases p with
  | idle => trivial
  | owner id => exact (hv id _ rfl).trans h
  | entering id => exact (hv id _ rfl).trans h
  | claimer t => exact (congrArg (Paused · t.resumeNodeId) (hv t.executionId _ rfl)).mpr h
  | resuming t => exact (congrArg (Paused · t.resumeNodeId) (hv t.executionId _ rfl)).mpr h
  | visited v x => exact (congrArg List.getLast? (hv v.record.id _ rfl)).trans h

theorem Fits.started {id : String} (h : p.Fits visits) (hw : p.Waits id) : p.started.Fits visits := by
  cases p with
  | owner id => exact h
  | claimer t => exact h
  | _ => exact hw.elim

theorem Fits.suspends {row : TokenRow} (h : p.Fits visits) (hs : p.Suspends row) :
    Written (visits row.executionId) row := by
  unfold Suspends at hs
  split at hs
  · rename_i u deadline
    obtain ⟨next, id, created, hn, rfl⟩ := hs
    exact ⟨u, deadline, next, id, created, h, hn, rfl⟩
  · exact hs.elim

/-- The next visit continues the route so far. -/
theorem Fits.route {w : Workflow} {v : Visit} (x : Except HandlerFault Outcome) (h : p.Fits visits) (hl : p.Leads v)
    (hr : Route w (visits v.record.id)) (hw : v.workflow = w) (hs : ∀ a ∈ visits v.record.id, a.1.workflow = w) :
    Route w (visits v.record.id ++ [(v, x)]) := by
  cases p with
  | entering id =>
    obtain ⟨hid, hstep⟩ := hl
    have hnil : visits v.record.id = [] := hid ▸ h
    refine hr.concat (fun _ => hw ▸ hstep) fun b hb => ?_
    rw [hnil] at hb
    cases hb
  | resuming t =>
    obtain ⟨hid, hnode⟩ := hl
    obtain ⟨u, deadline, next, hlast, hnext, hnid⟩ := h
    rw [← hid] at hlast
    have hu : u.workflow = w := hs _ (List.mem_of_getLast? hlast)
    refine hr.concat (fun hnil => ?_) fun b hb => ?_
    · rw [hnil] at hlast
      cases hlast
    · cases hlast.symm.trans hb
      refine ⟨_, rfl, ?_⟩
      rw [← hu]
      -- the node of the token is the one that the delay was to go on with
      have hfound : u.workflow.graph.node? t.resumeNodeId = some next := hnid ▸ Graph.node?_of_successor? hnext
      rw [hu, ← hw, hnode] at hfound
      exact hnext.trans hfound.symm
  | visited u y =>
    cases y with
    | error f => exact hl.elim
    | ok outcome =>
      obtain ⟨hid, hwu, hnext⟩ := hl
      have hlast : (visits v.record.id).getLast? = some (u, .ok outcome) := hid ▸ h
      refine hr.concat (fun hnil => ?_) fun b hb => ?_
      · rw [hnil] at hlast
        cases hlast
      · cases hlast.symm.trans hb
        exact ⟨outcome, rfl, hw ▸ hwu ▸ hnext⟩
  | _ => exact hl.elim

end Phase

/-! ### All routes at once -/

/-- Every execution has come along a route, to where its holder or its token believes it to be. -/
structure Routed (s : Pool) (states : Nat → Ownership.State) : Prop where
  unknown : ∀ e, s.database.records.status e = none → visitsOf e s.history = []
  fits : ∀ k, (states k).phase.Fits (visitsOf · s.history)
  tokens : ∀ row ∈ s.database.waiting, Written (visitsOf row.executionId s.history) row
  route : ∀ e w, (∀ a ∈ visitsOf e s.history, a.1.workflow = w) → Route w (visitsOf e s.history)

namespace Routed

variable {s : Pool} {states : Nat → Ownership.State} {k : Nat} {r : Request} {x : r.Answer} {after : Database}
  {rest : Job Unit} {state : Ownership.State}

/-- A turn without a visit. -/
theorem keep (t : Routed s states) (none : Entry.visit? ⟨k, ⟨r, x⟩, s.database, after⟩ = none)
    (status : ∀ e, after.records.status e = .none → s.database.records.status e = .none)
    (fits : state.phase.Fits (visitsOf · s.history))
    (tokens : ∀ row ∈ after.waiting, Written (visitsOf row.executionId s.history) row) :
    Routed (s.answered k ⟨r, x⟩ after rest) (Function.update states k state) := by
  have same (e : String) : visitsOf e (s.answered k ⟨r, x⟩ after rest).history = visitsOf e s.history :=
    visitsOf_other none
  refine ⟨fun e h => (same e).trans (t.unknown e (status e h)), fun j => ?_, fun row hrow => ?_, fun e w h => ?_⟩
  · simp only [same]
    rcases update_or states k state j with ⟨-, hj⟩ | ⟨-, hj⟩ <;> rw [hj]
    · exact fits
    · exact t.fits j
  · rw [same]
    exact tokens row hrow
  · rw [same] at h ⊢
    exact t.route e w h

theorem still (t : Routed s states) (none : Entry.visit? ⟨k, ⟨r, x⟩, s.database, after⟩ = none)
    (hu : s.database.Unchanged after) (hands : state.phase = (states k).phase) :
    Routed (s.answered k ⟨r, x⟩ after rest) (Function.update states k state) :=
  t.keep none (fun _ h => hu.records ▸ h) (hands ▸ t.fits k) fun row h => t.tokens row (hu.waiting ▸ h)

/-- A visit continues the route of the execution in hand, and no other. -/
theorem visit {v : Visit} {y : Except HandlerFault Outcome} (t : Routed s states) (o : Owned s states)
    (h : (states k).phase.Leads v) (hx : Answers s.identifiers s.database (.visit v) y after) :
    Routed (s.answered k ⟨.visit v, y⟩ after rest) (Function.update states k { states k with phase := .visited v y }) := by
  have hu : s.database.Unchanged after := hx.unchanged (r := .visit v) trivial
  have hold := h.holds
  have one : visitsOf v.record.id (s.answered k ⟨.visit v, y⟩ after rest).history =
      visitsOf v.record.id s.history ++ [(v, y)] := (visitsOf_visit v y).trans (by rw [if_pos rfl])
  have same {e : String} (he : e ≠ v.record.id) :
      visitsOf e (s.answered k ⟨.visit v, y⟩ after rest).history = visitsOf e s.history :=
    (visitsOf_visit v y).trans (by rw [if_neg (Ne.symm he), List.append_nil])
  refine ⟨fun e he => ?_, fun j => ?_, fun row hrow => ?_, fun e w hw => ?_⟩
  · have he : s.database.records.status e = none := hu.records ▸ he
    rw [same]
    · exact t.unknown e he
    · rintro rfl
      cases (o.holds k _ _ hold).symm.trans he
  · rcases update_or states k { states k with phase := .visited v y } j with ⟨-, hj⟩ | ⟨hjk, hj⟩ <;> rw [hj]
    · show (visitsOf v.record.id _).getLast? = _
      rw [one, List.getLast?_concat]
    · refine (t.fits j).congr fun e st he => same ?_
      rintro rfl
      exact hjk (o.apart j k _ st _ he hold)
  · have hrow : row ∈ s.database.waiting := hu.waiting ▸ hrow
    rw [same (o.free k _ _ hold row hrow)]
    exact t.tokens row hrow
  · by_cases he : e = v.record.id
    · subst he
      rw [one] at hw ⊢
      have before : ∀ a ∈ visitsOf v.record.id s.history, a.1.workflow = w := fun a ha =>
        hw a (List.mem_append_left _ ha)
      exact (t.fits k).route y h (t.route _ w before) (hw _ (List.mem_append_right _ (List.mem_singleton_self _))) before
    · rw [same he] at hw ⊢
      exact t.route e w hw

theorem answered {drawn : Nat → Option String} (t : Routed s states) (o : Owned s states) (i : Identified s drawn)
    (hx : Answers s.identifiers s.database r x after) (ht : Ownership.Turn (states k) r x rest state) :
    Routed (s.answered k ⟨r, x⟩ after rest) (Function.update states k state) := by
  cases ht with
  | quiet h =>
    refine t.still ?_ (hx.unchanged h.still) rfl
    cases r with
    | visit v => exact h.elim
    | _ => rfl
  | @found now limit rows =>
    exact t.still rfl (hx.unchanged (r := .statement (.due now limit)) trivial) rfl
  | @began record h =>
    obtain ⟨hnone, -, hw, status⟩ := hx.inserted o.distinct rfl
    refine t.keep rfl (fun e he => ?_) (t.unknown record.id hnone) fun row hrow => t.tokens row (hw ▸ hrow)
    rw [status] at he
    split at he
    · cases he
    · exact he
  | present h => exact t.still rfl (hx.not_inserted h) rfl
  | @took row token hrow ht =>
    obtain ⟨-, he, hn, -⟩ := Store.TokenRow.token_ok ht
    have paused := (t.tokens row (o.mem_of_claim i hrow ht hx)).paused
    rw [he, hn] at paused
    obtain ⟨-, hw, hr⟩ := hx.claimed
    refine t.keep rfl (fun e he => hr ▸ he) paused fun row hrow => t.tokens row ?_
    rw [hw] at hrow
    exact (List.mem_filter.1 hrow).1
  | missed h => exact t.still rfl (hx.not_claimed h) rfl
  | @started id now h =>
    obtain ⟨-, hw, status⟩ := hx.status_advance o.distinct
    refine t.keep rfl (fun e he => ?_) ((t.fits k).started h) fun row hrow => t.tokens row (hw ▸ hrow)
    rcases status e with hst | ⟨-, hst⟩
    · exact hst ▸ he
    · cases hst.symm.trans he
  | refused h hne => exact t.still rfl (hx.not_advanced hne) rfl
  | visited h _ => exact t.visit o h hx
  | @left id status next now failure y h hn =>
    obtain ⟨-, hw, status⟩ := hx.status_advance o.distinct
    refine t.keep rfl (fun e he => ?_) trivial fun row hrow => t.tokens row (hw ▸ hrow)
    rcases status e with hst | ⟨-, hst⟩
    · exact hst ▸ he
    · cases hst.symm.trans he
  | @suspended row now moved h =>
    obtain ⟨-, status⟩ := hx.status_suspend o.distinct
    refine t.keep rfl (fun e he => ?_) trivial fun other ho => ?_
    · rcases status e with hst | ⟨-, -, hst⟩
      · exact hst ▸ he
      · cases hst.symm.trans he
    · rcases hx.mem_waiting ho with ho | ⟨_, heq⟩
      · exact t.tokens other ho
      · cases heq
        exact (t.fits k).suspends h
  | unsuspended h => exact t.still rfl (hx.not_suspended (by nofun)) rfl

end Routed

/-! ### Runs -/

variable {s : Pool}

/-- What holds at the start and is kept by every turn among executions on their routes holds in every pool. -/
theorem Pool.Reachable.routed_invariant {I : Pool → (Nat → Ownership.State) → Prop}
    (start : ∀ db, db.executions = some [] → db.tokens = some [] → I ⟨db, [], []⟩ fun _ => ⟨[], .idle⟩)
    (begin : ∀ s states job, I s states → I { s with tasks := s.tasks ++ [job] } states)
    (change : ∀ s states db, I s states → s.database.SameRecords db → I { s with database := db } states)
    (ask : ∀ (s : Pool) (states : Nat → Ownership.State) (k : Nat) (r : Request) (next : r.Answer → Job Unit)
      (x : r.Answer) (after : Database) (state : Ownership.State), Pool.Reachable Operation s → Owned s states →
      Routed s states → I s states → Answers s.identifiers s.database r x after →
      Ownership.Turn (states k) r x (next x) state → I (s.answered k ⟨r, x⟩ after (next x)) (Function.update states k state))
    (h : Pool.Reachable Operation s) : ∃ states, Walked s states ∧ Routed s states ∧ I s states := by
  refine (h.owned_invariant (I := fun s states => Walked s states ∧ Routed s states ∧ I s states) ?_ ?_ ?_ ?_).imp
    fun _ h => h.2
  · intro db he ht
    have nowhere (k : Nat) (e : String) : ¬ Walks [] k e := by
      rintro ⟨xs, start, ys, h, -⟩
      exact absurd h.symm (by simp [repliesOf_nil])
    have hw : db.waiting = [] := by rw [Database.waiting, ht, Option.getD_some]
    refine ⟨⟨fun k e h => absurd h (nowhere k e), fun j k e h => absurd h (nowhere j e),
      fun j k e st h => absurd h (nowhere j e), fun k e h => ?_, fun pre k v x b a post h => ?_⟩,
      ⟨fun e _ => rfl, fun k => trivial, fun row hrow => ?_, fun e w _ => .nil w⟩, start db he ht⟩
    · cases h
    · exact absurd h.symm (by simp)
    · have hrow : row ∈ db.waiting := hrow
      rw [hw] at hrow
      cases hrow
  · intro s states job h
    exact ⟨⟨h.1.running, h.1.one, h.1.alone, h.1.walks, h.1.during⟩,
      ⟨h.2.1.unknown, h.2.1.fits, h.2.1.tokens, h.2.1.route⟩, begin s states job h.2.2⟩
  · intro s states db h hdb
    have hu := hdb.unchanged
    exact ⟨⟨hu.records ▸ h.1.running, h.1.one, h.1.alone, h.1.walks, h.1.during⟩,
      ⟨hu.records ▸ h.2.1.unknown, h.2.1.fits, hu.waiting ▸ h.2.1.tokens, h.2.1.route⟩, change s states db h.2.2 hdb⟩
  · intro s states k r next x after state hs o h hk hx ht
    obtain ⟨drawn, i⟩ := hs.identified fun _ hj => hj.writes
    exact ⟨h.1.answered o i hx ht, h.2.1.answered o i hx ht, ask s states k r next x after state hs o h.2.1 h.2.2 hx ht⟩

theorem Pool.Reachable.routed (h : Pool.Reachable Operation s) : ∃ states, Walked s states ∧ Routed s states := by
  obtain ⟨states, walked, routed, -⟩ := h.routed_invariant (I := fun _ _ => True) (fun _ _ _ => trivial)
    (fun _ _ _ _ => trivial) (fun _ _ _ _ _ => trivial) fun _ _ _ _ _ _ _ _ _ _ _ _ _ _ => trivial
  exact ⟨states, walked, routed⟩

/-- The visits in an execution: those that were made, and the one under way if there is one. -/
inductive Pool.Visits (s : Pool) (e : String) : List Stop → Prop where
  | made : Visits s e (visitsOf e s.history)
  | underway {k : Nat} {v : Visit} {next : Except HandlerFault Outcome → Job Unit} (x : Except HandlerFault Outcome)
      (hk : s.tasks[k]? = some (.ask (.visit v) next)) (he : v.record.id = e) :
      Visits s e (visitsOf e s.history ++ [(v, x)])

/-- However the workers take turns and whatever fails, at most one of them walks an execution at any time; visits are made
by the one that walks; and if one workflow is found for the execution each time, its visits are the stops of one route
through that workflow, which comes to no node twice. -/
theorem one_walk_along_one_route (h : Pool.Reachable Operation s) (e : String) :
    (∀ j k, Walks s.history j e → Walks s.history k e → j = k) ∧
      (∀ pre k v x before after post, s.history = pre ++ ⟨k, ⟨.visit v, x⟩, before, after⟩ :: post →
        Walks pre k v.record.id) ∧
      (∀ (k : Nat) (v : Visit) (next : Except HandlerFault Outcome → Job Unit),
        s.tasks[k]? = some (.ask (.visit v) next) → Walks s.history k v.record.id) ∧
      ∀ stops w, s.Visits e stops → (∀ a ∈ stops, a.1.workflow = w) →
        Route w stops ∧ (stops.map (·.1.step.id)).Nodup := by
  obtain ⟨states, walked, routed⟩ := h.routed
  -- a visit under way is one that a next step of the pool makes
  have answered {k : Nat} {v : Visit} {next : Except HandlerFault Outcome → Job Unit} (x : Except HandlerFault Outcome)
      (hk : s.tasks[k]? = some (.ask (.visit v) next)) :
      Pool.Reachable Operation (s.answered k ⟨.visit v, x⟩ s.database (next x)) :=
    h.step (.ask (r := .visit v) hk ⟨rfl, rfl⟩)
  refine ⟨fun j k => walked.one j k e, walked.during, fun k v next hk => ?_, fun stops w hv hw => ?_⟩
  · obtain ⟨states', walked', -⟩ := (answered (.ok .proceed) hk).routed
    exact walked'.during s.history k v (.ok .proceed) s.database s.database [] rfl
  · have route : Route w stops := by
      cases hv with
      | made => exact routed.route e w hw
      | @underway k v next x hk he =>
        obtain ⟨states', -, routed'⟩ := (answered x hk).routed
        have one : visitsOf e (s.answered k ⟨.visit v, x⟩ s.database (next x)).history =
            visitsOf e s.history ++ [(v, x)] := (visitsOf_visit v x).trans (by rw [if_pos he])
        exact one ▸ routed'.route e w (one ▸ hw)
    exact ⟨route, route.nodup⟩

/-- A dispatch that has suspended its execution. -/
theorem one_route_of_suspended : ∃ s, Pool.Reachable Operation s ∧ s.database = Sample.suspended ∧
    (∀ j k, Walks s.history j "e" → Walks s.history k "e" → j = k) ∧
    ∀ stops w, s.Visits "e" stops → (∀ a ∈ stops, a.1.workflow = w) →
      Route w stops ∧ (stops.map (·.1.step.id)).Nodup := by
  obtain ⟨s, h, hdb⟩ := Sample.reachable_suspended
  obtain ⟨one, -, -, route⟩ := one_walk_along_one_route h "e"
  exact ⟨s, h, hdb, one, route⟩

end Lifecycle
