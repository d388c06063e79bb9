import Lifecycle.Proofs.Concurrent.Routes
import Lifecycle.Proofs.Execution.Context

/-!
# What tokens keep of an execution

A token that waits was written for the last visit that was made in its execution, with the context of that visit. All
visits are made with contexts that are read back from their snapshots, also after any number of suspensions.
-/

namespace Lifecycle

open Engine
open Store (Database TokenRow)

/-- The context with which the task goes on is read back from its snapshot. -/
def Phase.Lasting : Phase → Prop
  | claimer t | resuming t => ∀ c, Context.ofSnapshot t.snapshot = .ok c → c.Durable
  | visited v _ => v.context.Durable
  | _ => True

theorem Phase.Lasting.started {p : Phase} (h : p.Lasting) : p.started.Lasting := by
  cases p with
  | owner id => trivial
  | _ => exact h

theorem Context.Initial.durable {c : Context} (h : c.Initial) : c.Durable := by
  cases h with
  | change source target => exact Context.durable_ofChange source target
  | stuck status since => exact Context.durable_ofStuck status since

/-- A node is entered with a context that is read back. -/
theorem Phase.Lasting.enters {p : Phase} {v : Visit} (h : p.Lasting) (hv : p.Enters v) : v.context.Durable := by
  cases p with
  | entering id =>
    obtain ⟨c, now, hc, he⟩ := hv
    exact he ▸ hc.durable.enter v.step.id now
  | resuming t =>
    obtain ⟨c, now, hc, he⟩ := hv
    exact he ▸ (h c hc).enter v.step.id now
  | visited u x =>
    obtain ⟨now, he⟩ := hv
    exact he ▸ Context.Durable.enter h v.step.id now
  | _ => exact hv.elim

/-- Visits were made and are made with contexts that are read back. -/
structure Lasting (s : Pool) (states : Nat → Ownership.State) : Prop where
  visits : ∀ e, ∀ a ∈ visitsOf e s.history, a.1.context.Durable
  hands : ∀ k, (states k).phase.Lasting

namespace Lasting

variable {s : Pool} {states : Nat → Ownership.State} {k : Nat} {r : Request} {x : r.Answer} {after : Database}
  {rest : Job Unit} {state : Ownership.State}

/-- What is read from a token that waits is the context of the last visit. -/
theorem of_waiting (l : Lasting s states) (t : Routed s states) {row : TokenRow} (hrow : row ∈ s.database.waiting)
    {token : Token} (ht : row.token = .ok token) : (Phase.claimer token).Lasting := by
  obtain ⟨v, deadline, next, id, created, hlast, -, rfl⟩ := t.tokens row hrow
  have hd : v.context.Durable := l.visits _ _ (List.mem_of_getLast? hlast)
  intro c hc
  rw [(Store.TokenRow.token_ok ht).snapshot] at hc
  cases (Context.ofSnapshot_readSnapshot hd).symm.trans hc
  exact hd

/-- A turn without a visit. -/
theorem keep (l : Lasting s states) (none : Entry.visit? ⟨k, ⟨r, x⟩, s.database, after⟩ = none)
    (hands : state.phase.Lasting) : Lasting (s.answered k ⟨r, x⟩ after rest) (Function.update states k state) := by
  refine ⟨fun e a ha => l.visits e a ?_, fun j => ?_⟩
  · exact visitsOf_other none ▸ ha
  · rcases update_or states k state j with ⟨-, hj⟩ | ⟨-, hj⟩ <;> rw [hj]
    · exact hands
    · exact l.hands j

theorem visit {v : Visit} {y : Except HandlerFault Outcome} (l : Lasting s states) (hv : (states k).phase.Enters v) :
    Lasting (s.answered k ⟨.visit v, y⟩ after rest) (Function.update states k { states k with phase := .visited v y }) := by
  have hd : v.context.Durable := (l.hands k).enters hv
  refine ⟨fun e a ha => ?_, fun j => ?_⟩
  · have ha : a ∈ visitsOf e s.history ++ if v.record.id = e then [(v, y)] else [] := visitsOf_visit v y ▸ ha
    rcases List.mem_append.1 ha with ha | ha
    · exact l.visits e a ha
    · split at ha
      · rw [List.mem_singleton.1 ha]
        exact hd
      · cases ha
  · rcases update_or states k { states k with phase := .visited v y } j with ⟨-, hj⟩ | ⟨-, hj⟩ <;> rw [hj]
    · exact hd
    · exact l.hands j

theorem answered {drawn : Nat → Option String} (l : Lasting s states) (t : Routed s states) (o : Owned s states)
    (i : Identified s drawn) (hx : Answers s.identifiers s.database r x after)
    (ht : Ownership.Turn (states k) r x rest state) :
    Lasting (s.answered k ⟨r, x⟩ after rest) (Function.update states k state) := by
  cases ht with
  | quiet h =>
    refine l.keep ?_ (l.hands k)
    cases r with
    | visit v => exact h.elim
    | _ => rfl
  | took hrow ht => exact l.keep rfl (l.of_waiting t (o.mem_of_claim i hrow ht hx) ht)
  | started h => exact l.keep rfl (l.hands k).started
  | visited h hc => exact l.visit hc
  | began h => exact l.keep rfl trivial
  | left h hn => exact l.keep rfl trivial
  | suspended h => exact l.keep rfl trivial
  | _ => exact l.keep rfl (l.hands k)

end Lasting

/-! ### Runs -/

variable {s : Pool}

theorem Pool.Reachable.lasting (h : Pool.Reachable Operation s) : ∃ states, Routed s states ∧ Lasting s states := by
  refine (h.routed_invariant (I := Lasting) ?_ ?_ ?_ ?_).imp fun _ h => h.2
  · exact fun db _ _ => ⟨fun e a ha => (by cases ha), fun k => trivial⟩
  · exact fun s states job l => ⟨l.visits, l.hands⟩
  · exact fun s states db l _ => ⟨l.visits, l.hands⟩
  · intro s states k r next x after state hs o t l hx ht
    obtain ⟨drawn, i⟩ := hs.identified fun _ hj => hj.writes
    exact l.answered t o i hx ht

/-- A token that waits was written for the last visit in its execution, the context of which is read back. -/
theorem Pool.Reachable.written (h : Pool.Reachable Operation s) {row : TokenRow} (hrow : row ∈ s.database.waiting) :
    Written (visitsOf row.executionId s.history) row ∧
      ∀ a ∈ visitsOf row.executionId s.history, a.1.context.Durable := by
  obtain ⟨states, routed, lasting⟩ := h.lasting
  exact ⟨routed.tokens row hrow, lasting.visits row.executionId⟩

end Lifecycle
