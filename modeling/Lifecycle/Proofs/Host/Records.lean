import Lifecycle.Proofs.Concurrent.Effects
import Lifecycle.Proofs.Engine.Operations
import Lifecycle.Proofs.Host.Site
import Lifecycle.Proofs.Store.Forward

/-!
# Records that stay

Nothing takes a record off the table of executions. What puts none on it leaves the rows in their places, each as it was or
at a later time; what does puts its own behind them.
-/

namespace Lifecycle

open Engine
open Host (Site Steady)
open Store (ExecutionRow Executions Key)

/-- The rows in their places, each of them at the same or a later time. -/
def Store.Executions.Kept (l after : Executions) : Prop := List.Forall₂ ExecutionRow.Keeps l after

namespace Store.Executions

variable {l mid after : Executions}

theorem kept_refl (l : Executions) : l.Kept l := List.forall₂_same.2 fun _ _ => ⟨.refl _, rfl⟩

theorem Kept.trans (h : l.Kept mid) (g : mid.Kept after) : l.Kept after := by
  induction h generalizing after with
  | nil => exact g
  | cons hr _ ih =>
    cases g with
    | cons gr g => exact .cons ⟨hr.toContinues.trans gr.toContinues, gr.startedAt.trans hr.startedAt⟩ (ih g)

theorem kept_map {f : ExecutionRow → ExecutionRow} (h : ∀ r : ExecutionRow, r.Keeps (f r)) : l.Kept (l.map f) := by
  unfold Kept
  rw [List.forall₂_map_right_iff]
  exact List.forall₂_same.2 fun r _ => h r

theorem kept_advance (id : String) (next : Status) (now : Int) (failure : Option Failure) :
    l.Kept (l.advance id next now failure).2 := by
  refine kept_map fun r => ⟨.of_moved r id next now failure, ?_⟩
  show (if r.admits id next then r.moved next now failure else r).startedAt = r.startedAt
  split <;> rfl

theorem Kept.keys (h : l.Kept after) : after.map (·.key) = l.map (·.key) := by
  induction h with
  | nil => rfl
  | cons hr _ ih => rw [List.map_cons, List.map_cons, ih, hr.key]

theorem Kept.append_inv {front back : Executions} (h : Kept (front ++ back) after) :
    ∃ front' back', after = front' ++ back' ∧ front.Kept front' ∧ back.Kept back' := by
  induction front generalizing after with
  | nil => exact ⟨[], after, rfl, .nil, h⟩
  | cons r front ih =>
    cases h with
    | cons hr h =>
      obtain ⟨front', back', rfl, hfront, hback⟩ := ih h
      exact ⟨_ :: front', back', rfl, .cons hr hfront, hback⟩

/-- The rows in their places, and behind them new ones under the given keys. -/
def Extended (l : Executions) (keys : List Key) (after : Executions) : Prop :=
  ∃ old new, after = old ++ new ∧ l.Kept old ∧ new.map (·.key) = keys

theorem Kept.extended (h : l.Kept after) : l.Extended [] after := ⟨after, [], (List.append_nil _).symm, h, rfl⟩

theorem Extended.trans {keys keys' : List Key} (h : l.Extended keys mid) (g : mid.Extended keys' after) :
    l.Extended (keys ++ keys') after := by
  obtain ⟨old, new, rfl, hold, hnew⟩ := h
  obtain ⟨mid', added, rfl, hmid, hadded⟩ := g
  obtain ⟨old', new', rfl, hold', hnew'⟩ := hmid.append_inv
  refine ⟨old', new' ++ added, List.append_assoc _ _ _, hold.trans hold', ?_⟩
  rw [List.map_append, hnew'.keys, hnew, hadded]

end Store.Executions

namespace Host.Site

variable {s s' : Site}

theorem steady_records : Steady fun s s' => s.database.records.Kept s'.database.records where
  refl _ := Executions.kept_refl _
  trans h g := h.trans g

theorem records_interfere (s : Site) : s.database.records.Kept s.interfere.database.records := by
  obtain ⟨⟨executions, tokens, definitions, templates, hostTables⟩, serial, worker⟩ := s
  cases executions with
  | none => exact .nil
  | some l =>
    refine Executions.kept_map fun r => ?_
    dsimp only
    split <;> exact ⟨⟨rfl, rfl, rfl⟩, rfl⟩

theorem Kept.records (h : s.Kept s') : s.database.records.Kept s'.database.records := by
  rw [h.database.1.unchanged.records]
  exact Executions.kept_refl _

theorem records_after (s : Site) (r : Handling.Request) : s.database.records.Kept (after r s).2.database.records := by
  cases r with
  | target type c => exact (s.kept_call type c).records
  | deliver m =>
    refine Executions.Kept.trans ?_ (kept_deliver _ m).records
    split
    · exact s.records_interfere
    · exact Executions.kept_refl _
  | _ => exact Executions.kept_refl _

theorem records_visit (s : Site) (v : Visit) : s.database.records.Kept (s.visit v).2.database.records :=
  steady_records.visit (fun s r _ => (s.kept_before r).records) (fun s r _ => s.records_after r) (Program.only_true _)

/-- What puts no execution on record moves those there are. -/
theorem records_answer {r : Request} (hr : r.AddsNone) : s.database.records.Kept (answer r s).2.database.records := by
  cases r with
  | target type c => exact (s.kept_call type c).records
  | visit v => exact s.records_visit v
  | statement q =>
    have hq : Answers [] s.database (.statement q) (answer (.statement q) s).1 (answer (.statement q) s).2.database := .inl rfl
    cases q with
    | insertExecution row => exact hr.elim
    | advance id next now failure =>
      rcases hq.advance with ⟨-, h, -⟩ | ⟨-, h⟩
      · rw [h]
        exact Executions.kept_advance id next now failure
      · rw [h]
        exact Executions.kept_refl _
    | suspend row now =>
      rcases hq.suspend with ⟨-, -, h, -⟩ | ⟨-, -, h⟩ | ⟨-, h⟩
      · rw [h]
        exact Executions.kept_advance _ _ _ _
      · rw [h]
        exact Executions.kept_refl _
      · rw [h]
        exact Executions.kept_refl _
    | claim id =>
      rcases hq.claim with ⟨-, -, h⟩ | ⟨-, h⟩
      · rw [h]
        exact Executions.kept_refl _
      · rw [h]
        exact Executions.kept_refl _
    | _ =>
      rw [(Answers.unchanged (by trivial) hq).records]
      exact Executions.kept_refl _
  | _ => exact Executions.kept_refl _

theorem records_perform {α : Type} {p : Job α} (hp : p.Only Request.AddsNone) (s : Site) :
    s.database.records.Kept (s.perform p).2.database.records :=
  steady_records.perform (fun _ _ hr => records_answer hr) hp s

end Host.Site

end Lifecycle
