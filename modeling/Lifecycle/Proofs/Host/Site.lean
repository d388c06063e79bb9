import Lifecycle.Host.Site
import Lifecycle.Proofs.Concurrent.Pool
import Lifecycle.Proofs.Engine.Handling
import Lifecycle.Proofs.Host.Steady
import Lifecycle.Proofs.Sequential.Runs

/-!
# What a site answers

A site answers requests as an operation among others is answered, if its mailer does not fail executions of its own
accord: statements are executed, identifiers are new, and handlers leave the tables of the engine as they are. It answers
visits as their nodes have it, and a delay is answered at once.
-/

namespace Lifecycle

open Engine (Request Visit Outcome)
open Store (Database)

namespace Store.Database.SameEngine

variable {db mid after : Database}

theorem refl (db : Database) : db.SameEngine db := ⟨⟨rfl, rfl⟩, rfl⟩

theorem trans (h : db.SameEngine mid) (g : mid.SameEngine after) : db.SameEngine after :=
  ⟨⟨g.1.1.trans h.1.1, g.1.2.trans h.1.2⟩, g.2.trans h.2⟩

end Store.Database.SameEngine

namespace Host.Site

variable {s s' s'' : Site}

/-! ### Identifiers -/

theorem identifier_injective : Function.Injective identifier := by
  have value (n : Nat) : Nat.ofDigitChars 10 (Text.padded 12 n).toList 0 = n := by
    unfold Text.padded
    rw [String.toList_append, String.toList_ofList, Nat.ofDigitChars_append, Nat.ofDigitChars_replicate_zero,
      Nat.mul_zero]
    show Nat.ofDigitChars 10 (Nat.repr n).toList 0 = n
    rw [Nat.toList_repr, Nat.ofDigitChars_ten_toDigits]
  intro m n h
  have hp : (Text.padded 12 m).toList = (Text.padded 12 n).toList := by
    have hl := congrArg String.toList h
    unfold identifier at hl
    rw [String.toList_append, String.toList_append] at hl
    exact List.append_cancel_left hl
  rw [← value m, hp, value n]

/-- The identifier was given out. -/
def Issued (s : Site) (id : String) : Prop := ∃ n ≤ s.serial, id = identifier n

theorem not_issued_next (s : Site) : ¬ s.Issued (identifier (s.serial + 1)) := by
  rintro ⟨n, hn, h⟩
  have := identifier_injective h
  omega

theorem Issued.mono {id : String} (h : s.Issued id) (hs : s.serial ≤ s'.serial) : s'.Issued id := by
  obtain ⟨n, hn, hid⟩ := h
  exact ⟨n, by omega, hid⟩

/-! ### What collaborators leave as it is -/

/-- No mailer fails executions of its own accord. -/
def Calm (s : Site) : Prop := s.worker.mailer.interferes = false

/-- The tables of the engine are the same, and no identifier has been given out. -/
structure Kept (s s' : Site) : Prop where
  database : s.database.SameEngine s'.database
  serial : s'.serial = s.serial
  calm : s.Calm → s'.Calm

theorem Kept.refl (s : Site) : s.Kept s := ⟨.refl s.database, rfl, id⟩

theorem Kept.trans (h : s.Kept s') (g : s'.Kept s'') : s.Kept s'' :=
  ⟨h.database.trans g.database, g.serial.trans h.serial, g.calm ∘ h.calm⟩

theorem kept_setWorker (s : Site) (w : Worker) (h : s.Calm → w.mailer.interferes = false) : s.Kept (s.setWorker w) :=
  ⟨.refl s.database, rfl, h⟩

theorem setSource_mailer (w : Worker) (type : TargetType) (source : Source) :
    (w.setSource type source).mailer = w.mailer := by
  cases type <;> rfl

theorem kept_reach (s : Site) (type : TargetType) (c : Target.Call) : s.Kept (s.reach type c).2 := by
  unfold reach
  dsimp only
  split
  · refine kept_setWorker s _ fun h => ?_
    rw [setSource_mailer]
    exact h
  · split
    · exact .refl s
    · exact ⟨⟨⟨rfl, rfl⟩, rfl⟩, rfl, id⟩

theorem kept_call (s : Site) (type : TargetType) (c : Target.Call) : s.Kept (s.call type c).2 := by
  unfold call
  split
  · exact .refl s
  · exact s.kept_reach type c

theorem setSource_clock (w : Worker) (type : TargetType) (source : Source) : (w.setSource type source).clock = w.clock := by
  cases type <;> rfl

theorem clock_call (s : Site) (type : TargetType) (c : Target.Call) : (s.call type c).2.worker.clock = s.worker.clock := by
  unfold call reach
  dsimp only
  split
  · rfl
  · split
    · exact setSource_clock _ _ _
    · split <;> rfl

theorem kept_deliver (s : Site) (m : Mail.Message) : s.Kept (s.deliver m).2 := by
  unfold deliver
  dsimp only
  split
  · exact .refl s
  · exact .refl s
  · exact kept_setWorker s _ id

theorem kept_before (s : Site) (r : Handling.Request) : s.Kept (s.before r) := by
  cases r with
  | send r => exact kept_setWorker s _ id
  | _ => exact .refl s

theorem kept_after (h : s.Calm) (r : Handling.Request) : s.Kept (after r s).2 := by
  cases r with
  | now => exact .refl s
  | target type c => exact s.kept_call type c
  | template id => exact .refl s
  | deliver m =>
    have hm : s.worker.mailer.interferes = false := h
    show s.Kept ((if s.worker.mailer.interferes then s.interfere else s).deliver m).2
    rw [hm, if_neg Bool.false_ne_true]
    exact s.kept_deliver m
  | send r => exact .refl s

theorem kept_visit (h : s.Calm) (v : Visit) : s.Kept (s.visit v).2 := by
  have steady : Steady fun s s' => s.Calm → s.Kept s' := Steady.under ⟨Kept.refl, Kept.trans⟩ Kept.calm
  exact steady.visit (fun s r _ _ => s.kept_before r) (fun _ r _ hs => kept_after hs r) (Program.only_true _) h

/-! ### Visits -/

/-- What is done within a limit is a run of the program. -/
theorem leaves_within {α : Type} {p : Program Handling.interface α} {limit : Option Nat} {waited : Nat} {a : α}
    (h : within limit waited p s = (some a, s')) : ∃ xs, Program.Leaves p xs (.done a) := by
  induction p generalizing waited s with
  | done b =>
    cases h
    exact ⟨[], .here _⟩
  | ask r next ih =>
    unfold within at h
    dsimp only at h
    split at h
    · cases h
    · obtain ⟨xs, hxs⟩ := ih _ h
      exact ⟨_, .ask hxs⟩

theorem visit_returns (s : Site) (v : Visit) : Handling.Returns v (s.visit v).1 := by
  unfold visit
  dsimp only
  split
  · rename_i x s' hw
    obtain ⟨xs, h⟩ := leaves_within hw
    exact .handled h
  · exact .givenUp _ _

/-- A visit that is answered goes on as its node has it. -/
theorem visit_allowed {v : Visit} {o : Outcome} (h : (s.visit v).1 = .ok o) : v.step.kind.Allows o :=
  (h ▸ s.visit_returns v : Handling.Returns v (.ok o)).allowed

/-- A delay is answered at once and always with its end. -/
theorem visit_delay {v : Visit} {d : Delay} (h : v.step.kind = .delay d) :
    s.visit v = (.ok (.suspend (Handling.delayEnd d s.worker.clock)), s) := by
  have hw (limit : Option Nat) : within limit 0 (Handling.handle s.worker.types v).run s =
      (some (.ok (.suspend (Handling.delayEnd d s.worker.clock))), s) := by
    unfold Handling.handle
    rw [h]
    show (if limit.any (· < 0) then _ else _) = _
    rw [if_neg (by cases limit <;> simp)]
    rfl
  unfold visit
  dsimp only
  rw [hw]

/-- Visits are answered as their nodes have it, and delays always. -/
def visits : Visits := fun step x =>
  (∀ o, x = .ok o → step.kind.Allows o) ∧ (step.kind.type = .delay → ∃ o, x = .ok o)

theorem visits_visit (s : Site) (v : Visit) : visits v.step (s.visit v).1 := by
  refine ⟨fun o h => visit_allowed h, fun h => ?_⟩
  cases hk : v.step.kind with
  | delay d => exact ⟨_, congrArg Prod.fst (visit_delay hk)⟩
  | _ => rw [hk] at h; cases h

/-! ### Requests of the engine -/

theorem serial_answer (h : s.Calm) (r : Request) : s.serial ≤ (answer r s).2.serial := by
  cases r with
  | fresh => exact Nat.le_succ s.serial
  | target type c => exact (s.kept_call type c).serial.ge
  | visit v => exact (kept_visit h v).serial.ge
  | _ => exact Nat.le_refl s.serial

theorem calm_answer (h : s.Calm) (r : Request) : (answer r s).2.Calm := by
  cases r with
  | target type c => exact (s.kept_call type c).calm h
  | visit v => exact (kept_visit h v).calm h
  | _ => exact h

/-- A site answers as operations are answered. -/
theorem answers_answer (h : s.Calm) {ids : List String} (hids : ∀ id ∈ ids, s.Issued id) (r : Request) :
    Answers ids s.database r (answer r s).1 (answer r s).2.database := by
  cases r with
  | fresh => exact ⟨fun hmem => s.not_issued_next (hids _ hmem), rfl⟩
  | statement q => exact .inl rfl
  | target type c => exact (s.kept_call type c).database.1
  | visit v => exact (kept_visit h v).database.1
  | _ => rfl

/-- An identifier that is answered is issued. -/
theorem issued_answer {r : Request} {id : String} {k : Nat} {before after : Database}
    (h : Entry.identifier? ⟨k, ⟨r, (answer r s).1⟩, before, after⟩ = some id) : (answer r s).2.Issued id := by
  cases r with
  | fresh =>
    cases h
    exact ⟨s.serial + 1, Nat.le_refl _, rfl⟩
  | _ => cases h

/-- A site on its own answers as a worker is answered that nobody disturbs. -/
theorem undisturbed_answer (h : s.Calm) (hrows : ∀ row ∈ s.database.waiting, ∀ id, row.id = some id → s.Issued id)
    (r : Request) : Undisturbed visits s.database r (answer r s).1 (answer r s).2.database := by
  cases r with
  | fresh => exact ⟨fun row hrow hid => s.not_issued_next (hrows row hrow _ hid), rfl⟩
  | statement q => rfl
  | target type c => exact (s.kept_call type c).database
  | visit v => exact ⟨s.visits_visit v, (kept_visit h v).database⟩
  | _ => rfl

end Host.Site

end Lifecycle
