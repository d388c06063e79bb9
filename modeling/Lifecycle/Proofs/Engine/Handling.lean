import Lifecycle.Engine.Handling
import Lifecycle.Proofs.Program.Replies

/-!
# What visits are answered

A visit that is answered goes on as the kind of its node has it: a condition branches, a delay suspends, and every other
node goes on, whatever the collaborators say.
-/

namespace Lifecycle

open Engine (Visit Outcome)

/-! ### Results of programs -/

namespace Program

variable {P : Interface} {α β ε : Type}

/-- Whatever the program is answered, `post` holds of its result. -/
def Ends (post : α → Prop) : Program P α → Prop
  | .done a => post a
  | .ask _ next => ∀ x, (next x).Ends post

variable {post : α → Prop} {post' : β → Prop}

theorem ends_trivial (p : Program P α) : p.Ends fun _ => True := by
  induction p with
  | done a => trivial
  | ask r next ih => exact ih

theorem Ends.bind {p : Program P α} {f : α → Program P β} (h : p.Ends post) (hf : ∀ a, post a → (f a).Ends post') :
    (p >>= f).Ends post' := by
  induction p with
  | done a => exact hf a h
  | ask r next ih => exact fun x => ih x (h x)

/-- The result of an attempt is that of its last part, if it gets there. -/
theorem Ends.attempt {post : β → Prop} {p : ExceptT ε (Program P) α} {f : α → ExceptT ε (Program P) β}
    (hf : ∀ a, (f a).run.Ends fun x => ∀ b, x = .ok b → post b) :
    (p >>= f).run.Ends fun x => ∀ b, x = .ok b → post b := by
  rw [ExceptT.run_bind]
  refine (ends_trivial p.run).bind fun a _ => ?_
  cases a with
  | error e => exact fun b h => by cases h
  | ok a => exact hf a

theorem Ends.leaves {p : Program P α} (h : p.Ends post) {xs : List (Reply P)} {a : α} (hp : Leaves p xs (.done a)) :
    post a := by
  generalize hr : Program.done a = rest at hp
  induction hp with
  | here p =>
    subst hr
    exact h
  | ask _ ih => exact ih (h _) hr

end Program

/-! ### Handlers -/

/-- How the walk may go on after a node. -/
def Kind.Allows : Kind → Outcome → Prop
  | .condition _, o => ∃ yes, o = .branch yes
  | .delay _, o => ∃ deadline, o = .suspend deadline
  | _, o => o = .proceed

/-- Only delays suspend. -/
theorem Kind.delay_of_allows {kind : Kind} {deadline : Time.Instant} (h : kind.Allows (.suspend deadline)) :
    ∃ d, kind = .delay d := by
  cases kind with
  | delay d => exact ⟨d, rfl⟩
  | condition p =>
    obtain ⟨yes, hy⟩ := h
    cases hy
  | _ => cases h

namespace Handling

open Program (Ends)

/-- A handler is done with an outcome. -/
theorem ends_pure {o : Outcome} {post : Outcome → Prop} (h : post o) :
    (pure o : Attempt Outcome).run.Ends fun x => ∀ b, x = .ok b → post b := by
  intro b hb
  obtain rfl : o = b := Except.ok.inj hb
  exact h

theorem ends_throw (f : HandlerFault) (post : Outcome → Prop) :
    (throw f : Attempt Outcome).run.Ends fun x => ∀ b, x = .ok b → post b := by
  intro b hb
  cases hb

theorem mail_proceeds (types : List TargetType) (e : Email) (v : Visit) :
    (mail types e v).run.Ends fun x => ∀ o, x = .ok o → o = .proceed := by
  refine Ends.attempt fun recipient => ?_
  cases recipient with
  | none => exact ends_throw _ _
  | some recipient =>
    refine Ends.attempt fun view => Ends.attempt fun source => Ends.attempt fun rendered => Ends.attempt fun _ => ?_
    exact ends_pure rfl

theorem invoke_proceeds (w : Webhook) (v : Visit) : (invoke w v).run.Ends fun x => ∀ o, x = .ok o → o = .proceed := by
  refine Ends.attempt fun response => ?_
  split
  · exact ends_pure rfl
  · exact ends_throw _ _

/-- Handlers go on as the kinds of their nodes have it. -/
theorem handle_allowed (types : List TargetType) (v : Visit) :
    (handle types v).run.Ends fun x => ∀ o, x = .ok o → v.step.kind.Allows o := by
  unfold handle
  cases v.step.kind with
  | trigger => exact ends_pure rfl
  | email e => exact mail_proceeds types e v
  | delay d => exact Ends.attempt fun now => ends_pure ⟨_, rfl⟩
  | condition p => exact Ends.attempt fun yes => ends_pure ⟨yes, rfl⟩
  | webhook w => exact invoke_proceeds w v
  | mutateTarget m => exact Ends.attempt fun _ => ends_pure rfl
  | tagTarget t => exact Ends.attempt fun _ => ends_pure rfl

/-- What a visit can be answered: what its handler ends with, for some answers of its collaborators, or that it took too
long. -/
inductive Returns (v : Visit) : Except HandlerFault Outcome → Prop where
  | handled {types : List TargetType} {xs : List (Reply interface)} {x : Except HandlerFault Outcome}
      (h : Program.Leaves (handle types v).run xs (.done x)) : Returns v x
  | givenUp (type : NodeType) (millis : Nat) : Returns v (.error (.timeout type millis))

theorem Returns.allowed {v : Visit} {o : Outcome} (h : Returns v (.ok o)) : v.step.kind.Allows o := by
  cases h with
  | handled h => exact (handle_allowed _ v).leaves h o rfl

end Handling

end Lifecycle
