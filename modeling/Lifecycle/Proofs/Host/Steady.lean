import Lifecycle.Host.Site
import Lifecycle.Proofs.Program.Protocol

/-!
# From requests to runs

What every request keeps, a run keeps. A relation between a site and a later one is steady if it goes through several steps
as through one; it then holds over a visit if it holds over each request of the handler, and over a job if it holds over
each request of the engine.
-/

namespace Lifecycle.Host

open Engine (Job Visit)

/-- The relation holds where nothing happens, and over several steps if it holds over each of them. -/
structure Steady (R : Site → Site → Prop) : Prop where
  refl (s : Site) : R s s
  trans {s s' s'' : Site} : R s s' → R s' s'' → R s s''

namespace Steady

variable {R : Site → Site → Prop}

/-- A property that is never lost. -/
theorem of_kept (Q : Site → Prop) : Steady fun s s' => Q s → Q s' where
  refl _ := id
  trans h g := g ∘ h

/-- What has one value all the time. -/
theorem of_same {β : Type} (f : Site → β) : Steady fun s s' => f s' = f s where
  refl _ := rfl
  trans h g := g.trans h

/-- Where each step depends on what the steps before it keep. -/
theorem under (steady : Steady R) {Q : Site → Prop} (keeps : ∀ {s s'}, R s s' → Q s → Q s') :
    Steady fun s s' => Q s → R s s' where
  refl s _ := steady.refl s
  trans h g hs := steady.trans (h hs) (g (keeps (h hs) hs))

variable {asks : Handling.Request → Prop}

theorem within (steady : Steady R) (before : ∀ s r, asks r → R s (s.before r))
    (after : ∀ s r, asks r → R s (Site.after r s).2) {α : Type} {p : Program Handling.interface α} (hp : p.Only asks)
    (limit : Option Nat) (waited : Nat) (s : Site) : R s (Site.within limit waited p s).2 := by
  induction p generalizing waited s with
  | done a => exact steady.refl s
  | ask r next ih =>
    have hbefore := before s r hp.1
    unfold Site.within
    dsimp only
    split
    · exact hbefore
    · exact steady.trans hbefore (steady.trans (after _ r hp.1) (ih _ (hp.2 _) _ _))

/-- A visit does what its handler does within the limit, whether that comes to an end or is given up. -/
theorem visit (steady : Steady R) (before : ∀ s r, asks r → R s (s.before r))
    (after : ∀ s r, asks r → R s (Site.after r s).2) {s : Site} {v : Visit}
    (hp : (Handling.handle s.worker.types v).run.Only asks) : R s (s.visit v).2 := by
  have hw := steady.within before after hp (s.worker.timeouts.limit? v.step.kind.type) 0 s
  unfold Site.visit
  dsimp only
  split <;> rename_i h <;> rw [h] at hw <;> exact hw

theorem perform (steady : Steady R) {sort : Engine.Request → Prop} (answer : ∀ s r, sort r → R s (Site.answer r s).2)
    {α : Type} {p : Job α} (hp : p.Only sort) (s : Site) : R s (s.perform p).2 := by
  induction p generalizing s with
  | done a => exact steady.refl s
  | ask r next ih => exact steady.trans (answer s r hp.1) (ih _ (hp.2 _) _)

end Steady

end Lifecycle.Host
