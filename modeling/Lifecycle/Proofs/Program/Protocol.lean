import Lifecycle.Program

/-!
# Protocols

A protocol says which requests a program may make in which of its states, and where every possible answer leads. A
program obeys it if it keeps to the rules whatever it is answered, that is, however other programs interfere.
-/

namespace Lifecycle

/-- Rules for requests. `Turn` relates the states before and after an answer, given what the program goes on with. -/
structure Protocol (P : Interface) where
  State : Type
  Possible : (r : P.Request) → P.Answer r → Prop
  Turn : State → (r : P.Request) → P.Answer r → {α : Type} → Program P α → State → Prop
  turn_bind : ∀ {s : State} {r : P.Request} {x : P.Answer r} {α β : Type} {p : Program P α} {s' : State}
    (f : α → Program P β), Turn s r x p s' → Turn s r x (p >>= f) s'

namespace Program

variable {P : Interface} {α β ε : Type}

/-- All requests of a program are of one sort. -/
def Only (sort : P.Request → Prop) : Program P α → Prop
  | .done _ => True
  | .ask r next => sort r ∧ ∀ x, (next x).Only sort

section Only

variable {sort : P.Request → Prop}

theorem Only.bind {p : Program P α} {f : α → Program P β} (hp : p.Only sort) (hf : ∀ a, (f a).Only sort) :
    (p >>= f).Only sort := by
  induction p with
  | done a => exact hf a
  | ask r next ih => exact ⟨hp.1, fun x => ih x (hp.2 x)⟩

theorem Only.attempt {p : ExceptT ε (Program P) α} {f : α → ExceptT ε (Program P) β} (hp : p.run.Only sort)
    (hf : ∀ a, (f a).run.Only sort) : (p >>= f).run.Only sort := by
  rw [ExceptT.run_bind]
  refine hp.bind fun a => ?_
  cases a with
  | ok a => exact hf a
  | error e => trivial

theorem only_true (p : Program P α) : p.Only fun _ => True := by
  induction p with
  | done a => trivial
  | ask r next ih => exact ⟨trivial, ih⟩

theorem Only.imp {sort' : P.Request → Prop} {p : Program P α} (hp : p.Only sort) (imp : ∀ r, sort r → sort' r) :
    p.Only sort' := by
  induction p with
  | done a => trivial
  | ask r next ih => exact ⟨imp r hp.1, fun x => ih x (hp.2 x)⟩

theorem Only.mapM {f : α → ExceptT ε (Program P) β} (hf : ∀ a, (f a).run.Only sort) :
    ∀ l : List α, (l.mapM f).run.Only sort
  | [] => trivial
  | a :: l => by
    rw [List.mapM_cons]
    exact (hf a).attempt fun b => (Only.mapM hf l).attempt fun bs => trivial

end Only

/-- The program keeps to the protocol from the state `s` on, and `post` holds of its result and the last state. -/
def Obeys (R : Protocol P) : Program P α → R.State → (α → R.State → Prop) → Prop
  | .done a, s, post => post a s
  | .ask r next, s, post => ∀ x, R.Possible r x → ∃ s', R.Turn s r x (next x) s' ∧ (next x).Obeys R s' post

section Obeys

variable {R : Protocol P} {s : R.State} {post : α → R.State → Prop}

theorem Obeys.imp {p : Program P α} {post' : α → R.State → Prop} (h : p.Obeys R s post)
    (imp : ∀ a s', post a s' → post' a s') : p.Obeys R s post' := by
  induction p generalizing s with
  | done a => exact imp a s h
  | ask r next ih =>
    intro x hx
    obtain ⟨s', ht, hn⟩ := h x hx
    exact ⟨s', ht, ih x hn⟩

theorem Obeys.bind {p : Program P α} {f : α → Program P β} {post' : β → R.State → Prop} (h : p.Obeys R s post)
    (hf : ∀ a s', post a s' → (f a).Obeys R s' post') : (p >>= f).Obeys R s post' := by
  induction p generalizing s with
  | done a => exact hf a s h
  | ask r next ih =>
    intro x hx
    obtain ⟨s', ht, hn⟩ := h x hx
    exact ⟨s', R.turn_bind f ht, ih x hn⟩

/-- A fault ends a program that may fail, whatever was to follow. -/
theorem Obeys.attempt {p : ExceptT ε (Program P) α} {f : α → ExceptT ε (Program P) β}
    {post : Except ε α → R.State → Prop} {post' : Except ε β → R.State → Prop} (h : p.run.Obeys R s post)
    (ok : ∀ a s', post (.ok a) s' → (f a).run.Obeys R s' post') (error : ∀ e s', post (.error e) s' → post' (.error e) s') :
    (p >>= f).run.Obeys R s post' := by
  rw [ExceptT.run_bind]
  refine h.bind fun a s' ha => ?_
  cases a with
  | ok a => exact ok a s' ha
  | error e => exact error e s' ha

theorem Obeys.lift {p : Program P α} {f : α → ExceptT ε (Program P) β} {post' : Except ε β → R.State → Prop}
    (h : p.Obeys R s post) (hf : ∀ a s', post a s' → (f a).run.Obeys R s' post') :
    (ExceptT.lift p >>= f).run.Obeys R s post' := by
  rw [ExceptT.run_bind_lift]
  exact h.bind hf

/-- Requests that leave a state may be made in it at any time. -/
theorem Only.obeys {sort : P.Request → Prop} {p : Program P α} (hp : p.Only sort)
    (leave : ∀ r x, sort r → ∀ {γ : Type} (q : Program P γ), R.Turn s r x q s) : p.Obeys R s fun _ s' => s' = s := by
  induction p with
  | done a => rfl
  | ask r next ih => exact fun x _ => ⟨s, leave r x hp.1 (next x), ih x (hp.2 x)⟩

end Obeys

end Program

end Lifecycle
