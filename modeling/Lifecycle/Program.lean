/-!
Programs as trees of requests: what a worker asks of an interface, and how it goes on for every
answer. The same tree is run against one state from start to end, or request by request among other
programs.
-/

namespace Lifecycle

/-- Requests, each with the type of its answers. -/
structure Interface where
  Request : Type
  Answer : Request → Type

/-- A computation that asks requests of the interface `P`. -/
inductive Program (P : Interface) (α : Type) where
  | done (a : α)
  | ask (r : P.Request) (next : P.Answer r → Program P α)

namespace Program

variable {P : Interface} {α β σ : Type}

/-- One program after another. -/
def bind : Program P α → (α → Program P β) → Program P β
  | .done a, f => f a
  | .ask r next, f => .ask r fun x => (next x).bind f

instance : Monad (Program P) where
  pure := .done
  bind := bind

/-- One request. -/
def call (r : P.Request) : Program P (P.Answer r) := .ask r .done

@[simp] theorem pure_eq (a : α) : (pure a : Program P α) = .done a := rfl

@[simp] theorem bind_done (a : α) (f : α → Program P β) : (Program.done a >>= f) = f a := rfl

@[simp] theorem bind_ask (r : P.Request) (next : P.Answer r → Program P α) (f : α → Program P β) :
    (Program.ask r next >>= f) = .ask r fun x => next x >>= f := rfl

theorem bind_pure (p : Program P α) : (p >>= fun a => Program.done a) = p := by
  induction p with
  | done a => rfl
  | ask r next ih => rw [bind_ask]; congr 1; funext x; exact ih x

instance : LawfulMonad (Program P) := LawfulMonad.mk' _ bind_pure (fun _ _ => rfl) fun p f g => by
  induction p with
  | done a => rfl
  | ask r next ih => simp only [bind_ask]; congr 1; funext x; exact ih x

/-- The program run against a state that answers its requests. -/
def run (answer : (r : P.Request) → σ → P.Answer r × σ) : Program P α → σ → α × σ
  | .done a, s => (a, s)
  | .ask r next, s => run answer (next (answer r s).1) (answer r s).2

theorem run_bind (answer : (r : P.Request) → σ → P.Answer r × σ) (p : Program P α) (f : α → Program P β) (s : σ) :
    run answer (p >>= f) s = run answer (f (run answer p s).1) (run answer p s).2 := by
  induction p generalizing s with
  | done a => rfl
  | ask r next ih => exact ih _ _

end Program

end Lifecycle
