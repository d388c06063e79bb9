import Lifecycle.Proofs.Program.Protocol

/-!
# What is left of a program

A program that was given some replies has a program left to do. `Leaves` follows the tree of requests along a list of
replies; a program that runs one after another has either the first one to finish or the second one to go on with.
-/

namespace Lifecycle

/-- A request with its answer. -/
structure Reply (P : Interface) where
  request : P.Request
  answer : P.Answer request

namespace Program

variable {P : Interface} {α β : Type}

/-- Given the replies one after the other, the first program has the second one left to do. -/
inductive Leaves : Program P α → List (Reply P) → Program P α → Prop where
  | here (p : Program P α) : Leaves p [] p
  | ask {r : P.Request} {next : P.Answer r → Program P α} {x : P.Answer r} {replies : List (Reply P)}
      {rest : Program P α} (h : Leaves (next x) replies rest) : Leaves (.ask r next) (⟨r, x⟩ :: replies) rest

namespace Leaves

theorem append {p q s : Program P α} {xs ys : List (Reply P)} (h : Leaves p xs q) (g : Leaves q ys s) :
    Leaves p (xs ++ ys) s := by
  induction h with
  | here p => exact g
  | ask _ ih => exact .ask (ih g)

theorem concat {p : Program P α} {xs : List (Reply P)} {r : P.Request} {next : P.Answer r → Program P α}
    (h : Leaves p xs (.ask r next)) (x : P.Answer r) : Leaves p (xs ++ [⟨r, x⟩]) (next x) :=
  h.append (.ask (.here _))

/-- Of one program after another either the first one is left with the second to follow, or it has ended. -/
theorem bind_inv {p : Program P α} {f : α → Program P β} {xs : List (Reply P)} {rest : Program P β}
    (h : Leaves (p >>= f) xs rest) :
    (∃ q, Leaves p xs q ∧ rest = q >>= f) ∨
      ∃ a ys zs, xs = ys ++ zs ∧ Leaves p ys (.done a) ∧ Leaves (f a) zs rest := by
  induction p generalizing xs with
  | done a => exact .inr ⟨a, [], xs, rfl, .here _, h⟩
  | ask r next ih =>
    cases h with
    | here => exact .inl ⟨.ask r next, .here _, rfl⟩
    | @ask _ _ x replies _ h =>
      rcases ih x h with ⟨q, hq, rfl⟩ | ⟨a, ys, zs, rfl, hy, hz⟩
      · exact .inl ⟨q, .ask hq, rfl⟩
      · exact .inr ⟨a, ⟨r, x⟩ :: ys, zs, rfl, .ask hy, hz⟩

/-- One program after another ends where the second one ends. -/
theorem bind_done_inv {p : Program P α} {f : α → Program P β} {xs : List (Reply P)} {b : β}
    (h : Leaves (p >>= f) xs (.done b)) :
    ∃ a ys zs, xs = ys ++ zs ∧ Leaves p ys (.done a) ∧ Leaves (f a) zs (.done b) := by
  rcases h.bind_inv with ⟨q, hq, he⟩ | h
  · cases q with
    | done a => exact ⟨a, xs, [], (List.append_nil xs).symm, hq, by rw [he]; exact .here _⟩
    | ask r next => cases he
  · exact h

theorem done_inv {a b : α} {xs : List (Reply P)} (h : Leaves (.done a : Program P α) xs (.done b)) :
    xs = [] ∧ a = b := by
  cases h
  exact ⟨rfl, rfl⟩

theorem ask_done_inv {r : P.Request} {next : P.Answer r → Program P α} {xs : List (Reply P)} {b : α}
    (h : Leaves (.ask r next) xs (.done b)) :
    ∃ x ys, xs = ⟨r, x⟩ :: ys ∧ Leaves (next x) ys (.done b) := by
  cases h with
  | ask h => exact ⟨_, _, rfl, h⟩

/-- The replies are to requests of the sort that the program makes. -/
theorem only {sort : P.Request → Prop} {p rest : Program P α} {xs : List (Reply P)} (h : Leaves p xs rest)
    (hp : p.Only sort) : ∀ y ∈ xs, sort y.request := by
  induction h with
  | here p => exact fun y hy => absurd hy List.not_mem_nil
  | ask h ih =>
    intro y hy
    rcases List.mem_cons.1 hy with rfl | hy
    · exact hp.1
    · exact ih (hp.2 _) y hy

theorem rest_only {sort : P.Request → Prop} {p rest : Program P α} {xs : List (Reply P)} (h : Leaves p xs rest)
    (hp : p.Only sort) : rest.Only sort := by
  induction h with
  | here p => exact hp
  | ask h ih => exact ih (hp.2 _)

end Leaves

/-- The program makes at most `n` requests, whatever it is answered. -/
def AtMost : Nat → Program P α → Prop
  | _, .done _ => True
  | 0, .ask _ _ => False
  | n + 1, .ask _ next => ∀ x, AtMost n (next x)

theorem Leaves.length_le {p rest : Program P α} {xs : List (Reply P)} {n : Nat} (h : Leaves p xs rest) (hp : p.AtMost n) :
    xs.length ≤ n := by
  induction h generalizing n with
  | here p => exact Nat.zero_le n
  | ask _ ih =>
    cases n with
    | zero => exact hp.elim
    | succ n => exact Nat.succ_le_succ (ih (hp _))

/-- The program ends with the first reply that is one of the last. -/
def Until (last : Reply P → Prop) : Program P α → Prop
  | .done _ => False
  | .ask r next => ∀ x, (last ⟨r, x⟩ ∧ ∃ a, next x = .done a) ∨ (¬ last ⟨r, x⟩ ∧ (next x).Until last)

theorem Until.bind_done {last : Reply P → Prop} {p : Program P α} {f : α → Program P β} (h : p.Until last)
    (hf : ∀ a, ∃ b, f a = .done b) : (p >>= f).Until last := by
  induction p with
  | done a => exact h.elim
  | ask r next ih =>
    intro x
    rcases h x with ⟨hl, a, ha⟩ | ⟨hl, hn⟩
    · refine .inl ⟨hl, ?_⟩
      show ∃ b, (next x >>= f) = .done b
      rw [ha]
      exact hf a
    · exact .inr ⟨hl, ih x hn⟩

/-- Such a program has ended if and only if it was given one of the last replies. -/
theorem Leaves.done_iff {last : Reply P → Prop} {p rest : Program P α} {xs : List (Reply P)} (h : Leaves p xs rest)
    (hp : p.Until last) : (∃ a, rest = .done a) ↔ ∃ y ∈ xs, last y := by
  induction h with
  | here p =>
    refine ⟨?_, fun ⟨y, hy, _⟩ => absurd hy List.not_mem_nil⟩
    rintro ⟨a, rfl⟩
    exact hp.elim
  | @ask r next x replies rest h ih =>
    rcases hp x with ⟨hl, a, ha⟩ | ⟨hl, hn⟩
    · refine ⟨fun _ => ⟨_, List.mem_cons_self, hl⟩, fun _ => ?_⟩
      rw [ha] at h
      cases h
      exact ⟨a, rfl⟩
    · rw [ih hn]
      refine ⟨fun ⟨y, hy, hly⟩ => ⟨y, List.mem_cons_of_mem _ hy, hly⟩, fun ⟨y, hy, hly⟩ => ?_⟩
      rcases List.mem_cons.1 hy with rfl | hy
      · exact absurd hly hl
      · exact ⟨y, hy, hly⟩

end Program

end Lifecycle
