import Lifecycle.Host.Site
import Lifecycle.Proofs.Concurrent.Pool

/-!
# Calls at one site

Calls of one kind are made at a site and take turns: each request of one of them is answered at once, and in between other
calls begin, or something else changes the site. A chronicle has what is left to do of every call and all moments so far,
each with the site before and after it.

`Reachable.cut` goes back to a moment, and `Reachable.leaves` says what is left of a call after the replies that it was given.
-/

namespace Lifecycle

open Engine (Request Job)

namespace Host

/-- A call begins, or is given a reply, or something else changes the site. -/
inductive Happening where
  | begun (call : Nat)
  | answered (call : Nat) (reply : Reply Engine.interface)
  | changed

structure Moment where
  happening : Happening
  before : Site
  after : Site

/-- The calls that may be made, the sites at the start, and what may change a site between requests. -/
structure Setting (ι α : Type) where
  job : ι → Job α
  Start : Site → Prop
  Change : Site → Site → Prop

/-- What each call asked for and what is left of it to do. -/
structure Chronicle (ι α : Type) where
  site : Site
  calls : List (ι × Job α)
  history : List Moment

variable {ι α : Type}

namespace Setting

variable (E : Setting ι α)

inductive Step (c : Chronicle ι α) : Chronicle ι α → Prop where
  | begin (i : ι) : Step c ⟨c.site, c.calls ++ [(i, E.job i)], c.history ++ [⟨.begun c.calls.length, c.site, c.site⟩]⟩
  | change (s : Site) (h : E.Change c.site s) : Step c ⟨s, c.calls, c.history ++ [⟨.changed, c.site, s⟩]⟩
  | answer {k : Nat} {i : ι} {r : Request} {next : r.Answer → Job α} {x : r.Answer} {s : Site}
      (hk : c.calls[k]? = some (i, .ask r next)) (hx : Site.answer r c.site = (x, s)) :
      Step c ⟨s, c.calls.set k (i, next x), c.history ++ [⟨.answered k ⟨r, x⟩, c.site, s⟩]⟩

inductive Reachable : Chronicle ι α → Prop where
  | start (s : Site) (h : E.Start s) : Reachable ⟨s, [], []⟩
  | step {c c' : Chronicle ι α} (h : Reachable c) (hs : E.Step c c') : Reachable c'

end Setting

/-! ### Replies to a call -/

/-- The reply that is given to a call. -/
def Moment.replyTo? (k : Nat) (m : Moment) : Option (Reply Engine.interface) :=
  match m.happening with
  | .answered j y => if j = k then some y else none
  | _ => none

def repliesTo (k : Nat) (history : List Moment) : List (Reply Engine.interface) := history.filterMap (Moment.replyTo? k)

section Replies

variable {k : Nat} {y : Reply Engine.interface} {s s' : Site}

theorem Moment.happening_of_replyTo? {m : Moment} (h : m.replyTo? k = some y) : m.happening = .answered k y := by
  unfold replyTo? at h
  split at h
  · split at h
    · cases h
      subst_vars
      assumption
    · cases h
  · cases h

theorem repliesTo_append (xs ys : List Moment) : repliesTo k (xs ++ ys) = repliesTo k xs ++ repliesTo k ys :=
  List.filterMap_append

theorem repliesTo_quiet {history : List Moment} {m : Moment} (h : m.replyTo? k = none) :
    repliesTo k (history ++ [m]) = repliesTo k history := by
  unfold repliesTo
  rw [List.filterMap_append, List.filterMap_cons_none h, List.filterMap_nil, List.append_nil]

theorem repliesTo_begun {m : Moment} (h : m.happening = .begun k) (history : List Moment) :
    repliesTo k (m :: history) = repliesTo k history := by
  refine List.filterMap_cons_none ?_
  unfold Moment.replyTo?
  rw [h]

theorem repliesTo_given {m : Moment} (h : m.happening = .answered k y) (history : List Moment) :
    repliesTo k (m :: history) = y :: repliesTo k history := by
  refine List.filterMap_cons_some ?_
  unfold Moment.replyTo?
  rw [h]
  exact if_pos rfl

theorem repliesTo_answered (history : List Moment) (y : Reply Engine.interface) (s s' : Site) :
    repliesTo k (history ++ [⟨.answered k y, s, s'⟩]) = repliesTo k history ++ [y] := by
  have hm : Moment.replyTo? k ⟨.answered k y, s, s'⟩ = some y := if_pos rfl
  unfold repliesTo
  rw [List.filterMap_append, List.filterMap_cons_some hm, List.filterMap_nil]

theorem repliesTo_other {j : Nat} (h : j ≠ k) (history : List Moment) (y : Reply Engine.interface) (s s' : Site) :
    repliesTo k (history ++ [⟨.answered j y, s, s'⟩]) = repliesTo k history :=
  repliesTo_quiet (if_neg h)

/-- A reply to a call was given at a moment. -/
theorem moment_of_repliesTo {history : List Moment} (xs : List (Reply Engine.interface)) {ys : List (Reply Engine.interface)}
    (h : repliesTo k history = xs ++ y :: ys) : ∃ pre m post, history = pre ++ m :: post ∧ m.happening = .answered k y ∧
      repliesTo k pre = xs ∧ repliesTo k post = ys := by
  obtain ⟨pre, rest, rfl, hpre, hrest⟩ := List.filterMap_eq_append_iff.1 h
  obtain ⟨skipped, m, post, rfl, hnone, hm, hpost⟩ := List.filterMap_eq_cons_iff.1 hrest
  refine ⟨pre ++ skipped, m, post, by rw [List.append_assoc], Moment.happening_of_replyTo? hm, ?_, hpost⟩
  unfold repliesTo
  rw [List.filterMap_append, hpre, List.filterMap_eq_nil_iff.2 hnone, List.append_nil]

theorem mem_repliesTo {history : List Moment} {m : Moment} (hm : m ∈ history) (h : m.happening = .answered k y) :
    y ∈ repliesTo k history := by
  refine List.mem_filterMap.2 ⟨m, hm, ?_⟩
  unfold Moment.replyTo?
  rw [h]
  exact if_pos rfl

end Replies

/-! ### Induction over chronicles -/

namespace Setting

variable {E : Setting ι α} {c : Chronicle ι α} {k : Nat}

/-- A call that has not begun was given no replies. -/
theorem Reachable.repliesTo_eq_nil (h : E.Reachable c) (hk : c.calls.length ≤ k) : repliesTo k c.history = [] := by
  induction h with
  | start s hs => rfl
  | step h hs ih =>
    cases hs with
    | begin i =>
      rw [List.length_append] at hk
      exact (repliesTo_quiet rfl).trans (ih (by omega))
    | change s hc => exact (repliesTo_quiet rfl).trans (ih hk)
    | @answer j i r next x s hj hx =>
      rw [List.length_set] at hk
      have hlt := (List.getElem?_eq_some_iff.1 hj).1
      exact (repliesTo_other (by omega) _ _ _ _).trans (ih hk)

/-- The replies that a call was given leave of it what is left. -/
theorem Reachable.leaves (h : E.Reachable c) {i : ι} {rest : Job α} (hk : c.calls[k]? = some (i, rest)) :
    (E.job i).Leaves (repliesTo k c.history) rest := by
  induction h generalizing i rest with
  | start s hs => cases hk
  | @step c c' h hs ih =>
    cases hs with
    | begin new =>
      rw [repliesTo_quiet rfl]
      rcases Nat.lt_or_ge k c.calls.length with hlt | hge
      · rw [List.getElem?_append_left hlt] at hk
        exact ih hk
      · rw [List.getElem?_append_right hge] at hk
        obtain ⟨rfl, rfl⟩ := Prod.mk.inj (List.mem_singleton.1 (List.mem_of_getElem? hk))
        rw [h.repliesTo_eq_nil hge]
        exact .here _
    | change s hc =>
      rw [repliesTo_quiet rfl]
      exact ih hk
    | @answer j i' r next x s hj hx =>
      by_cases hjk : j = k
      · subst hjk
        rw [List.getElem?_set_self (List.getElem?_eq_some_iff.1 hj).1] at hk
        cases hk
        rw [repliesTo_answered]
        exact (ih hj).concat x
      · rw [List.getElem?_set_ne hjk] at hk
        rw [repliesTo_other hjk]
        exact ih hk

/-- What was given replies has begun. -/
theorem Reachable.leaves_of_mem (h : E.Reachable c) {y : Reply Engine.interface} (hy : y ∈ repliesTo k c.history) :
    ∃ i rest, (E.job i).Leaves (repliesTo k c.history) rest := by
  cases hk : c.calls[k]? with
  | none =>
    rw [h.repliesTo_eq_nil (List.getElem?_eq_none_iff.1 hk)] at hy
    cases hy
  | some call => exact ⟨call.1, call.2, h.leaves hk⟩

/-- A step adds a moment to the history. -/
theorem Step.moment {c' : Chronicle ι α} (hs : E.Step c c') :
    ∃ m : Moment, c'.history = c.history ++ [m] ∧ m.before = c.site ∧ m.after = c'.site := by
  cases hs <;> exact ⟨_, rfl, rfl, rfl⟩

/-- Back to a moment: what had happened by then is a chronicle, and the moment is a step of it. -/
theorem Reachable.cut (h : E.Reachable c) {pre post : List Moment} {m : Moment} (hm : c.history = pre ++ m :: post) :
    ∃ c₀ c₁, E.Reachable c₀ ∧ E.Step c₀ c₁ ∧ c₀.history = pre ∧ c₁.history = pre ++ [m] ∧ c₀.site = m.before ∧
      c₁.site = m.after := by
  induction h generalizing post with
  | start s hs => exact absurd hm.symm (by simp)
  | @step c c' h hs ih =>
    obtain ⟨last, hlast, hbefore, hafter⟩ := hs.moment
    rcases concat_eq_append (hlast.symm.trans hm) with ⟨-, rfl, rfl⟩ | ⟨between, -, hpre⟩
    · exact ⟨c, c', h, hs, rfl, hlast, hbefore.symm, hafter.symm⟩
    · exact ih hpre

/-- After the last moment the site is as that moment left it. -/
theorem Reachable.site_eq (h : E.Reachable c) {pre : List Moment} {m : Moment} (hm : c.history = pre ++ [m]) :
    c.site = m.after := by
  cases h with
  | start s hs => exact absurd hm.symm (by simp)
  | step h hs =>
    obtain ⟨last, hlast, -, hafter⟩ := hs.moment
    cases List.append_inj_right' (hlast.symm.trans hm) rfl
    exact hafter.symm

/-- A moment begins as the one before has ended. -/
theorem Reachable.linked (h : E.Reachable c) {pre post : List Moment} {m m' : Moment} (hm : c.history = pre ++ m :: m' :: post) :
    m'.before = m.after := by
  have hm' : c.history = (pre ++ [m]) ++ m' :: post := hm.trans (List.append_cons ..)
  obtain ⟨c₀, -, h₀, -, hpre, -, hbefore, -⟩ := h.cut hm'
  exact hbefore.symm.trans (h₀.site_eq hpre)

/-- What happens at a moment: a call begins, and was given no replies before; or the site changes; or a call is given a
reply, which is what the site answers to a request that was left of it. -/
theorem Reachable.moment (h : E.Reachable c) {pre post : List Moment} {m : Moment} (hm : c.history = pre ++ m :: post) :
    (∃ k, m.happening = .begun k ∧ m.after = m.before ∧ repliesTo k pre = []) ∨
      (m.happening = .changed ∧ E.Change m.before m.after) ∨
      ∃ (k : Nat) (r : Request) (x : r.Answer), m.happening = .answered k ⟨r, x⟩ ∧ Site.answer r m.before = (x, m.after) ∧
        ∃ i next, (E.job i).Leaves (repliesTo k pre) (.ask r next) := by
  obtain ⟨c₀, c₁, h₀, hs, rfl, hhistory, -, -⟩ := h.cut hm
  cases hs with
  | begin i =>
    cases List.append_inj_right' hhistory rfl
    exact .inl ⟨_, rfl, rfl, h₀.repliesTo_eq_nil (Nat.le_refl _)⟩
  | change s hc =>
    cases List.append_inj_right' hhistory rfl
    exact .inr (.inl ⟨rfl, hc⟩)
  | answer hk hx =>
    cases List.append_inj_right' hhistory rfl
    exact .inr (.inr ⟨_, _, _, rfl, hx, _, _, h₀.leaves hk⟩)

theorem Reachable.answered (h : E.Reachable c) {pre post : List Moment} {m : Moment} (hm : c.history = pre ++ m :: post)
    {r : Request} {x : r.Answer} (hx : m.happening = .answered k ⟨r, x⟩) :
    Site.answer r m.before = (x, m.after) ∧ ∃ i next, (E.job i).Leaves (repliesTo k pre) (.ask r next) := by
  rcases h.moment hm with ⟨j, hj, -⟩ | ⟨hc, -⟩ | ⟨j, r', x', hj, hanswer⟩
  · cases hx.symm.trans hj
  · cases hx.symm.trans hc
  · cases hx.symm.trans hj
    exact hanswer

theorem Reachable.repliesTo_before (h : E.Reachable c) {pre post : List Moment} {m : Moment} (hm : c.history = pre ++ m :: post)
    (hbegun : m.happening = .begun k) : repliesTo k pre = [] := by
  rcases h.moment hm with ⟨j, hj, -, hnone⟩ | ⟨hc, -⟩ | ⟨j, r', x', hj, -⟩
  · cases hbegun.symm.trans hj
    exact hnone
  · cases hbegun.symm.trans hc
  · cases hbegun.symm.trans hj

/-- Every call has begun. -/
theorem Reachable.begun (h : E.Reachable c) (hk : k < c.calls.length) :
    ∃ pre m post, c.history = pre ++ m :: post ∧ m.happening = .begun k := by
  induction h with
  | start s hs => exact absurd hk (Nat.not_lt_zero k)
  | @step c c' h hs ih =>
    have longer (hk : k < c.calls.length) : ∃ pre m post, c'.history = pre ++ m :: post ∧ m.happening = .begun k := by
      obtain ⟨last, hlast, -, -⟩ := hs.moment
      obtain ⟨pre, m, post, hm, hbegun⟩ := ih hk
      exact ⟨pre, m, post ++ [last], by rw [hlast, hm, List.append_assoc, List.cons_append], hbegun⟩
    cases hs with
    | begin i =>
      rcases Nat.lt_or_ge k c.calls.length with hlt | hge
      · exact longer hlt
      · rw [List.length_append, List.length_singleton] at hk
        obtain rfl : k = c.calls.length := by omega
        exact ⟨c.history, _, [], rfl, rfl⟩
    | change s hc => exact longer hk
    | answer hj hx =>
      rw [List.length_set] at hk
      exact longer hk

end Setting

end Host

end Lifecycle
