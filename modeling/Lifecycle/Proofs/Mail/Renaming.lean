import Lifecycle.Mail.Message
import Lifecycle.Proofs.Json.Renaming
import Lifecycle.Proofs.Results

/-!
# Mails with other identifiers in them

A template that is filled in from two contexts which are the same up to identifiers fails in the same way for both, or gives
texts that are spelled alike.
-/

namespace Lifecycle

open Json (Renamed Plain)
open Text (Spelled spelled_refl)

variable {C : String → String → Prop}

namespace Template

variable {context context' : Json}

theorem renamed_descend (segment : String) {j j' : Json} (h : Renamed C j j') :
    Option.Rel (Renamed C) (descend segment j) (descend segment j') := by
  cases h with
  | same j =>
    cases descend segment j with
    | none => exact .none
    | some found => exact .some (.same found)
  | identifier => exact .none
  | object h => exact h.lookup segment

/-- A path leads to the same place in both. -/
theorem renamed_lookup (h : Renamed C context context') (path : List Char) :
    Option.Rel (Renamed C) (lookup context path) (lookup context' path) := by
  have follow (parts : List (List Char)) {value value' : Option Json} (hv : Option.Rel (Renamed C) value value') :
      Option.Rel (Renamed C) (parts.foldl (fun value part => value.bind (descend (String.ofList part))) value)
        (parts.foldl (fun value part => value.bind (descend (String.ofList part))) value') := by
    induction parts generalizing value value' with
    | nil => exact hv
    | cons part parts ih =>
      refine ih ?_
      cases hv with
      | none => exact .none
      | some hj => exact renamed_descend _ hj
  exact follow (segments path) (.some h)

theorem renderFrom_unclosed {start : Nat} {rest : List Char} (h : close? rest = none) :
    renderFrom context start ('{' :: '{' :: rest) = .error (.unclosed start) := by
  rw [renderFrom.eq_2]
  split <;> simp_all

theorem renderFrom_closed {start : Nat} {rest path after : List Char} (h : close? rest = some (path, after)) :
    renderFrom context start ('{' :: '{' :: rest) = if (Text.trimChars path).isEmpty then .error .empty
      else (renderFrom context (start + 4 + bytes path) after).map (fill (lookup context (Text.trimChars path)) ++ ·) := by
  rw [renderFrom.eq_2]
  split <;> simp_all

section Filling

variable (plain : ∀ i j, C i j → Plain i ∧ Plain j)

include plain

theorem spelled_fill {value value' : Option Json} (h : Option.Rel (Renamed C) value value') :
    Spelled C (fill value) (fill value') := by
  cases h with
  | none => exact .nil
  | some h =>
    cases h with
    | same j => exact spelled_refl _
    | identifier pair =>
      have := Spelled.identifier pair .nil
      rwa [List.append_nil, List.append_nil] at this
    | object h => exact (Renamed.object h).spelled plain .nil

/-- Both are filled in, or fail, alike. -/
theorem agreed_renderFrom (h : Renamed C context context') (start : Nat) (cs : List Char) :
    Agreed (Spelled C) (renderFrom context start cs) (renderFrom context' start cs) := by
  fun_induction renderFrom context start cs with
  | case1 start =>
    rw [renderFrom]
    exact .ok .nil
  | case2 start rest hclose =>
    rw [renderFrom_unclosed hclose]
    exact .error _
  | case3 start rest path after hclose name hempty =>
    rw [renderFrom_closed hclose, if_pos hempty]
    exact .error _
  | case4 start rest path after hclose name hname ih =>
    rw [renderFrom_closed hclose, if_neg hname]
    exact ih.map fun a b hab => (spelled_fill plain (renamed_lookup h name)).append hab
  | case5 start c rest hopen ih =>
    rw [renderFrom.eq_3 _ _ _ _ hopen]
    exact ih.map fun a b hab => .char c hab

theorem agreed_render (h : Renamed C context context') (template : String) :
    Agreed (fun a b => Spelled C a.toList b.toList) (render template context) (render template context') := by
  refine (agreed_renderFrom plain h 0 template.toList).map fun a b hab => ?_
  rw [String.toList_ofList, String.toList_ofList]
  exact hab

end Filling

end Template

namespace Mail

/-- A mail like another one, with other identifiers in its texts. -/
structure Message.Renamed (C : String → String → Prop) (m m' : Message) : Prop where
  recipient : m'.recipient = m.recipient
  subject : Spelled C m.subject.toList m'.subject.toList
  content : Spelled C m.content.toList m'.content.toList

theorem Message.renamed_refl (m : Message) : m.Renamed C m := ⟨rfl, spelled_refl _, spelled_refl _⟩

theorem Message.Renamed.mono {D : String → String → Prop} (hD : ∀ i j, C i j → D i j) {m m' : Message} (h : m.Renamed C m') :
    m.Renamed D m' :=
  ⟨h.recipient, h.subject.mono hD, h.content.mono hD⟩

structure Rendered.Renamed (C : String → String → Prop) (r r' : Rendered) : Prop where
  subject : Spelled C r.subject.toList r'.subject.toList
  content : Spelled C r.content.toList r'.content.toList

theorem agreed_render (plain : ∀ i j, C i j → Plain i ∧ Plain j) (source : Source) {context context' : Json}
    (h : Renamed C context context') : Agreed (Rendered.Renamed C) (source.render context) (source.render context') :=
  ((Template.agreed_render plain h source.subject).mapError _).bind fun _ _ hsubject =>
    ((Template.agreed_render plain h source.body).mapError _).bind fun _ _ hbody => .ok ⟨hsubject, hbody⟩

end Mail

end Lifecycle
