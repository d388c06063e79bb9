import Lifecycle.Proofs.Host.Elapsing
import Lifecycle.Proofs.Json.RoundTrip

/-!
# Values that are alike

A condition on a field compares values that are not of one kind by their texts. The compact text tells values apart, unless there
are numbers of the binary format in them, so nothing is confused by that: every value is alike to itself and to one text.
-/

namespace Lifecycle

open Engine (Visit Outcome)
open Host (Site)

namespace Json

mutual

/-- Without numbers of the binary format, values that are numerically equal are equal. -/
theorem eq_of_same {a b : Json} (ha : a.Durable) (h : a.same b = true) : a = b := by
  match a, b with
  | .null, .null => rfl
  | .bool x, .bool y => exact congrArg bool (beq_iff_eq.1 h)
  | .num (.int m), .num (.int n) => exact congrArg int (beq_iff_eq.1 h)
  | .str s, .str t => exact congrArg str (beq_iff_eq.1 h)
  | .arr xs, .arr ys => exact congrArg arr (eq_of_sameItems ha h)
  | .obj xs, .obj ys => exact congrArg obj (eq_of_sameMembers ha.2 h)

theorem eq_of_sameItems {xs ys : List Json} (hx : DurableItems xs) (h : sameItems xs ys = true) : xs = ys := by
  match xs, ys with
  | [], [] => rfl
  | x :: xs, y :: ys =>
    obtain ⟨hfirst, hrest⟩ := Bool.and_eq_true_iff.1 h
    rw [eq_of_same hx.1 hfirst, eq_of_sameItems hx.2 hrest]

theorem eq_of_sameMembers {xs ys : Members} (hx : DurableMembers xs) (h : sameMembers xs ys = true) : xs = ys := by
  match xs, ys with
  | [], [] => rfl
  | (k, x) :: xs, (l, y) :: ys =>
    obtain ⟨hfirst, hrest⟩ := Bool.and_eq_true_iff.1 h
    obtain ⟨hname, hvalue⟩ := Bool.and_eq_true_iff.1 hfirst
    rw [beq_iff_eq.1 hname, eq_of_same hx.1 hvalue, eq_of_sameMembers hx.2 hrest]

end

end Json

namespace Handling

/-! ### Likeness -/

/-- A text as it is, and any other value in its compact text. -/
def written : Json → String
  | .str s => s
  | j => j.print

theorem written_of_no_text {j : Json} (h : j.text? = none) : written j = j.print := by
  cases j with
  | str s => cases h
  | _ => rfl

/-- Without numbers of the binary format, values are alike if they are written alike. -/
theorem alike_iff {a b : Json} (ha : a.Durable) : alike a b = true ↔ written a = written b := by
  show (a.same b || written a == written b) = true ↔ _
  rw [Bool.or_eq_true_iff, beq_iff_eq]
  refine or_iff_right_of_imp fun h => ?_
  rw [Json.eq_of_same ha h]

theorem alike_str_iff {s : String} {b : Json} : alike (.str s) b = true ↔ s = written b :=
  alike_iff trivial

theorem alike_iff_of_str {a : Json} {s : String} : alike a (.str s) = true ↔ written a = s := by
  show (a.same (.str s) || written a == s) = true ↔ _
  rw [Bool.or_eq_true_iff, beq_iff_eq]
  refine or_iff_right_of_imp fun h => ?_
  cases a with
  | str t => exact beq_iff_eq.1 h
  | num n => cases n <;> cases h
  | _ => cases h

/-- Values other than texts are alike only if they are equal. -/
theorem alike_iff_eq {a b : Json} (ha : a.Durable) (hb : b.Durable) (hta : a.text? = none) (htb : b.text? = none) :
    alike a b = true ↔ a = b := by
  rw [alike_iff ha, written_of_no_text hta, written_of_no_text htb]
  exact ⟨Json.print_injective ha hb, congrArg Json.print⟩

end Handling

namespace Host.Site

variable {s s' : Site}

/-- The condition branches by whether the field is like the value, and to no where there is none. -/
theorem visit_field {v : Visit} {field : String} {value : Json} {x : Option Json}
    (kind : v.step.kind = .condition (.fieldEquals field value)) (registered : v.record.target.type ∈ s.worker.types)
    (intime : (s.worker.source v.record.target.type).access.latency ≤ s.worker.timeouts.condition)
    (found : s.call v.record.target.type (.field v.record.target.id field) = (.ok x, s')) :
    s.visit v = (.ok (.branch (x.any fun actual => !actual.isNull && Handling.alike actual value)), s') := by
  refine visit_condition (c := .field v.record.target.id field) kind rfl registered intime found ?_
  cases x with
  | none => rfl
  | some actual => cases actual <;> rfl

end Host.Site

/-- Without numbers of the binary format, likeness is an equivalence. Values other than texts are alike only if they are equal,
texts only if they are the same, and a text is like another value if and only if it is the compact text of that value. So a
condition on a field never says yes of two different values that are no texts. -/
theorem likeness_is_an_equivalence :
    Equivalence (fun a b : {j : Json // j.Durable} => Handling.alike a b = true) ∧
    (∀ a b : Json, a.Durable → b.Durable → a.text? = none → b.text? = none → (Handling.alike a b = true ↔ a = b)) ∧
    (∀ a b : String, Handling.alike (.str a) (.str b) = true ↔ a = b) ∧
    (∀ (text : String) (b : Json), b.text? = none →
      (Handling.alike (.str text) b = true ↔ text = b.print) ∧ (Handling.alike b (.str text) = true ↔ text = b.print)) ∧
    ∀ (s : Site) (v : Visit) (field : String) (value : Json) (x : Option Json),
      v.step.kind = .condition (.fieldEquals field value) → v.record.target.type ∈ s.worker.types →
      (s.worker.source v.record.target.type).access.latency ≤ s.worker.timeouts.condition →
      (s.call v.record.target.type (.field v.record.target.id field)).1 = .ok x →
      ∃ yes, (s.visit v).1 = .ok (.branch yes) ∧
        (yes = true ↔ ∃ actual, x = some actual ∧ actual ≠ .null ∧ Handling.alike actual value = true) ∧
        ∀ actual, x = some actual → actual.Durable → value.Durable → actual.text? = none → value.text? = none →
          yes = true → actual = value := by
  refine ⟨⟨fun a => ?_, fun {a b} hab => ?_, fun {a b c} hab hbc => ?_⟩, fun a b ha hb hta htb => ?_, fun a b => ?_,
    fun text b htb => ⟨?_, ?_⟩, fun s v field value x kind registered intime found => ?_⟩
  · exact (Handling.alike_iff a.2).2 rfl
  · exact (Handling.alike_iff b.2).2 ((Handling.alike_iff a.2).1 hab).symm
  · exact (Handling.alike_iff a.2).2 (((Handling.alike_iff a.2).1 hab).trans ((Handling.alike_iff b.2).1 hbc))
  · exact Handling.alike_iff_eq ha hb hta htb
  · exact Handling.alike_str_iff
  · rw [Handling.alike_str_iff, Handling.written_of_no_text htb]
  · rw [Handling.alike_iff_of_str, Handling.written_of_no_text htb, eq_comm]
  · have hvisit := Host.Site.visit_field kind registered intime (Prod.ext found rfl)
    refine ⟨_, by rw [hvisit], ?_, fun actual hx ha hv hta htv hyes => ?_⟩
    · cases x with
      | none => simp
      | some actual => cases actual <;> simp [Json.isNull]
    · subst hx
      exact (Handling.alike_iff_eq ha hv hta htv).1 (Bool.and_eq_true_iff.1 hyes).2

namespace Lone

/-- A worker that keeps a contract with one field in its memory. -/
def holding (field : String) (value : Json) : Site where
  database := database true
  serial := 0
  worker := { worker with contracts := ⟨.memory [("1", ⟨some "draft", none, none, [(field, value)], []⟩)], {}⟩ }

/-- Whether a field of the contract is like a value. -/
def asksLike (field : String) (value : Json) : Visit :=
  { asksFor 1 with step := ⟨"c", .condition (.fieldEquals field value)⟩ }

end Lone

/-- A list with an object in it is like itself, and like its text. -/
theorem likeness_of_lone :
    let limits := Json.arr [.int 1, .obj [("max", .int 5)]]
    let s := Lone.holding "limits" limits
    Handling.alike limits (.str "[1,\x7b\"max\":5\x7d]") = true ∧
      (s.call .contract (.field "1" "limits")).1 = .ok (some limits) ∧
      (s.visit (Lone.asksLike "limits" limits)).1 = .ok (.branch true) := by
  intro limits s
  obtain ⟨likeness, -, -, text, asked⟩ := likeness_is_an_equivalence
  have found : (s.call .contract (.field "1" "limits")).1 = .ok (some limits) := rfl
  obtain ⟨yes, hvisit, hyes, -⟩ := asked s (Lone.asksLike "limits" limits) "limits" limits _ rfl (by decide) (by decide) found
  have durable : limits.Durable :=
    ⟨⟨by decide, by decide⟩, ⟨List.pairwise_singleton _ _, ⟨by decide, by decide⟩, trivial⟩, trivial⟩
  obtain rfl : yes = true := hyes.2 ⟨limits, rfl, nofun, likeness.refl ⟨limits, durable⟩⟩
  exact ⟨(text _ limits rfl).2.2 (by decide +kernel), found, hvisit⟩

end Lifecycle
