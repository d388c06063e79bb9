import Lifecycle.Proofs.Json.Drafts

/-!
# Numbers of a text

The integers that are read from a text fit in 64 bits, signed or unsigned; every other number is one of the binary format.
-/

namespace Lifecycle.Json

/-- A number that a text can hold. -/
def Num.Bounded : Num → Prop
  | .int n => -(Text.int64Bound : Int) ≤ n ∧ n < Text.nat64Bound
  | .double _ => True

/-! ### Scanning -/

/-- What is read is a number that a text can hold. -/
def NumberReading.Bounded (r : NumberReading) : Prop := ∀ n rest, r = .ok (.ok n, rest) → n.Bounded

theorem significandBound_pos : 0 < significandBound := Nat.two_pow_pos 64

theorem readSignificand_lt {n : Nat} (h : n < significandBound) (cs : List Char) :
    (readSignificand n cs).1 < significandBound := by
  induction cs generalizing n with
  | nil => exact h
  | cons c cs ih =>
    unfold readSignificand
    split
    · split
      · rename_i hlt
        exact ih hlt
      · exact h
    · exact h

theorem bounded_decimalNumber (negative : Bool) (significand : Nat) (exponent : Int) (rest : List Char) :
    (decimalNumber negative significand exponent rest).Bounded := by
  intro n _ h
  unfold decimalNumber at h
  split at h <;> cases h
  trivial

theorem bounded_readExponent (negative : Bool) (significand : Nat) (start : Int) (cs : List Char) :
    (readExponent negative significand start cs).Bounded := by
  unfold readExponent
  dsimp only
  split
  · nofun
  split
  · nofun
  split
  · exact bounded_decimalNumber _ _ _ _
  · intro n _ h
    rcases ite_eq_iff.1 (Prod.mk.inj (Except.ok.inj h)).1 with ⟨-, hn⟩ | ⟨-, hn⟩ <;> cases hn
    trivial

theorem bounded_readAfterFraction (negative : Bool) (significand : Nat) (exponent : Int) (cs : List Char) :
    (readAfterFraction negative significand exponent cs).Bounded := by
  unfold readAfterFraction
  split
  · split
    · exact bounded_readExponent _ _ _ _
    · exact bounded_decimalNumber _ _ _ _
  · exact bounded_decimalNumber _ _ _ _

theorem bounded_readFraction (negative : Bool) (significand : Nat) (exponent : Int) (cs : List Char) :
    (readFraction negative significand exponent cs).Bounded := by
  unfold readFraction
  split
  · nofun
  split
  · nofun
  · exact bounded_readAfterFraction _ _ _ _

/-- A whole number is an integer only if it fits. -/
theorem bounded_readAfterWhole (negative : Bool) {significand : Nat} (h : significand < significandBound) (dropped : Nat)
    (cs : List Char) : (readAfterWhole negative significand dropped cs).Bounded := by
  have whole (rest : List Char) : NumberReading.Bounded
      (if dropped ≠ 0 then decimalNumber negative significand dropped rest
        else if !negative then .ok (.ok (.int significand), rest)
        else if significand = 0 ∨ Text.int64Bound < significand then decimalNumber true significand 0 rest
        else .ok (.ok (.int (-significand)), rest)) := by
    split
    · exact bounded_decimalNumber _ _ _ _
    split
    · intro n _ hn
      cases hn
      exact ⟨by omega, by exact_mod_cast h⟩
    split
    · exact bounded_decimalNumber _ _ _ _
    · rename_i hfits
      intro n _ hn
      cases hn
      exact ⟨by omega, by omega⟩
  unfold readAfterWhole
  dsimp only
  split
  · split
    · exact bounded_readFraction _ _ _ _
    split
    · exact bounded_readExponent _ _ _ _
    · exact whole _
  · exact whole _

theorem bounded_readNumber (negative : Bool) (cs : List Char) : (readNumber negative cs).Bounded := by
  unfold readNumber
  split
  · nofun
  split
  · nofun
  · split
    · split
      · nofun
      · exact bounded_readAfterWhole negative significandBound_pos 0 _
    · exact bounded_readAfterWhole negative significandBound_pos 0 _
  · dsimp only
    exact bounded_readAfterWhole negative (readSignificand_lt significandBound_pos _) _ _

/-! ### Drafts -/

/-- Every number in the draft is one that a text can hold. -/
inductive Draft.Bounded : Draft → Prop
  | null (rest : Mark) : Bounded (.null rest)
  | bool (b : Bool) (rest : Mark) : Bounded (.bool b rest)
  | num {n : Except Fault Num} (rest : Mark) (h : ∀ m, n = .ok m → m.Bounded) : Bounded (.num n rest)
  | str (s : Except Fault String) (rest : Mark) : Bounded (.str s rest)
  | arr (before : Mark) {items : List Draft} (ending : Ending) (h : ∀ d ∈ items, Bounded d) :
    Bounded (.arr before items ending)
  | obj (before : Mark) {members : DraftMembers} (ending : Ending) (h : ∀ m ∈ members, Bounded m.2) :
    Bounded (.obj before members ending)
  | broken (before : Mark) (flaw : Flaw) : Bounded (.broken before flaw)

theorem bounded_finish {α : Type} {before : List Char} {make : α → Mark → Draft} {r : Except Flaw (α × List Char)}
    (h : ∀ a rest, r = .ok (a, rest) → (make a (some rest)).Bounded) : (Draft.finish before make r).1.Bounded := by
  match r with
  | .ok (a, rest) => exact h a rest rfl
  | .error flaw => exact .broken _ flaw

theorem bounded_number (before : List Char) {r : NumberReading} (h : r.Bounded) :
    (Draft.finish before .num (r.mapError .ofNumber)).1.Bounded := by
  refine bounded_finish fun a rest ha => .num _ fun m hm => h m rest ?_
  cases r with
  | error f => cases ha
  | ok reading =>
    cases ha
    rw [hm]

theorem bounded_item {first : Draft × Except Fault (List Char)} (h : first.1.Bounded)
    (more : List Char → List Draft × Ending × Except Fault (List Char)) (hmore : ∀ cs, ∀ d ∈ (more cs).1, d.Bounded) :
    ∀ d ∈ (match first with
      | (d, .error f) => ([d], .error f, .error f)
      | (d, .ok r) => let (ds, ending, next) := more r; (d :: ds, ending, next) :
        List Draft × Ending × Except Fault (List Char)).1, d.Bounded := by
  match first with
  | (d, .error f) => exact List.forall_mem_singleton.2 h
  | (d, .ok r) => exact List.forall_mem_cons.2 ⟨h, hmore r⟩

theorem bounded_member (name : Except Fault String) {first : Draft × Except Fault (List Char)} (h : first.1.Bounded)
    (more : List Char → DraftMembers × Ending × Except Fault (List Char)) (hmore : ∀ cs, ∀ m ∈ (more cs).1, m.2.Bounded) :
    ∀ m ∈ (match first with
      | (d, .error f) => ([(name, d)], .error f, .error f)
      | (d, .ok r) => let (ms, ending, next) := more r; ((name, d) :: ms, ending, next) :
        DraftMembers × Ending × Except Fault (List Char)).1, m.2.Bounded := by
  match first with
  | (d, .error f) => exact List.forall_mem_singleton.2 h
  | (d, .ok r) => exact List.forall_mem_cons.2 ⟨h, hmore r⟩

/-- What is read in front of a text, by induction on the fuel: a value, the items of a list, the members of an object. -/
theorem bounded_read (fuel : Nat) : (∀ cs, (readValue fuel cs).1.Bounded) ∧
    (∀ first cs, ∀ d ∈ (readItems fuel first cs).1, d.Bounded) ∧
    ∀ first cs, ∀ m ∈ (readMembers fuel first cs).1, m.2.Bounded := by
  induction fuel with
  | zero => exact ⟨fun cs => .broken _ _, by simp [readItems], by simp [readMembers]⟩
  | succ fuel ih =>
    obtain ⟨value, items, members⟩ := ih
    refine ⟨fun cs => ?_, fun first cs => ?_, fun first cs => ?_⟩
    · unfold readValue
      dsimp only
      repeat' split
      · exact .broken _ _
      · exact bounded_finish fun _ _ _ => .null _
      · exact bounded_finish fun _ _ _ => .bool _ _
      · exact bounded_finish fun _ _ _ => .bool _ _
      · exact bounded_number _ (bounded_readNumber _ _)
      · exact bounded_number _ (bounded_readNumber _ _)
      · exact bounded_finish fun _ _ _ => .str _ _
      · exact .arr _ _ (items _ _)
      · exact .obj _ _ (members _ _)
      · exact .broken _ _
    · have item (cs : List Char) := bounded_item (value cs) (readItems fuel false) (items false)
      unfold readItems
      dsimp only
      split
      · nofun
      split
      · nofun
      split
      · exact item _
      split
      · split
        · nofun
        split
        · nofun
        · exact item _
      · nofun
    · have member (name : Except Fault String) (cs : List Char) :=
        bounded_member name (value cs) (readMembers fuel false) (members false)
      have broken (name : Except Fault String) (flaw : Flaw) (ending : Ending) (next : Except Fault (List Char)) :
          ∀ m ∈ (([(name, .broken none flaw)], ending, next) : DraftMembers × Ending × Except Fault (List Char)).1,
            m.2.Bounded := List.forall_mem_singleton.2 (.broken none flaw)
      unfold readMembers
      dsimp only
      -- a member is read in the same way whether it is the first or stands behind a comma
      repeat' first | exact List.forall_mem_nil _ | exact broken _ _ _ _ | exact member _ _ | split

theorem bounded_ofText (text : String) : (Draft.ofText text).1.Bounded := (bounded_read _).1 _

end Lifecycle.Json
