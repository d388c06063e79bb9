import Lifecycle.Proofs.Json.Records
import Lifecycle.Proofs.Json.Scalars

/-!
# Values read back from their texts

A value without doubles, with whole numbers of 64 bits and with the members of its objects in order is the one that its
text holds: `parse_print`. The reader needs no more fuel than twice the length of the text.
-/

namespace Lifecycle.Json

open Text (digit?)

/-! ### Fuel -/

mutual

/-- The fuel that is needed to read the text of a value. -/
def fuel : Json → Nat
  | .arr items => fuelItems items + 1
  | .obj members => fuelMembers members + 1
  | _ => 1

def fuelItems : List Json → Nat
  | [] => 1
  | j :: rest => max (fuel j) (fuelItems rest) + 1

def fuelMembers : List (String × Json) → Nat
  | [] => 1
  | (_, j) :: rest => max (fuel j) (fuelMembers rest) + 1

end

theorem fuel_pos (j : Json) : 0 < j.fuel := by
  cases j <;> simp [fuel]

/-! ### The shape of texts -/

/-- What follows the first item of a list. -/
def printItemsTail (items : List Json) (rest : List Char) : List Char :=
  match items with
  | [] => rest
  | _ :: _ => ',' :: printItems items rest

theorem printItems_cons (j : Json) (items : List Json) (rest : List Char) :
    printItems (j :: items) rest = printOnto j (printItemsTail items rest) := by
  cases items <;> rfl

/-- What follows the first member of an object. -/
def printMembersTail (members : List (String × Json)) (rest : List Char) : List Char :=
  match members with
  | [] => rest
  | _ :: _ => ',' :: printMembers members rest

theorem printMembers_cons (k : String) (j : Json) (members : List (String × Json)) (rest : List Char) :
    printMembers ((k, j) :: members) rest = quote k ++ ':' :: printOnto j (printMembersTail members rest) := by
  cases members <;> rfl

theorem stops_cons {c : Char} (cs : List Char) (h : c = ',' ∨ c = ']' ∨ c = '}') : Stops (c :: cs) := by
  rcases h with rfl | rfl | rfl <;> exact ⟨by decide, by decide, by decide, by decide⟩

theorem stops_printItemsTail (items : List Json) (rest : List Char) : Stops (printItemsTail items (']' :: rest)) := by
  cases items with
  | nil => exact stops_cons rest (by simp)
  | cons j items => exact stops_cons _ (by simp)

theorem stops_printMembersTail (members : List (String × Json)) (rest : List Char) :
    Stops (printMembersTail members ('}' :: rest)) := by
  cases members with
  | nil => exact stops_cons rest (by simp)
  | cons e members => exact stops_cons _ (by simp)

theorem print_int (n : Int) : (Num.int n).print.toList =
    if 0 ≤ n then Nat.toDigits 10 n.toNat else '-' :: Nat.toDigits 10 (-n).toNat := by
  show (toString n).toList = _
  rw [Int.toString_eq_repr, Int.repr_eq_if]
  split
  · exact Nat.toList_repr
  · rw [String.toList_append, Nat.toList_repr]
    rfl

/-- No blank, and no end of a list. -/
def Opens (c : Char) : Prop := c ≠ ' ' ∧ c ≠ '\n' ∧ c ≠ '\t' ∧ c ≠ '\r' ∧ c ≠ ']'

instance : DecidablePred Opens := fun c =>
  inferInstanceAs (Decidable (c ≠ ' ' ∧ c ≠ '\n' ∧ c ≠ '\t' ∧ c ≠ '\r' ∧ c ≠ ']'))

theorem opens_of_digit {c : Char} (h : (digit? c).isSome = true) : Opens c := by
  refine ⟨?_, ?_, ?_, ?_, ?_⟩ <;>
  · rintro rfl
    exact absurd h (by decide)

theorem skipBlanks_cons {c : Char} (h : Opens c) (cs : List Char) : skipBlanks (c :: cs) = c :: cs := by
  obtain ⟨h₁, h₂, h₃, h₄, -⟩ := h
  rw [skipBlanks, if_neg]
  simp [h₁, h₂, h₃, h₄]

theorem toDigits_eq_cons (n : Nat) : ∃ c cs, Nat.toDigits 10 n = c :: cs ∧ (digit? c).isSome = true := by
  cases hd : Nat.toDigits 10 n with
  | nil => exact absurd hd Nat.toDigits_ne_nil
  | cons c cs =>
    have hc : c.isDigit = true :=
      Nat.isDigit_of_mem_toDigits (b := 10) (n := n) (by decide) (by decide) (hd ▸ List.mem_cons_self)
    exact ⟨c, cs, rfl, by rw [digit?_of_isDigit hc]; rfl⟩

theorem printOnto_eq_cons {j : Json} (h : j.Durable) (rest : List Char) :
    ∃ c cs, j.printOnto rest = c :: cs ∧ Opens c := by
  match j with
  | .null => exact ⟨_, _, rfl, by decide⟩
  | .bool true => exact ⟨_, _, rfl, by decide⟩
  | .bool false => exact ⟨_, _, rfl, by decide⟩
  | .str s => exact ⟨_, _, rfl, by decide⟩
  | .arr items => exact ⟨_, _, rfl, by decide⟩
  | .obj members => exact ⟨_, _, rfl, by decide⟩
  | .num (.double d) => exact h.elim
  | .num (.int n) =>
    rw [printOnto, print_int]
    split
    · obtain ⟨c, cs, hd, hc⟩ := toDigits_eq_cons n.toNat
      exact ⟨c, cs ++ rest, by rw [hd, List.cons_append], opens_of_digit hc⟩
    · exact ⟨'-', _, rfl, by decide⟩

/-! ### Reading -/

theorem readNumber_print {n : Int} (h : (Json.num (.int n)).Durable) {rest : List Char} (hr : Stops rest) (fuel : Nat) :
    readValue (fuel + 1) ((Num.int n).print.toList ++ rest) = (.num (.ok (.int n)) (some rest), .ok rest) := by
  obtain ⟨hlow, hhigh⟩ := h
  simp only [Text.int64Bound, Text.nat64Bound] at hlow hhigh
  rw [print_int]
  split
  · rename_i hn
    have hcast : (n.toNat : Int) = n := Int.toNat_of_nonneg hn
    have hread := readNumber_digits false n.toNat hr (by simp only [significandBound, Text.nat64Bound]; omega) (by simp)
    obtain ⟨c, cs, hd, hc⟩ := toDigits_eq_cons n.toNat
    have hopen := opens_of_digit hc
    have hne : c ≠ 'n' ∧ c ≠ 't' ∧ c ≠ 'f' ∧ c ≠ '-' := by
      refine ⟨?_, ?_, ?_, ?_⟩ <;>
      · rintro rfl
        exact absurd hc (by decide)
    rw [hd, List.cons_append] at hread ⊢
    rw [readValue, skipBlanks_cons hopen]
    simp only [hne.1, hne.2.1, hne.2.2.1, hne.2.2.2, hc, hread, if_false, if_true, Bool.false_eq_true, hcast]
    rfl
  · rename_i hn
    have hcast : -((-n).toNat : Int) = n := by omega
    have hread := readNumber_digits true (-n).toNat hr (by simp only [significandBound, Text.nat64Bound]; omega)
      (fun _ => ⟨by omega, by simp only [Text.int64Bound]; omega⟩)
    rw [List.cons_append, readValue, skipBlanks_cons (by decide)]
    simp only [hread, if_true, hcast, Char.reduceEq, if_false]
    rfl

/-- One more item that is read in front of the others. -/
theorem readItems_cons {fuel : Nat} {cs r rest : List Char} {d : Draft} {ds : List Draft} {ending : Ending}
    (hcs : ∃ c cs', cs = c :: cs' ∧ Opens c) (hd : readValue fuel cs = (d, .ok r))
    (hds : readItems fuel false r = (ds, ending, .ok rest)) :
    readItems (fuel + 1) true cs = (d :: ds, ending, .ok rest) ∧
      readItems (fuel + 1) false (',' :: cs) = (d :: ds, ending, .ok rest) := by
  obtain ⟨c, cs, rfl, hc⟩ := hcs
  have hend : c ≠ ']' := hc.2.2.2.2
  constructor
  · rw [readItems, skipBlanks_cons hc]
    simp [hend, hd, hds]
  · rw [readItems, skipBlanks_cons (by decide)]
    simp [skipBlanks_cons hc, hend, hd, hds]

/-- One more member that is read in front of the others. -/
theorem readMembers_cons {fuel : Nat} {k : String} {cs r rest : List Char} {d : Draft} {ms : DraftMembers}
    {ending : Ending} (hd : readValue fuel cs = (d, .ok r))
    (hms : readMembers fuel false r = (ms, ending, .ok rest)) :
    readMembers (fuel + 1) true (quote k ++ ':' :: cs) = ((.ok k, d) :: ms, ending, .ok rest) ∧
      readMembers (fuel + 1) false (',' :: (quote k ++ ':' :: cs)) = ((.ok k, d) :: ms, ending, .ok rest) := by
  have hk : quote k ++ ':' :: cs = '"' :: (k.toList.flatMap escape ++ '"' :: ':' :: cs) := by simp [quote]
  have hs := readString_quote k (':' :: cs)
  rw [hk]
  constructor
  · rw [readMembers, skipBlanks_cons (by decide)]
    simp [hs, skipBlanks_cons (c := ':') (by decide), hd, hms]
  · rw [readMembers, skipBlanks_cons (by decide)]
    simp [hs, skipBlanks_cons (c := ':') (by decide), skipBlanks_cons (c := '"') (by decide), hd, hms]

theorem digit?_of_mark : digit? '"' = none ∧ digit? '[' = none ∧ digit? '{' = none := by decide

mutual

/-- The reader gets a value back from its text, with what follows the text. -/
theorem readValue_print (j : Json) (h : j.Durable) {rest : List Char} (hr : Stops rest) (n : Nat) (hn : j.fuel ≤ n) :
    ∃ d, readValue n (j.printOnto rest) = (d, .ok rest) ∧ Holds d j := by
  obtain ⟨n, rfl⟩ : ∃ k, n = k + 1 := ⟨n - 1, by have : 0 < j.fuel := j.fuel_pos; omega⟩
  obtain ⟨quoteMark, listMark, objectMark⟩ := digit?_of_mark
  match j with
  | .null =>
    refine ⟨.null (some rest), ?_, .null _⟩
    simp [printOnto, readValue, skipBlanks, readWord, Draft.finish]
    rfl
  | .bool true =>
    refine ⟨.bool true (some rest), ?_, .bool true _⟩
    simp [printOnto, readValue, skipBlanks, readWord, Draft.finish]
    rfl
  | .bool false =>
    refine ⟨.bool false (some rest), ?_, .bool false _⟩
    simp [printOnto, readValue, skipBlanks, readWord, Draft.finish]
    rfl
  | .num (.double d) => exact h.elim
  | .num (.int i) => exact ⟨_, readNumber_print h hr n, .num _ _⟩
  | .str s =>
    have hs := readString_quote s rest
    refine ⟨.str (.ok s) (some rest), ?_, .str s _⟩
    simp [printOnto, quote, readValue, skipBlanks_cons (c := '"') (by decide), quoteMark, hs, Draft.finish]
  | .arr items =>
    have hf : fuelItems items ≤ n := by simp only [fuel] at hn; omega
    obtain ⟨ds, hds, -, hj⟩ := readItems_print items h rest n hf
    refine ⟨.arr (some ('[' :: printItems items (']' :: rest))) ds (.ok (some (']' :: rest))), ?_, .arr _ _ hj⟩
    simp [printOnto, readValue, skipBlanks_cons (c := '[') (by decide), listMark, hds]
  | .obj members =>
    have hf : fuelMembers members ≤ n := by simp only [fuel] at hn; omega
    obtain ⟨ms, hms, -, hj⟩ := readMembers_print members h.2 rest n hf
    refine ⟨.obj (some ('{' :: printMembers members ('}' :: rest))) ms (.ok (some ('}' :: rest))), ?_, .obj _ _ hj⟩
    simp [printOnto, readValue, skipBlanks_cons (c := '{') (by decide), objectMark, hms]

/-- The items of a list, from its opening bracket on and from behind an item on. -/
theorem readItems_print (items : List Json) (h : DurableItems items) (rest : List Char) (n : Nat)
    (hn : fuelItems items ≤ n) :
    ∃ ds, readItems n true (printItems items (']' :: rest)) = (ds, .ok (some (']' :: rest)), .ok rest) ∧
      readItems n false (printItemsTail items (']' :: rest)) = (ds, .ok (some (']' :: rest)), .ok rest) ∧
      HoldsItems ds items := by
  match items with
  | [] =>
    obtain ⟨n, rfl⟩ : ∃ k, n = k + 1 := ⟨n - 1, by simp only [fuelItems] at hn; omega⟩
    refine ⟨[], ?_, ?_, .nil⟩ <;>
      simp [printItems, printItemsTail, readItems, skipBlanks]
  | j :: more =>
    simp only [fuelItems] at hn
    obtain ⟨n, rfl⟩ : ∃ k, n = k + 1 := ⟨n - 1, by omega⟩
    obtain ⟨d, hd, hj⟩ := readValue_print j h.1 (stops_printItemsTail more rest) n (by omega)
    obtain ⟨ds, -, hds, hjs⟩ := readItems_print more h.2 rest n (by omega)
    obtain ⟨first, later⟩ := readItems_cons (printOnto_eq_cons h.1 _) hd hds
    refine ⟨d :: ds, ?_, ?_, .cons hj hjs⟩
    · rw [printItems_cons]
      exact first
    · rw [printItemsTail, printItems_cons]
      exact later

/-- The members of an object, from its opening bracket on and from behind a member on. -/
theorem readMembers_print (members : List (String × Json)) (h : DurableMembers members) (rest : List Char) (n : Nat)
    (hn : fuelMembers members ≤ n) :
    ∃ ms, readMembers n true (printMembers members ('}' :: rest)) = (ms, .ok (some ('}' :: rest)), .ok rest) ∧
      readMembers n false (printMembersTail members ('}' :: rest)) = (ms, .ok (some ('}' :: rest)), .ok rest) ∧
      HoldsMembers ms members := by
  match members with
  | [] =>
    obtain ⟨n, rfl⟩ : ∃ k, n = k + 1 := ⟨n - 1, by simp only [fuelMembers] at hn; omega⟩
    refine ⟨[], ?_, ?_, .nil⟩ <;>
      simp [printMembers, printMembersTail, readMembers, skipBlanks]
  | (k, j) :: more =>
    simp only [fuelMembers] at hn
    obtain ⟨n, rfl⟩ : ∃ k, n = k + 1 := ⟨n - 1, by omega⟩
    obtain ⟨d, hd, hj⟩ := readValue_print j h.1 (stops_printMembersTail more rest) n (by omega)
    obtain ⟨ms, -, hms, hjs⟩ := readMembers_print more h.2 rest n (by omega)
    obtain ⟨first, later⟩ := readMembers_cons (k := k) hd hms
    refine ⟨(.ok k, d) :: ms, ?_, ?_, .cons k hj hjs⟩
    · rw [printMembers_cons]
      exact first
    · rw [printMembersTail, printMembers_cons]
      exact later

end

/-! ### Whole texts -/

theorem length_printItems_le (items : List Json) (rest : List Char) :
    (printItems items rest).length ≤ (printItemsTail items rest).length := by
  cases items with
  | nil => exact Nat.le_refl _
  | cons j items => exact Nat.le_succ _

theorem length_printMembers_le (members : List (String × Json)) (rest : List Char) :
    (printMembers members rest).length ≤ (printMembersTail members rest).length := by
  cases members with
  | nil => exact Nat.le_refl _
  | cons e members => exact Nat.le_succ _

mutual

/-- Twice the length of a text is fuel enough to read it. -/
theorem fuel_le (j : Json) (h : j.Durable) (rest : List Char) :
    j.fuel + 2 * rest.length ≤ 2 * (j.printOnto rest).length := by
  match j with
  | .null | .bool true | .bool false =>
    simp only [fuel, printOnto, List.length_cons]
    omega
  | .str s =>
    simp only [fuel, printOnto, quote, List.length_append, List.length_cons]
    omega
  | .num (.double d) => exact h.elim
  | .num (.int n) =>
    have hlen : 0 < (Num.int n).print.toList.length := by
      rw [print_int]
      split
      · exact Nat.length_toDigits_pos
      · exact Nat.succ_pos _
    simp only [fuel, printOnto, List.length_append]
    omega
  | .arr items =>
    have hi := fuelItems_le items h (']' :: rest)
    simp only [fuel, printOnto, List.length_cons] at hi ⊢
    omega
  | .obj members =>
    have hm := fuelMembers_le members h.2 ('}' :: rest)
    simp only [fuel, printOnto, List.length_cons] at hm ⊢
    omega

theorem fuelItems_le (items : List Json) (h : DurableItems items) (rest : List Char) :
    fuelItems items + 2 * rest.length ≤ 2 * (printItems items rest).length + 1 := by
  match items with
  | [] =>
    simp only [fuelItems, printItems]
    omega
  | j :: more =>
    have hj := fuel_le j h.1 (printItemsTail more rest)
    have hm := fuelItems_le more h.2 rest
    have htail := length_printItems_le more rest
    have hpos : 0 < fuelItems more := by cases more <;> simp [fuelItems]
    have hjpos := j.fuel_pos
    rw [printItems_cons]
    simp only [fuelItems]
    omega

theorem fuelMembers_le (members : List (String × Json)) (h : DurableMembers members) (rest : List Char) :
    fuelMembers members + 2 * rest.length ≤ 2 * (printMembers members rest).length + 1 := by
  match members with
  | [] =>
    simp only [fuelMembers, printMembers]
    omega
  | (k, j) :: more =>
    have hj := fuel_le j h.1 (printMembersTail more rest)
    have hm := fuelMembers_le more h.2 rest
    have htail := length_printMembers_le more rest
    have hpos : 0 < fuelMembers more := by cases more <;> simp [fuelMembers]
    have hjpos := j.fuel_pos
    rw [printMembers_cons]
    simp only [fuelMembers, List.length_append, List.length_cons]
    omega

end

/-- The draft of the text of a durable value holds that value. -/
theorem exists_holds_print {j : Json} (h : j.Durable) : ∃ d, Draft.ofText j.print = (d, .ok []) ∧ Holds d j := by
  have hfuel := fuel_le j h []
  obtain ⟨d, hread, hj⟩ := readValue_print j h (show Stops [] from trivial) (2 * (j.printOnto []).length + 2) (by omega)
  refine ⟨d, ?_, hj⟩
  rw [Draft.ofText, Draft.ofChars, print, String.toList_ofList, hread]

/-- The value that is read from the text of a durable one is that value, if the text is not too deep. -/
theorem parse_print {j : Json} (h : j.Durable) (hd : j.depth ≤ 127) : parse j.print = .ok j := by
  obtain ⟨d, hread, hj⟩ := exists_holds_print h
  have hjson : d.json textLevels = .ok j := hj.json h.inOrder fun n hn => by cases hn; exact hd
  rw [parse, parseWithin, hread]
  show (d.json textLevels >>= _) = _
  rw [hjson]
  rfl

/-- Values with one text are one value. -/
theorem print_injective {i j : Json} (hi : i.Durable) (hj : j.Durable) (h : i.print = j.print) : i = j := by
  obtain ⟨d, hd, holds⟩ := exists_holds_print hi
  obtain ⟨e, he, holds'⟩ := exists_holds_print hj
  rw [h, he] at hd
  cases hd
  have unbounded (n : Nat) : Levels.Allow none n := nofun
  have hread := holds.json hi.inOrder (unbounded _)
  rw [holds'.json hj.inOrder (unbounded _)] at hread
  exact (Except.ok.inj hread).symm

/-- What is made of a durable value is read from its text, if the text is not too deep. -/
theorem Decoder.Yields.ofText_print {α : Type} {dec : Decoder α} {j : Json} {a : α} (h : dec.Yields j a) (durable : j.Durable)
    (hd : j.depth ≤ 127) : dec.ofText j.print = .ok a := by
  obtain ⟨draft, hread, hj⟩ := exists_holds_print durable
  have ha : dec textLevels draft = .ok a := h hj fun n hn => by cases hn; exact hd
  rw [Decoder.ofText, hread]
  show (dec textLevels draft >>= fun a => _) = _
  rw [ha]
  rfl

end Lifecycle.Json
