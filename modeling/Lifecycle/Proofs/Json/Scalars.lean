import Lifecycle.Json.Draft
import Mathlib.Data.List.Basic

/-!
# Texts and whole numbers read back

The reader of texts undoes the escapes of the printer, and the reader of numbers gets back a whole number of 64 bits
from its digits, as long as what follows does not go on with the number.
-/

namespace Lifecycle.Json

open Text (digit? hexDigit?)

/-! ### Texts -/

theorem hexDigit?_hexChar : ∀ n < 16, hexDigit? (hexChar n) = some n := by decide

/-- A control character is written as the number it has. -/
theorem readHex_control {n : Nat} (h : n < 0x20) (rest : List Char) :
    readHex ('0' :: '0' :: hexChar (n / 16) :: hexChar (n % 16) :: rest) = .ok (n, rest) := by
  have hz : hexDigit? '0' = some 0 := by decide
  have ha := hexDigit?_hexChar (n / 16) (by omega)
  have hb := hexDigit?_hexChar (n % 16) (by omega)
  have hn : ((0 * 16 + 0) * 16 + 0) * 16 + n / 16 = n / 16 := by omega
  have hm : n / 16 * 16 + n % 16 = n := Nat.div_add_mod' n 16
  simp only [readHex, Text.numeral, hz, ha, hb, Option.bind_some, hn, hm]

theorem readUnit_control {n : Nat} (h : n < 0x20) (rest : List Char) :
    readUnit n rest = .ok (.ok (Char.ofNat n), rest) := by
  unfold readUnit
  rw [if_neg (by omega), if_pos (by omega)]

/-- The reader takes the written form of a character for the character. -/
theorem readText_escape (fuel : Nat) (acc : List Char) (c : Char) (rest : List Char) :
    readText (fuel + 1) (.ok acc) (escape c ++ rest) = readText fuel (.ok (c :: acc)) rest := by
  have named (e d : Char) (h : e ≠ 'u') (hd : namedEscape? e = some d) :
      readText (fuel + 1) (.ok acc) ('\\' :: e :: rest) = readText fuel (.ok (d :: acc)) rest := by
    rw [readText, if_neg (by decide), if_pos rfl]
    simp only [if_neg h, hd]
    rfl
  unfold escape
  by_cases h₁ : c = '"'
  · rw [if_pos h₁, h₁]
    exact named '"' '"' (by decide) (by decide)
  rw [if_neg h₁]
  by_cases h₂ : c = '\\'
  · rw [if_pos h₂, h₂]
    exact named '\\' '\\' (by decide) (by decide)
  rw [if_neg h₂]
  by_cases h₃ : c = '\n'
  · rw [if_pos h₃, h₃]
    exact named 'n' '\n' (by decide) (by decide)
  rw [if_neg h₃]
  by_cases h₄ : c = '\r'
  · rw [if_pos h₄, h₄]
    exact named 'r' '\r' (by decide) (by decide)
  rw [if_neg h₄]
  by_cases h₅ : c = '\t'
  · rw [if_pos h₅, h₅]
    exact named 't' '\t' (by decide) (by decide)
  rw [if_neg h₅]
  by_cases h₆ : c = '\x08'
  · rw [if_pos h₆, h₆]
    exact named 'b' '\x08' (by decide) (by decide)
  rw [if_neg h₆]
  by_cases h₇ : c = '\x0c'
  · rw [if_pos h₇, h₇]
    exact named 'f' '\x0c' (by decide) (by decide)
  rw [if_neg h₇]
  by_cases h₈ : c.toNat < 0x20
  · rw [if_pos h₈, List.cons_append, List.cons_append, readText, if_neg (by decide), if_pos rfl]
    simp only [if_pos, List.cons_append, List.nil_append, readHex_control h₈, Except.bind, readUnit_control h₈]
    rw [Char.ofNat_toNat]
    rfl
  · rw [if_neg h₈, List.singleton_append, readText.eq_def]
    simp only [if_neg h₁, if_neg h₂, if_neg h₈]
    rfl

theorem readText_quoted (cs rest : List Char) (acc : List Char) (fuel : Nat) (h : cs.length < fuel) :
    readText fuel (.ok acc) (cs.flatMap escape ++ '"' :: rest) = .ok (.ok (String.ofList (acc.reverse ++ cs)), rest) := by
  induction cs generalizing acc fuel with
  | nil =>
    obtain ⟨fuel, rfl⟩ : ∃ k, fuel = k + 1 := ⟨fuel - 1, by have : 0 < fuel := h; omega⟩
    rw [List.flatMap_nil, List.nil_append, readText.eq_def, List.append_nil]
    exact if_pos rfl
  | cons c cs ih =>
    rw [List.length_cons] at h
    obtain ⟨fuel, rfl⟩ : ∃ k, fuel = k + 1 := ⟨fuel - 1, by omega⟩
    rw [List.flatMap_cons, List.append_assoc, readText_escape, ih _ _ (by omega), List.reverse_cons, List.append_assoc,
      List.singleton_append]

theorem length_le_flatMap_escape (cs : List Char) : cs.length ≤ (cs.flatMap escape).length := by
  induction cs with
  | nil => exact Nat.le_refl 0
  | cons c cs ih =>
    have hc : 0 < (escape c).length := by
      unfold escape
      repeat' split
      all_goals exact Nat.succ_pos _
    rw [List.flatMap_cons, List.length_append, List.length_cons]
    omega

/-- A text between quotes is read as itself, up to its closing quote. -/
theorem readString_quote (s : String) (rest : List Char) :
    readString (s.toList.flatMap escape ++ '"' :: rest) = .ok (.ok s, rest) := by
  have hlen := length_le_flatMap_escape s.toList
  unfold readString
  rw [readText_quoted s.toList rest [] _ (by rw [List.length_append]; omega), List.reverse_nil, List.nil_append,
    String.ofList_toList]

/-! ### Whole numbers -/

/-- The text does not go on with a number. -/
def Stops : List Char → Prop
  | [] => True
  | c :: _ => digit? c = none ∧ c ≠ '.' ∧ c ≠ 'e' ∧ c ≠ 'E'

theorem digit?_digitChar : ∀ n < 10, digit? n.digitChar = some n := by decide

theorem digit?_of_isDigit {c : Char} (h : c.isDigit = true) : digit? c = some (c.toNat - '0'.toNat) := by
  simp only [Char.isDigit, Bool.and_eq_true, decide_eq_true_eq] at h
  exact if_pos h

theorem readSignificand_stop (n : Nat) {rest : List Char} (h : Stops rest) : readSignificand n rest = (n, rest) := by
  cases rest with
  | nil => rfl
  | cons c cs =>
    rw [readSignificand]
    simp only [h.1]

/-- Digits are taken as long as the number that they make is below the bound. -/
theorem readSignificand_digits (ds : List Char) (hds : ∀ c ∈ ds, c.isDigit = true) (n : Nat) {rest : List Char}
    (h : Stops rest) (hb : Nat.ofDigitChars 10 ds n < significandBound) :
    readSignificand n (ds ++ rest) = (Nat.ofDigitChars 10 ds n, rest) := by
  induction ds generalizing n with
  | nil => exact readSignificand_stop n h
  | cons c ds ih =>
    have hc := digit?_of_isDigit (hds c List.mem_cons_self)
    rw [Nat.ofDigitChars_cons] at hb ⊢
    have hle : 10 * n + (c.toNat - '0'.toNat) ≤ Nat.ofDigitChars 10 ds (10 * n + (c.toNat - '0'.toNat)) := by
      rw [Nat.ofDigitChars_eq_ofDigitChars_zero]
      have hp : 0 < 10 ^ ds.length := Nat.pow_pos (by decide)
      have hmul := Nat.le_mul_of_pos_left (10 * n + (c.toNat - '0'.toNat)) hp
      omega
    rw [List.cons_append, readSignificand]
    simp only [hc, Nat.mul_comm n 10]
    rw [if_pos (Nat.lt_of_le_of_lt hle hb)]
    exact ih (fun d hd => hds d (List.mem_cons_of_mem _ hd)) _ hb

theorem skipDigits_stop {rest : List Char} (h : Stops rest) : skipDigits rest = (0, rest) := by
  cases rest with
  | nil => rfl
  | cons c cs =>
    rw [skipDigits]
    simp only [h.1]

/-- A number that ends here is the whole number read so far. -/
theorem readAfterWhole_stop (negative : Bool) (n : Nat) {rest : List Char} (h : Stops rest)
    (hn : negative = true → n ≠ 0 ∧ n ≤ Text.int64Bound) :
    readAfterWhole negative n 0 rest = .ok (.ok (.int (if negative then -n else n)), rest) := by
  have whole : (if (0 : Nat) ≠ 0 then decimalNumber negative n (0 : Nat) rest
      else if !negative then .ok (.ok (.int n), rest)
      else if n = 0 ∨ Text.int64Bound < n then decimalNumber true n 0 rest
      else .ok (.ok (.int (-n)), rest)) = (.ok (.ok (.int (if negative then -n else n)), rest) : NumberReading) := by
    rw [if_neg (by simp)]
    cases negative with
    | false => rfl
    | true =>
      obtain ⟨hz, hb⟩ := hn rfl
      rw [if_neg (by decide), if_neg (by omega), if_pos rfl]
  unfold readAfterWhole
  cases rest with
  | nil => exact whole
  | cons c cs =>
    simp only [if_neg h.2.1, h.2.2.1, h.2.2.2, or_false, if_false]
    exact whole

theorem toDigits_head_zero {n : Nat} {ds : List Char} (h : Nat.toDigits 10 n = '0' :: ds) : n = 0 ∧ ds = [] := by
  induction n using Nat.strongRecOn generalizing ds with
  | ind n ih =>
    rw [Nat.toDigits_eq_if (by decide)] at h
    split at h
    · rename_i hn
      obtain ⟨hd, hnil⟩ := List.cons_eq_cons.1 h
      have hz := digit?_digitChar n hn
      rw [hd] at hz
      exact ⟨(Option.some.inj hz).symm, hnil.symm⟩
    · rename_i hn
      cases hh : Nat.toDigits 10 (n / 10) with
      | nil => exact absurd hh Nat.toDigits_ne_nil
      | cons c cs =>
        rw [hh, List.cons_append] at h
        obtain ⟨rfl, -⟩ := List.cons_eq_cons.1 h
        have := (ih (n / 10) (by omega) hh).1
        omega

/-- A natural number is read back from its digits, behind its sign if it has one. -/
theorem readNumber_digits (negative : Bool) (n : Nat) {rest : List Char} (h : Stops rest) (hb : n < significandBound)
    (hn : negative = true → n ≠ 0 ∧ n ≤ Text.int64Bound) :
    readNumber negative (Nat.toDigits 10 n ++ rest) = .ok (.ok (.int (if negative then -n else n)), rest) := by
  have hds : ∀ c ∈ Nat.toDigits 10 n, c.isDigit = true := fun c hc =>
    Nat.isDigit_of_mem_toDigits (by decide) (by decide) hc
  have hval : Nat.ofDigitChars 10 (Nat.toDigits 10 n) 0 = n := Nat.ofDigitChars_ten_toDigits
  cases hd : Nat.toDigits 10 n with
  | nil => exact absurd hd Nat.toDigits_ne_nil
  | cons c cs =>
    have hc := digit?_of_isDigit (hds c (by rw [hd]; exact List.mem_cons_self))
    unfold readNumber
    rw [List.cons_append]
    by_cases hz : c.toNat - '0'.toNat = 0
    · have hc0 : c = '0' := by
        have hdig := hds c (by rw [hd]; exact List.mem_cons_self)
        simp only [Char.isDigit, Bool.and_eq_true, decide_eq_true_eq] at hdig
        have hlow : '0'.toNat ≤ c.toNat := hdig.1
        exact Char.toNat_inj.1 (Nat.le_antisymm (Nat.sub_eq_zero_iff_le.1 hz) hlow)
      rw [hc0] at hd
      obtain ⟨rfl, rfl⟩ := toDigits_head_zero hd
      simp only [hc, hz, List.nil_append]
      have hend := readAfterWhole_stop negative 0 h hn
      cases rest with
      | nil => exact hend
      | cons d ds =>
        simp only [h.1, Option.isSome_none, Bool.false_eq_true, if_false]
        exact hend
    · obtain ⟨k, hk⟩ := Nat.exists_eq_succ_of_ne_zero hz
      have hsig := readSignificand_digits (c :: cs) (fun d hmem => hds d (hd ▸ hmem)) 0 h (by rw [← hd, hval]; exact hb)
      rw [← hd, hval, hd, List.cons_append] at hsig
      simp only [hc, hk, hsig, skipDigits_stop h]
      exact readAfterWhole_stop negative n h hn

end Lifecycle.Json
