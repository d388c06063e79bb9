import Mathlib.Data.List.Nodup

/-!
# Lists with keys

In a list whose elements have keys of their own a key finds its element. They go on having keys of their own when an element
takes the place of the one of its key.
-/

namespace Lifecycle

variable {α κ : Type} [DecidableEq κ] {key : α → κ} {k : κ} {a b : α} {l : List α}

theorem find?_key_iff (h : (l.map key).Nodup) : l.find? (key · == k) = some a ↔ a ∈ l ∧ key a = k := by
  constructor
  · intro hf
    exact ⟨List.mem_of_find?_eq_some hf, by simpa using List.find?_some hf⟩
  · rintro ⟨ha, rfl⟩
    have hsome : (l.find? (key · == key a)).isSome = true := List.find?_isSome.2 ⟨a, ha, by simp⟩
    obtain ⟨found, hfound⟩ := Option.isSome_iff_exists.1 hsome
    have hkey : key found = key a := by simpa using List.find?_some hfound
    rw [hfound, List.inj_on_of_nodup_map h (List.mem_of_find?_eq_some hfound) ha hkey]

/-- The list with `a` in place of the element of its key. -/
def putKeyed (key : α → κ) (a : α) (l : List α) : List α :=
  if l.any (key · == key a) then l.map fun b => if key b == key a then a else b else l ++ [a]

theorem mem_putKeyed : b ∈ putKeyed key a l ↔ b = a ∨ b ∈ l ∧ key b ≠ key a := by
  unfold putKeyed
  split
  · rename_i hany
    obtain ⟨old, hold, hkey⟩ := List.any_eq_true.1 hany
    rw [List.mem_map]
    constructor
    · rintro ⟨x, hx, rfl⟩
      split
      · exact .inl rfl
      · rename_i hne
        exact .inr ⟨hx, by simpa using hne⟩
    · rintro (rfl | ⟨hb, hne⟩)
      · exact ⟨old, hold, if_pos hkey⟩
      · exact ⟨b, hb, if_neg (by simpa using hne)⟩
  · rename_i hnone
    rw [List.any_eq_true] at hnone
    rw [List.mem_append, List.mem_singleton]
    constructor
    · rintro (hb | rfl)
      · exact .inr ⟨hb, fun hkey => hnone ⟨b, hb, by simpa using hkey⟩⟩
      · exact .inl rfl
    · rintro (rfl | ⟨hb, -⟩)
      · exact .inr rfl
      · exact .inl hb

theorem nodup_putKeyed (h : (l.map key).Nodup) : ((putKeyed key a l).map key).Nodup := by
  unfold putKeyed
  split
  · have hkeys : (l.map fun b => if key b == key a then a else b).map key = l.map key := by
      rw [List.map_map]
      refine List.map_congr_left fun b _ => ?_
      by_cases hb : key b = key a <;> simp [hb]
    rw [hkeys]
    exact h
  · rename_i hnone
    rw [List.map_append]
    refine List.nodup_append.2 ⟨h, List.nodup_singleton _, ?_⟩
    rintro x hx y hy rfl
    obtain ⟨b, hb, hkey⟩ := List.mem_map.1 hx
    refine hnone (List.any_eq_true.2 ⟨b, hb, beq_iff_eq.2 ?_⟩)
    exact hkey.trans (List.mem_singleton.1 hy)

/-- The key finds what was put last under it, and no other key finds anything else than before. -/
theorem find?_putKeyed : (putKeyed key a l).find? (key · == k) = if key a = k then some a else l.find? (key · == k) := by
  unfold putKeyed
  split
  · rename_i hany
    have hkeys : (fun b => key (if key b == key a then a else b) == k) = (key · == k) := by
      funext b
      by_cases hb : key b = key a <;> simp [hb]
    rw [List.find?_map, Function.comp_def, hkeys]
    by_cases hk : key a = k
    · subst hk
      obtain ⟨found, hfound⟩ := Option.isSome_iff_exists.1 (List.find?_isSome.2 (List.any_eq_true.1 hany))
      rw [hfound, if_pos rfl, Option.map_some, if_pos (by simpa using List.find?_some hfound)]
    · rw [if_neg hk]
      cases hfound : l.find? (key · == k) with
      | none => rfl
      | some b =>
        have hb : key b = k := by simpa using List.find?_some hfound
        rw [Option.map_some, if_neg (by rw [hb]; simpa using Ne.symm hk)]
  · rename_i hnone
    rw [List.find?_append]
    by_cases hk : key a = k
    · subst hk
      have habsent : l.find? (key · == key a) = none :=
        List.find?_eq_none.2 fun b hb hkey => hnone (List.any_eq_true.2 ⟨b, hb, hkey⟩)
      rw [habsent, if_pos rfl]
      simp
    · rw [if_neg hk, List.find?_cons_of_neg (by simpa using hk), List.find?_nil, Option.or_none]

end Lifecycle
