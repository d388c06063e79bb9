import Lifecycle.Proofs.Json.Readings

/-!
# Objects with a further entry

A strict record that is read from an object has fields for all of its entries. With a further entry, wherever it stands and
whatever it holds, the object is refused for that entry: the fields overlook it, and nothing else is wrong.
-/

namespace Lifecycle.Json

variable {α β : Type}

theorem Members.insert_eq_append {name : String} {ms : Members} (value : Json) (h : name ∉ ms.map (·.1)) :
    ∃ xs ys, ms = xs ++ ys ∧ ms.insert name value = xs ++ (name, value) :: ys := by
  induction ms with
  | nil => exact ⟨[], [], rfl, rfl⟩
  | cons m ms ih =>
    obtain ⟨k, v⟩ := m
    have hk : name ≠ k := List.ne_of_not_mem_cons h
    unfold insert
    rw [if_neg hk]
    split
    · exact ⟨[], (k, v) :: ms, rfl, rfl⟩
    · obtain ⟨xs, ys, hms, hinsert⟩ := ih (List.not_mem_of_not_mem_cons h)
      exact ⟨(k, v) :: xs, ys, congrArg _ hms, congrArg _ hinsert⟩

theorem Draft.ofMembers_eq_map (ms : Members) : Draft.ofMembers ms = ms.map fun e => (.ok e.1, Draft.ofJson e.2) := by
  induction ms with
  | nil => rfl
  | cons e ms ih => exact congrArg _ ih

namespace Fields

/-! ### What the fields overlook -/

/-- An entry that is none of the fields makes no difference to what they are read as. -/
def Overlooks (f : Fields α) : Prop :=
  ∀ ⦃levels : Levels⦄ ⦃xs ys : DraftMembers⦄ ⦃key : String⦄ ⦃a : α⦄ (d : Draft), key ∉ f.names.flatten →
    f.named levels (xs ++ ys) = .ok a → f.named levels (xs ++ (.ok key, d) :: ys) = .ok a

theorem find_append_other {names : List String} {key : String} (h : key ∉ names) (d : Draft) (xs ys : DraftMembers) :
    (find names (xs ++ (.ok key, d) :: ys)).map (·.2) = (find names (xs ++ ys)).map (·.2) := by
  induction xs with
  | nil =>
    have hother : names.contains key = false := by simpa using h
    show (if names.contains key then _ else _ : Option (Nat × Draft)).map _ = _
    rw [hother, if_neg Bool.false_ne_true, Option.map_map]
    rfl
  | cons m xs ih =>
    obtain ⟨name, e⟩ := m
    rw [List.cons_append, List.cons_append, find, find]
    split
    · rfl
    · rw [Option.map_map, Option.map_map]
      exact ih

theorem overlooks_field (names : List String) (dec : Decoder α) (absent : Option α) : (field names dec absent).Overlooks := by
  intro levels xs ys key a d hkey h
  have hother : key ∉ names := by simpa [field] using hkey
  rw [named_field_iff] at h ⊢
  rwa [find_append_other hother]

theorem Overlooks.map {x : Fields α} (h : x.Overlooks) (f : α → β) : (f <$> x).Overlooks := by
  intro levels xs ys key b d hkey hread
  obtain ⟨a, ha, rfl⟩ := map_ok hread
  show (x.named levels _).map f = _
  rw [h d hkey ha]
  rfl

theorem Overlooks.seq {x : Fields (α → β)} {y : Fields α} (hx : x.Overlooks) (hy : y.Overlooks) : (x <*> y).Overlooks := by
  intro levels xs ys key b d hkey hread
  have hnames : (x <*> y).names.flatten = x.names.flatten ++ y.names.flatten := List.flatten_append
  rw [hnames, List.mem_append, not_or] at hkey
  obtain ⟨f, a, hf, ha, rfl⟩ := both_ok hread
  show Ranked.both (fun f a => f a) (x.named levels _) (y.named levels _) = _
  rw [hx d hkey.1 hf, hy d hkey.2 ha]
  rfl

/-! ### What a record does not overlook -/

theorem usual_eq_none_iff {names : List (List String)} {key : String} : usual names key = none ↔ key ∉ names.flatten := by
  unfold usual
  cases hfind : names.find? (·.contains key) with
  | none =>
    refine iff_of_true rfl fun hmem => ?_
    obtain ⟨group, hgroup, hkey⟩ := List.mem_flatten.1 hmem
    exact List.find?_eq_none.1 hfind group hgroup (List.contains_iff_mem.2 hkey)
  | some group =>
    have hkey : key ∈ group := by simpa using List.find?_some hfind
    refine iff_of_false ?_ fun hnot => hnot (List.mem_flatten.2 ⟨group, List.mem_of_find?_eq_some hfind, hkey⟩)
    cases group with
    | nil => cases hkey
    | cons name group => exact nofun

/-- The names of fields as they are told. -/
def told (names : List (List String)) : List String := names.flatMap (·.mergeSort (· ≤ ·))

theorem mem_told {names : List (List String)} {key : String} : key ∈ told names ↔ key ∈ names.flatten := by
  simp only [told, List.mem_flatMap, List.mem_mergeSort, List.mem_flatten]

theorem told_single (names : List String) : told (names.map fun name => [name]) = names := by
  induction names with
  | nil => rfl
  | cons name names ih =>
    rw [told, List.map_cons, List.flatMap_cons, List.mergeSort_singleton, ← told, ih, List.singleton_append]

section Strays

variable {names : List (List String)} {mark : Mark}

/-- One step further, where the entry is a field that did not occur before. -/
theorem strays_cons_ok {i : Nat} {seen : List String} {m : Except Fault String × Draft} {ds : DraftMembers}
    (h : strays names true mark i seen (m :: ds) = .ok ()) : ∃ key name, m.1 = .ok key ∧ usual names key = some name ∧
      seen.contains name = false ∧ strays names true mark (i + 1) (name :: seen) ds = .ok () := by
  obtain ⟨name, d⟩ := m
  cases name with
  | error f => cases h
  | ok key =>
    unfold strays at h
    cases husual : usual names key with
    | none => simp [husual] at h
    | some name =>
      simp only [husual] at h
      split at h
      · cases h
      · rename_i hseen
        exact ⟨key, name, rfl, husual, Bool.eq_false_iff.2 hseen, h⟩

theorem mem_told_of_strays {i : Nat} {seen : List String} {ms : Members}
    (h : strays names true mark i seen (Draft.ofMembers ms) = .ok ()) : ∀ key ∈ ms.map (·.1), key ∈ told names := by
  induction ms generalizing i seen with
  | nil => simp
  | cons e ms ih =>
    obtain ⟨key, name, hkey, husual, -, hrest⟩ := strays_cons_ok h
    cases hkey
    refine List.forall_mem_cons.2 ⟨?_, ih hrest⟩
    by_contra hnot
    rw [usual_eq_none_iff.2 (mt mem_told.2 hnot)] at husual
    cases husual

/-- The first entry that is no field is the fault, if there is no other one before it. -/
theorem strays_append_other {i : Nat} {seen : List String} {key : String} (d : Draft) {xs ys : DraftMembers}
    (h : strays names true mark i seen (xs ++ ys) = .ok ()) (hkey : key ∉ told names) :
    strays names true mark i seen (xs ++ (.ok key, d) :: ys) =
      .error (i + xs.length, ⟨.misfit (.unknownField key (told names)), mark, 0⟩) := by
  induction xs generalizing i seen with
  | nil =>
    rw [List.nil_append, strays, usual_eq_none_iff.2 (mt mem_told.2 hkey)]
    rfl
  | cons m xs ih =>
    obtain ⟨name, e⟩ := m
    obtain ⟨k, usualName, hk, husual, hseen, hrest⟩ := strays_cons_ok h
    cases hk
    have hlater := ih hrest
    rw [List.cons_append, strays, husual]
    dsimp only
    rw [hseen, if_neg Bool.false_ne_true, hlater, List.length_cons, Nat.add_assoc, Nat.add_comm 1]

end Strays

/-! ### Strict records -/

/-- What a strict record is read as from an object that comes from no text. -/
theorem ofValue_record (fields : Fields α) (title : String) (ms : Members) :
    (fields.record title true).ofValue (.obj ms) =
      (Ranked.both (fun _ a => a) (Ranked.both (fun _ _ => ()) (strays fields.names true none 0 [] (Draft.ofMembers ms)) (.ok ()))
        (fields.named none (Draft.ofMembers ms))).mapError fun e => if e.2.rest.isNone then { e.2 with rest := none } else e.2 :=
  rfl

end Fields

/-- Of the objects that the decoder reads, all members have names among `keys`; and with a further member under any other
name such an object is refused for that name. -/
def Decoder.Strict (dec : Decoder α) (keys : List String) : Prop :=
  ∀ ⦃ms : Members⦄ ⦃a : α⦄, dec.ofValue (.obj ms) = .ok a → (∀ key ∈ ms.map (·.1), key ∈ keys) ∧
    ∀ key value, key ∉ keys → dec.ofValue (.obj (ms.insert key value)) = .error ⟨.misfit (.unknownField key keys), none, 0⟩

theorem Fields.Overlooks.strict {fields : Fields α} (h : fields.Overlooks) (title : String) {keys : List String}
    (hkeys : told fields.names = keys) : (fields.record title true).Strict keys := by
  subst hkeys
  intro ms a hread
  rw [ofValue_record] at hread
  obtain ⟨_, b, hclosed, hnamed, rfl⟩ := both_ok (mapError_ok hread)
  obtain ⟨_, _, hstrays, -, -⟩ := both_ok hclosed
  have hknown := mem_told_of_strays hstrays
  refine ⟨hknown, fun key value hkey => ?_⟩
  obtain ⟨xs, ys, rfl, hinsert⟩ := Members.insert_eq_append value fun hmem => hkey (hknown key hmem)
  have happend (xs ys : Members) : Draft.ofMembers (xs ++ ys) = Draft.ofMembers xs ++ Draft.ofMembers ys := by
    simp only [Draft.ofMembers_eq_map, List.map_append]
  rw [happend] at hstrays hnamed
  rw [ofValue_record, hinsert, happend]
  show (Ranked.both _ (Ranked.both _ (strays fields.names true none 0 [] (_ ++ (.ok key, _) :: Draft.ofMembers ys)) _)
    (fields.named none (_ ++ (.ok key, _) :: Draft.ofMembers ys))).mapError _ = _
  rw [strays_append_other _ hstrays hkey, h _ (mt mem_told.2 hkey) hnamed]
  rfl

end Lifecycle.Json
