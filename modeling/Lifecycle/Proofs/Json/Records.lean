import Lifecycle.Json.Record
import Lifecycle.Proofs.Json.Drafts

/-!
# Records read back

What decoders make of complete drafts: of a text the text, of a list its items, and of an object a record, if every field
is among its members and no member is anything else.
-/

namespace Lifecycle.Json

variable {α β : Type}

/-- The decoder takes every complete draft of the value for `a`, as far as the levels allow. -/
def Decoder.Yields (dec : Decoder α) (j : Json) (a : α) : Prop :=
  ∀ ⦃levels : Levels⦄ ⦃d : Draft⦄, Holds d j → levels.Allow j.depth → dec levels d = .ok a

namespace Decoder

/-! ### Plain values, lists and names -/

theorem yields_json {j : Json} (h : j.InOrder) : json.Yields j j := fun _ _ hd hl => hd.json h hl

theorem yields_string (s : String) : string.Yields (.str s) s := by
  intro levels d hd _
  cases hd
  rfl

theorem yields_boolean (b : Bool) : boolean.Yields (.bool b) b := by
  intro levels d hd _
  cases hd
  rfl

theorem yields_unsigned {bits n : Nat} (h : n < 2 ^ bits) : (unsigned bits).Yields (.int n) n := by
  intro levels d hd _
  cases hd
  exact if_pos ⟨Int.natCast_nonneg n, Int.ofNat_lt.2 h⟩

theorem yields_variant {table : List (String × α)} {name : String} {a : α} (h : table.lookup name = some a) :
    (variant table).Yields (.str name) a := by
  intro levels d hd _
  cases hd
  show pick table name _ = _
  unfold pick
  rw [h]

theorem Yields.optional {dec : Decoder α} {j : Json} {a : α} (h : dec.Yields j a) (hj : j ≠ .null) :
    dec.optional.Yields j (some a) := by
  intro levels d hd hl
  have ha := h hd hl
  cases hd with
  | null => exact absurd rfl hj
  | _ =>
    show (dec levels _).map some = _
    rw [ha]
    rfl

theorem yields_nothing (dec : Decoder α) : dec.optional.Yields .null none := by
  intro levels d hd _
  cases hd
  rfl

theorem items_of_holds {dec : Decoder β} {f : α → Json} {g : α → β} {as : List α} (h : ∀ a ∈ as, dec.Yields (f a) (g a))
    {ds : List Draft} (hd : HoldsItems ds (as.map f)) {levels : Levels} (hl : levels.Allow (depthItems (as.map f))) :
    items dec levels ds = .ok (as.map g) := by
  induction as generalizing ds with
  | nil =>
    cases hd
    rfl
  | cons a as ih =>
    cases hd with
    | cons hfirst hrest =>
      have ha := h a List.mem_cons_self hfirst (hl.mono (Nat.le_max_left _ _))
      have has := ih (fun b hb => h b (List.mem_cons_of_mem a hb)) hrest (hl.mono (Nat.le_max_right _ _))
      simp only [items, ha, has]
      rfl

theorem yields_list {dec : Decoder β} {f : α → Json} {g : α → β} {as : List α} (h : ∀ a ∈ as, dec.Yields (f a) (g a)) :
    (list dec).Yields (.arr (as.map f)) (as.map g) := by
  intro levels d hd hl
  cases hd with
  | arr before close hitems =>
    obtain ⟨inner, henter, hi⟩ := hl.enter before
    show (levels.enter before >>= fun inner => _) = _
    rw [henter]
    show (items dec inner _ >>= fun values => Except.ok values) = _
    rw [items_of_holds h hitems hi]
    rfl

theorem items_json (levels : Levels) (ds : List Draft) : items json levels ds = Draft.jsonItems levels ds := by
  induction ds with
  | nil => rfl
  | cons d ds ih => simp only [items, Draft.jsonItems, ih, json]

theorem entries_json (levels : Levels) (ms : DraftMembers) : entries json levels ms = Draft.jsonMembers levels ms := by
  induction ms with
  | nil => rfl
  | cons m ms ih =>
    obtain ⟨name, d⟩ := m
    simp only [entries, Draft.jsonMembers, ih, json]

theorem yields_members {ms : Members} (h : (Json.obj ms).InOrder) : members.Yields (.obj ms) ms := by
  intro levels d hd hl
  cases hd with
  | @obj before close ds _ hmembers =>
    obtain ⟨inner, henter, hi⟩ := hl.enter before
    have hmap : map json levels (.obj before ds (.ok close)) = .ok ms := by
      show (levels.enter before >>= fun inner => _) = _
      rw [henter]
      show (entries json inner _ >>= fun values => Except.ok values) = _
      rw [entries_json, hmembers.json h.2 hi]
      rfl
    rw [members, hmap]
    show Except.ok (Members.ofList ms) = _
    rw [Members.ofList_of_ordered h.1]

end Decoder

/-! ### Fields -/

namespace Fields

/-- The fields are read as `a` from every complete draft of the members. -/
def Yields (f : Fields α) (ms : Members) (a : α) : Prop :=
  ∀ ⦃levels : Levels⦄ ⦃ds : DraftMembers⦄, HoldsMembers ds ms → levels.Allow (depthMembers ms) → f.named levels ds = .ok a

theorem find_of_lookup (name : String) {ds : DraftMembers} {ms : Members} (h : HoldsMembers ds ms) :
    (∀ j, ms.lookup name = some j → ∃ i d, find [name] ds = some (i, d) ∧ Holds d j ∧ j.depth ≤ depthMembers ms) ∧
      (ms.lookup name = none → find [name] ds = none) := by
  match h with
  | .nil =>
    refine ⟨fun j hj => ?_, fun _ => rfl⟩
    cases hj
  | @HoldsMembers.cons k d j ds ms hd hs =>
    obtain ⟨there, absent⟩ := find_of_lookup name hs
    have hk : ((Except.ok k : Except Fault String).toOption.any [name].contains) = (name == k) := by
      show [name].contains k = _
      rw [List.contains_cons, List.contains_nil, Bool.or_false, BEq.comm]
    unfold find
    rw [hk, List.lookup_cons]
    cases name == k with
    | true =>
      refine ⟨fun i hi => ?_, fun hn => nomatch hn⟩
      cases hi
      exact ⟨0, d, rfl, hd, Nat.le_max_left _ _⟩
    | false =>
      refine ⟨fun i hi => ?_, fun hn => ?_⟩
      · obtain ⟨n, e, he, hheld, hdepth⟩ := there i hi
        refine ⟨n + 1, e, ?_, hheld, Nat.le_trans hdepth (Nat.le_max_right _ _)⟩
        simp [he]
      · simp [absent hn]

theorem yields_field {name : String} {dec : Decoder α} {absent : Option α} {ms : Members} {j : Json} {a : α}
    (hj : ms.lookup name = some j) (h : dec.Yields j a) : (field [name] dec absent).Yields ms a := by
  intro levels ds hds hl
  obtain ⟨i, d, hfind, hheld, hdepth⟩ := (find_of_lookup name hds).1 j hj
  have ha := h hheld (hl.mono hdepth)
  simp only [field, hfind, ha]
  rfl

theorem yields_absent {name : String} {dec : Decoder α} {ms : Members} {a : α} (hj : ms.lookup name = none) :
    (field [name] dec (some a)).Yields ms a := by
  intro levels ds hds _
  simp only [field, (find_of_lookup name hds).2 hj]

theorem Yields.map {x : Fields α} {ms : Members} {a : α} (h : x.Yields ms a) (f : α → β) : (f <$> x).Yields ms (f a) := by
  intro levels ds hds hl
  show (x.named levels ds).map f = _
  rw [h hds hl]
  rfl

theorem Yields.seq {x : Fields (α → β)} {y : Fields α} {ms : Members} {f : α → β} {a : α} (hx : x.Yields ms f)
    (hy : y.Yields ms a) : (x <*> y).Yields ms (f a) := by
  intro levels ds hds hl
  show Ranked.both (fun f a => f a) (x.named levels ds) (y.named levels ds) = _
  rw [hx hds hl, hy hds hl]
  rfl

/-- Members under the usual names of fields, each once, are no strays. -/
theorem strays_of_holds {names : List (List String)} {strict : Bool} {mark : Mark} {ds : DraftMembers} {ms : Members}
    (h : HoldsMembers ds ms) (i : Nat) {seen : List String} (known : ∀ k ∈ ms.map (·.1), usual names k = some k)
    (once : (ms.map (·.1)).Nodup) (fresh : ∀ k ∈ ms.map (·.1), k ∉ seen) : strays names strict mark i seen ds = .ok () := by
  match h with
  | .nil => rfl
  | @HoldsMembers.cons k d j _ ms hd hs =>
    obtain ⟨hk, known⟩ := List.forall_mem_cons.1 known
    obtain ⟨hf, fresh⟩ := List.forall_mem_cons.1 fresh
    obtain ⟨hnew, once⟩ := List.nodup_cons.1 once
    have hseen : ¬ seen.contains k = true := by simpa using hf
    unfold strays
    simp only [hk]
    rw [if_neg hseen]
    refine strays_of_holds hs (i + 1) known once fun l hl hmem => ?_
    rcases List.mem_cons.1 hmem with rfl | hmem
    · exact hnew hl
    · exact fresh l hl hmem

/-- An object whose members are fields, by ascending names, is read as a record. -/
theorem Yields.record {fields : Fields α} {ms : Members} {a : α} (h : fields.Yields ms a) (title : String) (strict : Bool)
    (names : List String) (hnames : ms.map (·.1) = names) (known : ∀ k ∈ names, usual fields.names k = some k)
    (ordered : names.Pairwise (· < ·)) : (fields.record title strict).Yields (.obj ms) a := by
  have once := (Members.ordered_of_names names hnames ordered).nodup
  subst hnames
  intro levels d hd hl
  cases hd with
  | @obj before close ds _ hmembers =>
    obtain ⟨inner, henter, hi⟩ := hl.enter before
    have hstrays : strays fields.names strict before 0 [] ds = .ok () := strays_of_holds hmembers 0 known once (by simp)
    show (levels.enter before >>= fun inner => _) = _
    rw [henter]
    show (Ranked.both (fun _ a => a) (Ranked.both (fun _ _ => ()) (strays fields.names strict before 0 [] _) (.ok ()))
      (fields.named inner _)).mapError _ = _
    rw [hstrays, h hmembers hi]
    rfl

end Fields

end Lifecycle.Json
