import Lifecycle.Proofs.Json.Ranges
import Lifecycle.Proofs.Json.Records
import Lifecycle.Proofs.Results

/-!
# What is read from texts

What a decoder makes of a draft, however the draft is written. A value that is read from a text is no deeper than the levels
allow; and it is durable if all its numbers are whole.
-/

namespace Lifecycle.Json

variable {α β : Type}

/-! ### Whole numbers -/

mutual

/-- No number of the value is one of the binary format. -/
def whole : Json → Bool
  | .num (.double _) => false
  | .arr items => wholeItems items
  | .obj members => wholeMembers members
  | .null | .bool _ | .num (.int _) | .str _ => true

def wholeItems : List Json → Bool
  | [] => true
  | j :: rest => j.whole && wholeItems rest

def wholeMembers : List (String × Json) → Bool
  | [] => true
  | (_, j) :: rest => j.whole && wholeMembers rest

end

theorem wholeItems_iff (items : List Json) : wholeItems items = true ↔ ∀ j ∈ items, j.whole = true :=
  iff_forall_mem (P := (wholeItems · = true)) rfl (fun _ _ => Bool.and_eq_true_iff) items

theorem wholeMembers_iff (ms : Members) : wholeMembers ms = true ↔ ∀ e ∈ ms, e.2.whole = true :=
  iff_forall_mem (P := (wholeMembers · = true)) rfl (fun _ _ => Bool.and_eq_true_iff) ms

/-! ### Items and entries -/

namespace Decoder

theorem items_ok {dec : Decoder α} {levels : Levels} {ds : List Draft} {as : List α} (h : items dec levels ds = .ok as) :
    ∀ a ∈ as, ∃ d ∈ ds, dec levels d = .ok a := by
  induction ds generalizing as with
  | nil =>
    cases h
    simp
  | cons d ds ih =>
    obtain ⟨a, ha, h⟩ := bind_ok h
    obtain ⟨rest, hrest, h⟩ := bind_ok h
    cases h
    refine List.forall_mem_cons.2 ⟨⟨d, List.mem_cons_self, ha⟩, fun b hb => ?_⟩
    obtain ⟨e, he, hread⟩ := ih hrest b hb
    exact ⟨e, List.mem_cons_of_mem d he, hread⟩

theorem entries_ok {dec : Decoder α} {levels : Levels} {ds : DraftMembers} {entries : List (String × α)}
    (h : Decoder.entries dec levels ds = .ok entries) : ∀ e ∈ entries, ∃ m ∈ ds, dec levels m.2 = .ok e.2 := by
  induction ds generalizing entries with
  | nil =>
    cases h
    simp
  | cons m ds ih =>
    obtain ⟨name, d⟩ := m
    obtain ⟨k, -, h⟩ := bind_ok h
    obtain ⟨a, ha, h⟩ := bind_ok h
    obtain ⟨rest, hrest, h⟩ := bind_ok h
    cases h
    refine List.forall_mem_cons.2 ⟨⟨(name, d), List.mem_cons_self, ha⟩, fun e he => ?_⟩
    obtain ⟨m, hm, hread⟩ := ih hrest e he
    exact ⟨m, List.mem_cons_of_mem _ hm, hread⟩

end Decoder

/-! ### Values that fit -/

/-- One level deeper the levels are `inner`. -/
def Levels.Under (levels inner : Levels) : Prop := ∃ before, levels.enter before = .ok inner

theorem Levels.Under.allow {levels inner : Levels} (h : levels.Under inner) {depth : Nat} (hd : inner.Allow depth) :
    levels.Allow (depth + 1) := by
  obtain ⟨before, henter⟩ := h
  intro n hn
  subst hn
  cases n with
  | zero => cases henter
  | succ n =>
    cases henter
    exact Nat.succ_le_succ (hd n rfl)

/-- The value is no deeper than the levels allow, and durable if its numbers are whole. -/
structure Fits (levels : Levels) (j : Json) : Prop where
  durable : j.whole = true → j.Durable
  shallow : levels.Allow j.depth

theorem fits_null (levels : Levels) : Fits levels .null := ⟨fun _ => trivial, levels.allow_zero⟩

theorem fits_bool (levels : Levels) (b : Bool) : Fits levels (.bool b) := ⟨fun _ => trivial, levels.allow_zero⟩

theorem fits_str (levels : Levels) (s : String) : Fits levels (.str s) := ⟨fun _ => trivial, levels.allow_zero⟩

theorem fits_num (levels : Levels) {n : Num} (h : n.Bounded) : Fits levels (.num n) := by
  refine ⟨fun hw => ?_, levels.allow_zero⟩
  cases n with
  | int n => exact h
  | double d => cases hw

theorem fits_arr {levels : Levels} (hl : levels.Allow 1) {items : List Json}
    (h : ∀ j ∈ items, ∃ inner, levels.Under inner ∧ Fits inner j) : Fits levels (.arr items) := by
  refine ⟨fun hw => (durableItems_iff items).2 fun j hj => ?_, fun n hn => ?_⟩
  · obtain ⟨inner, -, hfits⟩ := h j hj
    exact hfits.durable ((wholeItems_iff items).1 hw j hj)
  · have hn1 : 1 ≤ n := hl n hn
    have hitems : depthItems items ≤ n - 1 := (depthItems_le_iff items (n - 1)).2 fun j hj => by
      obtain ⟨inner, hunder, hfits⟩ := h j hj
      have := hunder.allow hfits.shallow n hn
      omega
    show depthItems items + 1 ≤ n
    omega

theorem fits_obj {levels : Levels} (hl : levels.Allow 1) {ms : Members} (hms : ms.Ordered)
    (h : ∀ e ∈ ms, ∃ inner, levels.Under inner ∧ Fits inner e.2) : Fits levels (.obj ms) := by
  refine ⟨fun hw => ⟨hms, (durableMembers_iff ms).2 fun e he => ?_⟩, fun n hn => ?_⟩
  · obtain ⟨inner, -, hfits⟩ := h e he
    exact hfits.durable ((wholeMembers_iff ms).1 hw e he)
  · have hn1 : 1 ≤ n := hl n hn
    have hmembers : depthMembers ms ≤ n - 1 := (depthMembers_le_iff ms (n - 1)).2 fun e he => by
      obtain ⟨inner, hunder, hfits⟩ := h e he
      have := hunder.allow hfits.shallow n hn
      omega
    show depthMembers ms + 1 ≤ n
    omega

/-- Values that are read fit. -/
theorem Draft.Bounded.fits {d : Draft} (h : d.Bounded) {levels : Levels} {j : Json} (hj : d.json levels = .ok j) :
    Fits levels j := by
  induction h generalizing levels j with
  | null rest =>
    cases hj
    exact fits_null levels
  | bool b rest =>
    cases hj
    exact fits_bool levels b
  | num rest hn =>
    obtain ⟨m, hm, rfl⟩ := map_ok hj
    exact fits_num levels (hn m hm)
  | str s rest =>
    obtain ⟨s, -, rfl⟩ := map_ok hj
    exact fits_str levels s
  | arr before ending hitems ih =>
    obtain ⟨inner, henter, hj⟩ := bind_ok hj
    obtain ⟨items, hread, hj⟩ := bind_ok hj
    obtain ⟨close, -, hj⟩ := bind_ok hj
    cases hj
    have hunder : levels.Under inner := ⟨before, henter⟩
    refine fits_arr (hunder.allow inner.allow_zero) fun j hj => ?_
    rw [← Decoder.items_json] at hread
    obtain ⟨d, hd, hread⟩ := Decoder.items_ok hread j hj
    exact ⟨inner, hunder, ih d hd hread⟩
  | obj before ending hmembers ih =>
    obtain ⟨inner, henter, hj⟩ := bind_ok hj
    obtain ⟨entries, hread, hj⟩ := bind_ok hj
    obtain ⟨close, -, hj⟩ := bind_ok hj
    cases hj
    have hunder : levels.Under inner := ⟨before, henter⟩
    refine fits_obj (hunder.allow inner.allow_zero) (Members.ordered_ofList entries) fun e he => ?_
    rw [← Decoder.entries_json] at hread
    obtain ⟨m, hm, hread⟩ := Decoder.entries_ok hread e (Members.mem_of_mem_ofList he)
    exact ⟨inner, hunder, ih m hm hread⟩
  | broken before flaw => cases hj

/-! ### Decoders -/

/-- Whatever the decoder makes of a draft of a text has the property, at the levels of the draft. -/
def Decoder.Gives (dec : Decoder α) (P : Levels → α → Prop) : Prop :=
  ∀ ⦃levels : Levels⦄ ⦃d : Draft⦄ ⦃a : α⦄, d.Bounded → dec levels d = .ok a → P levels a

theorem Draft.mismatch_ok {expected : String} {d : Draft} {a : α} (h : d.mismatch expected = .ok a) : False := by
  unfold mismatch at h
  split at h <;> cases h

/-- What a draft has of a value that is read from it. -/
inductive Draft.Reads (levels : Levels) : Draft → Json → Prop where
  | null (rest : Mark) : Reads levels (.null rest) .null
  | bool (b : Bool) (rest : Mark) : Reads levels (.bool b rest) (.bool b)
  | num (n : Num) (rest : Mark) : Reads levels (.num (.ok n) rest) (.num n)
  | str (s : String) (rest : Mark) : Reads levels (.str (.ok s) rest) (.str s)
  | arr {before close : Mark} {ds : List Draft} {inner : Levels} {items : List Json} (henter : levels.enter before = .ok inner)
    (hitems : Draft.jsonItems inner ds = .ok items) : Reads levels (.arr before ds (.ok close)) (.arr items)
  | obj {before close : Mark} {ms : DraftMembers} {inner : Levels} {entries : Members} (henter : levels.enter before = .ok inner)
    (hentries : Draft.jsonMembers inner ms = .ok entries) :
    Reads levels (.obj before ms (.ok close)) (.obj (Members.ofList entries))

theorem Draft.reads {levels : Levels} {d : Draft} {j : Json} (h : d.json levels = .ok j) : d.Reads levels j := by
  cases d with
  | null rest =>
    cases h
    exact .null rest
  | bool b rest =>
    cases h
    exact .bool b rest
  | num n rest =>
    obtain ⟨n, rfl, rfl⟩ := map_ok h
    exact .num n rest
  | str s rest =>
    obtain ⟨s, rfl, rfl⟩ := map_ok h
    exact .str s rest
  | arr before ds ending =>
    obtain ⟨inner, henter, h⟩ := bind_ok h
    obtain ⟨items, hitems, h⟩ := bind_ok h
    obtain ⟨close, rfl, h⟩ := bind_ok h
    cases h
    exact .arr henter hitems
  | obj before ms ending =>
    obtain ⟨inner, henter, h⟩ := bind_ok h
    obtain ⟨entries, hentries, h⟩ := bind_ok h
    obtain ⟨close, rfl, h⟩ := bind_ok h
    cases h
    exact .obj henter hentries
  | broken before flaw => cases h

mutual

/-- Whatever is read is in order, though the text or the value that it is read from may not be. -/
theorem Draft.inOrder_of_json {levels : Levels} {d : Draft} {j : Json} (h : d.json levels = .ok j) : j.InOrder := by
  match d, Draft.reads h with
  | _, .null _ | _, .bool _ _ | _, .num _ _ | _, .str _ _ => trivial
  | .arr _ ds _, .arr _ hitems => exact Draft.inOrder_of_items hitems
  | .obj _ ms _, .obj _ hentries =>
    refine ⟨Members.ordered_ofList _, (inOrderMembers_iff _).2 fun e he => ?_⟩
    exact (inOrderMembers_iff _).1 (Draft.inOrder_of_members hentries) e (Members.mem_of_mem_ofList he)

theorem Draft.inOrder_of_items {levels : Levels} {ds : List Draft} {items : List Json}
    (h : Draft.jsonItems levels ds = .ok items) : InOrderItems items := by
  match ds with
  | [] =>
    cases h
    trivial
  | d :: ds =>
    obtain ⟨j, hj, h⟩ := bind_ok h
    obtain ⟨rest, hrest, h⟩ := bind_ok h
    cases h
    exact ⟨Draft.inOrder_of_json hj, Draft.inOrder_of_items hrest⟩

theorem Draft.inOrder_of_members {levels : Levels} {ms : DraftMembers} {entries : Members}
    (h : Draft.jsonMembers levels ms = .ok entries) : InOrderMembers entries := by
  match ms with
  | [] =>
    cases h
    trivial
  | (_, d) :: ms =>
    obtain ⟨k, -, h⟩ := bind_ok h
    obtain ⟨j, hj, h⟩ := bind_ok h
    obtain ⟨rest, hrest, h⟩ := bind_ok h
    cases h
    exact ⟨Draft.inOrder_of_json hj, Draft.inOrder_of_members hrest⟩

end

theorem Draft.eq_null {levels : Levels} {d : Draft} (h : d.json levels = .ok .null) : ∃ rest, d = .null rest := by
  cases Draft.reads h with
  | null rest => exact ⟨rest, rfl⟩

namespace Decoder

variable {P Q : Levels → α → Prop}

theorem Gives.imp {dec : Decoder α} (h : dec.Gives P) (hi : ∀ levels a, P levels a → Q levels a) : dec.Gives Q :=
  fun _ _ _ hd ha => hi _ _ (h hd ha)

theorem gives_anything (dec : Decoder α) : dec.Gives fun _ _ => True := fun _ _ _ _ _ => trivial

theorem gives_json : json.Gives Fits := fun _ _ _ hd hj => hd.fits hj

/-- Null is read as nothing. -/
theorem optional_json_ok {levels : Levels} {d : Draft} {j? : Option Json} (h : json.optional levels d = .ok j?) :
    ∀ j ∈ j?, d.json levels = .ok j ∧ j ≠ .null := by
  intro j hj
  unfold optional at h
  split at h
  · cases h
    cases hj
  · rename_i hsome
    obtain ⟨i, hi, rfl⟩ := map_ok h
    cases hj
    exact ⟨hi, fun hnull => (Draft.eq_null (hnull ▸ hi)).elim hsome⟩

theorem gives_optional_json : json.optional.Gives fun levels j? => ∀ j ∈ j?, Fits levels j ∧ j ≠ .null :=
  fun _ _ _ hd h j hj => (optional_json_ok h j hj).imp_left hd.fits

theorem gives_list {dec : Decoder α} (h : dec.Gives P) :
    (list dec).Gives fun levels as => levels.Allow 1 ∧ ∀ a ∈ as, ∃ inner, levels.Under inner ∧ P inner a := by
  intro levels d as hd has
  unfold list at has
  split at has
  · rename_i before ds ending
    cases hd with
    | arr _ _ hitems =>
      obtain ⟨inner, henter, has⟩ := bind_ok has
      obtain ⟨values, hread, has⟩ := bind_ok has
      obtain ⟨close, -, has⟩ := bind_ok has
      cases has
      have hunder : levels.Under inner := ⟨before, henter⟩
      refine ⟨hunder.allow inner.allow_zero, fun a ha => ?_⟩
      obtain ⟨d, hd, hread⟩ := items_ok hread a ha
      exact ⟨inner, hunder, h (hitems d hd) hread⟩
  · exact (Draft.mismatch_ok has).elim

theorem gives_members : members.Gives fun levels ms => Fits levels (.obj ms) := by
  intro levels d ms hd h
  obtain ⟨entries, hread, rfl⟩ := map_ok h
  unfold map at hread
  split at hread
  · rename_i before ds ending
    obtain ⟨inner, henter, hread⟩ := bind_ok hread
    obtain ⟨values, hvalues, hread⟩ := bind_ok hread
    obtain ⟨close, rfl, hread⟩ := bind_ok hread
    cases hread
    have hobject : Draft.json levels (.obj before ds (.ok close)) = .ok (.object entries) := by
      rw [Draft.json, henter]
      show (Draft.jsonMembers inner ds >>= fun values => Except.ok (object values)) = _
      rw [← entries_json, hvalues]
      rfl
    exact hd.fits hobject
  · exact (Draft.mismatch_ok hread).elim

end Decoder

/-! ### Fields and records -/

namespace Fields

/-- Whatever the fields are read as has the property, be they the entries of an object or the items of a list. -/
structure Gives (f : Fields α) (P : Levels → α → Prop) : Prop where
  named : ∀ ⦃levels : Levels⦄ ⦃entries : DraftMembers⦄ ⦃a : α⦄, (∀ m ∈ entries, m.2.Bounded) →
    f.named levels entries = .ok a → P levels a
  placed : ∀ ⦃levels : Levels⦄ ⦃ending : Ending⦄ ⦃short : Nat → Fault⦄ ⦃items rest : Items⦄ ⦃a : α⦄,
    (∀ d ∈ items.left, d.Bounded) → f.placed levels ending short items = .ok (a, rest) →
      P levels a ∧ ∀ d ∈ rest.left, d.Bounded

variable {P : Levels → α → Prop} {R : Levels → β → Prop}

theorem bounded_of_find {names : List String} {entries : DraftMembers} (h : ∀ m ∈ entries, m.2.Bounded) {i : Nat} {d : Draft}
    (hf : find names entries = some (i, d)) : d.Bounded := by
  induction entries generalizing i with
  | nil => cases hf
  | cons m entries ih =>
    obtain ⟨name, e⟩ := m
    obtain ⟨he, hrest⟩ := List.forall_mem_cons.1 h
    unfold find at hf
    split at hf
    · cases hf
      exact he
    · obtain ⟨⟨i', d'⟩, hf', heq⟩ := Option.map_eq_some_iff.1 hf
      cases heq
      exact ih hrest hf'

/-- A field is read from its entry, wherever that stands. -/
theorem named_field_iff {names : List String} {dec : Decoder α} {absent : Option α} {levels : Levels} {entries : DraftMembers}
    {a : α} : (field names dec absent).named levels entries = .ok a ↔
      (∃ d, (find names entries).map (·.2) = some d ∧ dec levels d = .ok a) ∨
        (find names entries).map (·.2) = none ∧ absent = some a := by
  unfold field
  dsimp only
  cases find names entries with
  | some found =>
    obtain ⟨i, d⟩ := found
    cases hd : dec levels d <;> simp [hd, Except.mapError]
  | none => cases absent <;> simp

theorem gives_field {names : List String} {dec : Decoder α} {absent : Option α} (h : dec.Gives P)
    (ha : ∀ a ∈ absent, ∀ levels, P levels a) : (field names dec absent).Gives P := by
  refine ⟨fun levels entries a hentries hread => ?_, fun levels ending short items rest a hitems hread => ?_⟩
  · obtain ⟨d, hd, hread⟩ | ⟨-, rfl⟩ := named_field_iff.1 hread
    · obtain ⟨⟨i, d⟩, hfind, rfl⟩ := Option.map_eq_some_iff.1 hd
      exact h (bounded_of_find hentries hfind) hread
    · exact ha a rfl levels
  · dsimp only [field] at hread
    split at hread
    · rename_i d left hleft
      obtain ⟨b, hb, heq⟩ := map_ok hread
      cases heq
      rw [hleft] at hitems
      obtain ⟨hd, hrest⟩ := List.forall_mem_cons.1 hitems
      exact ⟨h hd hb, hrest⟩
    · cases hread
    · obtain ⟨close, -, heq⟩ := map_ok hread
      cases heq
      exact ⟨ha _ rfl levels, by simp⟩

theorem gives_required (name : String) {dec : Decoder α} (h : dec.Gives P) : (required name dec).Gives P :=
  gives_field h nofun

theorem gives_withDefault (name : String) {dec : Decoder α} (h : dec.Gives P) {value : α} (hv : ∀ levels, P levels value) :
    (withDefault name dec value).Gives P := by
  refine gives_field h fun a ha => ?_
  cases ha
  exact hv

theorem gives_optional (name : String) {dec : Decoder α} {Q : Levels → Option α → Prop} (h : dec.optional.Gives Q)
    (hv : ∀ levels, Q levels none) : (optional name dec).Gives Q :=
  gives_withDefault name h hv

theorem both_ok {γ : Type} {f : α → β → γ} {x : Ranked α} {y : Ranked β} {c : γ} (h : Ranked.both f x y = .ok c) :
    ∃ a b, x = .ok a ∧ y = .ok b ∧ f a b = c := by
  cases x <;> cases y <;> cases h
  exact ⟨_, _, rfl, rfl, rfl⟩

theorem Gives.map {x : Fields α} {f : α → β} (h : x.Gives P) (hf : ∀ levels a, P levels a → R levels (f a)) :
    (f <$> x).Gives R := by
  refine ⟨fun levels entries b hentries hread => ?_, fun levels ending short items rest b hitems hread => ?_⟩
  · obtain ⟨a, ha, rfl⟩ := map_ok hread
    exact hf levels a (h.named hentries ha)
  · obtain ⟨⟨a, after⟩, ha, heq⟩ := map_ok hread
    cases heq
    obtain ⟨hp, hrest⟩ := h.placed hitems ha
    exact ⟨hf levels a hp, hrest⟩

theorem Gives.seq {x : Fields (α → β)} {y : Fields α} (hx : x.Gives fun levels f => ∀ a, P levels a → R levels (f a))
    (hy : y.Gives P) : (x <*> y).Gives R := by
  refine ⟨fun levels entries b hentries hread => ?_, fun levels ending short items rest b hitems hread => ?_⟩
  · obtain ⟨f, a, hf, ha, rfl⟩ := both_ok hread
    exact hx.named hentries hf a (hy.named hentries ha)
  · obtain ⟨⟨f, between⟩, hf, hread⟩ := bind_ok hread
    obtain ⟨⟨a, after⟩, ha, hread⟩ := bind_ok hread
    cases hread
    obtain ⟨hp, hbetween⟩ := hx.placed hitems hf
    obtain ⟨hq, hrest⟩ := hy.placed hbetween ha
    exact ⟨hp a hq, hrest⟩

/-- A record that is written as an object is read from its members. -/
theorem named_of_record {fields : Fields α} {title : String} {strict : Bool} {levels : Levels} {d : Draft} {ms : Members} {a : α}
    (hd : Holds d (.obj ms)) (h : fields.record title strict levels d = .ok a) : ∃ inner ds, HoldsMembers ds ms ∧ fields.named inner ds = .ok a := by
  cases hd with
  | @obj before close ds _ hs =>
    obtain ⟨inner, -, h⟩ := bind_ok h
    obtain ⟨_, b, -, hread, rfl⟩ := both_ok (mapError_ok h)
    exact ⟨inner, ds, hs, hread⟩

/-- The fields of a record are one level below it. -/
theorem Gives.record {fields : Fields α} (h : fields.Gives P) (title : String) (strict : Bool) :
    (fields.record title strict).Gives fun levels a => ∃ inner, levels.Under inner ∧ P inner a := by
  intro levels d a hd ha
  unfold Fields.record at ha
  split at ha
  · rename_i before entries ending
    obtain ⟨inner, henter, ha⟩ := bind_ok ha
    obtain ⟨_, b, -, hread, rfl⟩ := both_ok (mapError_ok ha)
    cases hd with
    | obj _ _ hmembers => exact ⟨inner, ⟨before, henter⟩, h.named hmembers hread⟩
  · rename_i before items ending
    obtain ⟨inner, henter, ha⟩ := bind_ok ha
    obtain ⟨⟨b, after⟩, hread, ha⟩ := bind_ok ha
    have hb : b = a := by
      dsimp only at ha
      split at ha
      · obtain ⟨_, -, ha⟩ := bind_ok ha
        cases ha
        rfl
      · cases ha
      · cases ha
    subst hb
    cases hd with
    | arr _ _ hitems => exact ⟨inner, ⟨before, henter⟩, (h.placed hitems hread).1⟩
  · exact (Draft.mismatch_ok ha).elim

end Fields

/-! ### Texts -/

/-- What is read from a text has the property at the levels of a text. -/
theorem Decoder.Gives.ofText {dec : Decoder α} {P : Levels → α → Prop} (h : dec.Gives P) {text : String} {a : α}
    (ha : dec.ofText text = .ok a) : P textLevels a := by
  obtain ⟨b, hb, ha⟩ := bind_ok ha
  obtain ⟨rest, -, ha⟩ := bind_ok ha
  obtain ⟨_, -, ha⟩ := bind_ok ha
  cases ha
  exact h (bounded_ofText text) hb

/-- What one decoder reads from a text is read by another one that reads it from every draft. -/
theorem Decoder.ofText_imp {β : Type} {dec : Decoder α} {dec' : Decoder β} {text : String} {a : α} {b : β}
    (h : dec.ofText text = .ok a) (imp : ∀ d, dec textLevels d = .ok a → dec' textLevels d = .ok b) :
    dec'.ofText text = .ok b := by
  unfold Decoder.ofText at h ⊢
  generalize Draft.ofText text = read at h ⊢
  obtain ⟨draft, next⟩ := read
  dsimp only at h ⊢
  obtain ⟨a', ha, h⟩ := bind_ok h
  obtain ⟨rest, hrest, h⟩ := bind_ok h
  obtain ⟨_, hend, h⟩ := bind_ok h
  cases h
  rw [imp draft ha, ok_bind, hrest, ok_bind, hend]
  rfl

theorem parse_eq (text : String) : parse text = Decoder.json.ofText text := rfl

end Lifecycle.Json
