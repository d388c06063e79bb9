import Lifecycle.Proofs.Json.Readings
import Lifecycle.Workflow.Trigger

/-!
# Which changes a condition admits

The conditions on a change of status as they are written, and the trigger that is read from them: it admits exactly the
changes that the conditions admit.
-/

namespace Lifecycle

namespace Json

variable {α : Type}

/-! ### What is read of a member -/

namespace Decoder

variable {levels : Levels} {d : Draft} {j : Json} {a : α}

theorem eq_str_of_string {s : String} (hd : Holds d j) (h : string levels d = .ok s) : j = .str s := by
  unfold string at h
  split at h
  · cases h
    cases hd
    rfl
  · exact (Draft.mismatch_ok h).elim

theorem pick_ok {table : List (String × α)} {name : String} {at? : Mark} (h : pick table name at? = .ok a) :
    table.lookup name = some a := by
  unfold pick at h
  split at h
  · cases h
    assumption
  · cases h

theorem eq_null_of_nothing {u : Unit} (hd : Holds d j) (h : nothing d = .ok u) : j = .null := by
  unfold nothing at h
  split at h
  · cases hd
    rfl
  · exact (Draft.mismatch_ok h).elim

/-- An alternative is written as its name, or as an object that holds null under its name. -/
theorem eq_of_variant {table : List (String × α)} (hd : Holds d j) (h : variant table levels d = .ok a) :
    ∃ name, table.lookup name = some a ∧ (j = .str name ∨ j = .obj [(name, .null)]) := by
  unfold variant at h
  cases hd with
  | str s rest => exact ⟨s, pick_ok h, .inl rfl⟩
  | @obj before close ds ms hs =>
    obtain ⟨inner, -, h⟩ := bind_ok h
    cases hs with
    | nil =>
      cases before with
      | none => exact nomatch h
      | some text => exact (Draft.mismatch_ok h).elim
    | @cons k e i ds ms he hs =>
      cases hs with
      | nil =>
        -- the name, then null, and nothing behind it
        replace h : (pick table k before >>= fun b => nothing e >>= fun _ => Except.ok b) = Except.ok a := by
          cases before <;> exact h
        obtain ⟨b, hb, h⟩ := bind_ok h
        obtain ⟨u, hu, h⟩ := bind_ok h
        cases h
        exact ⟨k, pick_ok hb, .inr (eq_null_of_nothing he hu ▸ rfl)⟩
      | cons l _ _ =>
        cases before with
        | none => exact nomatch h
        | some text =>
          obtain ⟨name, -, h⟩ := bind_ok h
          obtain ⟨b, -, h⟩ := bind_ok h
          obtain ⟨u, -, h⟩ := bind_ok h
          exact nomatch h
  | null rest => cases levels <;> exact nomatch h
  | bool b rest => cases levels <;> exact nomatch h
  | num n rest => cases levels <;> exact nomatch h
  | arr before close hs => cases levels <;> exact nomatch h

end Decoder

namespace Fields

variable {levels : Levels} {ds : DraftMembers} {ms : Members}

/-- What may be left out is read of its member, unless that is null. -/
theorem optional_ok {name : String} {dec : Decoder α} {a? : Option α} (hs : HoldsMembers ds ms)
    (h : (optional name dec).named levels ds = .ok a?) :
    (ms.lookup name = none ∧ a? = none) ∨ (ms.lookup name = some .null ∧ a? = none) ∨
      ∃ j d a, ms.lookup name = some j ∧ Holds d j ∧ dec levels d = .ok a ∧ a? = some a := by
  obtain ⟨there, absent⟩ := find_of_lookup name hs
  replace h := named_field_iff.1 h
  cases hj : ms.lookup name with
  | none =>
    simp only [absent hj, Option.map_none, reduceCtorEq, false_and, exists_false, false_or, true_and, Option.some.injEq] at h
    exact .inl ⟨rfl, h.symm⟩
  | some j =>
    obtain ⟨i, d, hfind, hd, -⟩ := there j hj
    simp only [hfind, Option.map_some, Option.some.injEq, exists_eq_left', reduceCtorEq, false_and, or_false] at h
    unfold Decoder.optional at h
    split at h
    · cases hd
      cases h
      exact .inr (.inl ⟨rfl, rfl⟩)
    · obtain ⟨a, ha, rfl⟩ := map_ok h
      exact .inr (.inr ⟨j, d, a, rfl, hd, ha, rfl⟩)

end Fields

end Json

/-! ### Conditions on a change -/

/-- What is written for a status admits it: nothing, null, the empty text, a star, the word `any` in whatever case, or the
status itself. -/
inductive Json.AdmitsStatus (status : String) : Option Json → Prop
  | absent : AdmitsStatus status none
  | null : AdmitsStatus status (some .null)
  | any {text : String} (h : text = "" ∨ text = "*" ∨ Text.lowerAscii text = "any") : AdmitsStatus status (some (.str text))
  | same : AdmitsStatus status (some (.str status))

/-- What is written for a type admits it: nothing, null or its name, which may stand in an object over null. -/
inductive Json.AdmitsType (type : TargetType) : Option Json → Prop
  | absent : AdmitsType type none
  | null : AdmitsType type (some .null)
  | name : AdmitsType type (some (.str type.name))
  | over : AdmitsType type (some (.obj [(type.name, .null)]))

/-- The conditions, as they are written, admit the change of an entity of a type from one status to another. -/
structure Json.Members.Admit (conditions : Json.Members) (type : TargetType) (source target : String) : Prop where
  type : Json.AdmitsType type (conditions.lookup "targetType")
  source : Json.AdmitsStatus source (conditions.lookup "from")
  target : Json.AdmitsStatus target (conditions.lookup "to")

open Json (HoldsMembers Decoder Fields DraftMembers Levels)

namespace Trigger

variable {levels : Levels} {ds : DraftMembers} {ms : Json.Members}

theorem admits_pattern {name : String} {text? : Option String} (hs : HoldsMembers ds ms)
    (h : (Fields.optional name Decoder.string).named levels ds = .ok text?) (status : String) :
    (Pattern.ofText text?).admits status = true ↔ Json.AdmitsStatus status (ms.lookup name) := by
  rcases Fields.optional_ok hs h with ⟨hj, rfl⟩ | ⟨hj, rfl⟩ | ⟨j, d, s, hj, hd, hread, rfl⟩
  · rw [hj]
    exact iff_of_true rfl .absent
  · rw [hj]
    exact iff_of_true rfl .null
  · obtain rfl := Decoder.eq_str_of_string hd hread
    rw [hj]
    unfold Pattern.ofText
    dsimp only
    split
    · rename_i hany
      exact iff_of_true rfl (.any hany)
    · rename_i hnot
      refine ⟨fun h => ?_, fun h => ?_⟩
      · obtain rfl : s = status := by simpa [Pattern.admits] using h
        exact .same
      · cases h with
        | any hany => exact absurd hany hnot
        | same => simp [Pattern.admits]

theorem eq_name_of_lookup {type : TargetType} {name : String}
    (h : (alternativesOf TargetType.all TargetType.name).lookup name = some type) : name = type.name := by
  obtain ⟨t, -, ht⟩ := List.mem_map.1 (mem_of_lookup h)
  cases ht
  rfl

theorem all_type {type? : Option TargetType} (hs : HoldsMembers ds ms)
    (h : (Fields.optional "targetType" TargetType.decoder).named levels ds = .ok type?) (type : TargetType) :
    type?.all (· == type) = true ↔ Json.AdmitsType type (ms.lookup "targetType") := by
  have hname (wanted : TargetType) : wanted.name = type.name → wanted = type := by
    cases wanted <;> cases type <;> decide
  rcases Fields.optional_ok hs h with ⟨hj, rfl⟩ | ⟨hj, rfl⟩ | ⟨j, d, wanted, hj, hd, hread, rfl⟩
  · rw [hj]
    exact iff_of_true rfl .absent
  · rw [hj]
    exact iff_of_true rfl .null
  · obtain ⟨name, hlookup, hwritten⟩ := Decoder.eq_of_variant hd hread
    obtain rfl := eq_name_of_lookup hlookup
    rw [hj]
    refine ⟨fun h => ?_, fun h => ?_⟩
    · obtain rfl : wanted = type := by simpa using h
      rcases hwritten with rfl | rfl
      · exact .name
      · exact .over
    · have hsame : wanted = type := by
        rcases hwritten with rfl | rfl
        · generalize hn : wanted.name = n at h
          cases h
          exact hname wanted hn
        · generalize hn : wanted.name = n at h
          cases h
          exact hname wanted hn
      simp [hsame]

/-- The trigger that is read from conditions admits what they admit. -/
theorem admits_iff {t : Trigger} (h : read .statusChanged ms = .ok t) (type : TargetType) (source target : String) :
    t.admits type source target = true ↔ ms.Admit type source target := by
  unfold read at h
  replace h := mapError_ok h
  unfold changeDecoder Decoder.ofValue at h
  obtain ⟨inner, ds, hs, hread⟩ := Fields.named_of_record (Json.holds_ofJson (.obj ms)) h
  -- the four fields, from the last one on
  obtain ⟨upToType, once, hupToType, -, rfl⟩ := Fields.both_ok hread
  obtain ⟨upToTarget, type?, hupToTarget, htype, rfl⟩ := Fields.both_ok hupToType
  obtain ⟨upToSource, target?, hupToSource, htarget, rfl⟩ := Fields.both_ok hupToTarget
  obtain ⟨source?, hsource, rfl⟩ := map_ok hupToSource
  have hall : admits (.statusChanged type? (.ofText source?) (.ofText target?) once) type source target = true ↔
      (type?.all (· == type) = true ∧ (Pattern.ofText source?).admits source = true) ∧
        (Pattern.ofText target?).admits target = true := by
    simp only [admits, Bool.and_eq_true]
  rw [hall, all_type hs htype, admits_pattern hs hsource, admits_pattern hs htarget]
  exact ⟨fun ⟨⟨ht, ha⟩, hb⟩ => ⟨ht, ha, hb⟩, fun h => ⟨⟨h.type, h.source⟩, h.target⟩⟩

end Trigger

end Lifecycle
