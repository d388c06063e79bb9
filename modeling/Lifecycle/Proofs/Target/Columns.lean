import Lifecycle.Proofs.Target.Finding
import Lifecycle.Proofs.Target.Holdings

/-!
# Columns that are read and columns that are changed

The fields and the tags of a row are decoded in one way to be read, and in another to be changed. Fields that can be read can be
set, and one that is set is read back, unless the column holds the empty text: that is read as no fields at all, and yet it is
not a text that can be changed. Tags that can be read can be added to if they are texts; null and other lists are read only. No
more is changed than that column of that row, and nothing if a call fails.
-/

namespace Lifecycle

open Json (Decoder)

/-! ### Lists of texts -/

namespace Json

theorem items_string_of_json {levels : Levels} {ds : List Draft} {texts : List String}
    (h : Draft.jsonItems levels ds = .ok (texts.map .str)) : Decoder.items .string levels ds = .ok texts := by
  induction ds generalizing texts with
  | nil =>
    have hnil : texts.map Json.str = [] := (Except.ok.inj h).symm
    rw [List.map_eq_nil_iff.1 hnil]
    rfl
  | cons d ds ih =>
    obtain ⟨j, hj, h⟩ := bind_ok h
    obtain ⟨rest, hrest, h⟩ := bind_ok h
    obtain ⟨t, more, rfl, rfl, rfl⟩ := List.map_eq_cons_iff.1 (Except.ok.inj h).symm
    unfold Decoder.items
    rw [ih hrest]
    cases Draft.reads hj
    rfl

theorem list_string_of_json {levels : Levels} {d : Draft} {texts : List String}
    (h : d.json levels = .ok (.arr (texts.map .str))) : Decoder.list .string levels d = .ok texts := by
  cases Draft.reads h with
  | arr hinner hitems =>
    unfold Decoder.list
    dsimp only
    rw [hinner]
    show (Decoder.items .string _ _ >>= _) = _
    rw [items_string_of_json hitems]
    rfl

/-- A text that holds a list of texts is read as that list. -/
theorem strings_of_parse {text : String} {texts : List String} (h : parse text = .ok (.arr (texts.map .str))) :
    (Decoder.list .string).ofText text = .ok texts := by
  rw [parse_eq] at h
  exact Decoder.ofText_imp h fun _ => list_string_of_json

end Json

namespace Target

/-! ### One row -/

namespace HostRow

variable {r : HostRow} {ms : Json.Members}

/-- Fields that are read can be changed, except for the empty text. -/
theorem fieldsToChange_of_read (h : r.readFields = .ok ms) (filled : r.fields ≠ some "") : r.fieldsToChange = .ok ms := by
  obtain ⟨j, hj, h⟩ := bind_ok h
  unfold fieldsToChange
  cases hfields : r.fields with
  | none =>
    rw [hfields] at hj
    cases hj
    exact h
  | some text =>
    have hempty : ¬text.isEmpty = true := fun he => filled (by rw [hfields, String.isEmpty_iff.1 he])
    rw [hfields] at hj
    have hparse : Json.parse text = .ok j := mapError_ok ((if_neg hempty).symm.trans hj)
    dsimp only
    rw [hparse]
    split at h <;> cases h <;> rfl

theorem putField_of_empty (h : r.fields = some "") (field : String) (value : Json) : ∃ f, r.putField field value = .error f := by
  unfold putField fieldsToChange
  rw [h]
  exact ⟨_, rfl⟩

/-- The fields are still read back with `value` among them: no number of the binary format, and no deeper than a text may be. -/
def Storable (r : HostRow) (field : String) (value : Json) : Prop :=
  ∀ ms, r.readFields = .ok ms → (Json.obj (ms.insert field value)).Durable ∧ (Json.obj (ms.insert field value)).depth ≤ 127

/-- The column of the tags holds nothing, the empty text, or a list of texts. -/
def Labelled (r : HostRow) : Prop :=
  ∀ text ∈ r.tags, text = "" ∨ ∃ labels : List String, Json.parse text = .ok (.arr (labels.map .str))

/-- The tags that can be changed are texts. -/
theorem labelled_iff : r.Labelled ↔ ∃ labels, r.tagsToChange = .ok labels := by
  unfold Labelled tagsToChange
  cases r.tags with
  | none => simp
  | some text =>
    simp only [Option.mem_some_iff, forall_eq']
    by_cases hempty : text.isEmpty = true
    · rw [if_pos hempty]
      simp [String.isEmpty_iff.1 hempty]
    · rw [if_neg hempty]
      have hne : text ≠ "" := fun he => hempty (String.isEmpty_iff.2 he)
      simp only [hne, false_or]
      constructor
      · rintro ⟨labels, hparse⟩
        rw [Json.strings_of_parse hparse]
        exact ⟨labels, rfl⟩
      · rintro ⟨labels, hread⟩
        exact ⟨labels, Json.parse_of_strings (mapError_ok hread)⟩

/-- A field is set unless the fields can not be changed; and then it is read back among the others. -/
theorem readFields_putField_of_storable {field : String} {value : Json} (h : r.fieldsToChange = .ok ms)
    (storable : r.Storable field value) : ∃ text, r.putField field value = .ok { r with fields := some text } ∧
      readFields { r with fields := some text } = .ok (ms.insert field value) := by
  obtain ⟨hdurable, hdepth⟩ := storable ms (readFields_of_change h)
  refine ⟨(Json.obj (ms.insert field value)).print, ?_, readFields_of_change ?_⟩
  · unfold putField
    rw [h]
    rfl
  · unfold fieldsToChange
    dsimp only
    rw [Json.parse_print hdurable hdepth]

theorem addTag_of_not_labelled (h : ¬r.Labelled) (label : String) : ∃ f, r.addTag label = .error f := by
  unfold addTag
  cases hchange : r.tagsToChange with
  | ok labels => exact (h (labelled_iff.2 ⟨labels, hchange⟩)).elim
  | error f => exact ⟨f, rfl⟩

/-- A tag is not given twice. -/
theorem addTag_of_mem {labels : List String} (h : r.tagsToChange = .ok labels) {label : String} (hlabel : label ∈ labels) :
    r.addTag label = .ok r := by
  unfold addTag
  rw [h]
  exact if_pos (List.contains_iff_mem.2 hlabel)

/-- A tag is given to texts, which have it once then. -/
theorem addTag_of_change {labels : List String} (h : r.tagsToChange = .ok labels) (label : String) :
    ∃ column, r.addTag label = .ok { r with tags := column } ∧
      tagsToChange { r with tags := column } = .ok (if label ∈ labels then labels else labels ++ [label]) := by
  by_cases hlabel : label ∈ labels
  · rw [if_pos hlabel]
    exact ⟨r.tags, addTag_of_mem h hlabel, h⟩
  · rw [if_neg hlabel]
    refine ⟨some (Json.arr ((labels ++ [label]).map Json.str)).print, ?_, ?_⟩
    · unfold addTag
      rw [h]
      exact if_neg fun hmem => hlabel (List.contains_iff_mem.1 hmem)
    · exact tagsToChange_of_ofText rfl (Json.ofText_print_strings (labels ++ [label]))

/-- What is seen of a row is what is read of it. -/
theorem readView_ok {seen : Json} (h : r.readView = .ok seen) : ∃ changed fields tags, r.changed? = .ok changed ∧
    r.readFields = .ok fields ∧ r.readTags = .ok tags ∧ seen = view r.id r.status changed r.email fields tags := by
  obtain ⟨changed, hchanged, h⟩ := bind_ok h
  obtain ⟨fields, hfields, h⟩ := bind_ok h
  obtain ⟨tags, htags, h⟩ := bind_ok h
  exact ⟨changed, fields, tags, hchanged, hfields, htags, (Except.ok.inj h).symm⟩

theorem readView_of_read {changed : Option Time.Instant} {fields : Json.Members} {tags : List Json}
    (hchanged : r.changed? = .ok changed) (hfields : r.readFields = .ok fields) (htags : r.readTags = .ok tags) :
    r.readView = .ok (view r.id r.status changed r.email fields tags) := by
  unfold readView
  rw [hchanged, hfields, htags]
  rfl

end HostRow

/-! ### Tables -/

namespace HostRows

variable {rows : HostRows} {r : HostRow}

theorem get_of_mem (distinct : (rows.map (·.id)).Nodup) (hr : r ∈ rows) : rows.get r.id = .ok r :=
  (get_eq_ok_iff distinct).2 ⟨hr, rfl⟩

theorem field_of_get {id : String} (h : rows.get id = .ok r) (name : String) :
    (rows.answer (.field id name)).1 = r.field? name := by
  show (rows.get id).bind _ = _
  rw [h]
  rfl

theorem view_of_get {id : String} (h : rows.get id = .ok r) : (rows.answer (.view id)).1 = r.readView := by
  show (rows.get id).bind _ = _
  rw [h]
  rfl

/-- A change that fails changes nothing. -/
theorem change_of_error {id : String} {f : HostRow → Except Fault HostRow} {e : Fault} (h : (rows.change id f).1 = .error e) :
    (rows.change id f).2 = rows := by
  unfold change at h ⊢
  split at h
  · cases h
  · rfl

theorem change_of_mem_error {f : HostRow → Except Fault HostRow} {e : Fault} (distinct : (rows.map (·.id)).Nodup) (hr : r ∈ rows)
    (h : f r = .error e) : rows.change r.id f = (.error e, rows) := by
  refine change_error ?_
  rw [get_of_mem distinct hr]
  exact h

/-- The rows with that of `id` written anew. -/
def rewrite (rows : HostRows) (id : String) (g : HostRow → HostRow) : HostRows :=
  rows.map fun q => if q.id = id then g q else q

/-- The row that is changed is the only one of its identifier. -/
theorem change_of_mem {f : HostRow → Except Fault HostRow} {g : HostRow → HostRow} (distinct : (rows.map (·.id)).Nodup)
    (hr : r ∈ rows) (h : f r = .ok (g r)) : rows.change r.id f = (.ok (), rows.rewrite r.id g) := by
  have hbind : (rows.get r.id).bind f = .ok (g r) := by
    rw [get_of_mem distinct hr]
    exact h
  rw [change_ok hbind]
  refine congrArg (Prod.mk _) (List.map_congr_left fun q hq => ?_)
  by_cases hid : q.id = r.id
  · rw [if_pos (beq_iff_eq.2 hid), if_pos hid, List.inj_on_of_nodup_map distinct hq hr hid]
  · rw [if_neg (fun h => hid (beq_iff_eq.1 h)), if_neg hid]

theorem rewrite_self (rows : HostRows) (id : String) : rows.rewrite id (fun q => q) = rows := by
  unfold rewrite
  simp

theorem ids_rewrite (rows : HostRows) (id : String) {g : HostRow → HostRow} (keepsId : ∀ q, (g q).id = q.id) :
    (rows.rewrite id g).map (·.id) = rows.map (·.id) := by
  unfold rewrite
  rw [List.map_map]
  refine List.map_congr_left fun q _ => ?_
  show HostRow.id (if q.id = id then g q else q) = q.id
  split
  · exact keepsId q
  · rfl

theorem distinct_rewrite (distinct : (rows.map (·.id)).Nodup) (id : String) {g : HostRow → HostRow}
    (keepsId : ∀ q, (g q).id = q.id) : ((rows.rewrite id g).map (·.id)).Nodup := by
  rw [ids_rewrite rows id keepsId]
  exact distinct

theorem mem_rewrite (g : HostRow → HostRow) (hr : r ∈ rows) : g r ∈ rows.rewrite r.id g :=
  List.mem_map.2 ⟨r, hr, if_pos rfl⟩

end HostRows

variable {rows : HostRows}

/-- Fields that can be read can be set, unless their column holds the empty text, as long as they are all still read back from
a text: the one that is set has the value then, or none for null, the others are what they were, and nothing else is changed.
A call that fails changes nothing. -/
theorem fields_are_set (distinct : (rows.map (·.id)).Nodup) :
    (∀ id field value fault, (rows.answer (.putField id field value)).1 = .error fault →
      (rows.answer (.putField id field value)).2 = rows) ∧
    ∀ r ∈ rows, ∀ asked found, (rows.answer (.field r.id asked)).1 = .ok found →
      ∀ field value, r.Storable field value →
        (r.fields = some "" → ∃ fault, rows.answer (.putField r.id field value) = (.error fault, rows)) ∧
        (r.fields ≠ some "" → ∃ text after, rows.answer (.putField r.id field value) = (.ok (), after) ∧
          (after.answer (.field r.id field)).1 = .ok (if value.isNull then none else some value) ∧
          (∀ other, other ≠ field → (after.answer (.field r.id other)).1 = (rows.answer (.field r.id other)).1) ∧
          after = rows.rewrite r.id fun q => { q with fields := some text }) := by
  refine ⟨fun id field value fault => HostRows.change_of_error, ?_⟩
  intro r hr asked found readable field value storable
  have hget := HostRows.get_of_mem distinct hr
  rw [HostRows.field_of_get hget] at readable
  obtain ⟨ms, hms, -⟩ := bind_ok readable
  refine ⟨fun empty => ?_, fun filled => ?_⟩
  · obtain ⟨fault, hfault⟩ := HostRow.putField_of_empty empty field value
    exact ⟨fault, HostRows.change_of_mem_error distinct hr hfault⟩
  · have hchange := HostRow.fieldsToChange_of_read hms filled
    obtain ⟨text, hput, hread⟩ := HostRow.readFields_putField_of_storable hchange storable
    have distinct' := HostRows.distinct_rewrite distinct r.id (g := fun q => { q with fields := some text }) fun _ => rfl
    have hget' := HostRows.get_of_mem distinct' (HostRows.mem_rewrite _ hr)
    -- every field of the row is now read from the text that has been written
    have hfield (name : String) :
        ((rows.rewrite r.id fun q => { q with fields := some text }).answer (.field r.id name)).1 =
          .ok (((ms.insert field value).lookup name).filter (!·.isNull)) := by
      rw [HostRows.field_of_get hget']
      unfold HostRow.field?
      rw [hread]
      rfl
    refine ⟨text, _, HostRows.change_of_mem distinct hr hput, ?_, fun other hother => ?_, rfl⟩
    · rw [hfield, Json.Members.lookup_insert_self]
      cases value <;> rfl
    · rw [hfield, Json.Members.lookup_insert_of_ne hother, HostRows.field_of_get hget]
      unfold HostRow.field?
      rw [hms]
      rfl

namespace Lone

/-- A row with these texts for its fields and its tags. -/
def row (fields tags : Option String) : HostRow := ⟨"A-1", some "submitted", some (.int 1704067200000), none, fields, tags⟩

end Lone

/-- A field that is there already is set to another value. -/
theorem fields_are_set_of_lone :
    let r := Lone.row (some "\x7b\"priority\":\"low\"\x7d") none
    let rows : HostRows := [r]
    (rows.map (·.id)).Nodup ∧ r ∈ rows ∧ (rows.answer (.field r.id "priority")).1 = .ok (some (.str "low")) ∧
      r.Storable "priority" (.str "high") ∧ ∃ after : HostRows,
        rows.answer (.putField r.id "priority" (.str "high")) = (.ok (), after) ∧
        (after.answer (.field r.id "priority")).1 = .ok (some (.str "high")) := by
  intro r rows
  have distinct : (rows.map (·.id)).Nodup := List.nodup_singleton _
  have hr : r ∈ rows := List.mem_singleton_self r
  have hread : r.readFields = .ok [("priority", .str "low")] := by decide +kernel
  have readable : (rows.answer (.field r.id "priority")).1 = .ok (some (.str "low")) := by
    rw [HostRows.field_of_get (HostRows.get_of_mem distinct hr)]
    unfold HostRow.field?
    rw [hread]
    rfl
  have storable : r.Storable "priority" (.str "high") := by
    intro ms hms
    rw [hread] at hms
    cases hms
    exact ⟨⟨List.pairwise_singleton _ _, trivial, trivial⟩, by decide⟩
  obtain ⟨-, set⟩ := (fields_are_set distinct).2 r hr "priority" _ readable "priority" (.str "high") storable
  obtain ⟨text, after, hafter, hfield, -⟩ := set (by decide)
  exact ⟨distinct, hr, readable, storable, after, hafter, hfield⟩

/-- From the empty text no fields are read, and yet none can be set. -/
theorem empty_fields_are_not_set :
    let r := Lone.row (some "") none
    let rows : HostRows := [r]
    (rows.answer (.field r.id "note")).1 = .ok none ∧ r.Storable "note" (.str "seen") ∧
      (rows.answer (.putField r.id "note" (.str "seen"))).1 ≠ .ok () := by
  intro r rows
  refine ⟨rfl, fun ms hms => ?_, nofun⟩
  cases hms
  exact ⟨⟨List.pairwise_singleton _ _, trivial, trivial⟩, by decide⟩

/-- A tag can be given to a row that can be viewed if and only if its tags are texts: what is viewed then has the tag behind the
others, unless it is among them already, giving it again changes nothing, and neither does a call that fails; nothing but the
tags of the row is changed. -/
theorem tags_are_added (distinct : (rows.map (·.id)).Nodup) {r : HostRow} (hr : r ∈ rows) {seen : Json}
    (viewed : (rows.answer (.view r.id)).1 = .ok seen) (label : String) :
    (¬r.Labelled → ∃ fault, rows.answer (.tag r.id label) = (.error fault, rows)) ∧
    (r.Labelled → ∃ changed fields tags column after, seen = view r.id r.status changed r.email fields tags ∧
      rows.answer (.tag r.id label) = (.ok (), after) ∧
      (after.answer (.view r.id)).1 = .ok (view r.id r.status changed r.email fields
        (if Json.str label ∈ tags then tags else tags ++ [.str label])) ∧
      after.answer (.tag r.id label) = (.ok (), after) ∧
      after = rows.rewrite r.id fun q => { q with tags := column }) := by
  have hget := HostRows.get_of_mem distinct hr
  refine ⟨fun mixed => ?_, fun labelled => ?_⟩
  · obtain ⟨fault, hfault⟩ := HostRow.addTag_of_not_labelled mixed label
    exact ⟨fault, HostRows.change_of_mem_error distinct hr hfault⟩
  · obtain ⟨labels, hchange⟩ := HostRow.labelled_iff.1 labelled
    obtain ⟨column, hadd, hchange'⟩ := HostRow.addTag_of_change hchange label
    rw [HostRows.view_of_get hget] at viewed
    obtain ⟨changed, fields, tags, hchanged, hfields, htags, hseen⟩ := HostRow.readView_ok viewed
    obtain rfl : labels.map Json.str = tags := Except.ok.inj ((HostRow.readTags_of_change hchange).symm.trans htags)
    have distinct' := HostRows.distinct_rewrite distinct r.id (g := fun q => { q with tags := column }) fun _ => rfl
    have hr' : { r with tags := column } ∈ _ := HostRows.mem_rewrite (fun q => { q with tags := column }) hr
    refine ⟨changed, fields, labels.map .str, column, _, hseen, HostRows.change_of_mem distinct hr hadd, ?_, ?_, rfl⟩
    · rw [HostRows.view_of_get (HostRows.get_of_mem distinct' hr')]
      refine HostRow.readView_of_read (r := { r with tags := column }) hchanged hfields ?_
      rw [HostRow.readTags_of_change hchange']
      refine congrArg Except.ok ?_
      by_cases hlabel : label ∈ labels <;> simp [hlabel]
    · have hagain : HostRow.addTag { r with tags := column } label = .ok { r with tags := column } := by
        refine HostRow.addTag_of_mem hchange' ?_
        split
        · assumption
        · simp
      refine (HostRows.change_of_mem (g := fun q => q) distinct' hr' hagain).trans (congrArg (Prod.mk _) ?_)
      exact HostRows.rewrite_self _ _

/-- A tag is given behind another one. -/
theorem tags_are_added_of_lone :
    let r := Lone.row none (some "[\"old\"]")
    let rows : HostRows := [r]
    (rows.map (·.id)).Nodup ∧ r ∈ rows ∧ ∃ seen, (rows.answer (.view r.id)).1 = .ok seen ∧ r.Labelled ∧
      ∃ after : HostRows, rows.answer (.tag r.id "new") = (.ok (), after) ∧ after.answer (.tag r.id "new") = (.ok (), after) := by
  intro r rows
  have distinct : (rows.map (·.id)).Nodup := List.nodup_singleton _
  have hr : r ∈ rows := List.mem_singleton_self r
  have htags : r.readTags = .ok [.str "old"] := by decide +kernel
  have viewed := HostRows.view_of_get (HostRows.get_of_mem distinct hr)
  rw [HostRow.readView_of_read (r := r) rfl rfl htags] at viewed
  have labelled : r.Labelled := by
    rintro text ⟨⟩
    exact .inr ⟨["old"], by decide +kernel⟩
  obtain ⟨_, _, _, _, after, -, hafter, -, hagain, -⟩ := (tags_are_added distinct hr viewed "new").2 labelled
  exact ⟨distinct, hr, _, viewed, labelled, after, hafter, hagain⟩

/-- From null no tags are read, and yet none can be added. -/
theorem null_tags_are_not_added :
    let r := Lone.row none (some "null")
    let rows : HostRows := [r]
    (∃ seen, (rows.answer (.view r.id)).1 = .ok seen) ∧ (rows.answer (.tag r.id "new")).1 ≠ .ok () := by
  intro r rows
  have distinct : (rows.map (·.id)).Nodup := List.nodup_singleton _
  have hr : r ∈ rows := List.mem_singleton_self r
  have hnull : Json.parse "null" = .ok .null := by decide +kernel
  have htags : r.readTags = .ok [] := by decide +kernel
  have mixed : ¬r.Labelled := by
    intro labelled
    rcases labelled "null" rfl with hempty | ⟨labels, hparse⟩
    · exact absurd hempty (by decide)
    · rw [hnull] at hparse
      cases hparse
  obtain ⟨fault, hfault⟩ := HostRow.addTag_of_not_labelled mixed "new"
  refine ⟨⟨_, (HostRows.view_of_get (HostRows.get_of_mem distinct hr)).trans (HostRow.readView_of_read rfl rfl htags)⟩, ?_⟩
  show (rows.change r.id _).1 ≠ .ok ()
  rw [HostRows.change_of_mem_error distinct hr hfault]
  exact nofun

end Target

end Lifecycle
