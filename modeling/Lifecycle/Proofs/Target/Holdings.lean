import Lifecycle.Proofs.Json.Readings
import Lifecycle.Proofs.Json.RoundTrip
import Lifecycle.Proofs.Target.Outline

/-!
# What a call does to one entity

A call on one entity is answered from that entity alone, changes no other, and changes of it no more than the field or the tag
that it names. In a table that takes one text for all fields and one for all tags: both are written anew, and what is written is
what was read, as long as no number in it is one of the binary format.
-/

namespace Lifecycle

open Json (Decoder)

/-! ### Texts of columns -/

namespace Json

variable {text : String}

theorem jsonItems_of_strings {levels : Levels} {ds : List Draft} {texts : List String}
    (h : Decoder.items .string levels ds = .ok texts) : Draft.jsonItems levels ds = .ok (texts.map .str) := by
  induction ds generalizing texts with
  | nil =>
    cases h
    rfl
  | cons d ds ih =>
    obtain ⟨t, ht, h⟩ := bind_ok h
    obtain ⟨rest, hrest, h⟩ := bind_ok h
    cases h
    have hd : d.json levels = .ok (.str t) := by
      unfold Decoder.string at ht
      split at ht
      · cases ht
        rfl
      · exact (Draft.mismatch_ok ht).elim
    unfold Draft.jsonItems
    rw [hd, ih hrest]
    rfl

theorem json_of_strings {levels : Levels} {d : Draft} {texts : List String}
    (h : Decoder.list .string levels d = .ok texts) : d.json levels = .ok (.arr (texts.map .str)) := by
  unfold Decoder.list at h
  split at h
  · obtain ⟨inner, hinner, h⟩ := bind_ok h
    obtain ⟨read, hread, h⟩ := bind_ok h
    obtain ⟨_, hending, h⟩ := bind_ok h
    cases h
    unfold Draft.json
    rw [hinner, hending]
    show (Draft.jsonItems inner _ >>= _) = _
    rw [jsonItems_of_strings hread]
    rfl
  · exact (Draft.mismatch_ok h).elim

/-- A text that is read as a list of texts holds that list. -/
theorem parse_of_strings {texts : List String} (h : (Decoder.list .string).ofText text = .ok texts) :
    parse text = .ok (.arr (texts.map .str)) := by
  rw [parse_eq]
  exact Decoder.ofText_imp h fun _ => json_of_strings

/-- A list of texts is what is read from its text. -/
theorem ofText_print_strings (texts : List String) :
    (Decoder.list .string).ofText (arr (texts.map .str)).print = .ok texts := by
  have hyields := Decoder.yields_list (g := fun t => t) fun t (_ : t ∈ texts) => Decoder.yields_string t
  rw [List.map_id'] at hyields
  refine hyields.ofText_print ((durableItems_iff _).2 fun j hj => ?_)
    (Nat.succ_le_succ ((depthItems_le_iff _ 126).2 fun j hj => ?_))
  · obtain ⟨t, -, rfl⟩ := List.mem_map.1 hj
    trivial
  · obtain ⟨t, -, rfl⟩ := List.mem_map.1 hj
    exact Nat.zero_le 126

end Json

namespace Target

/-! ### Fields and tags of rows -/

namespace HostRow

variable {r new : HostRow} {ms : Json.Members}

theorem column_of_isEmpty {name text : String} (h : text.isEmpty = true) : column name (some text) = .ok .null := if_pos h

theorem column_of_parse {name text : String} {j : Json} (h : Json.parse text = .ok j) : column name (some text) = .ok j := by
  show (if text.isEmpty then .ok .null else (Json.parse text).mapError (Fault.badColumn name text)) = Except.ok j
  split
  · rename_i hempty
    obtain rfl : text = "" := String.isEmpty_iff.1 hempty
    cases h
  · rw [h]
    rfl

/-- The fields are durable, if they can be read. -/
def Durable (r : HostRow) : Prop := ∀ ms, r.readFields = .ok ms → (Json.obj ms).Durable

theorem shallow_readFields (h : r.readFields = .ok ms) (durable : (Json.obj ms).Durable) : (Json.obj ms).depth ≤ 127 := by
  obtain ⟨j, hj, h⟩ := bind_ok h
  split at h <;> cases h
  · unfold column at hj
    split at hj
    · cases hj
    · split at hj
      · cases hj
      · exact (Json.Decoder.gives_json.ofText (mapError_ok hj)).shallow 127 rfl
  · exact Nat.le_of_ble_eq_true rfl

/-- The fields that are changed are those that are read. -/
theorem readFields_of_change (h : r.fieldsToChange = .ok ms) : r.readFields = .ok ms := by
  unfold fieldsToChange at h
  unfold readFields
  split at h
  · rename_i hnone
    cases h
    rw [hnone]
    rfl
  · rename_i text htext
    rw [htext]
    split at h <;> cases h <;> rename_i hparse <;> rw [column_of_parse hparse] <;> rfl

theorem tagsToChange_of_ofText {text : String} {texts : List String} (htags : r.tags = some text)
    (h : (Decoder.list .string).ofText text = .ok texts) : r.tagsToChange = .ok texts := by
  unfold tagsToChange
  rw [htags]
  dsimp only
  split
  · rename_i hempty
    obtain rfl : text = "" := String.isEmpty_iff.1 hempty
    cases h
  · rw [h]
    rfl

theorem readTags_of_change {texts : List String} (h : r.tagsToChange = .ok texts) : r.readTags = .ok (texts.map .str) := by
  unfold tagsToChange at h
  unfold readTags
  split at h
  · rename_i hnone
    cases h
    rw [hnone]
    rfl
  · rename_i text htext
    rw [htext]
    split at h
    · rename_i hempty
      cases h
      rw [column_of_isEmpty hempty]
      rfl
    · rw [column_of_parse (Json.parse_of_strings (mapError_ok h))]
      rfl

/-- A value that is put among fields that are read back is read back with them. -/
theorem storable_insert (field : String) {value : Json} (durable : (Json.obj ms).Durable) (hshallow : (Json.obj ms).depth ≤ 127)
    (hvalue : value.Durable) (hdepth : value.depth ≤ 126) :
    (Json.obj (ms.insert field value)).Durable ∧ (Json.obj (ms.insert field value)).depth ≤ 127 := by
  obtain ⟨hordered, hmembers⟩ := durable
  refine ⟨⟨Json.Members.ordered_insert field value hordered, (Json.durableMembers_iff _).2 fun e he => ?_⟩,
    Nat.succ_le_succ ((Json.depthMembers_le_iff _ 126).2 fun e he => ?_)⟩
  · rcases Json.Members.mem_of_mem_insert he with rfl | he
    · exact hvalue
    · exact (Json.durableMembers_iff ms).1 hmembers e he
  · rcases Json.Members.mem_of_mem_insert he with rfl | he
    · exact hdepth
    · exact (Json.depthMembers_le_iff ms 126).1 (Nat.le_of_succ_le_succ hshallow) e he

/-- The row that has a field set has the others as they were. -/
theorem fieldsToChange_putField {field : String} {value : Json} (h : r.putField field value = .ok new) (durable : r.Durable)
    (hvalue : value.Durable) (hdepth : value.depth ≤ 126) : ∃ ms, r.fieldsToChange = .ok ms ∧
      new.fieldsToChange = .ok (ms.insert field value) ∧ (Json.obj (ms.insert field value)).Durable := by
  obtain ⟨ms, hms, h⟩ := bind_ok h
  cases h
  have hread := readFields_of_change hms
  obtain ⟨hinserted, hdepths⟩ :=
    storable_insert field (durable ms hread) (shallow_readFields hread (durable ms hread)) hvalue hdepth
  refine ⟨ms, hms, ?_, hinserted⟩
  unfold fieldsToChange
  dsimp only
  rw [Json.parse_print hinserted hdepths]

/-- The row that has a tag has it behind those that it had, if it had it not. -/
theorem tagsToChange_addTag {label : String} (h : r.addTag label = .ok new) : ∃ texts, r.tagsToChange = .ok texts ∧
    new.tagsToChange = .ok (if texts.contains label then texts else texts ++ [label]) := by
  obtain ⟨texts, htexts, h⟩ := bind_ok h
  refine ⟨texts, htexts, ?_⟩
  split at h <;> rename_i hlabel <;> cases h
  · rw [if_pos hlabel, htexts]
  · rw [if_neg hlabel]
    exact tagsToChange_of_ofText rfl (Json.ofText_print_strings (texts ++ [label]))

/-- The fields of a row that has one set, as they are read. -/
theorem readFields_putField {field : String} {value : Json} (h : r.putField field value = .ok new) (durable : r.Durable)
    (hvalue : value.Durable) (hdepth : value.depth ≤ 126) :
    ∃ ms, r.readFields = .ok ms ∧ new.readFields = .ok (ms.insert field value) ∧ (Json.obj (ms.insert field value)).Durable := by
  obtain ⟨ms, hms, hnew, hinserted⟩ := fieldsToChange_putField h durable hvalue hdepth
  exact ⟨ms, readFields_of_change hms, readFields_of_change hnew, hinserted⟩

/-- The tags of a row that was given one, as they are read. -/
theorem readTags_addTag {label : String} (h : r.addTag label = .ok new) :
    ∃ added : List String, (∀ l ∈ added, l = label) ∧ new.readTags = r.readTags.map (· ++ added.map .str) := by
  obtain ⟨texts, htexts, hnew⟩ := tagsToChange_addTag h
  rw [readTags_of_change htexts, readTags_of_change hnew]
  split
  · exact ⟨[], by simp, congrArg Except.ok (List.append_nil _).symm⟩
  · exact ⟨[label], by simp, congrArg Except.ok List.map_append⟩

theorem readTags_putField {field : String} {value : Json} (h : r.putField field value = .ok new) :
    new.readTags = r.readTags := by
  obtain ⟨fields, -, h⟩ := bind_ok h
  cases h
  rfl

theorem readFields_addTag {label : String} (h : r.addTag label = .ok new) : new.readFields = r.readFields := by
  obtain ⟨tags, -, h⟩ := bind_ok h
  split at h <;> cases h <;> rfl

end HostRow

/-! ### Entities as they are kept -/

/-- An entity in memory, or a row of a table. -/
inductive Holding where
  | entity (e : Entity)
  | row (r : HostRow)

namespace Holding

def outline : Holding → Holding
  | entity e => entity e.outline
  | row r => row r.outline

def fields : Holding → Except Fault Json.Members
  | entity e => .ok e.fields
  | row r => r.readFields

def tags : Holding → Except Fault (List Json)
  | entity e => .ok (e.tags.map .str)
  | row r => r.readTags

/-- A row has durable fields. -/
def Durable : Holding → Prop
  | entity _ => True
  | row r => r.Durable

/-- A row takes values that are durable, and not too deep for the object around them. -/
def Takes (v : Json) : Holding → Prop
  | entity _ => True
  | row _ => v.Durable ∧ v.depth ≤ 126

/-- No more was changed than the fields that were written and the tags that were given: the outline is as it was, every tag
stays, and so does every other field if fields and values are durable. -/
structure Keeps (written : List (String × Json)) (labels : List String) (h h' : Holding) : Prop where
  outline : h'.outline = h.outline
  tags : ∃ added : List String, (∀ l ∈ added, l ∈ labels) ∧ h'.tags = h.tags.map (· ++ added.map .str)
  fields : h.Durable → (∀ w ∈ written, h.Takes w.2) → h'.Durable ∧
    ∀ name, name ∉ written.map (·.1) → h'.fields.map (·.lookup name) = h.fields.map (·.lookup name)

variable {h mid h' : Holding} {written written' : List (String × Json)} {labels labels' : List String}

theorem takes_of_outline (same : h'.outline = h.outline) {v : Json} (takes : h.Takes v) : h'.Takes v := by
  cases h with
  | entity e =>
    cases h' with
    | entity e' => trivial
    | row r => cases same
  | row r =>
    cases h' with
    | entity e => trivial
    | row r' => exact takes

theorem keeps_refl (h : Holding) : h.Keeps written labels h where
  outline := rfl
  tags := by
    refine ⟨[], by simp, ?_⟩
    cases h.tags <;> simp [Except.map]
  fields durable _ := ⟨durable, fun _ _ => rfl⟩

theorem Keeps.mono (kept : h.Keeps written labels h') (hwritten : written ⊆ written') (hlabels : labels ⊆ labels') :
    h.Keeps written' labels' h' where
  outline := kept.outline
  tags := by
    obtain ⟨added, hadded, htags⟩ := kept.tags
    exact ⟨added, fun l hl => hlabels (hadded l hl), htags⟩
  fields durable takes := by
    obtain ⟨durable', same⟩ := kept.fields durable fun w hw => takes w (hwritten hw)
    exact ⟨durable', fun name hname => same name fun hmem => hname (List.map_subset _ hwritten hmem)⟩

theorem Keeps.trans (first : h.Keeps written labels mid) (second : mid.Keeps written' labels' h') :
    h.Keeps (written ++ written') (labels ++ labels') h' where
  outline := second.outline.trans first.outline
  tags := by
    obtain ⟨added, hadded, htags⟩ := first.tags
    obtain ⟨added', hadded', htags'⟩ := second.tags
    refine ⟨added ++ added', fun l hl => ?_, ?_⟩
    · rcases List.mem_append.1 hl with hl | hl
      · exact List.mem_append_left _ (hadded l hl)
      · exact List.mem_append_right _ (hadded' l hl)
    · rw [htags', htags]
      cases h.tags <;> simp [Except.map]
  fields durable takes := by
    obtain ⟨durable', kept⟩ := first.fields durable fun w hw => takes w (List.mem_append_left _ hw)
    obtain ⟨durable'', kept'⟩ := second.fields durable' fun w hw =>
      takes_of_outline first.outline (takes w (List.mem_append_right _ hw))
    refine ⟨durable'', fun name hname => ?_⟩
    rw [List.map_append, List.mem_append, not_or] at hname
    exact (kept' name hname.2).trans (kept name hname.1)

/-- An entity that is there stays and is kept, and one that is not does not come. -/
def Kept (written : List (String × Json)) (labels : List String) (x x' : Option Holding) : Prop :=
  Option.Rel (Keeps written labels) x x'

theorem kept_refl (x : Option Holding) : Kept written labels x x := by
  cases x with
  | none => exact .none
  | some h => exact .some (keeps_refl h)

theorem Kept.mono {x x' : Option Holding} (kept : Kept written labels x x') (hwritten : written ⊆ written')
    (hlabels : labels ⊆ labels') : Kept written' labels' x x' := by
  cases kept with
  | none => exact .none
  | some h => exact .some (h.mono hwritten hlabels)

theorem Kept.trans {x y z : Option Holding} (first : Kept written labels x y) (second : Kept written' labels' y z) :
    Kept (written ++ written') (labels ++ labels') x z := by
  cases first with
  | none =>
    cases second
    exact .none
  | some h =>
    cases second with
    | some g => exact .some (h.trans g)

end Holding

/-! ### Calls on one entity -/

namespace Call

/-- The entity that a call is about. -/
def subject? : Call → Option String
  | .status id | .changedAt id | .field id _ | .putField id _ _ | .tag id _ | .email id | .view id => some id
  | .find _ _ => none

/-- The field that a call sets, with its value. -/
def written : Call → List (String × Json)
  | .putField _ name value => [(name, value)]
  | _ => []

/-- The tag that a call gives. -/
def labels : Call → List String
  | .tag _ label => [label]
  | _ => []

end Call

variable {id : String} {c : Call}

theorem Entity.keeps_putField (e : Entity) (field : String) (value : Json) :
    (Holding.entity e).Keeps [(field, value)] [] (.entity { e with fields := e.fields.insert field value }) where
  outline := rfl
  tags := ⟨[], by simp, by simp [Holding.tags, Except.map]⟩
  fields _ _ := by
    refine ⟨trivial, fun name hname => congrArg Except.ok ?_⟩
    exact Json.Members.lookup_insert_of_ne (fun heq => hname (by simp [heq])) value e.fields

theorem Entity.keeps_addTag (e : Entity) (label : String) :
    (Holding.entity e).Keeps [] [label] (.entity (e.addTag label)) where
  outline := congrArg Holding.entity (e.outline_addTag label)
  tags := by
    unfold Entity.addTag
    split
    · exact ⟨[], by simp, by simp [Holding.tags, Except.map]⟩
    · exact ⟨[label], by simp, by simp [Holding.tags, Except.map]⟩
  fields _ _ := by
    unfold Entity.addTag
    split <;> exact ⟨trivial, fun _ _ => rfl⟩

theorem HostRow.keeps_putField {r new : HostRow} {field : String} {value : Json} (h : r.putField field value = .ok new) :
    (Holding.row r).Keeps [(field, value)] [] (.row new) where
  outline := congrArg Holding.row (HostRow.outline_putField h)
  tags := by
    refine ⟨[], by simp, ?_⟩
    show new.readTags = r.readTags.map _
    rw [HostRow.readTags_putField h]
    cases r.readTags <;> simp [Except.map]
  fields durable takes := by
    obtain ⟨hvalue, hdepth⟩ := takes _ List.mem_cons_self
    obtain ⟨ms, hread, hnew, hdurable⟩ := HostRow.readFields_putField h durable hvalue hdepth
    refine ⟨fun ms' hms' => ?_, fun name hname => ?_⟩
    · rw [hnew] at hms'
      cases hms'
      exact hdurable
    · show new.readFields.map _ = r.readFields.map _
      rw [hread, hnew]
      exact congrArg Except.ok (Json.Members.lookup_insert_of_ne (fun heq => hname (by simp [heq])) value ms)

theorem HostRow.keeps_addTag {r new : HostRow} {label : String} (h : r.addTag label = .ok new) :
    (Holding.row r).Keeps [] [label] (.row new) where
  outline := congrArg Holding.row (HostRow.outline_addTag h)
  tags := by
    obtain ⟨added, hadded, htags⟩ := HostRow.readTags_addTag h
    exact ⟨added, fun l hl => List.mem_singleton.2 (hadded l hl), htags⟩
  fields durable _ := by
    have hread := HostRow.readFields_addTag h
    refine ⟨fun ms hms => durable ms (hread ▸ hms), fun name _ => ?_⟩
    show new.readFields.map _ = r.readFields.map _
    rw [hread]

/-! ### Calls in memory -/

namespace Memory

variable {m m' : Memory}

theorem lookup_update (m : Memory) (id : String) (f : Entity → Entity) (other : String) :
    (m.update id f).lookup other = if other = id then (m.lookup other).map f else m.lookup other := by
  induction m with
  | nil => simp [update]
  | cons p m ih =>
    obtain ⟨k, e⟩ := p
    show List.lookup other ((if k = id then (k, f e) else (k, e)) :: update m id f) = _
    by_cases hk : other = k
    · subst hk
      by_cases hid : other = id <;> simp [hid]
    · have hother : (other == k) = false := beq_false_of_ne hk
      split <;> rw [List.lookup_cons, List.lookup_cons, hother] <;> exact ih

theorem lookup_write (m : Memory) (id : String) (f : Entity → Entity) (other : String) :
    (m.write id f).2.lookup other = if other = id then (m.lookup other).map f else m.lookup other := by
  unfold write
  split
  · exact m.lookup_update id f other
  · rename_i hnone
    split
    · rename_i heq
      rw [heq, Option.not_isSome_iff_eq_none.1 hnone]
      rfl
    · rfl

/-- A call changes no other entity. -/
theorem lookup_answer_of_ne (h : c.subject? = some id) {other : String} (hne : other ≠ id) (m : Memory) :
    (m.answer c).2.lookup other = m.lookup other := by
  cases c with
  | putField i name value =>
    cases h
    exact (m.lookup_write id _ other).trans (if_neg hne)
  | tag i label =>
    cases h
    exact (m.lookup_write id _ other).trans (if_neg hne)
  | _ => rfl

theorem keeps_answer (h : c.subject? = some id) (m : Memory) :
    Holding.Kept c.written c.labels ((m.lookup id).map .entity) (((m.answer c).2.lookup id).map .entity) := by
  have written {f : Entity → Entity} {ws : List (String × Json)} {ls : List String}
      (hf : ∀ e, (Holding.entity e).Keeps ws ls (.entity (f e))) :
      Holding.Kept ws ls ((m.lookup id).map .entity) (((m.write id f).2.lookup id).map .entity) := by
    rw [lookup_write, if_pos rfl]
    cases m.lookup id with
    | none => exact .none
    | some e => exact .some (hf e)
  have read : Holding.Kept [] [] ((m.lookup id).map .entity) ((m.lookup id).map .entity) := Holding.kept_refl _
  cases c with
  | putField i name value =>
    cases h
    exact written fun e => e.keeps_putField name value
  | tag i label =>
    cases h
    exact written fun e => e.keeps_addTag label
  | find status before => cases h
  | _ => exact read

/-- A call is answered from its entity alone. -/
theorem answer_of_lookup (h : c.subject? = some id) (same : m'.lookup id = m.lookup id) :
    (m'.answer c).1 = (m.answer c).1 ∧ (m'.answer c).2.lookup id = (m.answer c).2.lookup id := by
  have read {α : Type} (f : Entity → α) : m'.read id f = m.read id f := by
    unfold Memory.read
    rw [same]
  have write (f : Entity → Entity) :
      (m'.write id f).1 = (m.write id f).1 ∧ (m'.write id f).2.lookup id = (m.write id f).2.lookup id := by
    refine ⟨?_, by rw [lookup_write, lookup_write, same]⟩
    unfold Memory.write
    rw [same]
    split <;> rfl
  cases c with
  | find status before => cases h
  | putField i name value => cases h; exact write _
  | tag i label => cases h; exact write _
  | _ => cases h; exact ⟨read _, same⟩

end Memory

/-! ### Calls in a table -/

namespace HostRows

variable {rows rows' : HostRows} {f : HostRow → Except Fault HostRow} {new : HostRow}

/-- A row that is not found is told by its identifier. -/
theorem get_of_toOption (h : (rows'.get id).toOption = (rows.get id).toOption) : rows'.get id = rows.get id := by
  unfold get at h ⊢
  generalize rows.find? (·.id == id) = found at h ⊢
  generalize rows'.find? (·.id == id) = found' at h ⊢
  cases found with
  | none =>
    cases found' with
    | none => rfl
    | some r' => cases h
  | some r =>
    cases found' with
    | none => cases h
    | some r' =>
      cases h
      rfl

theorem get_replace (rows : HostRows) (hid : new.id = id) (other : String) :
    get (rows.map fun r => if r.id == id then new else r) other =
      if other = id then (rows.get id).map fun _ => new else rows.get other := by
  induction rows with
  | nil => split <;> simp_all [get, Except.map]
  | cons r rows ih =>
    unfold get at ih ⊢
    rw [List.map_cons, List.find?_cons, List.find?_cons, List.find?_cons]
    by_cases hr : r.id = id
    · by_cases ho : other = id
      · simp [hr, ho, hid, Except.map]
      · simp only [hr, hid, ho, beq_self_eq_true, if_true, if_false, beq_false_of_ne (Ne.symm ho)] at ih ⊢
        exact ih
    · by_cases ho : other = id
      · subst ho
        simp only [beq_false_of_ne hr, if_true, Bool.false_eq_true, if_false] at ih ⊢
        exact ih
      · simp only [beq_false_of_ne hr, ho, if_false, Bool.false_eq_true] at ih ⊢
        cases r.id == other
        · exact ih
        · rfl

theorem change_ok (h : (rows.get id).bind f = .ok new) :
    rows.change id f = (.ok (), rows.map fun r => if r.id == id then new else r) := by
  unfold change
  rw [h]

theorem change_error {e : Fault} (h : (rows.get id).bind f = .error e) : rows.change id f = (.error e, rows) := by
  unfold change
  rw [h]

variable (keepsId : ∀ r new, f r = .ok new → new.id = r.id)

include keepsId

theorem id_of_change (h : (rows.get id).bind f = .ok new) : new.id = id := by
  obtain ⟨old, hold, hf⟩ := bind_ok h
  exact (keepsId old new hf).trans (mem_of_get hold).2

theorem get_change_of_ne {other : String} (hne : other ≠ id) (rows : HostRows) :
    (rows.change id f).2.get other = rows.get other := by
  cases h : (rows.get id).bind f with
  | ok new =>
    rw [change_ok h]
    exact (rows.get_replace (id_of_change keepsId h) other).trans (if_neg hne)
  | error e => rw [change_error h]

theorem get_change_ok (h : (rows.get id).bind f = .ok new) : (rows.change id f).2.get id = .ok new := by
  obtain ⟨old, hold, -⟩ := bind_ok h
  rw [change_ok h]
  refine (rows.get_replace (id_of_change keepsId h) id).trans ?_
  rw [if_pos rfl, hold]
  rfl

omit keepsId

/-- A call changes no other row. -/
theorem get_answer_of_ne (h : c.subject? = some id) {other : String} (hne : other ≠ id) (rows : HostRows) :
    (rows.answer c).2.get other = rows.get other := by
  cases c with
  | putField i name value =>
    cases h
    exact get_change_of_ne (fun _ _ h => congrArg (·.id) (HostRow.outline_putField h)) hne rows
  | tag i label =>
    cases h
    exact get_change_of_ne (fun _ _ h => congrArg (·.id) (HostRow.outline_addTag h)) hne rows
  | _ => rfl

theorem keeps_answer (h : c.subject? = some id) (rows : HostRows) :
    Holding.Kept c.written c.labels ((rows.get id).toOption.map .row)
      (((rows.answer c).2.get id).toOption.map .row) := by
  have read (ws : List (String × Json)) (ls : List String) :
      Holding.Kept ws ls ((rows.get id).toOption.map .row) ((rows.get id).toOption.map .row) := Holding.kept_refl _
  have changed {f : HostRow → Except Fault HostRow} {ws : List (String × Json)} {ls : List String}
      (keepsId : ∀ r new, f r = .ok new → new.id = r.id)
      (hf : ∀ r new, f r = .ok new → (Holding.row r).Keeps ws ls (.row new)) :
      Holding.Kept ws ls ((rows.get id).toOption.map .row)
        (((rows.change id f).2.get id).toOption.map .row) := by
    cases hx : (rows.get id).bind f with
    | ok new =>
      rw [get_change_ok keepsId hx]
      obtain ⟨old, hold, hnew⟩ := bind_ok hx
      rw [hold]
      exact .some (hf old new hnew)
    | error e =>
      rw [change_error hx]
      exact read ws ls
  cases c with
  | putField i name value =>
    cases h
    exact changed (fun _ _ h => congrArg (·.id) (HostRow.outline_putField h)) fun _ _ => HostRow.keeps_putField
  | tag i label =>
    cases h
    exact changed (fun _ _ h => congrArg (·.id) (HostRow.outline_addTag h)) fun _ _ => HostRow.keeps_addTag
  | find status before => cases h
  | _ => exact read [] []

/-- A call is answered from its row alone. -/
theorem answer_of_get (h : c.subject? = some id) (same : rows'.get id = rows.get id) :
    (rows'.answer c).1 = (rows.answer c).1 ∧ (rows'.answer c).2.get id = (rows.answer c).2.get id := by
  have change {f : HostRow → Except Fault HostRow} (keepsId : ∀ r new, f r = .ok new → new.id = r.id) :
      (rows'.change id f).1 = (rows.change id f).1 ∧ (rows'.change id f).2.get id = (rows.change id f).2.get id := by
    cases hx : (rows.get id).bind f with
    | ok new =>
      have hx' : (rows'.get id).bind f = .ok new := by rw [same, hx]
      exact ⟨by rw [change_ok hx, change_ok hx'], by rw [get_change_ok keepsId hx, get_change_ok keepsId hx']⟩
    | error e =>
      have hx' : (rows'.get id).bind f = .error e := by rw [same, hx]
      rw [change_error hx, change_error hx']
      exact ⟨rfl, same⟩
  cases c with
  | putField i name value =>
    cases h
    exact change fun _ _ h => congrArg (·.id) (HostRow.outline_putField h)
  | tag i label =>
    cases h
    exact change fun _ _ h => congrArg (·.id) (HostRow.outline_addTag h)
  | find status before => cases h
  | _ =>
    cases h
    exact ⟨by simp only [answer, same], same⟩

end HostRows

end Target

end Lifecycle
