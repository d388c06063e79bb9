import Lifecycle.Proofs.Target.Finding
import Lifecycle.Proofs.Target.Holdings

/-!
# Entities in memory and in a table

The same calls on the same entities have the same answers, whether the entities are kept in memory or in a table, and leave the
same entities. Two differences remain: a field that holds null counts as none in a table, and those that are found are found in
another order. A table writes values into texts, so the values that it is given must be such that they are read back.
-/

namespace Lifecycle.Target

open Time (Instant)

/-! ### The same entities -/

/-- The row is the one of the entity: its time is the entity's in whole milliseconds, and its texts hold the fields and the
tags. The owner is told by a text that is not blank, and the fields can be written back. -/
structure HostRow.Shows (r : HostRow) (e : Entity) : Prop where
  status : r.status = e.status
  changedAt : Option.Rel (fun c t => ∃ n, c = .int n ∧ Instant.ofMillis? n = some t) r.changedAt e.changedAt
  email : r.email = e.email
  owned : ∀ a ∈ e.email, Text.isBlank a = false
  fields : r.fieldsToChange = .ok e.fields
  durable : (Json.obj e.fields).Durable
  tags : r.tagsToChange = .ok e.tags

/-- Table and memory keep the same entities under the same identifiers. -/
structure HostRows.Mirrors (rows : HostRows) (m : Memory) : Prop where
  distinctRows : (rows.map (·.id)).Nodup
  distinct : (m.map (·.1)).Nodup
  shows : ∀ id, Option.Rel HostRow.Shows (rows.get id).toOption (m.lookup id)

/-- The answers of table and memory are the same, but for nulls among fields and the order of those found. -/
def Call.Agree : (c : Call) → c.Answer → c.Answer → Prop
  | .field _ _, x, y => x = y.map (·.filter (!·.isNull))
  | .find _ _, x, y => ∃ ids found : List String, x = .ok ids ∧ y = .ok found ∧ ids.Perm found
  | .status _, x, y => x = y
  | .changedAt _, x, y => x = y
  | .putField _ _ _, x, y => x = y
  | .tag _ _, x, y => x = y
  | .email _, x, y => x = y
  | .view _, x, y => x = y

/-- The value that a call sets is read back, also as a field. -/
def Call.Fits : Call → Prop
  | .putField _ _ value => value.Durable ∧ value.depth ≤ 126
  | _ => True

/-! ### One entity -/

namespace HostRow.Shows

variable {r : HostRow} {e : Entity}

theorem readFields (h : r.Shows e) : r.readFields = .ok e.fields := readFields_of_change h.fields

/-- Both have the same time of a change, or neither has one. -/
theorem times (h : r.Shows e) : r.changedAt = none ∧ e.changedAt = none ∨
    ∃ n t, r.changedAt = some (.int n) ∧ e.changedAt = some t ∧ Instant.ofMillis? n = some t := by
  have hchanged := h.changedAt
  generalize r.changedAt = c?, e.changedAt = t? at hchanged ⊢
  cases hchanged with
  | none => exact .inl ⟨rfl, rfl⟩
  | some hn =>
    obtain ⟨n, rfl, ht⟩ := hn
    exact .inr ⟨n, _, rfl, rfl, ht⟩

theorem changed? (h : r.Shows e) : r.changed? = .ok e.changedAt := by
  rcases h.times with ⟨hr, he⟩ | ⟨n, t, hr, he, ht⟩
  · rw [changed?_of_none hr, he]
  · rw [changed?_of_int hr, he, ht]

theorem timely (h : r.Shows e) : ∀ c ∈ r.changedAt, ∃ n, c = .int n ∧ Store.IsTime n := by
  intro c hc
  rcases h.times with ⟨hr, -⟩ | ⟨n, t, hr, -, ht⟩
  · rw [hr] at hc
    cases hc
  · rw [hr] at hc
    cases hc
    exact ⟨n, rfl, t, ht⟩

theorem ownerEmail (h : r.Shows e) : r.email.filter (!Text.isBlank ·) = e.email := by
  rw [h.email]
  cases he : e.email with
  | none => rfl
  | some a => rw [Option.filter_some_pos (by simp [h.owned a he])]

theorem field? (h : r.Shows e) (field : String) : r.field? field = .ok ((e.fields.lookup field).filter (!·.isNull)) := by
  unfold HostRow.field?
  rw [h.readFields]
  rfl

theorem readView (h : r.Shows e) :
    r.readView = .ok (view r.id e.status e.changedAt e.email e.fields (e.tags.map .str)) := by
  unfold HostRow.readView
  rw [h.changed?, h.readFields, readTags_of_change h.tags, h.status, h.email]
  rfl

/-- A field is set in the row as it is in the entity. -/
theorem putField (h : r.Shows e) {value : Json} (hvalue : value.Durable) (hdepth : value.depth ≤ 126) (field : String) :
    ∃ new, r.putField field value = .ok new ∧ new.Shows { e with fields := e.fields.insert field value } := by
  obtain ⟨new, hnew⟩ : ∃ new, r.putField field value = .ok new := by
    unfold HostRow.putField
    rw [h.fields]
    exact ⟨_, rfl⟩
  have durable : r.Durable := fun ms hms => by
    rw [h.readFields] at hms
    cases hms
    exact h.durable
  obtain ⟨ms, hms, hfields, hinserted⟩ := fieldsToChange_putField hnew durable hvalue hdepth
  rw [h.fields] at hms
  cases hms
  obtain ⟨_, -, hset⟩ := bind_ok hnew
  cases hset
  exact ⟨_, hnew, ⟨h.status, h.changedAt, h.email, h.owned, hfields, hinserted, h.tags⟩⟩

/-- A tag is given to the row as it is to the entity. -/
theorem addTag (h : r.Shows e) (label : String) : ∃ new, r.addTag label = .ok new ∧ new.Shows (e.addTag label) := by
  unfold HostRow.addTag Entity.addTag
  rw [h.tags]
  by_cases hlabel : e.tags.contains label
  · exact ⟨r, if_pos hlabel, by rw [if_pos hlabel]; exact h⟩
  · refine ⟨_, if_neg hlabel, ?_⟩
    rw [if_neg hlabel]
    have htags := Json.ofText_print_strings (e.tags ++ [label])
    exact ⟨h.status, h.changedAt, h.email, h.owned, h.fields, h.durable, tagsToChange_of_ofText rfl htags⟩

end HostRow.Shows

/-! ### Entities that are there and those that are not -/

namespace HostRows

variable {rows : HostRows} {m : Memory}

/-- An entity is in both or in neither. -/
theorem Mirrors.cases (h : rows.Mirrors m) (id : String) :
    rows.get id = .error (.notFound id) ∧ m.lookup id = none ∨
      ∃ r e, rows.get id = .ok r ∧ r.id = id ∧ m.lookup id = some e ∧ r.Shows e := by
  have hshows := h.shows id
  cases hget : rows.get id with
  | error f =>
    rw [hget] at hshows
    have hf : f = .notFound id := by
      unfold get at hget
      split at hget <;> cases hget
      rfl
    generalize m.lookup id = e? at hshows ⊢
    cases hshows
    exact .inl ⟨hf ▸ rfl, rfl⟩
  | ok r =>
    rw [hget] at hshows
    generalize m.lookup id = e? at hshows ⊢
    cases hshows with
    | some hr => exact .inr ⟨r, _, rfl, (mem_of_get hget).2, rfl, hr⟩

/-- What is read of a row is what is read of its entity. -/
theorem Mirrors.read {α : Type} (h : rows.Mirrors m) {id : String} {f : HostRow → Except Fault α} {g : Entity → α}
    (hfg : ∀ r e, r.id = id → r.Shows e → f r = .ok (g e)) : (rows.get id).bind f = m.read id g := by
  unfold Memory.read
  rcases h.cases id with ⟨hget, hlookup⟩ | ⟨r, e, hget, hid, hlookup, hr⟩
  · rw [hget, hlookup]
    rfl
  · rw [hget, hlookup]
    exact hfg r e hid hr

/-- A row that is changed as its entity is goes on being the one of its entity, and no other row is changed. -/
theorem Mirrors.change (h : rows.Mirrors m) (id : String) {f : HostRow → Except Fault HostRow} {g : Entity → Entity}
    (keepsId : ∀ r new, f r = .ok new → new.id = r.id) (hfg : ∀ r e, r.Shows e → ∃ new, f r = .ok new ∧ new.Shows (g e)) :
    (rows.change id f).1 = (m.write id g).1 ∧
      ∀ other, Option.Rel HostRow.Shows ((rows.change id f).2.get other).toOption ((m.write id g).2.lookup other) := by
  have hothers {other : String} (hne : other ≠ id) :
      Option.Rel HostRow.Shows ((rows.change id f).2.get other).toOption ((m.write id g).2.lookup other) := by
    rw [get_change_of_ne keepsId hne, Memory.lookup_write, if_neg hne]
    exact h.shows other
  rcases h.cases id with ⟨hget, hlookup⟩ | ⟨r, e, hget, -, hlookup, hr⟩
  · have hbind : (rows.get id).bind f = .error (.notFound id) := by rw [hget]; rfl
    refine ⟨?_, fun other => ?_⟩
    · rw [change_error hbind, Memory.write, hlookup]
      rfl
    · by_cases hne : other = id
      · subst hne
        rw [change_error hbind, hget, Memory.lookup_write, if_pos rfl, hlookup]
        exact .none
      · exact hothers hne
  · obtain ⟨new, hnew, hshows⟩ := hfg r e hr
    have hbind : (rows.get id).bind f = .ok new := by rw [hget]; exact hnew
    refine ⟨?_, fun other => ?_⟩
    · rw [change_ok hbind, Memory.write, hlookup]
      rfl
    · by_cases hne : other = id
      · subst hne
        rw [get_change_ok keepsId hbind, Memory.lookup_write, if_pos rfl, hlookup]
        exact .some hshows
      · exact hothers hne

/-! ### Calls -/

theorem Mirrors.status (h : rows.Mirrors m) (id : String) : (rows.answer (.status id)).1 = (m.answer (.status id)).1 :=
  h.read fun _ _ _ hr => congrArg Except.ok hr.status

theorem Mirrors.changedAt (h : rows.Mirrors m) (id : String) :
    (rows.answer (.changedAt id)).1 = (m.answer (.changedAt id)).1 :=
  h.read fun _ _ _ hr => hr.changed?

/-- The same entities are found. -/
theorem Mirrors.find (h : rows.Mirrors m) (status : String) (before : Instant) :
    Call.Agree (.find status before) (rows.answer (.find status before)).1 (m.answer (.find status before)).1 := by
  have timely : ∀ r ∈ rows, ∀ c ∈ r.changedAt, ∃ n, c = .int n ∧ Store.IsTime n := by
    intro r hr
    have hget := (get_eq_ok_iff h.distinctRows).2 ⟨hr, rfl⟩
    rcases h.cases r.id with ⟨hnone, -⟩ | ⟨_, e, hsome, -, -, hshows⟩
    · rw [hget] at hnone
      cases hnone
    · rw [hget] at hsome
      cases hsome
      exact hshows.timely
  obtain ⟨ids, hids⟩ : ∃ ids, (rows.answer (.find status before)).1 = .ok ids := ⟨_, rfl⟩
  obtain ⟨found, hfound⟩ : ∃ found, (m.answer (.find status before)).1 = .ok found := ⟨_, rfl⟩
  obtain ⟨hnodup, hmem⟩ := mem_found h.distinctRows timely hids
  obtain ⟨hnodup', hmem'⟩ := Memory.mem_found h.distinct hfound
  refine ⟨ids, found, hids, hfound, (List.perm_ext_iff_of_nodup hnodup hnodup').2 fun id => ?_⟩
  rw [hmem, hmem', h.status, h.changedAt]

/-- A call is answered alike, and leaves the same entities. -/
theorem Mirrors.answer (h : rows.Mirrors m) {c : Call} (hc : c.Fits) :
    c.Agree (rows.answer c).1 (m.answer c).1 ∧ (rows.answer c).2.Mirrors (m.answer c).2 := by
  have shown (hshows : ∀ id, Option.Rel HostRow.Shows ((rows.answer c).2.get id).toOption ((m.answer c).2.lookup id)) :
      (rows.answer c).2.Mirrors (m.answer c).2 :=
    ⟨ids_answer h.distinctRows c ▸ h.distinctRows, m.names_answer c ▸ h.distinct, hshows⟩
  cases c with
  | status id => exact ⟨h.status id, h⟩
  | changedAt id => exact ⟨h.changedAt id, h⟩
  | field id field =>
    refine ⟨(h.read fun _ _ _ hr => hr.field? field).trans ?_, h⟩
    show m.read id _ = (m.read id _).map _
    unfold Memory.read
    cases m.lookup id <;> rfl
  | putField id field value =>
    obtain ⟨hanswer, hshows⟩ := h.change id (f := (·.putField field value))
      (g := fun e => { e with fields := e.fields.insert field value })
      (fun _ _ h => congrArg (·.id) (HostRow.outline_putField h)) fun _ _ hr => hr.putField hc.1 hc.2 field
    exact ⟨hanswer, shown hshows⟩
  | tag id label =>
    obtain ⟨hanswer, hshows⟩ := h.change id (f := (·.addTag label)) (g := (·.addTag label))
      (fun _ _ h => congrArg (·.id) (HostRow.outline_addTag h)) fun _ _ hr => hr.addTag label
    exact ⟨hanswer, shown hshows⟩
  | email id => exact ⟨h.read fun _ _ _ hr => congrArg Except.ok hr.ownerEmail, h⟩
  | view id => exact ⟨h.read fun r _ hid hr => hid ▸ hr.readView, h⟩
  | find status before => exact ⟨h.find status before, h⟩

/-- The rows after some calls. -/
def after (rows : HostRows) (calls : List Call) : HostRows := calls.foldl (fun rows c => (rows.answer c).2) rows

end HostRows

/-- The entities after some calls. -/
def Memory.after (m : Memory) (calls : List Call) : Memory := calls.foldl (fun m c => (m.answer c).2) m

variable {rows : HostRows} {m : Memory}

theorem HostRows.Mirrors.after (h : rows.Mirrors m) {calls : List Call} (hcalls : ∀ c ∈ calls, c.Fits) :
    (rows.after calls).Mirrors (m.after calls) := by
  induction calls generalizing rows m with
  | nil => exact h
  | cons c calls ih =>
    obtain ⟨hc, hcalls⟩ := List.forall_mem_cons.1 hcalls
    exact ih (h.answer hc).2 hcalls

/-- A table and a memory that keep the same entities answer every one of some calls alike, and keep the same entities then, as
long as the values that are set are read back. What they answer differs only where a field holds null, which is none in the
table, and in the order of those found. -/
theorem collections_agree (h : rows.Mirrors m) (calls : List Call) (hcalls : ∀ c ∈ calls, c.Fits) :
    (rows.after calls).Mirrors (m.after calls) ∧ ∀ earlier c later, calls = earlier ++ c :: later →
      c.Agree ((rows.after earlier).answer c).1 ((m.after earlier).answer c).1 := by
  refine ⟨h.after hcalls, fun earlier c later heq => ?_⟩
  subst heq
  obtain ⟨hearlier, hrest⟩ := List.forall_mem_append.1 hcalls
  exact ((h.after hearlier).answer (hrest c List.mem_cons_self)).1

namespace Lone

/-- A table with an entity that has a status, a time and an owner. -/
def table : HostRows :=
  [⟨"A-1", some "submitted", some (.int 1704067200000), some "o@x.com", some "\x7b\x7d", some "[]"⟩]

/-- The same entity in memory. -/
def held : Memory := [("A-1", ⟨some "submitted", Instant.ofMillis? 1704067200000, some "o@x.com", [], []⟩)]

theorem mirrors : table.Mirrors held where
  distinctRows := List.nodup_singleton _
  distinct := List.nodup_singleton _
  shows id := by
    by_cases h : id = "A-1"
    · subst h
      refine .some ⟨rfl, ?_, rfl, ?_, by decide +kernel, ⟨List.Pairwise.nil, trivial⟩, by decide +kernel⟩
      · exact .some ⟨1704067200000, rfl, rfl⟩
      · rintro a ⟨⟩
        decide
    · have hne : ("A-1" == id) = false := beq_false_of_ne (Ne.symm h)
      have hne' : (id == "A-1") = false := beq_false_of_ne h
      simp only [table, held, HostRows.get, List.find?_cons, List.find?_nil, List.lookup_cons, List.lookup_nil, hne, hne']
      exact .none

/-- A number of the binary format whose shortest digits are read as the number above it. -/
def amount : Json := .num (.double ⟨false, 8227335549429036, 70⟩)

end Lone

/-- An entity that was given a field and a tag is viewed alike. -/
theorem collections_agree_of_lone :
    let calls : List Call := [.putField "A-1" "note" (.str "seen"), .tag "A-1" "new"]
    Lone.table.Mirrors Lone.held ∧ (∀ c ∈ calls, c.Fits) ∧
      ((Lone.table.after calls).answer (.view "A-1")).1 = ((Lone.held.after calls).answer (.view "A-1")).1 := by
  intro calls
  have hview : Call.Fits (.view "A-1") := trivial
  have hcalls : ∀ c ∈ calls, c.Fits := List.forall_mem_cons.2 ⟨⟨trivial, Nat.zero_le 126⟩, List.forall_mem_singleton.2 trivial⟩
  have hall : ∀ c ∈ calls ++ [.view "A-1"], c.Fits :=
    List.forall_mem_append.2 ⟨hcalls, List.forall_mem_singleton.2 hview⟩
  exact ⟨Lone.mirrors, hcalls, (collections_agree Lone.mirrors _ hall).2 calls (.view "A-1") [] rfl⟩

/-- A number of the binary format that is set is read back from memory, but not from a table. -/
theorem amount_is_not_read_back :
    let calls : List Call := [.putField "A-1" "amount" Lone.amount]
    Lone.table.Mirrors Lone.held ∧ ¬ Call.Agree (.field "A-1" "amount")
      ((Lone.table.after calls).answer (.field "A-1" "amount")).1 ((Lone.held.after calls).answer (.field "A-1" "amount")).1 := by
  intro calls
  refine ⟨Lone.mirrors, fun h => ?_⟩
  have hvalues := congrArg Except.toOption (show @Eq (Except Fault (Option Json)) _ _ from h)
  revert hvalues
  decide +kernel

end Lifecycle.Target
