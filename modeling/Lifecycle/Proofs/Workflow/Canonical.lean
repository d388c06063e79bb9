import Lifecycle.Proofs.Json.Readings
import Lifecycle.Proofs.Workflow.Graph

/-!
# Canonical configurations

What a node does keeps to the rules of its type, and its values are in order. It has one canonical configuration, whatever
the names, the order and the defaults of the configuration that it was read from; and from that one it is read again.
-/

namespace Lifecycle

open Json (Decoder Fields Members Draft Levels)

/-! ### Rules -/

/-- What is promised of what a node does. -/
def Kind.Lawful : Kind → Prop
  | .trigger => True
  | .email e => Text.isBlank e.templateId = false
  | .delay d => d.Proper
  | .condition (.statusEquals status) => status ≠ ""
  | .condition (.stuckDuration _ threshold _) => 0 ≤ threshold
  | .condition (.fieldEquals field _) => Text.isBlank field = false
  | .webhook w => ∃ url, Url.parse w.url = .ok url
  | .mutateTarget m => Text.isBlank m.field = false
  | .tagTarget t => Text.isBlank t.label = false

theorem Predicate.Draft.lawful {c : Predicate.Draft} {p : Predicate} (h : c.predicate = .ok p) : (Kind.condition p).Lawful := by
  unfold Predicate.Draft.predicate at h
  split at h
  · split at h
    · split at h <;> cases h
      rename_i hempty
      exact fun hs => hempty (by simp [hs])
    · cases h
  · split at h <;> cases h
    rename_i hn
    simpa [Kind.Lawful] using (Option.filter_eq_some_iff.1 hn).2
  · split at h <;> cases h
    rename_i hf
    simpa [Kind.Lawful] using (Option.filter_eq_some_iff.1 hf).2

/-- What was read from a configuration keeps to the rules. -/
theorem Kind.lawful_of_read {type : NodeType} {config : Json} {kind : Kind} (h : Kind.read type config = .ok kind) :
    kind.Lawful := by
  have hread := h
  unfold Kind.read at h
  cases type with
  | trigger =>
    cases h
    trivial
  | delay =>
    obtain ⟨d, -, h⟩ := bind_ok h
    split at h
    · cases h
    · split at h <;> cases h
      exact Kind.proper_of_read hread
  | condition =>
    obtain ⟨c, -, h⟩ := bind_ok h
    obtain ⟨p, hp, h⟩ := bind_ok h
    cases h
    exact Predicate.Draft.lawful hp
  | webhook =>
    obtain ⟨w, -, h⟩ := bind_ok h
    split at h <;> cases h
    exact ⟨_, ‹_›⟩
  | email | mutateTarget | tagTarget =>
    obtain ⟨a, -, h⟩ := bind_ok h
    split at h <;> cases h
    exact Bool.eq_false_iff.2 ‹_›

/-! ### Headers -/

/-- Texts under names as the members of an object. -/
def Json.Members.ofTexts (entries : List (String × String)) : Members := entries.map fun e => (e.1, .str e.2)

theorem Json.Members.ofTexts_injective : Function.Injective Members.ofTexts := by
  refine List.map_injective_iff.2 ?_
  rintro ⟨k, v⟩ ⟨l, w⟩ h
  cases h
  rfl

theorem ofTexts_insert (e : String × String) (sorted : List (String × String)) :
    Members.ofTexts (sortedTexts.insert e sorted) = (Members.ofTexts sorted).insert e.1 (.str e.2) := by
  induction sorted with
  | nil => rfl
  | cons f rest ih =>
    have hcons (f : String × String) (rest : List (String × String)) :
        Members.ofTexts (f :: rest) = (f.1, .str f.2) :: Members.ofTexts rest := rfl
    rw [sortedTexts.insert, hcons, Members.insert]
    split
    · rfl
    split
    · rfl
    · rw [hcons, ih]

/-- Texts under names are sorted as the members of an object are. -/
theorem ofTexts_sortedTexts (entries : List (String × String)) :
    Members.ofTexts (sortedTexts entries) = Members.ofList (Members.ofTexts entries) := by
  unfold sortedTexts Members.ofList
  suffices hs : ∀ sorted : List (String × String),
      Members.ofTexts (entries.foldl (fun sorted e => sortedTexts.insert e sorted) sorted) =
        (Members.ofTexts entries).foldl (fun ms e => Members.insert e.1 e.2 ms) (Members.ofTexts sorted) from hs []
  induction entries with
  | nil => exact fun _ => rfl
  | cons e entries ih =>
    intro sorted
    rw [List.foldl_cons, ih, ofTexts_insert]
    rfl

theorem sortedTexts_ordered (entries : List (String × String)) : (Members.ofTexts (sortedTexts entries)).Ordered := by
  rw [ofTexts_sortedTexts]
  exact Members.ordered_ofList _

theorem sortedTexts_of_ordered {headers : List (String × String)} (h : (Members.ofTexts headers).Ordered) :
    sortedTexts headers = headers := by
  refine Members.ofTexts_injective ?_
  rw [ofTexts_sortedTexts, Members.ofList_of_ordered h]

theorem entries_of_holds {levels : Levels} {ds : Json.DraftMembers} {headers : List (String × String)}
    (h : Json.HoldsMembers ds (Members.ofTexts headers)) : Decoder.entries Decoder.string levels ds = .ok headers := by
  induction headers generalizing ds with
  | nil =>
    cases h
    rfl
  | cons e headers ih =>
    cases h with
    | cons k hd hs =>
      cases hd
      rw [Decoder.entries, ih hs]
      rfl

theorem yields_headers {headers : List (String × String)} (h : (Members.ofTexts headers).Ordered) :
    headersDecoder.Yields (.object (Members.ofTexts headers)) headers := by
  intro levels d hd hl
  rw [Json.object, Members.ofList_of_ordered h] at hd hl
  cases hd with
  | @obj before close ds _ hs =>
    obtain ⟨inner, henter, -⟩ := hl.enter before
    have hmap : Decoder.map Decoder.string levels (.obj before ds (.ok close)) = .ok headers := by
      show (levels.enter before >>= fun inner => _) = _
      rw [henter]
      show (Decoder.entries Decoder.string inner ds >>= fun values => Except.ok values) = _
      rw [entries_of_holds hs]
      rfl
    rw [headersDecoder, hmap]
    exact congrArg Except.ok (sortedTexts_of_ordered h)

/-! ### Values in order -/

/-- The values that were read are in order, and a null is read as no body. -/
def Kind.Settled : Kind → Prop
  | .webhook w => (Members.ofTexts w.headers).Ordered ∧ ∀ body ∈ w.body, body.InOrder ∧ body ≠ .null
  | .mutateTarget m => m.value.InOrder
  | .trigger | .email _ | .delay _ | .condition _ | .tagTarget _ => True

theorem Webhook.settled {ms : Members} {w : Webhook} (h : Webhook.decoder.ofValue (.obj ms) = .ok w) : (Kind.webhook w).Settled := by
  unfold Decoder.ofValue Webhook.decoder at h
  obtain ⟨inner, ds, -, hall⟩ := Fields.named_of_record (Json.holds_ofJson (.obj ms)) h
  -- the four fields, from the last one on
  obtain ⟨upToHeaders, body?, hupToHeaders, hbody, rfl⟩ := Fields.both_ok hall
  obtain ⟨upToMethod, headers, hupToMethod, hheaders, rfl⟩ := Fields.both_ok hupToHeaders
  obtain ⟨upToUrl, method, hupToUrl, -, rfl⟩ := Fields.both_ok hupToMethod
  obtain ⟨url, -, rfl⟩ := map_ok hupToUrl
  refine ⟨?_, fun body hmem => ?_⟩
  · obtain ⟨d, -, hread⟩ | ⟨-, hnone⟩ := Fields.named_field_iff.1 hheaders
    · obtain ⟨entries, -, rfl⟩ := map_ok hread
      exact sortedTexts_ordered entries
    · cases hnone
      exact Members.ordered_nil
  · obtain ⟨d, -, hread⟩ | ⟨-, hnone⟩ := Fields.named_field_iff.1 hbody
    · exact (Decoder.optional_json_ok hread body hmem).imp_left Draft.inOrder_of_json
    · cases hnone
      cases hmem

theorem Mutation.settled {ms : Members} {m : Mutation} (h : Mutation.decoder.ofValue (.obj ms) = .ok m) :
    (Kind.mutateTarget m).Settled := by
  unfold Decoder.ofValue Mutation.decoder at h
  obtain ⟨inner, ds, -, hall⟩ := Fields.named_of_record (Json.holds_ofJson (.obj ms)) h
  obtain ⟨upToField, value, hupToField, hvalue, rfl⟩ := Fields.both_ok hall
  obtain ⟨field, -, rfl⟩ := map_ok hupToField
  obtain ⟨d, -, hread⟩ | ⟨-, hnone⟩ := Fields.named_field_iff.1 hvalue
  · exact Draft.inOrder_of_json hread
  · cases hnone

theorem Kind.settled_of_read {type : NodeType} {ms : Members} {kind : Kind} (h : Kind.read type (.obj ms) = .ok kind) :
    kind.Settled := by
  cases kind with
  | webhook w =>
    obtain rfl : NodeType.webhook = type := Kind.type_of_read h
    obtain ⟨w', hw, h⟩ := bind_ok h
    split at h <;> cases h
    exact Webhook.settled (mapError_ok hw)
  | mutateTarget m =>
    obtain rfl : NodeType.mutateTarget = type := Kind.type_of_read h
    obtain ⟨m', hm, h⟩ := bind_ok h
    split at h <;> cases h
    exact Mutation.settled (mapError_ok hm)
  | _ => trivial

/-! ### Canonical forms -/

theorem Time.TimeUnit.yields (u : Time.TimeUnit) : Time.TimeUnit.decoder.Yields (.str u.name) u :=
  Decoder.yields_variant (by cases u <;> rfl)

theorem Method.yields (m : Method) : Method.decoder.Yields (.str m.name) m := Decoder.yields_variant (by cases m <;> rfl)

theorem yields_optional_string (s? : Option String) : Decoder.string.optional.Yields (.optional s?) s? := by
  cases s? with
  | none => exact Decoder.yields_nothing Decoder.string
  | some s => exact (Decoder.yields_string s).optional (by simp)

/-- Mail by its members in order. -/
theorem Email.toJson_eq (e : Email) : e.toJson = .obj [("subject", .optional e.subject), ("templateId", .str e.templateId)] :=
  congrArg Json.obj (Members.ofList_eq_of_perm (.swap ..) (Members.ordered_of_names ["subject", "templateId"] rfl (by decide)))

theorem Email.yields (e : Email) : Email.decoder.Yields e.toJson e := by
  rw [toJson_eq]
  exact (((Fields.yields_field rfl (Decoder.yields_string e.templateId)).map Email.mk).seq
    (Fields.yields_field rfl (yields_optional_string e.subject))).record "EmailConfig" true ["subject", "templateId"] rfl
      (by decide) (by decide)

theorem Delay.toJson_eq (d : Delay) : d.toJson = .obj [("duration", .int d.duration), ("unit", .str d.unit.name)] :=
  congrArg Json.obj (Members.ofList_of_ordered (Members.ordered_of_names ["duration", "unit"] rfl (by decide)))

theorem Delay.Proper.duration_lt {d : Delay} (h : d.Proper) : d.duration < 2 ^ 64 := by
  have hspan := d.unit.isSome_span_iff.1 h.span
  have hunit := d.unit.seconds_pos
  have hlongest : Time.longestSeconds < 2 ^ 64 := by decide
  exact Nat.lt_of_le_of_lt ((Nat.le_mul_of_pos_right _ hunit).trans hspan) hlongest

theorem Delay.yields {d : Delay} (h : d.Proper) : Delay.decoder.Yields d.toJson d := by
  rw [toJson_eq]
  exact (((Fields.yields_field rfl (Decoder.yields_unsigned h.duration_lt)).map Delay.mk).seq
    (Fields.yields_field rfl (Time.TimeUnit.yields d.unit))).record "DelayConfig" true ["duration", "unit"] rfl
      (by decide) (by decide)

/-- The members of a request in order. -/
def Webhook.members (w : Webhook) : Members :=
  [("body", w.body.getD .null), ("headers", .object (Members.ofTexts w.headers)), ("method", .str w.method.name),
    ("url", .str w.url)]

theorem Webhook.toJson_eq (w : Webhook) : w.toJson = .obj w.members :=
  congrArg Json.obj (Members.ofList_eq_of_perm (List.reverse_perm w.members)
    (Members.ordered_of_names ["body", "headers", "method", "url"] rfl (by decide)))

theorem Webhook.yields {w : Webhook} (h : (Kind.webhook w).Settled) : Webhook.decoder.Yields w.toJson w := by
  obtain ⟨hheaders, hbody⟩ := h
  have body : Decoder.json.optional.Yields (w.body.getD .null) w.body := by
    generalize w.body = body? at hbody
    cases body? with
    | none => exact Decoder.yields_nothing Decoder.json
    | some body =>
      obtain ⟨hordered, hnull⟩ := hbody body rfl
      exact (Decoder.yields_json hordered).optional hnull
  rw [toJson_eq]
  exact (((((Fields.yields_field rfl (Decoder.yields_string w.url)).map Webhook.mk).seq
    (Fields.yields_field rfl (Method.yields w.method))).seq
    (Fields.yields_field rfl (yields_headers hheaders))).seq
    (Fields.yields_field rfl body)).record "WebhookConfig" true ["body", "headers", "method", "url"] rfl
      (by decide) (by decide)

theorem Mutation.toJson_eq (m : Mutation) : m.toJson = .obj [("field", .str m.field), ("value", m.value)] :=
  congrArg Json.obj (Members.ofList_of_ordered (Members.ordered_of_names ["field", "value"] rfl (by decide)))

theorem Mutation.yields {m : Mutation} (h : (Kind.mutateTarget m).Settled) : Mutation.decoder.Yields m.toJson m := by
  rw [toJson_eq]
  exact (((Fields.yields_field rfl (Decoder.yields_string m.field)).map Mutation.mk).seq
    (Fields.yields_field rfl (Decoder.yields_json h))).record "MutateTargetConfig" true ["field", "value"] rfl
      (by decide) (by decide)

/-! ### What is read back -/

theorem readConfig_of_yields {α : Type} {dec : Decoder α} {j : Json} {ms : Members} {a : α} (h : dec.Yields j a)
    (object : j = .obj ms) : readConfig dec j = .ok a := by
  subst object
  have hread : dec.ofValue (.obj ms) = .ok a := h (Json.holds_ofJson _) nofun
  show (dec.ofValue (.obj ms)).mapError _ = _
  rw [hread]
  rfl

/-- What a node does is read from its canonical configuration. -/
theorem Kind.read_config {kind : Kind} (lawful : kind.Lawful) (settled : kind.Settled) {j : Json} (h : kind.config? = some j) :
    Kind.read kind.type j = .ok kind := by
  cases kind with
  | trigger | condition p => cases h
  | email e =>
    cases h
    show (readConfig Email.decoder e.toJson >>= _) = _
    rw [readConfig_of_yields e.yields e.toJson_eq]
    exact if_neg (Bool.eq_false_iff.1 lawful)
  | delay d =>
    cases h
    show (readConfig Delay.decoder d.toJson >>= _) = _
    rw [readConfig_of_yields (Delay.yields lawful) d.toJson_eq]
    refine (if_neg (Nat.ne_of_gt lawful.positive)).trans (if_neg ?_)
    rw [Option.isNone_eq_false_iff.2 lawful.span]
    exact Bool.false_ne_true
  | webhook w =>
    cases h
    obtain ⟨url, hurl⟩ := lawful
    show (readConfig Webhook.decoder w.toJson >>= _) = _
    rw [readConfig_of_yields (Webhook.yields settled) w.toJson_eq, ok_bind, hurl]
    rfl
  | mutateTarget m =>
    cases h
    show (readConfig Mutation.decoder m.toJson >>= _) = _
    rw [readConfig_of_yields (Mutation.yields settled) m.toJson_eq]
    exact if_neg (Bool.eq_false_iff.1 lawful)
  | tagTarget t =>
    cases h
    exact if_neg (Bool.eq_false_iff.1 lawful)

theorem Kind.exists_config {kind : Kind} (trigger : kind.type ≠ .trigger) (condition : kind.type ≠ .condition) :
    ∃ j, kind.config? = some j := by
  cases kind with
  | trigger => exact absurd rfl trigger
  | condition p => exact absurd rfl condition
  | _ => exact ⟨_, rfl⟩

/-- A missing configuration is read as an empty one. -/
theorem Kind.read_null (type : NodeType) : Kind.read type .null = Kind.read type (.obj []) := by cases type <;> rfl

end Lifecycle
