import Lifecycle.Proofs.Json.Strictness
import Lifecycle.Proofs.Workflow.Canonical

/-!
# Strict configurations

The configuration of a node has no members but those that its type knows: one further member, and it is refused. What is
read of an accepted one keeps to the rules, and is read again from its canonical form.
-/

namespace Lifecycle

open Json (Decoder Members)

/-! ### Members that are known -/

/-- The members that configurations of a type may have, as they are told. -/
def NodeType.keys : NodeType → List String
  | .trigger => []
  | .email => ["templateId", "subject"]
  | .delay => ["duration", "unit"]
  | .condition => ["conditionType", "conditionValue", "field", "operator", "unit"]
  | .webhook => ["url", "method", "headers", "body"]
  | .mutateTarget => ["field", "value"]
  | .tagTarget => ["tag", "value"]

/-- The fault of a member that the type does not know. -/
def NodeType.unknownKey (type : NodeType) (key : String) : ConfigFault :=
  .undecodable ⟨.misfit (.unknownField key type.keys), none, 0⟩

section Strict

open Json.Fields (overlooks_field told_single)

theorem Email.strict : Email.decoder.Strict NodeType.email.keys :=
  (((overlooks_field _ _ _).map _).seq (overlooks_field _ _ _)).strict _ (told_single NodeType.email.keys)

theorem Delay.strict : Delay.decoder.Strict NodeType.delay.keys :=
  (((overlooks_field _ _ _).map _).seq (overlooks_field _ _ _)).strict _ (told_single NodeType.delay.keys)

theorem Predicate.Draft.strict : Predicate.Draft.decoder.Strict NodeType.condition.keys :=
  ((((((overlooks_field _ _ _).map _).seq (overlooks_field _ _ _)).seq (overlooks_field _ _ _)).seq
    (overlooks_field _ _ _)).seq (overlooks_field _ _ _)).strict _ (told_single NodeType.condition.keys)

theorem Webhook.strict : Webhook.decoder.Strict NodeType.webhook.keys :=
  (((((overlooks_field _ _ _).map _).seq (overlooks_field _ _ _)).seq (overlooks_field _ _ _)).seq
    (overlooks_field _ _ _)).strict _ (told_single NodeType.webhook.keys)

theorem Mutation.strict : Mutation.decoder.Strict NodeType.mutateTarget.keys :=
  (((overlooks_field _ _ _).map _).seq (overlooks_field _ _ _)).strict _ (told_single NodeType.mutateTarget.keys)

theorem Tagging.strict : Tagging.decoder.Strict NodeType.tagTarget.keys := by
  refine ((overlooks_field _ _ _).map _).strict _ ?_
  show Json.Fields.told [["value", "tag"]] = ["tag", "value"]
  simp [Json.Fields.told, List.mergeSort]

end Strict

/-- What was read strictly is refused with a further member. -/
theorem Json.Decoder.Strict.refuses {α : Type} {dec : Decoder α} {keys : List String} (strict : dec.Strict keys) {ms : Members}
    {f : α → Except ConfigFault Kind} {kind : Kind} (accepted : (readConfig dec (.obj ms) >>= f) = .ok kind) :
    (∀ key ∈ ms.map (·.1), key ∈ keys) ∧ ∀ key value, key ∉ keys →
      (readConfig dec (.obj (ms.insert key value)) >>= f) = .error (.undecodable ⟨.misfit (.unknownField key keys), none, 0⟩) := by
  obtain ⟨a, ha, -⟩ := bind_ok accepted
  obtain ⟨hknown, hrefused⟩ := strict (mapError_ok ha)
  refine ⟨hknown, fun key value hkey => ?_⟩
  show ((dec.ofValue (.obj (ms.insert key value))).mapError .undecodable >>= f) = _
  rw [hrefused key value hkey]
  rfl

/-- The members of a configuration are known, and with one that is not it is refused. -/
theorem Kind.read_strict {type : NodeType} (htype : type ≠ .trigger) {ms : Members} {kind : Kind}
    (accepted : Kind.read type (.obj ms) = .ok kind) :
    (∀ key ∈ ms.map (·.1), key ∈ type.keys) ∧ ∀ key value, key ∉ type.keys →
      Kind.read type (.obj (ms.insert key value)) = .error (type.unknownKey key) := by
  cases type with
  | trigger => exact absurd rfl htype
  | email => exact Email.strict.refuses accepted
  | delay => exact Delay.strict.refuses accepted
  | condition => exact Predicate.Draft.strict.refuses accepted
  | webhook => exact Webhook.strict.refuses accepted
  | mutateTarget => exact Mutation.strict.refuses accepted
  | tagTarget => exact Tagging.strict.refuses accepted

/-! ### Configurations of nodes -/

/-- A faulty configuration is a defect of the definition, if no node before it has the same name. -/
theorem Graph.readSteps_of_fault {steps : List Step} {n : Node} {f : ConfigFault} (h : Kind.read n.type n.config = .error f)
    (fresh : ∀ s ∈ steps, s.id ≠ n.id) (rest : List Node) : readSteps steps (n :: rest) = .error (.config n.id f) := by
  have hnew : ¬steps.any (fun s => s.id == n.id) = true := by simpa using fresh
  unfold readSteps
  rw [if_neg hnew, h]

/-- Let `n` be a node that is no trigger, with a configuration that is accepted. What it does keeps to the rules of its type.
With a further member the configuration is refused, and so is a definition, at the node with this configuration. And what the
node does, if it is no condition, is read again from its canonical configuration. -/
theorem configurations_are_strict (n : Node) (ms : Members) (kind : Kind) (type : n.type ≠ .trigger)
    (object : n.config = .obj ms ∨ n.config = .null ∧ ms = []) (accepted : Kind.read n.type n.config = .ok kind) :
    (kind.type = n.type ∧ kind.Lawful) ∧
      ((∀ key ∈ ms.map (·.1), key ∈ n.type.keys) ∧
        ∀ key value, key ∉ n.type.keys →
          Kind.read n.type (.obj (ms.insert key value)) = .error (n.type.unknownKey key) ∧
          ∀ (steps : List Step) (rest : List Node), (∀ s ∈ steps, s.id ≠ n.id) →
            Graph.readSteps steps ({ n with config := .obj (ms.insert key value) } :: rest) =
              .error (.config n.id (n.type.unknownKey key))) ∧
      (n.type ≠ .condition → ∃ j, kind.config? = some j ∧ Kind.read n.type j = .ok kind) := by
  have read : Kind.read n.type (.obj ms) = .ok kind := by
    obtain h | ⟨h, rfl⟩ := object
    · rwa [h] at accepted
    · rwa [h, Kind.read_null] at accepted
  have htype := Kind.type_of_read read
  have lawful := Kind.lawful_of_read read
  obtain ⟨known, refused⟩ := Kind.read_strict type read
  refine ⟨⟨htype, lawful⟩, ⟨known, fun key value hkey => ?_⟩, fun hcondition => ?_⟩
  · have hread := refused key value hkey
    exact ⟨hread, fun steps rest fresh => Graph.readSteps_of_fault (n := { n with config := .obj (ms.insert key value) })
      hread fresh rest⟩
  · obtain ⟨j, hj⟩ := Kind.exists_config (htype ▸ type) (htype ▸ hcondition)
    exact ⟨j, hj, htype ▸ Kind.read_config lawful (Kind.settled_of_read read) hj⟩

/-- A label under its other name is read from its usual one as well, and from no third one beside it. -/
theorem label_under_other_name :
    Text.isBlank "vip" = false ∧
      Kind.read .tagTarget (.obj [("color", .str "red"), ("tag", .str "vip")]) = .error (NodeType.tagTarget.unknownKey "color") ∧
      Kind.read .tagTarget (.obj [("value", .str "vip")]) = .ok (.tagTarget ⟨"vip"⟩) := by
  let node : Node := ⟨"label", .tagTarget, .obj [("tag", .str "vip")], none⟩
  obtain ⟨⟨-, lawful⟩, ⟨-, refused⟩, canonical⟩ := configurations_are_strict node [("tag", .str "vip")] (.tagTarget ⟨"vip"⟩)
    nofun (.inl rfl) rfl
  obtain ⟨j, hj, hread⟩ := canonical nofun
  cases hj
  exact ⟨lawful, (refused "color" (.str "red") (by decide)).1, hread⟩

end Lifecycle
