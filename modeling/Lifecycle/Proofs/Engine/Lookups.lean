import Lifecycle.Proofs.Engine.Operations
import Lifecycle.Proofs.Engine.Replies
import Lifecycle.Proofs.Engine.Sweeping

/-!
# Executions that are failed for want of a workflow

The text with which an execution is failed because its workflow no longer exists is that of no other fault. Where it is
written the workflow was looked up and nothing was found: there is no row of it, or else storage could not be used and
nothing was cached.
-/

namespace Lifecycle

open Engine
open Program (Leaves Only)
open Store (DefinitionRow)

/-! ### Texts of faults -/

/-- The first two characters of a text. -/
def Text.opening (s : String) : List Char := s.toList.take 2

theorem Text.opening_append {s : String} (h : 2 ≤ s.toList.length) (t : String) : opening (s ++ t) = opening s := by
  unfold opening
  rw [String.toList_append, List.take_append_of_le_length h]

theorem HandlerFault.opening_message (f : HandlerFault) : Text.opening f.message ≠ Text.opening "workflow '" := by
  cases f with
  | noRecipient => decide
  | noAccessor type =>
    show Text.opening ("no accessor registered for target type '" ++ type.name ++ "'") ≠ _
    rw [String.append_assoc, Text.opening_append (by decide)]
    decide
  | timeout type millis => cases type <;> exact (Text.opening_append (by decide) _).trans_ne (by decide)
  | _ => exact (Text.opening_append (by decide) _).trans_ne (by decide)

namespace SchedulingFault

theorem opening_workflowMissing (id : String) : Text.opening (workflowMissing id).message = Text.opening "workflow '" := by
  show Text.opening ("workflow '" ++ id ++ "' no longer exists") = _
  rw [String.append_assoc, Text.opening_append (by decide)]

/-- A text tells which workflow is missing. -/
theorem eq_workflowMissing {e : SchedulingFault} {id : String} (h : e.message = (workflowMissing id).message) :
    e = workflowMissing id := by
  have hopening := (congrArg Text.opening h).trans (opening_workflowMissing id)
  cases e with
  | workflowMissing other =>
    have htexts : "workflow '" ++ other ++ "' no longer exists" = "workflow '" ++ id ++ "' no longer exists" := h
    have hlists := congrArg String.toList htexts
    simp only [String.toList_append, List.append_cancel_right_eq, List.append_cancel_left_eq] at hlists
    rw [String.toList_injective hlists]
  | nodeMissing workflowId nodeId =>
    have hother : Text.opening (nodeMissing workflowId nodeId).message = Text.opening "node '" := by
      show Text.opening ("node '" ++ nodeId ++ "' no longer exists in workflow '" ++ workflowId ++ "'") = _
      rw [String.append_assoc, String.append_assoc, String.append_assoc, Text.opening_append (by decide)]
    exact absurd (hother.symm.trans hopening) (by decide)
  | snapshot f => exact absurd ((Text.opening_append (by decide) _).symm.trans hopening) (by decide)
  | persist f => exact absurd ((Text.opening_append (by decide) _).symm.trans hopening) (by decide)

end SchedulingFault

/-! ### Looking workflows up -/

/-- Storage answers neither with a workflow nor that there is none: it cannot be read, or what it holds cannot be decoded,
or has a defect. -/
inductive Engine.Unusable : Except Store.Fault (Option DefinitionRow) → Prop where
  | unreadable (f : Store.Fault) : Unusable (.error f)
  | undecodable {row : DefinitionRow} {f : Json.Fault} (h : Definition.ofText row.definition = .error f) :
      Unusable (.ok (some row))
  | defective {row : DefinitionRow} {d : Definition} {e : Defect} (hd : Definition.ofText row.definition = .ok d)
      (hw : Workflow.ofDefinition d = .error e) : Unusable (.ok (some row))

/-- What the lookup of a workflow is answered, and what it finds. -/
inductive Engine.LookedUp (id : String) : List (Reply interface) → Option Workflow → Prop where
  | stored {row : DefinitionRow} {d : Definition} {w : Workflow} (hd : Definition.ofText row.definition = .ok d)
      (hw : Workflow.ofDefinition d = .ok w) :
      LookedUp id [⟨.statement (.definition id), .ok (some row)⟩, ⟨.cache w, ()⟩] (some w)
  | gone : LookedUp id [⟨.statement (.definition id), .ok none⟩, ⟨.uncache id, ()⟩] none
  | unusable {x : Except Store.Fault (Option DefinitionRow)} (h : Unusable x) (found : Option Workflow) :
      LookedUp id [⟨.statement (.definition id), x⟩, ⟨.cached id, found⟩] found

/-- The workflow was looked up, and nothing was found of it. -/
def Engine.FoundNothing (id : String) (xs : List (Reply interface)) : Prop :=
  ⟨.statement (.definition id), .ok none⟩ ∈ xs ∨
    (∃ x, Unusable x ∧ ⟨.statement (.definition id), x⟩ ∈ xs) ∧ ⟨.cached id, none⟩ ∈ xs

section Lookups

variable {id : String} {xs : List (Reply interface)} {found : Option Workflow}

theorem leaves_getDefinition {got : Except StorageFault (Option Definition)}
    (h : Leaves (getDefinition id).run xs (.done got)) :
    ∃ x : Except Store.Fault (Option DefinitionRow), xs = [⟨.statement (.definition id), x⟩] ∧ got = match x with
      | .error f => .error (.store f)
      | .ok none => .ok none
      | .ok (some row) => ((Definition.ofText row.definition).map some).mapError (.undecodable row.definition) := by
  obtain ⟨x, ys, rfl, hend⟩ := Leaves.ask_done_inv (P := interface) (r := .statement (.definition id)) h
  match x with
  | .error f =>
    obtain ⟨rfl, rfl⟩ := Leaves.done_inv (P := interface) hend
    exact ⟨_, rfl, rfl⟩
  | .ok none =>
    obtain ⟨rfl, rfl⟩ := Leaves.done_inv (P := interface) hend
    exact ⟨_, rfl, rfl⟩
  | .ok (some row) =>
    obtain ⟨rfl, rfl⟩ := Leaves.done_inv (P := interface) hend
    exact ⟨_, rfl, rfl⟩

theorem leaves_cached (h : Leaves (cached id) xs (.done found)) : xs = [⟨.cached id, found⟩] := by
  obtain ⟨w, ys, rfl, hend⟩ := Leaves.ask_done_inv (P := interface) (r := .cached id) h
  obtain ⟨rfl, rfl⟩ := Leaves.done_inv (P := interface) hend
  rfl

theorem leaves_cacheDefinition {d : Definition} {got : Except Defect Workflow}
    (h : Leaves (cacheDefinition d) xs (.done got)) :
    got = Workflow.ofDefinition d ∧ xs = match Workflow.ofDefinition d with
      | .error _ => []
      | .ok w => [⟨.cache w, ()⟩] := by
  unfold cacheDefinition at h
  split at h
  · rename_i e hw
    obtain ⟨rfl, rfl⟩ := Leaves.done_inv (P := interface) h
    rw [hw]
    exact ⟨rfl, rfl⟩
  · rename_i w hw
    obtain ⟨_, ys, rfl, hend⟩ := Leaves.ask_done_inv (P := interface) (r := .cache w) h
    obtain ⟨rfl, rfl⟩ := Leaves.done_inv (P := interface) hend
    rw [hw]
    exact ⟨rfl, rfl⟩

theorem leaves_currentWorkflow (h : Leaves (currentWorkflow id) xs (.done found)) : LookedUp id xs found := by
  obtain ⟨got, us, vs, rfl, hgot, hrest⟩ := h.bind_done_inv
  obtain ⟨x, rfl, rfl⟩ := leaves_getDefinition hgot
  match x with
  | .error f =>
    rw [leaves_cached hrest]
    exact .unusable (.unreadable f) found
  | .ok none =>
    obtain ⟨_, zs, rfl, hend⟩ := Leaves.ask_done_inv (P := interface) (r := .uncache id) hrest
    obtain ⟨rfl, rfl⟩ := Leaves.done_inv (P := interface) hend
    exact .gone
  | .ok (some row) =>
    cases hd : Definition.ofText row.definition with
    | error f =>
      simp only [hd] at hrest
      rw [leaves_cached hrest]
      exact .unusable (.undecodable hd) found
    | ok d =>
      simp only [hd] at hrest
      obtain ⟨made, us, ws, rfl, hmade, hend⟩ := hrest.bind_done_inv
      obtain ⟨rfl, rfl⟩ := leaves_cacheDefinition hmade
      cases hw : Workflow.ofDefinition d with
      | error e =>
        simp only [hw] at hend
        rw [leaves_cached hend]
        exact .unusable (.defective hd hw) found
      | ok w =>
        simp only [hw] at hend
        obtain ⟨rfl, rfl⟩ := Leaves.done_inv (P := interface) hend
        exact .stored hd hw

theorem Engine.LookedUp.foundNothing_iff (h : LookedUp id xs found) {other : String} :
    FoundNothing other xs ↔ other = id ∧ found = none := by
  unfold FoundNothing
  cases h with
  | stored hd hw =>
    refine iff_of_false ?_ fun h => by cases h.2
    rintro (h | ⟨-, h⟩)
    · rcases List.mem_pair.1 h with h | h <;> cases h
    · rcases List.mem_pair.1 h with h | h <;> cases h
  | gone =>
    refine ⟨?_, ?_⟩
    · rintro (h | ⟨-, h⟩)
      · rcases List.mem_pair.1 h with h | h <;> cases h
        exact ⟨rfl, rfl⟩
      · rcases List.mem_pair.1 h with h | h <;> cases h
    · rintro ⟨rfl, -⟩
      exact .inl List.mem_cons_self
  | @unusable x hx =>
    refine ⟨?_, ?_⟩
    · rintro (h | ⟨-, h⟩)
      · rcases List.mem_pair.1 h with h | h <;> cases h
        cases hx
      · rcases List.mem_pair.1 h with h | h <;> cases h
        exact ⟨rfl, rfl⟩
    · rintro ⟨rfl, rfl⟩
      exact .inr ⟨⟨x, hx, List.mem_cons_self⟩, List.mem_cons_of_mem _ List.mem_cons_self⟩

/-- A resumption finds its workflow missing if and only if it was looked up and nothing was found. -/
theorem leaves_resumption_missing_iff {record : Record} {token : Token}
    {prepared : Except SchedulingFault (Workflow × Step × Context)} (h : Leaves (resumption record token) xs (.done prepared)) :
    (prepared = .error (.workflowMissing id) ↔ FoundNothing id xs) ∧ (FoundNothing id xs → record.workflowId = id) := by
  unfold resumption at h
  split at h
  · obtain ⟨rfl, rfl⟩ := Leaves.done_inv (P := interface) h
    simp [FoundNothing]
  · obtain ⟨found, us, vs, rfl, hfound, hend⟩ := h.bind_done_inv
    have looked : FoundNothing id us ↔ id = record.workflowId ∧ found = none :=
      (leaves_currentWorkflow hfound).foundNothing_iff
    cases found with
    | none =>
      obtain ⟨rfl, rfl⟩ := Leaves.done_inv (P := interface) hend
      rw [List.append_nil, looked]
      simp [eq_comm]
    | some w =>
      have nothing : vs = [] ∧ prepared ≠ .error (.workflowMissing id) := by
        dsimp only at hend
        split at hend <;> obtain ⟨rfl, rfl⟩ := Leaves.done_inv (P := interface) hend <;> simp
      obtain ⟨rfl, hne⟩ := nothing
      rw [List.append_nil, looked]
      simp [hne]

end Lookups

/-! ### Resumptions -/

/-- The request is to fail an execution, with the text that the workflow `id` no longer exists. -/
def Engine.Request.Condemns (id : String) : Request → Prop
  | .statement (.advance _ _ _ (some failure)) => failure.message = (SchedulingFault.workflowMissing id).message
  | _ => False

theorem Engine.Request.Aside.not_condemns {r : Request} (h : r.Aside) (id : String) : ¬r.Condemns id := by
  cases r with
  | statement q => cases q <;> first | exact h.elim | exact fun h => h
  | _ => exact fun h => h

/-- A workflow is looked up, in storage or in the cache. -/
def Engine.Request.Looks : Request → Prop
  | .statement (.definition _) | .cached _ => True
  | _ => False

/-- What was found depends on what was looked up only. -/
theorem Engine.FoundNothing.of_looks {id : String} {xs ys : List (Reply interface)} (h : FoundNothing id xs)
    (sub : ∀ y ∈ xs, y.request.Looks → y ∈ ys) : FoundNothing id ys :=
  h.imp (fun h => sub _ h trivial) fun ⟨⟨x, hx, hmem⟩, hcached⟩ => ⟨⟨x, hx, sub _ hmem trivial⟩, sub _ hcached trivial⟩

/-- What a walk asks for. -/
theorem only_walkFrom {sort : Request → Prop} (hfresh : sort .fresh) (hnow : sort .now) (hvisit : ∀ v, sort (.visit v))
    (hsuspend : ∀ row t, sort (.statement (.suspend row t)))
    (completes : ∀ id t, sort (.statement (.advance id .completed t none)))
    (fails : ∀ id t nodeId (f : HandlerFault), sort (.statement (.advance id .failed t (some ⟨nodeId, f.message⟩))))
    (strands : ∀ id t nodeId e,
      sort (.statement (.advance id .failed t (some ⟨nodeId, (SchedulingFault.persist e).message⟩))))
    (workflow : Workflow) (record : Record) (step : Step) (context : Context) :
    (walkFrom workflow record step context).run.Only sort := by
  induction step using workflow.graph.induction_down generalizing context with
  | h step ih =>
    rw [walkFrom_eq]
    refine ⟨hnow, fun now => ⟨hvisit _, fun answer => ?_⟩⟩
    cases answer with
    | error f => exact only_failAt record step.id _ hnow fun t => fails _ t _ f
    | ok outcome =>
      show (walkOn workflow record step _ (.ok outcome)).run.Only sort
      unfold walkOn
      dsimp only
      split
      · exact only_finish record hnow fun t => completes _ t
      · exact only_suspendAt record step _ _ _ hfresh hnow (fun _ _ t => hsuspend _ t) fun t e => strands _ t _ e
      · exact ih _ _ ‹_› _

/-- Once a resumption has what it needs, nothing is looked up, and no execution is failed for want of a workflow. -/
theorem only_goOn_ok (record : Record) (token : Token) (found : Workflow × Step × Context) :
    (goOn record token (.ok found)).run.Only fun r : Request => (∀ id, ¬r.Condemns id) ∧ ¬r.Looks := by
  have handled (id : String) (f : HandlerFault) : f.message ≠ (SchedulingFault.workflowMissing id).message := fun h =>
    f.opening_message ((congrArg Text.opening h).trans (SchedulingFault.opening_workflowMissing id))
  have persisted (id : String) (e : EngineFault) :
      (SchedulingFault.persist e).message ≠ (SchedulingFault.workflowMissing id).message := fun h => by
    cases SchedulingFault.eq_workflowMissing h
  refine Only.attempt (only_move ⟨fun _ => id, id⟩ fun t => ⟨fun _ => id, id⟩) fun moved => ?_
  cases moved with
  | false => trivial
  | true =>
    exact only_walkFrom ⟨fun _ => id, id⟩ ⟨fun _ => id, id⟩ (fun v => ⟨fun _ => id, id⟩) (fun row t => ⟨fun _ => id, id⟩)
      (fun i t => ⟨fun _ => id, id⟩) (fun i t nodeId f => ⟨fun id => handled id f, id⟩)
      (fun i t nodeId e => ⟨fun id => persisted id e, id⟩) _ _ _ _

section Resumptions

variable {token : Token} {xs : List (Reply interface)} {rest : Job (Except EngineFault Result)} {id : String}

/-- An execution is failed for want of a workflow only if it is the workflow of its record, and was looked up in vain. -/
theorem foundNothing_of_condemns (h : Leaves (resume token).run xs rest) {y : Reply interface} (hy : y ∈ xs)
    (hc : y.request.Condemns id) : FoundNothing id xs ∧ ∃ (row : Store.ExecutionRow) (record : Record),
      ⟨.statement (.execution token.executionId), .ok (some row)⟩ ∈ xs ∧ row.record = .ok record ∧
        record.status = .suspended ∧ record.workflowId = id := by
  have reading : (getRecord token.executionId).run.Only fun r : Request => ¬r.Condemns id := only_getRecord fun h => h
  rw [resume_eq] at h
  rcases h.bind_inv with ⟨q, hq, -⟩ | ⟨found, us, vs, rfl, hfound, hrest⟩
  · exact absurd hc (hq.only reading y hy)
  replace hy : y ∈ vs := (List.mem_append.1 hy).resolve_left fun hy => hfound.only reading y hy hc
  match found with
  | .error e =>
    cases hrest
    exact absurd hy List.not_mem_nil
  | .ok none =>
    cases hrest
    exact absurd hy List.not_mem_nil
  | .ok (some record) =>
    obtain ⟨row, rfl, hrow⟩ := leaves_getRecord hfound
    obtain ⟨-, hnone⟩ | ⟨row, record, rfl, hrecord, hsome⟩ := hrow
    · cases hnone
    cases hsome
    dsimp only at hrest
    split at hrest
    · cases hrest
      exact absurd hy List.not_mem_nil
    rename_i hstatus
    rcases hrest.bind_inv with ⟨q, hq, -⟩ | ⟨prepared, us, ws, rfl, hprepared, hend⟩
    · exact absurd hc ((hq.only (only_resumption record token) y hy).not_condemns id)
    replace hy : y ∈ ws := (List.mem_append.1 hy).resolve_left fun hy =>
      (hprepared.only (only_resumption record token) y hy).not_condemns id hc
    cases prepared with
    | ok found => exact absurd hc ((hend.only (only_goOn_ok record token found) y hy).1 id)
    | error e =>
      have failing : (goOn record token (.error e)).run.Only fun r : Request =>
          r.Condemns id → e.message = (SchedulingFault.workflowMissing id).message :=
        only_failAt record token.resumeNodeId e.message (fun h => h.elim) fun t h => h
      obtain rfl := SchedulingFault.eq_workflowMissing (hend.only failing y hy hc)
      obtain ⟨missing_iff, found⟩ := leaves_resumption_missing_iff hprepared
      have hnothing := missing_iff.1 rfl
      refine ⟨hnothing.of_looks fun z hz _ => List.mem_append_right _ (List.mem_append_left _ hz), row, record,
        List.mem_append_left _ List.mem_cons_self, hrecord, Decidable.not_not.1 hstatus, found hnothing⟩

/-- Where nothing is found of a workflow, a resumption that ends well has failed the execution at the node of its token. -/
theorem failed_of_foundNothing {result : Result} (h : Leaves (resume token).run xs (.done (.ok result)))
    (hnothing : FoundNothing id xs) :
    result = .failed token.resumeNodeId (SchedulingFault.workflowMissing id).message := by
  have reading : (getRecord token.executionId).run.Only fun r : Request => ¬r.Looks := only_getRecord fun h => h
  rw [resume_eq] at h
  obtain ⟨found, us, vs, rfl, hfound, hrest⟩ := h.bind_done_inv
  replace hnothing : FoundNothing id vs := hnothing.of_looks fun y hy hlooks =>
    (List.mem_append.1 hy).resolve_left fun hy => hfound.only reading y hy hlooks
  have nowhere : ¬FoundNothing id ([] : List (Reply interface)) := by simp [FoundNothing]
  match found with
  | .error e => cases hrest
  | .ok none =>
    obtain ⟨rfl, -⟩ := Leaves.done_inv (P := interface) hrest
    exact absurd hnothing nowhere
  | .ok (some record) =>
    dsimp only at hrest
    split at hrest
    · obtain ⟨rfl, -⟩ := Leaves.done_inv (P := interface) hrest
      exact absurd hnothing nowhere
    obtain ⟨prepared, us, ws, rfl, hprepared, hend⟩ := hrest.bind_done_inv
    have missing_iff : prepared = .error (.workflowMissing id) ↔ FoundNothing id us :=
      (leaves_resumption_missing_iff hprepared).1
    -- nothing more is looked up when the execution goes on, however it does
    have rest {going : Attempt Result} (hgoing : Leaves going.run ws (.done (.ok result)))
        (blind : going.run.Only fun r : Request => ¬r.Looks) : prepared = .error (.workflowMissing id) :=
      missing_iff.2 (hnothing.of_looks fun y hy hlooks => (List.mem_append.1 hy).resolve_right fun hy =>
        hgoing.only blind y hy hlooks)
    cases prepared with
    | ok found => cases rest hend ((only_goOn_ok record token found).imp fun _ h => h.2)
    | error e =>
      cases rest hend (only_failAt record token.resumeNodeId e.message (fun h => h) fun _ h => h)
      obtain ⟨moved, us, vs, rfl, -, hend⟩ := Leaves.attempt_ok hend
      obtain ⟨-, hresult⟩ := Leaves.done_inv (P := interface) hend
      cases hresult
      rfl

end Resumptions

end Lifecycle
