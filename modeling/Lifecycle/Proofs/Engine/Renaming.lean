import Lifecycle.Proofs.Host.Frame
import Lifecycle.Proofs.Mail.Renaming

/-!
# Visits under other identifiers

A visit of the same node in an execution with another identifier asks for the same and goes on in the same way: only in the mails
and the bodies of requests that it sends the one identifier stands where the other one stood.
-/

namespace Lifecycle

open Engine (Visit Outcome)
open Json (Renamed Plain)
open Program (Only)

variable {C : String → String → Prop}

/-! ### Requests on the network -/

namespace Http

/-- A request like another one, with other identifiers in its body. -/
structure Outbound.Renamed (C : String → String → Prop) (r r' : Outbound) : Prop where
  url : r'.url = r.url
  method : r'.method = r.method
  headers : r'.headers = r.headers
  body : Option.Rel (Json.Renamed C) r.body r'.body

theorem Outbound.renamed_refl (r : Outbound) : r.Renamed C r := by
  refine ⟨rfl, rfl, rfl, ?_⟩
  cases r.body with
  | none => exact .none
  | some j => exact .some (.same j)

theorem Outbound.Renamed.mono {D : String → String → Prop} (hD : ∀ i j, C i j → D i j) {r r' : Outbound} (h : r.Renamed C r') :
    r.Renamed D r' := by
  have related {x y : Option Json} (hxy : Option.Rel (Json.Renamed C) x y) : Option.Rel (Json.Renamed D) x y := by
    cases hxy with
    | none => exact .none
    | some hj => exact .some (hj.mono hD)
  exact ⟨h.url, h.method, h.headers, related h.body⟩

/-- Without a network both are refused in the same way: what is refused is an address. -/
theorem Outbound.Renamed.refusal {r r' : Outbound} (h : r.Renamed C r') : r'.refusal = r.refusal := by
  obtain ⟨url, method, headers, body⟩ := r
  obtain ⟨url', method', headers', body'⟩ := r'
  obtain ⟨rfl, rfl, rfl, -⟩ := h
  have address : Agreed (fun a a' : Arrival => a'.address = a.address) (Outbound.arrival ⟨url', method', headers', body⟩)
      (Outbound.arrival ⟨url', method', headers', body'⟩) := by
    unfold arrival
    refine (Agreed.refl _).bind fun a _ ha => ha ▸ ?_
    dsimp only
    split
    · exact .error _
    · refine (Agreed.refl _).bind fun _ _ _ => (Agreed.refl _).bind fun b b' hb => ?_
      exact .ok hb.symm
  unfold Outbound.refusal
  generalize Outbound.arrival ⟨url', method', headers', body⟩ = x at address ⊢
  generalize Outbound.arrival ⟨url', method', headers', body'⟩ = y at address ⊢
  cases address with
  | ok h =>
    dsimp only
    rw [h]
  | error f => rfl

end Http

/-! ### Handlers -/

namespace Handling

/-- A request that is answered from the target and the outline of the site, and leaves no mail and no request behind. -/
def Request.Local (target : Target) : Request → Prop
  | .target type c => type = target.type ∧ c.subject? = some target.id
  | .deliver _ | .send _ => False
  | .now | .template _ => True

/-- The programs ask for the same and go on in the same way, but for identifiers in what they send; and if they end, their
results are related. -/
inductive Matches (C : String → String → Prop) (target : Target) {α β : Type} (Q : α → β → Prop) :
    Program interface α → Program interface β → Prop where
  | done {a : α} {b : β} (h : Q a b) : Matches C target Q (.done a) (.done b)
  | ask {r : Request} (hr : r.Local target) {next : r.Answer → Program interface α} {next' : r.Answer → Program interface β}
    (h : ∀ x, Matches C target Q (next x) (next' x)) : Matches C target Q (.ask r next) (.ask r next')
  | deliver {m m' : Mail.Message} (hm : m.Renamed C m') {next : Except Mail.DeliveryFault Unit → Program interface α}
    {next' : Except Mail.DeliveryFault Unit → Program interface β} (h : ∀ x, Matches C target Q (next x) (next' x)) :
    Matches C target Q (.ask (.deliver m) next) (.ask (.deliver m') next')
  | send {r r' : Http.Outbound} (hr : r.Renamed C r') {next : Except Http.NetworkFault Http.Response → Program interface α}
    {next' : Except Http.NetworkFault Http.Response → Program interface β} (h : ∀ x, Matches C target Q (next x) (next' x)) :
    Matches C target Q (.ask (.send r) next) (.ask (.send r') next')

section Matches

variable {target : Target} {α β γ δ : Type} {Q : α → β → Prop} {Q' : γ → δ → Prop}

theorem Matches.bind {p : Program interface α} {q : Program interface β} {f : α → Program interface γ}
    {g : β → Program interface δ} (h : Matches C target Q p q) (hf : ∀ a b, Q a b → Matches C target Q' (f a) (g b)) :
    Matches C target Q' (p >>= f) (q >>= g) := by
  induction h with
  | done h => exact hf _ _ h
  | ask hr _ ih => exact .ask hr ih
  | deliver hm _ ih => exact .deliver hm ih
  | send hr _ ih => exact .send hr ih

/-- What follows is done if neither fails; and both fail alike. -/
theorem Matches.attempt {p : Attempt α} {q : Attempt β} {f : α → Attempt γ} {g : β → Attempt δ}
    (h : Matches C target (Agreed Q) p.run q.run) (hf : ∀ a b, Q a b → Matches C target (Agreed Q') (f a).run (g b).run) :
    Matches C target (Agreed Q') (p >>= f).run (q >>= g).run := by
  rw [ExceptT.run_bind, ExceptT.run_bind]
  refine h.bind fun x y hxy => ?_
  cases hxy with
  | ok h => exact hf _ _ h
  | error e => exact .done (.error e)

/-- A program that stays with the target matches itself. -/
theorem matches_of_only {v : Visit} {Q : α → α → Prop} (refl : ∀ a, Q a a) {p : Program interface α}
    (h : p.Only (Request.Within v)) : Matches C v.record.target Q p p := by
  induction p with
  | done a => exact .done (refl a)
  | ask r next ih =>
    have hnext := fun x => ih x (h.2 x)
    cases r with
    | now => exact .ask (r := .now) trivial hnext
    | template id => exact .ask (r := .template id) trivial hnext
    | target type c => exact .ask (r := .target type c) ⟨h.1.1, h.1.2.1⟩ hnext
    | deliver m => exact .deliver m.renamed_refl hnext
    | send r => exact .send r.renamed_refl hnext

end Matches

end Handling

/-! ### Visits -/

/-- The record of an execution under another identifier. -/
def Record.under (r : Record) (id : String) : Record := { r with id := id }

/-- The visit in an execution under another identifier. -/
def Engine.Visit.under (v : Visit) (id : String) : Visit := { v with record := v.record.under id }

namespace Handling

variable {v : Visit} {id : String}

/-- What a template sees. -/
theorem renamed_mailContext (pair : C v.record.id id) (recipient : String) (view : Json) :
    Renamed C (mailContext v recipient view) (mailContext (v.under id) recipient view) := by
  have workflowMeta : Renamed C
      (.object [("id", .str v.workflow.id), ("name", .str v.workflow.definition.name), ("executionId", .str v.record.id)])
      (.object [("id", .str v.workflow.id), ("name", .str v.workflow.definition.name), ("executionId", .str id)]) :=
    Json.renamed_object (.cons ⟨rfl, .same _⟩ (.cons ⟨rfl, .same _⟩ (.cons ⟨rfl, .identifier pair⟩ .nil)))
  exact Json.renamed_object
    (.cons ⟨rfl, .same _⟩ (.cons ⟨rfl, .same _⟩ (.cons ⟨rfl, workflowMeta⟩ (.cons ⟨rfl, .same _⟩ .nil))))

/-- The body of a request that has none of its own. -/
theorem renamed_description (pair : C v.record.id id) : Renamed C (description v) (description (v.under id)) := by
  have execution : Renamed C (.object [("id", .str v.record.id), ("triggerType", .str v.record.triggerType.name)])
      (.object [("id", .str id), ("triggerType", .str v.record.triggerType.name)]) :=
    Json.renamed_object (.cons ⟨rfl, .identifier pair⟩ (.cons ⟨rfl, .same _⟩ .nil))
  exact Json.renamed_object
    (.cons ⟨rfl, .same _⟩ (.cons ⟨rfl, execution⟩ (.cons ⟨rfl, .same _⟩ (.cons ⟨rfl, .same _⟩ .nil))))

/-- Mails are the same but for the identifiers that a template has them show. -/
theorem matches_mail (plain : ∀ i j, C i j → Plain i ∧ Plain j) (pair : C v.record.id id) (types : List TargetType) (e : Email) :
    Matches C v.record.target (Agreed Eq) (mail types e v).run (mail types e (v.under id)).run := by
  unfold mail
  refine (matches_of_only Agreed.refl (only_reading rfl rfl rfl)).attempt fun recipient _ same => same ▸ ?_
  cases recipient with
  | none => exact .done (.error _)
  | some recipient =>
    refine (matches_of_only Agreed.refl (only_reading rfl rfl rfl)).attempt fun view _ same => same ▸ ?_
    have template : Matches C v.record.target (Agreed Eq) (template e.templateId).run (template e.templateId).run :=
      .ask (r := .template e.templateId) trivial fun x => .done (Agreed.refl _)
    refine template.attempt fun source _ same => same ▸ ?_
    have rendered := (Mail.agreed_render plain source (renamed_mailContext pair recipient view)).mapError HandlerFault.template
    refine Matches.attempt (p := ExceptT.mk (pure _)) (q := ExceptT.mk (pure _)) (.done rendered) fun r r' hr => ?_
    have message : Mail.Message.Renamed C ⟨recipient, e.subject.getD r.subject, r.content⟩
        ⟨recipient, e.subject.getD r'.subject, r'.content⟩ := by
      refine ⟨rfl, ?_, hr.content⟩
      cases e.subject with
      | none => exact hr.subject
      | some subject => exact Text.spelled_refl _
    have delivered : Matches C v.record.target (Agreed Eq) (deliver _).run (deliver _).run :=
      .deliver message fun x => .done (Agreed.refl _)
    exact delivered.attempt fun _ _ _ => .done (.ok rfl)

/-- So are the requests of webhooks. -/
theorem matches_invoke (pair : C v.record.id id) (w : Webhook) :
    Matches C v.record.target (Agreed Eq) (invoke w v).run (invoke w (v.under id)).run := by
  unfold invoke
  have request : Http.Outbound.Renamed C ⟨w.url, w.method, w.headers, some (w.body.getD (description v))⟩
      ⟨w.url, w.method, w.headers, some (w.body.getD (description (v.under id)))⟩ := by
    refine ⟨rfl, rfl, rfl, .some ?_⟩
    cases w.body with
    | none => exact renamed_description pair
    | some body => exact .same body
  have sent : Matches C v.record.target (Agreed Eq) (send _).run (send _).run := .send request fun x => .done (Agreed.refl _)
  refine sent.attempt fun response _ same => same ▸ ?_
  split
  · exact .done (.ok rfl)
  · exact .done (.error _)

theorem matches_handle (plain : ∀ i j, C i j → Plain i ∧ Plain j) (pair : C v.record.id id) (types : List TargetType) :
    Matches C v.record.target (Agreed Eq) (handle types v).run (handle types (v.under id)).run := by
  have same (h : handle types (v.under id) = handle types v) :
      Matches C v.record.target (Agreed Eq) (handle types v).run (handle types (v.under id)).run := by
    rw [h]
    exact matches_of_only Agreed.refl (only_handle types v)
  obtain ⟨workflow, record, context, step, kind⟩ := v
  cases kind with
  | email e => exact matches_mail plain pair types e
  | webhook w => exact matches_invoke pair w
  | condition p =>
    refine same ?_
    cases p <;> rfl
  | _ => exact same rfl

end Handling

end Lifecycle
