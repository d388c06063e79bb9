import Lifecycle.Proofs.Host.Activation
import Lifecycle.Proofs.Host.Chronicle
import Lifecycle.Proofs.Store.Definitions
import Lifecycle.Proofs.Web.Administration

/-!
# Several clients at once

To create a workflow is to look whether it is there and then to save it, and to switch one is to read it and then to save it
with another flag. Each is two statements, and what other clients do between them is not seen. Of requests that create the same
workflow all succeed that look before the first of them saves; and a switch writes what it has read, whatever was saved or
deleted meanwhile.
-/

namespace Lifecycle

open Engine
open Host (Site Registry Worker Setting Chronicle Moment repliesTo)
open Store (Database Definitions DefinitionRow)

/-! ### A row that is saved -/

namespace Host.Site

variable {s s' : Site}

/-- A statement that saves a row is not refused where the table can be read, and is seen under the identifier of the row. -/
theorem row_saved {id : String} {found : Option DefinitionRow} (h : s.registry.row id = .ok found) {row : DefinitionRow}
    {x : Request.Answer (.statement (.saveDefinition row))} (hx : answer (.statement (.saveDefinition row)) s = (x, s')) :
    x = .ok () ∧ s'.registry.row id = .ok (if row.id = id then some row else found) := by
  cases hds : s.database.definitions with
  | none =>
    rw [Registry.row, show s.registry.stored = none from hds] at h
    cases h
  | some ds =>
    have hfound : ds.get? id = found := Except.ok.inj ((Registry.row_eq (g := s.registry) hds id).symm.trans h)
    rw [s.answer_statement (Store.Statement.execute_saveDefinition hds row)] at hx
    obtain ⟨rfl, rfl⟩ := Prod.mk.inj hx
    have hstored : (Site.registry { s with database := { s.database with definitions := some (ds.save row) } }).stored =
      some (ds.save row) := rfl
    refine ⟨rfl, (Registry.row_eq hstored id).trans ?_⟩
    rw [Definitions.get?_save, hfound]

end Host.Site

/-! ### What is asked for to create a workflow -/

theorem Engine.getDefinition_eq (id : String) : (getDefinition id).run = .ask (.statement (.definition id)) fun
    | .error f => .done (.error (.store f))
    | .ok none => .done (.ok none)
    | .ok (some row) => .done (((Definition.ofText row.definition).map some).mapError (.undecodable row.definition)) := by
  show Program.ask _ _ = _
  congr 1
  funext x
  match x with
  | .error f => rfl
  | .ok none => rfl
  | .ok (some row) => rfl

namespace Web

/-- The reply to the request that has created a definition. -/
def created (d : Definition) : Reply := told 201 d.id ("Workflow '" ++ d.name ++ "' created successfully")

/-- The reply to the request to create a definition where there is a row under its identifier. -/
def taken (d : Definition) (row : DefinitionRow) : Reply :=
  match Definition.ofText row.definition with
  | .ok _ => refuse 409 ("workflow '" ++ d.id ++ "' already exists")
  | .error _ => broken "Failed to look up workflow"

theorem status_taken (d : Definition) {e : Definition} (he : e.Storable) : (taken d (.ofDefinition e)).status = 409 := by
  have hread : Definition.ofText (DefinitionRow.ofDefinition e).definition = .ok e := Definition.ofText_text he
  unfold taken
  rw [hread]
  rfl

theorem create_eq {d : Definition} {w : Workflow} (hc : check d = .ok ()) (hw : Workflow.ofDefinition d = .ok w) :
    create d = .ask (.statement (.definition d.id)) fun
      | .error _ => .done (broken "Failed to look up workflow")
      | .ok (some row) => .done (taken d row)
      | .ok none => .ask (.statement (.saveDefinition (.ofDefinition d))) fun
        | .error _ => .done (broken "Failed to save workflow")
        | .ok () => .ask (.cache w) fun _ => .done (created d) := by
  unfold create
  rw [hc]
  show Program.ask _ _ = _
  congr 1
  funext x
  match x with
  | .error f => rfl
  | .ok (some row) =>
    show (Program.done (((Definition.ofText row.definition).map some).mapError (StorageFault.undecodable row.definition)) >>= _) =
      Program.done (taken d row)
    unfold taken
    cases Definition.ofText row.definition <;> rfl
  | .ok none =>
    show Program.ask _ _ = _
    congr 1
    funext y
    match y with
    | .error f => rfl
    | .ok () =>
      show (cacheDefinition d >>= _) = _
      unfold cacheDefinition
      rw [hw]
      rfl

/-- No row but that of the definition is saved, and none is deleted. -/
def Creates (d : Definition) : Engine.Request → Prop
  | .statement (.definition id) => id = d.id
  | .statement (.saveDefinition row) => row = .ofDefinition d
  | .cache _ => True
  | _ => False

theorem only_create (d : Definition) : (create d).Only (Creates d) := by
  rcases check_cases d with ⟨hc, ha⟩ | ⟨r, hc, -⟩
  · obtain ⟨w, hw⟩ := ha.workflow
    rw [create_eq hc hw]
    refine ⟨rfl, fun x => ?_⟩
    match x with
    | .error _ => trivial
    | .ok (some _) => trivial
    | .ok none =>
      refine ⟨rfl, fun y => ?_⟩
      match y with
      | .error _ => trivial
      | .ok () => exact ⟨trivial, fun _ => trivial⟩
  · unfold create
    rw [hc]
    trivial

theorem check_of_acceptable {d : Definition} (h : d.Acceptable) : check d = .ok () := by
  rcases check_cases d with ⟨hc, -⟩ | ⟨-, -, -, -, hno⟩
  · exact hc
  · exact absurd h hno

/-- A request that has been answered has looked for a row. If there was one nothing is saved; if there was none the definition
is. -/
theorem leaves_create_done {d : Definition} (hd : d.Acceptable) {xs : List (Lifecycle.Reply interface)} {a : Reply}
    (h : (create d).Leaves xs (.done a)) : ∃ x ys, xs = ⟨.statement (.definition d.id), x⟩ :: ys ∧
      ((∃ row, x = .ok (some row) ∧ ys = [] ∧ a = taken d row) ∨
        (x = .ok none ∧ ∃ y zs, ys = ⟨.statement (.saveDefinition (.ofDefinition d)), y⟩ :: zs ∧
          (y = .ok () → a = created d ∧ ∃ w, zs = [⟨.cache w, ()⟩])) ∨ ∃ f, x = .error f) := by
  obtain ⟨w, hw⟩ := hd.workflow
  rw [create_eq (check_of_acceptable hd) hw] at h
  obtain ⟨x, ys, rfl, hx⟩ := h.ask_done_inv
  refine ⟨x, ys, rfl, ?_⟩
  match x with
  | .error f => exact .inr (.inr ⟨f, rfl⟩)
  | .ok (some row) =>
    obtain ⟨rfl, rfl⟩ := Program.Leaves.done_inv hx
    exact .inl ⟨row, rfl, rfl, rfl⟩
  | .ok none =>
    obtain ⟨y, zs, rfl, hy⟩ := Program.Leaves.ask_done_inv hx
    refine .inr (.inl ⟨rfl, y, zs, rfl, fun hok => ?_⟩)
    subst hok
    obtain ⟨u, rest, rfl, hu⟩ := Program.Leaves.ask_done_inv hy
    obtain ⟨rfl, rfl⟩ := hu.done_inv
    exact ⟨rfl, w, rfl⟩

end Web

/-- Of the replies to a request that creates something the first one is to its look-up. -/
theorem Engine.looked_first {id other : String} {x : Request.Answer (.statement (.definition id))}
    {y : Request.Answer (.statement (.definition other))} {row : DefinitionRow} {w : Workflow}
    (h : (⟨.statement (.definition other), y⟩ : Reply interface) ∈
      [⟨.statement (.definition id), x⟩, ⟨.statement (.saveDefinition row), .ok ()⟩, ⟨.cache w, ()⟩]) :
    (⟨.statement (.definition other), y⟩ : Reply interface) = ⟨.statement (.definition id), x⟩ := by
  rcases List.mem_cons.1 h with he | h
  · exact he
  rcases List.mem_cons.1 h with he | h
  · cases he
  · cases List.mem_singleton.1 h

/-! ### Requests that create the same workflow -/

namespace Host

/-- Requests that create workflows, while nobody else saves or deletes the row of `id`. -/
def creating (id : String) : Setting Definition Web.Reply where
  job := Web.create
  Start s := s.registry.row id = .ok none
  Change s s' := s'.registry.row id = s.registry.row id

namespace Moment

/-- It is looked for a row. -/
def LooksUp (m : Moment) : Prop := ∃ k id x, m.happening = .answered k ⟨.statement (.definition id), x⟩

/-- The row that is saved, if it is one of `id`. -/
def saved? (id : String) (m : Moment) : Option DefinitionRow :=
  match m.happening with
  | .answered _ ⟨.statement (.saveDefinition row), _⟩ => if row.id = id then some row else none
  | _ => none

end Moment

theorem Moment.saved?_of_saves {m : Moment} {k : Nat} {row : DefinitionRow} {y : Request.Answer (.statement (.saveDefinition row))}
    (h : m.happening = .answered k ⟨.statement (.saveDefinition row), y⟩) {id : String} (hid : row.id = id) :
    m.saved? id = some row := by
  unfold saved?
  rw [h]
  exact if_pos hid

/-- The row of `id` that was saved last. -/
def lastSaved (id : String) (history : List Moment) : Option DefinitionRow := (history.filterMap (Moment.saved? id)).getLast?

theorem lastSaved_concat (id : String) (history : List Moment) (m : Moment) :
    lastSaved id (history ++ [m]) = (m.saved? id).or (lastSaved id history) := by
  unfold lastSaved
  rw [List.filterMap_append]
  cases hm : m.saved? id with
  | none => simp [hm]
  | some row => simp [hm]

theorem lastSaved_eq_none {id : String} {history : List Moment} :
    lastSaved id history = none ↔ ∀ m ∈ history, m.saved? id = none := by
  unfold lastSaved
  rw [List.getLast?_eq_none_iff, List.filterMap_eq_nil_iff]

theorem of_lastSaved {id : String} {history : List Moment} {row : DefinitionRow} (h : lastSaved id history = some row) :
    ∃ m ∈ history, m.saved? id = some row :=
  List.mem_filterMap.1 (List.mem_of_getLast? h)

/-- One looks for a row after somebody has saved the row of `id`. -/
def Successive (id : String) (history : List Moment) : Prop :=
  ∃ pre m post, history = pre ++ m :: post ∧ m.LooksUp ∧ ∃ m' ∈ pre, m'.saved? id ≠ none

namespace Setting

variable {id : String} {c : Chronicle Definition Web.Reply} {k : Nat}

/-- The row of `id` is the one that was saved last. -/
theorem Reachable.row (h : (creating id).Reachable c) : c.site.registry.row id = .ok (lastSaved id c.history) := by
  induction h with
  | start s hs => exact hs
  | @step c c' h hs ih =>
    cases hs with
    | begin d =>
      rw [lastSaved_concat]
      exact ih
    | change s hc =>
      rw [lastSaved_concat]
      exact (show s.registry.row id = _ from hc).trans ih
    | @answer k d r next x s hk hx =>
      rw [lastSaved_concat]
      have creates : Web.Creates d r := ((h.leaves hk).rest_only (Web.only_create d)).1
      cases r with
      | statement q =>
        cases q with
        | definition other =>
          rw [Site.answer_definition] at hx
          obtain ⟨-, rfl⟩ := Prod.mk.inj hx
          exact ih
        | saveDefinition row =>
          rw [(Site.row_saved ih hx).2]
          show _ = Except.ok ((if row.id = id then some row else none).or _)
          split <;> rfl
        | _ => exact creates.elim
      | cache w =>
        obtain ⟨-, rfl⟩ := Prod.mk.inj hx
        exact ih
      | _ => exact creates.elim

/-- What is found is the row that was saved last before. -/
theorem Reachable.found (h : (creating id).Reachable c) {pre post : List Moment} {m : Moment} (hm : c.history = pre ++ m :: post)
    {x : Request.Answer (.statement (.definition id))} (hx : m.happening = .answered k ⟨.statement (.definition id), x⟩) :
    x = .ok (lastSaved id pre) := by
  obtain ⟨c₀, -, h₀, -, rfl, -, hsite, -⟩ := h.cut hm
  have hanswer := (h.answered hm hx).1
  rw [Site.answer_definition, ← hsite, h₀.row] at hanswer
  exact (congrArg Prod.fst hanswer).symm

/-- What is saved is saved. -/
theorem Reachable.stored (h : (creating id).Reachable c) {m : Moment} (hm : m ∈ c.history) {row : DefinitionRow}
    {y : Request.Answer (.statement (.saveDefinition row))}
    (hy : m.happening = .answered k ⟨.statement (.saveDefinition row), y⟩) : y = .ok () := by
  obtain ⟨pre, post, hsplit⟩ := List.append_of_mem hm
  obtain ⟨c₀, -, h₀, -, rfl, -, hsite, -⟩ := h.cut hsplit
  exact (Site.row_saved (hsite ▸ h₀.row) (h.answered hsplit hy).1).1

/-- What has been answered about a definition of `id`: it was created where no row was found, or taken where there was one. -/
theorem Reachable.created_or_taken (h : (creating id).Reachable c) {d : Definition} {a : Web.Reply}
    (hk : c.calls[k]? = some (d, .done a)) (hd : d.Acceptable) (hid : d.id = id) :
    (∃ row, repliesTo k c.history = [⟨.statement (.definition id), .ok (some row)⟩] ∧ a = Web.taken d row) ∨
      ∃ w, repliesTo k c.history = [⟨.statement (.definition id), .ok none⟩,
        ⟨.statement (.saveDefinition (.ofDefinition d)), .ok ()⟩, ⟨.cache w, ()⟩] ∧ a = Web.created d := by
  subst hid
  obtain ⟨x, ys, hreplies, hx⟩ := Web.leaves_create_done hd (h.leaves hk)
  rcases hx with ⟨row, rfl, rfl, rfl⟩ | ⟨rfl, y, zs, rfl, hy⟩ | ⟨f, rfl⟩
  · exact .inl ⟨row, hreplies, rfl⟩
  · obtain ⟨pre, m, post, hm, hsaves, -, -⟩ := moment_of_repliesTo [_] hreplies
    obtain rfl := h.stored (hm ▸ List.mem_append_right _ List.mem_cons_self) hsaves
    obtain ⟨rfl, w, rfl⟩ := hy rfl
    exact .inr ⟨w, hreplies, rfl⟩
  · obtain ⟨pre, m, post, hm, hlooks, -, -⟩ := moment_of_repliesTo [] hreplies
    cases h.found hm hlooks

/-- A row that is saved is that of the definition of the request that saves it. -/
theorem Reachable.saver (h : (creating id).Reachable c) {m : Moment} (hm : m ∈ c.history) {row : DefinitionRow}
    (hrow : m.saved? id = some row) : ∃ k d rest, c.calls[k]? = some (d, rest) ∧ row = .ofDefinition d ∧
      ⟨.statement (.saveDefinition row), .ok ()⟩ ∈ repliesTo k c.history := by
  unfold Moment.saved? at hrow
  split at hrow
  · rename_i k saved y hy
    split at hrow
    · cases hrow
      obtain rfl := h.stored hm hy
      have hmem := mem_repliesTo hm hy
      cases hk : c.calls[k]? with
      | none =>
        rw [h.repliesTo_eq_nil (List.getElem?_eq_none_iff.1 hk)] at hmem
        cases hmem
      | some call => exact ⟨k, call.1, call.2, hk, (h.leaves hk).only (Web.only_create call.1) _ hmem, hmem⟩
    · cases hrow
  · cases hrow

/-- What was found was found at a moment, and had been saved before. -/
theorem Reachable.looked (h : (creating id).Reachable c) {x : Request.Answer (.statement (.definition id))}
    (hx : ⟨.statement (.definition id), x⟩ ∈ repliesTo k c.history) :
    ∃ pre m post, c.history = pre ++ m :: post ∧ m.LooksUp ∧ x = .ok (lastSaved id pre) := by
  obtain ⟨m, hm, hreply⟩ := List.mem_filterMap.1 hx
  have happened := Moment.happening_of_replyTo? hreply
  obtain ⟨pre, post, hsplit⟩ := List.append_of_mem hm
  exact ⟨pre, m, post, hsplit, ⟨k, id, x, happened⟩, h.found hsplit happened⟩

/-- What has been found was saved by one of the requests. -/
theorem Reachable.found_saved (h : (creating id).Reachable c) {row : DefinitionRow}
    (found : ⟨.statement (.definition id), .ok (some row)⟩ ∈ repliesTo k c.history) :
    ∃ i, ⟨.statement (.saveDefinition row), .ok ()⟩ ∈ repliesTo i c.history ∧ Successive id c.history := by
  obtain ⟨pre, m, post, hm, looks, hfound⟩ := h.looked found
  obtain ⟨m', hm', hrow⟩ := of_lastSaved (Except.ok.inj hfound).symm
  obtain ⟨i, -, -, -, -, hmem⟩ := h.saver (hm ▸ List.mem_append_left _ hm') hrow
  exact ⟨i, hmem, pre, m, post, hm, looks, m', hm', by rw [hrow]; exact nofun⟩

/-- If nobody has found a row, nobody has looked for one after it had been saved. -/
theorem Reachable.not_successive (h : (creating id).Reachable c)
    (unfound : ∀ (i : Nat) (other : String) (x : Request.Answer (.statement (.definition other))),
      ⟨.statement (.definition other), x⟩ ∈ repliesTo i c.history →
        (⟨.statement (.definition other), x⟩ : Reply Engine.interface) = ⟨.statement (.definition id), .ok none⟩) :
    ¬ Successive id c.history := by
  rintro ⟨pre, m, post, hm, ⟨i, other, x, looks⟩, m', hm', saved⟩
  cases unfound i other x (mem_repliesTo (hm ▸ List.mem_append_right pre List.mem_cons_self) looks)
  exact saved (lastSaved_eq_none.1 (Except.ok.inj (h.found hm looks)).symm m' hm')

/-- Once a request has saved, the row is that of one that has. -/
theorem Reachable.row_of_saved (h : (creating id).Reachable c) {row : DefinitionRow} (hid : row.id = id)
    (saved : ⟨.statement (.saveDefinition row), .ok ()⟩ ∈ repliesTo k c.history) : ∃ i d rest, c.calls[i]? = some (d, rest) ∧
      c.site.registry.row id = .ok (some (.ofDefinition d)) ∧
      ⟨.statement (.saveDefinition (.ofDefinition d)), .ok ()⟩ ∈ repliesTo i c.history := by
  cases hlast : lastSaved id c.history with
  | none =>
    obtain ⟨m, hm, hreply⟩ := List.mem_filterMap.1 saved
    have hnone := lastSaved_eq_none.1 hlast m hm
    rw [Moment.saved?_of_saves (Moment.happening_of_replyTo? hreply) hid] at hnone
    cases hnone
  | some last =>
    obtain ⟨m, hm, hrow⟩ := of_lastSaved hlast
    obtain ⟨i, d, rest, hi, rfl, hmem⟩ := h.saver hm hrow
    exact ⟨i, d, rest, hi, h.row.trans (congrArg Except.ok hlast), hmem⟩

/-- If only one of the requests saves, what it saves is what another one has found. -/
theorem Reachable.one_saves (h : (creating id).Reachable c) {d : Definition} {rest : Job Web.Reply} {j : Nat}
    (hk : c.calls[k]? = some (d, rest)) (hid : d.id = id)
    (only : ∀ i row, ⟨.statement (.saveDefinition row), .ok ()⟩ ∈ repliesTo i c.history → i = k) {row : DefinitionRow}
    (found : ⟨.statement (.definition id), .ok (some row)⟩ ∈ repliesTo j c.history) :
    row = .ofDefinition d ∧ c.site.registry.row id = .ok (some (.ofDefinition d)) ∧ Successive id c.history := by
  obtain ⟨i, saved, successive⟩ := h.found_saved found
  obtain rfl := only i row saved
  obtain rfl : row = .ofDefinition d := (h.leaves hk).only (Web.only_create d) _ saved
  obtain ⟨j, e, left, hj, hrow, saved'⟩ := h.row_of_saved hid saved
  obtain rfl := only j _ saved'
  cases hk.symm.trans hj
  exact ⟨rfl, hrow, successive⟩

end Setting

end Host

open Host in
/-- Of two requests that create the same workflow, while nobody else saves or deletes it, one creates it and the other one finds
it there if one of them looks for it after the other has saved it. Otherwise both create it, and the one that saves last leaves
its definition. -/
theorem creations_of_one {id : String} {c : Chronicle Definition Web.Reply} (h : (creating id).Reachable c) {d e : Definition}
    {a b : Web.Reply} (calls : c.calls = [(d, .done a), (e, .done b)]) (hd : d.Acceptable) (he : e.Acceptable)
    (hdid : d.id = id) (heid : e.id = id) :
    (Successive id c.history →
      (a = Web.created d ∧ b = Web.taken e (.ofDefinition d) ∧ c.site.registry.row id = .ok (some (.ofDefinition d))) ∨
        (a = Web.taken d (.ofDefinition e) ∧ b = Web.created e ∧ c.site.registry.row id = .ok (some (.ofDefinition e)))) ∧
    (¬ Successive id c.history → a = Web.created d ∧ b = Web.created e ∧
      (c.site.registry.row id = .ok (some (.ofDefinition d)) ∨ c.site.registry.row id = .ok (some (.ofDefinition e)))) := by
  have first : c.calls[0]? = some (d, .done a) := by rw [calls]; rfl
  have second : c.calls[1]? = some (e, .done b) := by rw [calls]; rfl
  have two {i : Nat} {y : Reply Engine.interface} (hy : y ∈ repliesTo i c.history) : i = 0 ∨ i = 1 := by
    rcases Nat.lt_or_ge i c.calls.length with hlt | hge
    · rw [calls, List.length_cons, List.length_singleton] at hlt
      omega
    · rw [h.repliesTo_eq_nil hge] at hy
      cases hy
  have unsaved {i : Nat} {x : Engine.Request.Answer (.statement (.definition id))} {row : DefinitionRow}
      (hreplies : repliesTo i c.history = [⟨.statement (.definition id), x⟩]) :
      ⟨.statement (.saveDefinition row), .ok ()⟩ ∉ repliesTo i c.history := by
    intro hmem
    rw [hreplies] at hmem
    cases List.mem_singleton.1 hmem
  rcases h.created_or_taken first hd hdid with ⟨row, hfirst, rfl⟩ | ⟨v, hfirst, rfl⟩ <;>
    rcases h.created_or_taken second he heid with ⟨row', hsecond, rfl⟩ | ⟨w, hsecond, rfl⟩
  · -- what the first one has found was saved by one of the two
    obtain ⟨i, saved, -⟩ := h.found_saved (hfirst ▸ List.mem_cons_self)
    rcases two saved with rfl | rfl
    · exact absurd saved (unsaved hfirst)
    · exact absurd saved (unsaved hsecond)
  · obtain ⟨rfl, hstored, successive⟩ := h.one_saves second heid
      (fun i row saved => (two saved).resolve_left fun hi => unsaved hfirst (hi ▸ saved)) (hfirst ▸ List.mem_cons_self)
    exact ⟨fun _ => .inr ⟨rfl, rfl, hstored⟩, fun hno => absurd successive hno⟩
  · obtain ⟨rfl, hstored, successive⟩ := h.one_saves first hdid
      (fun i row saved => (two saved).resolve_right fun hi => unsaved hsecond (hi ▸ saved)) (hsecond ▸ List.mem_cons_self)
    exact ⟨fun _ => .inl ⟨rfl, rfl, hstored⟩, fun hno => absurd successive hno⟩
  · have never : ¬ Successive id c.history := h.not_successive fun i other x hmem => by
      rcases two hmem with rfl | rfl
      · exact looked_first (hfirst ▸ hmem)
      · exact looked_first (hsecond ▸ hmem)
    obtain ⟨i, f, left, hi, hrow, saved⟩ := h.row_of_saved hdid (hfirst ▸ List.mem_cons_of_mem _ List.mem_cons_self)
    refine ⟨fun successive => absurd successive never, fun _ => ⟨rfl, rfl, ?_⟩⟩
    rcases two saved with rfl | rfl
    · cases first.symm.trans hi
      exact .inl hrow
    · cases second.symm.trans hi
      exact .inr hrow

namespace Lone

theorem acceptable (active : Bool) : (definition "new" active).Acceptable where
  id := (by decide : Text.isBlank "new" = false)
  name := (by decide : Text.isBlank "new" = false)
  workflow := ⟨_, ofDefinition "new" active⟩

/-- Storage without definitions. -/
def vacant : Site := { site true with database := { database true with definitions := some [] } }

/-- The definition under another name. -/
def renamed : Definition := { definition "new" true with name := "other" }

open Host Host.Setting in
/-- Two requests have begun at storage without definitions. -/
theorem reachable_both : (creating "new").Reachable ⟨vacant, [(definition "new" true, Web.create (definition "new" true)),
    (definition "new" false, Web.create (definition "new" false))], [⟨.begun 0, vacant, vacant⟩, ⟨.begun 1, vacant, vacant⟩]⟩ :=
  ((Reachable.start vacant rfl).step (.begin (definition "new" true))).step (.begin (definition "new" false))

end Lone

open Host in
/-- The second request looks for the workflow when the first one has created it. -/
theorem creations_of_one_of_lone : ∃ (c : Chronicle Definition Web.Reply) (a b : Web.Reply), (creating "new").Reachable c ∧
    c.calls = [(Lone.definition "new" true, .done a), (Lone.definition "new" false, .done b)] ∧ Successive "new" c.history ∧
      a.status = 201 ∧ b.status = 409 ∧
      c.site.registry.row "new" = .ok (some (.ofDefinition (Lone.definition "new" true))) := by
  have begun := Lone.reachable_both
  rw [Web.create_eq (Web.check_of_acceptable (Lone.acceptable true)) (Lone.ofDefinition "new" true),
    Web.create_eq (Web.check_of_acceptable (Lone.acceptable false)) (Lone.ofDefinition "new" false)] at begun
  have looked := begun.step (.answer (k := 0) rfl (Lone.vacant.answer_definition "new"))
  have saved := looked.step (.answer (k := 0) rfl rfl)
  have cached := saved.step (.answer (k := 0) rfl rfl)
  have found := cached.step (.answer (k := 1) rfl (Site.answer_definition _ "new"))
  obtain ⟨c, reachable, calls, successive⟩ : ∃ c : Chronicle Definition Web.Reply, (creating "new").Reachable c ∧
      c.calls = [(Lone.definition "new" true, .done (Web.created (Lone.definition "new" true))),
        (Lone.definition "new" false,
          .done (Web.taken (Lone.definition "new" false) (.ofDefinition (Lone.definition "new" true))))] ∧
      Successive "new" c.history :=
    ⟨_, found, rfl, [_, _, _, _, _], _, [], rfl, ⟨1, _, _, rfl⟩, _, .tail _ (.tail _ (.tail _ (.head _))),
      Option.ne_none_iff_exists'.2 ⟨_, Moment.saved?_of_saves rfl rfl⟩⟩
  refine ⟨c, _, _, reachable, calls, successive, rfl, Web.status_taken _ (Lone.storable "new" true), ?_⟩
  rcases (creations_of_one reachable calls (Lone.acceptable true) (Lone.acceptable false) rfl rfl).1 successive with
    ⟨-, -, hrow⟩ | ⟨hboth, -⟩
  · exact hrow
  · have hstatus := congrArg Web.Reply.status hboth
    rw [Web.status_taken _ (Lone.storable "new" false)] at hstatus
    cases hstatus

open Host in
/-- Both requests create the workflow if both have looked for it before. -/
theorem creations_overlap : ∃ (c : Chronicle Definition Web.Reply) (a b : Web.Reply), (creating "new").Reachable c ∧
    c.calls = [(Lone.definition "new" true, .done a), (Lone.definition "new" false, .done b)] ∧
      a.status = 201 ∧ b.status = 201 ∧
      c.site.registry.row "new" = .ok (some (.ofDefinition (Lone.definition "new" true))) := by
  have begun := Lone.reachable_both
  rw [Web.create_eq (Web.check_of_acceptable (Lone.acceptable true)) (Lone.ofDefinition "new" true),
    Web.create_eq (Web.check_of_acceptable (Lone.acceptable false)) (Lone.ofDefinition "new" false)] at begun
  have first := begun.step (.answer (k := 0) rfl (Lone.vacant.answer_definition "new"))
  have second := first.step (.answer (k := 1) rfl (Lone.vacant.answer_definition "new"))
  have saved := second.step (.answer (k := 1) rfl rfl)
  have cached := saved.step (.answer (k := 1) rfl rfl)
  have saved' := cached.step (.answer (k := 0) rfl rfl)
  have cached' := saved'.step (.answer (k := 0) rfl rfl)
  exact ⟨_, Web.created (Lone.definition "new" true), Web.created (Lone.definition "new" false), cached', rfl, rfl, rfl, rfl⟩

/-! ### Switching a workflow -/

theorem Engine.switchDefinition_eq (id : String) (active : Bool) :
    (switchDefinition id active).run = .ask (.statement (.definition id)) fun
      | .error f => .done (.error (.store f))
      | .ok none => .done (.ok false)
      | .ok (some row) => match Definition.ofText row.definition with
        | .error f => .done (.error (.undecodable row.definition f))
        | .ok d => .ask (.statement (.saveDefinition (.ofDefinition { d with active := active }))) fun
          | .error f => .done (.error (.store f))
          | .ok () => .done (.ok true) := by
  unfold switchDefinition
  rw [ExceptT.run_bind, getDefinition_eq]
  show Program.ask _ _ = _
  congr 1
  funext x
  match x with
  | .error f => rfl
  | .ok none => rfl
  | .ok (some row) =>
    show (Program.done (((Definition.ofText row.definition).map some).mapError
      (StorageFault.undecodable row.definition)) >>= _) = _
    dsimp only
    cases Definition.ofText row.definition with
    | error f => rfl
    | ok d =>
      show Program.ask _ _ = _
      congr 1
      funext y
      cases y <;> rfl

/-- A switch that has ended has looked for the row. It told what it could not read, or that there was none; or it has saved what
it has read with the flag. -/
theorem Engine.leaves_switchDefinition_done {id : String} {active : Bool} {xs : List (Reply interface)}
    {r : Except StorageFault Bool} (h : (switchDefinition id active).run.Leaves xs (.done r)) :
    ∃ x ys, xs = ⟨.statement (.definition id), x⟩ :: ys ∧ ((∃ f, x = .error f ∧ r = .error (.store f)) ∨
      (x = .ok none ∧ r = .ok false) ∨ ∃ row, x = .ok (some row) ∧
        ((∃ f, Definition.ofText row.definition = .error f ∧ r = .error (.undecodable row.definition f)) ∨
          ∃ d y, Definition.ofText row.definition = .ok d ∧
            ys = [⟨.statement (.saveDefinition (.ofDefinition { d with active := active })), y⟩] ∧
            (y = .ok () → r = .ok true))) := by
  rw [switchDefinition_eq] at h
  obtain ⟨x, ys, rfl, hx⟩ := h.ask_done_inv
  refine ⟨x, ys, rfl, ?_⟩
  match x with
  | .error f => exact .inl ⟨f, rfl, (Program.Leaves.done_inv hx).2.symm⟩
  | .ok none => exact .inr (.inl ⟨rfl, (Program.Leaves.done_inv hx).2.symm⟩)
  | .ok (some row) =>
    refine .inr (.inr ⟨row, rfl, ?_⟩)
    dsimp only at hx
    cases hd : Definition.ofText row.definition with
    | error f =>
      rw [hd] at hx
      exact .inl ⟨f, rfl, (Program.Leaves.done_inv hx).2.symm⟩
    | ok d =>
      rw [hd] at hx
      obtain ⟨y, zs, rfl, hy⟩ := Program.Leaves.ask_done_inv hx
      refine .inr ⟨d, y, rfl, ?_⟩
      match y with
      | .error f =>
        obtain ⟨rfl, -⟩ := Program.Leaves.done_inv hy
        exact ⟨rfl, nofun⟩
      | .ok () =>
        obtain ⟨rfl, rfl⟩ := Program.Leaves.done_inv hy
        exact ⟨rfl, fun _ => rfl⟩

/-- Definitions with the same flag are stored alike if and only if they differ at most in whether they are active. -/
theorem Definition.SameButActive.row_eq {d e : Definition} (h : d.SameButActive e) (active : Bool) :
    DefinitionRow.ofDefinition { d with active := active } = .ofDefinition { e with active := active } := by
  have he : e = { d with active := e.active } := h
  rw [he]

theorem Definition.sameButActive_of_row {d e : Definition} (hd : d.Storable) (he : e.Storable) {active : Bool}
    (h : DefinitionRow.ofDefinition { d with active := active } = .ofDefinition { e with active := active }) :
    d.SameButActive e := by
  have hdread : Definition.ofText ({ d with active := active } : Definition).text = .ok { d with active := active } :=
    Definition.ofText_text (hd.congr rfl rfl rfl)
  have heread : Definition.ofText ({ e with active := active } : Definition).text = .ok { e with active := active } :=
    Definition.ofText_text (he.congr rfl rfl rfl)
  have htext : ({ d with active := active } : Definition).text = ({ e with active := active } : Definition).text :=
    congrArg (·.definition) h
  rw [htext, heread] at hdread
  have hsame : { e with active := active } = { d with active := active } := Except.ok.inj hdread
  exact congrArg (fun f : Definition => { f with active := e.active }) hsame

namespace Host

/-- Calls that switch workflows, while the table of definitions is there. -/
def switching : Setting (String × Bool) (Except StorageFault Bool) where
  job i := (switchDefinition i.1 i.2).run
  Start s := s.database.definitions.isSome = true
  Change _ s := s.database.definitions.isSome = true

theorem Setting.Reachable.readable {c : Chronicle (String × Bool) (Except StorageFault Bool)} (h : switching.Reachable c) :
    c.site.database.definitions.isSome = true := by
  induction h with
  | start s hs => exact hs
  | @step c c' h hs ih =>
    cases hs with
    | begin i => exact ih
    | change s hc => exact hc
    | @answer k i r next x s hk hx =>
      obtain rfl : (Site.answer r c.site).2 = s := congrArg Prod.snd hx
      exact Site.readable_answer ih r

/-- A call saves a definition: its row is there then, whether or not there was one before, and no other row is touched. -/
structure Moment.Saves (m : Moment) (k : Nat) (d : Definition) : Prop where
  happening : m.happening = .answered k ⟨.statement (.saveDefinition (.ofDefinition d)), .ok ()⟩
  row : m.after.registry.row d.id = .ok (some (.ofDefinition d))
  others : ∀ id, id ≠ d.id → m.after.registry.row id = m.before.registry.row id

theorem Setting.Reachable.saves {c : Chronicle (String × Bool) (Except StorageFault Bool)} (h : switching.Reachable c)
    {pre post : List Moment} {m : Moment} (hm : c.history = pre ++ m :: post) {k : Nat} {d : Definition}
    {y : Request.Answer (.statement (.saveDefinition (.ofDefinition d)))}
    (hy : m.happening = .answered k ⟨.statement (.saveDefinition (.ofDefinition d)), y⟩) : y = .ok () ∧ m.Saves k d := by
  obtain ⟨c₀, -, h₀, -, -, -, hsite, -⟩ := h.cut hm
  obtain ⟨ds, hds⟩ := Option.isSome_iff_exists.1 (hsite ▸ h₀.readable)
  have before (id : String) : m.before.registry.row id = .ok (ds.get? id) := Registry.row_eq (g := m.before.registry) hds id
  have saved (id : String) := Site.row_saved (before id) (h.answered hm hy).1
  obtain rfl := (saved d.id).1
  refine ⟨rfl, hy, (saved d.id).2.trans (congrArg Except.ok (if_pos rfl)), fun id hne => ?_⟩
  exact (saved id).2.trans ((congrArg Except.ok (if_neg (Ne.symm hne))).trans (before id).symm)

end Host

open Host in
/-- A switch leaves what it has read with the flag, whatever others save or delete between its two statements. So the row is
there even if it was deleted meanwhile; and another definition that was saved meanwhile is kept, with the flag, if it differs
from what was read in no more than that, and only then if both are kept by their texts. -/
theorem switch_writes_what_it_read {c : Chronicle (String × Bool) (Except StorageFault Bool)} (h : switching.Reachable c) {k : Nat}
    {id : String} {active : Bool} {r : Except StorageFault Bool} (hk : c.calls[k]? = some ((id, active), .done r)) :
    ∃ pre read rest, c.history = pre ++ read :: rest ∧ (∃ x, read.happening = .answered k ⟨.statement (.definition id), x⟩) ∧
      ((∃ f, read.before.registry.find id = .error f ∧ r = .error f) ∨
        (read.before.registry.find id = .ok none ∧ r = .ok false) ∨
        ∃ d, read.before.registry.find id = .ok (some d) ∧ r = .ok true ∧
          ∃ mid write post, rest = mid ++ write :: post ∧ write.Saves k { d with active := active } ∧
            ∀ e, (d.SameButActive e → write.after.registry.row d.id = .ok (some (.ofDefinition { e with active := active }))) ∧
              (d.Storable → e.Storable →
                write.after.registry.row d.id = .ok (some (.ofDefinition { e with active := active })) → d.SameButActive e)) := by
  have left : (switchDefinition id active).run.Leaves (repliesTo k c.history) (.done r) := h.leaves hk
  obtain ⟨x, ys, hreplies, hx⟩ := leaves_switchDefinition_done left
  obtain ⟨pre, read, rest, hread, happened, -, hrest⟩ := moment_of_repliesTo [] hreplies
  have found : read.before.registry.row id = x := by
    have hanswer := (h.answered hread happened).1
    rw [Site.answer_definition] at hanswer
    exact congrArg Prod.fst hanswer
  refine ⟨pre, read, rest, hread, ⟨x, happened⟩, ?_⟩
  rcases hx with ⟨f, rfl, rfl⟩ | ⟨rfl, rfl⟩ | ⟨row, rfl, ⟨f, hd, rfl⟩ | ⟨d, y, hd, rfl, hy⟩⟩
  · exact .inl ⟨.store f, Registry.find_eq_store found, rfl⟩
  · exact .inr (.inl ⟨Registry.find_eq_none found, rfl⟩)
  · exact .inl ⟨.undecodable row.definition f, Registry.find_eq_undecodable found hd, rfl⟩
  · obtain ⟨mid, write, post, rfl, happened', -, -⟩ := moment_of_repliesTo [] hrest
    have hwrite : c.history = (pre ++ read :: mid) ++ write :: post := by rw [hread, List.append_assoc, List.cons_append]
    obtain ⟨rfl, saves⟩ := h.saves hwrite happened'
    refine .inr (.inr ⟨d, Registry.find_eq_some found hd, hy rfl, mid, write, post, rfl, saves, fun e => ⟨fun he => ?_, ?_⟩⟩)
    · rw [← he.row_eq active]
      exact saves.row
    · exact fun hd he hsame => Definition.sameButActive_of_row hd he (Option.some.inj (Except.ok.inj (saves.row.symm.trans hsame)))

/-- A switch reads a definition, something else changes the site, and the switch saves. -/
theorem Host.reachable_switching (s s' : Site) {id : String} (active : Bool) {row : DefinitionRow} {d : Definition}
    (hs : s.database.definitions.isSome = true) (hs' : s'.database.definitions.isSome = true)
    (hrow : s.registry.row id = .ok (some row)) (hd : Definition.ofText row.definition = .ok d) :
    ∃ c, switching.Reachable c ∧ c.calls = [((id, active), .done (.ok true))] ∧
      c.history = [⟨.begun 0, s, s⟩, ⟨.answered 0 ⟨.statement (.definition id), .ok (some row)⟩, s, s⟩, ⟨.changed, s, s'⟩,
        ⟨.answered 0 ⟨.statement (.saveDefinition (.ofDefinition { d with active := active })), .ok ()⟩, s', c.site⟩] ∧
      c.site.registry.row d.id = .ok (some (.ofDefinition { d with active := active })) := by
  obtain ⟨ds, hds⟩ := Option.isSome_iff_exists.1 hs'
  have looks : Site.answer (.statement (.definition id)) s = (.ok (some row), s) :=
    (s.answer_definition id).trans (congrArg (·, s) hrow)
  have saves := s'.answer_statement (Store.Statement.execute_saveDefinition hds (.ofDefinition { d with active := active }))
  have begun : switching.Reachable ⟨s, [((id, active), (switchDefinition id active).run)], [⟨.begun 0, s, s⟩]⟩ :=
    (Setting.Reachable.start s hs).step (.begin (id, active))
  rw [switchDefinition_eq] at begun
  have read := begun.step (.answer (k := 0) rfl looks)
  dsimp only at read
  rw [hd] at read
  have saved := (read.step (.change s' hs')).step (.answer (k := 0) rfl saves)
  exact ⟨_, saved, rfl, rfl, (Site.row_saved (Registry.row_eq (g := s'.registry) hds d.id) saves).2.trans
    (congrArg Except.ok (if_pos rfl))⟩

namespace Lone

theorem row_site (active : Bool) : (site active).registry.row "new" = .ok (some (.ofDefinition (definition "new" active))) := rfl

theorem ofText_row (active : Bool) :
    Definition.ofText (DefinitionRow.ofDefinition (definition "new" active)).definition = .ok (definition "new" active) :=
  Definition.ofText_text (storable "new" active)

end Lone

open Host in
/-- Another client only switches the workflow off, before it is switched on. -/
theorem switch_writes_what_it_read_of_lone : ∃ c, switching.Reachable c ∧ c.calls = [(("new", true), .done (.ok true))] ∧
    (∃ m ∈ c.history, m.happening = .changed ∧
      m.after.registry.row "new" = .ok (some (.ofDefinition (Lone.definition "new" false)))) ∧
    c.site.registry.row "new" = .ok (some (.ofDefinition { Lone.definition "new" false with active := true })) := by
  obtain ⟨c, reachable, calls, history, -⟩ :=
    reachable_switching (Lone.site true) (Lone.site false) true rfl rfl (Lone.row_site true) (Lone.ofText_row true)
  refine ⟨c, reachable, calls, ⟨⟨.changed, Lone.site true, Lone.site false⟩, by rw [history]; simp, rfl, rfl⟩, ?_⟩
  obtain ⟨pre, read, rest, hread, ⟨x, looks⟩, hends⟩ := switch_writes_what_it_read reachable (k := 0) (by rw [calls]; rfl)
  rcases hends with ⟨f, -, hr⟩ | ⟨-, hr⟩ | ⟨d, hd, -, mid, write, post, rfl, ⟨saves, -, -⟩, hsame⟩
  · cases hr
  · cases hr
  rw [history] at hread
  have hreads : read ∈ pre ++ read :: (mid ++ write :: post) := List.mem_append_right _ List.mem_cons_self
  have hwrites : write ∈ pre ++ read :: (mid ++ write :: post) := by simp
  rw [← hread] at hreads hwrites
  simp only [List.mem_cons, List.not_mem_nil, or_false] at hreads hwrites
  rcases hreads with rfl | rfl | rfl | rfl <;> cases looks
  cases hd.symm.trans (Registry.find_eq_some (Lone.row_site true) (Lone.ofText_row true))
  rcases hwrites with rfl | rfl | rfl | rfl
  · cases saves
  · cases saves
  · cases saves
  · exact (hsame (Lone.definition "new" false)).1 rfl

open Host in
/-- A switch that has read a definition saves it when another client has deleted it, or has saved it with another name. -/
theorem switch_undoes_others :
    (∃ c m, switching.Reachable c ∧ c.calls = [(("new", false), .done (.ok true))] ∧ m ∈ c.history ∧ m.happening = .changed ∧
      Site.answer (.statement (.deleteDefinition "new")) m.before = (.ok true, m.after) ∧
      m.after.registry.row "new" = .ok none ∧
      c.site.registry.row "new" = .ok (some (.ofDefinition (Lone.definition "new" false)))) ∧
    ∃ c m, switching.Reachable c ∧ c.calls = [(("new", false), .done (.ok true))] ∧ m ∈ c.history ∧ m.happening = .changed ∧
      Site.answer (.statement (.saveDefinition (.ofDefinition Lone.renamed))) m.before = (.ok (), m.after) ∧
      c.site.registry.row "new" ≠ .ok (some (.ofDefinition { Lone.renamed with active := false })) := by
  have switched (s' : Site) (hs' : s'.database.definitions.isSome = true) :=
    reachable_switching (Lone.site true) s' false rfl hs' (Lone.row_site true) (Lone.ofText_row true)
  constructor
  · obtain ⟨c, reachable, calls, history, row⟩ := switched Lone.vacant rfl
    exact ⟨c, ⟨.changed, Lone.site true, Lone.vacant⟩, reachable, calls, by rw [history]; simp, rfl, rfl, rfl, row⟩
  · let s' := (Site.answer (.statement (.saveDefinition (.ofDefinition Lone.renamed))) (Lone.site true)).2
    obtain ⟨c, reachable, calls, history, row⟩ := switched s' rfl
    refine ⟨c, ⟨.changed, Lone.site true, s'⟩, reachable, calls, by rw [history]; simp, rfl, rfl, fun hrow => ?_⟩
    have hname : DefinitionRow.name _ = DefinitionRow.name _ :=
      congrArg DefinitionRow.name (Option.some.inj (Except.ok.inj (row.symm.trans hrow)))
    exact absurd hname (by decide)

end Lifecycle
