import Lifecycle.Proofs.Host.Caches
import Lifecycle.Proofs.Host.Keeping

/-!
# Requests about definitions

A server that starts on an empty database has, after any requests about definitions, exactly the workflows of the stored
definitions cached. It creates what has a name, has no defect and is not there yet, and a request that does not succeed leaves
the server as it is. Each handler is described once by what it replies and by what registry it leaves.
-/

namespace Lifecycle

open Engine (Job)
open Host (Site Registry Worker Startup.start)
open Store (Definitions DefinitionRow)

/-! ### What is asked -/

/-- The route leads to definitions. -/
def Web.Route.Administers : Web.Route → Prop
  | .workflows | .workflow _ | .activation _ _ => True
  | _ => False

theorem Web.Route.Administers.decoded {route decoded : Web.Route} (h : route.Administers) (hd : route.decoded? = some decoded) :
    decoded.Administers := by
  cases route with
  | workflows =>
    cases hd
    trivial
  | workflow id =>
    obtain ⟨id, -, rfl⟩ := Option.map_eq_some_iff.1 hd
    trivial
  | activation id active =>
    obtain ⟨id, -, rfl⟩ := Option.map_eq_some_iff.1 hd
    trivial
  | _ => exact h.elim

/-- The request is about definitions; one that it brings has no numbers of the binary format. -/
structure Web.Request.Administers (r : Web.Request) : Prop where
  route : ∃ route, Web.Route.ofPath r.path = some route ∧ route.Administers
  whole : ∀ d, Web.content Web.submissionDecoder r = .ok d → d.toJson.whole = true

namespace Web

theorem content_ok {α : Type} {dec : Json.Decoder α} {r : Request} {a : α} (h : content dec r = .ok a) :
    dec.ofText r.body = .ok a := by
  unfold content at h
  split at h
  · cases h
  split at h
  · cases h
  split at h
  · rename_i b hb
    cases h
    exact hb
  · cases h

theorem submission_gives : submissionDecoder.Gives fun levels d =>
    ∃ inner, levels.Under inner ∧ Json.Fits inner d.toJson ∧ ∀ n ∈ d.nodes, n.position ≠ some .null :=
  (Json.Fields.gives_required "workflow" Definition.gives).record "WorkflowRequest" false

/-- What a request brings is kept by its text. -/
theorem Request.Administers.storable {r : Request} (hr : r.Administers) {d : Definition}
    (h : content submissionDecoder r = .ok d) : d.Storable := by
  obtain ⟨inner, hunder, hfits, placed⟩ := submission_gives.ofText (content_ok h)
  have hdepth := hunder.allow hfits.shallow 127 rfl
  exact ⟨hfits.durable (hr.whole d h), by omega, placed⟩

end Web

/-! ### What the handlers do -/

namespace Host.Site

variable (s : Site) {ds : Definitions}

theorem perform_create (d : Definition) : s.perform (Web.create d) = match Web.check d with
    | .error r => (r, s)
    | .ok () => match s.registry.find d.id with
      | .error _ => (Web.broken "Failed to look up workflow", s)
      | .ok (some _) => (Web.refuse 409 ("workflow '" ++ d.id ++ "' already exists"), s)
      | .ok none => s.perform (Web.keep d (Web.told 201 d.id ("Workflow '" ++ d.name ++ "' created successfully"))) := by
  unfold Web.create
  match Web.check d with
  | .error _ => rfl
  | .ok () =>
    refine (s.perform_bind _ _).trans ?_
    rw [perform_getDefinition]
    match s.registry.find d.id with
    | .error _ => rfl
    | .ok (some _) => rfl
    | .ok none => rfl

theorem perform_replace (id : String) (d : Definition) : s.perform (Web.replace id d) =
    match Web.check { d with id := id } with
    | .error r => (r, s)
    | .ok () => match s.registry.find id with
      | .error _ => (Web.broken "Failed to look up workflow", s)
      | .ok none => (Web.noWorkflow id, s)
      | .ok (some _) => s.perform
        (Web.keep { d with id := id } (Web.told 200 id ("Workflow '" ++ d.name ++ "' updated successfully"))) := by
  unfold Web.replace
  dsimp only
  match Web.check { d with id := id } with
  | .error _ => rfl
  | .ok () =>
    refine (s.perform_bind _ _).trans ?_
    rw [perform_getDefinition]
    match s.registry.find id with
    | .error _ => rfl
    | .ok none => rfl
    | .ok (some _) => rfl

theorem perform_list (h : s.database.definitions = some ds) : ∃ j, s.perform Web.list = (Web.ok j, s) := by
  obtain ⟨ls, hls⟩ := s.perform_listDefinitions h
  unfold Web.list
  rw [perform_bind, hls]
  exact ⟨_, rfl⟩

theorem perform_showDefinition (id : String) : s.perform (Web.showDefinition id) = match s.registry.find id with
    | .error _ => (Web.broken "Failed to get workflow", s)
    | .ok none => (Web.noWorkflow id, s)
    | .ok (some d) => (Web.ok d.toJson, s) := by
  unfold Web.showDefinition
  rw [perform_bind, perform_getDefinition]
  match s.registry.find id with
  | .error _ => rfl
  | .ok none => rfl
  | .ok (some _) => rfl

variable {ws : List Workflow}

theorem perform_keep (h : s.registry.Keeps ws) {w : Workflow} (hw : Workflow.ofDefinition w.definition = .ok w)
    (done : Web.Reply) : s.perform (Web.keep w.definition done) = (done, s.withRegistry
      ⟨some (Definitions.save (ws.map Workflow.row) w.row), Worker.insertWorkflow w.id w s.registry.cached⟩) := by
  unfold Web.keep
  rw [perform_bind, s.perform_saveDefinition h.stored]
  show Site.perform _ (Engine.cacheDefinition w.definition >>= _) = _
  rw [perform_bind, perform_cacheDefinition _ hw]
  rfl

theorem perform_delete (h : s.registry.Keeps ws) (id : String) : s.perform (Web.delete id) =
    if ws.any (·.id == id) then (Web.ok (.object [("message", .str "Workflow deleted successfully")]), s.withRegistry
      ⟨some (Definitions.delete (ws.map Workflow.row) id).2, s.registry.cached.filter (·.1 != id)⟩)
    else (Web.noWorkflow id, s) := by
  unfold Web.delete
  rw [perform_bind, s.perform_deleteDefinition h.stored]
  have hany : (Definitions.delete (ws.map Workflow.row) id).1 = ws.any (·.id == id) := List.any_map
  dsimp only
  rw [hany]
  split
  · rfl
  · rename_i hnone
    have hsame : (Definitions.delete (ws.map Workflow.row) id).2 = ws.map Workflow.row := by
      refine List.filter_eq_self.2 fun row hrow => ?_
      obtain ⟨w, hw, rfl⟩ := List.mem_map.1 hrow
      exact bne_iff_ne.2 fun he => hnone (List.any_eq_true.2 ⟨w, hw, beq_iff_eq.2 he⟩)
    show (Web.noWorkflow id, s.withRegistry { s.registry with stored := some (Definitions.delete (ws.map Workflow.row) id).2 }) = _
    rw [hsame, ← h.stored]
    rfl

/-- To switch a workflow is to keep it with another flag: it is read, saved, read again and cached. -/
theorem perform_switch (h : s.registry.Keeps ws) (id : String) (active : Bool) : s.perform (Web.switch id active) =
    match ws.find? (·.id == id) with
    | none => (Web.noWorkflow id, s)
    | some w =>
      let w' : Workflow := { w with definition := { w.definition with active := active } }
      (Web.told 200 id ("Workflow '" ++ id ++ "' " ++ if active then "activated" else "deactivated"), s.withRegistry
        ⟨some (Definitions.save (ws.map Workflow.row) w'.row), Worker.insertWorkflow w'.id w' s.registry.cached⟩) := by
  unfold Web.switch
  rw [perform_bind, s.perform_switchDefinition h.stored, h.find]
  cases hfound : ws.find? (·.id == id) with
  | none => rfl
  | some w =>
    obtain rfl : w.id = id := by simpa using List.find?_some hfound
    obtain ⟨hd, hw⟩ := h.proper w (List.mem_of_find?_eq_some hfound)
    let w' : Workflow := { w with definition := { w.definition with active := active } }
    have hd' : w'.definition.Storable := hd.congr rfl rfl rfl
    have hw' : Workflow.ofDefinition w'.definition = .ok w' := Workflow.ofDefinition_switched hw active
    let saved : Registry := { s.registry with stored := some (Definitions.save (ws.map Workflow.row) w'.row) }
    -- the second reading finds what has just been saved, which is not cached yet
    have hsaved : saved.find w.id = .ok (some w'.definition) := by
      have hrows : saved.stored = some ((w'.put ws).map Workflow.row) := congrArg some (Workflow.save_rows w' ws)
      rw [Registry.find_rows hrows fun v hv => ((h.put hd' hw').proper v hv).1]
      exact congrArg (fun v? => Except.ok (v?.map Workflow.definition)) (Workflow.find?_put w' ws)
    show (s.withRegistry saved).perform ((Engine.cacheStored w.id).run >>= _) = _
    rw [perform_bind, perform_cacheStored (s.withRegistry saved) hsaved hw']
    rfl

end Host.Site

/-! ### Orderly replies -/

/-- The definition has an identifier and a name, and no defect. -/
structure Definition.Acceptable (d : Definition) : Prop where
  id : Text.isBlank d.id = false
  name : Text.isBlank d.name = false
  workflow : ∃ w, Workflow.ofDefinition d = .ok w

/-- What can be accepted passes, and all else is refused. -/
theorem Web.check_cases (d : Definition) : (Web.check d = .ok () ∧ d.Acceptable) ∨
    ∃ r, Web.check d = .error r ∧ r.status ≠ 201 ∧ r.event = none ∧ ¬ d.Acceptable := by
  unfold Web.check
  split
  · rename_i hblank
    refine .inr ⟨_, rfl, by decide, rfl, fun h => ?_⟩
    rw [h.id, h.name] at hblank
    cases hblank
  · rename_i hnamed
    rw [Bool.not_eq_true, Bool.or_eq_false_iff] at hnamed
    split
    · rename_i w hw
      exact .inl ⟨rfl, hnamed.1, hnamed.2, w, hw⟩
    · rename_i e he
      refine .inr ⟨_, rfl, (by decide : (422 : ℕ) ≠ 201), rfl, fun h => ?_⟩
      obtain ⟨w, hw⟩ := h.workflow
      rw [he] at hw
      cases hw

theorem Web.content_error {α : Type} {dec : Json.Decoder α} {r : Web.Request} {reply : Web.Reply}
    (h : Web.content dec r = .error reply) : reply.status ≠ 201 ∧ reply.event = none := by
  unfold Web.content at h
  split at h
  · cases h
    exact ⟨by decide, rfl⟩
  split at h
  · cases h
    exact ⟨by decide, rfl⟩
  split at h
  · cases h
  · cases h
    refine ⟨?_, rfl⟩
    show (if _ then 422 else 400) ≠ 201
    split <;> decide

namespace Host.Site

variable {s : Site} {ws : List Workflow}

/-- Workflows are kept after the reply; one that is no success leaves the site as it is; and there is no event to dispatch. -/
structure Orderly (s : Site) (outcome : Web.Reply × Site) : Prop where
  keeps : ∃ ws, outcome.2.registry.Keeps ws
  refused : Http.succeeds outcome.1.status = false → outcome.2 = s
  quiet : outcome.1.event = none

theorem orderly_unchanged (h : s.registry.Keeps ws) {r : Web.Reply} (hr : r.event = none) : s.Orderly (r, s) :=
  ⟨⟨ws, h⟩, fun _ => rfl, hr⟩

theorem orderly_done {g : Registry} (h : g.Keeps ws) {r : Web.Reply} (hs : Http.succeeds r.status = true) (hr : r.event = none) :
    s.Orderly (r, s.withRegistry g) :=
  ⟨⟨ws, h⟩, fun hf => absurd (hs.symm.trans hf) (by decide), hr⟩

theorem orderly_keep (h : s.registry.Keeps ws) {d : Definition} (hd : d.Storable) {w : Workflow}
    (hw : Workflow.ofDefinition d = .ok w) {done : Web.Reply} (hs : Http.succeeds done.status = true) (hr : done.event = none) :
    s.Orderly (s.perform (Web.keep d done)) := by
  obtain rfl := Workflow.definition_eq hw
  rw [s.perform_keep h hw]
  exact orderly_done (h.put hd hw) hs hr

theorem orderly_create (h : s.registry.Keeps ws) {d : Definition} (hd : d.Storable) :
    s.Orderly (s.perform (Web.create d)) := by
  rw [perform_create, h.find]
  rcases Web.check_cases d with ⟨hc, ha⟩ | ⟨r, hc, -, hr, -⟩
  · obtain ⟨w, hw⟩ := ha.workflow
    rw [hc]
    cases ws.find? (·.id == d.id) with
    | none => exact orderly_keep h hd hw rfl rfl
    | some v => exact orderly_unchanged h rfl
  · rw [hc]
    exact orderly_unchanged h hr

theorem orderly_replace (h : s.registry.Keeps ws) (id : String) {d : Definition} (hd : d.Storable) :
    s.Orderly (s.perform (Web.replace id d)) := by
  rw [perform_replace, h.find]
  rcases Web.check_cases { d with id := id } with ⟨hc, ha⟩ | ⟨r, hc, -, hr, -⟩
  · obtain ⟨w, hw⟩ := ha.workflow
    rw [hc]
    cases ws.find? (·.id == id) with
    | none => exact orderly_unchanged h rfl
    | some v => exact orderly_keep (d := { d with id := id }) h (hd.congr rfl rfl rfl) hw rfl rfl
  · rw [hc]
    exact orderly_unchanged h hr

theorem orderly_delete (h : s.registry.Keeps ws) (id : String) : s.Orderly (s.perform (Web.delete id)) := by
  rw [s.perform_delete h]
  split
  · exact orderly_done (h.remove id) rfl rfl
  · exact orderly_unchanged h rfl

theorem orderly_switch (h : s.registry.Keeps ws) (id : String) (active : Bool) :
    s.Orderly (s.perform (Web.switch id active)) := by
  rw [s.perform_switch h]
  split
  · exact orderly_unchanged h rfl
  · rename_i w hfound
    obtain ⟨hd, hw⟩ := h.proper w (List.mem_of_find?_eq_some hfound)
    have switched := h.put (w := { w with definition := { w.definition with active := active } }) (hd.congr rfl rfl rfl)
      (Workflow.ofDefinition_switched hw active)
    exact orderly_done switched rfl rfl

theorem orderly_list (h : s.registry.Keeps ws) : s.Orderly (s.perform Web.list) := by
  obtain ⟨j, hj⟩ := s.perform_list h.stored
  rw [hj]
  exact orderly_unchanged h rfl

theorem orderly_showDefinition (h : s.registry.Keeps ws) (id : String) : s.Orderly (s.perform (Web.showDefinition id)) := by
  rw [perform_showDefinition, h.find]
  cases ws.find? (·.id == id) <;> exact orderly_unchanged h rfl

theorem orderly_withContent (h : s.registry.Keeps ws) {r : Web.Request} {f : Definition → Job Web.Reply}
    (hf : ∀ d, Web.content Web.submissionDecoder r = .ok d → s.Orderly (s.perform (f d))) :
    s.Orderly (s.perform (Web.withContent Web.submissionDecoder r f)) := by
  unfold Web.withContent
  split
  · rename_i reply hc
    exact orderly_unchanged h (Web.content_error hc).2
  · rename_i d hc
    exact hf d hc

theorem orderly_answer (h : s.registry.Keeps ws) (types : List TargetType) (batch : Nat) {r : Web.Request}
    (hr : r.Administers) {route : Web.Route} (ha : route.Administers) : s.Orderly (s.perform (Web.answer types batch r route)) := by
  unfold Web.answer
  cases route with
  | workflows =>
    dsimp only
    split
    · exact orderly_withContent h fun d hd => orderly_create h (hr.storable hd)
    · exact orderly_list h
  | workflow id =>
    dsimp only
    split
    · exact orderly_withContent h fun d hd => orderly_replace h id (hr.storable hd)
    split
    · exact orderly_delete h id
    · exact orderly_showDefinition h id
  | activation id active => exact orderly_switch h id active
  | _ => exact ha.elim

theorem orderly_serve (h : s.registry.Keeps ws) (types : List TargetType) (batch : Nat) {r : Web.Request}
    (hr : r.Administers) : s.Orderly (s.perform (Web.serve types batch r)) := by
  obtain ⟨route, hroute, ha⟩ := hr.route
  unfold Web.serve
  rw [hroute]
  dsimp only
  split
  · exact orderly_unchanged h rfl
  split
  · exact orderly_unchanged h rfl
  · rename_i decoded hd
    have answered := orderly_answer h types batch hr (ha.decoded hd)
    rw [perform_bind]
    refine ⟨answered.keeps, fun hs => answered.refused ?_, ?_⟩
    · revert hs
      show Http.succeeds (if r.method = "HEAD" then _ else _ : Web.Reply).status = false → _
      split <;> exact id
    · show (if r.method = "HEAD" then _ else _ : Web.Reply).event = none
      split <;> exact answered.quiet

/-! ### Creation -/

/-- What is created has a name, has no defect, and is not there yet. -/
theorem status_create (h : s.registry.Keeps ws) (d : Definition) :
    (s.perform (Web.create d)).1.status = 201 ↔ d.Acceptable ∧ ∀ w ∈ ws, w.id ≠ d.id := by
  have hnone : ws.find? (·.id == d.id) = none ↔ ∀ w ∈ ws, w.id ≠ d.id := by simp
  rw [perform_create, h.find, ← hnone]
  rcases Web.check_cases d with ⟨hc, ha⟩ | ⟨r, hc, hr, -, ha⟩
  · obtain ⟨w, hw⟩ := ha.workflow
    obtain rfl := Workflow.definition_eq hw
    rw [hc]
    cases ws.find? (·.id == w.definition.id) with
    | none =>
      show (s.perform (Web.keep _ _)).1.status = 201 ↔ _
      rw [s.perform_keep h hw]
      exact ⟨fun _ => ⟨ha, rfl⟩, fun _ => rfl⟩
    | some v => exact ⟨fun hs => absurd hs (by decide : (409 : ℕ) ≠ 201), fun hs => nomatch hs.2⟩
  · rw [hc]
    exact ⟨fun hs => absurd hs hr, fun hs => absurd hs.1 ha⟩

/-- A definition is created by the request that brings it. -/
theorem status_serve_create (h : s.registry.Keeps ws) (types : List TargetType) (batch : Nat) {r : Web.Request}
    (hpath : Web.Route.ofPath r.path = some .workflows) (hpost : r.method = "POST") :
    (s.perform (Web.serve types batch r)).1.status = 201 ↔
      ∃ d, Web.content Web.submissionDecoder r = .ok d ∧ d.Acceptable ∧ ∀ w ∈ ws, w.id ≠ d.id := by
  have hserve : Web.serve types batch r = Web.withContent Web.submissionDecoder r Web.create >>= fun reply => pure reply := by
    unfold Web.serve Web.answer
    rw [hpath, hpost]
    rfl
  rw [hserve, perform_bind]
  unfold Web.withContent
  cases hc : Web.content Web.submissionDecoder r with
  | error reply => exact ⟨fun hs => absurd hs (Web.content_error hc).1, fun ⟨d, hd, _⟩ => nomatch hd⟩
  | ok d =>
    refine (status_create h d).trans ⟨fun hd => ⟨d, rfl, hd⟩, ?_⟩
    rintro ⟨e, he, hd⟩
    cases he
    exact hd

end Host.Site

/-! ### A server and its requests -/

namespace Host.Site

variable {s : Site} {ws : List Workflow}

/-- The site after requests that are handled one after the other. -/
def served (types : List TargetType) (batch : Nat) (s : Site) (rs : List Web.Request) : Site :=
  rs.foldl (fun s r => (s.perform (Web.handled types batch r)).2) s

/-- No event is dispatched after a request about definitions. -/
theorem perform_handled (h : s.registry.Keeps ws) (types : List TargetType) (batch : Nat) {r : Web.Request}
    (hr : r.Administers) : s.perform (Web.handled types batch r) =
      (((s.perform (Web.serve types batch r)).1, none), (s.perform (Web.serve types batch r)).2) := by
  unfold Web.handled
  rw [perform_bind, (orderly_serve h types batch hr).quiet]
  rfl

/-- Workflows are kept after any number of requests about definitions. -/
theorem keeps_served (types : List TargetType) (batch : Nat) {rs : List Web.Request} (hrs : ∀ r ∈ rs, r.Administers)
    (h : s.registry.Keeps ws) : ∃ ws, (s.served types batch rs).registry.Keeps ws := by
  induction rs generalizing s ws with
  | nil => exact ⟨ws, h⟩
  | cons r rs ih =>
    obtain ⟨hr, hrs⟩ := List.forall_mem_cons.1 hrs
    obtain ⟨ws', h'⟩ := (orderly_serve h types batch hr).keeps
    have next : (s.perform (Web.handled types batch r)).2.registry.Keeps ws' := by
      rw [perform_handled h types batch hr]
      exact h'
    exact ih hrs next

end Host.Site

/-- After any requests about definitions, handled one after the other by a server that started on an empty database: the
definitions in storage have no defects and are mirrored in the cache; the next request that does not succeed changes
nothing; and the next one that brings a definition creates it if and only if it has an identifier and a name, has no defect
and is not there yet. -/
theorem storage_is_mirrored {serial : Nat} {clock : Time.Instant} {applications contracts : String} {s : Site}
    (hs : Host.Startup.start .empty serial clock applications contracts = .ok s) (types : List TargetType) (batch : Nat)
    {rs : List Web.Request} (hrs : ∀ r ∈ rs, r.Administers) :
    ∃ ds, (s.served types batch rs).registry.Mirrors ds ∧ ∀ r : Web.Request, r.Administers →
      let outcome := (s.served types batch rs).perform (Web.handled types batch r)
      (Http.succeeds outcome.1.1.status = false → outcome.2 = s.served types batch rs) ∧
      (Web.Route.ofPath r.path = some .workflows → r.method = "POST" → (outcome.1.1.status = 201 ↔
        ∃ d, Web.content Web.submissionDecoder r = .ok d ∧ d.Acceptable ∧ ∀ row ∈ ds, row.id ≠ d.id)) := by
  have started : s.registry.Keeps [] := by
    rw [Host.Startup.registry_start hs]
    exact Registry.keeps_nothing
  obtain ⟨ws, h⟩ := Site.keeps_served types batch hrs started
  refine ⟨ws.map Workflow.row, h.mirrors, fun r hr => ?_⟩
  dsimp only
  rw [Site.perform_handled h types batch hr]
  refine ⟨(Site.orderly_serve h types batch hr).refused, fun hpath hpost => ?_⟩
  rw [Site.status_serve_create h types batch hpath hpost]
  have hids (d : Definition) : (∀ w ∈ ws, w.id ≠ d.id) ↔ ∀ row ∈ ws.map Workflow.row, row.id ≠ d.id :=
    (List.forall_mem_map (f := Workflow.row) (P := fun row => row.id ≠ d.id)).symm
  simp only [hids]

namespace Lone

/-- A trigger alone, submitted. -/
def submission : Web.Request where
  method := "POST"
  path := "/api/workflows"
  contentType := some "application/json"
  body := "\x7b\"workflow\":\x7b\"id\":\"new\",\"name\":\"new\",\"triggerType\":\"status_changed\"," ++
    "\"nodes\":[\x7b\"id\":\"t\",\"type\":\"trigger\"\x7d]\x7d\x7d"

theorem content_submission : Web.content Web.submissionDecoder submission = .ok (definition "new" true) := by
  have h : (Web.content Web.submissionDecoder submission).toOption = some (definition "new" true) := by decide +kernel
  exact toOption_ok h

theorem administers_submission : submission.Administers where
  route := ⟨.workflows, by decide +kernel, trivial⟩
  whole d hd := by
    rw [content_submission] at hd
    cases hd
    decide +kernel

end Lone

/-- A server started on an empty database creates the first definition that is submitted, and mirrors it. -/
theorem storage_is_mirrored_of_submission : ∃ s : Site,
    Host.Startup.start .empty 0 Lone.worker.clock "applications" "contracts" = .ok s ∧ Lone.submission.Administers ∧
      (s.perform (Web.handled TargetType.all 100 Lone.submission)).1.1.status = 201 ∧
      ∃ ds, (s.served TargetType.all 100 [Lone.submission]).registry.Mirrors ds := by
  have started : ((Host.Startup.start .empty 0 Lone.worker.clock "applications" "contracts").toOption).isSome = true := by
    decide +kernel
  obtain ⟨s, hs⟩ := Option.isSome_iff_exists.1 started
  replace hs := toOption_ok hs
  have none : ∀ r ∈ ([] : List Web.Request), r.Administers := nofun
  obtain ⟨ds, before, next⟩ := storage_is_mirrored hs TargetType.all 100 none
  obtain ⟨after, mirrored, -⟩ :=
    storage_is_mirrored hs TargetType.all 100 (List.forall_mem_singleton.2 Lone.administers_submission)
  refine ⟨s, hs, Lone.administers_submission, ?_, after, mirrored⟩
  have hempty : ds = [] := by
    have hstored := before.stored
    rw [show (s.served TargetType.all 100 []).registry = ⟨some [], []⟩ from Host.Startup.registry_start hs] at hstored
    cases hstored
    rfl
  subst hempty
  have hpath : Web.Route.ofPath Lone.submission.path = some .workflows := by decide +kernel
  have accepted : (Lone.definition "new" true).Acceptable :=
    ⟨by decide +kernel, by decide +kernel, Lone.workflow "new" true, Lone.ofDefinition "new" true⟩
  have unserved : s.served TargetType.all 100 [] = s := rfl
  rw [unserved] at next
  obtain ⟨-, created⟩ := next Lone.submission Lone.administers_submission
  exact (created hpath rfl).2 ⟨Lone.definition "new" true, Lone.content_submission, accepted, by simp⟩

end Lifecycle
