import Lifecycle.Proofs.Host.Lockstep
import Mathlib.Logic.Relator

/-!
# Events on different targets

An event reads and writes its own target alone, and the executions on it. So two events on different targets may be dispatched
in either order: the reports, the entities, the executions and tokens, the mails and the requests are the same, but for the
identifiers that are drawn.
-/

namespace Lifecycle

open Engine
open Host (Site Effects Tracks)
open Store (ExecutionRow TokenRow)

namespace Host.Site

variable {s : Site}

/-! ### One event -/

/-- What is added under identifiers that were given out leaves the tables ready for more. -/
theorem Extends.ready {target : Lifecycle.Target} {e : Effects} {s' : Site} (ready : s.Ready) (h : s.Extends target e s')
    (serial : s.serial ≤ s'.serial) (executions : ∀ r ∈ e.executions, ∃ n ≤ s'.serial, r.id = some (identifier n))
    (tokens : ∀ t ∈ e.tokens, ∃ n ≤ s'.serial, t.id = some (identifier n)) : s'.Ready := by
  have hrecords : s'.database.records = s.database.records ++ e.executions := congrArg (·.getD []) (h.records ready)
  have hwaiting : s'.database.waiting = s.database.waiting ++ e.tokens := congrArg (·.getD []) (h.waiting ready)
  have later {n m : Nat} (hm : m ≤ s'.serial) (hn : s'.serial < n) : some (identifier m) ≠ some (identifier n) := by
    intro heq
    have := identifier_injective (Option.some.inj heq)
    omega
  refine ⟨?_, ?_, ?_, fun r hr n hn => ?_, fun t ht n hn => ?_⟩
  · rw [h.definitions]
    exact ready.definitions
  · rw [hrecords]
    exact h.records ready
  · rw [hwaiting]
    exact h.waiting ready
  · rw [hrecords] at hr
    rcases List.mem_append.1 hr with hr | hr
    · exact ready.newExecution r hr n (serial.trans_lt hn)
    · obtain ⟨m, hm, hid⟩ := executions r hr
      rw [hid]
      exact later hm hn
  · rw [hwaiting] at ht
    rcases List.mem_append.1 ht with ht | ht
    · exact ready.newToken t ht n (serial.trans_lt hn)
    · obtain ⟨m, hm, hid⟩ := tokens t ht
      rw [hid]
      exact later hm hn

/-- An event adds executions on its target, under identifiers that are new, and leaves every other entity as it is. -/
theorem extends_dispatch (sound : s.Sound) (event : Event) :
    ∃ e : Effects, s.Extends event.target e (s.perform (dispatch event)).2 ∧ e.Of event.target ∧
      (s.perform (dispatch event)).2.Sound := by
  have hserial := serial_perform sound.calm (dispatch event)
  let T := Tracks.alone sound event.target ((s.perform (dispatch event)).2.serial - s.serial)
  have hbound : (s.perform (dispatch event)).2.serial ≤ T.left.serial + T.drawn := by
    show _ ≤ s.serial + ((s.perform (dispatch event)).2.serial - s.serial)
    omega
  obtain ⟨-, abreast⟩ := Tracks.lockstep_dispatch (T := T) rfl s s T.abreast_start hbound
  obtain ⟨e, e', he, -, renamed, of⟩ := abreast.effects
  have drawn {i j : String} (pair : T.Pair i j) : ∃ n ≤ (s.perform (dispatch event)).2.serial, i = identifier n := by
    obtain ⟨k, hk, rfl, -⟩ := pair
    replace hk : k < (s.perform (dispatch event)).2.serial - s.serial := hk
    exact ⟨s.serial + 1 + k, by omega, rfl⟩
  have executions : ∀ r ∈ e.executions, ∃ n ≤ (s.perform (dispatch event)).2.serial, r.id = some (identifier n) := by
    refine ((List.forall₂_and_left _ _).1 (renamed.executions.imp fun r r' h => ⟨?_, h⟩)).1
    obtain ⟨i, i', pair, hid, -⟩ := h
    obtain ⟨n, hn, rfl⟩ := drawn pair
    exact ⟨n, hn, hid⟩
  have tokens : ∀ t ∈ e.tokens, ∃ n ≤ (s.perform (dispatch event)).2.serial, t.id = some (identifier n) := by
    refine ((List.forall₂_and_left _ _).1 (renamed.tokens.imp fun t t' h => ⟨?_, h⟩)).1
    obtain ⟨i, i', -, pair, -, hid, -⟩ := h
    obtain ⟨n, hn, rfl⟩ := drawn pair
    exact ⟨n, hn, hid⟩
  exact ⟨e, he, of, he.ready sound.toReady hserial executions tokens, abreast.calm, abreast.tidy, abreast.separate⟩

/-! ### One event, after another one or not -/

section Two

variable {other : Lifecycle.Target} {f : Effects} {s' : Site}

/-- Executions on another target are none of the target's. -/
theorem Extends.filter (ready : s.Ready) (h : s.Extends other f s') (of : f.Of other) {target : Lifecycle.Target}
    (hne : target ≠ other) : s'.database.records.filter (·.key.about target) = s.database.records.filter (·.key.about target) := by
  have hrecords : s'.database.records = s.database.records ++ f.executions := congrArg (·.getD []) (h.records ready)
  have hnone : f.executions.filter (·.key.about target) = [] :=
    List.filter_eq_nil_iff.2 fun r hr habout => hne (Store.Key.about_unique (of.executions r hr) habout)
  rw [hrecords, List.filter_append, hnone, List.append_nil]

/-- The site side by side with what an event on another target makes of it. -/
def beside (sound : s.Sound) (sound' : s'.Sound) (h : s.Extends other f s') (of : f.Of other) {target : Lifecycle.Target}
    (hne : target ≠ other) (drawn : Nat) : Tracks :=
  ⟨target, s, s', drawn, sound, sound', h.outline, h.definitions, h.others target hne, h.filter sound.toReady of hne⟩

end Two

/-- After two events in either order every entity is the same, if each event makes the same of its target both times. -/
theorem held_crossed {t₁ t₂ : Lifecycle.Target} (apart : t₁ ≠ t₂) {s₁ s₂ s₁₂ s₂₁ : Site} {e₁ e₁' e₂ e₂' : Effects}
    (here₁ : s.Extends t₁ e₁ s₁) (here₂ : s₁.Extends t₂ e₂ s₁₂) (there₂ : s.Extends t₂ e₂' s₂) (there₁ : s₂.Extends t₁ e₁' s₂₁)
    (held₁ : s₂₁.held t₁ = s₁.held t₁) (held₂ : s₂.held t₂ = s₁₂.held t₂) (target : Lifecycle.Target) :
    s₂₁.held target = s₁₂.held target := by
  by_cases h₁ : target = t₁
  · rw [h₁, held₁, here₂.others t₁ apart]
  · by_cases h₂ : target = t₂
    · rw [h₂, there₁.others t₂ apart.symm, held₂]
    · calc s₂₁.held target = s₂.held target := there₁.others target h₁
        _ = s.held target := there₂.others target h₂
        _ = s₁.held target := (here₁.others target h₁).symm
        _ = s₁₂.held target := (here₂.others target h₂).symm

end Host.Site

/-- Identifiers of two tracks correspond one to one, if no two of them are the same. -/
theorem Host.Tracks.biUnique_pairs {A B : Tracks}
    (disjoint : ∀ i j i' j', A.Pair i j → B.Pair i' j' → i ≠ i' ∧ j ≠ j') :
    Relator.BiUnique fun i j => A.Pair i j ∨ B.Pair i j := by
  refine ⟨fun i i' j h h' => ?_, fun i j j' h h' => ?_⟩
  · rcases h with h | h <;> rcases h' with h' | h'
    · exact (h'.single i j h).2 rfl
    · exact absurd rfl (disjoint _ _ _ _ h h').2
    · exact absurd rfl (disjoint _ _ _ _ h' h).2
    · exact (h'.single i j h).2 rfl
  · rcases h with h | h <;> rcases h' with h' | h'
    · exact (h'.single i j h).1 rfl
    · exact absurd rfl (disjoint _ _ _ _ h h').1
    · exact absurd rfl (disjoint _ _ _ _ h' h).1
    · exact (h'.single i j h).1 rfl

/-! ### Two events -/

/-- Two events on different targets, in either order: both report the same, every entity is the same, and what is added is the
same for each target, but for identifiers that are new and correspond to each other one to one. -/
theorem events_commute {s : Site} (ready : s.Ready) (calm : s.Calm) (tidy : s.Tidy) (separate : s.Separate) {e₁ e₂ : Event}
    (apart : e₁.target ≠ e₂.target) :
    let first := s.perform (dispatch e₁)
    let thenSecond := first.2.perform (dispatch e₂)
    let second := s.perform (dispatch e₂)
    let thenFirst := second.2.perform (dispatch e₁)
    thenFirst.1 = first.1 ∧ thenSecond.1 = second.1 ∧
      (∀ target, thenFirst.2.held target = thenSecond.2.held target) ∧ thenFirst.2.outline = thenSecond.2.outline ∧
      thenFirst.2.database.definitions = thenSecond.2.database.definitions ∧
      ∃ (C : String → String → Prop) (added₁ added₁' added₂ added₂' : Effects),
        Relator.BiUnique C ∧ (∀ i j, C i j → ¬ s.Issued i ∧ ¬ s.Issued j) ∧
        s.Adds (added₁ ++ added₂) thenSecond.2 ∧ s.Adds (added₂' ++ added₁') thenFirst.2 ∧
        added₁.Renamed C added₁' ∧ added₁.Of e₁.target ∧ added₂.Renamed C added₂' ∧ added₂.Of e₂.target := by
  have sound : s.Sound := ⟨ready, calm, tidy, separate⟩
  obtain ⟨f₁, extends₁, of₁, sound₁⟩ := Site.extends_dispatch sound e₁
  obtain ⟨f₂, extends₂, of₂, sound₂⟩ := Site.extends_dispatch sound e₂
  intro first thenSecond second thenFirst
  have serial₁ : s.serial ≤ first.2.serial := Site.serial_perform calm _
  -- the first event, at the site as it was and behind the second one
  let A : Tracks := Site.beside sound sound₂ extends₂ of₂ apart (first.2.serial - s.serial)
  obtain ⟨report₁, abreastA⟩ : thenFirst.1 = first.1 ∧ A.Abreast first.2 thenFirst.2 := by
    have bound : first.2.serial ≤ s.serial + (first.2.serial - s.serial) := by omega
    obtain ⟨report, abreast⟩ := Tracks.lockstep_dispatch (T := A) rfl s second.2 A.abreast_start bound
    exact ⟨report.symm, abreast⟩
  -- the second event, behind the first one and at the site as it was
  let B : Tracks := (Site.beside sound sound₁ extends₁ of₁ apart.symm 0).swap (thenSecond.2.serial - first.2.serial)
  obtain ⟨report₂, abreastB⟩ : thenSecond.1 = second.1 ∧ B.Abreast thenSecond.2 second.2 := by
    have bound : thenSecond.2.serial ≤ first.2.serial + (thenSecond.2.serial - first.2.serial) := by omega
    exact Tracks.lockstep_dispatch (T := B) rfl first.2 s B.abreast_start bound
  obtain ⟨k, hk, hk'⟩ : ∃ k, thenSecond.2.serial = first.2.serial + k ∧ second.2.serial = s.serial + k := abreastB.serial
  -- what the two leave is known by now, and need not be worked out again
  clear_value thenFirst thenSecond
  obtain ⟨added₁, added₁', here₁, there₁, renamed₁, on₁⟩ := abreastA.effects
  obtain ⟨added₂, added₂', here₂, there₂, renamed₂, on₂⟩ := abreastB.effects
  have pairA {i j : String} (pair : A.Pair i j) : ∃ n m, i = Site.identifier n ∧ j = Site.identifier m ∧
      s.serial < n ∧ n ≤ first.2.serial ∧ second.2.serial < m := by
    obtain ⟨n, hn, rfl, rfl⟩ := pair
    replace hn : n < first.2.serial - s.serial := hn
    exact ⟨s.serial + 1 + n, second.2.serial + 1 + n, rfl, rfl, by omega, by omega, by omega⟩
  have pairB {i j : String} (pair : B.Pair i j) : ∃ n m, i = Site.identifier n ∧ j = Site.identifier m ∧
      first.2.serial < n ∧ s.serial < m ∧ m ≤ second.2.serial := by
    obtain ⟨n, hn, rfl, rfl⟩ := pair
    replace hn : n < thenSecond.2.serial - first.2.serial := hn
    exact ⟨first.2.serial + 1 + n, s.serial + 1 + n, rfl, rfl, by omega, by omega, by omega⟩
  have disjoint (i j i' j' : String) (a : A.Pair i j) (b : B.Pair i' j') : i ≠ i' ∧ j ≠ j' := by
    obtain ⟨n, m, rfl, rfl, -, hn, hm⟩ := pairA a
    obtain ⟨n', m', rfl, rfl, hn', -, hm'⟩ := pairB b
    constructor <;> intro heq <;> have := Site.identifier_injective heq <;> omega
  have new {n : Nat} (hn : s.serial < n) : ¬ s.Issued (Site.identifier n) := by
    rintro ⟨m, hm, heq⟩
    have := Site.identifier_injective heq
    omega
  refine ⟨report₁, report₂, Site.held_crossed apart here₁ here₂ there₂ there₁ abreastA.held abreastB.held, ?_, ?_,
    fun i j => A.Pair i j ∨ B.Pair i j, added₁, added₁', added₂, added₂', Tracks.biUnique_pairs disjoint, ?_,
    here₁.toAdds.trans here₂.toAdds, there₂.toAdds.trans there₁.toAdds, renamed₁.mono fun _ _ => .inl, on₁,
    renamed₂.mono fun _ _ => .inr, on₂⟩
  · exact (there₁.outline.trans there₂.outline).trans (here₂.outline.trans here₁.outline).symm
  · exact (there₁.definitions.trans there₂.definitions).trans (here₂.definitions.trans here₁.definitions).symm
  · rintro i j (h | h)
    · obtain ⟨n, m, rfl, rfl, hn, -, hm⟩ := pairA h
      exact ⟨new hn, new (by omega)⟩
    · obtain ⟨n, m, rfl, rfl, hn, hm, -⟩ := pairB h
      exact ⟨new (by omega), new hm⟩

namespace Lone

/-- A trigger for the targets of one type, and a node behind it that gives a tag. -/
def tagging (type : TargetType) (label : String) : Definition :=
  { definition label true with
    triggerConditions := [("targetType", .str type.name)]
    nodes := [⟨"t", .trigger, .null, none⟩, ⟨"g", .tagTarget, .obj [("value", .str label)], none⟩]
    connections := [⟨"t", "g", .next⟩] }

theorem falls_tagging : ∀ c ∈ [(⟨"t", "g", .next⟩ : Connection)],
    heightOf [("t", 1), ("g", 0)] c.target < heightOf [("t", 1), ("g", 0)] c.source :=
  List.forall_mem_singleton.2 (by decide)

def tagger (type : TargetType) (label : String) : Workflow where
  definition := tagging type label
  trigger := .statusChanged (some type) .any .any false
  graph := ⟨[⟨"t", .trigger⟩, ⟨"g", .tagTarget ⟨label⟩⟩], [⟨"t", "g", .next⟩], ⟨"t", .trigger⟩, [("t", 1), ("g", 0)],
    falls_tagging⟩

theorem storable_tagging (type : TargetType) (label : String) : (tagging type label).Storable := by
  have trigger : (Node.mk "t" .trigger .null none).toJson = .obj [("config", .null), ("id", .str "t"), ("type", .str "trigger")] :=
    Node.toJson_eq _
  have tag : (Node.mk "g" .tagTarget (.obj [("value", .str label)]) none).toJson =
      .obj [("config", .obj [("value", .str label)]), ("id", .str "g"), ("type", .str "tag_target")] := Node.toJson_eq _
  have edge : (Connection.mk "t" "g" .next).toJson = .obj [("from", .str "t"), ("to", .str "g"), ("type", .str "next")] :=
    Connection.toJson_eq _
  refine ⟨?_, ?_, by simp [tagging]⟩
  · rw [Definition.toJson_eq]
    refine ⟨Definition.ordered_members _, trivial, ⟨?_, trivial⟩, trivial, trivial, ⟨?_, ?_, trivial⟩,
      ⟨List.pairwise_singleton _ _, trivial, trivial⟩, trivial, trivial⟩
    · rw [edge]
      exact ⟨Json.Members.ordered_of_names ["from", "to", "type"] rfl (by decide), trivial, trivial, trivial, trivial⟩
    · rw [trigger]
      exact ⟨Json.Members.ordered_of_names ["config", "id", "type"] rfl (by decide), trivial, trivial, trivial, trivial⟩
    · rw [tag]
      exact ⟨Json.Members.ordered_of_names ["config", "id", "type"] rfl (by decide),
        ⟨List.pairwise_singleton _ _, trivial, trivial⟩, trivial, trivial, trivial⟩
  · rw [Definition.toJson_eq]
    simp [Definition.members, tagging, trigger, tag, edge, Json.depth, Json.depthItems, Json.depthMembers]

/-- A workflow for each type. -/
def tagged : Store.Definitions := [.ofDefinition (tagging .application "A"), .ofDefinition (tagging .contract "C")]

/-- These workflows, and tables with an entity of one identifier each. -/
def fair (tables : List String) (applications contracts : String) : Site where
  database :=
    { database true with
      executions := some []
      tokens := some []
      definitions := some tagged
      hostTables := tables.map fun name => ⟨name, false, [⟨"1", some "new", none, none, none, some "[]"⟩]⟩ }
  serial := 0
  worker := Host.Startup.worker .epoch applications contracts

variable {tables : List String} {applications contracts : String}

theorem ready_fair : (fair tables applications contracts).Ready where
  definitions := rfl
  executions := rfl
  tokens := rfl
  newExecution _ hr := absurd hr List.not_mem_nil
  newToken _ ht := absurd ht List.not_mem_nil

theorem calm_fair : (fair tables applications contracts).Calm := rfl

theorem tidy_fair (names : (tables.map Text.lowerAscii).Nodup) : (fair tables applications contracts).Tidy where
  names := (List.map_map (l := tables)).symm ▸ names
  rows t ht := by
    obtain ⟨name, -, rfl⟩ := List.mem_map.1 ht
    exact List.nodup_singleton _
  memory type m h := by cases type <;> cases h

/-- The workflow of a type. -/
def offered : TargetType → Workflow
  | .application => tagger .application "A"
  | .contract => tagger .contract "C"

/-- What a worker has cached that has read the definitions. -/
def cached : List (String × Workflow) := [("A", offered .application), ("C", offered .contract)]

theorem insertAll_tagged : Host.Worker.insertAll (Host.Registry.workflows tagged) = cached := by
  have compiled (type : TargetType) : Workflow.ofDefinition (offered type).definition = .ok (offered type) := by
    cases type <;> rfl
  have workflows : Host.Registry.workflows tagged = cached :=
    (Host.Registry.workflows_cons (storable_tagging _ _) (compiled .application) _).trans
      (congrArg _ (Host.Registry.workflows_cons (storable_tagging _ _) (compiled .contract) []))
  rw [workflows]
  rfl

/-- The event that the entity of a type gets. -/
def arrival (type : TargetType) : Event := ⟨⟨type, "1"⟩, "old", "new"⟩

theorem active_cached : activeAmong .statusChanged (cached.map (·.2)) = [offered .application, offered .contract] :=
  List.mergeSort_of_pairwise (by decide)

/-- Dispatching it, with the workflow at hand. -/
def dispatched (s : Site) (type : TargetType) : DispatchTally × Site :=
  (s.withCache cached).perform (dispatchAll (arrival type) { matched := 1 } [offered type])

theorem perform_arrival {s : Site} (h : s.database.definitions = some tagged) (type : TargetType) :
    s.perform (dispatch (arrival type)) = dispatched s type := by
  have hrefreshed : s.registry.refreshed = cached := (s.registry.refreshed_eq h).trans insertAll_tagged
  have hmatching : (activeAmong .statusChanged (s.registry.refreshed.map (·.2))).filter
      (fun w => w.trigger.admits type "old" "new") = [offered type] := by
    rw [hrefreshed, active_cached]
    cases type <;> rfl
  rw [s.perform_dispatch (arrival type) hmatching, hrefreshed]
  rfl

/-- The tags of the contract. -/
def contractTags (s : Site) : Option (List Json) := (s.held ⟨.contract, "1"⟩).bind (·.tags.toOption)

end Lone

/-- An application and a contract of one identifier, each with the workflow of its type. -/
theorem events_commute_at_fair :
    let s := Lone.fair ["applications", "contracts"] "applications" "contracts"
    let e₁ := Lone.arrival .application
    let e₂ := Lone.arrival .contract
    s.Ready ∧ s.Calm ∧ s.Tidy ∧ s.Separate ∧ e₁.target ≠ e₂.target ∧
      ((s.perform (dispatch e₂)).2.perform (dispatch e₁)).1 = ⟨1, 1, 0, 0⟩ ∧
      Lone.contractTags ((s.perform (dispatch e₂)).2.perform (dispatch e₁)).2 = some [.str "C"] := by
  intro s e₁ e₂
  have ready : s.Ready := Lone.ready_fair
  have tidy : s.Tidy := Lone.tidy_fair (by decide)
  have separate : s.Separate := by
    intro name name' h h'
    cases h
    cases h'
    decide
  have apart : e₁.target ≠ e₂.target := by decide
  have sound : s.Sound := ⟨ready, Lone.calm_fair, tidy, separate⟩
  obtain ⟨report, -, held, -⟩ := events_commute ready Lone.calm_fair tidy separate apart
  obtain ⟨_, extended, -⟩ := Site.extends_dispatch sound e₁
  have first : s.perform (dispatch e₁) = Lone.dispatched s .application := Lone.perform_arrival rfl .application
  have reported : (s.perform (dispatch e₁)).1 = ⟨1, 1, 0, 0⟩ := by
    rw [first]
    decide +kernel
  have tags : Lone.contractTags ((s.perform (dispatch e₁)).2.perform (dispatch e₂)).2 = some [.str "C"] := by
    rw [Lone.perform_arrival extended.definitions, first]
    decide +kernel
  refine ⟨ready, Lone.calm_fair, tidy, separate, apart, report.trans reported, ?_⟩
  rw [← tags]
  exact congrArg (fun h : Option Target.Holding => h.bind (·.tags.toOption)) (held e₂.target)

/-- Where one table keeps the entities of both types, the tags stand in the order of the events. -/
theorem events_meet_in_one_table :
    let s := Lone.fair ["things"] "things" "things"
    let e₁ := Lone.arrival .application
    let e₂ := Lone.arrival .contract
    s.Ready ∧ s.Calm ∧ s.Tidy ∧ e₁.target ≠ e₂.target ∧
      ((s.perform (dispatch e₂)).2.perform (dispatch e₁)).2.held e₂.target ≠
        ((s.perform (dispatch e₁)).2.perform (dispatch e₂)).2.held e₂.target := by
  intro s e₁ e₂
  refine ⟨Lone.ready_fair, Lone.calm_fair, Lone.tidy_fair (by decide), by decide, fun same => ?_⟩
  have first : s.perform (dispatch e₁) = Lone.dispatched s .application := Lone.perform_arrival rfl .application
  have second : s.perform (dispatch e₂) = Lone.dispatched s .contract := Lone.perform_arrival rfl .contract
  have definitions₁ : (Lone.dispatched s .application).2.database.definitions = some Lone.tagged := by decide +kernel
  have definitions₂ : (Lone.dispatched s .contract).2.database.definitions = some Lone.tagged := by decide +kernel
  rw [first, second, Lone.perform_arrival definitions₁, Lone.perform_arrival definitions₂] at same
  have tags : Lone.contractTags (Lone.dispatched (Lone.dispatched s .contract).2 .application).2 =
      Lone.contractTags (Lone.dispatched (Lone.dispatched s .application).2 .contract).2 :=
    congrArg (fun h : Option Target.Holding => h.bind (·.tags.toOption)) same
  exact absurd tags (by decide +kernel)

end Lifecycle
