import Lifecycle.Proofs.Host.Activation
import Lifecycle.Proofs.Host.Chronicle
import Lifecycle.Proofs.Host.Keeping

/-!
# Lists of active workflows

To list the active workflows, a call reads all definitions, puts their workflows into the cache in place of what was there,
and selects from the cache. Calls at one worker share the cache, so what one of them selects is what the last of them put
there. It is what storage held at a moment of the call if every call that puts anything into the cache in the meantime has
also read within it, and nothing else does. Otherwise the list may have a workflow in it that was switched off before the call
began.
-/

namespace Lifecycle

open Engine
open Host (Site Registry Worker Setting Chronicle Moment repliesTo)
open Store (Database Definitions)

/-! ### What storage offers -/

/-- The definitions can be read, each under an identifier of its own. -/
def Store.Database.Legible (db : Database) : Prop := ∃ ds, db.definitions = some ds ∧ (ds.map (·.id)).Nodup

/-- The workflow of a stored definition that is active, has no defect and is started by `type`. -/
def Store.Database.Offers (db : Database) (type : TriggerType) (w : Workflow) : Prop :=
  ∃ ds, db.definitions = some ds ∧ ∃ row ∈ ds, ∃ d, Definition.ofText row.definition = .ok d ∧
    Workflow.ofDefinition d = .ok w ∧ d.active = true ∧ d.triggerType = type

/-- What is not active is not offered. -/
theorem Store.Database.Inactive.ne_of_offers {db : Database} {id : String} (h : db.Inactive id) {type : TriggerType}
    {w : Workflow} (hw : db.Offers type w) : w.id ≠ id := by
  intro hid
  obtain ⟨ds, hds, hoff⟩ := h
  obtain ⟨ds', hds', row, hrow, d, hd, hcompiled, hactive, -⟩ := hw
  obtain rfl : ds = ds' := Option.some.inj (hds.symm.trans hds')
  obtain rfl := Workflow.definition_eq hcompiled
  rw [hoff row hrow w.definition hd hid] at hactive
  cases hactive

theorem Engine.mem_activeAmong {type : TriggerType} {ws : List Workflow} {w : Workflow} :
    w ∈ activeAmong type ws ↔ w ∈ ws ∧ w.active = true ∧ w.definition.triggerType = type := by
  unfold activeAmong
  rw [List.mem_mergeSort, List.mem_filter, Bool.and_eq_true, beq_iff_eq]

namespace Host

theorem Worker.ascending_insertAll (entries : List (String × Workflow)) : Worker.Ascending (Worker.insertAll entries) := by
  rw [Worker.insertAll_eq]
  exact ascends_putAll entries

theorem Worker.mem_insertAll {entries : List (String × Workflow)} (h : (entries.map (·.1)).Nodup) {e : String × Workflow} :
    e ∈ Worker.insertAll entries ↔ e ∈ entries := by
  rw [Worker.insertAll_eq]
  exact (perm_putAll h).mem_iff

theorem Registry.mem_workflows_iff {ds : Definitions} {e : String × Workflow} : e ∈ Registry.workflows ds ↔
    ∃ row ∈ ds, ∃ d, row.id = e.1 ∧ Definition.ofText row.definition = .ok d ∧ Workflow.ofDefinition d = .ok e.2 := by
  refine ⟨Registry.mem_workflows, fun ⟨row, hrow, d, hid, hd, hw⟩ => ?_⟩
  refine List.mem_filterMap.2 ⟨(row.id, d), List.mem_filterMap.2 ⟨row, hrow, ?_⟩, ?_⟩
  · rw [hd]
    rfl
  · dsimp only
    rw [hw, hid]
    rfl

theorem Registry.nodup_workflows {ds : Definitions} (h : (ds.map (·.id)).Nodup) :
    ((Registry.workflows ds).map (·.1)).Nodup := by
  have hid {row : Store.DefinitionRow} {e : String × Workflow}
      (he : (((Definition.ofText row.definition).toOption.map (row.id, ·)).bind fun p =>
        (Workflow.ofDefinition p.2).toOption.map (p.1, ·)) = some e) : e.1 = row.id := by
    obtain ⟨read, hread, hw⟩ := Option.bind_eq_some_iff.1 he
    obtain ⟨d, -, rfl⟩ := Option.map_eq_some_iff.1 hread
    obtain ⟨w, -, rfl⟩ := Option.map_eq_some_iff.1 hw
    rfl
  unfold Registry.workflows
  rw [List.filterMap_filterMap]
  refine List.pairwise_map.2 (List.pairwise_filterMap.2 ((List.pairwise_map.1 h).imp fun hne e he e' he' hsame => hne ?_))
  exact (hid he).symm.trans (hsame.trans (hid he'))

/-- What is selected from the workflows of all definitions is what storage offers. -/
theorem Registry.mem_activeAmong {db : Database} {ds : Definitions} (hds : db.definitions = some ds)
    (distinct : (ds.map (·.id)).Nodup) {type : TriggerType} {w : Workflow} :
    w ∈ activeAmong type ((Worker.insertAll (Registry.workflows ds)).map (·.2)) ↔ db.Offers type w := by
  rw [Engine.mem_activeAmong, List.mem_map]
  constructor
  · rintro ⟨⟨e, he, rfl⟩, hactive, htype⟩
    rw [Worker.mem_insertAll (Registry.nodup_workflows distinct)] at he
    obtain ⟨row, hrow, d, -, hd, hw⟩ := Registry.mem_workflows he
    obtain rfl := Workflow.definition_eq hw
    exact ⟨ds, hds, row, hrow, _, hd, hw, hactive, htype⟩
  · rintro ⟨ds', hds', row, hrow, d, hd, hw, hactive, htype⟩
    obtain rfl : ds = ds' := Option.some.inj (hds.symm.trans hds')
    obtain rfl := Workflow.definition_eq hw
    refine ⟨⟨(row.id, w), ?_, rfl⟩, hactive, htype⟩
    rw [Worker.mem_insertAll (Registry.nodup_workflows distinct), Registry.mem_workflows_iff]
    exact ⟨row, hrow, w.definition, rfl, hd, hw⟩

end Host

/-! ### What the call does -/

theorem Engine.activeNow_eq (type : TriggerType) : activeNow type = .ask (.statement .definitions) fun
    | .ok rows => .ask (.cacheOnly (Registry.workflows rows)) fun _ => activeCached type
    | .error _ => activeCached type := by
  show Program.ask _ _ = _
  congr 1
  funext x
  cases x <;> rfl

/-- A list is the selection from what is cached, after what was read has been put there. -/
theorem Engine.leaves_activeNow_done {type : TriggerType} {xs : List (Reply interface)} {ws : List Workflow}
    (h : (activeNow type).Leaves xs (.done ws)) :
    (∃ rows entries,
      xs = [⟨.statement .definitions, .ok rows⟩, ⟨.cacheOnly (Registry.workflows rows), ()⟩, ⟨.cachedAll, entries⟩] ∧
      ws = activeAmong type (entries.map (·.2))) ∨ ∃ f, ⟨.statement .definitions, .error f⟩ ∈ xs := by
  rw [activeNow_eq] at h
  obtain ⟨x, replies, rfl, hx⟩ := h.ask_done_inv
  cases x with
  | error f => exact .inr ⟨f, List.mem_cons_self⟩
  | ok rows =>
    obtain ⟨u, selection, rfl, hu⟩ := Program.Leaves.ask_done_inv hx
    obtain ⟨entries, rest, rfl, hend⟩ := Program.Leaves.ask_done_inv hu
    obtain ⟨rfl, rfl⟩ := hend.done_inv
    exact .inl ⟨rows, entries, rfl, rfl⟩

/-- The call reads, puts into the cache what it read, and selects. -/
theorem Engine.leaves_activeNow_ask {type : TriggerType} {xs : List (Reply interface)} {r : Request}
    {next : r.Answer → Job (List Workflow)} (h : (activeNow type).Leaves xs (.ask r next)) :
    r = .statement .definitions ∨ (∃ rows, xs = [⟨.statement .definitions, .ok rows⟩] ∧ r = .cacheOnly (Registry.workflows rows)) ∨
      r = .cachedAll := by
  rw [activeNow_eq] at h
  cases h with
  | here => exact .inl rfl
  | @ask _ _ x xs _ h =>
    cases x with
    | error f =>
      cases h with
      | here => exact .inr (.inr rfl)
      | ask h => cases h
    | ok rows =>
      cases h with
      | here => exact .inr (.inl ⟨rows, rfl, rfl⟩)
      | ask h =>
        cases h with
        | here => exact .inr (.inr rfl)
        | ask h => cases h

/-- All definitions are read once. -/
theorem Engine.leaves_activeNow_once {type : TriggerType} {xs : List (Reply interface)} {rest : Job (List Workflow)}
    (h : (activeNow type).Leaves xs rest) {x y : Request.Answer (.statement .definitions)}
    (hx : ⟨.statement .definitions, x⟩ ∈ xs) (hy : ⟨.statement .definitions, y⟩ ∈ xs) : x = y := by
  rw [activeNow_eq] at h
  cases h with
  | here => cases hx
  | @ask _ _ z xs _ h =>
    have later : ∀ reply ∈ xs, reply.request ≠ .statement .definitions := by
      refine h.only (?_ : Program.Only (P := interface) (fun r : Request => r ≠ .statement .definitions) _)
      cases z with
      | ok rows => exact ⟨nofun, fun _ => ⟨nofun, fun _ => trivial⟩⟩
      | error f => exact ⟨nofun, fun _ => trivial⟩
    have first {x : Request.Answer (.statement .definitions)}
        (hx : (⟨.statement .definitions, x⟩ : Reply interface) ∈ ⟨.statement .definitions, z⟩ :: xs) : x = z := by
      rcases List.mem_cons.1 hx with he | hmem
      · cases he
        rfl
      · exact absurd rfl (later _ hmem)
    exact (first hx).trans (first hy).symm

/-! ### Calls that overlap -/

namespace Host

/-- Calls that list active workflows, at a worker whose storage can be read at any time. In between, definitions may be
saved and deleted, and workflows be cached and removed from the cache. -/
def listing : Setting TriggerType (List Workflow) where
  job := activeNow
  Start s := s.database.Legible
  Change _ s := s.database.Legible

namespace Moment

/-- The call `k` reads all definitions. -/
def Reads (m : Moment) (k : Nat) : Prop := ∃ x, m.happening = .answered k ⟨.statement .definitions, x⟩

/-- The call `k` puts into the cache what it has read. -/
def Replaces (m : Moment) (k : Nat) : Prop := ∃ entries x, m.happening = .answered k ⟨.cacheOnly entries, x⟩

/-- The call `k` selects from the cache. -/
def Selects (m : Moment) (k : Nat) : Prop := ∃ entries, m.happening = .answered k ⟨.cachedAll, entries⟩

end Moment

/-- The moments in the middle are those from when call `k` begins until it selects. -/
def During (history : List Moment) (k : Nat) (mid : List Moment) : Prop :=
  ∃ pre begun selection post, history = pre ++ begun :: (mid ++ selection :: post) ∧ begun.happening = .begun k ∧
    selection.Selects k

/-- Once call `k` has put into the cache what it has read, nothing is put there but by calls that have read within its
time. -/
def LeftAlone (k : Nat) (mid : List Moment) : Prop :=
  ∀ upTo replacing since, mid = upTo ++ replacing :: since → replacing.Replaces k → ∀ m ∈ since,
    m.after.worker.cache = m.before.worker.cache ∨ ∃ j, m.Replaces j ∧ ∃ read ∈ mid, read.Reads j

namespace Setting

variable {c : Chronicle TriggerType (List Workflow)} {k : Nat}

/-- The definitions can be read at any time. -/
theorem Reachable.legible (h : listing.Reachable c) : c.site.database.Legible := by
  induction h with
  | start s hs => exact hs
  | @step c c' h hs ih =>
    cases hs with
    | begin i => exact ih
    | change s hc => exact hc
    | @answer k i r next x s hk hx =>
      obtain ⟨ds, hds, distinct⟩ := ih
      have hsame : s.database = c.site.database := by
        obtain rfl : s = (Site.answer r c.site).2 := by rw [hx]
        rcases leaves_activeNow_ask (h.leaves hk) with rfl | ⟨rows, -, rfl⟩ | rfl
        · exact congrArg Prod.snd (Store.Statement.execute_definitions hds)
        · rfl
        · rfl
      rw [hsame]
      exact ⟨ds, hds, distinct⟩

/-- What a call reads is what is stored. -/
theorem Reachable.read (h : listing.Reachable c) {m : Moment} (hm : m ∈ c.history)
    {x : Request.Answer (.statement .definitions)} (hx : m.happening = .answered k ⟨.statement .definitions, x⟩) :
    ∃ ds, x = .ok ds ∧ m.before.database.definitions = some ds ∧ (ds.map (·.id)).Nodup := by
  obtain ⟨pre, post, hm⟩ := List.append_of_mem hm
  obtain ⟨c₀, -, h₀, -, -, -, hbefore, -⟩ := h.cut hm
  obtain ⟨ds, hds, distinct⟩ := hbefore ▸ h₀.legible
  have hanswer : (Store.Statement.definitions.execute m.before.database).1 = x := congrArg Prod.fst (h.answered hm hx).1
  rw [Store.Statement.execute_definitions hds] at hanswer
  exact ⟨ds, hanswer.symm, hds, distinct⟩

/-- After a call has put into the cache what it has read, the workflows of that are cached. -/
theorem Reachable.replaced (h : listing.Reachable c) {m read : Moment} (hm : m ∈ c.history) (hr : m.Replaces k)
    (hread : read ∈ c.history) (hk : read.Reads k) :
    ∃ ds, read.before.database.definitions = some ds ∧ (ds.map (·.id)).Nodup ∧
      m.after.worker.cache = Worker.insertAll (Registry.workflows ds) := by
  obtain ⟨entries, u, hu⟩ := hr
  obtain ⟨x, hx⟩ := hk
  obtain ⟨ds, rfl, hds, distinct⟩ := h.read hread hx
  refine ⟨ds, hds, distinct, ?_⟩
  obtain ⟨pre, post, hsplit⟩ := List.append_of_mem hm
  obtain ⟨hanswer, i, next, hleft⟩ := h.answered hsplit hu
  -- what the call puts into the cache is what it has read before, and it reads only once
  rcases leaves_activeNow_ask hleft with hr | ⟨rows, hrows, hr⟩ | hr
  · cases hr
  · cases hr
    have hreplies : (⟨.statement .definitions, .ok rows⟩ : Reply interface) ∈ repliesTo k c.history := by
      rw [hsplit, repliesTo_append, hrows]
      exact List.mem_cons_self
    obtain ⟨i, rest, hall⟩ := h.leaves_of_mem hreplies
    cases leaves_activeNow_once hall hreplies (mem_repliesTo hread hx)
    obtain hafter : (Site.answer (.cacheOnly (Registry.workflows ds)) m.before).2 = m.after := congrArg Prod.snd hanswer
    rw [← hafter]
    rfl
  · cases hr

/-- From a moment on at which a call puts into the cache what it has read, the workflows cached are those of what was read
at one of some moments, if calls that have read at these moments are all that puts anything there. -/
theorem Reachable.cached (h : listing.Reachable c) {mid : List Moment} (hmid : ∀ m ∈ mid, m ∈ c.history)
    {pre since post : List Moment} {replacing last : Moment} (hm : c.history = pre ++ replacing :: (since ++ last :: post))
    (first : ∃ j, replacing.Replaces j ∧ ∃ read ∈ mid, read.Reads j)
    (others : ∀ m ∈ since, m.after.worker.cache = m.before.worker.cache ∨ ∃ j, m.Replaces j ∧ ∃ read ∈ mid, read.Reads j) :
    ∃ read ∈ mid, ∃ ds, read.before.database.definitions = some ds ∧ (ds.map (·.id)).Nodup ∧
      last.before.worker.cache = Worker.insertAll (Registry.workflows ds) := by
  have of_replaced {m : Moment} (hm : m ∈ c.history) (hj : ∃ j, m.Replaces j ∧ ∃ read ∈ mid, read.Reads j) :
      ∃ read ∈ mid, ∃ ds, read.before.database.definitions = some ds ∧ (ds.map (·.id)).Nodup ∧
        m.after.worker.cache = Worker.insertAll (Registry.workflows ds) := by
    obtain ⟨j, hr, read, hread, hj⟩ := hj
    exact ⟨read, hread, h.replaced hm hr (hmid read hread) hj⟩
  -- each moment leaves the cache alone or is again such a call's
  induction since using List.reverseRecOn generalizing last post with
  | nil =>
    rw [h.linked hm]
    exact of_replaced (by rw [hm]; simp) first
  | append_singleton since m ih =>
    have hm' : c.history = pre ++ replacing :: (since ++ m :: (last :: post)) := by
      rw [hm, List.append_assoc, List.singleton_append]
    have hlast : last.before = m.after := by
      have hsplit : c.history = (pre ++ replacing :: since) ++ m :: last :: post := by
        rw [hm', List.append_assoc, List.cons_append]
      exact h.linked hsplit
    rw [hlast]
    rcases others m (List.mem_append_right _ (List.mem_singleton.2 rfl)) with hkept | hreplaced
    · rw [hkept]
      exact ih hm' fun m hm => others m (List.mem_append_left _ hm)
    · exact of_replaced (by rw [hm']; simp) hreplaced

/-- A call that has returned a list was given three replies. -/
theorem Reachable.replies (h : listing.Reachable c) {type : TriggerType} {ws : List Workflow}
    (hk : c.calls[k]? = some (type, .done ws)) : ∃ rows entries, repliesTo k c.history =
      [⟨.statement .definitions, .ok rows⟩, ⟨.cacheOnly (Registry.workflows rows), ()⟩, ⟨.cachedAll, entries⟩] ∧
      ws = activeAmong type (entries.map (·.2)) := by
  rcases leaves_activeNow_done (h.leaves hk) with done | ⟨f, hf⟩
  · exact done
  · obtain ⟨m, hm, hreply⟩ := List.mem_filterMap.1 hf
    obtain ⟨ds, hds, -⟩ := h.read hm (Moment.happening_of_replyTo? hreply)
    cases hds

/-- Every call that has returned a list has a time from when it began until it selected. -/
theorem Reachable.during (h : listing.Reachable c) {type : TriggerType} {ws : List Workflow}
    (hk : c.calls[k]? = some (type, .done ws)) : ∃ mid, During c.history k mid := by
  obtain ⟨rows, entries, hreplies, -⟩ := h.replies hk
  obtain ⟨pre, begun, rest, hbegins, hbegun⟩ := h.begun (List.getElem?_eq_some_iff.1 hk).1
  have hrest : repliesTo k c.history = repliesTo k rest := by
    rw [hbegins, repliesTo_append, h.repliesTo_before hbegins hbegun, repliesTo_begun hbegun, List.nil_append]
  obtain ⟨mid, selection, post, rfl, hselects, -⟩ := moment_of_repliesTo [_, _] (hrest.symm.trans hreplies)
  exact ⟨mid, pre, begun, selection, post, hbegins, hbegun, entries, hselects⟩

/-- The selection is the last of three replies if the two before it are no selections. -/
theorem before_selection {p q : Reply Engine.interface} {xs ys : List (Reply Engine.interface)}
    {entries selected : Request.Answer .cachedAll} (hp : ∀ e, p ≠ ⟨.cachedAll, e⟩) (hq : ∀ e, q ≠ ⟨.cachedAll, e⟩)
    (h : xs ++ ⟨.cachedAll, entries⟩ :: ys = [p, q, ⟨.cachedAll, selected⟩]) : xs = [p, q] ∧ entries = selected := by
  match xs with
  | [] => exact absurd (List.cons.inj h).1.symm (hp entries)
  | [x] => exact absurd (List.cons.inj (List.cons.inj h).2).1.symm (hq entries)
  | [x, y] =>
    obtain ⟨hx, htail⟩ := List.cons.inj h
    obtain ⟨hy, hlast⟩ := List.cons.inj htail
    cases hlast
    exact ⟨by rw [hx, hy], rfl⟩
  | x :: y :: z :: xs =>
    have hlength := congrArg List.length h
    simp only [List.length_append, List.length_cons, List.length_nil] at hlength
    omega

/-- In its time the call reads and puts into the cache what it has read, and the list is what it selects at the end. -/
theorem Reachable.replies_during (h : listing.Reachable c) {type : TriggerType} {ws : List Workflow}
    (hk : c.calls[k]? = some (type, .done ws)) {mid : List Moment} (hmid : During c.history k mid) :
    ∃ pre selection post rows, c.history = pre ++ (mid ++ selection :: post) ∧
      repliesTo k mid = [⟨.statement .definitions, .ok rows⟩, ⟨.cacheOnly (Registry.workflows rows), ()⟩] ∧
      ws = activeAmong type (selection.before.worker.cache.map (·.2)) := by
  obtain ⟨pre, begun, selection, post, hhistory, hbegun, entries, hselects⟩ := hmid
  obtain ⟨rows, selected, hreplies, rfl⟩ := h.replies hk
  have hsplit : repliesTo k mid ++ ⟨.cachedAll, entries⟩ :: repliesTo k post =
      [⟨.statement .definitions, .ok rows⟩, ⟨.cacheOnly (Registry.workflows rows), ()⟩, ⟨.cachedAll, selected⟩] := by
    rw [← hreplies, hhistory, repliesTo_append, h.repliesTo_before hhistory hbegun, repliesTo_begun hbegun,
      repliesTo_append, repliesTo_given hselects, List.nil_append]
  obtain ⟨hbefore, rfl⟩ := before_selection (fun _ he => by cases he) (fun _ he => by cases he) hsplit
  have hlast : c.history = (pre ++ begun :: mid) ++ selection :: post := by
    rw [hhistory, List.append_assoc, List.cons_append]
  obtain ⟨hanswer, -⟩ := h.answered hlast hselects
  have hentries : selection.before.worker.cache = entries := congrArg Prod.fst hanswer
  exact ⟨pre ++ [begun], selection, post, rows, hhistory.trans (by simp), hbefore, by rw [hentries]⟩

end Setting

end Host

open Host Host.Setting in
/-- The list that a call returns is what storage offered at a moment of the call, if nothing disturbs it: then no workflow is in
it that was not active all the time. -/
theorem list_of_a_moment {c : Chronicle TriggerType (List Workflow)} (h : listing.Reachable c) {k : Nat} {type : TriggerType}
    {ws : List Workflow} (hk : c.calls[k]? = some (type, .done ws)) {mid : List Moment} (hmid : During c.history k mid)
    (undisturbed : LeftAlone k mid) :
    (∃ m ∈ mid, ∀ w, w ∈ ws ↔ m.before.database.Offers type w) ∧
      ∀ id, (∀ m ∈ mid, m.before.database.Inactive id) → ∀ w ∈ ws, w.id ≠ id := by
  obtain ⟨pre, selection, post, rows, hhistory, hreplies, rfl⟩ := h.replies_during hk hmid
  obtain ⟨upTo, replacing, since, hsplit, hreplaces, hupTo, -⟩ := moment_of_repliesTo [_] hreplies
  obtain ⟨before, own, between, rfl, hreads, -, -⟩ := moment_of_repliesTo [] hupTo
  have inTime (m : Moment) (hm : m ∈ mid) : m ∈ c.history := by
    rw [hhistory]
    exact List.mem_append_right _ (List.mem_append_left _ hm)
  have hown : own ∈ mid := by
    rw [hsplit]
    simp
  have hlast : c.history = (pre ++ (before ++ own :: between)) ++ replacing :: (since ++ selection :: post) := by
    rw [hhistory, hsplit]
    simp only [List.append_assoc, List.cons_append]
  obtain ⟨m, hm, ds, hds, distinct, hcache⟩ := h.cached inTime hlast ⟨k, ⟨_, _, hreplaces⟩, own, hown, _, hreads⟩
    (undisturbed _ replacing since hsplit ⟨_, _, hreplaces⟩)
  rw [hcache]
  have offered (w : Workflow) :
      w ∈ activeAmong type ((Worker.insertAll (Registry.workflows ds)).map (·.2)) ↔ m.before.database.Offers type w :=
    Registry.mem_activeAmong hds distinct
  exact ⟨⟨m, hm, offered⟩, fun id inactive w hw => (inactive m hm).ne_of_offers ((offered w).1 hw)⟩

/-! ### Calls that are disturbed -/

namespace Host

theorem Site.cache_withCache (s : Site) (c : List (String × Workflow)) : (s.withCache c).worker.cache = c := rfl

variable (s s' : Site) (ds : Definitions)

/-- A call reads `ds` at `s` and puts into the cache what it has read; then the site changes to `s'`. -/
def untilChanged : List Moment :=
  [⟨.answered 0 ⟨.statement .definitions, .ok ds⟩, s, s⟩,
    ⟨.answered 0 ⟨.cacheOnly (Registry.workflows ds), ()⟩, s, s.withCache (Worker.insertAll (Registry.workflows ds))⟩,
    ⟨.changed, s.withCache (Worker.insertAll (Registry.workflows ds)), s'⟩]

/-- The call selects when the site has changed. -/
def changing (type : TriggerType) : Chronicle TriggerType (List Workflow) where
  site := s'
  calls := [(type, .done (activeAmong type (s'.worker.cache.map (·.2))))]
  history := ⟨.begun 0, s, s⟩ :: (untilChanged s s' ds ++ [⟨.answered 0 ⟨.cachedAll, s'.worker.cache⟩, s', s'⟩])

variable {s s' ds}

theorem reachable_changing (hds : s.database.definitions = some ds) (distinct : (ds.map (·.id)).Nodup)
    (hs' : s'.database.Legible) (type : TriggerType) : listing.Reachable (changing s s' ds type) := by
  have start : listing.Reachable ⟨s, [], []⟩ := .start s ⟨ds, hds, distinct⟩
  have begun : listing.Reachable ⟨s, [(type, activeNow type)], [⟨.begun 0, s, s⟩]⟩ := start.step (.begin type)
  rw [activeNow_eq] at begun
  have read := begun.step (.answer (k := 0) rfl (s.answer_statement (Store.Statement.execute_definitions hds)))
  have replaced := read.step (.answer (k := 0) rfl rfl)
  have changed := replaced.step (.change s' hs')
  have selected := changed.step (.answer (k := 0) rfl rfl)
  exact selected

theorem during_changing (type : TriggerType) : During (changing s s' ds type).history 0 (untilChanged s s' ds) :=
  ⟨[], _, _, [], rfl, rfl, s'.worker.cache, rfl⟩

theorem database_changing (h : s'.database = s.database) (type : TriggerType) {m : Moment}
    (hm : m ∈ (changing s s' ds type).history) : m.before.database = s.database ∧ m.after.database = s.database := by
  simp only [changing, untilChanged, List.mem_cons, List.cons_append, List.nil_append, List.not_mem_nil, or_false] at hm
  rcases hm with rfl | rfl | rfl | rfl | rfl
  · exact ⟨rfl, rfl⟩
  · exact ⟨rfl, rfl⟩
  · exact ⟨rfl, rfl⟩
  · exact ⟨rfl, h⟩
  · exact ⟨h, h⟩

/-- What leaves the cache alone does not disturb the call. -/
theorem leftAlone_untilChanged (h : s'.worker.cache = Worker.insertAll (Registry.workflows ds)) :
    LeftAlone 0 (untilChanged s s' ds) := by
  intro upTo replacing since hsplit _ m hm
  have hmem : m ∈ untilChanged s s' ds := by
    rw [hsplit]
    exact List.mem_append_right _ (List.mem_cons_of_mem _ hm)
  rcases List.mem_cons.1 hmem with rfl | hmem
  · exact .inl rfl
  rcases List.mem_cons.1 hmem with rfl | hmem
  · exact .inr ⟨0, ⟨_, _, rfl⟩, _, List.mem_cons_self, _, rfl⟩
  · obtain rfl := List.mem_singleton.1 hmem
    exact .inl h

/-- Of two calls the first one reads before the site changes, and puts into the cache what it has read after the second one
has done so. -/
theorem reachable_overlapping (hds : s.database.definitions = some ds) (distinct : (ds.map (·.id)).Nodup)
    (hds' : s'.database.definitions = some ds') (distinct' : (ds'.map (·.id)).Nodup) (type : TriggerType) :
    ∃ c mid, listing.Reachable c ∧ During c.history 1 mid ∧ (∀ m ∈ mid, m.before.database = s'.database) ∧
      c.calls[1]? = some (type, .done (activeAmong type ((Worker.insertAll (Registry.workflows ds)).map (·.2)))) := by
  have start : listing.Reachable ⟨s, [], []⟩ := .start s ⟨ds, hds, distinct⟩
  have begun : listing.Reachable ⟨s, [(type, activeNow type)], [⟨.begun 0, s, s⟩]⟩ := start.step (.begin type)
  rw [activeNow_eq] at begun
  have read := begun.step (.answer (k := 0) rfl (s.answer_statement (Store.Statement.execute_definitions hds)))
  have changed := read.step (.change s' ⟨ds', hds', distinct'⟩)
  have both : listing.Reachable ⟨s', [(type, .ask (.cacheOnly (Registry.workflows ds)) fun _ => activeCached type),
      (type, activeNow type)], _⟩ := changed.step (.begin type)
  rw [activeNow_eq] at both
  have read' := both.step (.answer (k := 1) rfl (s'.answer_statement (Store.Statement.execute_definitions hds')))
  have replaced' := read'.step (.answer (k := 1) rfl rfl)
  have replaced := replaced'.step (.answer (k := 0) rfl rfl)
  have selected := replaced.step (.answer (k := 1) rfl rfl)
  let mid : List Moment := [⟨.answered 1 ⟨.statement .definitions, .ok ds'⟩, s', s'⟩,
    ⟨.answered 1 ⟨.cacheOnly (Registry.workflows ds'), ()⟩, s', s'.withCache (Worker.insertAll (Registry.workflows ds'))⟩,
    ⟨.answered 0 ⟨.cacheOnly (Registry.workflows ds), ()⟩, s'.withCache (Worker.insertAll (Registry.workflows ds')),
      s'.withCache (Worker.insertAll (Registry.workflows ds))⟩]
  refine ⟨_, mid, selected, ⟨[_, _, _], _, _, [], rfl, rfl, _, rfl⟩, ?_, rfl⟩
  exact List.forall_mem_cons.2 ⟨rfl, List.forall_mem_cons.2 ⟨rfl, List.forall_mem_singleton.2 rfl⟩⟩

end Host

namespace Lone

theorem legible (active : Bool) : (database active).Legible := ⟨_, rfl, List.nodup_singleton _⟩

theorem inactive : (database false).Inactive "new" := by
  refine ⟨_, rfl, List.forall_mem_singleton.2 fun d hd _ => ?_⟩
  have hread : Definition.ofText (Store.DefinitionRow.ofDefinition (definition "new" false)).definition = _ :=
    Definition.ofText_text (storable "new" false)
  rw [hread] at hd
  cases hd
  rfl

def rows (active : Bool) : Definitions := [.ofDefinition (definition "new" active)]

theorem definitions_site (active : Bool) : (site active).database.definitions = some (rows active) := rfl

theorem distinct_rows (active : Bool) : ((rows active).map (·.id)).Nodup := List.nodup_singleton _

/-- The site where a workflow is switched off after a call has put it into the cache. -/
def switchedOff : Site := (site false).withCache (Worker.insertAll (Registry.workflows (rows true)))

/-- The site where the workflow is put into the cache as it was before it was switched off. -/
def registeredLate : Site :=
  (site false).withCache (Worker.insertWorkflow "new" (workflow "new" true) (Worker.insertAll (Registry.workflows (rows false))))

end Lone

/-- A workflow is switched off between what puts it into the cache and what selects it. -/
theorem list_of_a_moment_of_lone :
    let c := Host.changing (Lone.site true) Lone.switchedOff (Lone.rows true) .statusChanged
    let mid := Host.untilChanged (Lone.site true) Lone.switchedOff (Lone.rows true)
    ∃ ws, Host.listing.Reachable c ∧ c.calls[0]? = some (.statusChanged, .done ws) ∧ Host.During c.history 0 mid ∧
      Host.LeftAlone 0 mid ∧ ∃ m ∈ mid, ∀ w, w ∈ ws ↔ m.before.database.Offers .statusChanged w := by
  have reachable : Host.listing.Reachable (Host.changing (Lone.site true) Lone.switchedOff (Lone.rows true) .statusChanged) :=
    Host.reachable_changing (Lone.definitions_site true) (Lone.distinct_rows true) (Lone.legible false) .statusChanged
  have leftAlone : Host.LeftAlone 0 (Host.untilChanged (Lone.site true) Lone.switchedOff (Lone.rows true)) :=
    Host.leftAlone_untilChanged (Site.cache_withCache _ _)
  exact ⟨_, reachable, rfl, Host.during_changing _, leftAlone,
    (list_of_a_moment reachable rfl (Host.during_changing _) leftAlone).1⟩

/-- A workflow is on the list that was switched off all the time: it was put into the cache by somebody who had saved it
before. -/
theorem stale_list :
    let c := Host.changing (Lone.site false) Lone.registeredLate (Lone.rows false) .statusChanged
    let mid := Host.untilChanged (Lone.site false) Lone.registeredLate (Lone.rows false)
    ∃ ws, Host.listing.Reachable c ∧ c.calls[0]? = some (.statusChanged, .done ws) ∧ Host.During c.history 0 mid ∧
      (∀ m ∈ c.history, m.before.database.Inactive "new" ∧ m.after.database.Inactive "new") ∧
      (∃ w ∈ ws, w.id = "new") ∧ ∀ m ∈ mid, ¬ ∀ w, w ∈ ws ↔ m.before.database.Offers .statusChanged w := by
  intro c mid
  have reachable : Host.listing.Reachable c :=
    Host.reachable_changing (Lone.definitions_site false) (Lone.distinct_rows false) (Lone.legible false) .statusChanged
  have listed : Lone.workflow "new" true ∈ activeAmong .statusChanged (Lone.registeredLate.worker.cache.map (·.2)) := by
    have cached : ("new", Lone.workflow "new" true) ∈ Lone.registeredLate.worker.cache := by
      rw [Lone.registeredLate, Site.cache_withCache]
      exact (Host.Worker.mem_insertWorkflow (Host.Worker.ascending_insertAll _)).2 (.inl rfl)
    exact mem_activeAmong.2 ⟨List.mem_map.2 ⟨_, cached, rfl⟩, rfl, rfl⟩
  have inactive (m : Moment) (hm : m ∈ c.history) : m.before.database.Inactive "new" ∧ m.after.database.Inactive "new" := by
    have same : Lone.registeredLate.database = (Lone.site false).database := rfl
    obtain ⟨hbefore, hafter⟩ := Host.database_changing same .statusChanged hm
    rw [hbefore, hafter]
    exact ⟨Lone.inactive, Lone.inactive⟩
  refine ⟨_, reachable, rfl, Host.during_changing _, inactive, ⟨_, listed, rfl⟩, fun m hm offered => ?_⟩
  have hinactive := (inactive m (List.mem_cons_of_mem _ (List.mem_append_left _ hm))).1
  exact hinactive.ne_of_offers ((offered _).1 listed) rfl

/-- A workflow that is switched off before the second of two calls begins is on its list, because the first one has read
it before. -/
theorem stale_list_of_overlap : ∃ (c : Chronicle TriggerType (List Workflow)) (ws : List Workflow) (mid : List Moment),
    Host.listing.Reachable c ∧ c.calls[1]? = some (.statusChanged, .done ws) ∧ Host.During c.history 1 mid ∧
      (∀ m ∈ mid, m.before.database.Inactive "new") ∧ ∃ w ∈ ws, w.id = "new" := by
  obtain ⟨c, mid, reachable, during, same, returned⟩ := Host.reachable_overlapping (Lone.definitions_site true)
    (Lone.distinct_rows true) (Lone.definitions_site false) (Lone.distinct_rows false) .statusChanged
  refine ⟨c, _, mid, reachable, returned, during, fun m hm => (same m hm).symm ▸ Lone.inactive, Lone.workflow "new" true, ?_, rfl⟩
  rw [Host.Registry.mem_activeAmong (Lone.definitions_site true) (Lone.distinct_rows true)]
  exact ⟨_, rfl, _, List.mem_cons_self, _, Definition.ofText_text (Lone.storable "new" true), rfl, rfl, rfl⟩

end Lifecycle
