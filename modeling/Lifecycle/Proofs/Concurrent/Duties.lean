import Lifecycle.Proofs.Concurrent.Ownership

/-!
# Why executions start

The tasks of a pool have duties: an event to dispatch, types to scan, tokens to sweep. A task has always left to do what
its duty leaves after the replies that it was given, and so the nodes that it visits for an event are visited with the
statuses of the event, and those that it visits after a scan with what the scan was answered.
-/

namespace Lifecycle

open Engine
open Program (Leaves)
open Store (Database)
open Time (Instant)

/-- What a worker is to do. -/
inductive Duty where
  | dispatch (e : Event)
  | scan (types : List TargetType)
  | sweep (batch : Nat)

namespace Duty

def job : Duty → Job Unit
  | dispatch e => Engine.dispatch e >>= fun _ => .done ()
  | scan types => Engine.scan types >>= fun _ => .done ()
  | sweep batch => (Engine.sweep batch).run >>= fun _ => .done ()

theorem operation : ∀ d : Duty, Operation d.job
  | dispatch e => .dispatch e
  | scan types => .scan types
  | sweep batch => .sweep batch

/-- The time since when a status has lasted: that of its last change, if it is known. -/
def since (cutoff : Instant) : Except Target.Fault (Option Instant) → Instant
  | .ok (some t) => t
  | _ => cutoff

/-- The node is visited in an execution that the duty starts: on the target of the event, with the statuses of the event,
or on a target that was found, with the status that the workflow waits for and the time since when it has lasted. -/
inductive Starts (replies : List (Reply interface)) (v : Visit) : Duty → Prop where
  | dispatch (e : Event) (target : v.record.target = e.target)
      (trigger : v.context.trigger = .ofList [("from", .str e.source), ("to", .str e.destination)]) :
      Starts replies v (.dispatch e)
  | scan (types : List TargetType) {type : Option TargetType} {status : String} {threshold : Time.Span} {once : Bool}
      {cutoff : Instant} {ids : List String} {changed : Except Target.Fault (Option Instant)}
      (workflow : v.workflow.trigger = .stuckAtStatus type status threshold once)
      (found : ⟨.target v.record.target.type (.find status cutoff), .ok ids⟩ ∈ replies) (mem : v.record.target.id ∈ ids)
      (asked : ⟨.target v.record.target.type (.changedAt v.record.target.id), changed⟩ ∈ replies)
      (trigger : v.context.trigger = .ofList [("stuckStatus", .str status),
        ("stuckSince", .str (since cutoff changed).offsetText)]) : Starts replies v (.scan types)

theorem Starts.mono {xs ys : List (Reply interface)} {v : Visit} {d : Duty} (h : d.Starts xs v) (hsub : xs ⊆ ys) :
    d.Starts ys v := by
  cases h with
  | dispatch e target trigger => exact .dispatch e target trigger
  | scan types workflow found mem asked trigger => exact .scan types workflow (hsub found) mem (hsub asked) trigger

end Duty

/-! ### Visits after replies -/

/-- The state is what a job was answered so far, and `P` holds of it at every visit. -/
def visiting (P : List (Reply interface) → Visit → Prop) : Protocol interface where
  State := List (Reply interface)
  Possible _ _ := True
  Turn xs r x _ _ ys := (∀ v, r = .visit v → P xs v) ∧ ys = xs ++ [⟨r, x⟩]
  turn_bind _ h := h

/-- Whatever the job was answered before, if it was given the replies `known`, then `P` holds of its visits. -/
def Informed (P : List (Reply interface) → Visit → Prop) (known : List (Reply interface)) (α : Type) (p : Job α) :
    Prop :=
  ∀ xs, known ⊆ xs → p.Obeys (visiting P) xs fun _ ys => known ⊆ ys

section Informed

variable {P : List (Reply interface) → Visit → Prop} {known : List (Reply interface)}

/-- What is left of a job keeps to the protocol with the replies that it was given. -/
theorem Program.Obeys.leaves {α : Type} {p rest : Job α} {xs ys : List (Reply interface)}
    {post : α → List (Reply interface) → Prop} (h : p.Obeys (visiting P) xs post) (hl : Leaves p ys rest) :
    rest.Obeys (visiting P) (xs ++ ys) post := by
  induction hl generalizing xs with
  | here p => rwa [List.append_nil]
  | @ask r next x replies rest _ ih =>
    obtain ⟨zs, ⟨-, rfl⟩, hn⟩ := h x trivial
    have h' := ih hn
    rwa [List.append_assoc, List.singleton_append] at h'

theorem Informed.visit {α : Type} {p : Job α} (h : Informed P [] α p) {xs : List (Reply interface)} {v : Visit}
    {next : Except HandlerFault Outcome → Job α} (hl : Leaves p xs (.ask (.visit v) next)) : P xs v := by
  obtain ⟨ys, ⟨hv, -⟩, -⟩ := (h [] (List.nil_subset _)).leaves hl (.ok .proceed) trivial
  exact hv v rfl

theorem Informed.ask {α : Type} {r : Request} {next : r.Answer → Job α} (hr : ∀ v, r ≠ .visit v)
    (hn : ∀ x, Informed P (⟨r, x⟩ :: known) α (next x)) : Informed P known α (.ask r next) := by
  intro xs hxs x _
  refine ⟨xs ++ [⟨r, x⟩], ⟨fun v hv => absurd hv (hr v), rfl⟩, ?_⟩
  refine (hn x _ ?_).imp fun _ _ h => (List.cons_subset.1 h).2
  exact List.cons_subset.2 ⟨List.mem_append_right _ (List.mem_singleton_self _), fun y hy => List.mem_append_left _ (hxs hy)⟩

/-- A job that learns more may be given no more than what is known. -/
theorem Informed.bind {α β : Type} {p : Job α} {f : α → Job β} (hp : Informed P known α p)
    (hf : ∀ a, Informed P known β (f a)) : Informed P known β (p >>= f) :=
  fun xs hxs => (hp xs hxs).bind fun a ys hy => hf a ys hy

theorem informed_moves : Moves (Informed P known) where
  done a xs hxs := hxs
  bind := Informed.bind
  aside h := .ask (fun v hv => by subst hv; exact h) fun x xs hxs => hxs
  statement h := .ask (fun v hv => by cases hv) fun x xs hxs => hxs
  move id next failure _ := by
    refine .ask (r := .now) (fun v hv => by cases hv) fun now => ?_
    exact .ask (r := .statement _) (fun v hv => by cases hv) fun x xs hxs => hxs

theorem informed_suspend (executionId nodeId : String) (resumeAt : Instant) (snapshot : Json) :
    Informed P known _ (suspend executionId nodeId resumeAt snapshot).run := by
  refine .ask (r := .fresh) (fun v hv => by cases hv) fun id => ?_
  refine .ask (r := .now) (fun v hv => by cases hv) fun created => ?_
  refine .ask (r := .now) (fun v hv => by cases hv) fun moved => ?_
  refine .ask (r := .statement _) (fun v hv => by cases hv) fun x xs hxs => ?_
  cases x with
  | error f => exact hxs
  | ok moved => exact hxs

/-! ### Launches -/

variable {w : Workflow} {target : Target} {context : Context}

/-- An execution that is started is on the target. -/
theorem informed_start (workflowId : String) (type : TriggerType) (runOnce : Bool) {xs : List (Reply interface)}
    (hxs : known ⊆ xs) : (start workflowId target type runOnce).run.Obeys (visiting P) xs fun result ys =>
      known ⊆ ys ∧ ∀ r : Start, result = .ok r → r.started = true → r.record.target = target := by
  have more {xs : List (Reply interface)} (h : known ⊆ xs) (y : Reply interface) : known ⊆ xs ++ [y] :=
    fun z hz => List.mem_append_left _ (h hz)
  refine fun now _ => ⟨_, ⟨fun v hv => (by cases hv), rfl⟩, fun id _ => ⟨_, ⟨fun v hv => (by cases hv), rfl⟩, fun x _ =>
    ⟨_, ⟨fun v hv => (by cases hv), rfl⟩, ?_⟩⟩⟩
  have hys := more (more (more hxs ⟨.now, now⟩) ⟨.fresh, id⟩)
    ⟨.statement (.insertExecution (.ofRecord ⟨id, workflowId, target, type, .pending, runOnce, none, none, now, none, now⟩)), x⟩
  match x with
  | .error f =>
    refine ⟨hys, fun r hr => ?_⟩
    cases hr
  | .ok true =>
    refine ⟨hys, fun r hr _ => ?_⟩
    cases hr
    rfl
  | .ok false =>
    refine Program.Obeys.attempt (informed_moves.statement (q := .owner _) trivial _ hys) (fun row ys hy => ?_)
      fun e ys hy => ⟨hy, fun r hr => by cases hr⟩
    refine Program.Obeys.attempt (p := readRow row.record) (informed_moves.done _ _ hy) (fun record zs hz => ?_)
      fun e zs hz => ⟨hz, fun r hr => by cases hr⟩
    refine ⟨hz, fun r hr hs => ?_⟩
    cases hr
    cases hs

/-- A new execution visits nodes of the workflow, on the target and with the trigger data of the launch. -/
theorem informed_launch (type : TriggerType) (runOnce : Bool)
    (hP : ∀ xs v, known ⊆ xs → v.workflow = w → v.record.target = target → v.context.trigger = context.trigger → P xs v) :
    Informed P known _ (launch w target type runOnce context).run := by
  intro xs hxs
  refine Program.Obeys.attempt (informed_start w.id type runOnce hxs) (fun r ys h => ?_) fun e ys h => h.1
  obtain ⟨hys, htarget⟩ := h
  by_cases hr : r.started = true
  · rw [if_pos hr]
    have visits (v : Visit) (hw : v.workflow = w) (hrecord : v.record = r.record)
        (ht : v.context.trigger = context.trigger) : Informed P known _ (visit v) := by
      intro zs hzs x _
      refine ⟨_, ⟨fun u hu => ?_, rfl⟩, fun y hy => List.mem_append_left _ (hzs hy)⟩
      cases hu
      exact hP zs v hzs hw (hrecord ▸ htarget r rfl hr) ht
    have run : Informed P known _ (runNew w r.record context).run := by
      refine informed_moves.attempt (informed_moves.move r.record.id .running none (by simp)) fun moved => ?_
      cases moved with
      | false => exact informed_moves.done _
      | true => exact informed_moves.walkFrom_own informed_suspend w r.record w.graph.entry context visits
    exact informed_moves.attempt run (fun _ => informed_moves.done _) ys hys
  · rw [if_neg hr]
    exact hys

/-! ### Dispatches and scans -/

theorem informed_dispatchAll (e : Event) (report : DispatchTally) : ∀ ws : List Workflow,
    Informed (fun xs v => (Duty.dispatch e).Starts xs v) known _ (dispatchAll e report ws)
  | [] => informed_moves.done _
  | w :: rest => by
    refine Informed.bind (informed_launch _ _ fun xs v _ _ htarget htrigger => ?_) fun _ =>
      informed_dispatchAll e _ rest
    exact .dispatch e htarget htrigger

section Scan

variable {types : List TargetType} {type? : Option TargetType} {status : String} {threshold : Time.Span} {once : Bool}

/-- The entities that were found are asked when their status changed. -/
theorem informed_scanFound (hw : w.trigger = .stuckAtStatus type? status threshold once) (type : TargetType)
    (cutoff : Instant) (runOnce : Bool) {all : List String} : ∀ (ids : List String) {known : List (Reply interface)}
      (report : ScanTally), ids ⊆ all → ⟨.target type (.find status cutoff), .ok all⟩ ∈ known →
      Informed (fun xs v => (Duty.scan types).Starts xs v) known _ (scanFound w type status cutoff runOnce report ids)
  | [], _, _, _, _ => informed_moves.done _
  | id :: rest, known, report, hids, hfound => by
    obtain ⟨hid, hrest⟩ := List.cons_subset.1 hids
    refine .ask (r := .target type (.changedAt id)) (fun v hv => by cases hv) fun changed => ?_
    have go (since : Instant) (hs : Duty.since cutoff changed = since) :
        Informed (fun xs v => (Duty.scan types).Starts xs v) (⟨.target type (.changedAt id), changed⟩ :: known) _
          ((launch w ⟨type, id⟩ .stuckAtStatus runOnce (.ofStuck status since)).run >>= fun result =>
            scanFound w type status cutoff runOnce ({ report with candidates := report.candidates + 1 }.count result) rest) := by
      refine Informed.bind (informed_launch _ _ fun xs v hxs hworkflow htarget htrigger => ?_) fun result =>
        informed_scanFound hw type cutoff runOnce rest _ hrest (List.mem_cons_of_mem _ hfound)
      subst hs hworkflow
      obtain ⟨hasked, hxs⟩ := List.cons_subset.1 hxs
      have hfound : ⟨.target v.record.target.type (.find status cutoff), .ok all⟩ ∈ xs := by
        rw [htarget]
        exact hxs hfound
      have hid : v.record.target.id ∈ all := by
        rw [htarget]
        exact hid
      have hasked : ⟨.target v.record.target.type (.changedAt v.record.target.id), changed⟩ ∈ xs := by
        rw [htarget]
        exact hasked
      exact .scan types hw hfound hid hasked htrigger
    rcases changed with f | _ | t
    · exact go cutoff rfl
    · exact go cutoff rfl
    · exact go t rfl

theorem informed_scanTypes (hw : w.trigger = .stuckAtStatus type? status threshold once) (cutoff : Instant)
    (runOnce : Bool) : ∀ (scanned : List TargetType) {known : List (Reply interface)} (report : ScanTally),
      Informed (fun xs v => (Duty.scan types).Starts xs v) known _ (scanTypes w status cutoff runOnce report scanned)
  | [], _, _ => informed_moves.done _
  | type :: rest, known, report => by
    refine .ask (r := .target type (.find status cutoff)) (fun v hv => by cases hv) fun found => ?_
    match found with
    | .ok ids =>
      refine Informed.bind (p := scanFound w type status cutoff runOnce report ids) ?_ fun report =>
        informed_scanTypes hw cutoff runOnce rest report
      exact informed_scanFound hw type cutoff runOnce ids report (List.Subset.refl ids) List.mem_cons_self
    | .error _ => exact informed_scanTypes hw cutoff runOnce rest _

theorem informed_scanFor (scanned : List TargetType) (report : ScanTally) :
    Informed (fun xs v => (Duty.scan types).Starts xs v) known _ (scanFor scanned w report) := by
  unfold scanFor
  split
  · exact informed_moves.done _
  · rename_i hw
    refine Informed.bind (informed_moves.aside (r := .now) trivial) fun now => ?_
    split
    · exact informed_moves.done _
    · exact informed_scanTypes hw _ _ _ _

theorem informed_scanAll (scanned : List TargetType) (report : ScanTally) : ∀ ws : List Workflow,
    Informed (fun xs v => (Duty.scan types).Starts xs v) known _ (scanAll scanned report ws)
  | [] => informed_moves.done _
  | _ :: rest => Informed.bind (informed_scanFor scanned _) fun _ => informed_scanAll scanned _ rest

end Scan

end Informed

/-- Whatever a dispatch or a scan visits is in an execution that it starts. -/
theorem Duty.starts {d : Duty} (hd : ∀ batch, d ≠ .sweep batch) {xs : List (Reply interface)} {v : Visit}
    {next : Except HandlerFault Outcome → Job Unit} (h : Leaves d.job xs (.ask (.visit v) next)) : d.Starts xs v := by
  cases d with
  | dispatch e =>
    refine Informed.visit (P := fun xs v => (Duty.dispatch e).Starts xs v) ?_ h
    refine Informed.bind ?_ fun _ => informed_moves.done _
    exact Informed.bind (informed_moves.of_only (only_activeNow _)) fun ws => informed_dispatchAll e _ _
  | scan types =>
    refine Informed.visit (P := fun xs v => (Duty.scan types).Starts xs v) ?_ h
    refine Informed.bind ?_ fun _ => informed_moves.done _
    exact Informed.bind (informed_moves.of_only (only_activeNow _)) fun ws => informed_scanAll types _ ws
  | sweep batch => exact absurd rfl (hd batch)

/-- A sweep starts nothing. -/
theorem Duty.addsNone_sweep (batch : Nat) : (sweep batch).job.Only Request.AddsNone :=
  (addsNone_moves.sweep addsNone_walkFrom batch).bind fun _ => trivial

/-! ### Pools with duties -/

namespace Pool

/-- The pools in which the tasks have these duties, in the order in which they have begun. -/
inductive Serves : List Duty → Pool → Prop where
  | start (db : Database) (he : db.executions = some []) (ht : db.tokens = some []) : Serves [] ⟨db, [], []⟩
  | begin {duties : List Duty} {s : Pool} (h : Serves duties s) (d : Duty) :
      Serves (duties ++ [d]) { s with tasks := s.tasks ++ [d.job] }
  | step {duties : List Duty} {s s' : Pool} (h : Serves duties s) (hs : Step (fun _ => False) s s') : Serves duties s'

variable {duties : List Duty} {s : Pool}

theorem Serves.reachable (h : Serves duties s) : Reachable Operation s := by
  induction h with
  | start db he ht => exact .start db he ht
  | begin _ d ih => exact ih.step (.begin d.job d.operation)
  | step _ hs ih =>
    cases hs with
    | begin job hj => exact hj.elim
    | change db hdb => exact ih.step (.change db hdb)
    | ask hk hx => exact ih.step (.ask hk hx)

/-- All pools of operations are such pools. -/
theorem Reachable.exists_serves (h : Reachable Operation s) : ∃ duties, Serves duties s := by
  induction h with
  | start db he ht => exact ⟨[], .start db he ht⟩
  | step _ hs ih =>
    obtain ⟨duties, h⟩ := ih
    cases hs with
    | begin job hj =>
      cases hj with
      | dispatch e => exact ⟨_, h.begin (.dispatch e)⟩
      | scan types => exact ⟨_, h.begin (.scan types)⟩
      | sweep batch => exact ⟨_, h.begin (.sweep batch)⟩
    | change db hdb => exact ⟨duties, h.step (.change db hdb)⟩
    | ask hk hx => exact ⟨duties, h.step (.ask hk hx)⟩

/-- A task has left to do what is left of its duty after its replies. -/
theorem Serves.leaves (h : Serves duties s) : s.tasks.length = duties.length ∧
    (∀ k, duties.length ≤ k → repliesOf k s.history = []) ∧
    ∀ (k : Nat) (d : Duty) (job : Job Unit), duties[k]? = some d → s.tasks[k]? = some job →
      Leaves d.job (repliesOf k s.history) job := by
  induction h with
  | start db he ht => exact ⟨rfl, fun _ _ => rfl, fun k d job hd _ => by simp at hd⟩
  | @begin duties s _ d ih =>
    obtain ⟨hlen, hnone, hleaves⟩ := ih
    refine ⟨by simp [hlen], fun k hk => hnone k ?_, fun k d' job hd' hjob => ?_⟩
    · rw [List.length_append] at hk
      omega
    · rcases Nat.lt_or_ge k duties.length with hlt | hge
      · rw [List.getElem?_append_left hlt] at hd'
        rw [List.getElem?_append_left (by omega)] at hjob
        exact hleaves k d' job hd' hjob
      · rw [List.getElem?_append_right hge] at hd'
        rw [List.getElem?_append_right (by omega)] at hjob
        obtain rfl : d' = d := List.mem_singleton.1 (List.mem_of_getElem? hd')
        obtain rfl : job = d'.job := List.mem_singleton.1 (List.mem_of_getElem? hjob)
        show Leaves d'.job (repliesOf k s.history) d'.job
        rw [hnone k hge]
        exact .here _
  | @step duties s s' _ hs ih =>
    obtain ⟨hlen, hnone, hleaves⟩ := ih
    cases hs with
    | begin job hj => exact hj.elim
    | change db hdb => exact ⟨hlen, hnone, hleaves⟩
    | @ask k r next x after hk hx =>
      have hlt : k < s.tasks.length := (List.getElem?_eq_some_iff.1 hk).1
      refine ⟨by rw [answered, List.length_set, hlen], fun j hj => ?_, fun j d job hd hjob => ?_⟩
      · rw [answered, repliesOf_append, hnone j hj, repliesOf_other (by omega)]
        rfl
      · by_cases hjk : j = k
        · subst hjk
          rw [answered, List.getElem?_set_self hlt] at hjob
          cases hjob
          rw [answered, repliesOf_append, repliesOf_same]
          exact (hleaves j d _ hd hk).concat x
        · rw [answered, List.getElem?_set_ne (Ne.symm hjk)] at hjob
          rw [answered, repliesOf_append, repliesOf_other (Ne.symm hjk), List.append_nil]
          exact hleaves j d job hd hjob

/-- A reply was given to what was left of a duty. -/
theorem Serves.asked (h : Serves duties s) {pre post : List Entry} {k : Nat} {r : Request} {x : r.Answer}
    {before after : Database} (hs : s.history = pre ++ ⟨k, ⟨r, x⟩, before, after⟩ :: post) :
    ∃ d next, duties[k]? = some d ∧ Leaves d.job (repliesOf k pre) (.ask r next) := by
  induction h generalizing post with
  | start db he ht => exact absurd hs.symm (by simp)
  | begin _ d ih =>
    obtain ⟨d', next, hd', hl⟩ := ih hs
    refine ⟨d', next, ?_, hl⟩
    rwa [List.getElem?_append_left (List.getElem?_eq_some_iff.1 hd').1]
  | @step duties s s' h hstep ih =>
    cases hstep with
    | begin job hj => exact hj.elim
    | change db hdb => exact ih hs
    | @ask j r' next y after' hk hx =>
      rcases concat_eq_append hs with ⟨-, rfl, heq⟩ | ⟨post, -, hpre⟩
      · cases heq
        have hlen := h.leaves.1
        have hlt : k < s.tasks.length := (List.getElem?_eq_some_iff.1 hk).1
        exact ⟨_, next, List.getElem?_eq_getElem (hlen ▸ hlt),
          h.leaves.2.2 k _ _ (List.getElem?_eq_getElem (hlen ▸ hlt)) hk⟩
      · exact ih hpre

end Pool

end Lifecycle
