import Lifecycle.Proofs.Host.Sweeping
import Lifecycle.Proofs.Store.Backlog
import Mathlib.Algebra.Order.Floor.Div

/-!
# Sweeping until nothing is due

The workflows with which tokens go on are accepted ones, whose delays are longer than nothing. So while the clock stands still
a sweep adds nothing to the backlog: it takes from it what it finds, the first tokens up to its batch. After as many sweeps as
the backlog has batches nothing is left.
-/

namespace Lifecycle

open Engine
open Host (Site Registry Worker)
open Store (Database TokenRow Tokens)
open Time (Instant milliNanos roundedUp le_roundedUp)

/-- The workflow was made of a definition without a defect. -/
def Workflow.Accepted (w : Workflow) : Prop := ∃ definition, Workflow.ofDefinition definition = .ok w

/-! ### Accepted workflows -/

namespace Host.Registry

/-- Only accepted workflows are cached. -/
def Accepted (g : Registry) : Prop := ∀ e ∈ g.cached, e.2.Accepted

variable {g : Registry}

theorem Accepted.current (h : g.Accepted) (id : String) :
    (∀ w, (g.current id).1 = some w → w.Accepted) ∧ ∀ e ∈ (g.current id).2, e.2.Accepted := by
  have cached : (∀ w, g.cached.lookup id = some w → w.Accepted) ∧ ∀ e ∈ g.cached, e.2.Accepted :=
    ⟨fun w hw => h _ (mem_of_lookup hw), h⟩
  unfold Registry.current
  split
  · split
    · rename_i d _ _ w hw
      refine ⟨fun w' hw' => ?_, fun e he => ?_⟩
      · cases hw'
        exact ⟨d, hw⟩
      · rcases Worker.mem_of_mem_insertWorkflow he with rfl | he
        · exact ⟨d, hw⟩
        · exact h e he
    · exact cached
  · exact ⟨fun _ hw => (by cases hw), fun e he => h e (List.mem_filter.1 he).1⟩
  · exact cached

end Host.Registry

namespace Host.Site

variable {s : Site} {t : Token} {record : Record} {w : Workflow} {step : Step} {context : Context}

/-- A workflow with which a token goes on is accepted, and has the node. -/
theorem accepted_of_resumption (h : s.registry.Accepted)
    (hr : (s.perform (resumption record t)).1 = .ok (w, step, context)) : w.Accepted ∧ step ∈ w.graph.steps := by
  rcases s.resumption_cases record t with ⟨e, -, he⟩ | ⟨w', step', context', -, hw, hn, hok⟩
  · cases hr.symm.trans he
  · cases hr.symm.trans hok
    rw [perform_currentWorkflow] at hw
    exact ⟨(h.current _).1 w hw, List.mem_of_find?_eq_some hn⟩

theorem accepted_resume (h : s.registry.Accepted) (t : Token) : (s.perform (resume t).run).2.registry.Accepted := by
  by_cases hfound : ∃ record, (s.perform (getRecord t.executionId).run).1 = .ok (some record) ∧ record.status = .suspended
  · obtain ⟨record, hfound, hs⟩ := hfound
    rw [(perform_resume_found hfound hs).1, registry_of_only _ ((concerns_goOn record t _).imp fun _ => Request.Concerns.apart)]
    rcases s.perform_resumption_snd record t with hsite | hsite
    · rw [hsite]
      exact h
    · rw [hsite]
      exact (h.current record.workflowId).2
  · rw [(perform_resume_idle fun record hf hs => hfound ⟨record, hf, hs⟩).1]
    exact h

/-! ### New tokens are not due -/

/-- The clock does not find the token due. -/
def Undue (clock : Instant) (row : TokenRow) : Prop := row.resumeAt.le (.int clock.floorMillis) = false

end Host.Site

/-- A delay that begins now is not over now, even if it ends with the calendar. -/
theorem Delay.Proper.undue {d : Delay} (h : d.Proper) (clock : Instant) {t : Token}
    (ht : t.resumeAt = Handling.delayEnd d clock) : Site.Undue clock (.ofToken t) := by
  refine Bool.eq_false_iff.2 fun hdue => ?_
  rw [TokenRow.due_ofToken_iff, ht, Handling.nanos_delayEnd h, Instant.roundedUp_min_le_iff] at hdue
  have hover : d.over clock ≤ clock.nanos := le_trans (le_roundedUp _) hdue
  have := h.nanos_pos
  unfold Delay.over at hover
  omega

namespace Host.Site

variable {w : Workflow}

/-- A walk through an accepted workflow writes no token that is due. -/
theorem gains_walkFrom (hw : w.Accepted) (record : Record) {step : Step} (hstep : step ∈ w.graph.steps) (context : Context)
    (s : Site) : s.Gains (Undue s.worker.clock) (s.perform (walkFrom w record step context).run).2 := by
  induction step using w.graph.induction_down generalizing context s with
  | h step ih =>
    let v : Visit := ⟨w, record, context.enter step.id s.worker.clock, step⟩
    have hrun : s.perform (walkFrom w record step context).run =
        (s.visit v).2.perform (walkOn w record step v.context (s.visit v).1).run := by
      rw [walkFrom_eq]
      rfl
    have hvisit : s.Gains (Undue s.worker.clock) (s.visit v).2 := .of_tokens (s.rests_visit v).tokens (s.rests_visit v).clock
    rw [hrun]
    refine hvisit.trans ?_
    match ho : (s.visit v).1 with
    | .error f => exact gains_of_only (only_failAt record _ _ trivial fun _ => trivial) _
    | .ok outcome =>
      unfold walkOn
      dsimp only
      split
      · exact gains_of_only (only_finish record trivial fun _ => trivial) _
      · -- only delays suspend, and the end of a delay is not due yet
        rename_i next deadline hnext
        obtain ⟨d, hd⟩ := Kind.delay_of_allows (visit_allowed ho)
        rw [s.visit_delay hd] at ho
        cases ho
        have proper : d.Proper := hw.elim fun definition h => Workflow.proper_of_mem h hstep hd
        exact gains_of_only (P := Undue s.worker.clock) (only_suspendAt record step next _ _ trivial trivial
          (fun _ _ _ => proper.undue s.worker.clock rfl) fun _ _ => trivial) _
      · rename_i next _ hnext
        rw [← hvisit.clock]
        exact ih _ next hnext (List.mem_of_find?_eq_some (Graph.node?_of_successor? hnext)) _ _

/-! ### Tokens that are taken -/

/-- The tokens that the clock finds due. -/
def backlog (s : Site) : Tokens := s.database.waiting.backlog s.worker.clock.floorMillis

/-- Every token has its own identifier and can be read once it is due, and only accepted workflows are cached. -/
structure Sweepable (s : Site) : Prop where
  table : s.database.tokens.isSome = true
  distinct : s.database.waiting.Distinct
  readable : ∀ row ∈ s.backlog, ∃ t, row.token = .ok t
  accepted : s.registry.Accepted

/-- The tokens of the rows have been taken, and none that is due has been written. -/
structure Takes (s : Site) (rows : Tokens) (s' : Site) : Prop where
  clock : s'.worker.clock = s.worker.clock
  waiting : ∃ added, s'.database.waiting = s.database.waiting.lacking rows ++ added ∧
    ∀ row ∈ added, Undue s.worker.clock row

variable {s s' s'' : Site} {rows rows' : Tokens}

theorem Takes.refl (s : Site) : s.Takes [] s :=
  ⟨rfl, [], by rw [Tokens.lacking_nil, List.append_nil], by simp⟩

theorem Takes.trans (h : s.Takes rows s') (g : s'.Takes rows' s'') : s.Takes (rows ++ rows') s'' := by
  obtain ⟨added, hw, hu⟩ := h.waiting
  obtain ⟨added', hw', hu'⟩ := g.waiting
  refine ⟨g.clock.trans h.clock, added.lacking rows' ++ added', ?_, ?_⟩
  · rw [hw', hw, Tokens.lacking_append, Tokens.lacking_lacking, List.append_assoc]
  · exact List.forall_mem_append.2 ⟨fun row hrow => hu row (List.mem_filter.1 hrow).1, h.clock ▸ hu'⟩

/-- What is due then is what was due but for what has been taken. -/
theorem Takes.backlog (h : s.Takes rows s') : s'.backlog = s.backlog.lacking rows := by
  obtain ⟨added, hw, hu⟩ := h.waiting
  have hnone : Tokens.backlog added s.worker.clock.floorMillis = [] :=
    List.filter_eq_nil_iff.2 fun row hrow => by rw [hu row hrow]; simp
  unfold Site.backlog
  rw [hw, h.clock, Tokens.backlog_append, hnone, List.append_nil, Tokens.backlog_lacking]

theorem Sweepable.taken (h : s.Sweepable) (taken : s.Takes rows s') (table : s'.database.tokens.isSome = true)
    (distinct : s'.database.waiting.Distinct) (accepted : s'.registry.Accepted) : s'.Sweepable where
  table := table
  distinct := distinct
  readable row hrow := h.readable row (List.mem_filter.1 (taken.backlog ▸ hrow)).1
  accepted := accepted

theorem waiting_without {row : TokenRow} {id : String} (hid : row.id = some id) (s : Site) :
    (s.without id).database.waiting = s.database.waiting.lacking [row] := by
  have hlacking (ts : Tokens) : ts.filter (·.id != some id) = ts.lacking [row] := by
    refine List.filter_congr fun r _ => ?_
    rw [List.any_cons, List.any_nil, Bool.or_false, hid, Bool.beq_comm]
    rfl
  unfold Database.waiting without
  cases s.database.tokens with
  | none => rfl
  | some ts => exact hlacking ts

/-- A token that is claimed is taken. -/
theorem sweepable_without (h : s.Sweepable) {row : TokenRow} {id : String} (hid : row.id = some id) :
    s.Takes [row] (s.without id) ∧ (s.without id).Sweepable := by
  have hwaiting := waiting_without hid s
  have takes : s.Takes [row] (s.without id) := ⟨rfl, [], hwaiting.trans (List.append_nil _).symm, by simp⟩
  refine ⟨takes, h.taken takes ?_ ?_ h.accepted⟩
  · exact (Option.isSome_map ..).trans h.table
  · rw [hwaiting]
    exact h.distinct.sublist List.filter_sublist

/-- A resumption writes no token that is due. -/
theorem sweepable_resume (h : s.Sweepable) (t : Token) :
    s.Takes [] (s.perform (resume t).run).2 ∧ (s.perform (resume t).run).2.Sweepable := by
  have gains : s.Gains (Undue s.worker.clock) (s.perform (resume t).run).2 := by
    refine gains_resume s t fun record w step context s' hfound hclock => ?_
    obtain ⟨hw, hstep⟩ := accepted_of_resumption h.accepted hfound
    exact hclock ▸ gains_walkFrom hw record hstep context s'
  have takes : s.Takes [] (s.perform (resume t).run).2 := by
    refine ⟨gains.clock, ?_⟩
    rw [Tokens.lacking_nil]
    exact gains.waiting
  exact ⟨takes, h.taken takes (gains.table h.table) (gains.distinct h.distinct) (accepted_resume h.accepted t)⟩

/-- A token that is there is claimed and resumed, and no token that is due is written. -/
theorem sweepable_pickUp (h : s.Sweepable) {row : TokenRow} (hrow : row ∈ s.database.waiting) {t : Token}
    (ht : row.token = .ok t) : (∃ result, (s.perform (pickUp t)).1 = .resumed result) ∧
      s.Takes [row] (s.perform (pickUp t)).2 ∧ (s.perform (pickUp t)).2.Sweepable := by
  obtain ⟨ts, hts⟩ := Option.isSome_iff_exists.1 h.table
  have hid : row.id = some t.id := (TokenRow.token_ok ht).id
  have there : ts.any (·.id == some t.id) = true := by
    rw [Database.waiting, hts] at hrow
    exact List.any_eq_true.2 ⟨row, hrow, beq_iff_eq.2 hid⟩
  rw [perform_pickUp hts, if_pos there]
  obtain ⟨claimed, here⟩ := sweepable_without h hid
  obtain ⟨resumed, after⟩ := sweepable_resume here t
  exact ⟨⟨_, rfl⟩, claimed.trans resumed, after⟩

/-! ### Sweeps -/

/-- The tokens among these that are handed to resumptions when they are picked up one after the other. -/
def handed (s : Site) : List Token → List Token
  | [] => []
  | t :: ts => match s.perform (pickUp t) with
    | (.resumed _, s') => t :: s'.handed ts
    | (_, s') => s'.handed ts

/-- Rows are picked up as they are read: each token is handed to a resumption. -/
theorem sweepable_pickedUp {tokens : List Token} (h : s.Sweepable)
    (reads : List.Forall₂ (fun row t => row.token = .ok t) rows tokens) (distinct : rows.Distinct)
    (hrows : ∀ row ∈ rows, row ∈ s.database.waiting) :
    s.handed tokens = tokens ∧ (∃ results : List (Except EngineFault Result), results.length = tokens.length ∧
      (s.perform (tokens.mapM pickUp)).1 = results.map .resumed) ∧ s.Takes rows (s.pickedUp tokens) ∧
      (s.pickedUp tokens).Sweepable := by
  induction reads generalizing s with
  | nil => exact ⟨rfl, ⟨[], rfl, rfl⟩, .refl s, h⟩
  | @cons row t rows tokens ht reads ih =>
    obtain ⟨hother, distinct⟩ := List.pairwise_cons.1 distinct
    obtain ⟨⟨result, hresult⟩, takes, next⟩ := sweepable_pickUp h (hrows row List.mem_cons_self) ht
    obtain ⟨added, hw, -⟩ := takes.waiting
    -- the rows behind this one are still there, as none has its identifier
    have hthere : ∀ r ∈ rows, r ∈ (s.perform (pickUp t)).2.database.waiting := by
      intro r hr
      rw [hw]
      refine List.mem_append_left _ (List.mem_filter.2 ⟨hrows r (List.mem_cons_of_mem row hr), ?_⟩)
      simpa using hother r hr
    obtain ⟨hhanded, ⟨results, hlength, hresults⟩, rest, after⟩ := ih next distinct hthere
    refine ⟨?_, ⟨result :: results, by simp [hlength], ?_⟩, ?_, ?_⟩
    · unfold handed
      rw [show s.perform (pickUp t) = (.resumed result, (s.perform (pickUp t)).2) from Prod.ext hresult rfl]
      dsimp only
      rw [hhanded]
    · rw [List.mapM_cons, perform_bind, perform_bind, hresult, hresults]
      rfl
    · rw [pickedUp_cons]
      exact takes.trans rest
    · rw [pickedUp_cons]
      exact after

/-- The tokens that a sweep hands to resumptions. -/
def handedBy (s : Site) (batch : Nat) : List Token :=
  s.handed ((s.perform (dueTokens (max batch 1)).run).1.toOption.getD [])

/-- The rows that a sweep finds. -/
def batch (s : Site) (size : Nat) : Tokens := s.database.waiting.due s.worker.clock.floorMillis (max size 1)

/-- A sweep takes all that it finds and hands it to resumptions, and its report says so. -/
theorem sweepable_sweep (h : s.Sweepable) (size : Nat) :
    (∃ report, (s.perform (sweep size).run).1 = .ok report ∧ report.due = (s.batch size).length ∧
      report.claimed = (s.batch size).length ∧ report.ends = (s.batch size).length) ∧
    List.Forall₂ (fun row t => row.token = .ok t) (s.batch size) (s.handedBy size) ∧
    (s.perform (sweep size).run).2 = s.pickedUp (s.handedBy size) ∧
    s.Takes (s.batch size) (s.perform (sweep size).run).2 ∧ (s.perform (sweep size).run).2.Sweepable := by
  obtain ⟨ts, hts⟩ := Option.isSome_iff_exists.1 h.table
  have hwaiting : s.database.waiting = ts := by rw [Database.waiting, hts, Option.getD_some]
  have hbatch : s.batch size = ts.due s.worker.clock.floorMillis (max size 1) := by rw [batch, hwaiting]
  obtain ⟨read, hdue, -⟩ := s.perform_dueTokens_ok hts (max size 1) fun row hrow =>
    h.readable row (Tokens.mem_backlog_of_mem_due (hwaiting ▸ hrow))
  obtain ⟨_, hts', reads⟩ := reads_of_dueTokens hdue
  cases hts.symm.trans hts'
  rw [← hbatch] at hdue reads
  have distinct : (s.batch size).Distinct := Tokens.pairwise_due Ne.symm h.distinct ..
  obtain ⟨hhanded, ⟨results, hlength, hresults⟩, takes, after⟩ :=
    sweepable_pickedUp h reads distinct fun row hrow => Tokens.mem_of_mem_due hrow
  have hall : s.handedBy size = (s.batch size).map read := by
    unfold handedBy
    rw [hdue]
    exact hhanded
  rw [perform_sweep hdue, hall]
  refine ⟨⟨_, rfl, ?_⟩, reads, rfl, takes, after⟩
  rw [hresults]
  obtain ⟨hdue, hclaimed, hends⟩ := SweepTally.foldl_note_resumed { due := ((s.batch size).map read).length } results
  have hcount : results.length = (s.batch size).length := hlength.trans (List.length_map ..)
  exact ⟨hdue.trans (List.length_map ..), (hclaimed.trans (Nat.zero_add _)).trans hcount,
    (hends.trans (Nat.zero_add _)).trans hcount⟩

theorem perm_batch (h : s.Sweepable) (size : Nat) : (s.batch size ++ s.backlog.lacking (s.batch size)).Perm s.backlog :=
  Tokens.perm_lacking (h.distinct.sublist List.filter_sublist) (Tokens.pairwise_due Ne.symm h.distinct ..)
    fun _ hrow => Tokens.mem_backlog_of_mem_due hrow

/-- What a sweep finds comes before what it leaves. -/
theorem precedes_of_batch (h : s.Sweepable) {size : Nat} {a b : TokenRow} (ha : a ∈ s.batch size)
    (hb : b ∈ s.backlog.lacking (s.batch size)) :
    ∃ t u, a.token = .ok t ∧ b.token = .ok u ∧ t.Precedes u := by
  have readable := h.readable
  have : Nonempty Token := ⟨⟨"", "", "", .epoch, .null, .epoch⟩⟩
  choose! read hread using readable
  obtain ⟨hmem, hleft⟩ := Tokens.not_mem_of_lacking hb
  exact ⟨read a, read b, hread a (Tokens.mem_backlog_of_mem_due ha), hread b hmem,
    Tokens.precedes_of_due hread ha hmem hleft⟩

/-! ### Sweep after sweep -/

/-- The site after some sweeps. -/
def swept (s : Site) (size : Nat) : Nat → Site
  | 0 => s
  | k + 1 => ((s.swept size k).perform (sweep size).run).2

/-- The tokens that some sweeps hand to resumptions. -/
def handedIn (s : Site) (size : Nat) : Nat → List Token
  | 0 => []
  | k + 1 => s.handedIn size k ++ (s.swept size k).handedBy size

/-- What some sweeps have handed to resumptions, and what is due then, is what was due before. -/
theorem sweepable_swept (h : s.Sweepable) (size k : Nat) : (s.swept size k).Sweepable ∧
    (s.swept size k).worker.clock = s.worker.clock ∧ ∃ rows : Tokens,
    List.Forall₂ (fun row t => row.token = .ok t) rows (s.handedIn size k) ∧
      (rows ++ (s.swept size k).backlog).Perm s.backlog ∧
      (s.swept size k).backlog.length = s.backlog.length - k * max size 1 := by
  induction k with
  | zero => exact ⟨h, rfl, [], .nil, .refl _, by simp [swept]⟩
  | succ k ih =>
    obtain ⟨before, clock, rows, reads, hperm, hlength⟩ := ih
    obtain ⟨-, hhanded, -, takes, after⟩ := sweepable_sweep before size
    have hnext : (s.swept size (k + 1)).backlog = (s.swept size k).backlog.lacking ((s.swept size k).batch size) :=
      takes.backlog
    -- the next batch and what it leaves make up what the sweeps so far have left
    have hpart := perm_batch before size
    refine ⟨after, takes.clock.trans clock, rows ++ (s.swept size k).batch size, ?_, ?_, ?_⟩
    · exact List.rel_append reads hhanded
    · rw [hnext, List.append_assoc]
      exact (hpart.append_left rows).trans hperm
    · have hsum := hpart.length_eq
      have htaken : ((s.swept size k).batch size).length = min (s.swept size k).backlog.length (max size 1) :=
        Tokens.length_due
      rw [List.length_append, ← hnext, htaken] at hsum
      rw [Nat.succ_mul]
      omega

end Host.Site

/-- In a pool every site is fit for sweeps that has cached accepted workflows only. -/
theorem Pool.Reachable.sweepable {p : Pool} (h : Pool.Reachable Operation p) {s : Site} (hs : s.database = p.database)
    (accepted : s.registry.Accepted) : s.Sweepable where
  table := by rw [hs, h.tables.2]; rfl
  distinct := hs ▸ h.tokens_distinct
  readable row hrow := by
    obtain ⟨hmem, hdue⟩ := List.mem_filter.1 hrow
    exact h.readable (hs ▸ hmem) hdue
  accepted := accepted

/-- Whatever the workers have done, if one of them alone sweeps while its clock stands still: of the tokens that are due, a
sweep takes as many as its batch holds, which is at least one, and none that comes after one that is left; it hands each of
them to a resumption and reports as many due, claimed and ended; and no token that a resumption writes is due. So after as many
sweeps as the backlog has batches nothing is due, and each token of the backlog has been handed to one resumption. -/
theorem sweeps_drain_the_backlog {p : Pool} (h : Pool.Reachable Operation p) {s : Site} (hs : s.database = p.database)
    (accepted : s.registry.Accepted) (size : Nat) :
    let limit := max size 1
    let n := s.backlog.length
    let after := (s.perform (sweep size).run).2
    (∃ (taken added : Tokens) (report : SweepTally), (s.perform (sweep size).run).1 = .ok report ∧
      taken.length = min n limit ∧ (taken ++ after.backlog).Perm s.backlog ∧
      (∀ a ∈ taken, ∀ b ∈ after.backlog, ∃ t u, a.token = .ok t ∧ b.token = .ok u ∧ t.Precedes u) ∧
      report.due = report.claimed ∧ report.claimed = taken.length ∧
      report.claimed = report.completed + report.suspended + report.failed + report.skipped ∧
      List.Forall₂ (fun row t => row.token = .ok t) taken (s.handedBy size) ∧ after = s.pickedUp (s.handedBy size) ∧
      after.database.waiting = s.database.waiting.lacking taken ++ added ∧
      ∀ row ∈ added, ¬ row.resumeAt.le (.int s.worker.clock.floorMillis) = true) ∧
    let k := n ⌈/⌉ limit
    (s.swept size k).worker.clock = s.worker.clock ∧ (s.swept size k).backlog = [] ∧
      ∃ rows : Tokens, rows.Perm s.backlog ∧ List.Forall₂ (fun row t => row.token = .ok t) rows (s.handedIn size k) ∧
        ((s.handedIn size k).map (·.id)).Nodup := by
  intro limit n after
  have sweepable := h.sweepable hs accepted
  refine ⟨?_, ?_⟩
  · obtain ⟨⟨report, hreport, hdue, hclaimed, hends⟩, hhanded, hafter, takes, -⟩ := Site.sweepable_sweep sweepable size
    obtain ⟨added, hwaiting, undue⟩ := takes.waiting
    have hleft : after.backlog = s.backlog.lacking (s.batch size) := takes.backlog
    refine ⟨s.batch size, added, report, hreport, Tokens.length_due, ?_, ?_, hdue.trans hclaimed.symm, hclaimed,
      hclaimed.trans hends.symm, hhanded, hafter, hwaiting, fun row hrow => Bool.eq_false_iff.1 (undue row hrow)⟩
    · rw [hleft]
      exact Site.perm_batch sweepable size
    · exact fun a ha b hb => Site.precedes_of_batch sweepable ha (hleft ▸ hb)
  · intro k
    obtain ⟨-, clock, rows, reads, hperm, hlength⟩ := Site.sweepable_swept sweepable size k
    have hnone : (s.swept size k).backlog = [] := by
      have hpos : 0 < limit := Nat.le_max_right size 1
      have hall : n ≤ k * limit := Nat.mul_comm .. ▸ le_smul_ceilDiv hpos
      exact List.eq_nil_of_length_eq_zero (hlength.trans (Nat.sub_eq_zero_of_le hall))
    rw [hnone, List.append_nil] at hperm
    refine ⟨clock, hnone, rows, hperm, reads, ?_⟩
    have hids := Site.map_of_reads (g := fun t => some t.id) (fun row t h => (TokenRow.token_ok h).id) reads
    have distinct : (rows.map (·.id)).Nodup := List.pairwise_map.2
      ((hperm.pairwise_iff Ne.symm).2 (sweepable.distinct.sublist List.filter_sublist))
    rw [hids] at distinct
    exact List.Nodup.of_map some (by rwa [List.map_map])

/-- The token of a suspended execution is gone after one sweep. -/
theorem backlog_of_suspended : ∃ p, Pool.Reachable Operation p ∧
    let s := Sample.worker .epoch p.database
    s.registry.Accepted ∧ s.backlog.length = 1 ∧ (s.swept 0 1).backlog = [] ∧ (s.handedIn 0 1).length = 1 := by
  obtain ⟨p, h, hdb⟩ := Sample.reachable_suspended
  have accepted : (Sample.worker .epoch p.database).registry.Accepted := fun e he => by cases he
  have hone : (Sample.worker .epoch p.database).backlog.length = 1 := by
    rw [hdb]
    rfl
  obtain ⟨-, -, hnone, rows, hperm, reads, -⟩ := sweeps_drain_the_backlog h (s := Sample.worker .epoch p.database) rfl accepted 0
  rw [hone] at hnone reads
  exact ⟨p, h, accepted, hone, hnone, reads.length_eq.symm.trans (hperm.length_eq.trans hone)⟩

end Lifecycle
