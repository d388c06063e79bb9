import Lifecycle.Proofs.Engine.Renaming
import Lifecycle.Proofs.Host.Starting
import Lifecycle.Proofs.Store.Renaming

/-!
# Two sites side by side

Two sites that agree on the entity of one target, on the executions there are for it and on everything that no run changes, but
give out other identifiers. What is done for that target at both goes the same way, and adds to both the same rows, mails
and requests, with the identifiers of the one where the other has its own.
-/

namespace Lifecycle

open Engine
open Json (Plain)
open Store (Definitions ExecutionRow TokenRow Executions Tokens)

namespace Host

/-! ### What a run adds -/

/-- New executions, tokens, mails and requests. -/
structure Effects where
  executions : Executions := []
  tokens : Tokens := []
  mails : List Mail.Message := []
  requests : List Http.Outbound := []

namespace Effects

variable {C : String → String → Prop} {target : Target} {e e' f f' : Effects}

instance : Append Effects :=
  ⟨fun e f => ⟨e.executions ++ f.executions, e.tokens ++ f.tokens, e.mails ++ f.mails, e.requests ++ f.requests⟩⟩

/-- The same, with other identifiers. -/
structure Renamed (C : String → String → Prop) (e e' : Effects) : Prop where
  executions : List.Forall₂ (ExecutionRow.Renamed C) e.executions e'.executions
  tokens : List.Forall₂ (TokenRow.Renamed C) e.tokens e'.tokens
  mails : List.Forall₂ (Mail.Message.Renamed C) e.mails e'.mails
  requests : List.Forall₂ (Http.Outbound.Renamed C) e.requests e'.requests

theorem renamed_nil : Renamed C {} {} := ⟨.nil, .nil, .nil, .nil⟩

theorem Renamed.append (h : Renamed C e e') (g : Renamed C f f') : Renamed C (e ++ f) (e' ++ f') where
  executions := List.rel_append h.executions g.executions
  tokens := List.rel_append h.tokens g.tokens
  mails := List.rel_append h.mails g.mails
  requests := List.rel_append h.requests g.requests

theorem Renamed.mono {D : String → String → Prop} (hD : ∀ i j, C i j → D i j) (h : Renamed C e e') : Renamed D e e' where
  executions := h.executions.imp fun _ _ => ExecutionRow.Renamed.mono hD
  tokens := h.tokens.imp fun _ _ => TokenRow.Renamed.mono hD
  mails := h.mails.imp fun _ _ => Mail.Message.Renamed.mono hD
  requests := h.requests.imp fun _ _ => Http.Outbound.Renamed.mono hD

/-- The executions are on the target, and the tokens are of these executions. -/
structure Of (target : Target) (e : Effects) : Prop where
  executions : ∀ r ∈ e.executions, r.key.about target = true
  tokens : ∀ t ∈ e.tokens, ∃ r ∈ e.executions, r.id = some t.executionId

/-- Mails and requests are nobody's executions. -/
theorem of_sent {mails : List Mail.Message} {requests : List Http.Outbound} :
    Of target { mails := mails, requests := requests } := ⟨by simp, by simp⟩

theorem Of.append (h : Of target e) (g : Of target f) : Of target (e ++ f) where
  executions r hr := by
    rcases List.mem_append.1 hr with hr | hr
    · exact h.executions r hr
    · exact g.executions r hr
  tokens t ht := by
    rcases List.mem_append.1 ht with ht | ht
    · obtain ⟨r, hr, hid⟩ := h.tokens t ht
      exact ⟨r, List.mem_append_left _ hr, hid⟩
    · obtain ⟨r, hr, hid⟩ := g.tokens t ht
      exact ⟨r, List.mem_append_right _ hr, hid⟩

/-- A change of status leaves an execution its key and its identifier. -/
theorem Of.advance (h : Of target e) (id : String) (next : Status) (now : Int) (failure : Option Store.Failure) :
    Of target { e with executions := (e.executions.advance id next now failure).2 } where
  executions r hr := by
    obtain ⟨old, hold, rfl⟩ := Executions.mem_advance.1 hr
    have habout := h.executions old hold
    split <;> exact habout
  tokens t ht := by
    obtain ⟨r, hr, hid⟩ := h.tokens t ht
    refine ⟨_, Executions.mem_advance.2 ⟨r, hr, rfl⟩, ?_⟩
    split <;> exact hid

theorem Of.execution (h : Of target e) {r : ExecutionRow} (about : r.key.about target = true) :
    Of target { e with executions := e.executions ++ [r] } where
  executions q hq := by
    rcases List.mem_append.1 hq with hq | hq
    · exact h.executions q hq
    · rw [List.mem_singleton.1 hq]
      exact about
  tokens t ht := by
    obtain ⟨q, hq, hid⟩ := h.tokens t ht
    exact ⟨q, List.mem_append_left _ hq, hid⟩

theorem Of.token (h : Of target e) {t : TokenRow} (owner : ∃ r ∈ e.executions, r.id = some t.executionId) :
    Of target { e with tokens := e.tokens ++ [t] } where
  executions := h.executions
  tokens u hu := by
    rcases List.mem_append.1 hu with hu | hu
    · exact h.tokens u hu
    · rw [List.mem_singleton.1 hu]
      exact owner

end Effects

namespace Site

variable {s s' s'' : Site} {e f : Effects} {target : Lifecycle.Target}

/-- The rows, mails and requests there are stay, and behind them are new ones. -/
structure Adds (s : Site) (e : Effects) (s' : Site) : Prop where
  executions : s'.database.executions = s.database.executions.map (· ++ e.executions)
  tokens : s'.database.tokens = s.database.tokens.map (· ++ e.tokens)
  mails : s'.worker.mailer.sent = s.worker.mailer.sent ++ e.mails
  requests : s'.worker.client.requests = s.worker.client.requests ++ e.requests

theorem Adds.trans (h : s.Adds e s') (g : s'.Adds f s'') : s.Adds (e ++ f) s'' where
  executions := by
    rw [g.executions, h.executions, Option.map_map]
    exact congrArg (s.database.executions.map ·) (funext fun l => List.append_assoc l _ _)
  tokens := by
    rw [g.tokens, h.tokens, Option.map_map]
    exact congrArg (s.database.tokens.map ·) (funext fun l => List.append_assoc l _ _)
  mails := by rw [g.mails, h.mails]; exact List.append_assoc _ _ _
  requests := by rw [g.requests, h.requests]; exact List.append_assoc _ _ _

/-- Something is added, definitions and the outline stay, and so does every entity but the target. -/
structure Extends (target : Lifecycle.Target) (s : Site) (e : Effects) (s' : Site) : Prop extends s.Adds e s' where
  definitions : s'.database.definitions = s.database.definitions
  outline : s'.outline = s.outline
  others : ∀ other ≠ target, s'.held other = s.held other

theorem Extends.trans (h : s.Extends target e s') (g : s'.Extends target f s'') : s.Extends target (e ++ f) s'' where
  toAdds := h.toAdds.trans g.toAdds
  definitions := g.definitions.trans h.definitions
  outline := g.outline.trans h.outline
  others other hne := (g.others other hne).trans (h.others other hne)

/-- What leaves the tables of the engine as they are adds to what was sent alone. -/
theorem Extends.of_kept {mails : List Mail.Message} {requests : List Http.Outbound} (h : s.Kept s')
    (sent : s'.worker.mailer.sent = s.worker.mailer.sent ++ mails)
    (requested : s'.worker.client.requests = s.worker.client.requests ++ requests) (outline : s'.outline = s.outline)
    (others : ∀ other ≠ target, s'.held other = s.held other) :
    s.Extends target { mails := mails, requests := requests } s' where
  executions := by
    rw [h.database.1.1]
    simp
  tokens := by
    rw [h.database.1.2]
    simp
  mails := sent
  requests := requested
  definitions := h.database.2
  outline := outline
  others := others

theorem extends_refl (s : Site) : s.Extends target {} s :=
  .of_kept (.refl s) (List.append_nil _).symm (List.append_nil _).symm rfl fun _ _ => rfl

theorem extends_call (tidy : s.Tidy) (separate : s.Separate) {c : Target.Call} (h : c.subject? = some target.id) :
    s.Extends target {} (s.call target.type c).2 := by
  have hworker : (s.call target.type c).2.worker.mailer = s.worker.mailer ∧
      (s.call target.type c).2.worker.client = s.worker.client := by
    have hset (w : Worker) (type : TargetType) (source : Source) :
        (w.setSource type source).mailer = w.mailer ∧ (w.setSource type source).client = w.client := by
      cases type <;> exact ⟨rfl, rfl⟩
    unfold call
    split
    · exact ⟨rfl, rfl⟩
    · unfold reach
      dsimp only
      split
      · exact hset _ _ _
      · split <;> exact ⟨rfl, rfl⟩
  refine .of_kept (s.kept_call _ c) ?_ ?_ (outline_call tidy _ c) fun other hne => held_call_of_ne separate h hne
  · rw [hworker.1, List.append_nil]
  · rw [hworker.2, List.append_nil]

/-- The tables of the engine are there, and no identifier that is still to be given out is in use. -/
structure Ready (s : Site) : Prop where
  definitions : s.database.definitions.isSome = true
  executions : s.database.executions = some s.database.records
  tokens : s.database.tokens = some s.database.waiting
  newExecution : ∀ r ∈ s.database.records, ∀ n, s.serial < n → r.id ≠ some (identifier n)
  newToken : ∀ t ∈ s.database.waiting, ∀ n, s.serial < n → t.id ≠ some (identifier n)

theorem Extends.records (ready : s.Ready) (h : s.Extends target e s') :
    s'.database.executions = some (s.database.records ++ e.executions) := by
  rw [h.executions, ready.executions]
  rfl

theorem Extends.waiting (ready : s.Ready) (h : s.Extends target e s') :
    s'.database.tokens = some (s.database.waiting ++ e.tokens) := by
  rw [h.tokens, ready.tokens]
  rfl

/-- The site with other executions and tokens. -/
def withRows (s : Site) (l : Executions) (ts : Tokens) : Site :=
  { s with database := { s.database with executions := some l, tokens := some ts } }

theorem Extends.withRows (ready : s.Ready) (h : s.Extends target e s') (executions : Executions) (tokens : Tokens) :
    s.Extends target { e with executions := executions, tokens := tokens }
      (s'.withRows (s.database.records ++ executions) (s.database.waiting ++ tokens)) where
  executions := by
    rw [ready.executions]
    rfl
  tokens := by
    rw [ready.tokens]
    rfl
  mails := h.mails
  requests := h.requests
  definitions := h.definitions
  outline := h.outline
  others := h.others

/-- That identifiers are given out is not seen. -/
theorem Extends.drawn (h : s.Extends target e s') : s.Extends target e s'.drawn :=
  ⟨⟨h.executions, h.tokens, h.mails, h.requests⟩, h.definitions, h.outline, h.others⟩

theorem Extends.withCache (h : s.Extends target e s') (c : List (String × Workflow)) : s.Extends target e (s'.withCache c) :=
  ⟨⟨h.executions, h.tokens, h.mails, h.requests⟩, h.definitions, h.outline, h.others⟩

/-- A site as it stands for events: what is stored can be read and written, and the entities of each type are kept apart. -/
structure Sound (s : Site) : Prop extends s.Ready where
  calm : s.Calm
  tidy : s.Tidy
  separate : s.Separate

theorem Calm.of_outline (calm : s.Calm) (h : s'.outline = s.outline) : s'.Calm := by
  have hsame : s'.worker.mailer.interferes = s.worker.mailer.interferes := congrArg (·.worker.mailer.interferes) h
  exact hsame.trans calm

/-- Nothing in an identifier is escaped. -/
theorem plain_identifier (n : Nat) : Plain (identifier n) := by
  refine Json.plain_of_forall fun c hc => ?_
  unfold identifier Text.padded at hc
  rw [String.toList_append, String.toList_append, List.mem_append, List.mem_append] at hc
  rcases hc with hc | hc | hc
  · have hfront : ("00000000-0000-4000-8000-".toList.all fun c => Json.escape c == [c]) = true := by decide
    exact beq_iff_eq.1 (List.all_eq_true.1 hfront c hc)
  · rw [String.toList_ofList] at hc
    obtain rfl := List.eq_of_mem_replicate hc
    rfl
  · refine Json.escape_of_isDigit (Nat.isDigit_of_mem_toDigits (b := 10) (n := n) (by decide) (by decide) ?_)
    rw [← Nat.toList_repr]
    exact hc

/-- Why a mail to a recipient is not delivered. -/
def undelivered? (s : Site) (recipient : String) : Option Mail.DeliveryFault :=
  match (if s.worker.mailer.checksRecipient then Mail.checkRecipient recipient else .ok ()), s.worker.mailer.failure with
  | .error f, _ => some f
  | .ok (), some message => some ⟨message⟩
  | .ok (), none => none

/-- The site with one more mail sent. -/
def mailed (s : Site) (m : Mail.Message) : Site :=
  s.setWorker { s.worker with mailer := { s.worker.mailer with sent := s.worker.mailer.sent ++ [m] } }

theorem deliver_eq (s : Site) (m : Mail.Message) :
    s.deliver m = (s.undelivered? m.recipient).elim (.ok (), s.mailed m) fun f => (.error f, s) := by
  unfold deliver undelivered? mailed
  dsimp only
  cases (if s.worker.mailer.checksRecipient then Mail.checkRecipient m.recipient else .ok ()) with
  | error f => rfl
  | ok _ => cases s.worker.mailer.failure <;> rfl

end Site

/-! ### Tracks -/

/-- Two sites that hold the same entity of a target and the same executions on it, and agree on all that no run changes; and how
many identifiers are given out in what is done there. -/
structure Tracks where
  target : Target
  left : Site
  right : Site
  drawn : Nat
  leftSound : left.Sound
  rightSound : right.Sound
  outline : right.outline = left.outline
  definitions : right.database.definitions = left.database.definitions
  held : right.held target = left.held target
  executions : right.database.records.filter (·.key.about target) = left.database.records.filter (·.key.about target)

namespace Tracks

variable (T : Tracks)

/-- A site side by side with itself. -/
def alone {s : Site} (sound : s.Sound) (target : Target) (drawn : Nat) : Tracks :=
  ⟨target, s, s, drawn, sound, sound, rfl, rfl, rfl, rfl⟩

/-- The sites in the other order. -/
def swap (drawn : Nat) : Tracks :=
  ⟨T.target, T.right, T.left, drawn, T.rightSound, T.leftSound, T.outline.symm, T.definitions.symm, T.held.symm,
    T.executions.symm⟩

/-- Identifiers that are given out at the same time correspond to each other. -/
def Pair (i j : String) : Prop :=
  ∃ k < T.drawn, i = Site.identifier (T.left.serial + 1 + k) ∧ j = Site.identifier (T.right.serial + 1 + k)

/-- What was done so far has added the same to both sites, and holds the same entity at both. -/
structure Abreast (s t : Site) : Prop where
  effects : ∃ e e', T.left.Extends T.target e s ∧ T.right.Extends T.target e' t ∧ e.Renamed T.Pair e' ∧ e.Of T.target
  serial : ∃ k, s.serial = T.left.serial + k ∧ t.serial = T.right.serial + k
  held : t.held T.target = s.held T.target

variable {T} {s t s' t' : Site} {i j : String}

theorem Pair.plain (h : T.Pair i j) : Plain i ∧ Plain j := by
  obtain ⟨k, -, rfl, rfl⟩ := h
  exact ⟨Site.plain_identifier _, Site.plain_identifier _⟩

/-- Every identifier has one counterpart. -/
theorem Pair.single (h : T.Pair i j) : ∀ i' j', T.Pair i' j' → (i' = i ↔ j' = j) := by
  rintro i' j' ⟨k', -, rfl, rfl⟩
  obtain ⟨k, -, rfl, rfl⟩ := h
  constructor <;> intro heq
  · have := Site.identifier_injective heq
    exact congrArg Site.identifier (by omega)
  · have := Site.identifier_injective heq
    exact congrArg Site.identifier (by omega)

theorem Pair.left_execution (h : T.Pair i j) : ∀ r ∈ T.left.database.records, r.id ≠ some i := by
  obtain ⟨k, -, rfl, rfl⟩ := h
  exact fun r hr => T.leftSound.toReady.newExecution r hr _ (by omega)

theorem Pair.right_execution (h : T.Pair i j) : ∀ r ∈ T.right.database.records, r.id ≠ some j := by
  obtain ⟨k, -, rfl, rfl⟩ := h
  exact fun r hr => T.rightSound.toReady.newExecution r hr _ (by omega)

theorem Pair.left_token (h : T.Pair i j) : ∀ t ∈ T.left.database.waiting, t.id ≠ some i := by
  obtain ⟨k, -, rfl, rfl⟩ := h
  exact fun r hr => T.leftSound.toReady.newToken r hr _ (by omega)

theorem Pair.right_token (h : T.Pair i j) : ∀ t ∈ T.right.database.waiting, t.id ≠ some j := by
  obtain ⟨k, -, rfl, rfl⟩ := h
  exact fun r hr => T.rightSound.toReady.newToken r hr _ (by omega)

theorem abreast_start (T : Tracks) : T.Abreast T.left T.right :=
  ⟨⟨{}, {}, T.left.extends_refl, T.right.extends_refl, Effects.renamed_nil, Effects.of_sent⟩, ⟨0, rfl, rfl⟩, T.held⟩

namespace Abreast

variable (h : T.Abreast s t)

include h

theorem left_outline : s.outline = T.left.outline := by
  obtain ⟨e, e', he, -⟩ := h.effects
  exact he.outline

theorem same_outline : t.outline = s.outline := by
  obtain ⟨e, e', -, he', -⟩ := h.effects
  exact he'.outline.trans (T.outline.trans h.left_outline.symm)

theorem calm : s.Calm := T.leftSound.calm.of_outline h.left_outline

theorem tidy : s.Tidy := T.leftSound.tidy.of_outline h.left_outline

theorem separate : s.Separate := T.leftSound.separate.of_outline h.left_outline

/-- Sites stay abreast if the same is added to both. -/
theorem step {f g : Effects} (hs : s.Extends T.target f s') (ht : t.Extends T.target g t') (renamed : f.Renamed T.Pair g)
    (of : f.Of T.target) (serial : s'.serial = s.serial) (serial' : t'.serial = t.serial)
    (held : t'.held T.target = s'.held T.target) : T.Abreast s' t' := by
  obtain ⟨e, e', he, he', hrenamed, hof⟩ := h.effects
  obtain ⟨k, hk, hk'⟩ := h.serial
  exact ⟨⟨e ++ f, e' ++ g, he.trans hs, he'.trans ht, hrenamed.append renamed, hof.append of⟩,
    ⟨k, serial.trans hk, serial'.trans hk'⟩, held⟩

/-- Sites stay abreast if the rows that were added become others, the same at both. -/
theorem rewritten {e e' : Effects} (he : T.left.Extends T.target e s) (he' : T.right.Extends T.target e' t)
    (renamed : e.Renamed T.Pair e') {l l' : Executions} {ts ts' : Tokens}
    (executions : List.Forall₂ (ExecutionRow.Renamed T.Pair) l l') (tokens : List.Forall₂ (TokenRow.Renamed T.Pair) ts ts')
    (of : Effects.Of T.target { e with executions := l, tokens := ts }) :
    T.Abreast (s.withRows (T.left.database.records ++ l) (T.left.database.waiting ++ ts))
      (t.withRows (T.right.database.records ++ l') (T.right.database.waiting ++ ts')) :=
  ⟨⟨_, _, he.withRows T.leftSound.toReady l ts, he'.withRows T.rightSound.toReady l' ts',
    ⟨executions, tokens, renamed.mails, renamed.requests⟩, of⟩, h.serial, h.held⟩

/-- A call on the target is answered alike. -/
theorem call {c : Target.Call} (hc : c.subject? = some T.target.id) :
    (t.call T.target.type c).1 = (s.call T.target.type c).1 ∧
      T.Abreast (s.call T.target.type c).2 (t.call T.target.type c).2 := by
  have houtline := h.same_outline
  obtain ⟨answer, held⟩ := Site.call_of_held hc houtline h.held
  exact ⟨answer, h.step (Site.extends_call h.tidy h.separate hc)
    (Site.extends_call (h.tidy.of_outline houtline) (h.separate.of_outline houtline) hc) Effects.renamed_nil Effects.of_sent
    (s.kept_call _ c).serial (t.kept_call _ c).serial held⟩

theorem template (id : String) : t.template id = s.template id := by
  have hworker : t.worker.templates = s.worker.templates := congrArg (·.worker.templates) h.same_outline
  have hdatabase : t.database.templates = s.database.templates := congrArg (·.database.templates) h.same_outline
  unfold Site.template
  rw [hworker, hdatabase]

/-- A mail is delivered at both sites, or refused at both. -/
theorem deliver {m m' : Mail.Message} (hm : m.Renamed T.Pair m') :
    (t.deliver m').1 = (s.deliver m).1 ∧ T.Abreast (s.deliver m).2 (t.deliver m').2 := by
  have hfault : t.undelivered? m'.recipient = s.undelivered? m.recipient := by
    have houtline : t.outline.undelivered? m.recipient = s.outline.undelivered? m.recipient :=
      congrArg (·.undelivered? m.recipient) h.same_outline
    rw [hm.recipient]
    exact houtline
  rw [Site.deliver_eq, Site.deliver_eq, hfault]
  cases s.undelivered? m.recipient with
  | some f => exact ⟨rfl, h⟩
  | none =>
    refine ⟨rfl, h.step (f := { mails := [m] }) (g := { mails := [m'] }) ?_ ?_ ⟨.nil, .nil, .cons hm .nil, .nil⟩
      Effects.of_sent rfl rfl h.held⟩
    · exact .of_kept (s.kept_setWorker _ id) rfl (List.append_nil _).symm rfl fun _ _ => rfl
    · exact .of_kept (t.kept_setWorker _ id) rfl (List.append_nil _).symm rfl fun _ _ => rfl

/-- A request is on its way from both sites. -/
theorem requested {r r' : Http.Outbound} (hr : r.Renamed T.Pair r') : T.Abreast (s.before (.send r)) (t.before (.send r')) := by
  refine h.step (f := { requests := [r] }) (g := { requests := [r'] }) ?_ ?_ ⟨.nil, .nil, .nil, .cons hr .nil⟩
    Effects.of_sent rfl rfl h.held
  · exact .of_kept (s.kept_setWorker _ id) (List.append_nil _).symm rfl rfl fun _ _ => rfl
  · exact .of_kept (t.kept_setWorker _ id) (List.append_nil _).symm rfl rfl fun _ _ => rfl

theorem response {r r' : Http.Outbound} (hr : r.Renamed T.Pair r') : t.response r' = s.response r := by
  have hconnected : t.worker.client.connected = s.worker.client.connected :=
    congrArg (·.worker.client.connected) h.same_outline
  have hfailure : t.worker.client.failure = s.worker.client.failure := congrArg (·.worker.client.failure) h.same_outline
  have hstatus : t.worker.client.status = s.worker.client.status := congrArg (·.worker.client.status) h.same_outline
  unfold Site.response
  rw [hconnected, hfailure, hstatus, hr.refusal]

theorem latency (r : Handling.Request) : t.latency r = s.latency r := by
  cases r with
  | target type c =>
    have haccess : (t.worker.source type).access = (s.worker.source type).access :=
      congrArg (·.access) (Site.outline_source h.same_outline type)
    exact congrArg (·.latency) haccess
  | deliver m =>
    have hmailer : t.worker.mailer.latency = s.worker.mailer.latency := congrArg (·.worker.mailer.latency) h.same_outline
    exact hmailer
  | send r =>
    have hclient : t.worker.client.latency = s.worker.client.latency := congrArg (·.worker.client.latency) h.same_outline
    exact hclient
  | _ => rfl

/-- What is asked of the target or of the outline is answered alike. -/
theorem asked {r : Handling.Request} (hr : r.Local T.target) :
    (Site.after r t).1 = (Site.after r s).1 ∧ T.Abreast (Site.after r s).2 (Site.after r t).2 := by
  cases r with
  | now => exact ⟨Site.clock_outline h.same_outline, h⟩
  | template id => exact ⟨h.template id, h⟩
  | target type c =>
    obtain ⟨rfl, hc⟩ := hr
    exact h.call hc
  | deliver m => exact hr.elim
  | send r => exact hr.elim

/-- Handlers that match are done alike, within the same limit. -/
theorem within {α β : Type} {Q : α → β → Prop} {p : Program Handling.interface α} {q : Program Handling.interface β}
    (hm : Handling.Matches T.Pair T.target Q p q) (limit : Option Nat) (waited : Nat) :
    Option.Rel Q (Site.within limit waited p s).1 (Site.within limit waited q t).1 ∧
      T.Abreast (Site.within limit waited p s).2 (Site.within limit waited q t).2 := by
  induction hm generalizing s t waited with
  | done hQ => exact ⟨.some hQ, h⟩
  | @ask r hr next next' _ ih =>
    have hbefore (s : Site) : s.before r = s := by
      cases r with
      | send r => exact hr.elim
      | _ => rfl
    obtain ⟨hanswer, hafter⟩ := h.asked hr
    unfold Site.within
    dsimp only
    rw [hbefore, hbefore, h.latency]
    split
    · exact ⟨.none, h⟩
    · rw [hanswer]
      exact ih _ hafter _
  | @deliver m m' hm next next' _ ih =>
    have hsite (s : Site) (calm : s.Calm) (m : Mail.Message) : Site.after (.deliver m) s = s.deliver m := by
      have hcalm : s.worker.mailer.interferes = false := calm
      show (if s.worker.mailer.interferes then s.interfere else s).deliver m = _
      rw [hcalm]
      rfl
    obtain ⟨hanswer, hafter⟩ := h.deliver hm
    have hlatency : t.latency (.deliver m') = s.latency (.deliver m) := h.latency (.deliver m)
    unfold Site.within
    dsimp only [Site.before]
    rw [hlatency]
    split
    · exact ⟨.none, h⟩
    · rw [hsite s h.calm, hsite t (h.calm.of_outline h.same_outline), hanswer]
      exact ih _ hafter _
  | @send r r' hr next next' _ ih =>
    have hbefore := h.requested hr
    have hlatency : (t.before (.send r')).latency (.send r') = (s.before (.send r)).latency (.send r) :=
      hbefore.latency (.send r)
    unfold Site.within
    dsimp only
    rw [hlatency]
    split
    · exact ⟨.none, hbefore⟩
    · dsimp only [Site.after]
      rw [hbefore.response hr]
      exact ih _ hbefore _

/-- A node is visited alike in executions whose identifiers correspond. -/
theorem visit {v : Visit} {id : String} (pair : T.Pair v.record.id id) (target : v.record.target = T.target) :
    (t.visit (v.under id)).1 = (s.visit v).1 ∧ T.Abreast (s.visit v).2 (t.visit (v.under id)).2 := by
  have htypes : t.worker.types = s.worker.types := congrArg (·.worker.types) h.same_outline
  have htimeouts : t.worker.timeouts = s.worker.timeouts := congrArg (·.worker.timeouts) h.same_outline
  have hmatches : Handling.Matches T.Pair T.target (Agreed Eq) (Handling.handle s.worker.types v).run
      (Handling.handle s.worker.types (v.under id)).run :=
    target ▸ Handling.matches_handle (fun _ _ => Pair.plain) pair s.worker.types
  obtain ⟨hresult, hafter⟩ := h.within hmatches (s.worker.timeouts.limit? v.step.kind.type) 0
  unfold Site.visit
  have hkind : (v.under id).step.kind = v.step.kind := rfl
  rw [htypes, htimeouts, hkind]
  dsimp only
  generalize Site.within (s.worker.timeouts.limit? v.step.kind.type) 0 (Handling.handle s.worker.types v).run s = x
    at hresult hafter ⊢
  generalize Site.within _ 0 _ t = y at hresult hafter ⊢
  obtain ⟨result, s'⟩ := x
  obtain ⟨result', t'⟩ := y
  cases hresult with
  | none => exact ⟨rfl, hafter⟩
  | some agreed => exact ⟨agreed.eq.symm, hafter⟩

end Abreast

end Tracks

end Host

end Lifecycle
