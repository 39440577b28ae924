import OutboxNet.Processor.RetrySchedule
import OutboxNet.System.Overlap
import OutboxNet.System.RetryBudget

/-!
# The back-off is kept

A round that fails draws a random number, asks its retry policy for a delay, reads the clock of its
instance and writes the sum into the row.  Nobody acquires the message before the database clock has come to
that time, on the hot path or the cold path, whatever else happens to the message, to its lock and to the
other rounds: only another `IncrementRetryAsync` on it sets another time.

With the exponential policy the time between the reading of the clock and the next acquisition is at least
the capped delay less its jitter, up to the millisecond that is lost on the way into the column.
-/

set_option autoImplicit false

namespace OutboxNet

open ExponentialBackoff (Sensible cap)
open OutboxStore (WriteBack heldBy lockRow setRetry)

variable {dep : Deployment}

/-! ## The retries of a round -/

/-- Whether a call adds to a counter of any name. -/
def Call.isMetric : Call → Bool
  | .addMetric _ _ => true
  | _ => false

/-- The calls among some entries that are not about metrics. -/
def unmetered (entries : List Entry) : List Entry := entries.filter fun e => !e.call.isMetric

@[simp] theorem unmetered_concat (entries : List Entry) (e : Entry) :
    unmetered (entries ++ [e]) = unmetered entries ++ if e.call.isMetric then [] else [e] := by
  rw [unmetered, List.filter_append]
  cases h : e.call.isMetric <;> simp [unmetered, h]

/-- The policy of a round grants a retry at `nextRetryAt`: the last things that the round has done, metrics
apart, are to draw a random number and to read the time `utcNow`. -/
def Granted (p : Pipeline) (message : OutboxMessage) (entries : List Entry)
    (utcNow nextRetryAt : DateTimeOffset) : Prop :=
  ∃ (draw : ℚ) (delay : TimeSpan),
    [(⟨.nextDouble, draw⟩ : Entry), (⟨.utcNow, utcNow⟩ : Entry)] <:+ unmetered entries ∧
      p.retryPolicy.getNextDelay message.retryCount draw = .ok (some delay) ∧
      addTime utcNow delay = .ok nextRetryAt

/-- A retry is of the round's own message, and granted. -/
def Call.BackedBy (p : Pipeline) (message : OutboxMessage) (entries : List Entry) : Call → Prop
  | .incrementRetry messageId _ nextRetryAt _ =>
      messageId = message.id ∧ ∃ utcNow, Granted p message entries utcNow nextRetryAt
  | _ => True

/-- The calls of a round, in any order, as far as retries are granted.  The state is what it has called so
far. -/
def BackoffTrans (p : Pipeline) (message : OutboxMessage) (c : Call) (entries : List Entry) (a : c.Ans)
    (entries' : List Entry) : Prop :=
  c.BackedBy p message entries ∧ entries' = entries ++ [⟨c, a⟩]

/-- What is left of a round that has made some calls. -/
abbrev BacksOff {α : Type} (p : Pipeline) (message : OutboxMessage) (x : Prog Call Call.Ans α)
    (entries : List Entry) : Prop :=
  x.Conforms (BackoffTrans p message) (fun _ _ => True) entries

namespace BacksOff

variable {p : Pipeline} {message : OutboxMessage} {entries : List Entry}

/-- A call that is no retry. -/
theorem perform {c : Call} (hc : ∀ entries, c.BackedBy p message entries) :
    BacksOff p message (Prog.perform c : Prog Call Call.Ans c.Ans) entries :=
  Prog.conforms_perform fun _ => ⟨_, ⟨hc entries, rfl⟩, trivial⟩

theorem andThen {α β : Type} {x : Async α} {f : α → Async β} (hx : BacksOff p message x.run entries)
    (hf : ∀ a entries', BacksOff p message (f a).run entries') :
    BacksOff p message (x >>= f).run entries :=
  Prog.Conforms.bindThrowing hx (fun a entries' _ => hf a entries') fun _ _ _ => trivial

/-- A write-back, with its metric when it returns true. -/
theorem counted {x : Async Bool} (hx : BacksOff p message x.run entries) (metric : Metric)
    (eventType : Text) : BacksOff p message
      (do if ← x then Async.addMetric metric eventType : Async Unit).run entries := by
  refine hx.andThen fun b entries' => ?_
  cases b
  · exact trivial
  · exact perform (c := .addMetric metric eventType) fun _ => trivial

/-- The failure handler asks for a delay before it retries. -/
theorem handleMessageFailureAsync (lockedBy : Text) (error : Option Text) :
    BacksOff p message (p.handleMessageFailureAsync message lockedBy error).run entries := by
  rw [Pipeline.handleMessageFailureAsync_run]
  refine fun draw => ⟨_, ⟨trivial, rfl⟩, ?_⟩
  beta_reduce
  cases hdelay : p.retryPolicy.getNextDelay message.retryCount draw with
  | error e => exact trivial
  | ok delay =>
      cases delay with
      | none =>
          have hclose : BacksOff p message (Async.markAsDeadLettered message.id lockedBy).run
              (entries ++ [⟨.nextDouble, draw⟩]) :=
            perform (c := .markAsDeadLettered message.id lockedBy) fun _ => trivial
          exact hclose.counted .messagesDeadLettered message.eventType
      | some delay =>
          refine fun utcNow => ⟨_, ⟨trivial, rfl⟩, ?_⟩
          beta_reduce
          cases hadd : addTime utcNow delay with
          | error e => exact trivial
          | ok nextRetryAt =>
              have hgranted : Granted p message
                  ((entries ++ [⟨.nextDouble, draw⟩]) ++ [⟨.utcNow, utcNow⟩]) utcNow nextRetryAt := by
                refine ⟨draw, delay, ?_, hdelay, hadd⟩
                rw [unmetered_concat, unmetered_concat, List.append_assoc]
                exact List.suffix_append _ _
              have hretry : BacksOff p message
                  (Async.incrementRetry message.id lockedBy nextRetryAt error).run
                  ((entries ++ [⟨.nextDouble, draw⟩]) ++ [⟨.utcNow, utcNow⟩]) :=
                Prog.conforms_perform fun _ => ⟨_, ⟨⟨rfl, utcNow, hgranted⟩, rfl⟩, trivial⟩
              exact hretry.counted .messagesFailed message.eventType

theorem processQueuedMessageAsync (lockedBy : Text) :
    BacksOff p message (p.processQueuedMessageAsync lockedBy message).run entries := by
  unfold Pipeline.processQueuedMessageAsync
  have hpublish : BacksOff p message (Async.publish message).run entries :=
    perform (c := .publish message) fun _ => trivial
  have hclose : ∀ entries', BacksOff p message (Async.markAsProcessed message.id lockedBy).run entries' :=
    fun _ => perform (c := .markAsProcessed message.id lockedBy) fun _ => trivial
  refine andThen (Prog.Conforms.catching
    (hpublish.andThen fun _ entries' => (hclose entries').counted .messagesProcessed message.eventType)
    (fun _ _ _ => trivial) (fun _ _ _ _ => trivial) (fun _ _ _ _ => trivial)) ?_
  rintro (ex | _) entries'
  · exact handleMessageFailureAsync lockedBy (some ex.message)
  · exact trivial

end BacksOff

/-- What a round in its failure handler has read last. -/
def Stage.Read (entries : List Entry) : Stage → Prop
  | .failing (some draw) none => [(⟨.nextDouble, draw⟩ : Entry)] <:+ unmetered entries
  | .failing (some draw) (some utcNow) =>
      [(⟨.nextDouble, draw⟩ : Entry), (⟨.utcNow, utcNow⟩ : Entry)] <:+ unmetered entries
  | _ => True

/-- The protocol of direct delivery has retries only after the policy has granted them. -/
theorem Job.Trans.backedBy {job : Job} {c : Call} {s s' : Stage} {a : c.Ans} {entries : List Entry}
    (h : job.Trans c s a s') (hread : s.Read entries) :
    c.BackedBy job.pipeline job.message entries ∧ s'.Read (entries ++ [⟨c, a⟩]) := by
  induction h with
  | metric =>
      refine ⟨trivial, ?_⟩
      unfold Stage.Read at hread ⊢
      rw [unmetered_concat]
      simpa [Call.isMetric] using hread
  | readThrew =>
      refine ⟨trivial, ?_⟩
      split <;> trivial
  | saveThrew =>
      refine ⟨trivial, ?_⟩
      unfold Job.afterFailedSave
      split <;> trivial
  | nothingToSave _ _ _ ih => exact ih trivial
  | faulted _ _ ih => exact ih trivial
  | retry _ _ ih => exact ih trivial
  | @draw d =>
      refine ⟨trivial, ?_⟩
      rw [Stage.Read, unmetered_concat]
      exact List.suffix_append _ _
  | @clock d t =>
      refine ⟨trivial, ?_⟩
      obtain ⟨pre, hpre⟩ := hread
      rw [Stage.Read, unmetered_concat, ← hpre, List.append_assoc]
      exact List.suffix_append _ _
  | incrementRetry hdelay hadd => exact ⟨⟨rfl, _, _, _, hread, hdelay, hadd⟩, trivial⟩
  | _ => exact ⟨trivial, trivial⟩

/-- **Every round retries only as its policy grants it.** -/
theorem Round.backsOff (r : Round) (plan : Plan) :
    BacksOff r.pipeline r.message (r.program plan) [] := by
  cases plan with
  | direct subscriptions loop =>
      refine (Job.processSingleMessageAsync_conforms (r.job subscriptions) loop).simulate
        (fun s entries => s.Read entries) ?_ (fun _ _ _ _ _ => trivial) trivial
      intro c s a s' entries hread htrans
      obtain ⟨hbacked, hread'⟩ := htrans.backedBy hread
      exact ⟨_, ⟨hbacked, rfl⟩, hread'⟩
  | queueMediated => exact BacksOff.processQueuedMessageAsync r.lockedBy

namespace World

variable {w w' : World} {act : Action}

/-- Random numbers are from [0, 1). -/
theorem drawn {d d' : Database} {e : Entry} (hexec : Database.Exec dep e.call d e.answer d') {draw : ℚ}
    (he : e = ⟨.nextDouble, draw⟩) : 0 ≤ draw ∧ draw < 1 := by
  subst he
  cases hexec with
  | effect heffect =>
      cases heffect with
      | nextDouble _ h0 h1 => exact ⟨h0, h1⟩
  | failed hthrew => cases hthrew
  | answerLost hthrew => cases hthrew

/-- What every run keeps: rounds retry as it is granted to them, with random numbers from [0, 1). -/
structure BackedOff (w : World) : Prop where
  begun : w.Begun
  round : ∀ (token : ℕ) (r : Round) (work : Work), w.rounds[token]? = some r → r.work = some work →
    BacksOff r.pipeline r.message work.prog (w.entriesOf token)
  draws : ∀ x ∈ w.log, ∀ draw : ℚ, x.2 = (⟨.nextDouble, draw⟩ : Entry) → 0 ≤ draw ∧ draw < 1

namespace BackedOff

theorem initial (now : DateTimeOffset) : BackedOff (initial now) where
  begun := Begun.initial now
  round := by
    intro token r work hr
    simp [World.initial] at hr
  draws := List.forall_mem_nil _

/-- The step lemma. -/
theorem step (h : BackedOff w) (hs : Step dep (Database.Exec dep) w act w') : BackedOff w' where
  begun := h.begun.step hs
  round := by
    intro token r' work' hr' hwork'
    refine hs.history (Ψ := fun p m work entries => BacksOff p m work.prog entries) h.begun ?_ ?_ h.round
      hr' hwork'
    · rintro token plan - r
      exact r.backsOff plan
    · intro p m plan c k a entries hround
      obtain ⟨_, ⟨-, rfl⟩, hk⟩ := hround a
      exact hk
  draws := by
    intro x hx draw hdraw
    cases hs with
    | @call token r work c k a db hr hwork hprog hexec =>
        rcases List.mem_append.mp hx with hx | hx
        · exact h.draws x hx draw hdraw
        · rw [List.mem_singleton] at hx
          subst hx
          exact drawn hexec hdraw
    | _ => exact h.draws x hx draw hdraw

theorem run {now : DateTimeOffset} {acts : List Action}
    (hrun : Run dep (Database.Exec dep) (World.initial now) acts w) : BackedOff w :=
  hrun.invariant BackedOff (fun _ _ _ h hs => h.step hs) (initial now)

/-- A retry that a round writes is granted. -/
theorem granted (h : BackedOff w) {exec : Answering} {token : ℕ} {k : Guid} {lockedBy : Text}
    {nextRetryAt : DateTimeOffset} {error : Option Text} {a : Except Exn Bool}
    (hs : Step dep exec w (.call token ⟨.incrementRetry k lockedBy nextRetryAt error, a⟩) w') :
    ∃ r utcNow, w.rounds[token]? = some r ∧ r.message.id = k ∧
      Granted r.pipeline r.message (w.entriesOf token) utcNow nextRetryAt := by
  cases hs with
  | @call _ r work _ k' _ db hr hwork hprog hexec =>
      have hround := h.round token r work hr hwork
      rw [hprog] at hround
      obtain ⟨_, ⟨⟨hid, utcNow, hgranted⟩, -⟩, -⟩ := hround a
      exact ⟨r, utcNow, hr, hid.symm, hgranted⟩

end BackedOff

/-! ## The row of a message that waits -/

/-- Message `k` has been acquired, and its row, if it is still there, is due again at `due`. -/
def Waits (k : Guid) (due : DateTimeOffset) (w : World) : Prop :=
  (∃ r ∈ w.rounds, r.message.id = k) ∧
    ∀ m, w.db.messages.find? k = some m → m.nextRetryAt = some due

/-- An action that sets no other time: a retry of message `k` has returned false. -/
def NoRetryOf (k : Guid) (act : Action) : Prop :=
  ∀ token entry, act = .call token entry → entry.call.isRetryOf k = true →
    entry.call.answer? entry.answer = some false

namespace Waits

variable {k : Guid} {due : DateTimeOffset}

/-- A retry that returns false changes no row. -/
theorem find?_of_refused {token : ℕ} {entry : Entry}
    (hs : Step dep (Database.Exec dep) w (.call token entry) w') (hretry : entry.call.isRetryOf k = true)
    (hanswer : entry.call.answer? entry.answer = some false) :
    w'.db.messages.find? k = w.db.messages.find? k := by
  obtain ⟨lockedBy, nextRetryAt, error, hc⟩ := Call.isRetryOf_iff.mp hretry
  have hback : entry.call.writeBack? = some (.retry nextRetryAt error, k, lockedBy) := by
    rw [hc]
    rfl
  have hrun := hs.called.1.writeBack hback hanswer
  cases hm : w.db.messages.find? k with
  | some m =>
      obtain ⟨hheld, hfind⟩ := WriteBack.run_row hrun hm
      rw [hfind, ← hheld]
      rfl
  | none =>
      obtain ⟨-, hf, hmessages⟩ := WriteBack.run_eq hrun
      rw [hmessages, Table.find?_update, hm]
      rfl

/-- The step lemma: the message goes on waiting. -/
theorem step (h : Waits k due w) (hs : Step dep (Database.Exec dep) w act w')
    (hact : NoRetryOf k act) : Waits k due w' := by
  obtain ⟨⟨r, hr, hid⟩, hrow⟩ := h
  constructor
  · obtain ⟨token, hlt, rfl⟩ := List.getElem_of_mem hr
    obtain ⟨r', hr', -, hm, -, -⟩ := hs.round (List.getElem?_eq_getElem hlt)
    exact ⟨r', List.mem_of_getElem? hr', by rw [hm, hid]⟩
  · by_cases hretry : ∃ token entry, act = .call token entry ∧ entry.call.isRetryOf k = true
    · obtain ⟨token, entry, rfl, hc⟩ := hretry
      rw [find?_of_refused hs hc (hact token entry rfl hc)]
      exact hrow
    · intro m' hm'
      have hchange := hs.row sound_exec k
      rw [hm'] at hchange
      generalize ho : w.db.messages.find? k = o at hchange hrow
      cases hchange with
      | same => exact hrow m' rfl
      | publish _ _ hfresh => exact absurd hid (hfresh r hr)
      | @lock m => exact hrow m rfl
      | @writeBack token entry kind messageId lockedBy m hcall hback hheld =>
          cases kind with
          | retry nextRetryAt error =>
              refine absurd ⟨token, entry, hcall, ?_⟩ hretry
              have hmessage : messageId = k := by
                simp only [heldBy, Bool.and_eq_true, decide_eq_true_eq] at hheld
                exact hheld.1.symm.trans (Table.find?_key ho)
              obtain ⟨c, a⟩ := entry
              cases c <;> cases hback
              exact decide_eq_true hmessage
          | _ => exact hrow m rfl
      | @release m => exact hrow m rfl

/-- A retry that returns true makes its message wait. -/
theorem of_retry {token : ℕ} {lockedBy : Text} {nextRetryAt : DateTimeOffset} {error : Option Text}
    {r : Round} (hs : Step dep (Database.Exec dep) w
      (.call token ⟨.incrementRetry k lockedBy nextRetryAt error, Except.ok true⟩) w')
    (hr : w.rounds[token]? = some r) (hid : r.message.id = k) :
    Waits k (dep.clientTime nextRetryAt) w' := by
  constructor
  · obtain ⟨r', hr', -, hm, -, -⟩ := hs.round hr
    exact ⟨r', List.mem_of_getElem? hr', by rw [hm, hid]⟩
  · obtain ⟨m, hm, -⟩ := hs.called.1.held rfl rfl
    intro m' hm'
    rw [hs.called.1.written rfl rfl hm] at hm'
    cases hm'
    rfl

/-- Nobody acquires a message that waits. -/
theorem le_of_acquire {exec : Answering} (h : Waits k due w) (hs : Step dep exec w .acquire w')
    {token : ℕ} {r : Round} (hnew : w.rounds.length ≤ token) (hr : w'.rounds[token]? = some r)
    (hid : r.message.id = k) : due ≤ w.db.now := by
  have hacquired := acquisition_eq_some hr
  rcases hs.acquire_row k with ⟨-, honly⟩ | ⟨m, -, -, -, hm, -, hdue, -⟩
  · exact absurd (honly token _ hacquired hid) (not_lt.mpr hnew)
  · have hretry := h.2 m hm
    simp only [OutboxStore.due, hretry, Bool.and_eq_true, Option.all_some, decide_eq_true_eq] at hdue
    exact hdue.2

end Waits

/-! ## The theorem -/

/-- The capped delay, less its jitter, passes between the reading of the clock and the time in the column,
up to a millisecond. -/
theorem cap_lt_of_granted {options : RetryPolicyOptions} (hsensible : Sensible options) {r : ℤ} {draw : ℚ}
    (h0 : 0 ≤ draw) (h1 : draw < 1) {delay : TimeSpan} {utcNow nextRetryAt now : DateTimeOffset}
    (hdelay : ExponentialBackoff.getNextDelay options r draw = .ok (some delay))
    (hadd : addTime utcNow delay = .ok nextRetryAt) (hdue : dep.clientTime nextRetryAt ≤ now) :
    (utcNow : ℚ) + cap options r * (1 - options.jitterFactor) < now + 10000 := by
  obtain ⟨hlow, -⟩ := ExponentialBackoff.finalDelayMs_within (r := r) hsensible h0 h1
  have hfloor := ExponentialBackoff.getNextDelay_eq_some hdelay
  have hnext : nextRetryAt = utcNow + delay := by
    unfold addTime at hadd
    split at hadd
    · exact (Except.ok.inj hadd).symm
    · cases hadd
  have hcolumn : (nextRetryAt : ℤ) < dep.clientTime nextRetryAt + 10000 := by
    have hcut : ∀ t : ℤ, t < (t + 5000) / 10000 * 10000 + 10000 ∧ t < t / 10000 * 10000 + 10000 := fun t =>
      ⟨by omega, by omega⟩
    rcases dep.clientTime_spec nextRetryAt with h | h
    · rw [h]
      exact (hcut nextRetryAt).1
    · rw [h]
      exact (hcut nextRetryAt).2
  have hlate : (nextRetryAt : ℤ) + 1 ≤ now + 10000 :=
    (Int.add_one_le_of_lt hcolumn).trans (Int.add_le_add_right hdue 10000)
  calc
    (utcNow : ℚ) + cap options r * (1 - options.jitterFactor)
        ≤ utcNow + ExponentialBackoff.finalDelayMs options r draw * 10000 := by linarith
    _ < utcNow + (delay + 1) := by
      have := Int.lt_floor_add_one (ExponentialBackoff.finalDelayMs options r draw * 10000)
      rw [← hfloor] at this
      linarith
    _ = ((nextRetryAt + 1 : ℤ) : ℚ) := by
      rw [hnext]
      push_cast
      ring
    _ ≤ ((now + 10000 : ℤ) : ℚ) := by exact_mod_cast hlate
    _ = now + 10000 := by push_cast; ring

/-- **The back-off is kept.** Take any run of any number of workers, with any interleaving, crashes and
failures.  A round writes a retry of message `k` and gets true; then no other retry of `k` is written; and
then `k` is acquired again.  The round that failed has read a random number and a time before, its policy
has granted a delay for the retry count that it knew, and the database clock has come to the end of that
delay, as the column has it.  With the exponential policy this is not before the capped delay, less its
jitter, and a millisecond. -/
theorem backoff_kept {now : DateTimeOffset} {acts acts' : List Action} {w₁ w₂ w₃ w₄ : World}
    {token token' : ℕ} {k : Guid} {lockedBy : Text} {nextRetryAt : DateTimeOffset} {error : Option Text}
    {r' : Round} (hbefore : Run dep (Database.Exec dep) (initial now) acts w₁)
    (hretry : Step dep (Database.Exec dep) w₁
      (.call token ⟨.incrementRetry k lockedBy nextRetryAt error, Except.ok true⟩) w₂)
    (hbetween : Run dep (Database.Exec dep) w₂ acts' w₃) (hlast : ∀ act ∈ acts', NoRetryOf k act)
    (hacquire : Step dep (Database.Exec dep) w₃ .acquire w₄) (hnew : w₃.rounds.length ≤ token')
    (hr' : w₄.rounds[token']? = some r') (hid : r'.message.id = k) :
    ∃ (r : Round) (utcNow : DateTimeOffset), w₁.rounds[token]? = some r ∧ r.message.id = k ∧
      Granted r.pipeline r.message (w₁.entriesOf token) utcNow nextRetryAt ∧
      dep.clientTime nextRetryAt ≤ w₃.db.now ∧
      ∀ options, r.pipeline.retryPolicy = ExponentialBackoff.policy options → Sensible options →
        (utcNow : ℚ) + cap options r.message.retryCount * (1 - options.jitterFactor) <
          w₃.db.now + 10000 := by
  have hbacked := BackedOff.run hbefore
  obtain ⟨r, utcNow, hr, hrid, hgranted⟩ := hbacked.granted hretry
  have hwaits : Waits k (dep.clientTime nextRetryAt) w₃ :=
    hbetween.invariant_of (Waits k (dep.clientTime nextRetryAt)) (NoRetryOf k)
      (fun _ _ _ hact h hs => h.step hs hact) hlast (Waits.of_retry hretry hr hrid)
  have hdue := hwaits.le_of_acquire hacquire hnew hr' hid
  refine ⟨r, utcNow, hr, hrid, hgranted, hdue, ?_⟩
  intro options hpolicy hsensible
  obtain ⟨draw, delay, hlast, hdelay, hadd⟩ := hgranted
  rw [hpolicy] at hdelay
  have hdraw : (⟨.nextDouble, draw⟩ : Entry) ∈ w₁.entriesOf token :=
    (List.mem_filter.mp (hlast.subset List.mem_cons_self)).1
  obtain ⟨h0, h1⟩ := hbacked.draws _ (mem_entriesOf.mp hdraw) draw rfl
  exact cap_lt_of_granted hsensible h0 h1 hdelay hadd hdue

/-! ## An order that waits -/

/-- The default options of the policy. -/
theorem sensible_default : Sensible {} where
  baseDelay := by decide
  maxDelay := by decide
  jitter_nonneg := by norm_num
  jitter_le_one := by norm_num

/-- The failure of the queue, as the row has it. -/
def queueDown : Option Text := some (text "The queue is down.")

/-- The row of the order after its first retry was written. -/
def orderRetried : OutboxMessage := setRetry sqlServer 50000000 queueDown orderRow₁

/-- The row of the order acquired again. -/
def orderRelocked : OutboxMessage := lockRow (text "func-1") 3050000000 orderRetried

/-- The host fails to hand the order over, and writes a retry for five seconds later. -/
theorem retried_run : ∃ acts w₁ w₂, Run sqlServer (Database.Exec sqlServer) (initial 0) acts w₁ ∧
    Step sqlServer (Database.Exec sqlServer) w₁
      (.call 0 ⟨.incrementRetry 1 (text "func-1") 50000000 queueDown, Except.ok true⟩) w₂ ∧
    w₁.rounds[0]?.map (fun r => (r.pipeline, r.message)) = some (queueHost, orderRow₁) ∧
    w₂.rounds.length = 1 ∧ w₂.db.messages.rows = [orderRetried] ∧ w₂.db.now = 0 := by
  have htime : addTime 0 50000000 = .ok 50000000 := by decide
  obtain ⟨k₁, k₂, k₃, hdraw, hclock, hretry⟩ : ∃ k₁ k₂ k₃,
      (queueHost.handleMessageFailureAsync orderRow₁ (text "func-1") queueDown).run =
        .call .nextDouble k₁ ∧
      k₁ (1 / 2) = .call .utcNow k₂ ∧
      k₂ (0 : ℤ) = .call (.incrementRetry 1 (text "func-1") 50000000 queueDown) k₃ :=
    Pipeline.handleMessageFailureAsync_retry queueHost_delay htime
  have h₁ := queueHost_run.snoc (.begin_ 0 .queueMediated) (.begin_ rfl rfl)
  have h₂ := h₁.snoc
    (.call 0 ⟨.publish orderRow₁, Except.error ⟨false, text "The queue is down."⟩⟩)
    (.call rfl rfl rfl (.effect (.publish _ _ _)))
  have h₃ := h₂.snoc (.call 0 ⟨.nextDouble, (1 / 2 : ℚ)⟩)
    (.call rfl rfl hdraw (.effect (.nextDouble _ (by norm_num) (by norm_num))))
  have h₄ := h₃.snoc (.call 0 ⟨.utcNow, (0 : ℤ)⟩)
    (.call rfl rfl hclock (.effect (.utcNow _ _)))
  have hwritten : OutboxStore.incrementRetryAsync sqlServer 1 (text "func-1") 50000000 queueDown
      ⟨[orderRow₁], by simp⟩ = some (true, _) := rfl
  exact ⟨_, _, _, h₄, .call rfl rfl hretry (.effect (.incrementRetry hwritten)), rfl, rfl, rfl, rfl⟩

/-- The order is acquired again as soon as its five seconds are over. -/
theorem backoff_kept_order : ∃ (w₁ : World) (utcNow : DateTimeOffset),
    Granted queueHost orderRow₁ (w₁.entriesOf 0) utcNow 50000000 ∧
      (utcNow : ℚ) + cap {} 0 * (1 - 1 / 5) < 50000000 + 10000 := by
  obtain ⟨acts, w₁, w₂, hrun, hretry, hround, hlength, hrows, hnow⟩ := retried_run
  have htick : Run sqlServer (Database.Exec sqlServer) w₂ [.tick]
      { w₂ with db := { w₂.db with now := 50000000 } } :=
    .cons (.tick (by rw [hnow]; decide)) (.nil _)
  have hlock : OutboxStore.lockNextBatchAsync sqlServer queueHost.options 50000000
      queueHost.options.batchSize queueHost.options.defaultVisibilityTimeout
      queueHost.options.instanceId [] [orderRetried] ⟨[orderRetried], List.nodup_singleton _⟩ =
        some ([orderRelocked], ⟨[orderRelocked], List.nodup_singleton _⟩) := by decide
  have hmessages : w₂.db.messages = ⟨[orderRetried], List.nodup_singleton _⟩ := Table.ext hrows
  rw [← hmessages] at hlock
  have hacquire : Step sqlServer (Database.Exec sqlServer)
      { w₂ with db := { w₂.db with now := 50000000 } } .acquire
      { db := { w₂.db with now := 50000000, messages := ⟨[orderRelocked], List.nodup_singleton _⟩ }
        rounds := w₂.rounds ++ [orderRelocked].map fun m => ⟨queueHost, m, none⟩
        log := w₂.log } := .acquireCold (List.Perm.of_eq hrows.symm) hlock
  have hr' : (w₂.rounds ++ [orderRelocked].map fun m => (⟨queueHost, m, none⟩ : Round))[1]? =
      some ⟨queueHost, orderRelocked, none⟩ := by
    simp [hlength]
  obtain ⟨r, utcNow, hr, -, hgranted, -, hcap⟩ := backoff_kept hrun hretry htick
    (by rintro act hact token entry rfl; simp at hact) hacquire (le_of_eq hlength) hr' rfl
  rw [hr] at hround
  obtain ⟨hpipeline, hmessage⟩ := Prod.mk.inj (Option.some.inj hround)
  rw [hpipeline, hmessage] at hgranted hcap
  exact ⟨_, utcNow, hgranted, hcap {} rfl sensible_default⟩
end World

end OutboxNet
