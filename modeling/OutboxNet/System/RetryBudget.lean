import Mathlib.Tactic.NormNum
import OutboxNet.System.Rehearsal

/-!
# The retry budget

A round decides between another retry and the dead-letter status by the retry count its message had
when it was acquired, which may be out of date by the time the decision is carried out.  It is never
ahead of the row: the count of a row only grows, by one for each `IncrementRetryAsync` that is carried
out.  So no message is given up before its budget is used, whatever workers crash, lose their locks or
take those of others.

A call whose answer is lost has thrown although it may have been carried out.  The count is therefore
that of the calls that returned true, and of some of those that threw.
-/

set_option autoImplicit false

namespace OutboxNet

open OutboxStore (WriteBack heldBy lockRow)
open AttemptStore (States)

variable {dep : Deployment}

/-! ## What the calls of a round do to the retry count -/

/-- Whether a call is an `IncrementRetryAsync` on message `k`. -/
def Call.isRetryOf (k : Guid) : Call → Bool
  | .incrementRetry messageId _ _ _ => messageId = k
  | _ => false

theorem Call.isRetryOf_iff {k : Guid} {c : Call} : c.isRetryOf k = true ↔
    ∃ lockedBy nextRetryAt error, c = .incrementRetry k lockedBy nextRetryAt error := by
  cases c with
  | incrementRetry messageId lockedBy nextRetryAt error =>
      simp only [isRetryOf, decide_eq_true_eq]
      constructor
      · rintro rfl
        exact ⟨_, _, _, rfl⟩
      · rintro ⟨_, _, _, h⟩
        cases h
        rfl
  | _ => simp [isRetryOf]

namespace OutboxStore

/-- What a write-back does to the row it is addressed to, and its answer. -/
theorem WriteBack.run_row {kind : WriteBack} {now : DateTimeOffset} {k : Guid} {lockedBy : Text}
    {t t' : Messages} {b : Bool} {m : OutboxMessage}
    (h : kind.run dep now k lockedBy t = some (b, t')) (hm : t.find? k = some m) :
    b = heldBy dep k lockedBy m ∧
      t'.find? k = some (if heldBy dep k lockedBy m then kind.set dep now m else m) := by
  obtain ⟨hb, hf, rfl⟩ := WriteBack.run_eq h
  refine ⟨?_, by rw [Table.find?_update, hm, Option.map_some]⟩
  rw [hb, Bool.eq_iff_iff, List.any_eq_true]
  constructor
  · rintro ⟨m', hm', hheld⟩
    have hid : m'.id = k := by
      simp only [heldBy, Bool.and_eq_true, decide_eq_true_eq] at hheld
      exact hheld.1
    rwa [← t.eq_of_key_eq hm' (Table.find?_mem hm) (hid.trans (Table.find?_key hm).symm)]
  · exact fun hheld => ⟨m, Table.find?_mem hm, hheld⟩

/-- A write-back other than a retry leaves the count alone. -/
theorem WriteBack.set_retryCount (dep : Deployment) (kind : WriteBack) (now : DateTimeOffset)
    (m : OutboxMessage) :
    (kind.set dep now m).retryCount = m.retryCount ∨
      ((∃ nextRetryAt error, kind = .retry nextRetryAt error) ∧
        (kind.set dep now m).retryCount = m.retryCount + 1) := by
  cases kind with
  | retry nextRetryAt error => exact .inr ⟨⟨_, _, rfl⟩, rfl⟩
  | _ => exact .inl rfl

end OutboxStore

/-- An `IncrementRetryAsync` adds one when it returns true, nothing when it returns false, and at most
one when it throws. -/
theorem Database.Exec.retried {c : Call} {d d' : Database} {a : c.Ans}
    (h : Database.Exec dep c d a d') {k : Guid} (hc : c.isRetryOf k = true) {m m' : OutboxMessage}
    (hm : d.messages.find? k = some m) (hm' : d'.messages.find? k = some m') :
    (c.answer? a = some true ∧ m'.retryCount = m.retryCount + 1) ∨
    (c.answer? a = some false ∧ m'.retryCount = m.retryCount) ∨
    (c.answer? a = none ∧
      (m'.retryCount = m.retryCount ∨ m'.retryCount = m.retryCount + 1)) := by
  obtain ⟨lockedBy, nextRetryAt, error, rfl⟩ := Call.isRetryOf_iff.mp hc
  -- an answer tells whether the row was held; without one the statement may have run or not
  cases hans : Call.answer? _ a with
  | some b =>
      have hback : (Call.incrementRetry k lockedBy nextRetryAt error).writeBack? =
          some (.retry nextRetryAt error, k, lockedBy) := rfl
      have hrun := h.writeBack hback hans
      obtain ⟨hb, hfind⟩ := WriteBack.run_row hrun hm
      rw [hm'] at hfind
      cases hheld : heldBy dep k lockedBy m with
      | true =>
          rw [hheld, if_pos rfl] at hfind
          rw [Option.some.inj hfind]
          exact .inl ⟨by rw [hb, hheld], rfl⟩
      | false =>
          rw [hheld, if_neg Bool.false_ne_true] at hfind
          rw [Option.some.inj hfind]
          exact .inr (.inl ⟨by rw [hb, hheld], rfl⟩)
  | none =>
      refine .inr (.inr ⟨rfl, ?_⟩)
      rcases h.change with _ | ⟨hsave, _⟩ | ⟨hc', hrun⟩
      · rw [hm] at hm'
        exact .inl (by rw [Option.some.inj hm'])
      · cases hsave
      · cases hc'
        obtain ⟨-, hfind⟩ := WriteBack.run_row hrun hm
        rw [hm'] at hfind
        rw [Option.some.inj hfind]
        split
        · exact .inr rfl
        · exact .inl rfl

namespace World

/-! ## Counting retries -/

/-- The `IncrementRetryAsync` calls on message `k` that returned true. -/
def retriesReturned (w : World) (k : Guid) : ℕ :=
  w.log.countP fun x => x.2.call.isRetryOf k && x.2.call.answer? x.2.answer = some true

/-- The `IncrementRetryAsync` calls on message `k` that threw. -/
def retriesThrew (w : World) (k : Guid) : ℕ :=
  w.log.countP fun x => x.2.call.isRetryOf k && (x.2.call.answer? x.2.answer).isNone

/-- A step that is no retry of `k` counts none. -/
theorem Step.no_retry {exec : Answering} {w w' : World} {act : Action}
    (h : Step dep exec w act w') {k : Guid}
    (hact : ∀ token entry, act = .call token entry → entry.call.isRetryOf k = false) :
    w'.retriesReturned k = w.retriesReturned k ∧ w'.retriesThrew k = w.retriesThrew k := by
  cases h with
  | @call token r work c k' a db hr hwork hprog hexec =>
      have hc : c.isRetryOf k = false := hact token ⟨c, a⟩ rfl
      simp [retriesReturned, retriesThrew, afterCall, hc]
  | _ => exact ⟨rfl, rfl⟩

/-- A step that is no retry of `k` leaves the count of its row alone. -/
theorem Step.retryCount {exec : Answering} (hexec : Sound dep exec) {w w' : World} {act : Action}
    (h : Step dep exec w act w') {k : Guid}
    (hact : ∀ token entry, act = .call token entry → entry.call.isRetryOf k = false)
    {m m' : OutboxMessage} (hm : w.db.messages.find? k = some m)
    (hm' : w'.db.messages.find? k = some m') : m'.retryCount = m.retryCount := by
  have hrow := h.row hexec k
  rw [hm, hm'] at hrow
  cases hrow with
  | same => rfl
  | lock => rfl
  | @writeBack token entry kind messageId lockedBy m hcall hc hheld =>
      rcases WriteBack.set_retryCount dep kind w.db.now m with hsame | ⟨⟨nextRetryAt, error, rfl⟩, -⟩
      · exact hsame
      · -- the call is a retry of the row's message
        have hid : m.id = messageId := by
          simp only [heldBy, Bool.and_eq_true, decide_eq_true_eq] at hheld
          exact hheld.1
        have hk := hid.symm.trans (Table.find?_key hm)
        have hfalse := hact token entry hcall
        obtain ⟨c, a⟩ := entry
        cases c <;> cases hc
        simp [Call.isRetryOf, hk] at hfalse
  | release => rfl

/-- **What a step can do to the retry count of a message**, and what it adds to the counts of calls. -/
inductive RetryStep (w w' : World) (k : Guid) (act : Action) (m m' : OutboxMessage) : Prop
  | same :
      m'.retryCount = m.retryCount → w'.retriesReturned k = w.retriesReturned k →
      w.retriesThrew k ≤ w'.retriesThrew k → RetryStep w w' k act m m'
  | retried {token : ℕ} {entry : Entry} :
      act = .call token entry → entry.call.isRetryOf k = true →
      m'.retryCount = m.retryCount + 1 →
      w'.retriesReturned k + w'.retriesThrew k = w.retriesReturned k + w.retriesThrew k + 1 →
      w'.retriesReturned k ≤ w.retriesReturned k + 1 →
      w.retriesReturned k ≤ w'.retriesReturned k → RetryStep w w' k act m m'

theorem Step.retry {w w' : World} {act : Action} (h : Step dep (Database.Exec dep) w act w')
    {k : Guid} {m m' : OutboxMessage} (hm : w.db.messages.find? k = some m)
    (hm' : w'.db.messages.find? k = some m') : RetryStep w w' k act m m' := by
  by_cases hact : ∀ token entry, act = .call token entry → entry.call.isRetryOf k = false
  · obtain ⟨hreturned, hthrew⟩ := h.no_retry hact
    exact .same (h.retryCount sound_exec hact hm hm') hreturned hthrew.ge
  · push Not at hact
    obtain ⟨token, entry, rfl, hc⟩ := hact
    rw [ne_eq, Bool.not_eq_false] at hc
    obtain ⟨hexec, hlog⟩ := h.called
    have hreturned : w'.retriesReturned k = w.retriesReturned k +
        if entry.call.answer? entry.answer = some true then 1 else 0 := by
      simp [retriesReturned, hlog, List.countP_append, List.countP_singleton, hc]
    have hthrew : w'.retriesThrew k = w.retriesThrew k +
        if (entry.call.answer? entry.answer).isNone then 1 else 0 := by
      simp [retriesThrew, hlog, List.countP_append, List.countP_singleton, hc]
    rcases hexec.retried hc hm hm' with ⟨ha, hcount⟩ | ⟨ha, hcount⟩ | ⟨ha, hcount | hcount⟩ <;>
      simp only [ha, if_true, Option.isNone_some, Option.isNone_none, reduceCtorEq, if_false,
        Option.some.injEq, Bool.false_eq_true] at hreturned hthrew
    · exact .retried rfl hc hcount (by omega) (by omega) (by omega)
    · exact .same hcount hreturned (by omega)
    · exact .same hcount hreturned (by omega)
    · exact .retried rfl hc hcount (by omega) (by omega) (by omega)

/-! ## The invariant -/

/-- A round that has read the states has its read in the log. -/
def ReadLogged (w : World) (token : ℕ) (job : Job) : Stage → Prop
  | .delivering states _ => (token, (⟨.getDeliveryStates job.message.id (job.subscriptions.map (·.id)),
      Except.ok states⟩ : Entry)) ∈ w.log
  | .settled states _ _ => (token, (⟨.getDeliveryStates job.message.id (job.subscriptions.map (·.id)),
      Except.ok states⟩ : Entry)) ∈ w.log
  | _ => True

theorem ReadLogged.mono {w w' : World} {token : ℕ} {job : Job} {s : Stage}
    (h : w.ReadLogged token job s) (hk : ∀ x ∈ w.log, x ∈ w'.log) : w'.ReadLogged token job s := by
  cases s with
  | delivering states results => exact hk _ h
  | settled states results saved => exact hk _ h
  | _ => trivial

theorem ReadLogged.trans {w w' : World} {token : ℕ} {job : Job} {c : Call} {s s' : Stage} {a : c.Ans}
    (htrans : job.Trans c s a s') (hlog : w'.log = w.log ++ [(token, ⟨c, a⟩)])
    (h : w.ReadLogged token job s) : w'.ReadLogged token job s' := by
  have hk : ∀ x ∈ w.log, x ∈ w'.log := fun x hx => hlog ▸ List.mem_append_left _ hx
  induction htrans with
  | metric => exact h.mono hk
  | attemptTime => exact hk _ h
  | read =>
      show _ ∈ w'.log
      rw [hlog]
      exact List.mem_append_right _ List.mem_cons_self
  | readThrew => split <;> trivial
  | deliver => exact hk _ h
  | save => exact hk _ h
  | saveThrew =>
      unfold Job.afterFailedSave
      split
      · trivial
      · exact hk _ h
  | nothingToSave _ _ _ ih => exact ih hlog h
  | faulted _ _ ih => exact ih hlog trivial
  | retry _ _ ih => exact ih hlog trivial
  | _ => trivial

/-- What every run keeps about retry counts. -/
structure Budgeted (w : World) (stages : ℕ → Stage) : Prop where
  counted : ∀ k m, w.db.messages.find? k = some m → (w.retriesReturned k : ℤ) ≤ m.retryCount ∧
    m.retryCount ≤ w.retriesReturned k + w.retriesThrew k
  known : ∀ x ∈ w.log, ∀ k, x.2.call.isRetryOf k = true →
    ∃ token a, w.acquisition token = some a ∧ a.2.id = k
  snapshot : ∀ token p a m, w.acquisition token = some (p, a) →
    w.db.messages.find? a.id = some m → a.retryCount ≤ m.retryCount
  reads : ForRounds (ReadLogged w) w stages
  queued : ∀ (token : ℕ) (r : Round) (work : Work), w.rounds[token]? = some r →
    r.work = some work → work.plan = .queueMediated →
    Pipeline.Queueing r.pipeline r.message r.pipeline.options.instanceId work.prog

namespace Budgeted

variable {w w' : World} {stages stages' : ℕ → Stage} {act : Action}

/-- A message that was not there before has no retries. -/
theorem counted_step (h : w.Budgeted stages) (hs : Step dep (Database.Exec dep) w act w') {k : Guid}
    {m' : OutboxMessage} (hm' : w'.db.messages.find? k = some m') :
    (w'.retriesReturned k : ℤ) ≤ m'.retryCount ∧
      m'.retryCount ≤ w'.retriesReturned k + w'.retriesThrew k := by
  cases hm : w.db.messages.find? k with
  | some m =>
      have hcount := h.counted k m hm
      cases hs.retry hm hm' with
      | same hretry hreturned hthrew => omega
      | retried _ _ hretry hsum hle hge => omega
  | none =>
      have hrow := hs.row sound_exec k
      rw [hm, hm'] at hrow
      cases hrow with
      | publish hact hpub hfresh =>
          subst hact
          -- nobody has retried a message that was not there
          have hnone : ∀ x ∈ w.log, x.2.call.isRetryOf k = false := by
            intro x hx
            rw [Bool.eq_false_iff]
            intro hc
            obtain ⟨token, a, ha, hid⟩ := h.known x hx k hc
            obtain ⟨r, hr, rfl⟩ := Option.map_eq_some_iff.mp ha
            exact hfresh r (List.mem_of_getElem? hr) hid
          have hlog : w'.log = w.log := by
            cases hs
            rfl
          have hreturned : w'.retriesReturned k = 0 := by
            rw [retriesReturned, hlog, List.countP_eq_zero]
            intro x hx
            simp [hnone x hx]
          rw [(OutboxStore.publishedRow_fields hpub).2.2.1, hreturned]
          omega

theorem known_step (h : w.Budgeted stages) (hs : Step dep (Database.Exec dep) w act w')
    (hst : StageStep w stages act stages') {x : ℕ × Entry} (hx : x ∈ w'.log) {k : Guid}
    (hc : x.2.call.isRetryOf k = true) : ∃ token a, w'.acquisition token = some a ∧ a.2.id = k := by
  have hold : x ∈ w.log → ∃ token a, w'.acquisition token = some a ∧ a.2.id = k := by
    intro hx
    obtain ⟨token, a, ha, hid⟩ := h.known x hx k hc
    exact ⟨token, a, hs.acquisition_mono ha, hid⟩
  cases hs with
  | @call token r work c k' a db hr hwork hprog hexec =>
      rcases List.mem_append.mp hx with hx | hx
      · exact hold hx
      · rw [List.mem_singleton] at hx
        subst hx
        have hs : Step dep (Database.Exec dep) w (.call token ⟨c, a⟩) _ :=
          .call hr hwork hprog hexec
        obtain ⟨lockedBy, nextRetryAt, error, hcall⟩ := Call.isRetryOf_iff.mp hc
        have hback : c.writeBack? = some (.retry nextRetryAt error, k, lockedBy) := by
          rw [show c = _ from hcall]
          rfl
        exact ⟨token, _, hs.acquisition_mono (acquisition_eq_some hr),
          (hst.addressed hr hback).1.symm⟩
  | _ => exact hold hx

/-- The count a round has seen is not ahead of the row's. -/
theorem snapshot_step (h : w.Budgeted stages) (hs : Step dep (Database.Exec dep) w act w')
    {token : ℕ} {p : Pipeline} {a m' : OutboxMessage} (ha : w'.acquisition token = some (p, a))
    (hm' : w'.db.messages.find? a.id = some m') : a.retryCount ≤ m'.retryCount := by
  by_cases hlt : token < w.rounds.length
  · -- an earlier acquisition: its row has been there since
    have hold := acquisition_eq_some (List.getElem?_eq_getElem hlt)
    have ha' := hs.acquisition_mono hold
    rw [ha, Option.some.injEq] at ha'
    rw [← ha'] at hold
    cases hm : w.db.messages.find? a.id with
    | some m =>
        have hle := h.snapshot token p a m hold hm
        cases hs.retry hm hm' with
        | same hretry => omega
        | retried _ _ hretry => omega
    | none =>
        have hrow := hs.row sound_exec a.id
        rw [hm, hm'] at hrow
        cases hrow with
        | publish _ _ hfresh =>
            obtain ⟨r, hr, hpair⟩ := Option.map_eq_some_iff.mp hold
            cases hpair
            exact absurd rfl (hfresh r (List.mem_of_getElem? hr))
  · -- the acquisition of this step returns the row as it leaves it
    obtain ⟨r, hr, -⟩ := Option.map_eq_some_iff.mp ha
    obtain rfl := hs.acquire_of_new hr hlt
    rcases hs.acquire_row a.id with ⟨-, honly⟩ | ⟨m, p', until_, token', -, -, -, -, hfind, -, hx, honly⟩
    · exact absurd (honly token (p, a) ha rfl) hlt
    · obtain rfl := honly token (p, a) (not_lt.mp hlt) ha rfl
      rw [ha] at hx
      cases hx
      rw [hm'] at hfind
      rw [Option.some.inj hfind]

/-- The step lemma. -/
theorem step (h : w.Budgeted stages) (hs : Step dep (Database.Exec dep) w act w')
    (hst : StageStep w stages act stages') : w'.Budgeted stages' where
  counted _ _ hm' := h.counted_step hs hm'
  known _ hx _ hc := h.known_step hs hst hx hc
  snapshot _ _ _ _ ha hm' := h.snapshot_step hs ha hm'
  reads := by
    refine h.reads.step hs hst (fun _ _ _ _ _ _ _ => trivial) ?_ ?_
    · intro token r subscriptions s _ _ hread
      exact hread.mono fun _ => hs.log_mono
    · rintro token entry r subscriptions s s' rfl _ htrans hread
      exact hread.trans htrans hs.called.2
  queued token r work hr hwork := by
    refine hs.work (Ψ := fun p m work => work.plan = .queueMediated →
      Pipeline.Queueing p m p.options.instanceId work.prog) ?_ ?_ h.queued hr hwork
    · rintro token plan - r rfl
      exact Pipeline.processQueuedMessageAsync_queueing
    · intro p m plan c k a hprog hplan
      obtain ⟨_, -, hk⟩ := hprog hplan a
      exact hk

end Budgeted

theorem budgeted_run {now : DateTimeOffset} {acts : List Action} {w : World}
    (hrun : Run dep (Database.Exec dep) (initial now) acts w) :
    ∃ stages, Coupled w stages ∧ w.Budgeted stages := by
  refine run_invariant Budgeted (fun _ => True) ?_ hrun (fun _ _ => trivial)
    ⟨fun _ => .start, Coupled.initial now _, ?_⟩
  · intro w stages act w' stages' _ _ h hs _ hst
    exact h.step hs hst
  · constructor
    · rintro k m ⟨⟩
    · rintro x ⟨⟩
    · intro token p a m ha
      simp [acquisition, initial] at ha
    · exact ForRounds.initial _ now _
    · intro token r work hr
      simp [initial] at hr

end World

/-! ## The reasons for a dead-letter -/

/-- A round dead-letters its message when its retry policy grants no further delay, or when the states
it has read show an exhausted subscription. -/
theorem Job.Trans.deadLetter_reason {job : Job} {c : Call} {s s' : Stage} {a : c.Ans}
    (h : job.Trans c s a s') {messageId : Guid} {lockedBy : Text}
    (hc : c = .markAsDeadLettered messageId lockedBy) :
    (∃ draw, job.pipeline.retryPolicy.getNextDelay job.message.retryCount draw = .ok none) ∨
    ∃ states results, 0 < job.count states results .exhausted ∧
      (s = .delivering states results ∨ ∃ saved, s = .settled states results saved) := by
  induction h with
  | deadLetter _ hexhausted => exact .inr ⟨_, _, hexhausted, .inr ⟨_, rfl⟩⟩
  | giveUp hnone => exact .inl ⟨_, hnone⟩
  | nothingToSave _ _ _ ih =>
      rcases ih hc with hnone | ⟨states, results, hexhausted, hs | ⟨saved, hs⟩⟩
      · exact .inl hnone
      · cases hs
      · cases hs
        exact .inr ⟨_, _, hexhausted, .inl rfl⟩
  | faulted _ _ ih =>
      rcases ih hc with hnone | ⟨states, results, -, hs | ⟨saved, hs⟩⟩
      · exact .inl hnone
      · cases hs
      · cases hs
  | retry _ _ ih =>
      rcases ih hc with hnone | ⟨states, results, -, hs | ⟨saved, hs⟩⟩
      · exact .inl hnone
      · cases hs
      · cases hs
  | _ => cases hc

namespace World

/-- The worker of round `token` has read the states of message `k` and found a subscription of its list
with more than its `MaxRetries` attempts, none of them successful. -/
def SawExhausted (w : World) (token : ℕ) (k : Guid) : Prop :=
  ∃ r subscriptions loop prog states subscription, w.rounds[token]? = some r ∧
    r.work = some ⟨.direct subscriptions loop, prog⟩ ∧
    (token, (⟨.getDeliveryStates k (subscriptions.map (·.id)), Except.ok states⟩ : Entry)) ∈ w.log ∧
    subscription ∈ subscriptions ∧ Pipeline.hasSuccess states subscription = false ∧
    subscription.maxRetries < Pipeline.attemptCount states subscription

/-- A round that makes the dead-letter call has a reason for it. -/
theorem Budgeted.deadLetter_reason {w : World} {stages stages' : ℕ → Stage} {token : ℕ} {r : Round}
    {lockedBy : Text} {a : Except Exn Bool} {w' : World} (h : w.Budgeted stages)
    (hs : Step dep (Database.Exec dep) w
      (.call token ⟨.markAsDeadLettered r.message.id lockedBy, a⟩) w')
    (hst : StageStep w stages (.call token ⟨.markAsDeadLettered r.message.id lockedBy, a⟩) stages')
    (hr : w.rounds[token]? = some r) :
    (∃ draw, r.pipeline.retryPolicy.getNextDelay r.message.retryCount draw = .ok none) ∨
      w.SawExhausted token r.message.id := by
  -- in direct delivery the stage has the reason, in queue-mediated mode the program
  cases hst with
  | @call _ _ r' subscriptions loop prog s' hr' hwork htrans =>
      rw [hr] at hr'
      cases hr'
      rcases htrans.deadLetter_reason rfl with hnone | ⟨states, results, hexhausted, hstage⟩
      · exact .inl hnone
      · have hread := h.reads token r subscriptions loop prog hr hwork
        obtain ⟨i, hi, hverdict⟩ := Job.count_pos_iff.mp hexhausted
        rw [Job.verdictAt_eq (List.getElem?_eq_getElem hi)] at hverdict
        obtain ⟨hno, hmore⟩ := Job.verdict_exhausted hverdict
        refine .inr ⟨r, subscriptions, loop, prog, states, _, hr, hwork, ?_, List.getElem_mem hi,
          hno, hmore⟩
        rcases hstage with hstage | ⟨saved, hstage⟩ <;> rw [hstage] at hread <;> exact hread
  | @queued _ _ r' prog hr' hwork _ =>
      rw [hr] at hr'
      cases hr'
      have hprog := h.queued token r _ hr hwork rfl
      cases hs with
      | call hr₀ hwork₀ hprog₀ _ =>
          rw [hr] at hr₀
          cases hr₀
          rw [hwork] at hwork₀
          cases hwork₀
          subst hprog₀
          obtain ⟨_, hcall, -⟩ := hprog a
          cases hcall with
          | giveUp hnone => exact .inl ⟨_, hnone⟩
  | other hnone => cases hnone

/-! ## The theorem -/

/-- **No premature dead-lettering.** Take any run of any number of workers, in either mode and with any
faults of the database.  The retry count of a message is at least the number of `IncrementRetryAsync`
calls on it that returned true, and at most that number and the number of those that threw.  No other
step touches it.  A step that moves a message to `DeadLettered` is the `MarkAsDeadLetteredAsync` of a
round; if that round has the exponential policy, the retry count is at least its `MaxRetries`, or the
round has itself read the states of an exhausted subscription. -/
theorem no_premature_dead_letter {now : DateTimeOffset} {acts : List Action} {w : World}
    (hrun : Run dep (Database.Exec dep) (initial now) acts w) :
    (∀ k m, w.db.messages.find? k = some m → (w.retriesReturned k : ℤ) ≤ m.retryCount ∧
      m.retryCount ≤ w.retriesReturned k + w.retriesThrew k) ∧
    ∀ act w', Step dep (Database.Exec dep) w act w' → ∀ k m m', w.db.messages.find? k = some m →
      w'.db.messages.find? k = some m' →
      (m'.retryCount = m.retryCount ∨ (m'.retryCount = m.retryCount + 1 ∧
        ∃ token entry, act = .call token entry ∧ entry.call.isRetryOf k = true)) ∧
      (m.status ≠ .deadLettered → m'.status = .deadLettered → ∃ token lockedBy a r,
        act = .call token ⟨.markAsDeadLettered k lockedBy, a⟩ ∧ w.rounds[token]? = some r ∧
        ∀ options, r.pipeline.retryPolicy = ExponentialBackoff.policy options →
          options.maxRetries ≤ m.retryCount ∨ w.SawExhausted token k) := by
  obtain ⟨stages, hcoupled, h⟩ := budgeted_run hrun
  refine ⟨h.counted, ?_⟩
  intro act w' hs k m m' hm hm'
  obtain ⟨stages', -, hst⟩ := hcoupled.step hs
  constructor
  · cases hs.retry hm hm' with
    | same hretry => exact .inl hretry
    | retried hact hc hretry => exact .inr ⟨hretry, _, _, hact, hc⟩
  intro hbefore hafter
  have hrow := hs.row sound_exec k
  rw [hm, hm'] at hrow
  cases hrow with
  | same => exact absurd hafter hbefore
  | lock => cases hafter
  | release => cases hafter
  | @writeBack token entry kind messageId lockedBy m hcall hc hheld =>
      subst hcall
      obtain ⟨r, hr⟩ : ∃ r, w.rounds[token]? = some r := by
        cases hs with
        | call hr _ _ _ => exact ⟨_, hr⟩
      obtain ⟨rfl, -⟩ := hst.addressed hr hc
      have hid : k = r.message.id := by
        simp only [heldBy, Bool.and_eq_true, decide_eq_true_eq] at hheld
        rw [← hheld.1, Table.find?_key hm]
      subst hid
      obtain ⟨c, a⟩ := entry
      cases c <;> cases hc <;> cases hafter
      refine ⟨token, lockedBy, a, r, rfl, hr, ?_⟩
      intro options hpolicy
      refine (h.deadLetter_reason hs hst hr).imp_left ?_
      rintro ⟨draw, hnone⟩
      rw [hpolicy] at hnone
      -- the policy has decided by the count of the acquisition, which is not ahead of the row's
      have hle := h.snapshot token _ _ m (acquisition_eq_some hr) hm
      rcases ExponentialBackoff.getNextDelay_cases options r.message.retryCount draw with
        ⟨hmax, -⟩ | ⟨-, ⟨delay, hsome⟩ | herror⟩
      · omega
      · cases hsome.symm.trans hnone
      · cases herror.symm.trans hnone

end World

/-! ## A retry whose answer is lost -/

/-- What the failure path does when the policy grants a delay. -/
theorem Pipeline.handleMessageFailureAsync_retry {p : Pipeline} {message : OutboxMessage}
    {lockedBy : Text} {error : Option Text} {draw : ℚ} {delay : TimeSpan}
    {utcNow nextRetryAt : DateTimeOffset}
    (hdelay : p.retryPolicy.getNextDelay message.retryCount draw = .ok (some delay))
    (htime : addTime utcNow delay = .ok nextRetryAt) :
    ∃ k₁ k₂ k₃, (p.handleMessageFailureAsync message lockedBy error).run = .call .nextDouble k₁ ∧
      k₁ draw = .call .utcNow k₂ ∧
      k₂ utcNow = .call (.incrementRetry message.id lockedBy nextRetryAt error) k₃ := by
  rw [Pipeline.handleMessageFailureAsync_run]
  apply Exists.intro
  apply Exists.intro
  apply Exists.intro
  refine ⟨rfl, ?policy, ?time⟩
  case policy => rw [hdelay]
  case time =>
    rw [htime]
    rfl

namespace World

/-- A host in queue-mediated mode with the default back-off. -/
def queueHost : Pipeline where
  options := { instanceId := text "func-1", processingMode := .queueMediated }
  retryPolicy := ExponentialBackoff.policy {}
  sha256 := functionsHost.sha256

theorem queueHost_delay :
    queueHost.retryPolicy.getNextDelay orderRow₁.retryCount (1 / 2) = .ok (some 50000000) := by
  norm_num [queueHost, orderRow₁, orderRow, OutboxStore.directRow, lockRow,
    ExponentialBackoff.policy, ExponentialBackoff.getNextDelay, ExponentialBackoff.shouldRetry,
    ExponentialBackoff.finalDelayMs, ExponentialBackoff.cappedDelayMs, totalMilliseconds,
    fromMilliseconds, TimeSpan.max, ticksPerSecond]
  rfl

/-- The host has acquired the message of the order. -/
theorem queueHost_run : Run sqlServer (Database.Exec sqlServer) (initial 0) [.publish, .acquire]
    { acquired with rounds := [⟨queueHost, orderRow₁, none⟩] } :=
  .cons (publish_order _) (.cons (acquire_order _ (p := queueHost) rfl) (.nil _))

/-- A host in queue-mediated mode that gives up after two retries. -/
def wearyHost : Pipeline :=
  { queueHost with retryPolicy := ExponentialBackoff.policy { baseDelay := 0, maxRetries := 2 } }

/-- The queue is down.  The first retry is written, and the connection breaks before the answer arrives;
the second one is answered; then the host is about to give up. -/
def unansweredCues : List Cue :=
  [.publish 0 (orderArgs 1), .acquireHot wearyHost 1] ++
  Cue.round 0 .queueMediated [.published (.error ⟨false, text "The queue is down."⟩), .drew (1 / 2),
    .time 10, .answerLost ⟨false, text "Connection lost."⟩] ++
  [.acquireHot wearyHost 1] ++
  Cue.round 1 .queueMediated [.published (.error ⟨false, text "The queue is down."⟩), .drew (1 / 2),
    .time 20, .done] ++
  [.acquireHot wearyHost 1] ++
  Cue.round 2 .queueMediated [.published (.error ⟨false, text "The queue is down."⟩), .drew (1 / 2)]

def unanswered : World :=
  rehearsed sqlServer (Database.exec? sqlServer) (fun _ _ _ => true) (initial 0) unansweredCues

theorem unanswered_run : ∃ acts, Run sqlServer (Database.Exec sqlServer) (initial 0) acts unanswered := by
  have hrehearses : rehearses sqlServer (Database.exec? sqlServer) (fun _ _ _ => true) (initial 0)
      unansweredCues = true := by decide +kernel
  exact steps_of_rehearsal hrehearses (fun _ _ _ _ _ => Database.Exec.of_exec?) fun _ _ _ hs _ => hs

theorem unanswered_policy : ∀ r ∈ unanswered.rounds,
    r.pipeline.retryPolicy = ExponentialBackoff.policy { baseDelay := 0, maxRetries := 2 } := by
  have hthree : unansweredCues.filterMap Cue.host? = [wearyHost, wearyHost, wearyHost] := rfl
  have hhosts : ∀ p ∈ unansweredCues.filterMap Cue.host?,
      p.retryPolicy = ExponentialBackoff.policy { baseDelay := 0, maxRetries := 2 } := by
    rw [hthree]
    simp [wearyHost]
  exact hosts_of_rehearsal hhosts (List.forall_mem_nil _)

theorem unanswered_order :
    ∃ m, unanswered.db.messages.find? 1 = some m ∧ m.retryCount = 2 ∧ m.status = .processing := by
  have hrow : (unanswered.db.messages.find? 1).map (fun m => (m.retryCount, m.status)) =
      some (2, .processing) := by decide +kernel
  obtain ⟨m, hm, heq⟩ := Option.map_eq_some_iff.mp hrow
  exact ⟨m, hm, congrArg Prod.fst heq, congrArg Prod.snd heq⟩

/-- The retry count of a row is not the number of retries that returned true. -/
theorem retry_without_answer : ¬ ∀ (acts : List Action) (w : World) (m : OutboxMessage),
    Run sqlServer (Database.Exec sqlServer) (initial 0) acts w →
    (∀ r ∈ w.rounds, ∃ options, r.pipeline.retryPolicy = ExponentialBackoff.policy options) →
    w.db.messages.find? 1 = some m → m.retryCount = w.retriesReturned 1 := by
  intro h
  obtain ⟨acts, hrun⟩ := unanswered_run
  obtain ⟨m, hm, hcount, -⟩ := unanswered_order
  have heq := h acts unanswered m hrun (fun r hr => ⟨_, unanswered_policy r hr⟩) hm
  have hreturned : unanswered.retriesReturned 1 = 1 := by decide +kernel
  rw [hcount, hreturned] at heq
  exact absurd heq (by decide)

/-- In that run the count is within the bounds, and the host gives up with no more than its two retries
used. -/
theorem no_premature_dead_letter_unanswered :
    (∃ m, unanswered.db.messages.find? 1 = some m ∧ m.retryCount = 2 ∧
      (unanswered.retriesReturned 1 : ℤ) ≤ m.retryCount ∧
      m.retryCount ≤ unanswered.retriesReturned 1 + unanswered.retriesThrew 1) ∧
    unanswered.retriesReturned 1 = 1 ∧ unanswered.retriesThrew 1 = 1 ∧
    ∃ act w', Step sqlServer (Database.Exec sqlServer) unanswered act w' ∧
      (w'.db.messages.find? 1).map (·.status) = some .deadLettered ∧
      ∃ token lockedBy a r, act = .call token ⟨.markAsDeadLettered 1 lockedBy, a⟩ ∧
        unanswered.rounds[token]? = some r ∧
        ∀ options, r.pipeline.retryPolicy = ExponentialBackoff.policy options →
          options.maxRetries ≤ 2 ∨ unanswered.SawExhausted token 1 := by
  obtain ⟨acts, hrun⟩ := unanswered_run
  obtain ⟨m, hm, hcount, hprocessing⟩ := unanswered_order
  have hbudget := no_premature_dead_letter hrun
  have hnext : (unanswered.act? sqlServer (Database.exec? sqlServer) (.call 2 .done)).map
      (fun x => (x.2.db.messages.find? 1).map (·.status)) = some (some .deadLettered) := by
    decide +kernel
  obtain ⟨⟨act, w'⟩, hact, hstatus⟩ := Option.map_eq_some_iff.mp hnext
  obtain ⟨m', hm', hdead⟩ := Option.map_eq_some_iff.mp hstatus
  have hs : Step sqlServer (Database.Exec sqlServer) unanswered act w' :=
    .of_act? (fun _ _ _ _ _ => Database.Exec.of_exec?) hact
  have hgiven := (hbudget.2 act w' hs 1 m m' hm hm').2 (by rw [hprocessing]; decide) hdead
  rw [hcount] at hgiven
  exact ⟨⟨m, hm, hcount, hbudget.1 1 m hm⟩, by decide +kernel, by decide +kernel, act, w', hs, hstatus,
    hgiven⟩

end World

end OutboxNet
