import OutboxNet.Processor.Conduct

/-!
# Rounds in which every delivery fails

A round that has called the deliverer, and every time in vain, is to use up one retry: it ends with
`IncrementRetryAsync` or `MarkAsDeadLetteredAsync`.  When its attempts cannot be saved, whether it does
depends on the earlier rounds: one success recorded long ago makes it leave the message locked, as if a
new success had been lost.  It leaves it locked, too, when the retry policy throws.
-/

set_option autoImplicit false

namespace OutboxNet

open AttemptStore (States getDeliveryStatesAsync)
open OutboxStore (WriteBack)

variable {dep : Deployment}

/-! ## The environment -/

/-- Whether this may be an answer in a round whose deliveries do not end with a cancellation and whose
write-backs find the lock held. -/
def Call.working : (c : Call) → c.Ans → Bool
  | .deliver _ _ _, .error e => !e.isCanceled
  | .markAsProcessed _ _, .ok b => b
  | .markAsProcessed _ _, .error _ => false
  | .incrementRetry _ _ _ _, .ok b => b
  | .incrementRetry _ _ _ _, .error _ => false
  | .markAsDeadLettered _ _, .ok b => b
  | .markAsDeadLettered _ _, .error _ => false
  | _, _ => true

/-- A write-back finds the lock held. -/
theorem Call.working_writeBack {c : Call} {a : c.Ans} (h : c.working a = true) {kind : WriteBack}
    {messageId : Guid} {lockedBy : Text} (hc : c.writeBack? = some (kind, messageId, lockedBy)) :
    c.answer? a = some true := by
  cases c <;> cases hc <;> cases a <;> cases h <;> rfl

/-- Such a call, made at some later time. -/
def Session.Working (dep : Deployment) (c : Call) (x : Session) (a : c.Ans) (x' : Session) : Prop :=
  (∃ now, x.db.now ≤ now ∧ Database.Exec dep c { x.db with now := now } a x'.db) ∧
    c.working a = true ∧ x'.log = x.log ++ [⟨c, a⟩]

/-- A save of attempts threw `e`. -/
def SaveThrew (log : List Entry) (e : Exn) : Prop :=
  ∃ attempts, (⟨.saveAttempts attempts, Except.error e⟩ : Entry) ∈ log

/-- A delivery returned a failure. -/
def FailedIn (log : List Entry) : Prop :=
  ∃ message subscription deliveryId r,
    (⟨.deliver message subscription deliveryId, Except.ok r⟩ : Entry) ∈ log ∧ r.success = false

/-- A delivery returned a failure, and none a success. -/
def PurelyFailing (log : List Entry) : Prop := FailedIn log ∧ ∀ s, ¬ SucceededIn log s

/-- The result a call returned, if it was a delivery. -/
def Entry.result? : Entry → Option DeliveryResult
  | ⟨.deliver _ _ _, .ok r⟩ => some r
  | _ => none

/-- The exception of a call, if it was a save. -/
def Entry.saveError? : Entry → Option Exn
  | ⟨.saveAttempts _, .error e⟩ => some e
  | _ => none

theorem result?_eq_some {entry : Entry} {r : DeliveryResult} : entry.result? = some r ↔
    ∃ message subscription deliveryId,
      entry = ⟨.deliver message subscription deliveryId, Except.ok r⟩ := by
  constructor
  · intro h
    unfold Entry.result? at h
    split at h
    · cases h
      exact ⟨_, _, _, rfl⟩
    · cases h
  · rintro ⟨message, subscription, deliveryId, rfl⟩
    rfl

theorem saveThrew_iff_mem {log : List Entry} {e : Exn} :
    SaveThrew log e ↔ e ∈ log.filterMap Entry.saveError? := by
  rw [List.mem_filterMap]
  constructor
  · rintro ⟨attempts, hmem⟩
    exact ⟨_, hmem, rfl⟩
  · rintro ⟨entry, hmem, h⟩
    unfold Entry.saveError? at h
    split at h
    · cases h
      exact ⟨_, hmem⟩
    · cases h

/-- A purely failing round is told by the results of its deliveries. -/
theorem purelyFailing_iff {log : List Entry} : PurelyFailing log ↔
    (∃ r ∈ log.filterMap Entry.result?, r.success = false) ∧
      ∀ r ∈ log.filterMap Entry.result?, r.success = false := by
  simp only [List.mem_filterMap, result?_eq_some]
  refine and_congr ⟨?_, ?_⟩ ⟨fun hnone => ?_, fun hall => ?_⟩
  · rintro ⟨message, subscription, deliveryId, r, hmem, hr⟩
    exact ⟨r, ⟨_, hmem, message, subscription, deliveryId, rfl⟩, hr⟩
  · rintro ⟨r, ⟨_, hmem, message, subscription, deliveryId, rfl⟩, hr⟩
    exact ⟨message, subscription, deliveryId, r, hmem, hr⟩
  · rintro r ⟨_, hmem, message, subscription, deliveryId, rfl⟩
    by_contra hr
    exact hnone subscription.id ⟨message, subscription, deliveryId, r, hmem, rfl, by simpa using hr⟩
  · rintro s ⟨message, subscription, deliveryId, r, hmem, -, hr⟩
    rw [hall r ⟨_, hmem, message, subscription, deliveryId, rfl⟩] at hr
    cases hr

instance (log : List Entry) : Decidable (PurelyFailing log) :=
  decidable_of_iff _ purelyFailing_iff.symm

/-- What a call adds to the question put to the retry policy: a random number opens it, the first time
read afterwards completes it. -/
def Entry.ask : Option ℚ × Option DateTimeOffset → Entry → Option ℚ × Option DateTimeOffset
  | _, ⟨.nextDouble, draw⟩ => (some draw, none)
  | (some draw, none), ⟨.utcNow, utcNow⟩ => (some draw, some utcNow)
  | asked, _ => asked

/-- The random number drawn for the retry policy, and the time to which its delay is added. -/
def asked (log : List Entry) : Option ℚ × Option DateTimeOffset :=
  log.foldl Entry.ask (none, none)

theorem asked_append (log : List Entry) (entry : Entry) :
    asked (log ++ [entry]) = Entry.ask (asked log) entry := by
  rw [asked, List.foldl_append]
  rfl

namespace Session.Working

variable {c : Call} {x x' : Session} {a : c.Ans}

/-- A call is written down. -/
theorem logged (h : Session.Working dep c x a x') : (⟨c, a⟩ : Entry) ∈ x'.log := by
  rw [h.2.2]
  exact List.mem_append_right _ List.mem_cons_self

/-- What is in the log stays there. -/
theorem keeps (h : Session.Working dep c x a x') {entry : Entry} (hmem : entry ∈ x.log) :
    entry ∈ x'.log := by
  rw [h.2.2]
  exact List.mem_append_left _ hmem

/-- What is in the log was there or is the call. -/
theorem mem_log (h : Session.Working dep c x a x') {entry : Entry} (hmem : entry ∈ x'.log) :
    entry ∈ x.log ∨ entry = ⟨c, a⟩ := by
  rw [h.2.2] at hmem
  exact (List.mem_append.mp hmem).imp_right List.mem_singleton.mp

/-- Only a save can throw. -/
theorem saveThrew (h : Session.Working dep c x a x')
    (hc : ∀ attempts, c ≠ .saveAttempts attempts) {e : Exn} :
    SaveThrew x'.log e ↔ SaveThrew x.log e := by
  constructor
  · rintro ⟨attempts, hmem⟩
    rcases h.mem_log hmem with hmem | heq
    · exact ⟨attempts, hmem⟩
    · exact absurd (congrArg Entry.call heq).symm (hc attempts)
  · rintro ⟨attempts, hmem⟩
    exact ⟨attempts, h.keeps hmem⟩

/-- Only a delivery can fail or succeed. -/
theorem failedIn (h : Session.Working dep c x a x') (hc : c.isDeliver = false) :
    FailedIn x'.log ↔ FailedIn x.log := by
  simp only [FailedIn, h.2.2, mem_append_entry hc]

theorem purelyFailing (h : Session.Working dep c x a x') (hc : c.isDeliver = false) :
    PurelyFailing x'.log ↔ PurelyFailing x.log := by
  rw [PurelyFailing, PurelyFailing, h.failedIn hc]
  simp only [h.2.2, Job.succeededIn_append hc]

/-- Only a write-back is one. -/
theorem writeBacks (h : Session.Working dep c x a x') (hc : c.writeBack? = none) :
    writeBacks x'.log = writeBacks x.log := by
  rw [h.2.2, writeBacks_append]
  simp [OutboxNet.writeBacks, hc]

/-- Only a save changes the attempts. -/
theorem attempts (h : Session.Working dep c x a x')
    (hc : ∀ attempts, c ≠ .saveAttempts attempts) : x'.db.attempts = x.db.attempts := by
  obtain ⟨⟨now, -, hexec⟩, -⟩ := h
  rcases hexec.change.attempts with heq | ⟨newAttempts, _, hsave, -⟩
  · exact heq
  · exact absurd hsave (hc newAttempts)

/-- Only a write-back changes the messages. -/
theorem messages (h : Session.Working dep c x a x') (hc : c.writeBack? = none) :
    x'.db.messages = x.db.messages := by
  obtain ⟨⟨now, -, hexec⟩, -⟩ := h
  rcases hexec.change.messages with heq | ⟨_, _, _, _, hwrite, -⟩
  · exact heq
  · rw [hc] at hwrite
    cases hwrite

/-- A write-back finds its row and sets it. -/
theorem written (h : Session.Working dep c x a x') {kind : WriteBack} {messageId : Guid}
    {lockedBy : Text} (hc : c.writeBack? = some (kind, messageId, lockedBy)) {row : OutboxMessage}
    (hrow : x.db.messages.find? messageId = some row) :
    ∃ now, x'.db.messages.find? messageId = some (kind.set dep now row) := by
  obtain ⟨⟨now, -, hexec⟩, hanswer, -⟩ := h
  exact ⟨now, hexec.written hc (Call.working_writeBack hanswer hc) hrow⟩

/-- The question grows by the call. -/
theorem asked (h : Session.Working dep c x a x') :
    asked x'.log = Entry.ask (asked x.log) ⟨c, a⟩ := by
  rw [h.2.2, asked_append]

end Session.Working

namespace Job

variable (dep) (job : Job) (row : OutboxMessage)

/-! ## One retry used up -/

/-- The save of the attempts threw a cancellation, or it threw and a success of an earlier round is
recorded for one of the subscriptions. -/
def Loses (attempts₀ : Attempts) (log : List Entry) : Prop :=
  ∃ e, SaveThrew log e ∧ (e.isCanceled = true ∨ ∃ subscription ∈ job.subscriptions,
    AttemptStore.hasSuccess job.message.id subscription.id attempts₀ = true)

instance (attempts₀ : Attempts) (log : List Entry) : Decidable (job.Loses attempts₀ log) :=
  decidable_of_iff (∃ e ∈ log.filterMap Entry.saveError?, e.isCanceled = true ∨
    ∃ subscription ∈ job.subscriptions,
      AttemptStore.hasSuccess job.message.id subscription.id attempts₀ = true)
    (by simp only [Loses, saveThrew_iff_mem])

/-- The retry policy threw: at the number drawn, or when its delay was added to the time read. -/
def BackoffThrew (log : List Entry) : Prop :=
  job.PolicyThrew (.failing (asked log).1 (asked log).2)

/-- The round has made one write-back, the one the retry policy decides on, and the row of its message
shows it: the counter raised and the lock cleared, or dead-lettered. -/
inductive UsesRetry (x : Session) : Prop
  | retry {draw : ℚ} {delay : TimeSpan} {now nextRetryAt : DateTimeOffset} {error : Option Text} :
      asked x.log = (some draw, some now) →
      job.pipeline.retryPolicy.getNextDelay job.message.retryCount draw = .ok (some delay) →
      addTime now delay = .ok nextRetryAt →
      writeBacks x.log = [.incrementRetry job.message.id job.lockedBy nextRetryAt error] →
      x.db.messages.find? job.message.id = some (OutboxStore.setRetry dep nextRetryAt error row) →
      UsesRetry x
  | giveUp {draw : ℚ} :
      asked x.log = (some draw, none) →
      job.pipeline.retryPolicy.getNextDelay job.message.retryCount draw = .ok none →
      writeBacks x.log = [.markAsDeadLettered job.message.id job.lockedBy] →
      x.db.messages.find? job.message.id = some (OutboxStore.setDeadLettered row) →
      UsesRetry x

/-- The row of the message is as it was, and no write-back has been made. -/
def Untouched (x : Session) : Prop :=
  x.db.messages.find? job.message.id = some row ∧ writeBacks x.log = []

/-- What holds of a round in its stage, when it found the attempts `attempts₀`. -/
def Spending (attempts₀ : Attempts) (s : Stage) (x : Session) : Prop :=
  match s with
  | .start => job.Untouched row x ∧ x.db.attempts = attempts₀ ∧
      (∀ e ∈ x.log, e.call.isDeliver = false) ∧ (∀ e, ¬ SaveThrew x.log e) ∧
      asked x.log = (none, none)
  | .delivering states results => job.Untouched row x ∧
      states = getDeliveryStatesAsync job.message.id (job.subscriptions.map (·.id)) attempts₀ ∧
      job.Delivered states results x.log ∧
      (∀ i e, results i = some (.error e) → e.isCanceled = false) ∧ (∀ e, ¬ SaveThrew x.log e) ∧
      asked x.log = (none, none)
  | .settled states results _ => job.Untouched row x ∧ job.Complete states results ∧
      job.Delivered states results x.log ∧
      (PurelyFailing x.log → ¬ job.Loses attempts₀ x.log) ∧ asked x.log = (none, none)
  | .failing draw utcNow => job.Untouched row x ∧
      (PurelyFailing x.log → ¬ job.Loses attempts₀ x.log) ∧ asked x.log = (draw, utcNow)
  | .closed => PurelyFailing x.log →
      (job.UsesRetry dep row x ∧ ¬ job.Loses attempts₀ x.log) ∨
        (job.Untouched row x ∧ (job.Loses attempts₀ x.log ∨ job.BackoffThrew x.log))

variable {dep job row} {attempts₀ : Attempts}

/-- A round that used up a retry was answered by its retry policy. -/
theorem UsesRetry.not_backoffThrew {x : Session} (h : job.UsesRetry dep row x) :
    ¬ job.BackoffThrew x.log := by
  intro hthrew
  rw [BackoffThrew] at hthrew
  cases h with
  | retry hasked hdelay hadd =>
      rw [hasked] at hthrew
      cases hthrew with
      | time hdelay' hadd' =>
          rw [hdelay] at hdelay'
          cases hdelay'
          rw [hadd] at hadd'
          cases hadd'
  | giveUp hasked hdelay =>
      rw [hasked] at hthrew
      cases hthrew with
      | delay hdelay' =>
          rw [hdelay] at hdelay'
          cases hdelay'

/-- A round that made no write-back used up no retry. -/
theorem Untouched.not_usesRetry {x : Session} (h : job.Untouched row x) :
    ¬ job.UsesRetry dep row x := by
  intro huses
  have hnone := h.2
  cases huses with
  | retry _ _ _ hwrites =>
      rw [hwrites] at hnone
      cases hnone
  | giveUp _ _ hwrites =>
      rw [hwrites] at hnone
      cases hnone

/-! ## The step lemma -/

section Step

variable {x x' : Session} {s s' : Stage} {c : Call} {a : c.Ans} {states : States} {results : Results}

theorem Loses.iff (h : Session.Working dep c x a x') (hc : ∀ attempts, c ≠ .saveAttempts attempts) :
    job.Loses attempts₀ x'.log ↔ job.Loses attempts₀ x.log := by
  simp only [Loses, h.saveThrew hc]

/-- A call that neither delivers nor saves does not make a round lose its retry. -/
theorem Loses.kept (h : PurelyFailing x.log → ¬ job.Loses attempts₀ x.log)
    (hexec : Session.Working dep c x a x') (hdeliver : c.isDeliver = false)
    (hsave : ∀ attempts, c ≠ .saveAttempts attempts) :
    PurelyFailing x'.log → ¬ job.Loses attempts₀ x'.log := by
  rw [hexec.purelyFailing hdeliver, Loses.iff hexec hsave]
  exact h

theorem Untouched.keep (h : job.Untouched row x) (hexec : Session.Working dep c x a x')
    (hc : c.writeBack? = none) : job.Untouched row x' :=
  ⟨by rw [hexec.messages hc, h.1], by rw [hexec.writeBacks hc, h.2]⟩

theorem UsesRetry.keep (h : job.UsesRetry dep row x) (hexec : Session.Working dep c x a x')
    (hc : c.writeBack? = none) (hasked : asked x'.log = asked x.log) :
    job.UsesRetry dep row x' := by
  cases h with
  | retry hnow hdelay hadd hwrites hrow =>
      exact .retry (hasked.trans hnow) hdelay hadd (by rw [hexec.writeBacks hc, hwrites])
        (by rw [hexec.messages hc, hrow])
  | giveUp hdraw hdelay hwrites hrow =>
      exact .giveUp (hasked.trans hdraw) hdelay (by rw [hexec.writeBacks hc, hwrites])
        (by rw [hexec.messages hc, hrow])

/-- A delivery in the log that failed has its position judged failed. -/
theorem Delivered.count_failed {log : List Entry} (h : job.Delivered states results log)
    (hfailed : FailedIn log) : 0 < job.count states results .failed := by
  obtain ⟨message, subscription, deliveryId, r, hmem, hr⟩ := hfailed
  obtain ⟨i, hsub, hi⟩ := h.of_mem _ _ _ _ hmem
  obtain ⟨subscription', hsub', hatt, -⟩ := h.mem_log i _ hi
  refine count_pos_iff.mpr ⟨i, (List.getElem?_eq_some_iff.mp hsub').1, ?_⟩
  have hverdict := verdict_of_attempted hatt r
  rw [hr] at hverdict
  rw [verdictAt_eq hsub', hi]
  exact hverdict

/-- Without a success among the deliveries, a success among the verdicts is an earlier one. -/
theorem Delivered.succeeded_before {log : List Entry} (h : job.Delivered states results log)
    (hstates : states = getDeliveryStatesAsync job.message.id (job.subscriptions.map (·.id)) attempts₀)
    (hnone : ∀ s, ¬ SucceededIn log s) : 0 < job.count states results .succeeded ↔
      ∃ subscription ∈ job.subscriptions,
        AttemptStore.hasSuccess job.message.id subscription.id attempts₀ = true := by
  have hstored : ∀ subscription ∈ job.subscriptions, Pipeline.hasSuccess states subscription =
      AttemptStore.hasSuccess job.message.id subscription.id attempts₀ := fun subscription hmem => by
    rw [hstates]
    exact Pipeline.hasSuccess_getDeliveryStatesAsync (List.mem_map_of_mem hmem)
  rw [count_pos_iff]
  constructor
  · rintro ⟨i, hlt, hv⟩
    have hsub := List.getElem?_eq_getElem hlt
    rw [verdictAt_eq hsub] at hv
    refine ⟨_, List.getElem_mem hlt, ?_⟩
    rcases verdict_succeeded hv with hs | ⟨r, hi, hr⟩
    · rw [← hstored _ (List.getElem_mem hlt)]
      exact hs
    · -- a success of this round would be in the log
      obtain ⟨subscription, -, -, hmem⟩ := h.mem_log i _ hi
      exact absurd ⟨_, _, _, _, hmem, rfl, hr⟩ (hnone subscription.id)
  · rintro ⟨subscription, hmem, hs⟩
    obtain ⟨i, hi⟩ := List.mem_iff_getElem?.mp hmem
    refine ⟨i, (List.getElem?_eq_some_iff.mp hi).1, ?_⟩
    rw [verdictAt_eq hi]
    exact verdict_of_hasSuccess (by rw [hstored _ hmem, hs]) _

/-- Calls that neither deliver nor save nor write nor ask keep what holds. -/
theorem Spending.neutral (h : job.Spending dep row attempts₀ s x)
    (hexec : Session.Working dep c x a x') (hdeliver : c.isDeliver = false)
    (hsave : ∀ attempts, c ≠ .saveAttempts attempts) (hwrite : c.writeBack? = none)
    (hasked : asked x'.log = asked x.log) : job.Spending dep row attempts₀ s x' := by
  have hlog := hexec.2.2
  -- what holds in a stage reads the log only for deliveries, saves, write-backs and the question
  cases s with
  | start =>
      obtain ⟨hopen, hattempts, hnone, hthrew, hunasked⟩ := h
      refine ⟨hopen.keep hexec hwrite, (hexec.attempts hsave).trans hattempts, fun e he => ?_,
        fun e => mt (hexec.saveThrew hsave).mp (hthrew e), hasked.trans hunasked⟩
      rcases hexec.mem_log he with he | rfl
      · exact hnone e he
      · exact hdeliver
  | delivering states results =>
      obtain ⟨hopen, hstates, hdelivered, hok, hthrew, hunasked⟩ := h
      exact ⟨hopen.keep hexec hwrite, hstates, hlog ▸ hdelivered.append hdeliver, hok,
        fun e => mt (hexec.saveThrew hsave).mp (hthrew e), hasked.trans hunasked⟩
  | settled states results saved =>
      obtain ⟨hopen, hcomplete, hdelivered, hkept, hunasked⟩ := h
      exact ⟨hopen.keep hexec hwrite, hcomplete, hlog ▸ hdelivered.append hdeliver,
        Loses.kept hkept hexec hdeliver hsave, hasked.trans hunasked⟩
  | failing draw utcNow =>
      obtain ⟨hopen, hkept, hquestion⟩ := h
      exact ⟨hopen.keep hexec hwrite, Loses.kept hkept hexec hdeliver hsave, hasked.trans hquestion⟩
  | closed =>
      intro hfailing
      rw [Loses.iff hexec hsave, BackoffThrew, hasked]
      exact (h ((hexec.purelyFailing hdeliver).mp hfailing)).imp
        (And.imp_left fun h => h.keep hexec hwrite hasked)
        (And.imp_left fun h => h.keep hexec hwrite)

/-- A write-back that ends the round. -/
theorem Untouched.close (h : job.Untouched row x)
    (hexec : Session.Working dep c x a x') {kind : WriteBack}
    (hwrite : c.writeBack? = some (kind, job.message.id, job.lockedBy)) :
    writeBacks x'.log = [c] ∧ ∃ now, x'.db.messages.find? job.message.id = some (kind.set dep now row) := by
  refine ⟨?_, hexec.written hwrite h.1⟩
  rw [hexec.2.2, writeBacks_append, h.2]
  simp [writeBacks, hwrite]

/-- A save that threw is the only one. -/
theorem saveThrew_iff {attempts : List DeliveryAttempt} {e e' : Exn}
    (hexec : Session.Working dep (.saveAttempts attempts) x (Except.error e) x') (hthrew : ∀ e, ¬ SaveThrew x.log e) : SaveThrew x'.log e' ↔ e' = e := by
  constructor
  · rintro ⟨attempts', hmem⟩
    rcases hexec.mem_log hmem with hmem | heq
    · exact absurd ⟨attempts', hmem⟩ (hthrew e')
    · cases heq
      rfl
  · rintro rfl
    exact ⟨attempts, hexec.logged⟩

/-- The step lemma. -/
theorem Spending.trans (h : job.Spending dep row attempts₀ s x) (htrans : job.Trans c s a s')
    (hexec : Session.Working dep c x a x') : job.Spending dep row attempts₀ s' x' := by
  induction htrans with
  | metric => exact h.neutral hexec rfl (fun _ h => by cases h) rfl hexec.asked
  | attemptTime =>
      -- the time of an attempt is read before the retry policy is asked
      refine h.neutral hexec rfl (fun _ h => by cases h) rfl ?_
      rw [hexec.asked, h.2.2.2.2.2]
      rfl
  | noSubscriptions =>
      -- nothing has been delivered
      rintro ⟨hfailed, -⟩
      obtain ⟨_, _, _, _, hmem, -⟩ := (hexec.failedIn rfl).mp hfailed
      cases h.2.2.1 _ hmem
  | read =>
      obtain ⟨hopen, -, hnone, hthrew, hunasked⟩ :=
        h.neutral hexec rfl (fun _ h => by cases h) rfl hexec.asked
      obtain ⟨⟨now, -, hread⟩, -⟩ := hexec
      refine ⟨hopen, ?_, Delivered.none hnone, (fun i e hi => by cases hi), hthrew, hunasked⟩
      rw [← h.2.1]
      exact hread.read.1
  | readThrew =>
      obtain ⟨hopen, -, hnone, hthrew, hunasked⟩ :=
        h.neutral hexec rfl (fun _ h => by cases h) rfl hexec.asked
      split
      · -- nothing has been delivered
        rintro ⟨⟨_, _, _, _, hmem, -⟩, -⟩
        cases hnone _ hmem
      · exact ⟨hopen, fun _ ⟨e, hsave, _⟩ => hthrew e hsave, hunasked⟩
  | @deliver states results i subscription r hsub hi hatt =>
      obtain ⟨hopen, hstates, hdelivered, hok, hthrew, hunasked⟩ := h
      refine ⟨hopen.keep hexec rfl, hstates, hexec.2.2 ▸ hdelivered.deliver hsub hi hatt,
        fun j e hj => ?_, fun e => mt (hexec.saveThrew (fun _ h => by cases h)).mp (hthrew e),
        hexec.asked.trans hunasked⟩
      by_cases hji : j = i
      · subst hji
        rw [Function.update_self] at hj
        cases hj
        simpa [Call.working] using hexec.2.1
      · rw [Function.update_of_ne hji] at hj
        exact hok j e hj
  | save hcomplete _ _ =>
      obtain ⟨hopen, -, hdelivered, -, hthrew, hunasked⟩ := h
      refine ⟨hopen.keep hexec rfl, hcomplete, hexec.2.2 ▸ hdelivered.append rfl, ?_,
        hexec.asked.trans hunasked⟩
      rintro - ⟨e, ⟨attempts, hmem⟩, -⟩
      rcases hexec.mem_log hmem with hmem | heq
      · exact hthrew e ⟨attempts, hmem⟩
      · cases heq
  | @saveThrew states results utcNow attempts e hcomplete _ _ =>
      obtain ⟨hopen, hstates, hdelivered, -, hthrew, hunasked⟩ := h
      have hloses : PurelyFailing x'.log → (job.Loses attempts₀ x'.log ↔
          e.isCanceled = true ∨ 0 < job.count states results .succeeded) := by
        intro hfailing
        have hnone := ((hexec.purelyFailing rfl).mp hfailing).2
        simp only [Loses, saveThrew_iff hexec hthrew, exists_eq_left]
        rw [hdelivered.succeeded_before hstates hnone]
      unfold afterFailedSave
      split
      · next hleft =>
          exact fun hfailing => .inr ⟨hopen.keep hexec rfl, .inl ((hloses hfailing).mpr hleft)⟩
      · next hkept =>
          exact ⟨hopen.keep hexec rfl, hcomplete, hexec.2.2 ▸ hdelivered.append rfl,
            fun hfailing => mt (hloses hfailing).mp hkept, hexec.asked.trans hunasked⟩
  | nothingToSave hcomplete hnone _ ih =>
      obtain ⟨hopen, -, hdelivered, -, hthrew, hunasked⟩ := h
      exact ih ⟨hopen, hcomplete, hdelivered, fun _ ⟨e, hsave, _⟩ => hthrew e hsave, hunasked⟩ hexec
  | faulted _ _ ih =>
      obtain ⟨hopen, -, -, -, hthrew, hunasked⟩ := h
      exact ih ⟨hopen, fun _ ⟨e, hsave, _⟩ => hthrew e hsave, hunasked⟩ hexec
  | processed hall =>
      rintro ⟨hfailed, -⟩
      obtain ⟨i, hlt, hv⟩ := count_pos_iff.mp (h.2.2.1.count_failed ((hexec.failedIn rfl).mp hfailed))
      rw [hall i hlt] at hv
      cases hv
  | deadLetter hzero _ =>
      rintro ⟨hfailed, -⟩
      have hpos := h.2.2.1.count_failed ((hexec.failedIn rfl).mp hfailed)
      rw [hzero] at hpos
      cases hpos
  | retry _ _ ih => exact ih ⟨h.1, h.2.2.2.1, h.2.2.2.2⟩ hexec
  | draw =>
      obtain ⟨hopen, hkept, -⟩ := h
      exact ⟨hopen.keep hexec rfl, Loses.kept hkept hexec rfl (fun _ h => by cases h), hexec.asked⟩
  | clock =>
      obtain ⟨hopen, hkept, hquestion⟩ := h
      refine ⟨hopen.keep hexec rfl, Loses.kept hkept hexec rfl (fun _ h => by cases h), ?_⟩
      rw [hexec.asked, hquestion]
      rfl
  | incrementRetry hdelay hadd =>
      obtain ⟨hopen, hkept, hquestion⟩ := h
      obtain ⟨hwrites, now, hrow⟩ := hopen.close hexec rfl
      intro hfailing
      exact .inl ⟨.retry (hexec.asked.trans hquestion) hdelay hadd hwrites hrow,
        Loses.kept hkept hexec rfl (fun _ h => by cases h) hfailing⟩
  | giveUp hdelay =>
      obtain ⟨hopen, hkept, hquestion⟩ := h
      obtain ⟨hwrites, now, hrow⟩ := hopen.close hexec rfl
      intro hfailing
      exact .inl ⟨.giveUp (hexec.asked.trans hquestion) hdelay hwrites hrow,
        Loses.kept hkept hexec rfl (fun _ h => by cases h) hfailing⟩

end Step

/-- The run lemma. -/
theorem spending_run {loop : LoopSchedule} {x₀ x : Session} {r : Except Exn Unit}
    (hloop : ¬ loop.cancels) (hrow : x₀.db.messages.find? job.message.id = some row)
    (hlog : x₀.log = []) (hrun : Prog.Exec (Session.Working dep)
      (job.pipeline.processSingleMessageAsync loop job.message job.lockedBy job.subscriptions).run
      x₀ r x) : job.Spending dep row x₀.db.attempts .closed x := by
  have hstart : job.Spending dep row x₀.db.attempts .start x₀ := by
    refine ⟨⟨hrow, by rw [hlog]; rfl⟩, rfl, ?_, ?_, by rw [hlog]; rfl⟩
    · rw [hlog]
      exact List.forall_mem_nil _
    · rintro e ⟨attempts, hmem⟩
      rw [hlog] at hmem
      cases hmem
  obtain ⟨s, hfinished, hspending⟩ : ∃ s, job.Finished loop r s ∧
      job.Spending dep row x₀.db.attempts s x := by
    refine Prog.Conforms.exec (J := job.Spending dep row x₀.db.attempts) ?_
      (processSingleMessageAsync_conforms job loop) hrun hstart
    exact fun _ _ _ _ _ _ h htrans hexec => h.trans htrans hexec
  cases hfinished with
  | closed => exact hspending
  | @policyThrew _ s hthrew =>
      -- the question was put, and the round wrote nothing
      intro _
      cases s with
      | failing draw utcNow =>
          obtain ⟨hopen, -, hquestion⟩ := hspending
          refine .inr ⟨hopen, .inr ?_⟩
          rw [BackoffThrew, hquestion]
          exact hthrew
      | _ => cases hthrew
  | loopThrew hthrew =>
      obtain ⟨-, -, -, hok, -⟩ := hspending
      rcases hthrew with ⟨⟨i, hi⟩ | ⟨hoptions, -⟩, hcanceled⟩ | hcancels
      · rw [hok i _ hi] at hcanceled
        cases hcanceled
      · -- a degree of parallelism out of range is no cancellation
        unfold Pipeline.parallelOptions at hoptions
        split at hoptions <;> cases hoptions
        cases hcanceled
      · exact absurd hcancels hloop

/-- **When a purely failing round uses up one retry.** Take a round whose token is not cancelled, none of
whose deliveries ends with a cancellation, and whose write-backs find the lock held.  It makes the
write-back the retry policy decides on, unless the save of its attempts threw a cancellation, or threw when
a success of an earlier round is recorded, or the retry policy threw. -/
theorem failing_round_uses_retry {loop : LoopSchedule} {x₀ x : Session} {r : Except Exn Unit}
    (hloop : ¬ loop.cancels) (hrow : x₀.db.messages.find? job.message.id = some row)
    (hlog : x₀.log = []) (hrun : Prog.Exec (Session.Working dep)
      (job.pipeline.processSingleMessageAsync loop job.message job.lockedBy job.subscriptions).run
      x₀ r x) (hfailing : PurelyFailing x.log) :
    job.UsesRetry dep row x ↔
      ¬ job.Loses x₀.db.attempts x.log ∧ ¬ job.BackoffThrew x.log := by
  rcases spending_run hloop hrow hlog hrun hfailing with ⟨huses, hkept⟩ | ⟨hopen, hlost⟩
  · exact iff_of_true huses ⟨hkept, huses.not_backoffThrew⟩
  · exact iff_of_false hopen.not_usesRetry fun hkept => hlost.elim hkept.1 hkept.2

end Job

/-! ## A retry that is not used up -/

/-- A delivery that is answered with an error status. -/
def serverError : DeliveryResult := ⟨false, some 500, none, some (text "HTTP 500"), 5⟩

/-- The exception of a save that lost a deadlock. -/
def deadlock : Exn := ⟨false, text "Transaction was deadlocked on lock resources."⟩

/-- The success of an earlier round for subscription 7. -/
def earlierSuccess : DeliveryAttempt :=
  Pipeline.deliveryAttempt invoiceRow (invoiceSubscription 7 (some [])) 70 1 ⟨true, some 200, none, none, 5⟩ 0

/-- A locked message for two subscriptions, the first of which has its success. -/
def halfDone : Session :=
  ⟨⟨⟨[invoiceRow], List.nodup_singleton _⟩, ⟨[earlierSuccess], List.nodup_singleton _⟩, 0⟩, []⟩

/-- The round of the message. -/
def halfDoneJob : Job where
  pipeline := fixedDelayPipeline
  message := invoiceRow
  lockedBy := text "worker-1"
  subscriptions := [invoiceSubscription 7 (some []), invoiceSubscription 8 (some [])]

/-- Its calls. -/
def halfDoneRound : Prog Call Call.Ans (Except Exn Unit) :=
  (halfDoneJob.pipeline.processSingleMessageAsync ⟨false, []⟩ halfDoneJob.message halfDoneJob.lockedBy
    halfDoneJob.subscriptions).run

/-- Where it is at its end, with these replies, if they let it work. -/
def halfDoneAfter (replies : List Reply) : Session :=
  Session.reached (Deployment.binary .directSql) (fun _ c a => c.working a) halfDoneRound replies halfDone

/-- The delivery to the second subscription fails, the save of its attempt throws, and that is the end. -/
def leftLocked : Session := halfDoneAfter
  [.done, .returned (.ok serverError), .time 50000000, .failed deadlock]

/-- The attempt is saved, and the retry policy asked. -/
def retried : Session := halfDoneAfter
  [.done, .returned (.ok serverError), .time 50000000, .done, .drew 0, .time 60000000, .done, .done]

theorem halfDone_run {replies : List Reply}
    (h : Session.rehearse (Deployment.binary .directSql) (fun _ c a => c.working a) halfDoneRound replies
      halfDone = some (.ok ())) :
    Prog.Exec (Session.Working (Deployment.binary .directSql)) halfDoneRound halfDone (.ok ())
      (halfDoneAfter replies) :=
  Session.exec_of_rehearsal
    (fun _ x _ _ hexec hworking => ⟨⟨x.db.now, le_rfl, hexec.1⟩, hworking, hexec.2⟩) h

theorem leftLocked_run : Prog.Exec (Session.Working (Deployment.binary .directSql)) halfDoneRound
    halfDone (.ok ()) leftLocked :=
  halfDone_run (by decide +kernel)

theorem retried_run : Prog.Exec (Session.Working (Deployment.binary .directSql)) halfDoneRound halfDone
    (.ok ()) retried :=
  halfDone_run (by decide +kernel)

/-- **A failed round that uses up no retry**: it returns, and its message is as it was, locked. -/
theorem failing_round_left_locked : Prog.Exec (Session.Working (Deployment.binary .directSql))
      halfDoneRound halfDone (.ok ()) leftLocked ∧
    PurelyFailing leftLocked.log ∧
    leftLocked.db.messages.find? invoiceRow.id = some invoiceRow ∧
    invoiceRow.status = .processing ∧ writeBacks leftLocked.log = [] ∧
    ¬ halfDoneJob.UsesRetry (Deployment.binary .directSql) invoiceRow leftLocked := by
  have huntouched : halfDoneJob.Untouched invoiceRow leftLocked :=
    ⟨by decide +kernel, List.isEmpty_iff.mp (by decide +kernel)⟩
  exact ⟨leftLocked_run, by decide +kernel, huntouched.1, rfl, huntouched.2,
    huntouched.not_usesRetry⟩

/-- The condition in these rounds: the save threw and a success is recorded, or it did not throw. -/
theorem failing_round_uses_retry_halfDone :
    (halfDoneJob.UsesRetry (Deployment.binary .directSql) invoiceRow leftLocked ↔
      ¬ halfDoneJob.Loses halfDone.db.attempts leftLocked.log ∧
        ¬ halfDoneJob.BackoffThrew leftLocked.log) ∧
    halfDoneJob.Loses halfDone.db.attempts leftLocked.log ∧
    halfDoneJob.UsesRetry (Deployment.binary .directSql) invoiceRow retried := by
  have hloop : ¬ LoopSchedule.cancels ⟨false, []⟩ := by rintro (h | h) <;> cases h
  have hasked : asked retried.log = (some 0, some 60000000) := by decide +kernel
  refine ⟨Job.failing_round_uses_retry hloop rfl rfl leftLocked_run (by decide +kernel),
    by decide +kernel,
    (Job.failing_round_uses_retry hloop rfl rfl retried_run (by decide +kernel)).mpr
      ⟨by decide +kernel, fun hthrew => ?_⟩⟩
  rw [Job.BackoffThrew, hasked] at hthrew
  cases hthrew with
  | time hdelay hadd =>
      cases hdelay
      cases hadd

end OutboxNet
