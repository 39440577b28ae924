import OutboxNet.Processor.DeliveryId
import OutboxNet.Processor.Host

/-!
# Rehearsed rounds and batches

A round whose environment is given in advance: one reply for each call, saying whether the call does what it
is for, what the deliverer, the queue, the clock and the random numbers answer, and which calls of the
database throw.  What such a round comes to can be computed, and it is a run of the round
(`Session.exec_of_rehearsal`).  So it is with the handling of a batch.
-/

set_option autoImplicit false

namespace OutboxNet

open AttemptStore (getDeliveryStatesAsync saveAttemptsAsync)
open OutboxStore (markAsProcessedAsync incrementRetryAsync markAsDeadLetteredAsync
  releaseExpiredLocksAsync lockNextBatchAsync tryLockByIdAsync)

variable {dep : Deployment}

/-- How a call is to be answered: it does what it is for, it is one of the calls whose answer comes from
outside, or it is a call of the database that throws, in vain or after its statement was carried out. -/
inductive Reply : Type
  | done
  | returned (r : Except Exn DeliveryResult)
  | published (r : Except Exn Unit)
  | time (t : DateTimeOffset)
  | drew (draw : ℚ)
  | failed (e : Exn)
  | answerLost (e : Exn)

/-- A hash that tells small ids and attempt numbers apart: every sixteenth byte of its input. -/
def Hash.sparse : Hash where
  hashData input := (List.range 32).map fun i => input.getD (16 * i) 0
  length_hashData _ := by rw [List.length_map, List.length_range]

namespace Database

/-- A call that does what it is for. -/
def effect? (dep : Deployment) : (c : Call) → Reply → Database → Option (c.Ans × Database)
  | .getDeliveryStates messageId subscriptionIds, .done, d =>
      some (.ok (getDeliveryStatesAsync messageId subscriptionIds d.attempts), d)
  | .saveAttempts newAttempts, .done, d =>
      (saveAttemptsAsync dep ⟨fun _ => 0, d.now⟩ d.messages newAttempts d.attempts).map fun attempts =>
        (.ok (), { d with attempts := attempts })
  | .markAsProcessed messageId lockedBy, .done, d =>
      let x := markAsProcessedAsync dep d.now messageId lockedBy d.messages
      some (.ok x.1, { d with messages := x.2 })
  | .incrementRetry messageId lockedBy nextRetryAt error, .done, d =>
      (incrementRetryAsync dep messageId lockedBy nextRetryAt error d.messages).map fun x =>
        (.ok x.1, { d with messages := x.2 })
  | .markAsDeadLettered messageId lockedBy, .done, d =>
      let x := markAsDeadLetteredAsync dep messageId lockedBy d.messages
      some (.ok x.1, { d with messages := x.2 })
  | .deliver _ _ _, .returned r, d => some (r, d)
  | .publish _, .published r, d => some (r, d)
  | .utcNow, .time t, d => some (t, d)
  | .nextDouble, .drew draw, d => if 0 ≤ draw ∧ draw < 1 then some (draw, d) else none
  | .addMetric _ _, .done, d => some ((), d)
  | _, _, _ => none

/-- A call with the faults of the database. -/
def exec? (dep : Deployment) (c : Call) (q : Reply) (d : Database) : Option (c.Ans × Database) :=
  match q with
  | .failed e => (c.threw e).map fun a => (a, d)
  | .answerLost e => (c.threw e).bind fun a => (effect? dep c .done d).map fun x => (a, x.2)
  | q => effect? dep c q d

theorem Effect.of_effect? {c : Call} {q : Reply} {d d' : Database} {a : c.Ans}
    (h : effect? dep c q d = some (a, d')) : Effect dep c d a d' := by
  unfold effect? at h
  split at h
  · cases h
    exact .getDeliveryStates _ _ _
  · obtain ⟨attempts, hsave, heq⟩ := Option.map_eq_some_iff.mp h
    cases heq
    exact .saveAttempts hsave
  · cases h
    exact .markAsProcessed _ _ _
  · obtain ⟨x, hretry, heq⟩ := Option.map_eq_some_iff.mp h
    cases heq
    exact .incrementRetry hretry
  · cases h
    exact .markAsDeadLettered _ _ _
  · cases h
    exact .deliver _ _ _ _ _
  · cases h
    exact .publish _ _ _
  · cases h
    exact .utcNow _ _
  · split at h
    · next hdraw =>
        cases h
        exact .nextDouble _ hdraw.1 hdraw.2
    · cases h
  · cases h
    exact .addMetric _ _ _
  · cases h

theorem Exec.of_exec? {c : Call} {q : Reply} {d d' : Database} {a : c.Ans}
    (h : exec? dep c q d = some (a, d')) : Exec dep c d a d' := by
  unfold exec? at h
  split at h
  · obtain ⟨a', hthrew, heq⟩ := Option.map_eq_some_iff.mp h
    cases heq
    exact .failed hthrew
  · obtain ⟨a', hthrew, hrest⟩ := Option.bind_eq_some_iff.mp h
    obtain ⟨x, heffect, heq⟩ := Option.map_eq_some_iff.mp hrest
    cases heq
    exact .answerLost hthrew (.of_effect? heffect)
  · exact .effect (.of_effect? h)

end Database

namespace Session

/-- A call of a round, if its answer passes a test. -/
def serve (answer : (c : Call) → Reply → Database → Option (c.Ans × Database))
    (test : List Entry → (c : Call) → c.Ans → Bool) (c : Call) (q : Reply) (x : Session) :
    Option (c.Ans × Session) :=
  match answer c q x.db with
  | some (a, db) => if test x.log c a then some (a, ⟨db, x.log ++ [⟨c, a⟩]⟩) else none
  | none => none

variable {answer : (c : Call) → Reply → Database → Option (c.Ans × Database)}
  {test : List Entry → (c : Call) → c.Ans → Bool} {c : Call} {q : Reply} {x x' : Session} {a : c.Ans}

theorem serve_spec (h : serve answer test c q x = some (a, x')) :
    answer c q x.db = some (a, x'.db) ∧ test x.log c a = true ∧ x'.log = x.log ++ [⟨c, a⟩] := by
  unfold serve at h
  split at h
  · next a' db hanswer =>
      split at h
      · next htest =>
          cases h
          exact ⟨hanswer, htest, rfl⟩
      · cases h
  · cases h

/-- What a round returns when it is replayed, with the faults of the database, and every answer is tested. -/
def rehearse (dep : Deployment) (test : List Entry → (c : Call) → c.Ans → Bool) {α : Type}
    (p : Prog Call Call.Ans α) (replies : List Reply) (x : Session) : Option α :=
  (p.replay (serve (Database.exec? dep) test) replies x).map Prod.fst

/-- Where it ends. -/
def reached (dep : Deployment) (test : List Entry → (c : Call) → c.Ans → Bool) {α : Type}
    (p : Prog Call Call.Ans α) (replies : List Reply) (x : Session) : Session :=
  p.reached (serve (Database.exec? dep) test) replies x

/-- **A rehearsed round is a run of the round**, of calls that have whatever the test makes sure of. -/
theorem exec_of_rehearsal {α : Type} {exec : (c : Call) → Session → c.Ans → Session → Prop}
    {p : Prog Call Call.Ans α} {replies : List Reply} {r : α}
    (htest : ∀ c x a x', Session.Exec dep c x a x' → test x.log c a = true → exec c x a x')
    (h : rehearse dep test p replies x = some r) :
    Prog.Exec exec p x r (reached dep test p replies x) := by
  refine Prog.Exec.reached (fun c q x a x' hserve => ?_) h
  obtain ⟨hanswer, hpassed, hlog⟩ := serve_spec hserve
  exact htest c x a x' ⟨.of_exec? hanswer, hlog⟩ hpassed

end Session

/-! ## Batches -/

/-- How a call of a batch is to be answered. -/
inductive BatchReply : Type
  | done
  | time (t : DateTimeOffset)
  | handled (reply : Reply)
  | failed (e : Exn)

namespace Host

/-- A call of a batch, made while no time passes: the reader answers `ask`, and the rows are scanned in the
order of the table. -/
def exec? (dep : Deployment) (options : OutboxOptions) (ask : OutboxMessage → List WebhookSubscription) :
    (c : BatchCall) → BatchReply → Host → Option (c.Ans × Host)
  | .utcNow, .time t, h => some (t, h)
  | .readLastLockRelease, .done, h => some (h.lastLockRelease, h)
  | .compareExchangeLastLockRelease value comparand, .done, h =>
      some (h.lastLockRelease, if h.lastLockRelease = comparand then { h with lastLockRelease := value } else h)
  | .releaseExpiredLocks, .done, h =>
      some (.ok (), h.withMessages (releaseExpiredLocksAsync h.db.now h.db.messages))
  | .lockNextBatch batchSize visibilityTimeout lockedBy skipIds, .done, h =>
      (lockNextBatchAsync dep options h.db.now batchSize visibilityTimeout lockedBy (skipIds.getD [])
        h.db.messages.rows h.db.messages).map fun x => (.ok x.1, h.withMessages x.2)
  | .tryLockById messageId visibilityTimeout lockedBy, .done, h =>
      (tryLockByIdAsync dep h.db.now messageId visibilityTimeout lockedBy h.db.messages).map fun x =>
        (.ok x.1, h.withMessages x.2)
  | .getForMessage message, .done, h => some (.ok (ask message), h)
  | .recordBatch _, .done, h => some ((), h)
  | .handling _ c, .handled reply, h =>
      (Database.exec? dep c reply h.db).map fun x => (x.1, { h with db := x.2 })
  | c, .failed e, h => (c.threw e).map fun a => (a, h)
  | _, _, _ => none

variable {options : OutboxOptions} {reader : SubscriptionReader}
  {ask : OutboxMessage → List WebhookSubscription}

theorem Exec.of_exec? (hask : ∀ message, reader.Returns dep message (ask message)) {c : BatchCall}
    {q : BatchReply} {h h' : Host} {a : c.Ans} (hexec : exec? dep options ask c q h = some (a, h')) :
    Exec dep options reader c h a h' := by
  unfold exec? at hexec
  split at hexec
  · cases hexec
    exact .effect le_rfl (.utcNow _ _)
  · cases hexec
    exact .effect le_rfl (.readLastLockRelease _)
  · cases hexec
    exact .effect le_rfl (.compareExchange _ _ _)
  · cases hexec
    exact .effect le_rfl (.releaseExpiredLocks _)
  · obtain ⟨x, hlock, heq⟩ := Option.map_eq_some_iff.mp hexec
    cases heq
    exact .effect le_rfl (.lockNextBatch (List.Perm.refl _) hlock)
  · obtain ⟨x, hlock, heq⟩ := Option.map_eq_some_iff.mp hexec
    cases heq
    exact .effect le_rfl (.tryLockById hlock)
  · cases hexec
    exact .effect le_rfl (.getForMessage (hask _))
  · cases hexec
    exact .effect le_rfl (.recordBatch _ _)
  · obtain ⟨x, hcall, heq⟩ := Option.map_eq_some_iff.mp hexec
    cases heq
    exact exec_handling_iff.mpr ⟨_, _, le_rfl, .of_exec? hcall, rfl⟩
  · obtain ⟨a', hthrew, heq⟩ := Option.map_eq_some_iff.mp hexec
    cases heq
    exact .failed le_rfl hthrew
  · cases hexec

end Host

namespace BatchSession

/-- A call of a batch, written down. -/
def serve (dep : Deployment) (options : OutboxOptions) (ask : OutboxMessage → List WebhookSubscription)
    (c : BatchCall) (q : BatchReply) (x : BatchSession) : Option (c.Ans × BatchSession) :=
  (Host.exec? dep options ask c q x.host).map fun y => (y.1, ⟨y.2, x.log ++ [⟨c, y.1⟩]⟩)

/-- **A rehearsed batch is a run of the batch.** -/
theorem exec_of_rehearsal {options : OutboxOptions} {reader : SubscriptionReader}
    {ask : OutboxMessage → List WebhookSubscription} {α : Type} {p : Prog BatchCall BatchCall.Ans α}
    {replies : List BatchReply} {x : BatchSession} {r : α}
    (hask : ∀ message, reader.Returns dep message (ask message))
    (h : (p.replay (serve dep options ask) replies x).map Prod.fst = some r) :
    Prog.Exec (BatchSession.Exec dep options reader) p x r (p.reached (serve dep options ask) replies x) := by
  refine Prog.Exec.reached (fun c q x a x' hserve => ?_) h
  obtain ⟨y, hexec, heq⟩ := Option.map_eq_some_iff.mp hserve
  cases heq
  exact ⟨Host.Exec.of_exec? hask hexec, rfl⟩

end BatchSession

end OutboxNet
