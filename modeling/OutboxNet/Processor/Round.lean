import Mathlib.Data.List.Perm.Basic
import Mathlib.Logic.Function.Basic
import OutboxNet.Processor.Pipeline

/-!
# The protocol of a round

What a round does to the outside world, without its control flow: it reads the delivery states once,
calls the deliverer at most once for each position of its list of subscriptions, saves the attempts
once when every position has a verdict, and ends with at most one write-back, which the verdicts
decide.  `Job.Trans` is this protocol as a transition relation on the stages of a round.
`Processor/Conformance.lean` shows that `ProcessSingleMessageAsync` conforms to it.
-/

set_option autoImplicit false

namespace OutboxNet

open AttemptStore (States)
open Pipeline (attemptCount hasSuccess nextAttempt deliveryAttempt)

/-- A state read from the table says that a subscription has succeeded exactly when a success is
stored for it. -/
theorem Pipeline.hasSuccess_getDeliveryStatesAsync {messageId : Guid} {subscriptionIds : List Guid}
    {attempts : Attempts} {subscription : WebhookSubscription}
    (hmem : subscription.id ∈ subscriptionIds) :
    Pipeline.hasSuccess (AttemptStore.getDeliveryStatesAsync messageId subscriptionIds attempts)
      subscription = AttemptStore.hasSuccess messageId subscription.id attempts := by
  rw [← AttemptStore.tryGetValue_hasSuccess hmem, Pipeline.hasSuccess]
  cases AttemptStore.tryGetValue _ subscription.id <;> rfl

/-- The count in the states read is the number of attempts stored. -/
theorem Pipeline.attemptCount_getDeliveryStatesAsync {messageId : Guid} {subscriptionIds : List Guid}
    {attempts : Attempts} {subscription : WebhookSubscription}
    (hmem : subscription.id ∈ subscriptionIds) (hnodup : subscriptionIds.Nodup) :
    Pipeline.attemptCount (AttemptStore.getDeliveryStatesAsync messageId subscriptionIds attempts)
      subscription = (AttemptStore.attemptsOf messageId subscription.id attempts).length := by
  rw [Pipeline.attemptCount, AttemptStore.tryGetValue_getDeliveryStatesAsync, if_pos hmem,
    AttemptStore.group]
  split
  · next h =>
      rw [List.isEmpty_iff] at h
      simp [h]
  · simp [List.count_eq_one_of_mem hnodup hmem]

/-- What a round works on: the message as it was acquired, and the subscriptions it is to go to. -/
structure Job where
  pipeline : Pipeline
  message : OutboxMessage
  lockedBy : Text
  subscriptions : List WebhookSubscription

/-- Whether the token of the loop is cancelled at some time. -/
def LoopSchedule.cancels (loop : LoopSchedule) : Prop :=
  loop.canceled = true ∨ .cancel ∈ loop.choices

/-- What the deliverer did for each position of the list of subscriptions, so far. -/
abbrev Results := ℕ → Option (Except Exn DeliveryResult)

/-- No delivery yet. -/
def Results.none : Results := fun _ => Option.none

/-- How a round counts one subscription. -/
inductive Verdict : Type
  | succeeded | failed | exhausted
deriving DecidableEq, Repr

/-- Where a round is: before the states are read; delivering; with every verdict settled and the
attempts saved, or not; asking the retry policy, with the random number drawn and the time read so far;
or past its last store call. -/
inductive Stage : Type
  | start
  | delivering (states : States) (results : Results)
  | settled (states : States) (results : Results) (saved : Bool)
  | failing (draw : Option ℚ) (utcNow : Option DateTimeOffset)
  | closed

namespace Job

variable (job : Job)

/-- Whether a subscription is to be delivered to, given the states read. -/
def attempted (states : States) (subscription : WebhookSubscription) : Bool :=
  !hasSuccess states subscription && attemptCount states subscription ≤ subscription.maxRetries

/-- The verdict on one subscription: an earlier success, an exhausted budget, or the result. -/
def verdict (states : States) (result : Option (Except Exn DeliveryResult))
    (subscription : WebhookSubscription) : Option Verdict :=
  if hasSuccess states subscription then some .succeeded
  else if attemptCount states subscription > subscription.maxRetries then some .exhausted
  else
    match result with
    | some (.ok r) => some (if r.success then .succeeded else .failed)
    | _ => none

/-- The verdict on a position of the list. -/
def verdictAt (states : States) (results : Results) (i : ℕ) : Option Verdict :=
  (job.subscriptions[i]?).bind (verdict states (results i))

/-- Every position has a verdict. -/
def Complete (states : States) (results : Results) : Prop :=
  ∀ i < job.subscriptions.length, (job.verdictAt states results i).isSome = true

/-- The id of the next delivery to a subscription. -/
def deliveryId (states : States) (subscription : WebhookSubscription) : Guid :=
  deriveDeliveryId job.pipeline.sha256 job.message.id subscription.id
    (nextAttempt states subscription)

/-- The attempt recorded for one position, made at time `utcNow`. -/
def attemptAt (states : States) (results : Results) (utcNow : ℕ → DateTimeOffset) (i : ℕ) :
    Option DeliveryAttempt :=
  match job.subscriptions[i]?, results i with
  | some subscription, some (.ok r) =>
      some (deliveryAttempt job.message subscription (job.deliveryId states subscription)
        (nextAttempt states subscription) r (utcNow i))
  | _, _ => none

/-- The attempts of a round, in the order of the subscriptions. -/
def newAttempts (states : States) (results : Results) (utcNow : ℕ → DateTimeOffset) :
    List DeliveryAttempt :=
  (List.range job.subscriptions.length).filterMap (job.attemptAt states results utcNow)

/-- The number of positions with a verdict. -/
def count (states : States) (results : Results) (v : Verdict) : ℕ :=
  (List.range job.subscriptions.length).countP fun i => job.verdictAt states results i = some v

/-- Whether the loop over the subscriptions may have thrown: a delivery did, or the loop was not
started because of its degree of parallelism. -/
def Faulted (results : Results) : Prop :=
  (∃ i e, results i = some (.error e)) ∨
    ((∃ e, Pipeline.parallelOptions job.pipeline.options.maxConcurrentSubscriptionDeliveries =
      .error e) ∧ results = Results.none)

/-- The loop over the subscriptions may have thrown `e`: a delivery ended with it, or the loop was not
started because of its degree of parallelism. -/
def Threw (results : Results) (e : Exn) : Prop :=
  (∃ i, results i = some (.error e)) ∨
    (Pipeline.parallelOptions job.pipeline.options.maxConcurrentSubscriptionDeliveries = .error e ∧
      results = Results.none)

/-- The stage after the attempts could not be saved: a round with a success among its verdicts leaves
the message to its lock. -/
def afterFailedSave (states : States) (results : Results) (e : Exn) : Stage :=
  if e.isCanceled = true ∨ 0 < job.count states results .succeeded then .closed
  else .settled states results false

/-- **The protocol of a round**: in a stage a call may be made, and its answer leads to a stage. -/
inductive Trans : (c : Call) → Stage → c.Ans → Stage → Prop
  | metric {metric : Metric} {eventType : Text} {s : Stage} {a : Unit} :
      Trans (.addMetric metric eventType) s a s
  | noSubscriptions {a : Except Exn Bool} :
      job.subscriptions = [] →
      Trans (.markAsProcessed job.message.id job.lockedBy) .start a .closed
  | read {states : States} :
      job.subscriptions ≠ [] →
      Trans (.getDeliveryStates job.message.id (job.subscriptions.map (·.id))) .start (.ok states)
        (.delivering states Results.none)
  | readThrew {e : Exn} :
      job.subscriptions ≠ [] →
      Trans (.getDeliveryStates job.message.id (job.subscriptions.map (·.id))) .start (.error e)
        (if e.isCanceled then .closed else .failing none none)
  | deliver {states : States} {results : Results} {i : ℕ} {subscription : WebhookSubscription}
      {r : Except Exn DeliveryResult} :
      job.subscriptions[i]? = some subscription → results i = none →
      attempted states subscription = true →
      Trans (.deliver job.message subscription (job.deliveryId states subscription))
        (.delivering states results) r
        (.delivering states (Function.update results i (some r)))
  | attemptTime {states : States} {results : Results} {utcNow : DateTimeOffset} :
      Trans .utcNow (.delivering states results) utcNow (.delivering states results)
  | save {states : States} {results : Results} {utcNow : ℕ → DateTimeOffset}
      {attempts : List DeliveryAttempt} :
      job.Complete states results → attempts.Perm (job.newAttempts states results utcNow) →
      attempts ≠ [] →
      Trans (.saveAttempts attempts) (.delivering states results) (.ok ())
        (.settled states results true)
  | saveThrew {states : States} {results : Results} {utcNow : ℕ → DateTimeOffset}
      {attempts : List DeliveryAttempt} {e : Exn} :
      job.Complete states results → attempts.Perm (job.newAttempts states results utcNow) →
      attempts ≠ [] →
      Trans (.saveAttempts attempts) (.delivering states results) (.error e)
        (job.afterFailedSave states results e)
  | nothingToSave {c : Call} {states : States} {results : Results} {a : c.Ans} {s' : Stage} :
      job.Complete states results → (∀ i < job.subscriptions.length, ∀ r, results i ≠ some (.ok r)) →
      Trans c (.settled states results true) a s' → Trans c (.delivering states results) a s'
  | faulted {c : Call} {states : States} {results : Results} {a : c.Ans} {s' : Stage} :
      job.Faulted results → Trans c (.failing none none) a s' → Trans c (.delivering states results) a s'
  | processed {states : States} {results : Results} {a : Except Exn Bool} :
      (∀ i < job.subscriptions.length, job.verdictAt states results i = some .succeeded) →
      Trans (.markAsProcessed job.message.id job.lockedBy) (.settled states results true) a .closed
  | deadLetter {states : States} {results : Results} {saved : Bool} {a : Except Exn Bool} :
      job.count states results .failed = 0 → 0 < job.count states results .exhausted →
      Trans (.markAsDeadLettered job.message.id job.lockedBy) (.settled states results saved) a
        .closed
  | retry {c : Call} {states : States} {results : Results} {saved : Bool} {a : c.Ans}
      {s' : Stage} :
      0 < job.count states results .failed → Trans c (.failing none none) a s' →
      Trans c (.settled states results saved) a s'
  | draw {draw : ℚ} : Trans .nextDouble (.failing none none) draw (.failing (some draw) none)
  | clock {draw : ℚ} {utcNow : DateTimeOffset} :
      Trans .utcNow (.failing (some draw) none) utcNow (.failing (some draw) (some utcNow))
  | incrementRetry {draw : ℚ} {delay : TimeSpan} {utcNow nextRetryAt : DateTimeOffset}
      {error : Option Text} {a : Except Exn Bool} :
      job.pipeline.retryPolicy.getNextDelay job.message.retryCount draw = .ok (some delay) →
      addTime utcNow delay = .ok nextRetryAt →
      Trans (.incrementRetry job.message.id job.lockedBy nextRetryAt error)
        (.failing (some draw) (some utcNow)) a .closed
  | giveUp {draw : ℚ} {a : Except Exn Bool} :
      job.pipeline.retryPolicy.getNextDelay job.message.retryCount draw = .ok none →
      Trans (.markAsDeadLettered job.message.id job.lockedBy) (.failing (some draw) none) a .closed

/-- The stage of a round whose retry policy has thrown. -/
inductive PolicyThrew : Stage → Prop
  | delay {draw : ℚ} {e : Exn} :
      job.pipeline.retryPolicy.getNextDelay job.message.retryCount draw = .error e →
      PolicyThrew (.failing (some draw) none)
  | time {draw : ℚ} {delay : TimeSpan} {utcNow : DateTimeOffset} {e : Exn} :
      job.pipeline.retryPolicy.getNextDelay job.message.retryCount draw = .ok (some delay) →
      addTime utcNow delay = .error e → PolicyThrew (.failing (some draw) (some utcNow))

/-- How a round ends: past its last store call; by an exception of the retry policy; or, still
delivering, by an exception of the loop that is a cancellation. -/
inductive Finished (loop : LoopSchedule) : Except Exn Unit → Stage → Prop
  | closed (r : Except Exn Unit) : Finished loop r .closed
  | policyThrew (r : Except Exn Unit) {s : Stage} : PolicyThrew job s → Finished loop r s
  | loopThrew {e : Exn} {states : States} {results : Results} :
      (job.Threw results e ∧ e.isCanceled = true) ∨ loop.cancels →
      Finished loop (.error e) (.delivering states results)

/-! ## Verdicts -/

variable {job}

theorem attempted_iff {states : States} {subscription : WebhookSubscription} :
    attempted states subscription = true ↔ hasSuccess states subscription = false ∧
      attemptCount states subscription ≤ subscription.maxRetries := by
  simp only [attempted, Bool.and_eq_true, Bool.not_eq_true', decide_eq_true_eq]

theorem verdictAt_eq {states : States} {results : Results} {i : ℕ}
    {subscription : WebhookSubscription} (hi : job.subscriptions[i]? = some subscription) :
    job.verdictAt states results i = verdict states (results i) subscription := by
  simp [verdictAt, hi]

/-- An earlier success is the verdict, whatever the results. -/
theorem verdict_of_hasSuccess {states : States} {subscription : WebhookSubscription}
    (h : hasSuccess states subscription = true) (result : Option (Except Exn DeliveryResult)) :
    verdict states result subscription = some .succeeded := by
  simp [verdict, h]

theorem verdict_of_attempted {states : States} {subscription : WebhookSubscription}
    (h : attempted states subscription = true) (r : DeliveryResult) :
    verdict states (some (.ok r)) subscription =
      some (if r.success then .succeeded else .failed) := by
  obtain ⟨h₁, h₂⟩ := attempted_iff.mp h
  simp [verdict, h₁, not_lt.mpr h₂]

/-- A success comes from an earlier attempt or from a successful result. -/
theorem verdict_succeeded {states : States} {result : Option (Except Exn DeliveryResult)}
    {subscription : WebhookSubscription}
    (h : verdict states result subscription = some .succeeded) :
    hasSuccess states subscription = true ∨ ∃ r, result = some (.ok r) ∧ r.success = true := by
  unfold verdict at h
  split at h
  · next hs => exact .inl hs
  · split at h
    · cases h
    · right
      split at h
      · next r =>
          refine ⟨r, rfl, ?_⟩
          by_contra hr
          simp [hr] at h
      · cases h

/-- The verdict `exhausted` is read off the states. -/
theorem verdict_exhausted {states : States} {result : Option (Except Exn DeliveryResult)}
    {subscription : WebhookSubscription}
    (h : verdict states result subscription = some .exhausted) :
    hasSuccess states subscription = false ∧
      attemptCount states subscription > subscription.maxRetries := by
  unfold verdict at h
  split at h
  · cases h
  · next hs =>
      split at h
      · next hx => exact ⟨by simpa using hs, hx⟩
      · split at h
        · next r => split at h <;> cases h
        · cases h

theorem count_pos_iff {states : States} {results : Results} {v : Verdict} :
    0 < job.count states results v ↔
      ∃ i < job.subscriptions.length, job.verdictAt states results i = some v := by
  simp [count, List.countP_pos_iff]

theorem count_eq_zero_iff {states : States} {results : Results} {v : Verdict} :
    job.count states results v = 0 ↔
      ∀ i < job.subscriptions.length, job.verdictAt states results i ≠ some v := by
  simp [count, List.countP_eq_zero]

/-- Without a failure and without an exhausted budget, every position has succeeded. -/
theorem all_succeeded {states : States} {results : Results} (hc : job.Complete states results)
    (hf : job.count states results .failed = 0) (hx : job.count states results .exhausted = 0)
    {i : ℕ} (hi : i < job.subscriptions.length) :
    job.verdictAt states results i = some .succeeded := by
  obtain ⟨v, hv⟩ := Option.isSome_iff_exists.mp (hc i hi)
  have h₁ := count_eq_zero_iff.mp hf i hi
  have h₂ := count_eq_zero_iff.mp hx i hi
  cases v with
  | succeeded => exact hv
  | failed => exact absurd hv h₁
  | exhausted => exact absurd hv h₂

/-- The position of a subscription is determined by its id, if the ids are distinct. -/
theorem position_eq (hnodup : (job.subscriptions.map (·.id)).Nodup) {i j : ℕ}
    {subscription subscription' : WebhookSubscription} (hi : job.subscriptions[i]? = some subscription)
    (hj : job.subscriptions[j]? = some subscription') (hid : subscription.id = subscription'.id) :
    i = j := by
  have hget : ∀ {l : ℕ} {x : WebhookSubscription}, job.subscriptions[l]? = some x →
      (job.subscriptions.map (·.id))[l]? = some x.id := fun hx => by simp [hx]
  have hlt := (List.getElem?_eq_some_iff.mp (hget hi)).1
  refine (List.getElem?_inj hlt hnodup).mp ?_
  rw [hget hi, hget hj, hid]

theorem mem_newAttempts {states : States} {results : Results} {utcNow : ℕ → DateTimeOffset}
    {a : DeliveryAttempt} : a ∈ job.newAttempts states results utcNow ↔
      ∃ i subscription r, job.subscriptions[i]? = some subscription ∧ results i = some (.ok r) ∧
        a = deliveryAttempt job.message subscription (job.deliveryId states subscription)
          (nextAttempt states subscription) r (utcNow i) := by
  simp only [newAttempts, List.mem_filterMap, List.mem_range]
  constructor
  · rintro ⟨i, -, hi⟩
    unfold attemptAt at hi
    split at hi
    · next subscription r hsub hr => exact ⟨i, subscription, r, hsub, hr, (Option.some.inj hi).symm⟩
    · cases hi
  · rintro ⟨i, subscription, r, hsub, hr, rfl⟩
    refine ⟨i, (List.getElem?_eq_some_iff.mp hsub).1, ?_⟩
    simp [attemptAt, hsub, hr]

/-- An exception the loop may have thrown is one. -/
theorem Threw.faulted {results : Results} {e : Exn} (h : job.Threw results e) :
    job.Faulted results :=
  h.imp (fun ⟨i, hi⟩ => ⟨i, e, hi⟩) (fun ⟨hoptions, hnone⟩ => ⟨⟨e, hoptions⟩, hnone⟩)

/-! ## The first stage -/

/-- A round reads the states at its start only. -/
theorem Trans.start_of_read {c : Call} {s s' : Stage} {a : c.Ans} (h : job.Trans c s a s')
    {messageId : Guid} {subscriptionIds : List Guid}
    (hc : c = .getDeliveryStates messageId subscriptionIds) : s = .start := by
  induction h with
  | read => rfl
  | readThrew => rfl
  | nothingToSave _ _ _ ih => cases ih hc
  | faulted _ _ ih => cases ih hc
  | retry _ _ ih => cases ih hc
  | _ => cases hc

/-- What a round reads, and where it goes on. -/
theorem Trans.read_inv {messageId : Guid} {subscriptionIds : List Guid} {a : Except Exn States}
    {s' : Stage} (h : job.Trans (Call.getDeliveryStates messageId subscriptionIds) .start a s') :
    messageId = job.message.id ∧ subscriptionIds = job.subscriptions.map (·.id) ∧
      (∀ states, a = .ok states → s' = .delivering states Results.none) ∧
      (∀ e, a = .error e → s' = .closed ∨ s' = .failing none none) := by
  cases h with
  | read =>
      refine ⟨rfl, rfl, ?_, nofun⟩
      rintro states ⟨⟩
      rfl
  | readThrew =>
      refine ⟨rfl, rfl, nofun, ?_⟩
      rintro e ⟨⟩
      split
      · exact .inl rfl
      · exact .inr rfl

/-- Only a metric leaves a round in its first stage. -/
theorem Trans.metric_of_start {c : Call} {s s' : Stage} {a : c.Ans} (h : job.Trans c s a s')
    (hs' : s' = .start) : s = .start ∧ ∃ metric eventType, c = .addMetric metric eventType := by
  induction h with
  | metric => exact ⟨hs', _, _, rfl⟩
  | readThrew => split at hs' <;> cases hs'
  | saveThrew =>
      unfold afterFailedSave at hs'
      split at hs' <;> cases hs'
  | nothingToSave _ _ _ ih => cases (ih hs').1
  | faulted _ _ ih => cases (ih hs').1
  | retry _ _ ih => cases (ih hs').1
  | _ => cases hs'

/-! ## A delivery -/

/-- A delivery is one to a position that has none yet. -/
theorem Trans.deliver_inv {message : OutboxMessage} {subscription : WebhookSubscription}
    {deliveryId : Guid} {s s' : Stage} {r : Except Exn DeliveryResult}
    (h : job.Trans (.deliver message subscription deliveryId) s r s') :
    ∃ (states : States) (results : Results) (i : ℕ), s = .delivering states results ∧
      s' = .delivering states (Function.update results i (some r)) ∧ message = job.message ∧
      job.subscriptions[i]? = some subscription ∧ results i = none ∧
      attempted states subscription = true ∧ deliveryId = job.deliveryId states subscription := by
  cases h with
  | deliver hsub hi hatt => exact ⟨_, _, _, rfl, rfl, rfl, hsub, hi, hatt, rfl⟩
  | nothingToSave _ _ h =>
      cases h with
      | retry _ h => cases h
  | faulted _ h => cases h
  | retry _ h => cases h

end Job

end OutboxNet
