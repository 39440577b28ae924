import OutboxNet.Lib.Parallel
import OutboxNet.Processor.Calls
import OutboxNet.Processor.DeliveryId

/-!
# The processing of one message

`ProcessSingleMessageAsync` of `OutboxProcessingPipeline` and the body of `ProcessQueueMediatedAsync`,
with what they call, as programs; `Processor/Batch.lean` has the loops over the messages of a batch.
The parallel loop over the subscriptions takes its schedule as an argument; a theorem for all schedules
is a theorem for all completion orders.
-/

set_option autoImplicit false

namespace OutboxNet

open AttemptStore (States tryGetValue)

/-- What a pipeline is built with. -/
structure Pipeline where
  options : OutboxOptions
  retryPolicy : RetryPolicy
  sha256 : Hash

/-- How one run of the loop over the subscriptions goes: whether its token is cancelled from the
beginning, and the choices of the scheduler. -/
structure LoopSchedule where
  canceled : Bool
  choices : List Parallel.Choice
deriving DecidableEq, Repr

namespace Pipeline

/-! ## Parallel subscription delivery -/

/-- `DeliveryOutcome`; the accumulators of the loop have the same fields. -/
structure DeliveryOutcome where
  successCount : ℕ
  failedCount : ℕ
  exhaustedCount : ℕ
  lastError : Option Text
  newAttempts : List DeliveryAttempt
deriving DecidableEq, Repr

/-- The accumulators before the loop. -/
def DeliveryOutcome.zero : DeliveryOutcome := ⟨0, 0, 0, none, []⟩

/-- The body of the loop, as programs of the loop library. -/
abbrev BodyM (α : Type) :=
  ExceptT Exn (Prog (Parallel.Local Call DeliveryOutcome) (Parallel.Local.Ans Call.Ans)) α

namespace BodyM

/-- An interlocked update of the accumulators. -/
def update (f : DeliveryOutcome → DeliveryOutcome) : BodyM Unit :=
  ExceptT.lift (Prog.perform (Parallel.Local.upd f))

def deliver (message : OutboxMessage) (subscription : WebhookSubscription) (deliveryId : Guid) :
    BodyM DeliveryResult :=
  ExceptT.mk (Prog.perform (Parallel.Local.ext (Call.deliver message subscription deliveryId)))

def utcNow : BodyM DateTimeOffset :=
  ExceptT.lift (Prog.perform (Parallel.Local.ext Call.utcNow))

end BodyM

/-- The attempt recorded for a delivery. -/
def deliveryAttempt (message : OutboxMessage) (subscription : WebhookSubscription)
    (deliveryId : Guid) (attemptNumber : ℤ) (result : DeliveryResult) (utcNow : DateTimeOffset) :
    DeliveryAttempt where
  id := deliveryId
  outboxMessageId := message.id
  webhookSubscriptionId := subscription.id
  attemptNumber := attemptNumber
  status := if result.success then .success else .failed
  httpStatusCode := result.httpStatusCode
  responseBody := result.responseBody
  errorMessage := result.errorMessage
  durationMs := result.durationMs
  attemptedAt := utcNow
  nextRetryAt := none

/-- `state?.AttemptCount ?? 0`. -/
def attemptCount (states : States) (subscription : WebhookSubscription) : ℤ :=
  ((tryGetValue states subscription.id).map (·.attemptCount)).getD 0

/-- `state?.HasSuccess ?? false`. -/
def hasSuccess (states : States) (subscription : WebhookSubscription) : Bool :=
  ((tryGetValue states subscription.id).map (·.hasSuccess)).getD false

/-- The number of the next attempt; the arithmetic is 32-bit and unchecked. -/
def nextAttempt (states : States) (subscription : WebhookSubscription) : ℤ :=
  int32 (attemptCount states subscription + 1)

/-- What the loop does for one subscription. -/
def deliverToSubscription (p : Pipeline) (message : OutboxMessage) (states : States)
    (subscription : WebhookSubscription) : BodyM Unit := do
  -- a subscription that has succeeded, or has used up its retries, is only counted
  if hasSuccess states subscription then
    BodyM.update fun c => { c with successCount := c.successCount + 1 }
  else if attemptCount states subscription > subscription.maxRetries then
    BodyM.update fun c => { c with exhaustedCount := c.exhaustedCount + 1 }
  else
    let deliveryId :=
      deriveDeliveryId p.sha256 message.id subscription.id (nextAttempt states subscription)
    let result ← BodyM.deliver message subscription deliveryId
    let utcNow ← BodyM.utcNow
    let attempt := deliveryAttempt message subscription deliveryId
      (nextAttempt states subscription) result utcNow
    BodyM.update fun c => { c with newAttempts := c.newAttempts ++ [attempt] }
    if result.success then
      BodyM.update fun c => { c with successCount := c.successCount + 1 }
    else
      BodyM.update fun c => { c with failedCount := c.failedCount + 1 }
      BodyM.update fun c => { c with lastError := result.errorMessage }

/-- The exception of a degree of parallelism that is zero or below -1. -/
def Exn.degreeOutOfRange : Exn :=
  ⟨false, text "Specified argument was out of the range of valid values. (Parameter 'value')"⟩

/-- `new ParallelOptions { MaxDegreeOfParallelism = degree }`: the limit on bodies in flight, none for
-1. -/
def parallelOptions (degree : ℤ) : Except Exn (Option ℕ) :=
  if degree = 0 ∨ degree < -1 then .error Exn.degreeOutOfRange
  else .ok (if degree = -1 then none else some degree.toNat)

/-- A limit allows at least one body. -/
theorem parallelOptions_all {degree : ℤ} {limit : Option ℕ}
    (h : parallelOptions degree = .ok limit) : limit.all (0 < ·) = true := by
  unfold parallelOptions at h
  split at h
  · cases h
  next hdegree =>
  cases h
  split
  · rfl
  · have hpos : 0 < degree := by omega
    simpa using hpos

/-- `DeliverToSubscriptionsAsync`. -/
def deliverToSubscriptionsAsync (p : Pipeline) (loop : LoopSchedule) (message : OutboxMessage)
    (subscriptions : List WebhookSubscription) (states : States) : Async DeliveryOutcome := do
  let limit ← Async.ofExcept (parallelOptions p.options.maxConcurrentSubscriptionDeliveries)
  ExceptT.mk <| Parallel.forEachAsync Exn.operationCanceled loop.canceled limit loop.choices
    subscriptions (fun subscription => (p.deliverToSubscription message states subscription).run)
    DeliveryOutcome.zero

/-! ## Helpers -/

/-- `TrySaveAttemptsAsync`: whether the attempts are saved, or there are none. -/
def trySaveAttemptsAsync (attempts : List DeliveryAttempt) : Async Bool := do
  if attempts.length = 0 then
    return true
  -- a cancellation is not caught
  match ← Async.catching (Async.saveAttempts attempts) with
  | .ok () => return true
  | .error _ => return false

/-- `HandleMessageFailureAsync`. -/
def handleMessageFailureAsync (p : Pipeline) (message : OutboxMessage) (lockedBy : Text)
    (error : Option Text) : Async Unit := do
  let draw ← Async.nextDouble
  -- the count is that of the acquisition; the row's may be ahead of it
  match ← Async.ofExcept (p.retryPolicy.getNextDelay message.retryCount draw) with
  | some nextDelay =>
      let utcNow ← Async.utcNow
      let nextRetryAt ← Async.ofExcept (addTime utcNow nextDelay)
      if ← Async.incrementRetry message.id lockedBy nextRetryAt error then
        Async.addMetric .messagesFailed message.eventType
  | none =>
      if ← Async.markAsDeadLettered message.id lockedBy then
        Async.addMetric .messagesDeadLettered message.eventType

/-- The steps of the failure handler: a draw, what the policy says to it, the clock and the addition. -/
theorem handleMessageFailureAsync_run (p : Pipeline) (message : OutboxMessage) (lockedBy : Text)
    (error : Option Text) : (p.handleMessageFailureAsync message lockedBy error).run =
      .call .nextDouble fun draw =>
        match p.retryPolicy.getNextDelay message.retryCount draw with
        | .error e => .ret (.error e)
        | .ok none =>
            (do if ← Async.markAsDeadLettered message.id lockedBy then
                  Async.addMetric .messagesDeadLettered message.eventType : Async Unit).run
        | .ok (some nextDelay) => .call .utcNow fun utcNow =>
            match addTime utcNow nextDelay with
            | .error e => .ret (.error e)
            | .ok nextRetryAt =>
                (do if ← Async.incrementRetry message.id lockedBy nextRetryAt error then
                      Async.addMetric .messagesFailed message.eventType : Async Unit).run := by
  refine congrArg (Prog.call _) (funext fun draw => ?_)
  change (Async.ofExcept (p.retryPolicy.getNextDelay message.retryCount draw) >>= _ :
    Async Unit).run = _
  cases p.retryPolicy.getNextDelay message.retryCount draw with
  | error e => rfl
  | ok nextDelay =>
      cases nextDelay with
      | none => rfl
      | some nextDelay =>
          refine congrArg (Prog.call _) (funext fun utcNow => ?_)
          change (Async.ofExcept (addTime utcNow nextDelay) >>= _ : Async Unit).run = _
          cases addTime utcNow nextDelay <;> rfl

/-- What an execution of the failure handler has done, whatever answers its calls: the policy has thrown,
or has given up, or has granted a delay; and then the addition has thrown, or the retry is written. -/
theorem handleMessageFailureAsync_exec {S : Type} {exec : (c : Call) → S → c.Ans → S → Prop}
    {p : Pipeline} {message : OutboxMessage} {lockedBy : Text} {error : Option Text}
    {r : Except Exn Unit} {s s' : S}
    (h : Prog.Exec exec (p.handleMessageFailureAsync message lockedBy error).run s r s') :
    ∃ draw s₁, exec .nextDouble s draw s₁ ∧
      ((∃ e, p.retryPolicy.getNextDelay message.retryCount draw = .error e ∧
          r = .error e ∧ s' = s₁) ∨
        (p.retryPolicy.getNextDelay message.retryCount draw = .ok none ∧
          Prog.Exec exec (do if ← Async.markAsDeadLettered message.id lockedBy then
            Async.addMetric .messagesDeadLettered message.eventType : Async Unit).run s₁ r s') ∨
        ∃ nextDelay utcNow s₂,
          p.retryPolicy.getNextDelay message.retryCount draw = .ok (some nextDelay) ∧
          exec .utcNow s₁ utcNow s₂ ∧
          ((∃ e, addTime utcNow nextDelay = .error e ∧ r = .error e ∧ s' = s₂) ∨
            ∃ nextRetryAt, addTime utcNow nextDelay = .ok nextRetryAt ∧
              Prog.Exec exec (do if ← Async.incrementRetry message.id lockedBy nextRetryAt error then
                Async.addMetric .messagesFailed message.eventType : Async Unit).run s₂ r s')) := by
  rw [handleMessageFailureAsync_run] at h
  obtain ⟨draw, s₁, hdraw, h⟩ := Prog.exec_call_iff.mp h
  refine ⟨draw, s₁, hdraw, ?_⟩
  cases hdelay : p.retryPolicy.getNextDelay message.retryCount draw with
  | error e =>
      rw [hdelay] at h
      exact .inl ⟨e, rfl, Prog.exec_ret_iff.mp h⟩
  | ok delay =>
      rw [hdelay] at h
      cases delay with
      | none => exact .inr (.inl ⟨rfl, h⟩)
      | some nextDelay =>
          obtain ⟨utcNow, s₂, hnow, h⟩ := Prog.exec_call_iff.mp h
          refine .inr (.inr ⟨nextDelay, utcNow, s₂, rfl, hnow, ?_⟩)
          cases hadd : addTime utcNow nextDelay with
          | error e =>
              rw [hadd] at h
              exact .inl ⟨e, rfl, Prog.exec_ret_iff.mp h⟩
          | ok nextRetryAt =>
              rw [hadd] at h
              exact .inr ⟨nextRetryAt, rfl, h⟩

/-! ## Queue-mediated delivery -/

/-- What `ProcessQueueMediatedAsync` does for one message; every exception counts as a failure. -/
def processQueuedMessageAsync (p : Pipeline) (lockedBy : Text) (message : OutboxMessage) :
    Async Unit := do
  let publishing : Async Unit := do
    Async.publish message
    if ← Async.markAsProcessed message.id lockedBy then
      Async.addMetric .messagesProcessed message.eventType
  match ← Async.catchingAll publishing with
  | .ok () => return ()
  | .error ex => p.handleMessageFailureAsync message lockedBy (some ex.message)

/-! ## Single-message processing -/

/-- The decision phase of `ProcessSingleMessageAsync`; an exception other than a cancellation is
swallowed. -/
def decideAsync (p : Pipeline) (message : OutboxMessage) (lockedBy : Text)
    (outcome : DeliveryOutcome) : Async Unit := do
  let decision : Async Unit := do
    if outcome.failedCount = 0 ∧ outcome.exhaustedCount = 0 then
      if ← Async.markAsProcessed message.id lockedBy then
        Async.addMetric .messagesProcessed message.eventType
    -- a failure of this round outweighs a subscription without retries
    else if outcome.failedCount > 0 then
      p.handleMessageFailureAsync message lockedBy
        (some (outcome.lastError.getD (text "One or more deliveries failed")))
    else
      if ← Async.markAsDeadLettered message.id lockedBy then
        Async.addMetric .messagesDeadLettered message.eventType
  match ← Async.catching decision with
  | .ok () => return ()
  | .error _ => return ()

/-- The bookkeeping phase: the attempts are saved, and the decision follows unless a success could not
be recorded. -/
def bookkeepAsync (p : Pipeline) (message : OutboxMessage) (lockedBy : Text)
    (outcome : DeliveryOutcome) : Async Unit := do
  if outcome.newAttempts.length > 0 then
    let saved ← trySaveAttemptsAsync outcome.newAttempts
    -- a success that is not recorded: the message stays locked until its lock expires
    if !saved && outcome.successCount > 0 then
      return ()
    p.decideAsync message lockedBy outcome
  else
    p.decideAsync message lockedBy outcome

/-- `ProcessSingleMessageAsync`. -/
def processSingleMessageAsync (p : Pipeline) (loop : LoopSchedule) (message : OutboxMessage)
    (lockedBy : Text) (subscriptions : List WebhookSubscription) : Async Unit := do
  if subscriptions.length = 0 then
    let _ ← Async.markAsProcessed message.id lockedBy
    Async.addMetric .messagesProcessed message.eventType
  else
    let subIds := subscriptions.map (·.id)
    match ← Async.catching (Async.getDeliveryStates message.id subIds) with
    | .error ex => p.handleMessageFailureAsync message lockedBy (some ex.message)
    | .ok states =>
        match ← Async.catching
            (p.deliverToSubscriptionsAsync loop message subscriptions states) with
        | .error ex =>
            -- the attempts made before the exception are lost with the loop
            let _ ← trySaveAttemptsAsync []
            p.handleMessageFailureAsync message lockedBy (some ex.message)
        | .ok outcome => p.bookkeepAsync message lockedBy outcome

end Pipeline

end OutboxNet
