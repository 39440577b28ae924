import OutboxNet.Delivery.RetryPolicy
import OutboxNet.Lib.Protocol
import OutboxNet.Store.AttemptStore

/-!
# What a processing round calls

The processor reaches the rest of the world through the stores, the webhook deliverer, the queue, the
clock, the random number generator of the retry policy, and the metrics.  Its functions are programs
over these calls; log lines are left out.
-/

set_option autoImplicit false

namespace OutboxNet

/-- The counters of `OutboxMetrics` a round adds to. -/
inductive Metric : Type
  | messagesProcessed | messagesFailed | messagesDeadLettered
deriving DecidableEq, Repr

inductive Call : Type
  | getDeliveryStates (messageId : Guid) (subscriptionIds : List Guid)
  | saveAttempts (attempts : List DeliveryAttempt)
  | markAsProcessed (messageId : Guid) (lockedBy : Text)
  | incrementRetry (messageId : Guid) (lockedBy : Text) (nextRetryAt : DateTimeOffset)
      (error : Option Text)
  | markAsDeadLettered (messageId : Guid) (lockedBy : Text)
  | deliver (message : OutboxMessage) (subscription : WebhookSubscription) (deliveryId : Guid)
  | publish (message : OutboxMessage)
  | utcNow
  | nextDouble
  | addMetric (metric : Metric) (eventType : Text)
deriving DecidableEq, Repr

/-- The answer to a call.  A store call, a delivery and a publish to the queue may throw. -/
def Call.Ans : Call → Type
  | .getDeliveryStates _ _ => Except Exn AttemptStore.States
  | .saveAttempts _ => Except Exn Unit
  | .markAsProcessed _ _ => Except Exn Bool
  | .incrementRetry _ _ _ _ => Except Exn Bool
  | .markAsDeadLettered _ _ => Except Exn Bool
  | .deliver _ _ _ => Except Exn DeliveryResult
  | .publish _ => Except Exn Unit
  | .utcNow => DateTimeOffset
  | .nextDouble => ℚ
  | .addMetric _ _ => Unit

/-- A call with its answer. -/
structure Entry where
  call : Call
  answer : call.Ans

/-- An asynchronous method of the processor. -/
abbrev Async (α : Type) := ExceptT Exn (Prog Call Call.Ans) α

namespace Async

def getDeliveryStates (messageId : Guid) (subscriptionIds : List Guid) :
    Async AttemptStore.States :=
  ExceptT.mk (Prog.perform (Call.getDeliveryStates messageId subscriptionIds))

def saveAttempts (attempts : List DeliveryAttempt) : Async Unit :=
  ExceptT.mk (Prog.perform (Call.saveAttempts attempts))

def markAsProcessed (messageId : Guid) (lockedBy : Text) : Async Bool :=
  ExceptT.mk (Prog.perform (Call.markAsProcessed messageId lockedBy))

def incrementRetry (messageId : Guid) (lockedBy : Text) (nextRetryAt : DateTimeOffset)
    (error : Option Text) : Async Bool :=
  ExceptT.mk (Prog.perform (Call.incrementRetry messageId lockedBy nextRetryAt error))

def markAsDeadLettered (messageId : Guid) (lockedBy : Text) : Async Bool :=
  ExceptT.mk (Prog.perform (Call.markAsDeadLettered messageId lockedBy))

def publish (message : OutboxMessage) : Async Unit :=
  ExceptT.mk (Prog.perform (Call.publish message))

def utcNow : Async DateTimeOffset := ExceptT.lift (Prog.perform Call.utcNow)

def nextDouble : Async ℚ := ExceptT.lift (Prog.perform Call.nextDouble)

def addMetric (metric : Metric) (eventType : Text) : Async Unit :=
  ExceptT.lift (Prog.perform (Call.addMetric metric eventType))

/-- A pure computation that may throw. -/
def ofExcept {α : Type} (x : Except Exn α) : Async α := ExceptT.mk (.ret x)

/-- `try x catch (Exception ex)`. -/
def catchingAll {α : Type} (x : Async α) : Async (Except Exn α) := Prog.catching (fun _ => false) x

/-- `try x catch (Exception ex) when (ex is not OperationCanceledException)`. -/
def catching {α : Type} (x : Async α) : Async (Except Exn α) := Prog.catching Exn.isCanceled x

end Async

end OutboxNet
