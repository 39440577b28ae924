import Mathlib.Data.Rat.Defs
import OutboxNet.Core.Models

/-!
# The options of OutboxNet

`OutboxOptions` and `RetryPolicyOptions` with their defaults.  The schema name is left out: a model of
one outbox has one pair of tables.
-/

set_option autoImplicit false

namespace OutboxNet

inductive ProcessingMode : Type
  | directDelivery | queueMediated
deriving DecidableEq, Repr

/-- Options of one processor instance.  `InstanceId` has no default here: the source makes a fresh one
from the machine name. -/
structure OutboxOptions where
  instanceId : Text
  batchSize : ℤ := 50
  defaultVisibilityTimeout : TimeSpan := 5 * 60 * ticksPerSecond
  maxConcurrentDeliveries : ℤ := 10
  maxConcurrentSubscriptionDeliveries : ℤ := 4
  processingMode : ProcessingMode := .directDelivery
  enableOrderedProcessing : Bool := true
  tenantFilter : Option Text := none
deriving DecidableEq, Repr

/-- Options of the exponential back-off.  The `double` fields are exact rationals. -/
structure RetryPolicyOptions where
  maxRetries : ℤ := 5
  baseDelay : TimeSpan := 5 * ticksPerSecond
  maxDelay : TimeSpan := 5 * 60 * ticksPerSecond
  jitterFactor : ℚ := 1 / 5
deriving DecidableEq, Repr

end OutboxNet
