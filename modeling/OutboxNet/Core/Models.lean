import Mathlib.Data.Int.Notation
import Mathlib.Data.Nat.Notation
import OutboxNet.Lib.DropOldest

/-!
# The models of OutboxNet

The values the library passes around: messages, subscriptions, delivery attempts, delivery results,
and the state of a subscription's deliveries.  The records have the fields of the source; what no
modelled function reads (navigation properties, subscription time stamps) is left out.  Last comes the
channel through which publishers hint at new messages.
-/

set_option autoImplicit false

namespace OutboxNet

/-! ## .NET values -/

/-- A .NET string: its UTF-16 code units. -/
abbrev Text := List UInt16

/-- The code units of one Unicode character. -/
def utf16Units (c : Char) : List UInt16 :=
  if c.toNat < 0x10000 then [c.toNat.toUInt16]
  else
    let v := c.toNat - 0x10000
    [(0xD800 + v / 0x400).toUInt16, (0xDC00 + v % 0x400).toUInt16]

/-- A string literal of the source. -/
def text (s : String) : Text := s.toList.flatMap utf16Units

/-- A 16-byte identifier; byte `i` of its memory layout is bits `8 i … 8 i + 7`. -/
abbrev Guid := BitVec 128

/-- `Guid.Empty`. -/
def Guid.empty : Guid := 0

/-- An instant, in 100 ns ticks of UTC since 0001-01-01.  Offsets play no part in comparisons. -/
abbrev DateTimeOffset := ℤ

/-- A duration, in 100 ns ticks. -/
abbrev TimeSpan := ℤ

/-- The ticks of one second. -/
def ticksPerSecond : ℤ := 10000000

/-- `DateTimeOffset.MaxValue`. -/
def maxTicks : ℤ := 3155378975999999999

/-- `int.MaxValue`. -/
def int32Max : ℤ := 2147483647

/-- The result of unchecked 32-bit arithmetic. -/
def int32 (x : ℤ) : ℤ := Int.bmod x 4294967296

/-- An exception.  Only whether it is an `OperationCanceledException` and its message matter. -/
structure Exn where
  isCanceled : Bool
  message : Text
deriving DecidableEq, Repr

/-- The `OperationCanceledException` of a cancelled token. -/
def Exn.operationCanceled : Exn := ⟨true, text "The operation was canceled."⟩

/-! ## Messages -/

inductive MessageStatus : Type
  | pending | processing | published | delivered | failed | deadLettered
deriving DecidableEq, Repr

structure OutboxMessage where
  id : Guid
  eventType : Text
  payload : Text
  correlationId : Option Text
  traceId : Option Text
  status : MessageStatus
  retryCount : ℤ
  createdAt : DateTimeOffset
  processedAt : Option DateTimeOffset
  lockedUntil : Option DateTimeOffset
  lockedBy : Option Text
  nextRetryAt : Option DateTimeOffset
  lastError : Option Text
  headers : Option (List (Text × Text))
  tenantId : Option Text
  userId : Option Text
  entityId : Option Text
deriving DecidableEq, Repr

/-! ## Subscriptions and deliveries -/

/-- The secret is null when a configured endpoint has none. -/
structure WebhookSubscription where
  id : Guid
  tenantId : Option Text
  eventType : Text
  webhookUrl : Text
  secret : Option Text
  isActive : Bool
  maxRetries : ℤ
  timeout : TimeSpan
  customHeaders : Option (List (Text × Text))
deriving DecidableEq, Repr

inductive DeliveryStatus : Type
  | pending | success | failed | deadLettered
deriving DecidableEq, Repr

structure DeliveryAttempt where
  id : Guid
  outboxMessageId : Guid
  webhookSubscriptionId : Guid
  attemptNumber : ℤ
  status : DeliveryStatus
  httpStatusCode : Option ℤ
  responseBody : Option Text
  errorMessage : Option Text
  durationMs : ℤ
  attemptedAt : DateTimeOffset
  nextRetryAt : Option DateTimeOffset
deriving DecidableEq, Repr

structure DeliveryResult where
  success : Bool
  httpStatusCode : Option ℤ
  responseBody : Option Text
  errorMessage : Option Text
  durationMs : ℤ
deriving DecidableEq, Repr

structure SubscriptionDeliveryState where
  attemptCount : ℤ
  hasSuccess : Bool
deriving DecidableEq, Repr

/-! ## The signal -/

namespace ChannelOutboxSignal

/-- The capacity of the channel. -/
def capacity : ℕ := 10000

/-- `Notify`: `TryWrite` on the bounded channel, which drops its oldest id when it is full. -/
def notify (channel : List Guid) (messageId : Guid) : List Guid :=
  DropOldest.write capacity channel messageId

end ChannelOutboxSignal

end OutboxNet
