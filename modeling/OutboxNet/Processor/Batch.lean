import OutboxNet.Processor.Pipeline

/-!
# The processing of a batch, and of a message by its id

`ProcessBatchAsync` and `TryProcessByIdAsync` with what they call, as programs.  They acquire messages,
find their subscriptions, and hand each message to the programs of `Processor/Pipeline.lean`; the calls
made in the handling of a message are marked with its id.  The parallel loop over the messages takes its
schedule as an argument.  A cancelled token shows itself in calls that throw.
-/

set_option autoImplicit false

namespace OutboxNet

/-- What the processor calls beside the handling of a message. -/
inductive BatchCall : Type
  | utcNow
  | readLastLockRelease
  | compareExchangeLastLockRelease (value comparand : ℤ)
  | releaseExpiredLocks
  | lockNextBatch (batchSize : ℤ) (visibilityTimeout : TimeSpan) (lockedBy : Text)
      (skipIds : Option (List Guid))
  | tryLockById (messageId : Guid) (visibilityTimeout : TimeSpan) (lockedBy : Text)
  | getForMessage (message : OutboxMessage)
  | recordBatch (count : ℕ)
  | handling (messageId : Guid) (call : Call)
deriving DecidableEq, Repr

/-- The answer to a call.  A store call and the subscription reader may throw. -/
def BatchCall.Ans : BatchCall → Type
  | .utcNow => DateTimeOffset
  | .readLastLockRelease => ℤ
  | .compareExchangeLastLockRelease _ _ => ℤ
  | .releaseExpiredLocks => Except Exn Unit
  | .lockNextBatch _ _ _ _ => Except Exn (List OutboxMessage)
  | .tryLockById _ _ _ => Except Exn (Option OutboxMessage)
  | .getForMessage _ => Except Exn (List WebhookSubscription)
  | .recordBatch _ => Unit
  | .handling _ c => c.Ans

/-- A call with its answer. -/
structure BatchEntry where
  call : BatchCall
  answer : call.Ans

/-- A method of the processor that works on a batch. -/
abbrev BatchAsync (α : Type) := ExceptT Exn (Prog BatchCall BatchCall.Ans) α

namespace BatchAsync

def utcNow : BatchAsync DateTimeOffset := ExceptT.lift (Prog.perform BatchCall.utcNow)

/-- `Interlocked.Read`. -/
def readLastLockRelease : BatchAsync ℤ :=
  ExceptT.lift (Prog.perform BatchCall.readLastLockRelease)

/-- `Interlocked.CompareExchange`: the value found. -/
def compareExchangeLastLockRelease (value comparand : ℤ) : BatchAsync ℤ :=
  ExceptT.lift (Prog.perform (BatchCall.compareExchangeLastLockRelease value comparand))

def releaseExpiredLocks : BatchAsync Unit :=
  ExceptT.mk (Prog.perform BatchCall.releaseExpiredLocks)

def lockNextBatch (batchSize : ℤ) (visibilityTimeout : TimeSpan) (lockedBy : Text)
    (skipIds : Option (List Guid)) : BatchAsync (List OutboxMessage) :=
  ExceptT.mk (Prog.perform (BatchCall.lockNextBatch batchSize visibilityTimeout lockedBy skipIds))

def tryLockById (messageId : Guid) (visibilityTimeout : TimeSpan) (lockedBy : Text) :
    BatchAsync (Option OutboxMessage) :=
  ExceptT.mk (Prog.perform (BatchCall.tryLockById messageId visibilityTimeout lockedBy))

def getForMessage (message : OutboxMessage) : BatchAsync (List WebhookSubscription) :=
  ExceptT.mk (Prog.perform (BatchCall.getForMessage message))

/-- `BatchesProcessed.Add(1)` and `BatchSize.Record(count)`. -/
def recordBatch (count : ℕ) : BatchAsync Unit :=
  ExceptT.lift (Prog.perform (BatchCall.recordBatch count))

/-- A pure computation that may throw. -/
def ofExcept {α : Type} (x : Except Exn α) : BatchAsync α := ExceptT.mk (.ret x)

/-- A method that handles one message. -/
def handling {α : Type} (messageId : Guid) (x : Async α) : BatchAsync α :=
  ExceptT.mk (x.run.mapCalls (BatchCall.handling messageId) fun _ a => a)

end BatchAsync

/-! ## The subscription cache -/

/-- The key of the cache: event type and tenant, compared character by character. -/
abbrev CacheKey := Text × Option Text

/-- The dictionary from keys to lists of subscriptions. -/
abbrev SubscriptionCache := List (CacheKey × List WebhookSubscription)

namespace SubscriptionCache

/-- `cache.TryGetValue(key)`. -/
def tryGetValue (cache : SubscriptionCache) (key : CacheKey) : Option (List WebhookSubscription) :=
  (cache.find? fun entry => entry.1 = key).map Prod.snd

/-- `cache.ContainsKey(key)`. -/
def containsKey (cache : SubscriptionCache) (key : CacheKey) : Bool := (cache.tryGetValue key).isSome

/-- `cache[key] = subscriptions`. -/
def set (cache : SubscriptionCache) (key : CacheKey) (subscriptions : List WebhookSubscription) :
    SubscriptionCache :=
  (key, subscriptions) :: cache

/-- The exception of a key that is not there. -/
def keyNotFound (key : CacheKey) : Exn :=
  ⟨false, text "The given key '(" ++ key.1 ++ text ", " ++ key.2.getD [] ++
    text ")' was not present in the dictionary."⟩

/-- `cache[key]`. -/
def get (cache : SubscriptionCache) (key : CacheKey) : Except Exn (List WebhookSubscription) :=
  match cache.tryGetValue key with
  | some subscriptions => .ok subscriptions
  | none => .error (keyNotFound key)

end SubscriptionCache

/-- The key of a message. -/
def OutboxMessage.cacheKey (message : OutboxMessage) : CacheKey := (message.eventType, message.tenantId)

/-- How the loops of a batch go: the one over the messages, and for each message the one over its
subscriptions. -/
structure BatchSchedule where
  messages : LoopSchedule
  subscriptions : Guid → LoopSchedule

namespace Pipeline

/-- One step of the loop of `BuildSubscriptionCacheAsync`. -/
def cacheMessageAsync (cache : SubscriptionCache) (message : OutboxMessage) :
    BatchAsync SubscriptionCache := do
  if cache.containsKey message.cacheKey then
    return cache
  let subscriptions ← BatchAsync.getForMessage message
  return cache.set message.cacheKey subscriptions

/-- `BuildSubscriptionCacheAsync`. -/
def buildSubscriptionCacheAsync (messages : List OutboxMessage) : BatchAsync SubscriptionCache :=
  messages.foldlM cacheMessageAsync []

/-! ## Direct delivery -/

/-- What `ProcessDirectDeliveryAsync` does for one message. -/
def processCachedMessageAsync (p : Pipeline) (loop : LoopSchedule) (lockedBy : Text)
    (subCache : SubscriptionCache) (message : OutboxMessage) : Async Unit := do
  let subscriptions ← Async.ofExcept (subCache.get message.cacheKey)
  p.processSingleMessageAsync loop message lockedBy subscriptions

/-- The calls of a program, as steps of a body of the loop over the messages. -/
def body (messageId : Guid) (x : Async Unit) : Parallel.Body BatchCall BatchCall.Ans Unit Exn :=
  x.run.mapCalls (fun c => Parallel.Local.ext (BatchCall.handling messageId c)) fun _ a => a

/-- `ProcessDirectDeliveryAsync`. -/
def processDirectDeliveryAsync (p : Pipeline) (schedule : BatchSchedule) (lockedBy : Text)
    (subCache : SubscriptionCache) (messages : List OutboxMessage) : BatchAsync Unit := do
  let limit ← BatchAsync.ofExcept (parallelOptions p.options.maxConcurrentDeliveries)
  ExceptT.mk <| Parallel.forEachAsync Exn.operationCanceled schedule.messages.canceled limit
    schedule.messages.choices messages
    (fun message => body message.id
      (p.processCachedMessageAsync (schedule.subscriptions message.id) lockedBy subCache message)) ()

/-! ## Queue-mediated delivery -/

/-- `ProcessQueueMediatedAsync`. -/
def processQueueMediatedAsync (p : Pipeline) (lockedBy : Text) (messages : List OutboxMessage) :
    BatchAsync Unit :=
  messages.forM fun message =>
    BatchAsync.handling message.id (p.processQueuedMessageAsync lockedBy message)

/-! ## The two entry points -/

/-- `ReleaseExpiredLocksInterval`: 30 seconds. -/
def releaseExpiredLocksInterval : TimeSpan := 30 * ticksPerSecond

/-- The throttled release at the beginning of a batch. -/
def releaseExpiredLocksAsync : BatchAsync Unit := do
  let nowTicks ← BatchAsync.utcNow
  let lastTicks ← BatchAsync.readLastLockRelease
  if nowTicks - lastTicks ≥ releaseExpiredLocksInterval then
    -- of the calls that come at the same time, the one whose exchange succeeds releases
    if (← BatchAsync.compareExchangeLastLockRelease nowTicks lastTicks) = lastTicks then
      BatchAsync.releaseExpiredLocks

/-- What `ProcessBatchAsync` does with the messages it has locked; `hasPublisher` is whether an
`IMessagePublisher` is registered. -/
def processLockedBatchAsync (p : Pipeline) (hasPublisher : Bool) (schedule : BatchSchedule)
    (messages : List OutboxMessage) : BatchAsync Unit := do
  if p.options.processingMode = .queueMediated ∧ hasPublisher then
    p.processQueueMediatedAsync p.options.instanceId messages
  else
    -- also in queue-mediated mode, when no publisher is registered
    let subCache ← buildSubscriptionCacheAsync messages
    p.processDirectDeliveryAsync schedule p.options.instanceId subCache messages

/-- `ProcessBatchAsync`: the number of messages locked. -/
def processBatchAsync (p : Pipeline) (hasPublisher : Bool) (schedule : BatchSchedule)
    (skipIds : Option (List Guid)) : BatchAsync ℕ := do
  releaseExpiredLocksAsync
  let messages ← BatchAsync.lockNextBatch p.options.batchSize p.options.defaultVisibilityTimeout
    p.options.instanceId skipIds
  if messages.length = 0 then
    return 0
  BatchAsync.recordBatch messages.length
  p.processLockedBatchAsync hasPublisher schedule messages
  return messages.length

/-- What `TryProcessByIdAsync` does with the message it has locked.  In queue-mediated mode without a
publisher it does nothing. -/
def processLockedMessageAsync (p : Pipeline) (hasPublisher : Bool) (loop : LoopSchedule)
    (message : OutboxMessage) : BatchAsync Unit := do
  if p.options.processingMode = .queueMediated then
    if hasPublisher then
      p.processQueueMediatedAsync p.options.instanceId [message]
  else
    let subscriptions ← BatchAsync.getForMessage message
    BatchAsync.handling message.id
      (p.processSingleMessageAsync loop message p.options.instanceId subscriptions)

/-- `TryProcessByIdAsync`: whether the message was locked. -/
def tryProcessByIdAsync (p : Pipeline) (hasPublisher : Bool) (loop : LoopSchedule)
    (messageId : Guid) : BatchAsync Bool := do
  match ← BatchAsync.tryLockById messageId p.options.defaultVisibilityTimeout
      p.options.instanceId with
  | none => return false
  | some message =>
      p.processLockedMessageAsync hasPublisher loop message
      return true

end Pipeline

end OutboxNet
