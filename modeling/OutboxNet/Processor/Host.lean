import OutboxNet.Processor.Batch
import OutboxNet.Processor.Database
import OutboxNet.Store.SubscriptionStore

/-!
# How the calls of a batch are answered

The environment of `ProcessBatchAsync` and `TryProcessByIdAsync` in one process: the database, a
subscription reader whose table or configuration does not change, and the throttle of
`ReleaseExpiredLocksAsync`.  As for a single message, `Effect` is a call that does what it is for, and
`Exec` adds the faults; between two calls time may pass.
-/

set_option autoImplicit false

namespace OutboxNet

open OutboxStore (releaseExpiredLocksAsync lockNextBatchAsync tryLockByIdAsync)

/-- The database, and the field `_lastLockReleaseTicks`. -/
structure Host where
  db : Database
  lastLockRelease : ℤ

namespace Host

/-- The host with another message table. -/
def withMessages (h : Host) (messages : Messages) : Host :=
  { h with db := { h.db with messages := messages } }

/-- The host at a later time. -/
def at_ (h : Host) (now : DateTimeOffset) : Host := { h with db := { h.db with now := now } }

variable (dep : Deployment) (options : OutboxOptions) (reader : SubscriptionReader)

/-- A call that does what it is for. -/
inductive Effect : (c : BatchCall) → Host → c.Ans → Host → Prop
  | utcNow (t : DateTimeOffset) (h : Host) : Effect .utcNow h t h
  | readLastLockRelease (h : Host) : Effect .readLastLockRelease h h.lastLockRelease h
  | compareExchange (value comparand : ℤ) (h : Host) :
      Effect (.compareExchangeLastLockRelease value comparand) h h.lastLockRelease
        (if h.lastLockRelease = comparand then { h with lastLockRelease := value } else h)
  | releaseExpiredLocks (h : Host) :
      Effect .releaseExpiredLocks h (.ok ())
        (h.withMessages (releaseExpiredLocksAsync h.db.now h.db.messages))
  | lockNextBatch {batchSize : ℤ} {visibilityTimeout : TimeSpan} {lockedBy : Text}
      {skipIds : Option (List Guid)} {h : Host} {scan batch : List OutboxMessage}
      {messages : Messages} :
      scan.Perm h.db.messages.rows →
      lockNextBatchAsync dep options h.db.now batchSize visibilityTimeout lockedBy
        (skipIds.getD []) scan h.db.messages = some (batch, messages) →
      Effect (.lockNextBatch batchSize visibilityTimeout lockedBy skipIds) h (.ok batch)
        (h.withMessages messages)
  | tryLockById {messageId : Guid} {visibilityTimeout : TimeSpan} {lockedBy : Text} {h : Host}
      {message : Option OutboxMessage} {messages : Messages} :
      tryLockByIdAsync dep h.db.now messageId visibilityTimeout lockedBy h.db.messages =
        some (message, messages) →
      Effect (.tryLockById messageId visibilityTimeout lockedBy) h (.ok message)
        (h.withMessages messages)
  | getForMessage {message : OutboxMessage} {subscriptions : List WebhookSubscription} {h : Host} :
      reader.Returns dep message subscriptions →
      Effect (.getForMessage message) h (.ok subscriptions) h
  | recordBatch (count : ℕ) (h : Host) : Effect (.recordBatch count) h () h
  | handling {messageId : Guid} {c : Call} {a : c.Ans} {h : Host} {db : Database} :
      Database.Effect dep c h.db a db →
      Effect (.handling messageId c) h a { h with db := db }

end Host

/-- The answer to a call that throws. -/
def BatchCall.threw : (c : BatchCall) → Exn → Option c.Ans
  | .utcNow, _ => none
  | .readLastLockRelease, _ => none
  | .compareExchangeLastLockRelease _ _, _ => none
  | .releaseExpiredLocks, e => some (.error e)
  | .lockNextBatch _ _ _ _, e => some (.error e)
  | .tryLockById _ _ _, e => some (.error e)
  | .getForMessage _, e => some (.error e)
  | .recordBatch _, _ => none
  | .handling _ c, e => c.threw e

namespace Host

variable (dep : Deployment) (options : OutboxOptions) (reader : SubscriptionReader)

/-- A call with the faults of the database and of the reader. -/
inductive Exec : (c : BatchCall) → Host → c.Ans → Host → Prop
  | effect {c : BatchCall} {h h' : Host} {a : c.Ans} {now : DateTimeOffset} :
      h.db.now ≤ now → Effect dep options reader c (h.at_ now) a h' → Exec c h a h'
  | failed {c : BatchCall} {h : Host} {a : c.Ans} {e : Exn} {now : DateTimeOffset} :
      h.db.now ≤ now → c.threw e = some a → Exec c h a (h.at_ now)
  | answerLost {c : BatchCall} {h h' : Host} {a a' : c.Ans} {e : Exn} {now : DateTimeOffset} :
      h.db.now ≤ now → c.threw e = some a → Effect dep options reader c (h.at_ now) a' h' →
      Exec c h a h'

end Host

/-- A call that goes neither to the outbox nor into the handling of a message. -/
def BatchCall.isAside : BatchCall → Bool
  | .utcNow => true
  | .readLastLockRelease => true
  | .compareExchangeLastLockRelease _ _ => true
  | .getForMessage _ => true
  | .recordBatch _ => true
  | _ => false

/-- A host, and the calls so far. -/
structure BatchSession where
  host : Host
  log : List BatchEntry

/-- A call of a batch. -/
def BatchSession.Exec (dep : Deployment) (options : OutboxOptions) (reader : SubscriptionReader)
    (c : BatchCall) (x : BatchSession) (a : c.Ans) (x' : BatchSession) : Prop :=
  Host.Exec dep options reader c x.host a x'.host ∧ x'.log = x.log ++ [⟨c, a⟩]

namespace Host

variable {dep : Deployment} {options : OutboxOptions} {reader : SubscriptionReader}

/-- A call that did not throw did what it is for, possibly later. -/
theorem Exec.of_not_threw {c : BatchCall} {h h' : Host} {a : c.Ans}
    (hexec : Exec dep options reader c h a h') (hthrew : ∀ e, c.threw e ≠ some a) :
    ∃ now, h.db.now ≤ now ∧ Effect dep options reader c (h.at_ now) a h' := by
  cases hexec with
  | effect hnow heffect => exact ⟨_, hnow, heffect⟩
  | failed _ h => exact absurd h (hthrew _)
  | answerLost _ h => exact absurd h (hthrew _)

theorem Effect.returns {message : OutboxMessage} {h h' : Host}
    {a : Except Exn (List WebhookSubscription)}
    (heffect : Effect dep options reader (BatchCall.getForMessage message) h a h') :
    ∃ subscriptions, a = .ok subscriptions ∧ reader.Returns dep message subscriptions := by
  cases heffect with
  | getForMessage hreturns => exact ⟨_, rfl, hreturns⟩

/-- What the reader returned is one of its answers. -/
theorem Exec.returns {message : OutboxMessage} {subscriptions : List WebhookSubscription}
    {h h' : Host}
    (hexec : Exec dep options reader (BatchCall.getForMessage message) h (Except.ok subscriptions)
      h') : reader.Returns dep message subscriptions := by
  obtain ⟨now, -, heffect⟩ := hexec.of_not_threw nofun
  obtain ⟨subscriptions', heq, hreturns⟩ := heffect.returns
  cases heq
  exact hreturns

/-- The reader answers, or throws; time may pass. -/
theorem exec_getForMessage_iff {message : OutboxMessage} {a : (BatchCall.getForMessage message).Ans}
    {h h' : Host} : Exec dep options reader (.getForMessage message) h a h' ↔
      ∃ now, h.db.now ≤ now ∧ h' = h.at_ now ∧
        ∀ subscriptions, a = Except.ok subscriptions → reader.Returns dep message subscriptions := by
  constructor
  · intro hexec
    cases hexec with
    | effect hnow heffect =>
        cases heffect with
        | getForMessage hreturns => exact ⟨_, hnow, rfl, fun _ heq => Except.ok.inj heq ▸ hreturns⟩
    | failed hnow hthrew =>
        cases hthrew
        exact ⟨_, hnow, rfl, nofun⟩
    | answerLost hnow hthrew heffect =>
        cases hthrew
        cases heffect with
        | getForMessage hreturns => exact ⟨_, hnow, rfl, nofun⟩
  · rintro ⟨now, hnow, rfl, hreturns⟩
    cases a with
    | error e => exact .failed hnow rfl
    | ok subscriptions => exact .effect hnow (.getForMessage (hreturns _ rfl))

/-- A call made in the handling of a message is answered by the database, possibly later. -/
theorem exec_handling_iff {messageId : Guid} {c : Call}
    {a : (BatchCall.handling messageId c).Ans} {h h' : Host} :
    Exec dep options reader (.handling messageId c) h a h' ↔
      ∃ now db, h.db.now ≤ now ∧ Database.Exec dep c { h.db with now := now } a db ∧
        h' = { h with db := db } := by
  constructor
  · intro hexec
    cases hexec with
    | effect hnow heffect =>
        cases heffect with
        | handling hdb => exact ⟨_, _, hnow, .effect hdb, rfl⟩
    | failed hnow hthrew => exact ⟨_, _, hnow, .failed hthrew, rfl⟩
    | answerLost hnow hthrew heffect =>
        cases heffect with
        | handling hdb => exact ⟨_, _, hnow, .answerLost hthrew hdb, rfl⟩
  · rintro ⟨now, db, hnow, hdb, rfl⟩
    cases hdb with
    | effect hdb => exact .effect hnow (.handling hdb)
    | failed hthrew => exact .failed hnow hthrew
    | answerLost hthrew hdb => exact .answerLost hnow hthrew (.handling hdb)

/-- A batch that was locked. -/
theorem Effect.locked {batchSize : ℤ} {visibilityTimeout : TimeSpan} {lockedBy : Text}
    {skipIds : Option (List Guid)} {h h' : Host} {a : Except Exn (List OutboxMessage)}
    (heffect : Effect dep options reader
      (BatchCall.lockNextBatch batchSize visibilityTimeout lockedBy skipIds) h a h') :
    ∃ scan batch messages, scan.Perm h.db.messages.rows ∧ a = .ok batch ∧
      lockNextBatchAsync dep options h.db.now batchSize visibilityTimeout lockedBy
        (skipIds.getD []) scan h.db.messages = some (batch, messages) ∧
      h' = h.withMessages messages := by
  cases heffect with
  | lockNextBatch hscan hlock => exact ⟨_, _, _, hscan, rfl, hlock, rfl⟩

theorem Exec.locked {batchSize : ℤ} {visibilityTimeout : TimeSpan} {lockedBy : Text}
    {skipIds : Option (List Guid)} {h h' : Host} {batch : List OutboxMessage}
    (hexec : Exec dep options reader
      (BatchCall.lockNextBatch batchSize visibilityTimeout lockedBy skipIds) h (Except.ok batch) h') :
    ∃ now scan messages, h.db.now ≤ now ∧ scan.Perm h.db.messages.rows ∧
      lockNextBatchAsync dep options now batchSize visibilityTimeout lockedBy
        (skipIds.getD []) scan h.db.messages = some (batch, messages) ∧
      h' = (h.at_ now).withMessages messages := by
  obtain ⟨now, hnow, heffect⟩ := hexec.of_not_threw nofun
  obtain ⟨scan, batch', messages, hscan, heq, hlock, rfl⟩ := heffect.locked
  cases heq
  exact ⟨now, scan, messages, hnow, hscan, hlock, rfl⟩

/-- A message that was locked by its id. -/
theorem Effect.lockedById {messageId : Guid} {visibilityTimeout : TimeSpan} {lockedBy : Text}
    {h h' : Host} {a : Except Exn (Option OutboxMessage)}
    (heffect : Effect dep options reader
      (BatchCall.tryLockById messageId visibilityTimeout lockedBy) h a h') :
    ∃ message messages, a = .ok message ∧
      tryLockByIdAsync dep h.db.now messageId visibilityTimeout lockedBy h.db.messages =
        some (message, messages) ∧ h' = h.withMessages messages := by
  cases heffect with
  | tryLockById hlock => exact ⟨_, _, rfl, hlock, rfl⟩

theorem Exec.lockedById {messageId : Guid} {visibilityTimeout : TimeSpan} {lockedBy : Text}
    {h h' : Host} {message : Option OutboxMessage}
    (hexec : Exec dep options reader
      (BatchCall.tryLockById messageId visibilityTimeout lockedBy) h (Except.ok message) h') :
    ∃ now messages, h.db.now ≤ now ∧
      tryLockByIdAsync dep now messageId visibilityTimeout lockedBy h.db.messages =
        some (message, messages) ∧ h' = (h.at_ now).withMessages messages := by
  obtain ⟨now, hnow, heffect⟩ := hexec.of_not_threw nofun
  obtain ⟨message', messages, heq, hlock, rfl⟩ := heffect.lockedById
  cases heq
  exact ⟨now, messages, hnow, hlock, rfl⟩

/-- A call that goes neither to the outbox nor into the handling of a message leaves the tables as they
are. -/
theorem Exec.tables {c : BatchCall} {h h' : Host} {a : c.Ans} (hc : c.isAside = true)
    (hexec : Exec dep options reader c h a h') :
    h'.db.messages = h.db.messages ∧ h'.db.attempts = h.db.attempts ∧ h.db.now ≤ h'.db.now := by
  have heffects : ∀ {c : BatchCall} {g g' : Host} {a : c.Ans}, c.isAside = true →
      Effect dep options reader c g a g' → g'.db = g.db := by
    intro c g g' a hc heffect
    cases heffect with
    | utcNow => rfl
    | readLastLockRelease => rfl
    | compareExchange => split <;> rfl
    | getForMessage => rfl
    | recordBatch => rfl
    | _ => cases hc
  cases hexec with
  | effect hnow heffect =>
      rw [heffects hc heffect]
      exact ⟨rfl, rfl, hnow⟩
  | failed hnow => exact ⟨rfl, rfl, hnow⟩
  | answerLost hnow _ heffect =>
      rw [heffects hc heffect]
      exact ⟨rfl, rfl, hnow⟩

/-- Releasing expired locks leaves a pending row alone. -/
theorem Exec.pending {h h' : Host} {a : (BatchCall.releaseExpiredLocks).Ans} {k : Guid}
    {row : OutboxMessage} (hexec : Exec dep options reader .releaseExpiredLocks h a h')
    (hrow : h.db.messages.find? k = some row) (hpending : row.status = .pending) :
    h'.db.messages.find? k = some row ∧ h'.db.attempts = h.db.attempts ∧ h.db.now ≤ h'.db.now := by
  have hkept : ∀ now, (releaseExpiredLocksAsync now h.db.messages).find? k = some row := by
    intro now
    rw [OutboxStore.releaseExpiredLocksAsync, Table.find?_update, hrow, Option.map_some]
    simp [OutboxStore.expired, hpending]
  cases hexec with
  | effect hnow heffect =>
      cases heffect with
      | releaseExpiredLocks => exact ⟨hkept _, rfl, hnow⟩
  | failed hnow => exact ⟨hrow, rfl, hnow⟩
  | answerLost hnow _ heffect =>
      cases heffect with
      | releaseExpiredLocks => exact ⟨hkept _, rfl, hnow⟩

/-- Every call can be answered. -/
theorem exec_total (dep : Deployment) (options : OutboxOptions) (reader : SubscriptionReader)
    (c : BatchCall) (h : Host) : ∃ a h', Exec dep options reader c h a h' := by
  cases c with
  | utcNow => exact ⟨_, _, .effect le_rfl (.utcNow 0 _)⟩
  | readLastLockRelease => exact ⟨_, _, .effect le_rfl (.readLastLockRelease _)⟩
  | compareExchangeLastLockRelease => exact ⟨_, _, .effect le_rfl (.compareExchange _ _ _)⟩
  | releaseExpiredLocks => exact ⟨_, _, .effect le_rfl (.releaseExpiredLocks _)⟩
  | lockNextBatch => exact ⟨_, _, .failed (e := .operationCanceled) le_rfl rfl⟩
  | tryLockById => exact ⟨_, _, .failed (e := .operationCanceled) le_rfl rfl⟩
  | getForMessage message =>
      obtain ⟨subscriptions, hreturns⟩ := reader.exists_returns dep message
      exact ⟨_, _, .effect le_rfl (.getForMessage hreturns)⟩
  | recordBatch count => exact ⟨_, _, .effect le_rfl (.recordBatch count _)⟩
  | handling messageId c =>
      obtain ⟨a, db, hdb⟩ := Database.exec_total dep c h.db
      exact ⟨a, _, exec_handling_iff.mpr ⟨h.db.now, db, le_rfl, hdb, rfl⟩⟩

end Host

theorem BatchSession.exec_total (dep : Deployment) (options : OutboxOptions)
    (reader : SubscriptionReader) (c : BatchCall) (x : BatchSession) :
    ∃ a x', BatchSession.Exec dep options reader c x a x' := by
  obtain ⟨a, host, hhost⟩ := Host.exec_total dep options reader c x.host
  exact ⟨a, ⟨host, x.log ++ [⟨c, a⟩]⟩, hhost, rfl⟩

end OutboxNet
