import OutboxNet.Processor.Calls
import OutboxNet.Store.Operations

/-!
# How the calls of a round are answered

The environment of a round: the two tables and the clock of the database, the endpoints behind the
deliverer, the queue, the clock and the random numbers of the process.  `Effect` is a call that does what it is
for; `Exec` adds the faults: any store call may throw without an effect, and may throw although its
statement was carried out, the answer being lost.
-/

set_option autoImplicit false

namespace OutboxNet

/-- The database: its tables and its clock. -/
structure Database where
  messages : Messages
  attempts : Attempts
  now : DateTimeOffset

namespace Database

open OutboxStore AttemptStore

variable (dep : Deployment)

/-- A call that does what it is for.  The deliverer may return any result; it and the queue may
throw. -/
inductive Effect : (c : Call) → Database → c.Ans → Database → Prop
  | getDeliveryStates (messageId : Guid) (subscriptionIds : List Guid) (d : Database) :
      Effect (.getDeliveryStates messageId subscriptionIds) d
        (.ok (getDeliveryStatesAsync messageId subscriptionIds d.attempts)) d
  | saveAttempts {newAttempts : List DeliveryAttempt} {d : Database} {defaults : Defaults}
      {attempts : Attempts} :
      saveAttemptsAsync dep defaults d.messages newAttempts d.attempts = some attempts →
      Effect (.saveAttempts newAttempts) d (.ok ()) { d with attempts := attempts }
  | markAsProcessed (messageId : Guid) (lockedBy : Text) (d : Database) :
      Effect (.markAsProcessed messageId lockedBy) d
        (.ok (markAsProcessedAsync dep d.now messageId lockedBy d.messages).1)
        { d with messages := (markAsProcessedAsync dep d.now messageId lockedBy d.messages).2 }
  | incrementRetry {messageId : Guid} {lockedBy : Text} {nextRetryAt : DateTimeOffset}
      {error : Option Text} {d : Database} {b : Bool} {messages : Messages} :
      incrementRetryAsync dep messageId lockedBy nextRetryAt error d.messages = some (b, messages) →
      Effect (.incrementRetry messageId lockedBy nextRetryAt error) d (.ok b)
        { d with messages := messages }
  | markAsDeadLettered (messageId : Guid) (lockedBy : Text) (d : Database) :
      Effect (.markAsDeadLettered messageId lockedBy) d
        (.ok (markAsDeadLetteredAsync dep messageId lockedBy d.messages).1)
        { d with messages := (markAsDeadLetteredAsync dep messageId lockedBy d.messages).2 }
  | deliver (message : OutboxMessage) (subscription : WebhookSubscription) (deliveryId : Guid)
      (r : Except Exn DeliveryResult) (d : Database) :
      Effect (.deliver message subscription deliveryId) d r d
  | publish (message : OutboxMessage) (r : Except Exn Unit) (d : Database) :
      Effect (.publish message) d r d
  | utcNow (t : DateTimeOffset) (d : Database) : Effect .utcNow d t d
  | nextDouble {draw : ℚ} (d : Database) : 0 ≤ draw → draw < 1 → Effect .nextDouble d draw d
  | addMetric (metric : Metric) (eventType : Text) (d : Database) :
      Effect (.addMetric metric eventType) d () d

end Database

namespace Call

/-- The answer to a store call that throws. -/
def threw : (c : Call) → Exn → Option c.Ans
  | .getDeliveryStates _ _, e => some (.error e)
  | .saveAttempts _, e => some (.error e)
  | .markAsProcessed _ _, e => some (.error e)
  | .incrementRetry _ _ _ _, e => some (.error e)
  | .markAsDeadLettered _ _, e => some (.error e)
  | .deliver _ _ _, _ => none
  | .publish _, _ => none
  | .utcNow, _ => none
  | .nextDouble, _ => none
  | .addMetric _ _, _ => none

/-- Whether a call goes to the database. -/
def isStore : Call → Bool
  | .getDeliveryStates _ _ => true
  | .saveAttempts _ => true
  | .markAsProcessed _ _ => true
  | .incrementRetry _ _ _ _ => true
  | .markAsDeadLettered _ _ => true
  | _ => false

/-- The write-back a call stands for, with its message and instance name. -/
def writeBack? : Call → Option (OutboxStore.WriteBack × Guid × Text)
  | .markAsProcessed messageId lockedBy => some (.processed, messageId, lockedBy)
  | .incrementRetry messageId lockedBy nextRetryAt error =>
      some (.retry nextRetryAt error, messageId, lockedBy)
  | .markAsDeadLettered messageId lockedBy => some (.deadLettered, messageId, lockedBy)
  | _ => none

/-- What a write-back returns, when it returns. -/
def answer? : (c : Call) → c.Ans → Option Bool
  | .markAsProcessed _ _, a => Except.toOption a
  | .incrementRetry _ _ _ _, a => Except.toOption a
  | .markAsDeadLettered _ _, a => Except.toOption a
  | _, _ => none

/-- A call that throws returns nothing. -/
theorem answer?_of_threw {c : Call} {e : Exn} {a : c.Ans} (h : c.threw e = some a) :
    c.answer? a = none := by
  cases c <;> cases h <;> rfl

end Call

namespace Database

open OutboxStore AttemptStore

variable (dep : Deployment)

/-- A call with the faults of the database. -/
inductive Exec : (c : Call) → Database → c.Ans → Database → Prop
  | effect {c : Call} {d d' : Database} {a : c.Ans} : Effect dep c d a d' → Exec c d a d'
  | failed {c : Call} {d : Database} {a : c.Ans} {e : Exn} : c.threw e = some a → Exec c d a d
  | answerLost {c : Call} {d d' : Database} {a a' : c.Ans} {e : Exn} :
      c.threw e = some a → Effect dep c d a' d' → Exec c d a d'

variable {dep}

/-! ## What a call does to the tables -/

/-- What a call can do to the tables: nothing, an insert of the attempts it saves, or its write-back. -/
inductive Change (dep : Deployment) (c : Call) (d : Database) : Database → Prop
  | none : Change dep c d d
  | saved {newAttempts : List DeliveryAttempt} {defaults : Defaults} {attempts : Attempts} :
      c = .saveAttempts newAttempts →
      saveAttemptsAsync dep defaults d.messages newAttempts d.attempts = some attempts →
      Change dep c d { d with attempts := attempts }
  | wroteBack {kind : WriteBack} {messageId : Guid} {lockedBy : Text} {b : Bool}
      {messages : Messages} :
      c.writeBack? = some (kind, messageId, lockedBy) →
      kind.run dep d.now messageId lockedBy d.messages = some (b, messages) →
      Change dep c d { d with messages := messages }

theorem Effect.change {c : Call} {d d' : Database} {a : c.Ans} (h : Effect dep c d a d') :
    Change dep c d d' := by
  cases h with
  | getDeliveryStates => exact .none
  | saveAttempts h => exact .saved rfl h
  | markAsProcessed => exact .wroteBack rfl rfl
  | incrementRetry h => exact .wroteBack rfl h
  | markAsDeadLettered => exact .wroteBack rfl rfl
  | deliver => exact .none
  | publish => exact .none
  | utcNow => exact .none
  | nextDouble => exact .none
  | addMetric => exact .none

theorem Exec.change {c : Call} {d d' : Database} {a : c.Ans} (h : Exec dep c d a d') :
    Change dep c d d' := by
  cases h with
  | effect h => exact h.change
  | failed => exact .none
  | answerLost _ h => exact h.change

/-- A call that did not throw did what it is for. -/
theorem Exec.of_not_threw {c : Call} {d d' : Database} {a : c.Ans} (h : Exec dep c d a d')
    (hthrew : ∀ e, c.threw e ≠ some a) : Effect dep c d a d' := by
  cases h with
  | effect h => exact h
  | failed h => exact absurd h (hthrew _)
  | answerLost h => exact absurd h (hthrew _)

theorem Effect.read {messageId : Guid} {subscriptionIds : List Guid} {d d' : Database}
    {a : Except Exn States}
    (h : Effect dep (Call.getDeliveryStates messageId subscriptionIds) d a d') :
    a = .ok (getDeliveryStatesAsync messageId subscriptionIds d.attempts) ∧ d' = d := by
  cases h
  exact ⟨rfl, rfl⟩

theorem Effect.saved {newAttempts : List DeliveryAttempt} {d d' : Database} {a : Except Exn Unit}
    (h : Effect dep (Call.saveAttempts newAttempts) d a d') : a = .ok () ∧ ∃ defaults attempts,
      saveAttemptsAsync dep defaults d.messages newAttempts d.attempts = some attempts ∧
      d' = { d with attempts := attempts } := by
  cases h with
  | saveAttempts h => exact ⟨rfl, _, _, h, rfl⟩

/-- A random number is in [0, 1). -/
theorem Effect.drew {d d' : Database} {draw : ℚ} (h : Effect dep Call.nextDouble d draw d') :
    0 ≤ draw ∧ draw < 1 := by
  cases h with
  | nextDouble _ hle hlt => exact ⟨hle, hlt⟩

/-- A read that returned states has read them. -/
theorem Exec.read {messageId : Guid} {subscriptionIds : List Guid} {d d' : Database}
    {states : States}
    (h : Exec dep (Call.getDeliveryStates messageId subscriptionIds) d (Except.ok states) d') :
    states = getDeliveryStatesAsync messageId subscriptionIds d.attempts ∧ d' = d := by
  obtain ⟨ha, hd⟩ := (h.of_not_threw nofun).read
  exact ⟨Except.ok.inj ha, hd⟩

/-- A save that returned has saved. -/
theorem Exec.saved {newAttempts : List DeliveryAttempt} {d d' : Database}
    (h : Exec dep (Call.saveAttempts newAttempts) d (Except.ok ()) d') : ∃ defaults attempts,
      saveAttemptsAsync dep defaults d.messages newAttempts d.attempts = some attempts ∧
      d' = { d with attempts := attempts } :=
  (h.of_not_threw nofun).saved.2

/-- A write-back that does what it is for returns the answer of its statement. -/
theorem Effect.writeBack {c : Call} {d d' : Database} {a : c.Ans} (h : Effect dep c d a d')
    {kind : WriteBack} {messageId : Guid} {lockedBy : Text}
    (hc : c.writeBack? = some (kind, messageId, lockedBy)) : ∃ b, c.answer? a = some b ∧
      kind.run dep d.now messageId lockedBy d.messages = some (b, d'.messages) := by
  cases h with
  | getDeliveryStates => cases hc
  | saveAttempts => cases hc
  | markAsProcessed =>
      cases hc
      exact ⟨_, rfl, rfl⟩
  | incrementRetry hrun =>
      cases hc
      exact ⟨_, rfl, hrun⟩
  | markAsDeadLettered =>
      cases hc
      exact ⟨_, rfl, rfl⟩
  | deliver => cases hc
  | publish => cases hc
  | utcNow => cases hc
  | nextDouble => cases hc
  | addMetric => cases hc

/-- A write-back that returns has been carried out. -/
theorem Exec.writeBack {c : Call} {d d' : Database} {a : c.Ans} (h : Exec dep c d a d')
    {kind : WriteBack} {messageId : Guid} {lockedBy : Text}
    (hc : c.writeBack? = some (kind, messageId, lockedBy)) {b : Bool} (ha : c.answer? a = some b) :
    kind.run dep d.now messageId lockedBy d.messages = some (b, d'.messages) := by
  cases h with
  | effect h =>
      obtain ⟨b', hb', hrun⟩ := h.writeBack hc
      rw [ha] at hb'
      cases hb'
      exact hrun
  | failed hthrew =>
      rw [Call.answer?_of_threw hthrew] at ha
      cases ha
  | answerLost hthrew =>
      rw [Call.answer?_of_threw hthrew] at ha
      cases ha

/-- A write-back that returned true found the row it is addressed to held. -/
theorem Exec.held {c : Call} {d d' : Database} {a : c.Ans} (h : Exec dep c d a d')
    {kind : WriteBack} {messageId : Guid} {lockedBy : Text}
    (hc : c.writeBack? = some (kind, messageId, lockedBy)) (ha : c.answer? a = some true) :
    ∃ m, d.messages.find? messageId = some m ∧ heldBy dep messageId lockedBy m = true := by
  obtain ⟨hb, -⟩ := WriteBack.run_eq (h.writeBack hc ha)
  obtain ⟨m, hm, hheld⟩ := List.any_eq_true.mp hb.symm
  refine ⟨m, Table.find?_eq_some_iff.mpr ⟨hm, ?_⟩, hheld⟩
  simp only [heldBy, Bool.and_eq_true, decide_eq_true_eq] at hheld
  exact hheld.1

/-- A write-back that returned true has set its row. -/
theorem Exec.written {c : Call} {d d' : Database} {a : c.Ans} (h : Exec dep c d a d')
    {kind : WriteBack} {messageId : Guid} {lockedBy : Text}
    (hc : c.writeBack? = some (kind, messageId, lockedBy)) (ha : c.answer? a = some true)
    {row : OutboxMessage} (hrow : d.messages.find? messageId = some row) :
    d'.messages.find? messageId = some (kind.set dep d.now row) := by
  obtain ⟨held, hfind, hheld⟩ := h.held hc ha
  have heq : held = row := Option.some.inj (hfind.symm.trans hrow)
  subst heq
  obtain ⟨-, hf, hmessages⟩ := WriteBack.run_eq (h.writeBack hc ha)
  rw [hmessages, Table.find?_update]
  change (d.messages.find? messageId).map _ = _
  rw [hrow, Option.map_some, if_pos hheld]

/-- A call does not move the clock. -/
theorem Change.now {c : Call} {d d' : Database} (h : Change dep c d d') : d'.now = d.now := by
  cases h <;> rfl

/-- A call changes the attempts by a save or not at all. -/
theorem Change.attempts {c : Call} {d d' : Database} (h : Change dep c d d') :
    d'.attempts = d.attempts ∨ ∃ newAttempts defaults, c = .saveAttempts newAttempts ∧
      saveAttemptsAsync dep defaults d.messages newAttempts d.attempts = some d'.attempts := by
  cases h with
  | none => exact .inl rfl
  | saved hc hsave => exact .inr ⟨_, _, hc, hsave⟩
  | wroteBack => exact .inl rfl

/-- The attempts that are stored stay stored. -/
theorem Change.hasSuccess {c : Call} {d d' : Database} (h : Change dep c d d')
    {messageId subscriptionId : Guid}
    (hs : AttemptStore.hasSuccess messageId subscriptionId d.attempts = true) :
    AttemptStore.hasSuccess messageId subscriptionId d'.attempts = true := by
  cases h with
  | none => exact hs
  | saved _ hsave => exact (hasSuccess_saveAttemptsAsync hsave _ _).mpr (.inl hs)
  | wroteBack => exact hs

/-- A call changes the message table by its write-back or not at all. -/
theorem Change.messages {c : Call} {d d' : Database} (h : Change dep c d d') :
    d'.messages = d.messages ∨ ∃ kind messageId lockedBy b,
      c.writeBack? = some (kind, messageId, lockedBy) ∧ OutboxStore.Step dep d.messages
        ⟨d.now, .writeBack kind messageId lockedBy, .answer b⟩ d'.messages := by
  cases h with
  | none => exact .inl rfl
  | saved => exact .inl rfl
  | @wroteBack kind messageId lockedBy b messages hc hrun =>
      refine .inr ⟨kind, messageId, lockedBy, b, hc, trivial, ?_⟩
      simp only [Op.run, hrun, orRefused]

/-- Every call can be answered. -/
theorem exec_total (dep : Deployment) (c : Call) (d : Database) : ∃ a d', Exec dep c d a d' := by
  cases c with
  | getDeliveryStates => exact ⟨_, _, .effect (.getDeliveryStates _ _ d)⟩
  | saveAttempts => exact ⟨_, d, .failed (e := .operationCanceled) rfl⟩
  | markAsProcessed => exact ⟨_, _, .effect (.markAsProcessed _ _ d)⟩
  | incrementRetry => exact ⟨_, d, .failed (e := .operationCanceled) rfl⟩
  | markAsDeadLettered => exact ⟨_, _, .effect (.markAsDeadLettered _ _ d)⟩
  | deliver => exact ⟨_, d, .effect (.deliver _ _ _ (.error .operationCanceled) d)⟩
  | publish => exact ⟨_, d, .effect (.publish _ (.ok ()) d)⟩
  | utcNow => exact ⟨_, d, .effect (.utcNow 0 d)⟩
  | nextDouble => exact ⟨_, d, .effect (.nextDouble d le_rfl one_pos)⟩
  | addMetric => exact ⟨_, d, .effect (.addMetric _ _ d)⟩

/-- A row that is there stays there. -/
theorem Change.find? {c : Call} {d d' : Database} (h : Change dep c d d') (k : Guid) :
    d.messages.find? k = Option.none ↔ d'.messages.find? k = Option.none := by
  rcases h.messages with heq | ⟨kind, messageId, lockedBy, b, -, hs⟩
  · rw [heq]
  · have hc := hs.rowChange k
    generalize d.messages.find? k = o at hc
    generalize d'.messages.find? k = o' at hc
    cases hc with
    | same => exact Iff.rfl
    | publish hop => cases hop
    | lock => simp
    | writeBack => simp
    | release => simp
    | purge hop => cases hop

end Database

/-- The database, and the calls of a round so far. -/
structure Session where
  db : Database
  log : List Entry

/-- A call of a round, with the faults of the database. -/
def Session.Exec (dep : Deployment) (c : Call) (x : Session) (a : c.Ans) (x' : Session) : Prop :=
  Database.Exec dep c x.db a x'.db ∧ x'.log = x.log ++ [⟨c, a⟩]

end OutboxNet
