import OutboxNet.Processor.Pipeline

/-!
# The calls of a queue-mediated round

A round in queue-mediated mode publishes its message to the queue and writes back to the row of its
message under its instance name.  It has no stages to speak of: `Call.OfQueued` says which calls it may
make, at any time, and `Call.Queueing` adds that it dead-letters only on the word of the retry policy.
-/

set_option autoImplicit false

namespace OutboxNet

/-- The calls of a queue-mediated round on a message. -/
def Call.OfQueued (message : OutboxMessage) (lockedBy : Text) : Call → Prop
  | .publish m => m = message
  | .markAsProcessed messageId by_ => messageId = message.id ∧ by_ = lockedBy
  | .incrementRetry messageId by_ _ _ => messageId = message.id ∧ by_ = lockedBy
  | .markAsDeadLettered messageId by_ => messageId = message.id ∧ by_ = lockedBy
  | .utcNow => True
  | .nextDouble => True
  | .addMetric _ _ => True
  | _ => False

/-- The calls of a queue-mediated round, with the reason for a dead-letter. -/
inductive Call.Queueing (p : Pipeline) (message : OutboxMessage) (lockedBy : Text) : Call → Prop
  | publish : Queueing p message lockedBy (.publish message)
  | markAsProcessed : Queueing p message lockedBy (.markAsProcessed message.id lockedBy)
  | incrementRetry {nextRetryAt : DateTimeOffset} {error : Option Text} :
      Queueing p message lockedBy (.incrementRetry message.id lockedBy nextRetryAt error)
  | giveUp {draw : ℚ} :
      p.retryPolicy.getNextDelay message.retryCount draw = .ok none →
      Queueing p message lockedBy (.markAsDeadLettered message.id lockedBy)
  | utcNow : Queueing p message lockedBy .utcNow
  | nextDouble : Queueing p message lockedBy .nextDouble
  | addMetric {metric : Metric} {eventType : Text} :
      Queueing p message lockedBy (.addMetric metric eventType)

theorem Call.Queueing.ofQueued {p : Pipeline} {message : OutboxMessage} {lockedBy : Text} {c : Call}
    (h : c.Queueing p message lockedBy) : c.OfQueued message lockedBy := by
  cases h with
  | publish => rfl
  | markAsProcessed => exact ⟨rfl, rfl⟩
  | incrementRetry => exact ⟨rfl, rfl⟩
  | giveUp => exact ⟨rfl, rfl⟩
  | utcNow => trivial
  | nextDouble => trivial
  | addMetric => trivial

namespace Pipeline

/-- The protocol of a queue-mediated round: its calls, in any order. -/
def QueuedTrans (message : OutboxMessage) (lockedBy : Text) (c : Call) (_ : Unit) (_ : c.Ans)
    (_ : Unit) : Prop :=
  c.OfQueued message lockedBy

/-- A program of a queue-mediated round. -/
abbrev Queued {α : Type} (message : OutboxMessage) (lockedBy : Text)
    (x : Prog Call Call.Ans α) : Prop :=
  x.Conforms (QueuedTrans message lockedBy) (fun _ _ => True) ()

/-- The same protocol, with the reason for a dead-letter. -/
def QueueingTrans (p : Pipeline) (message : OutboxMessage) (lockedBy : Text) (c : Call) (_ : Unit)
    (_ : c.Ans) (_ : Unit) : Prop :=
  c.Queueing p message lockedBy

/-- A program of a queue-mediated round that dead-letters only on the word of its retry policy. -/
abbrev Queueing {α : Type} (p : Pipeline) (message : OutboxMessage) (lockedBy : Text)
    (x : Prog Call Call.Ans α) : Prop :=
  x.Conforms (QueueingTrans p message lockedBy) (fun _ _ => True) ()

variable {p : Pipeline} {message : OutboxMessage} {lockedBy : Text}

theorem queueing_perform {c : Call} (h : c.Queueing p message lockedBy) :
    Queueing p message lockedBy (Prog.perform c : Prog Call Call.Ans c.Ans) :=
  Prog.conforms_perform fun _ => ⟨(), h, trivial⟩

theorem queueing_addMetric (metric : Metric) (eventType : Text) :
    Queueing p message lockedBy (Async.addMetric metric eventType).run :=
  fun _ => ⟨(), .addMetric, trivial⟩

theorem Queueing.andThen {α β : Type} {x : Async α} {f : α → Async β}
    (hx : Queueing p message lockedBy x.run) (hf : ∀ a, Queueing p message lockedBy (f a).run) :
    Queueing p message lockedBy (x >>= f).run :=
  Prog.Conforms.bindThrowing hx (fun a _ _ => hf a) fun _ _ _ => trivial

/-- A write-back, with its metric when it returns true. -/
theorem Queueing.counted {x : Async Bool} (hx : Queueing p message lockedBy x.run) (metric : Metric)
    (eventType : Text) : Queueing p message lockedBy
      (do if ← x then Async.addMetric metric eventType : Async Unit).run := by
  refine hx.andThen fun b => ?_
  cases b
  · exact trivial
  · exact queueing_addMetric metric eventType

theorem queueing_handleMessageFailureAsync (error : Option Text) :
    Queueing p message lockedBy (p.handleMessageFailureAsync message lockedBy error).run := by
  rw [handleMessageFailureAsync_run]
  refine fun draw => ⟨(), .nextDouble, ?_⟩
  beta_reduce
  cases hdelay : p.retryPolicy.getNextDelay message.retryCount draw with
  | error e => exact trivial
  | ok delay =>
      cases delay with
      | none =>
          have hclose : Queueing p message lockedBy
              (Async.markAsDeadLettered message.id lockedBy).run :=
            queueing_perform (.giveUp hdelay)
          exact hclose.counted .messagesDeadLettered message.eventType
      | some delay =>
          refine fun utcNow => ⟨(), .utcNow, ?_⟩
          beta_reduce
          cases addTime utcNow delay with
          | error e => exact trivial
          | ok nextRetryAt =>
              have hclose : Queueing p message lockedBy
                  (Async.incrementRetry message.id lockedBy nextRetryAt error).run :=
                queueing_perform .incrementRetry
              exact hclose.counted .messagesFailed message.eventType

/-- **A queue-mediated round makes only its own calls**, and dead-letters only when its retry policy
grants no further delay. -/
theorem processQueuedMessageAsync_queueing :
    Queueing p message lockedBy (p.processQueuedMessageAsync lockedBy message).run := by
  unfold processQueuedMessageAsync
  have hpublish : Queueing p message lockedBy (Async.publish message).run :=
    queueing_perform .publish
  have hclose : Queueing p message lockedBy (Async.markAsProcessed message.id lockedBy).run :=
    queueing_perform .markAsProcessed
  refine Queueing.andThen (Prog.Conforms.catching
    (hpublish.andThen fun _ => hclose.counted .messagesProcessed message.eventType)
    (fun _ _ _ => trivial) (fun _ _ _ _ => trivial) (fun _ _ _ _ => trivial)) ?_
  rintro (ex | _)
  · exact queueing_handleMessageFailureAsync (some ex.message)
  · exact trivial

theorem processQueuedMessageAsync_queued (p : Pipeline) :
    Queued message lockedBy (p.processQueuedMessageAsync lockedBy message).run :=
  processQueuedMessageAsync_queueing.mono_trans fun h => h.ofQueued

end Pipeline

end OutboxNet
