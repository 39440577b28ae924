import OutboxNet.Lib.Runs
import OutboxNet.Store.OutboxStore

/-!
# Runs of the message store

A call of `IOutboxStore` with its arguments is an `Op`; an `Event` is a call made at some clock value
with its result; `Step` is the effect of one event on the table.  `Step.rowChange` says once what an
event can do to one row.  Every invariant of the table is derived from it.
-/

set_option autoImplicit false

namespace OutboxNet.OutboxStore

variable (dep : Deployment)

/-! ## Calls and events -/

/-- Which of the four write-backs. -/
inductive WriteBack : Type
  | processed
  | failed (error : Option Text)
  | retry (nextRetryAt : DateTimeOffset) (error : Option Text)
  | deadLettered
deriving DecidableEq, Repr

/-- What a write-back sets. -/
def WriteBack.set (now : DateTimeOffset) : WriteBack → OutboxMessage → OutboxMessage
  | .processed => setProcessed now
  | .failed error => setFailed error
  | .retry nextRetryAt error => setRetry dep nextRetryAt error
  | .deadLettered => setDeadLettered

/-- A call with its arguments.  `publish` is the committed insert of a publisher; the order in which
the candidate scan meets the rows is an argument of `lockNextBatch`. -/
inductive Op : Type
  | publish (a : PublishArgs)
  | lockNextBatch (options : OutboxOptions) (batchSize : ℤ) (visibilityTimeout : TimeSpan)
      (lockedBy : Text) (skipIds : List Guid) (scan : List OutboxMessage)
  | tryLockById (messageId : Guid) (visibilityTimeout : TimeSpan) (lockedBy : Text)
  | writeBack (kind : WriteBack) (messageId : Guid) (lockedBy : Text)
  | isLockHeld (messageId : Guid) (lockedBy : Text)
  | releaseExpiredLocks
  | purgeProcessedMessages (olderThan : DateTimeOffset)
deriving DecidableEq, Repr

inductive Result : Type
  | unit
  | locked (batch : List OutboxMessage)
  | answer (b : Bool)
  | count (n : ℕ)
  | refused
deriving DecidableEq, Repr

/-- The messages a call has acquired. -/
def Result.batch : Result → List OutboxMessage
  | .locked batch => batch
  | _ => []

/-- A statement that may be refused, as a result and a table. -/
def orRefused {α : Type} (result : α → Result) (t : Messages) :
    Option (α × Messages) → Result × Messages
  | some (a, t') => (result a, t')
  | none => (.refused, t)

/-- The write-back of a kind. -/
def WriteBack.run (now : DateTimeOffset) (messageId : Guid) (lockedBy : Text) (t : Messages) :
    WriteBack → Option (Bool × Messages)
  | .processed => some (markAsProcessedAsync dep now messageId lockedBy t)
  | .failed error => some (markAsFailedAsync dep messageId lockedBy error t)
  | .retry nextRetryAt error => incrementRetryAsync dep messageId lockedBy nextRetryAt error t
  | .deadLettered => some (markAsDeadLetteredAsync dep messageId lockedBy t)

/-- What a call does at clock value `now`. -/
def Op.run (now : DateTimeOffset) : Op → Messages → Result × Messages
  | .publish a, t =>
      orRefused (fun _ => .unit) t
        ((publishedRow dep now a).bind fun m => (t.insertAll? [m]).map fun t' => ((), t'))
  | .lockNextBatch options batchSize visibilityTimeout lockedBy skipIds scan, t =>
      orRefused .locked t
        (lockNextBatchAsync dep options now batchSize visibilityTimeout lockedBy skipIds scan t)
  | .tryLockById messageId visibilityTimeout lockedBy, t =>
      orRefused (fun m => .locked m.toList) t
        (tryLockByIdAsync dep now messageId visibilityTimeout lockedBy t)
  | .writeBack kind messageId lockedBy, t =>
      orRefused .answer t (kind.run dep now messageId lockedBy t)
  | .isLockHeld messageId lockedBy, t => (.answer (isLockHeldAsync dep now messageId lockedBy t), t)
  | .releaseExpiredLocks, t => (.unit, releaseExpiredLocksAsync now t)
  | .purgeProcessedMessages olderThan, t =>
      let (n, t') := purgeProcessedMessagesAsync olderThan t
      (.count n, t')

/-- The candidate scan meets every row once. -/
def Op.Valid (t : Messages) : Op → Prop
  | .lockNextBatch _ _ _ _ _ scan => scan.Perm t.rows
  | _ => True

/-- A call made at clock value `now`, with its result. -/
structure Event where
  now : DateTimeOffset
  op : Op
  result : Result
deriving DecidableEq, Repr

/-- An event takes the table from `t` to `t'`. -/
def Step (t : Messages) (e : Event) (t' : Messages) : Prop :=
  e.op.Valid t ∧ e.op.run dep e.now t = (e.result, t')

instance (t : Messages) : DecidablePred (Op.Valid t) := fun op => by
  cases op <;> unfold Op.Valid <;> infer_instance

/-- The events of calls made one after another, and the table they leave. -/
def execute : List (DateTimeOffset × Op) → Messages → List Event × Messages
  | [], t => ([], t)
  | (now, op) :: calls, t =>
      let r := op.run dep now t
      let rest := execute calls r.2
      (⟨now, op, r.1⟩ :: rest.1, rest.2)

/-- Every scan along the way meets every row once. -/
def executable : List (DateTimeOffset × Op) → Messages → Bool
  | [], _ => true
  | (now, op) :: calls, t => decide (op.Valid t) && executable calls (op.run dep now t).2

theorem execute_steps {calls : List (DateTimeOffset × Op)} {t : Messages}
    (h : executable dep calls t = true) :
    Steps (Step dep) t (execute dep calls t).1 (execute dep calls t).2 := by
  induction calls generalizing t with
  | nil => exact .nil t
  | cons c calls ih =>
      obtain ⟨now, op⟩ := c
      simp only [executable, Bool.and_eq_true, decide_eq_true_eq] at h
      exact .cons ⟨h.1, rfl⟩ (ih h.2)

/-! ## What an event does to one row -/

variable {dep}

/-- The row with one key before and after an event. -/
inductive RowChange (dep : Deployment) (e : Event) :
    Option OutboxMessage → Option OutboxMessage → Prop
  | same (o : Option OutboxMessage) : RowChange dep e o o
  | publish {a : PublishArgs} {m : OutboxMessage} :
      e.op = .publish a → publishedRow dep e.now a = some m → RowChange dep e none (some m)
  | lock {m : OutboxMessage} {lockedBy : Text} {until_ : DateTimeOffset} :
      (m.status = .pending ∨ m.status = .processing) → due e.now m = true →
      lockRow lockedBy until_ m ∈ e.result.batch →
      RowChange dep e (some m) (some (lockRow lockedBy until_ m))
  | writeBack {kind : WriteBack} {messageId : Guid} {lockedBy : Text} {m : OutboxMessage} :
      e.op = .writeBack kind messageId lockedBy → heldBy dep messageId lockedBy m = true →
      e.result = .answer true → RowChange dep e (some m) (some (kind.set dep e.now m))
  | release {m : OutboxMessage} :
      e.op = .releaseExpiredLocks → expired e.now m = true →
      RowChange dep e (some m) (some (unlockAs .pending m))
  | purge {olderThan : DateTimeOffset} {m : OutboxMessage} :
      e.op = .purgeProcessedMessages olderThan → purgeable olderThan m = true →
      RowChange dep e (some m) none

/-- An update changes each row it finds by the given function. -/
theorem rowChange_update {e : Event} {t : Messages} {p : OutboxMessage → Bool}
    {f : OutboxMessage → OutboxMessage} {hf : ∀ m, (f m).id = m.id}
    (h : ∀ m ∈ t.rows, p m = true → RowChange dep e (some m) (some (f m))) (k : Guid) :
    RowChange dep e (t.find? k) ((t.update p f hf).find? k) := by
  rw [Table.find?_update]
  cases hk : t.find? k with
  | none => exact .same none
  | some m =>
      simp only [Option.map_some]
      split
      · next hp => exact h m (Table.find?_mem hk) hp
      · exact .same (some m)

/-- A write-back sets the rows it finds held, and says whether there were any. -/
theorem WriteBack.run_eq {kind : WriteBack} {now : DateTimeOffset} {messageId : Guid}
    {lockedBy : Text} {t t' : Messages} {b : Bool}
    (h : kind.run dep now messageId lockedBy t = some (b, t')) :
    b = t.rows.any (heldBy dep messageId lockedBy) ∧
      ∃ hf, t' = t.update (heldBy dep messageId lockedBy) (kind.set dep now) hf := by
  cases kind with
  | processed =>
      cases h
      exact ⟨rfl, fun _ => rfl, rfl⟩
  | failed error =>
      cases h
      exact ⟨rfl, fun _ => rfl, rfl⟩
  | retry nextRetryAt error =>
      simp only [WriteBack.run, incrementRetryAsync] at h
      split at h
      · cases h
      · cases h
        exact ⟨rfl, fun _ => rfl, rfl⟩
  | deadLettered =>
      cases h
      exact ⟨rfl, fun _ => rfl, rfl⟩

/-- A write-back that finds no row held does nothing. -/
theorem WriteBack.run_not_held {kind : WriteBack} {now : DateTimeOffset} {messageId : Guid}
    {lockedBy : Text} {t t' : Messages} {b : Bool}
    (h : kind.run dep now messageId lockedBy t = some (b, t'))
    (hheld : ∀ m ∈ t.rows, heldBy dep messageId lockedBy m = false) : b = false ∧ t' = t := by
  obtain ⟨hb, hf, rfl⟩ := WriteBack.run_eq h
  refine ⟨?_, Table.update_eq_self hheld⟩
  rw [hb, List.any_eq_false]
  intro m hm
  simp [hheld m hm]

/-- A write-back changes the row it is addressed to, if held, and says so. -/
theorem rowChange_writeBack {e : Event} {t t' : Messages} {kind : WriteBack} {messageId : Guid}
    {lockedBy : Text} (hop : e.op = .writeBack kind messageId lockedBy) {b : Bool}
    (hrun : kind.run dep e.now messageId lockedBy t = some (b, t')) (hres : e.result = .answer b)
    (k : Guid) : RowChange dep e (t.find? k) (t'.find? k) := by
  obtain ⟨hb, hf, rfl⟩ := WriteBack.run_eq hrun
  refine rowChange_update (fun m hm hp => .writeBack hop hp ?_) k
  rw [hres, hb, List.any_eq_true.mpr ⟨m, hm, hp⟩]

/-- An acquisition locks the rows it returns. -/
theorem rowChange_acquired {e : Event} {t t' : Messages} {visibilityTimeout : TimeSpan}
    {lockedBy : Text} {chosen : OutboxMessage → Bool} {until_ : DateTimeOffset}
    (h : Acquired dep e.now visibilityTimeout lockedBy t chosen until_ e.result.batch t')
    (k : Guid) : RowChange dep e (t.find? k) (t'.find? k) := by
  rw [h.table_eq]
  exact rowChange_update
    (fun m hm hc => .lock (h.free m hm hc) (h.due m hm hc) (h.batch_mem hm hc)) k

/-- A statement was refused and changed nothing, or it went through. -/
theorem orRefused_cases {α : Type} {result : α → Result} {t t' : Messages}
    {o : Option (α × Messages)} {r : Result} (h : orRefused result t o = (r, t')) :
    (r = .refused ∧ t' = t) ∨ ∃ a, o = some (a, t') ∧ r = result a := by
  cases o with
  | none =>
      cases h
      exact .inl ⟨rfl, rfl⟩
  | some x =>
      cases h
      exact .inr ⟨x.1, rfl, rfl⟩

/-- The time-out of a call that acquires messages. -/
def Op.visibilityTimeout? : Op → Option TimeSpan
  | .lockNextBatch _ _ visibilityTimeout _ _ _ => some visibilityTimeout
  | .tryLockById _ visibilityTimeout _ => some visibilityTimeout
  | _ => none

/-- A call that returned a message has acquired it, by one of the two statements, with its time-out. -/
theorem Step.acquired_with {e : Event} {t t' : Messages} (h : Step dep t e t') {m' : OutboxMessage}
    (hm' : m' ∈ e.result.batch) : ∃ visibilityTimeout lockedBy chosen until_,
      e.op.visibilityTimeout? = some visibilityTimeout ∧
      Acquired dep e.now visibilityTimeout lockedBy t chosen until_ e.result.batch t' := by
  obtain ⟨now, op, result⟩ := e
  obtain ⟨hvalid, hrun⟩ := h
  simp only at hvalid hrun hm' ⊢
  -- only the two lock statements answer with messages
  cases op with
  | lockNextBatch options batchSize visibilityTimeout lockedBy skipIds scan =>
      rcases orRefused_cases hrun with ⟨rfl, -⟩ | ⟨batch, hlock, rfl⟩
      · cases hm'
      · obtain ⟨chosen, until_, hacq, -⟩ := lockNextBatchAsync_spec hvalid hlock
        exact ⟨visibilityTimeout, lockedBy, chosen, until_, rfl, hacq⟩
  | tryLockById messageId visibilityTimeout lockedBy =>
      rcases orRefused_cases hrun with ⟨rfl, -⟩ | ⟨locked, hlock, rfl⟩
      · cases hm'
      · obtain ⟨until_, hacq⟩ := tryLockByIdAsync_spec hlock
        exact ⟨visibilityTimeout, lockedBy, _, until_, rfl, hacq⟩
  | publish a => rcases orRefused_cases hrun with ⟨rfl, -⟩ | ⟨_, -, rfl⟩ <;> cases hm'
  | writeBack kind messageId lockedBy =>
      rcases orRefused_cases hrun with ⟨rfl, -⟩ | ⟨_, -, rfl⟩ <;> cases hm'
  | isLockHeld messageId lockedBy => cases hrun; cases hm'
  | releaseExpiredLocks => cases hrun; cases hm'
  | purgeProcessedMessages olderThan => cases hrun; cases hm'

theorem Step.acquired {e : Event} {t t' : Messages} (h : Step dep t e t') {m' : OutboxMessage}
    (hm' : m' ∈ e.result.batch) : ∃ visibilityTimeout lockedBy chosen until_,
      Acquired dep e.now visibilityTimeout lockedBy t chosen until_ e.result.batch t' := by
  obtain ⟨visibilityTimeout, lockedBy, chosen, until_, -, hacq⟩ := h.acquired_with hm'
  exact ⟨visibilityTimeout, lockedBy, chosen, until_, hacq⟩

/-- An insert puts its row where no row was, and changes no other. -/
theorem rowChange_publish {e : Event} {a : PublishArgs} {m : OutboxMessage} {t t' : Messages}
    (hop : e.op = .publish a) (hrow : publishedRow dep e.now a = some m)
    (hinsert : t.insertAll? [m] = some t') (k : Guid) :
    RowChange dep e (t.find? k) (t'.find? k) := by
  rw [Table.find?_insertAll? hinsert]
  cases hk : t.find? k with
  | some m' => exact .same _
  | none =>
      rw [Option.none_or]
      by_cases hid : m.id = k
      · rw [List.find?_cons_of_pos (by simpa using hid)]
        exact .publish hop hrow
      · rw [List.find?_cons_of_neg (by simpa using hid), List.find?_nil]
        exact .same _

/-- A purge deletes some rows and changes none. -/
theorem rowChange_purge {e : Event} {olderThan : DateTimeOffset}
    (hop : e.op = .purgeProcessedMessages olderThan) (t : Messages) (k : Guid) :
    RowChange dep e (t.find? k) ((purgeProcessedMessagesAsync olderThan t).2.find? k) := by
  show RowChange dep e (t.find? k) ((t.delete (purgeable olderThan)).find? k)
  rw [Table.find?_delete]
  cases hk : t.find? k with
  | none => exact .same _
  | some m =>
      by_cases hp : purgeable olderThan m = true
      · rw [Option.filter_some, if_neg (by simp [hp])]
        exact .purge hop hp
      · rw [Option.filter_some, if_pos (by simpa using hp)]
        exact .same _

/-- **What an event can do to the row with key `k`.** -/
theorem Step.rowChange {e : Event} {t t' : Messages} (h : Step dep t e t') (k : Guid) :
    RowChange dep e (t.find? k) (t'.find? k) := by
  obtain ⟨now, op, result⟩ := e
  obtain ⟨hvalid, hrun⟩ := h
  simp only at hvalid hrun
  -- a refused statement leaves the row as it is
  cases op with
  | publish a =>
      rcases orRefused_cases hrun with ⟨-, rfl⟩ | ⟨_, hpublished, -⟩
      · exact .same _
      · obtain ⟨m, hrow, hinsert⟩ := Option.bind_eq_some_iff.mp hpublished
        obtain ⟨t'', hinsert, heq⟩ := Option.map_eq_some_iff.mp hinsert
        cases heq
        exact rowChange_publish rfl hrow hinsert k
  | lockNextBatch options batchSize visibilityTimeout lockedBy skipIds scan =>
      rcases orRefused_cases hrun with ⟨-, rfl⟩ | ⟨batch, hlock, rfl⟩
      · exact .same _
      · obtain ⟨chosen, until_, hacq, -⟩ := lockNextBatchAsync_spec hvalid hlock
        exact rowChange_acquired hacq k
  | tryLockById messageId visibilityTimeout lockedBy =>
      rcases orRefused_cases hrun with ⟨-, rfl⟩ | ⟨locked, hlock, rfl⟩
      · exact .same _
      · obtain ⟨until_, hacq⟩ := tryLockByIdAsync_spec hlock
        exact rowChange_acquired hacq k
  | writeBack kind messageId lockedBy =>
      rcases orRefused_cases hrun with ⟨-, rfl⟩ | ⟨found, hwrite, rfl⟩
      · exact .same _
      · exact rowChange_writeBack rfl hwrite rfl k
  | isLockHeld messageId lockedBy =>
      cases hrun
      exact .same _
  | releaseExpiredLocks =>
      cases hrun
      exact rowChange_update (fun m _ hp => .release rfl hp) k
  | purgeProcessedMessages olderThan =>
      cases hrun
      exact rowChange_purge rfl t k

end OutboxNet.OutboxStore
