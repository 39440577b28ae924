import Mathlib.Data.List.Sort
import Mathlib.Data.List.TakeDrop
import OutboxNet.Store.Sql

/-!
# The message table

The statements of `IOutboxStore`, each an atomic step on the table of messages.  `DirectSqlOutboxStore`
and `EfCoreOutboxStore` send the same lock statements; their write-backs differ in how the instance
name is sent, which `writeBackParam` captures.  `none` is a statement the server refuses.
-/

set_option autoImplicit false

namespace OutboxNet

/-- The table `OutboxMessages`. -/
abbrev Messages := Table OutboxMessage.id

namespace OutboxStore

variable (dep : Deployment)

/-! ## Publishing -/

/-- What the application passes to `PublishAsync`, with the ambient context and the serialized
payload. -/
structure PublishArgs where
  id : Guid
  eventType : Text
  payload : Text
  correlationId : Option Text
  traceId : Option Text
  headers : Option (List (Text × Text))
  tenantId : Option Text
  userId : Option Text
  entityId : Option Text
deriving DecidableEq, Repr

/-- Whether a string fits a column of `n` characters. -/
def fits (n : ℕ) (s : Text) : Bool := s.length ≤ n

theorem nvarchar_eq_iff {n : ℕ} {s : Text} : nvarchar n s = s ↔ s.length ≤ n :=
  List.take_eq_self_iff s

/-- A parameter loses nothing exactly when its string fits. -/
theorem map_nvarchar_eq_iff {n : ℕ} {o : Option Text} :
    o.map (nvarchar n) = o ↔ ∀ s, o = some s → s.length ≤ n := by
  cases o with
  | none => exact iff_of_true rfl fun s h => nomatch h
  | some s =>
      rw [Option.map_some, Option.some_inj, nvarchar_eq_iff]
      exact ⟨fun h s' hs' => Option.some_inj.mp hs' ▸ h, fun h => h s rfl⟩

theorem all_fits_iff {n : ℕ} {o : Option Text} :
    o.all (fits n) = true ↔ o.map (nvarchar n) = o := by
  rw [map_nvarchar_eq_iff]
  simp [Option.all_eq_true, fits]

/-- The row `DirectSqlOutboxPublisher.PublishAsync` inserts: the driver cuts every string to the size
of its parameter. -/
def directRow (now : DateTimeOffset) (a : PublishArgs) : OutboxMessage where
  id := a.id
  eventType := nvarchar 256 a.eventType
  payload := a.payload
  correlationId := a.correlationId.map (nvarchar 128)
  traceId := a.traceId.map (nvarchar 128)
  status := .pending
  retryCount := 0
  createdAt := round3 now
  processedAt := none
  lockedUntil := none
  lockedBy := none
  nextRetryAt := none
  lastError := none
  headers := a.headers
  tenantId := a.tenantId.map (nvarchar 256)
  userId := a.userId.map (nvarchar 256)
  entityId := a.entityId.map (nvarchar 256)

/-- The row `EfCoreOutboxPublisher.PublishAsync` inserts; a string too long for its column makes the
insert fail. -/
def efRow (utcNow : DateTimeOffset) (a : PublishArgs) : Option OutboxMessage :=
  if fits 256 a.eventType && a.correlationId.all (fits 128) && a.traceId.all (fits 128) &&
      a.tenantId.all (fits 256) && a.userId.all (fits 256) && a.entityId.all (fits 256) then
    some { directRow utcNow a with createdAt := dep.clientTime utcNow }
  else none

/-- `PublishAsync` of the deployment's provider, inside the caller's transaction: the row it adds. -/
def publishedRow (now : DateTimeOffset) (a : PublishArgs) : Option OutboxMessage :=
  match dep.provider with
  | .directSql => some (directRow now a)
  | .efCore => efRow dep now a

/-! ## Acquiring messages -/

/-- The row as an acquisition leaves it. -/
def lockRow (lockedBy : Text) (until_ : DateTimeOffset) (m : OutboxMessage) : OutboxMessage :=
  { m with
    status := .processing
    lockedUntil := some (round3 until_)
    lockedBy := some (nvarchar 256 lockedBy) }

@[simp] theorem lockRow_id (lockedBy : Text) (until_ : DateTimeOffset) (m : OutboxMessage) :
    (lockRow lockedBy until_ m).id = m.id := rfl

/-- `(LockedUntil IS NULL OR LockedUntil < now) AND (NextRetryAt IS NULL OR NextRetryAt <= now)`. -/
def due (now : DateTimeOffset) (m : OutboxMessage) : Bool :=
  m.lockedUntil.all (fun u => u < now) && m.nextRetryAt.all (fun r => r ≤ now)

/-- The rows of `m2` that keep `m` back under ordered processing: another message of the same
partition, live-locked. -/
def blocks (now : DateTimeOffset) (m m2 : OutboxMessage) : Bool :=
  m2.status = .processing && m2.lockedUntil.any (fun u => now < u) &&
    dep.sameKey m2.tenantId m.tenantId && dep.sameKey m2.userId m.userId &&
    dep.sameKey m2.entityId m.entityId && m2.id ≠ m.id

/-- Whether `m` has no partition key at all. -/
def unpartitioned (m : OutboxMessage) : Bool :=
  m.tenantId.isNone && m.userId.isNone && m.entityId.isNone

/-- The condition of the candidate scan of `LockNextBatchAsync`. -/
def candidate (options : OutboxOptions) (now : DateTimeOffset) (skipIds : List Guid) (t : Messages)
    (m : OutboxMessage) : Bool :=
  (m.status = .pending || m.status = .processing) && due now m &&
    options.tenantFilter.all (fun f => m.tenantId.any (dep.sameText · (nvarchar 256 f))) &&
    !skipIds.contains m.id &&
    (!options.enableOrderedProcessing || unpartitioned m || !t.rows.any (blocks dep now m))

/-- The rows the scan selects when it meets the rows in the order `scan`: the first `batchSize`
candidates by `CreatedAt`. -/
def selected (options : OutboxOptions) (now : DateTimeOffset) (batchSize : ℤ) (skipIds : List Guid)
    (t : Messages) (scan : List OutboxMessage) : List OutboxMessage :=
  ((scan.filter (candidate dep options now skipIds t)).insertionSort
    (fun a b => a.createdAt ≤ b.createdAt)).take batchSize.toNat

/-- `LockNextBatchAsync`. -/
def lockNextBatchAsync (options : OutboxOptions) (now : DateTimeOffset) (batchSize : ℤ)
    (visibilityTimeout : TimeSpan) (lockedBy : Text) (skipIds : List Guid)
    (scan : List OutboxMessage) (t : Messages) : Option (List OutboxMessage × Messages) :=
  if batchSize < 0 then none
  else
    match dateAddSeconds (dep.castSeconds visibilityTimeout) now with
    | none => none
    | some until_ =>
        let ids := (selected dep options now batchSize skipIds t scan).map OutboxMessage.id
        let chosen := fun m : OutboxMessage => ids.contains m.id
        some ((t.rows.filter chosen).map (lockRow lockedBy until_),
          t.update chosen (lockRow lockedBy until_) (lockRow_id lockedBy until_))

/-- The condition of `TryLockByIdAsync`. -/
def lockable (now : DateTimeOffset) (messageId : Guid) (m : OutboxMessage) : Bool :=
  m.id = messageId && m.status = .pending && due now m

/-- `TryLockByIdAsync`. -/
def tryLockByIdAsync (now : DateTimeOffset) (messageId : Guid) (visibilityTimeout : TimeSpan)
    (lockedBy : Text) (t : Messages) : Option (Option OutboxMessage × Messages) :=
  match dateAddSeconds (dep.castSeconds visibilityTimeout) now with
  | none => none
  | some until_ =>
      some ((t.rows.find? (lockable now messageId)).map (lockRow lockedBy until_),
        t.update (lockable now messageId) (lockRow lockedBy until_) (lockRow_id lockedBy until_))

/-! ## Write-backs -/

/-- The instance name as the write-backs send it: the direct provider cuts it to the column size, EF
Core does not. -/
def writeBackParam (lockedBy : Text) : Text :=
  match dep.provider with
  | .directSql => nvarchar 256 lockedBy
  | .efCore => lockedBy

/-- `Id = @Id AND LockedBy = @LockedBy`. -/
def heldBy (messageId : Guid) (lockedBy : Text) (m : OutboxMessage) : Bool :=
  m.id = messageId && m.lockedBy.any (dep.sameText · (writeBackParam dep lockedBy))

/-- The statement of all four write-backs: `set` is applied to the row if it is still held under the
instance name; the result says whether it was. -/
def writeBack (messageId : Guid) (lockedBy : Text) (set : OutboxMessage → OutboxMessage)
    (hset : ∀ m, (set m).id = m.id) (t : Messages) : Bool × Messages :=
  (t.rows.any (heldBy dep messageId lockedBy), t.update (heldBy dep messageId lockedBy) set hset)

/-- The row with a new status and no lock. -/
def unlockAs (status : MessageStatus) (m : OutboxMessage) : OutboxMessage :=
  { m with status := status, lockedUntil := none, lockedBy := none }

def setProcessed (now : DateTimeOffset) (m : OutboxMessage) : OutboxMessage :=
  { unlockAs .delivered m with processedAt := some (round3 now) }

def setFailed (error : Option Text) (m : OutboxMessage) : OutboxMessage :=
  { unlockAs .failed m with lastError := error }

def setRetry (nextRetryAt : DateTimeOffset) (error : Option Text) (m : OutboxMessage) :
    OutboxMessage :=
  { unlockAs .pending m with
    retryCount := m.retryCount + 1
    nextRetryAt := some (dep.clientTime nextRetryAt)
    lastError := error }

def setDeadLettered (m : OutboxMessage) : OutboxMessage := unlockAs .deadLettered m

@[simp] theorem unlockAs_id (status : MessageStatus) (m : OutboxMessage) :
    (unlockAs status m).id = m.id := rfl

@[simp] theorem setProcessed_id (now : DateTimeOffset) (m : OutboxMessage) :
    (setProcessed now m).id = m.id := rfl

@[simp] theorem setFailed_id (error : Option Text) (m : OutboxMessage) :
    (setFailed error m).id = m.id := rfl

@[simp] theorem setRetry_id (nextRetryAt : DateTimeOffset) (error : Option Text)
    (m : OutboxMessage) : (setRetry dep nextRetryAt error m).id = m.id := rfl

@[simp] theorem setDeadLettered_id (m : OutboxMessage) : (setDeadLettered m).id = m.id := rfl

/-- `MarkAsProcessedAsync`. -/
def markAsProcessedAsync (now : DateTimeOffset) (messageId : Guid) (lockedBy : Text)
    (t : Messages) : Bool × Messages :=
  writeBack dep messageId lockedBy (setProcessed now) (setProcessed_id now) t

/-- `MarkAsFailedAsync`. -/
def markAsFailedAsync (messageId : Guid) (lockedBy : Text) (error : Option Text)
    (t : Messages) : Bool × Messages :=
  writeBack dep messageId lockedBy (setFailed error) (setFailed_id error) t

/-- `IncrementRetryAsync`; the statement is refused when the counter would overflow. -/
def incrementRetryAsync (messageId : Guid) (lockedBy : Text) (nextRetryAt : DateTimeOffset)
    (error : Option Text) (t : Messages) : Option (Bool × Messages) :=
  if t.rows.any fun m => heldBy dep messageId lockedBy m && int32Max ≤ m.retryCount then none
  else some (writeBack dep messageId lockedBy (setRetry dep nextRetryAt error)
    (setRetry_id dep nextRetryAt error) t)

/-- `MarkAsDeadLetteredAsync`. -/
def markAsDeadLetteredAsync (messageId : Guid) (lockedBy : Text) (t : Messages) : Bool × Messages :=
  writeBack dep messageId lockedBy setDeadLettered setDeadLettered_id t

/-! ## Maintenance -/

/-- `IsLockHeldAsync`. -/
def isLockHeldAsync (now : DateTimeOffset) (messageId : Guid) (lockedBy : Text) (t : Messages) :
    Bool :=
  t.rows.any fun m => heldBy dep messageId lockedBy m && m.status = .processing &&
    m.lockedUntil.any (fun u => now < u)

/-- Whether the lock of a row has expired. -/
def expired (now : DateTimeOffset) (m : OutboxMessage) : Bool :=
  m.status = .processing && m.lockedUntil.any (fun u => u < now)

/-- `ReleaseExpiredLocksAsync`.  The retry count is left alone. -/
def releaseExpiredLocksAsync (now : DateTimeOffset) (t : Messages) : Messages :=
  t.update (expired now) (unlockAs .pending) (unlockAs_id .pending)

/-- Whether a purge with cutoff `olderThan` removes a row. -/
def purgeable (olderThan : DateTimeOffset) (m : OutboxMessage) : Bool :=
  (m.status = .delivered || m.status = .deadLettered) && m.createdAt < olderThan

/-- `PurgeProcessedMessagesAsync`: the number of rows removed and the table left. -/
def purgeProcessedMessagesAsync (olderThan : DateTimeOffset) (t : Messages) : ℕ × Messages :=
  (t.rows.countP (purgeable olderThan), t.delete (purgeable olderThan))

/-! ## What the two acquisition statements have in common -/

/-- Some rows that are free and due are locked for `lockedBy` and returned as they are then. -/
structure Acquired (now : DateTimeOffset) (visibilityTimeout : TimeSpan) (lockedBy : Text)
    (t : Messages) (chosen : OutboxMessage → Bool) (until_ : DateTimeOffset)
    (batch : List OutboxMessage) (t' : Messages) : Prop where
  until_eq : dateAddSeconds (dep.castSeconds visibilityTimeout) now = some until_
  free : ∀ m ∈ t.rows, chosen m = true → m.status = .pending ∨ m.status = .processing
  due : ∀ m ∈ t.rows, chosen m = true → due now m = true
  batch_eq : batch = (t.rows.filter chosen).map (lockRow lockedBy until_)
  table_eq : t' = t.update chosen (lockRow lockedBy until_) (lockRow_id lockedBy until_)

variable {dep}

theorem mem_selected {options : OutboxOptions} {now : DateTimeOffset} {batchSize : ℤ}
    {skipIds : List Guid} {t : Messages} {scan : List OutboxMessage} {m : OutboxMessage}
    (h : m ∈ selected dep options now batchSize skipIds t scan) :
    m ∈ scan ∧ candidate dep options now skipIds t m = true := by
  have hmem := List.mem_of_mem_take h
  rw [List.mem_insertionSort, List.mem_filter] at hmem
  exact hmem

theorem candidate_free {options : OutboxOptions} {now : DateTimeOffset} {skipIds : List Guid}
    {t : Messages} {m : OutboxMessage} (h : candidate dep options now skipIds t m = true) :
    (m.status = .pending ∨ m.status = .processing) ∧ due now m = true := by
  simp only [candidate, Bool.and_eq_true, Bool.or_eq_true, decide_eq_true_eq] at h
  exact ⟨h.1.1.1.1, h.1.1.1.2⟩

/-- A row whose id is selected is a candidate. -/
theorem candidate_of_selected {options : OutboxOptions} {now : DateTimeOffset} {batchSize : ℤ}
    {skipIds : List Guid} {t : Messages} {scan : List OutboxMessage} {m : OutboxMessage}
    (hscan : scan.Perm t.rows) (hm : m ∈ t.rows)
    (hc : ((selected dep options now batchSize skipIds t scan).map OutboxMessage.id).contains m.id =
      true) : candidate dep options now skipIds t m = true := by
  rw [List.contains_iff_mem, List.mem_map] at hc
  obtain ⟨m', hm', hid⟩ := hc
  obtain ⟨hmem, hcand⟩ := mem_selected hm'
  rw [t.eq_of_key_eq hm (hscan.mem_iff.mp hmem) hid.symm]
  exact hcand

theorem lockNextBatchAsync_spec {options : OutboxOptions} {now : DateTimeOffset} {batchSize : ℤ}
    {visibilityTimeout : TimeSpan} {lockedBy : Text} {skipIds : List Guid}
    {scan batch : List OutboxMessage} {t t' : Messages} (hscan : scan.Perm t.rows)
    (h : lockNextBatchAsync dep options now batchSize visibilityTimeout lockedBy skipIds scan t =
      some (batch, t')) :
    ∃ chosen until_, Acquired dep now visibilityTimeout lockedBy t chosen until_ batch t' ∧
      ∀ m ∈ t.rows, chosen m = true → candidate dep options now skipIds t m = true := by
  unfold lockNextBatchAsync at h
  split at h
  · cases h
  split at h
  · cases h
  next until_ huntil =>
  simp only [Option.some.injEq, Prod.mk.injEq] at h
  obtain ⟨hbatch, htable⟩ := h
  exact ⟨_, until_, ⟨huntil, fun m hm hc => (candidate_free (candidate_of_selected hscan hm hc)).1,
    fun m hm hc => (candidate_free (candidate_of_selected hscan hm hc)).2, hbatch.symm,
    htable.symm⟩, fun m hm hc => candidate_of_selected hscan hm hc⟩

theorem lockable_iff {now : DateTimeOffset} {messageId : Guid} {m : OutboxMessage} :
    lockable now messageId m = true ↔ m.id = messageId ∧ m.status = .pending ∧ due now m = true := by
  simp only [lockable, Bool.and_eq_true, decide_eq_true_eq, and_assoc]

theorem id_of_heldBy {messageId : Guid} {lockedBy : Text} (m : OutboxMessage)
    (hm : heldBy dep messageId lockedBy m = true) : m.id = messageId := by
  simp only [heldBy, Bool.and_eq_true, decide_eq_true_eq] at hm
  exact hm.1

/-- At most one row has the key, so the rows a by-key statement meets are the first one it meets. -/
theorem filter_lockable (now : DateTimeOffset) (messageId : Guid) (t : Messages) :
    t.rows.filter (lockable now messageId) = (t.rows.find? (lockable now messageId)).toList := by
  cases hfound : t.rows.find? (lockable now messageId) with
  | none => exact List.filter_eq_nil_iff.mpr (List.find?_eq_none.mp hfound)
  | some m =>
      have hm : lockable now messageId m = true := List.find?_some hfound
      have hrow : t.find? messageId = some m :=
        Table.find?_eq_some_iff.mpr ⟨List.mem_of_find?_eq_some hfound, (lockable_iff.mp hm).1⟩
      exact Table.filter_eq_singleton hrow hm fun x _ hx => (lockable_iff.mp hx).1

theorem tryLockByIdAsync_spec {now : DateTimeOffset} {messageId : Guid}
    {visibilityTimeout : TimeSpan} {lockedBy : Text} {result : Option OutboxMessage}
    {t t' : Messages}
    (h : tryLockByIdAsync dep now messageId visibilityTimeout lockedBy t = some (result, t')) :
    ∃ until_, Acquired dep now visibilityTimeout lockedBy t (lockable now messageId) until_
      result.toList t' := by
  unfold tryLockByIdAsync at h
  split at h
  · cases h
  next until_ huntil =>
  simp only [Option.some.injEq, Prod.mk.injEq] at h
  obtain ⟨hresult, htable⟩ := h
  refine ⟨until_, huntil, fun m _ hc => .inl (lockable_iff.mp hc).2.1,
    fun m _ hc => (lockable_iff.mp hc).2.2, ?_, htable.symm⟩
  rw [← hresult, filter_lockable]
  cases t.rows.find? (lockable now messageId) <;> rfl

namespace Acquired

variable {now : DateTimeOffset} {visibilityTimeout : TimeSpan} {lockedBy : Text}
variable {t t' : Messages} {chosen : OutboxMessage → Bool} {until_ : DateTimeOffset}
variable {batch : List OutboxMessage}

/-- The row behind a message of the batch, and the row it has become. -/
theorem mem_batch (h : Acquired dep now visibilityTimeout lockedBy t chosen until_ batch t')
    {m' : OutboxMessage} (hm' : m' ∈ batch) : ∃ m, t.find? m'.id = some m ∧ chosen m = true ∧
      m' = lockRow lockedBy until_ m ∧ t'.find? m'.id = some m' := by
  rw [h.batch_eq, List.mem_map] at hm'
  obtain ⟨m, hm, rfl⟩ := hm'
  obtain ⟨hm, hc⟩ := List.mem_filter.mp hm
  have hfind : t.find? m.id = some m := Table.find?_eq_some_iff.mpr ⟨hm, rfl⟩
  refine ⟨m, hfind, hc, rfl, ?_⟩
  rw [h.table_eq, Table.find?_update]
  show (t.find? m.id).map _ = _
  rw [hfind, Option.map_some, if_pos hc]

/-- A chosen row is in the batch. -/
theorem batch_mem (h : Acquired dep now visibilityTimeout lockedBy t chosen until_ batch t')
    {m : OutboxMessage} (hm : m ∈ t.rows) (hc : chosen m = true) :
    lockRow lockedBy until_ m ∈ batch := by
  rw [h.batch_eq]
  exact List.mem_map_of_mem (List.mem_filter.mpr ⟨hm, hc⟩)

/-- The messages of a batch have distinct ids. -/
theorem nodup (h : Acquired dep now visibilityTimeout lockedBy t chosen until_ batch t') :
    (batch.map OutboxMessage.id).Nodup := by
  rw [h.batch_eq, List.map_map]
  exact t.nodup.sublist (List.filter_sublist.map OutboxMessage.id)

end Acquired

end OutboxStore

end OutboxNet
