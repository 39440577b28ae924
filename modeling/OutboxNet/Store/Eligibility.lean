import OutboxNet.Store.OutboxStore

/-!
# Eligibility on the hot and on the cold path

`LockNextBatchAsync` and `TryLockByIdAsync` each restate which messages may be acquired.  The hot path
repeats the rules on the status, the lock and the retry time; it has neither the tenant filter nor the
ordering rule, although `OutboxOptions` describes both as properties of the instance.
-/

set_option autoImplicit false

namespace OutboxNet.OutboxStore

variable (dep : Deployment)

/-- The message belongs to the tenant of the instance, if it has one. -/
def tenantMatches (options : OutboxOptions) (m : OutboxMessage) : Prop :=
  ∀ f, options.tenantFilter = some f →
    ∃ tenant, m.tenantId = some tenant ∧ dep.sameText tenant (nvarchar 256 f) = true

/-- Under ordered processing, no other message of the same partition is live-locked. -/
def partitionFree (options : OutboxOptions) (now : DateTimeOffset) (t : Messages)
    (m : OutboxMessage) : Prop :=
  options.enableOrderedProcessing = true → unpartitioned m = false →
    ∀ m2 ∈ t.rows, blocks dep now m m2 = false

variable {dep}

theorem candidate_iff {options : OutboxOptions} {now : DateTimeOffset} {skipIds : List Guid}
    {t : Messages} {m : OutboxMessage} :
    candidate dep options now skipIds t m = true ↔
      (m.status = .pending ∨ m.status = .processing) ∧ due now m = true ∧
        tenantMatches dep options m ∧ m.id ∉ skipIds ∧ partitionFree dep options now t m := by
  have htenant : options.tenantFilter.all (fun f => m.tenantId.any
      (dep.sameText · (nvarchar 256 f))) = true ↔ tenantMatches dep options m := by
    unfold tenantMatches
    cases options.tenantFilter with
    | none => simp
    | some f => simp [Option.any_eq_true]
  have hfree : (!options.enableOrderedProcessing || unpartitioned m || !t.rows.any (blocks dep now m))
      = true ↔ partitionFree dep options now t m := by
    unfold partitionFree
    cases options.enableOrderedProcessing <;> cases unpartitioned m <;> simp
  simp only [candidate, Bool.and_eq_true, Bool.or_eq_true, decide_eq_true_eq, htenant]
  rw [← hfree]
  simp [and_assoc]

/-- What `TryLockByIdAsync` acquires: the row with the id, Pending and due, when the lock can be
dated. -/
theorem tryLockByIdAsync_acquires_iff {now : DateTimeOffset} {messageId : Guid}
    {visibilityTimeout : TimeSpan} {lockedBy : Text} {t : Messages} :
    (∃ m t', tryLockByIdAsync dep now messageId visibilityTimeout lockedBy t = some (some m, t')) ↔
      (dateAddSeconds (dep.castSeconds visibilityTimeout) now).isSome ∧
        ∃ m, t.find? messageId = some m ∧ m.status = .pending ∧ due now m = true := by
  have hrow : (∃ m, t.rows.find? (lockable now messageId) = some m) ↔
      ∃ m, t.find? messageId = some m ∧ m.status = .pending ∧ due now m = true := by
    constructor
    · rintro ⟨m, hm⟩
      have hlock := lockable_iff.mp (List.find?_some hm)
      exact ⟨m, Table.find?_eq_some_iff.mpr ⟨List.mem_of_find?_eq_some hm, hlock.1⟩, hlock.2⟩
    · rintro ⟨m, hm, hpending, hdue⟩
      obtain ⟨hmem, hid⟩ := Table.find?_eq_some_iff.mp hm
      exact Option.isSome_iff_exists.mp (List.find?_isSome.mpr
        ⟨m, hmem, lockable_iff.mpr ⟨hid, hpending, hdue⟩⟩)
  unfold tryLockByIdAsync
  rw [← hrow]
  cases dateAddSeconds (dep.castSeconds visibilityTimeout) now with
  | none => simp
  | some until_ => cases t.rows.find? (lockable now messageId) <;> simp

/-- A batch of one pending message is what `TryLockByIdAsync` acquires at the same time, from any table
with this row: the same message, left the same way. -/
theorem tryLockByIdAsync_of_lockNextBatchAsync {options : OutboxOptions} {now : DateTimeOffset}
    {batchSize : ℤ} {visibilityTimeout : TimeSpan} {lockedBy : Text} {skipIds : List Guid}
    {scan : List OutboxMessage} {t t' t₂ : Messages} {m row : OutboxMessage}
    (hscan : scan.Perm t.rows)
    (h : lockNextBatchAsync dep options now batchSize visibilityTimeout lockedBy skipIds scan t =
      some ([m], t'))
    (hrow : t.find? m.id = some row) (hpending : row.status = .pending)
    (ht₂ : t₂.find? m.id = some row) :
    t'.find? m.id = some m ∧
      ∃ t'', tryLockByIdAsync dep now m.id visibilityTimeout lockedBy t₂ = some (some m, t'') ∧
        t''.find? m.id = some m := by
  obtain ⟨chosen, until_, hacquired, -⟩ := lockNextBatchAsync_spec hscan h
  obtain ⟨row', hrow', hchosen, hm, hlocked⟩ := hacquired.mem_batch List.mem_cons_self
  obtain rfl : row = row' := Option.some.inj (hrow.symm.trans hrow')
  have hmem : row ∈ t.rows := (Table.find?_eq_some_iff.mp hrow).1
  have huntil := hacquired.until_eq
  have hacquires : ∃ m₂ t'', tryLockByIdAsync dep now m.id visibilityTimeout lockedBy t₂ =
      some (some m₂, t'') := tryLockByIdAsync_acquires_iff.mpr
    ⟨by rw [huntil]; rfl, row, ht₂, hpending, hacquired.due row hmem hchosen⟩
  obtain ⟨m₂, t'', hlock⟩ := hacquires
  -- the two statements write the same row, with the same time of expiry
  obtain ⟨until₂, hacquired₂⟩ := tryLockByIdAsync_spec hlock
  obtain ⟨row₂, hrow₂, hchosen₂, hm₂, hlocked₂⟩ := hacquired₂.mem_batch List.mem_cons_self
  have hid : m₂.id = m.id := by
    rw [hm₂, lockRow_id]
    exact (lockable_iff.mp hchosen₂).1
  have hsame : m₂ = m := by
    rw [hid] at hrow₂
    obtain rfl : row = row₂ := Option.some.inj (ht₂.symm.trans hrow₂)
    have huntil₂ := hacquired₂.until_eq
    rw [huntil] at huntil₂
    cases huntil₂
    rw [hm, hm₂]
  subst hsame
  exact ⟨hlocked, t'', hlock, hlocked₂⟩

/-- The only candidate of a table is what `LockNextBatchAsync` returns. -/
theorem lockNextBatchAsync_of_candidate {options : OutboxOptions} {now until_ : DateTimeOffset}
    {batchSize : ℤ} {visibilityTimeout : TimeSpan} {skipIds : List Guid} {t : Messages} {k : Guid}
    {row : OutboxMessage} (lockedBy : Text) (hsize : 0 < batchSize)
    (huntil : dateAddSeconds (dep.castSeconds visibilityTimeout) now = some until_)
    (hrow : t.find? k = some row) (hcandidate : candidate dep options now skipIds t row = true)
    (honly : ∀ m ∈ t.rows, candidate dep options now skipIds t m = true → m.id = k) :
    ∃ t', lockNextBatchAsync dep options now batchSize visibilityTimeout lockedBy skipIds t.rows t =
      some ([lockRow lockedBy until_ row], t') := by
  have hselected : selected dep options now batchSize skipIds t t.rows = [row] := by
    unfold selected
    rw [Table.filter_eq_singleton hrow hcandidate honly]
    obtain ⟨n, hn⟩ : ∃ n, batchSize.toNat = n + 1 := ⟨batchSize.toNat - 1, by omega⟩
    simp [hn]
  have hchosen : t.rows.filter (fun m => [row.id].contains m.id) = [row] := by
    refine Table.filter_eq_singleton hrow (by simp) fun m _ hm => ?_
    rw [← Table.find?_key hrow]
    simpa using hm
  unfold lockNextBatchAsync
  rw [if_neg (not_lt.mpr hsize.le), huntil]
  simp only [hselected, List.map_cons, List.map_nil, hchosen]
  exact ⟨_, rfl⟩

/-- The hot path obeys the eligibility rules of the cold path exactly when the row it would lock
belongs to the instance's tenant and is not held back by its partition. -/
theorem hot_path_eligibility (dep : Deployment) (options : OutboxOptions) (now : DateTimeOffset)
    (messageId : Guid) (visibilityTimeout : TimeSpan) (lockedBy : Text) (t : Messages) :
    (∀ m t', tryLockByIdAsync dep now messageId visibilityTimeout lockedBy t = some (some m, t') →
        ∃ row, t.find? messageId = some row ∧ candidate dep options now [] t row = true) ↔
      ∀ row, t.find? messageId = some row → row.status = .pending → due now row = true →
        (dateAddSeconds (dep.castSeconds visibilityTimeout) now).isSome →
        tenantMatches dep options row ∧ partitionFree dep options now t row := by
  constructor
  · intro h row hrow hpending hdue huntil
    obtain ⟨m, t', hlock⟩ := tryLockByIdAsync_acquires_iff.mpr ⟨huntil, row, hrow, hpending, hdue⟩
    obtain ⟨row', hrow', hcand⟩ := h m t' hlock
    obtain rfl : row' = row := Option.some.inj (hrow'.symm.trans hrow)
    obtain ⟨-, -, htenant, -, hfree⟩ := candidate_iff.mp hcand
    exact ⟨htenant, hfree⟩
  · intro h m t' hlock
    obtain ⟨huntil, row, hrow, hpending, hdue⟩ := tryLockByIdAsync_acquires_iff.mp ⟨m, t', hlock⟩
    obtain ⟨htenant, hfree⟩ := h row hrow hpending hdue huntil
    exact ⟨row, hrow, candidate_iff.mpr
      ⟨.inl hpending, hdue, htenant, List.not_mem_nil, hfree⟩⟩

/-! ## Where the paths disagree -/

/-- A pending message of tenant `globex`, about order 17. -/
def globexRow : OutboxMessage where
  id := 2
  eventType := text "order.placed"
  payload := []
  correlationId := none
  traceId := none
  status := .pending
  retryCount := 0
  createdAt := 2000
  processedAt := none
  lockedUntil := none
  lockedBy := none
  nextRetryAt := none
  lastError := none
  headers := none
  tenantId := some (text "globex")
  userId := none
  entityId := some (text "17")

/-- An earlier message about the same order, being delivered by another worker. -/
def globexLocked : OutboxMessage :=
  { globexRow with
    id := 1
    status := .processing
    createdAt := 1000
    lockedUntil := some 900000000
    lockedBy := some (text "worker-1") }

def globexTable : Messages := ⟨[globexLocked, globexRow], by decide⟩

/-- `TryLockByIdAsync` takes the message although the instance is set up for another tenant, and
although its partition is locked under ordered processing; the candidate scan takes it in neither
case. -/
theorem hot_path_ignores_tenant_and_partition :
    let dep := Deployment.binary .directSql
    let acme : OutboxOptions :=
      { instanceId := text "worker-2", enableOrderedProcessing := false,
        tenantFilter := some (text "acme") }
    let ordered : OutboxOptions := { instanceId := text "worker-2" }
    (∃ m t', tryLockByIdAsync dep 3000 2 (5 * 60 * ticksPerSecond) (text "worker-2") globexTable =
        some (some m, t')) ∧
      globexTable.find? 2 = some globexRow ∧
      candidate dep acme 3000 [] globexTable globexRow = false ∧
      candidate dep ordered 3000 [] globexTable globexRow = false := by
  refine ⟨?_, by decide, by decide, by decide⟩
  exact tryLockByIdAsync_acquires_iff.mpr ⟨by decide, globexRow, by decide, rfl, by decide⟩

end OutboxNet.OutboxStore
