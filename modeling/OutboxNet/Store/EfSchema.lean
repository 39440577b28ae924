import Mathlib.Logic.Function.Basic
import OutboxNet.Store.Operations

/-!
# The schema of the EF Core store

Half of the statements of `EfCoreOutboxStore` name their schema from `OutboxOptions`, the other half get
it from the model of `OutboxDbContext`, which dependency injection always builds with the default of its
constructor.  They meet in one table exactly when the option says the same.
-/

set_option autoImplicit false

namespace OutboxNet

/-- The tables `OutboxMessages` of a database, by the sort key of their schema. -/
abbrev Catalog := Text → Option Messages

namespace EfCoreOutboxStore

open OutboxStore (WriteBack lockRow heldBy)

variable (dep : Deployment)

/-- The schema of `OutboxDbContext`: the default of an optional parameter no one fills. -/
def contextSchema : Text := text "outbox"

/-- A statement on the table of a schema; without such a table it is refused. -/
def onSchema {α : Type} (schema : Text) (statement : Messages → Option (α × Messages))
    (db : Catalog) : Option (α × Catalog) :=
  match db (dep.collation schema) with
  | none => none
  | some t =>
      match statement t with
      | none => none
      | some (a, t') => some (a, Function.update db (dep.collation schema) (some t'))

/-! ## The statements -/

/-- `LockNextBatchAsync`, on the schema of the options. -/
def lockNextBatchAsync (schemaName : Text) (options : OutboxOptions) (now : DateTimeOffset)
    (batchSize : ℤ) (visibilityTimeout : TimeSpan) (lockedBy : Text) (skipIds : List Guid)
    (scan : List OutboxMessage) : Catalog → Option (List OutboxMessage × Catalog) :=
  onSchema dep schemaName
    (OutboxStore.lockNextBatchAsync dep options now batchSize visibilityTimeout lockedBy skipIds scan)

/-- `TryLockByIdAsync`, on the schema of the options. -/
def tryLockByIdAsync (schemaName : Text) (now : DateTimeOffset) (messageId : Guid)
    (visibilityTimeout : TimeSpan) (lockedBy : Text) :
    Catalog → Option (Option OutboxMessage × Catalog) :=
  onSchema dep schemaName
    (OutboxStore.tryLockByIdAsync dep now messageId visibilityTimeout lockedBy)

/-- The write-backs, on the schema of the context. -/
def writeBackAsync (kind : WriteBack) (now : DateTimeOffset) (messageId : Guid) (lockedBy : Text) :
    Catalog → Option (Bool × Catalog) :=
  onSchema dep contextSchema fun t => kind.run dep now messageId lockedBy t

/-- `ReleaseExpiredLocksAsync`, on the schema of the context. -/
def releaseExpiredLocksAsync (now : DateTimeOffset) : Catalog → Option (Unit × Catalog) :=
  onSchema dep contextSchema fun t => some ((), OutboxStore.releaseExpiredLocksAsync now t)

/-- `PurgeProcessedMessagesAsync`, on the schema of the context. -/
def purgeProcessedMessagesAsync (olderThan : DateTimeOffset) : Catalog → Option (ℕ × Catalog) :=
  onSchema dep contextSchema fun t => some (OutboxStore.purgeProcessedMessagesAsync olderThan t)

/-! ## One table -/

/-- A lock statement has returned `m`. -/
inductive LockReturns (schemaName lockedBy : Text) (db : Catalog) (m : OutboxMessage) (db' : Catalog) :
    Prop
  | batch {options : OutboxOptions} {now : DateTimeOffset} {batchSize : ℤ}
      {visibilityTimeout : TimeSpan} {skipIds : List Guid} {scan batch : List OutboxMessage} :
      (∀ t, db (dep.collation schemaName) = some t → scan.Perm t.rows) →
      lockNextBatchAsync dep schemaName options now batchSize visibilityTimeout lockedBy skipIds scan db =
        some (batch, db') → m ∈ batch → LockReturns schemaName lockedBy db m db'
  | byId {now : DateTimeOffset} {messageId : Guid} {visibilityTimeout : TimeSpan} :
      tryLockByIdAsync dep schemaName now messageId visibilityTimeout lockedBy db = some (some m, db') →
      LockReturns schemaName lockedBy db m db'

/-- A write-back on `m` returns true and changes the row that was locked. -/
def ChangesRow (schemaName lockedBy : Text) (kind : WriteBack) (now : DateTimeOffset)
    (m : OutboxMessage) (db : Catalog) : Prop :=
  ∃ db' t, writeBackAsync dep kind now m.id lockedBy db = some (true, db') ∧
    db' (dep.collation schemaName) = some t ∧ t.find? m.id = some (kind.set dep now m)

/-- A release and a purge work on the rows the lock statements see. -/
structure SeesSameRows (schemaName : Text) : Prop where
  release : ∀ (now : DateTimeOffset) (db db' : Catalog) (t : Messages),
    db (dep.collation schemaName) = some t → releaseExpiredLocksAsync dep now db = some ((), db') →
    db' (dep.collation schemaName) = some (OutboxStore.releaseExpiredLocksAsync now t)
  purge : ∀ (olderThan : DateTimeOffset) (db db' : Catalog) (n : ℕ) (t : Messages),
    db (dep.collation schemaName) = some t →
    purgeProcessedMessagesAsync dep olderThan db = some (n, db') →
    n = (OutboxStore.purgeProcessedMessagesAsync olderThan t).1 ∧
      db' (dep.collation schemaName) = some (OutboxStore.purgeProcessedMessagesAsync olderThan t).2

/-- A write-back that increases the counter has room to do so. -/
def HasRoom (kind : WriteBack) (m : OutboxMessage) : Prop :=
  ∀ nextRetryAt error, kind = .retry nextRetryAt error → m.retryCount < int32Max

variable {dep}

theorem onSchema_eq_some_iff {α : Type} {schema : Text}
    {statement : Messages → Option (α × Messages)} {db db' : Catalog} {a : α} :
    onSchema dep schema statement db = some (a, db') ↔
      ∃ t t', db (dep.collation schema) = some t ∧ statement t = some (a, t') ∧
        db' = Function.update db (dep.collation schema) (some t') := by
  unfold onSchema
  constructor
  · intro h
    split at h
    · cases h
    next t ht =>
    split at h
    · cases h
    next a' t' ht' =>
    cases h
    exact ⟨t, t', ht, ht', rfl⟩
  · rintro ⟨t, t', ht, ht', rfl⟩
    simp only [ht, ht']

/-- **The row behind a lock**: in the table of the options' schema, Processing, under the name cut to
the column. -/
theorem LockReturns.row {schemaName lockedBy : Text} {db db' : Catalog} {m : OutboxMessage}
    (h : LockReturns dep schemaName lockedBy db m db') :
    ∃ t', db' (dep.collation schemaName) = some t' ∧ t'.find? m.id = some m ∧
      m.status = .processing ∧ m.lockedBy = some (nvarchar 256 lockedBy) := by
  cases h with
  | batch hscan hlock hm =>
      obtain ⟨t, t', ht, hrun, rfl⟩ := onSchema_eq_some_iff.mp hlock
      obtain ⟨chosen, until_, hacq, -⟩ := OutboxStore.lockNextBatchAsync_spec (hscan t ht) hrun
      obtain ⟨row, -, -, heq, hfind⟩ := hacq.mem_batch hm
      exact ⟨t', Function.update_self _ _ _, hfind, by rw [heq]; rfl, by rw [heq]; rfl⟩
  | byId hlock =>
      obtain ⟨t, t', ht, hrun, rfl⟩ := onSchema_eq_some_iff.mp hlock
      obtain ⟨until_, hacq⟩ := OutboxStore.tryLockByIdAsync_spec hrun
      obtain ⟨row, -, -, heq, hfind⟩ := hacq.mem_batch (Option.mem_toList.mpr rfl)
      exact ⟨t', Function.update_self _ _ _, hfind, by rw [heq]; rfl, by rw [heq]; rfl⟩

/-- A write-back leaves no row Processing. -/
theorem set_status_ne (kind : WriteBack) (now : DateTimeOffset) (m : OutboxMessage) :
    (kind.set dep now m).status ≠ .processing := by
  cases kind <;> exact fun h => nomatch h

/-- A write-back on the table of a locked row: it returns true when the name matches and the counter
has room. -/
theorem run_locked_iff (hef : dep.provider = .efCore) {lockedBy : Text} {kind : WriteBack}
    {now : DateTimeOffset} {m : OutboxMessage} {t : Messages} (hfind : t.find? m.id = some m)
    (hname : m.lockedBy = some (nvarchar 256 lockedBy)) :
    (∃ t', kind.run dep now m.id lockedBy t = some (true, t') ∧
      t'.find? m.id = some (kind.set dep now m)) ↔
    dep.sameText (nvarchar 256 lockedBy) lockedBy = true ∧ HasRoom kind m := by
  have hmem := Table.find?_mem hfind
  have hheld : heldBy dep m.id lockedBy m = dep.sameText (nvarchar 256 lockedBy) lockedBy := by
    simp [heldBy, hname, OutboxStore.writeBackParam, hef]
  have honly : ∀ m' ∈ t.rows, heldBy dep m.id lockedBy m' = true → m' = m := by
    intro m' hm' hheld'
    rw [heldBy, Bool.and_eq_true, decide_eq_true_eq] at hheld'
    exact t.eq_of_key_eq hm' hmem hheld'.1
  -- the statement finds `m` or nothing, by the name the row carries
  constructor
  · rintro ⟨t', hrun, -⟩
    obtain ⟨hany, -⟩ := WriteBack.run_eq hrun
    obtain ⟨m', hm', hheld'⟩ := List.any_eq_true.mp hany.symm
    have hsame := hheld'
    rw [honly m' hm' hheld', hheld] at hsame
    refine ⟨hsame, ?_⟩
    rintro nextRetryAt error rfl
    -- a full counter would make the statement overflow
    by_contra hfull
    have hover : (t.rows.any fun m' => heldBy dep m.id lockedBy m' && int32Max ≤ m'.retryCount) =
        true := by
      refine List.any_eq_true.mpr ⟨m, hmem, ?_⟩
      rw [hheld, hsame, Bool.true_and]
      exact decide_eq_true (not_lt.mp hfull)
    rw [WriteBack.run, OutboxStore.incrementRetryAsync, if_pos hover] at hrun
    cases hrun
  · rintro ⟨hsame, hroom⟩
    rw [hsame] at hheld
    have hrun : kind.run dep now m.id lockedBy t = some (true,
        t.update (heldBy dep m.id lockedBy) (kind.set dep now) fun m => by cases kind <;> rfl) := by
      have hany : t.rows.any (heldBy dep m.id lockedBy) = true :=
        List.any_eq_true.mpr ⟨m, hmem, hheld⟩
      cases kind with
      | processed => exact congrArg some (Prod.ext hany rfl)
      | failed error => exact congrArg some (Prod.ext hany rfl)
      | deadLettered => exact congrArg some (Prod.ext hany rfl)
      | retry nextRetryAt error =>
          have hover : ¬ (t.rows.any fun m' => heldBy dep m.id lockedBy m' &&
              int32Max ≤ m'.retryCount) = true := by
            intro hover
            obtain ⟨m', hm', hm''⟩ := List.any_eq_true.mp hover
            rw [Bool.and_eq_true, decide_eq_true_eq] at hm''
            rw [honly m' hm' hm''.1] at hm''
            exact absurd (hroom nextRetryAt error rfl) (not_lt.mpr hm''.2)
          rw [WriteBack.run, OutboxStore.incrementRetryAsync, if_neg hover]
          exact congrArg some (Prod.ext hany rfl)
    refine ⟨_, hrun, ?_⟩
    rw [Table.find?_update, hfind, Option.map_some, if_pos hheld]

/-- **A write-back finds the locked row exactly when the option names the schema of the context**, the
instance name fits its column and the retry counter has room. -/
theorem changesRow_iff (hef : dep.provider = .efCore) {schemaName lockedBy : Text} {db db' : Catalog}
    {m : OutboxMessage} (hlock : LockReturns dep schemaName lockedBy db m db') (kind : WriteBack)
    (now : DateTimeOffset) : ChangesRow dep schemaName lockedBy kind now m db' ↔
      dep.sameText schemaName contextSchema = true ∧
        dep.sameText (nvarchar 256 lockedBy) lockedBy = true ∧ HasRoom kind m := by
  obtain ⟨t, ht, hfind, hstatus, hname⟩ := hlock.row
  by_cases hschema : dep.collation schemaName = dep.collation contextSchema
  · rw [and_iff_right (dep.sameText_iff.mpr hschema), ← run_locked_iff hef hfind hname]
    rw [hschema] at ht
    unfold ChangesRow writeBackAsync
    rw [hschema]
    constructor
    · rintro ⟨db'', t₂, hrun, ht₂, hset⟩
      obtain ⟨t₁, t', ht₁, hrun, rfl⟩ := onSchema_eq_some_iff.mp hrun
      cases ht₁.symm.trans ht
      rw [Function.update_self] at ht₂
      cases ht₂
      exact ⟨_, hrun, hset⟩
    · rintro ⟨t', hrun, hset⟩
      exact ⟨_, t', onSchema_eq_some_iff.mpr ⟨t, t', ht, hrun, rfl⟩, Function.update_self _ _ _, hset⟩
  · refine iff_of_false ?_ fun h => hschema (dep.sameText_iff.mp h.1)
    rintro ⟨db'', t₂, hrun, ht₂, hset⟩
    obtain ⟨t₁, t', -, -, rfl⟩ := onSchema_eq_some_iff.mp hrun
    -- the table of the options is left alone
    rw [Function.update_of_ne hschema, ht] at ht₂
    cases ht₂
    have heq := Option.some_inj.mp (hfind.symm.trans hset)
    rw [heq] at hstatus
    exact set_status_ne kind now m hstatus

/-- A row whose lock has run out. -/
def expiredRow : OutboxMessage :=
  lockRow (text "worker-1") 0 (OutboxStore.directRow 0
    ⟨1, text "invoice.paid", [], none, none, none, none, none, none⟩)

/-- A release and a purge see the rows of the lock statements when the option names the schema of the
context. -/
theorem seesSameRows_iff {schemaName : Text} :
    SeesSameRows dep schemaName ↔ dep.sameText schemaName contextSchema = true := by
  constructor
  · intro h
    by_contra hdiffer
    rw [dep.sameText_iff] at hdiffer
    -- an expired lock in the one table, and nothing in the other
    let t : Messages := ⟨[expiredRow], List.nodup_singleton _⟩
    let db : Catalog := fun key => if key = dep.collation schemaName then some t else some Table.empty
    have hother : db (dep.collation contextSchema) = some Table.empty := if_neg (Ne.symm hdiffer)
    have hrelease : releaseExpiredLocksAsync dep 10000 db = some ((), Function.update db
        (dep.collation contextSchema) (some (OutboxStore.releaseExpiredLocksAsync 10000 Table.empty))) :=
      onSchema_eq_some_iff.mpr ⟨_, _, hother, rfl, rfl⟩
    have hsees := h.release 10000 db _ t (if_pos rfl) hrelease
    rw [Function.update_of_ne hdiffer] at hsees
    have hsame : t = OutboxStore.releaseExpiredLocksAsync 10000 t :=
      Option.some_inj.mp ((if_pos rfl : db (dep.collation schemaName) = some t).symm.trans hsees)
    have hstatus := congrArg (fun t : Messages => t.rows.map OutboxMessage.status) hsame
    revert hstatus
    decide
  · intro hsame
    rw [dep.sameText_iff] at hsame
    constructor
    · intro now db db' t ht hrun
      obtain ⟨t₁, t', ht₁, hrun, rfl⟩ := onSchema_eq_some_iff.mp hrun
      rw [hsame] at ht ⊢
      cases ht₁.symm.trans ht
      cases hrun
      exact Function.update_self _ _ _
    · intro olderThan db db' n t ht hrun
      obtain ⟨t₁, t', ht₁, hrun, rfl⟩ := onSchema_eq_some_iff.mp hrun
      rw [hsame] at ht ⊢
      cases ht₁.symm.trans ht
      cases hrun
      exact ⟨rfl, Function.update_self _ _ _⟩

/-- All statements meet in one table: a write-back changes the row a lock statement has returned, and a
release and a purge see the rows the lock statements see. -/
structure OneTableIff (dep : Deployment) (schemaName : Text) : Prop where
  writeBack : ∀ {lockedBy : Text} {db db' : Catalog} {m : OutboxMessage},
    LockReturns dep schemaName lockedBy db m db' → ∀ (kind : WriteBack) (now : DateTimeOffset),
    (ChangesRow dep schemaName lockedBy kind now m db' ↔
      dep.sameText schemaName contextSchema = true ∧
        dep.sameText (nvarchar 256 lockedBy) lockedBy = true ∧ HasRoom kind m)
  maintenance : SeesSameRows dep schemaName ↔ dep.sameText schemaName contextSchema = true

/-- **The statements of the EF Core store meet in one table exactly when the option names the schema of
the context.** -/
theorem one_table_iff (hef : dep.provider = .efCore) (schemaName : Text) :
    OneTableIff dep schemaName where
  writeBack := fun hlock kind now => changesRow_iff hef hlock kind now
  maintenance := seesSameRows_iff

/-! ## Another schema -/

/-- A pending message. -/
def invoiceRow (id : Guid) : OutboxMessage :=
  OutboxStore.directRow 0 ⟨id, text "invoice.paid", [], none, none, none, none, none, none⟩

/-- A database with a message in the schema "billing" and one in the schema "outbox". -/
def twoSchemas : Catalog := fun key =>
  if key = text "billing" then some ⟨[invoiceRow 1], List.nodup_singleton _⟩
  else if key = text "outbox" then some ⟨[invoiceRow 2], List.nodup_singleton _⟩
  else none

/-- The message, locked. -/
def invoiceLocked (id : Guid) : OutboxMessage := lockRow (text "worker-1") 3000000000 (invoiceRow id)

/-- The database after the message in the schema has been locked. -/
def oneLocked (schema : Text) (id : Guid) : Catalog :=
  Function.update twoSchemas schema (some ⟨[invoiceLocked id], List.nodup_singleton _⟩)

/-- **With the option "billing"** the message in "outbox" is never locked, and the one in "billing" never
marked. -/
theorem other_schema :
    tryLockByIdAsync (Deployment.binary .efCore) (text "billing") 0 2 3000000000 (text "worker-1")
      twoSchemas = some (none, Function.update twoSchemas (text "billing")
        (some ⟨[invoiceRow 1], List.nodup_singleton _⟩)) ∧
    tryLockByIdAsync (Deployment.binary .efCore) (text "billing") 0 1 3000000000 (text "worker-1")
      twoSchemas = some (some (invoiceLocked 1), oneLocked (text "billing") 1) ∧
    (∃ db', writeBackAsync (Deployment.binary .efCore) .processed 10000 1 (text "worker-1")
      (oneLocked (text "billing") 1) = some (false, db') ∧
      db' (text "billing") = some ⟨[invoiceLocked 1], List.nodup_singleton _⟩) ∧
    ¬ SeesSameRows (Deployment.binary .efCore) (text "billing") := by
  refine ⟨rfl, rfl, ⟨_, rfl, rfl⟩, fun h => ?_⟩
  exact absurd (seesSameRows_iff.mp h) (by decide)

/-- With the default option the message is marked, and the maintenance sees its row. -/
theorem one_table_iff_outbox :
    ChangesRow (Deployment.binary .efCore) (text "outbox") (text "worker-1") .processed 10000
      (invoiceLocked 2) (oneLocked (text "outbox") 2) ∧
    SeesSameRows (Deployment.binary .efCore) (text "outbox") := by
  have hone : OneTableIff (Deployment.binary .efCore) (text "outbox") := one_table_iff rfl _
  have hlock : LockReturns (Deployment.binary .efCore) (text "outbox") (text "worker-1") twoSchemas
      (invoiceLocked 2) (oneLocked (text "outbox") 2) := by
    have hrun : tryLockByIdAsync (Deployment.binary .efCore) (text "outbox") 0 2 3000000000
        (text "worker-1") twoSchemas = some (some (invoiceLocked 2), oneLocked (text "outbox") 2) := rfl
    exact .byId hrun
  refine ⟨(hone.writeBack hlock .processed 10000).mpr ⟨by decide, by decide, ?_⟩,
    hone.maintenance.mpr (by decide)⟩
  exact fun _ _ h => nomatch h

end EfCoreOutboxStore

end OutboxNet
