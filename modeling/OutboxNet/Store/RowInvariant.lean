import OutboxNet.Store.Operations

/-!
# The row invariant and the absorbing statuses

No write-back looks at the status of the row it changes: it checks the instance name only.  That a
delivered message is never revived rests on an invariant of every row, `RowOk`: a row carries a lock
exactly while it is `Processing`.  So the rows a write-back can reach are `Processing`, and the rows
the other statements change are `Pending` or `Processing`.
-/

set_option autoImplicit false

namespace OutboxNet.OutboxStore

variable {dep : Deployment}

/-- What every row of the table satisfies. -/
structure RowOk (m : OutboxMessage) : Prop where
  status : m.status ∈ [.pending, .processing, .delivered, .failed, .deadLettered]
  locked : m.status = .processing → m.lockedBy.isSome = true ∧ m.lockedUntil.isSome = true
  unlocked : m.status ≠ .processing → m.lockedBy = none ∧ m.lockedUntil = none
  processedAt : m.processedAt.isSome = true ↔ m.status = .delivered

/-- The statuses no operation leaves. -/
def terminal (m : OutboxMessage) : Bool :=
  m.status = .delivered || m.status = .failed || m.status = .deadLettered

theorem terminal_iff {m : OutboxMessage} : terminal m = true ↔
    m.status = .delivered ∨ m.status = .failed ∨ m.status = .deadLettered := by
  simp only [terminal, Bool.or_eq_true, decide_eq_true_eq, or_assoc]

/-- A terminal row is neither pending nor being processed. -/
theorem terminal_ne {m : OutboxMessage} (h : terminal m = true) :
    m.status ≠ .pending ∧ m.status ≠ .processing := by
  rcases terminal_iff.mp h with hst | hst | hst <;> rw [hst] <;> exact ⟨nofun, nofun⟩

/-- A published row is pending and has no lock. -/
theorem publishedRow_fields {now : DateTimeOffset} {a : PublishArgs} {m : OutboxMessage}
    (h : publishedRow dep now a = some m) : m.id = a.id ∧ m.status = .pending ∧ m.retryCount = 0 ∧
      m.processedAt = none ∧ m.lockedUntil = none ∧ m.lockedBy = none ∧ m.nextRetryAt = none := by
  unfold publishedRow at h
  split at h
  · cases h
    exact ⟨rfl, rfl, rfl, rfl, rfl, rfl, rfl⟩
  · unfold efRow at h
    split at h
    · cases h
      exact ⟨rfl, rfl, rfl, rfl, rfl, rfl, rfl⟩
    · cases h

namespace RowOk

variable {m : OutboxMessage}

/-- A row held by an instance is `Processing`. -/
theorem processing_of_heldBy (h : RowOk m) {messageId : Guid} {lockedBy : Text}
    (hheld : heldBy dep messageId lockedBy m = true) : m.status = .processing := by
  by_contra hne
  have hnone := (h.unlocked hne).1
  simp [heldBy, hnone] at hheld

/-- An unlocked row with a status and a time stamp that agree. -/
theorem unlockAs {status : MessageStatus} (hp : status ≠ .processing) (hpub : status ≠ .published)
    (hat : m.processedAt.isSome = true ↔ status = .delivered) : RowOk (unlockAs status m) where
  status := by cases status <;> simp_all [OutboxStore.unlockAs]
  locked h := absurd h hp
  unlocked _ := ⟨rfl, rfl⟩
  processedAt := hat

/-- The time stamp of a row that is not delivered. -/
theorem processedAt_none (h : RowOk m) (hm : m.status ≠ .delivered) :
    m.processedAt.isSome = true ↔ False := by
  rw [h.processedAt]
  exact iff_of_false hm not_false

theorem publish {now : DateTimeOffset} {a : PublishArgs} (h : publishedRow dep now a = some m) :
    RowOk m := by
  obtain ⟨-, hst, -, hat, hu, hl, -⟩ := publishedRow_fields h
  refine ⟨?_, ?_, ?_, ?_⟩ <;> simp [hst, hat, hu, hl]

theorem lock (h : RowOk m) (hm : m.status = .pending ∨ m.status = .processing) (lockedBy : Text)
    (until_ : DateTimeOffset) : RowOk (lockRow lockedBy until_ m) where
  status := by simp [lockRow]
  locked _ := ⟨rfl, rfl⟩
  unlocked hne := absurd rfl hne
  processedAt := by
    have hnd : m.status ≠ .delivered := by rcases hm with hm | hm <;> simp [hm]
    show m.processedAt.isSome = true ↔ MessageStatus.processing = .delivered
    rw [h.processedAt_none hnd]
    simp

theorem writeBack (h : RowOk m) (hm : m.status = .processing) (kind : WriteBack)
    (now : DateTimeOffset) : RowOk (kind.set dep now m) := by
  have hat : m.processedAt.isSome = true ↔ False := h.processedAt_none (by simp [hm])
  cases kind with
  | processed => exact ⟨by simp [WriteBack.set, setProcessed, OutboxStore.unlockAs],
      fun h => absurd h (by simp [WriteBack.set, setProcessed, OutboxStore.unlockAs]),
      fun _ => ⟨rfl, rfl⟩, iff_of_true rfl rfl⟩
  | failed error =>
      have : RowOk (OutboxStore.unlockAs .failed m) :=
        RowOk.unlockAs (by simp) (by simp) (by simpa using hat)
      exact ⟨this.status, this.locked, this.unlocked, this.processedAt⟩
  | retry nextRetryAt error =>
      have : RowOk (OutboxStore.unlockAs .pending m) :=
        RowOk.unlockAs (by simp) (by simp) (by simpa using hat)
      exact ⟨this.status, this.locked, this.unlocked, this.processedAt⟩
  | deadLettered => exact RowOk.unlockAs (by simp) (by simp) (by simpa using hat)

/-- Every change of a row keeps the invariant. -/
theorem change {e : Event} {o o' : Option OutboxMessage} (hc : RowChange dep e o o')
    (ho : ∀ m, o = some m → RowOk m) : ∀ m, o' = some m → RowOk m := by
  cases hc with
  | same o => exact ho
  | publish _ hrow =>
      rintro m ⟨⟩
      exact .publish hrow
  | lock hst _ _ =>
      rintro m ⟨⟩
      exact (ho _ rfl).lock hst _ _
  | writeBack _ hheld _ =>
      rintro m ⟨⟩
      exact (ho _ rfl).writeBack ((ho _ rfl).processing_of_heldBy hheld) _ _
  | @release m _ hexp =>
      rintro m ⟨⟩
      have hst : m.status = .processing := by
        simp only [expired, Bool.and_eq_true, decide_eq_true_eq] at hexp
        exact hexp.1
      refine .unlockAs (by simp) (by simp) ?_
      rw [(ho _ rfl).processedAt_none (by simp [hst])]
      simp
  | purge _ _ => rintro m ⟨⟩

end RowOk

/-! ## Tables -/

/-- Every row of the table satisfies the row invariant. -/
def TableOk (t : Messages) : Prop := ∀ k m, t.find? k = some m → RowOk m

theorem TableOk.empty : TableOk Table.empty := by
  rintro k m ⟨⟩

theorem TableOk.row {t : Messages} (h : TableOk t) {m : OutboxMessage} (hm : m ∈ t.rows) :
    RowOk m :=
  h m.id m (Table.find?_eq_some_iff.mpr ⟨hm, rfl⟩)

theorem TableOk.step {t t' : Messages} {e : Event} (h : TableOk t) (hs : Step dep t e t') :
    TableOk t' := fun k => RowOk.change (hs.rowChange k) (h k)

theorem TableOk.steps {t t' : Messages} {events : List Event} (h : TableOk t)
    (hs : Steps (Step dep) t events t') : TableOk t' :=
  hs.invariant TableOk (fun _ _ _ => TableOk.step) h

/-- A terminal row stays as it is or is purged. -/
theorem RowChange.terminal {e : Event} {m : OutboxMessage} {o' : Option OutboxMessage}
    (hc : RowChange dep e (some m) o') (hok : RowOk m) (hm : terminal m = true) :
    o' = some m ∨ o' = none ∧ (∃ olderThan, e.op = .purgeProcessedMessages olderThan) ∧
      (m.status = .delivered ∨ m.status = .deadLettered) := by
  obtain ⟨hpending, hnp⟩ := terminal_ne hm
  cases hc with
  | same => exact .inl rfl
  | lock hst _ _ => exact absurd hst (not_or.mpr ⟨hpending, hnp⟩)
  | writeBack _ hheld _ => exact absurd (hok.processing_of_heldBy hheld) hnp
  | release _ hexp =>
      simp only [expired, Bool.and_eq_true, decide_eq_true_eq] at hexp
      exact absurd hexp.1 hnp
  | purge hop hp =>
      simp only [purgeable, Bool.and_eq_true, Bool.or_eq_true, decide_eq_true_eq] at hp
      exact .inr ⟨rfl, ⟨_, hop⟩, hp.1⟩

/-- **The row invariant and the absorbing statuses.** In every state reachable from the empty table
by publisher inserts and store operations, with any clock values, every row is well formed; no
operation changes a row that is delivered, failed or dead-lettered, except that a purge may delete it
when it is not failed; and it is still the same row after any run of operations without a purge. -/
theorem rows_wellFormed_and_terminal_absorbing {events : List Event} {t : Messages}
    (h : Steps (Step dep) Table.empty events t) :
    (∀ m ∈ t.rows, RowOk m) ∧
    (∀ e t', Step dep t e t' → ∀ m ∈ t.rows, terminal m = true →
      t'.find? m.id = some m ∨ t'.find? m.id = none ∧
        (∃ olderThan, e.op = .purgeProcessedMessages olderThan) ∧
        (m.status = .delivered ∨ m.status = .deadLettered)) ∧
    (∀ events' t', Steps (Step dep) t events' t' → ∀ m ∈ t.rows, terminal m = true →
      t'.find? m.id = some m ∨ (m.status = .delivered ∨ m.status = .deadLettered) ∧
        ∃ e ∈ events', ∃ olderThan, e.op = .purgeProcessedMessages olderThan) := by
  have hok : TableOk t := TableOk.empty.steps h
  have hone : ∀ {t e t'} (_ : TableOk t) (_ : Step dep t e t') {m : OutboxMessage}
      (_ : t.find? m.id = some m) (_ : OutboxStore.terminal m = true), t'.find? m.id = some m ∨
        t'.find? m.id = none ∧ (∃ olderThan, e.op = .purgeProcessedMessages olderThan) ∧
          (m.status = .delivered ∨ m.status = .deadLettered) := by
    intro t e t' hok hs m hm hterm
    have hc := hs.rowChange m.id
    rw [hm] at hc
    exact hc.terminal (hok _ _ hm) hterm
  refine ⟨fun m hm => hok.row hm, ?_, ?_⟩
  · intro e t' hs m hm hterm
    exact hone hok hs (Table.find?_eq_some_iff.mpr ⟨hm, rfl⟩) hterm
  · intro events' t' hs m hm hterm
    have hfind : t.find? m.id = some m := Table.find?_eq_some_iff.mpr ⟨hm, rfl⟩
    clear hm h
    -- the row stays as it is until a purge takes it
    induction hs with
    | nil t => exact .inl hfind
    | cons hs _ ih =>
        rcases hone hok hs hfind hterm with hsame | ⟨-, hpurge, hst⟩
        · rcases ih (hok.step hs) hsame with h | ⟨hst, e, he, hop⟩
          · exact .inl h
          · exact .inr ⟨hst, e, List.mem_cons_of_mem _ he, hop⟩
        · exact .inr ⟨hst, _, List.mem_cons_self, hpurge⟩

/-- A delivered message, from its insert on. -/
theorem rows_wellFormed_and_terminal_absorbing_delivered :
    let dep := Deployment.binary .directSql
    let calls : List (DateTimeOffset × Op) :=
      [(1000, .publish ⟨1, text "order.placed", [], none, none, none, none, none, none⟩),
       (2000, .tryLockById 1 (5 * ticksPerSecond) (text "worker")),
       (3000, .writeBack .processed 1 (text "worker"))]
    let t := (execute dep calls Table.empty).2
    (∀ m ∈ t.rows, RowOk m) ∧ (t.find? 1).map OutboxMessage.status = some .delivered := by
  intro dep calls t
  have hrun : Steps (Step dep) Table.empty (execute dep calls Table.empty).1 t :=
    execute_steps dep (by decide)
  exact ⟨(rows_wellFormed_and_terminal_absorbing hrun).1, by decide⟩

end OutboxNet.OutboxStore
