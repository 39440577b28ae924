import Mathlib.Logic.Relation
import OutboxNet.Store.RowInvariant

/-!
# The outbox from publish to purge

The whole path of a message, seen from the database: publishers insert rows in transactions of their
own and leave a hint in the channel of their process; the hot path of an instance reads hints and
locks messages one by one, the cold path scans; the workers so started write back, or crash; locks
are released and old messages purged.  Hints may be lost, may come before the commit, or may name a
message whose insert is rolled back.

A worker is kept abstract: it may issue any write-back for its message, any number of times, and stop
at any moment.  What a worker really does is in `Processor/Pipeline.lean`.
-/

set_option autoImplicit false

namespace OutboxNet

/-! ## The parties -/

/-- The state of one process: the hints not read yet, the messages of the hot path, and those it had when
the cold path last looked. -/
structure Instance where
  queue : List Guid
  hotInFlight : List Guid
  snapshot : List Guid
deriving DecidableEq, Repr

/-- A process that has just started. -/
def Instance.idle : Instance := ⟨[], [], []⟩

/-- A worker of an instance, with the message as it was acquired. -/
structure Worker where
  instanceNo : ℕ
  message : OutboxMessage
deriving DecidableEq, Repr

structure Outbox where
  table : Messages
  /-- The rows inserted by each open transaction. -/
  transactions : List (List OutboxMessage)
  instances : ℕ → Instance
  workers : List Worker

namespace Outbox

open OutboxStore

/-- Nothing published yet, no process running. -/
def initial : Outbox := ⟨Table.empty, [], fun _ => .idle, []⟩

/-- The state with one instance changed. -/
def setInstance (s : Outbox) (n : ℕ) (i : Instance) : Outbox :=
  { s with instances := Function.update s.instances n i }

/-- One step of one party.  `options n` are the options of instance `n`; every statement runs at
whatever the clock of the database shows. -/
inductive Step (dep : Deployment) (options : ℕ → OutboxOptions) : Outbox → Outbox → Prop
  | beginTransaction (s : Outbox) :
      Step dep options s { s with transactions := s.transactions ++ [[]] }
  /-- `PublishAsync`: the row is added to the transaction, the hint to the channel. -/
  | publish {s : Outbox} {i n : ℕ} {rows : List OutboxMessage} {now : DateTimeOffset}
      {a : PublishArgs} {m : OutboxMessage} :
      s.transactions[i]? = some rows → publishedRow dep now a = some m →
      Step dep options s
        (setInstance { s with transactions := s.transactions.set i (rows ++ [m]) } n
          { s.instances n with queue := ChannelOutboxSignal.notify (s.instances n).queue m.id })
  | commit {s : Outbox} {i : ℕ} {rows : List OutboxMessage} {table : Messages} :
      s.transactions[i]? = some rows → s.table.insertAll? rows = some table →
      Step dep options s { s with table := table, transactions := s.transactions.eraseIdx i }
  | rollback (s : Outbox) (i : ℕ) :
      Step dep options s { s with transactions := s.transactions.eraseIdx i }
  /-- The hot path takes a hint and notes it as in flight. -/
  | receive {s : Outbox} {n : ℕ} {messageId : Guid} {queue : List Guid} :
      (s.instances n).queue = messageId :: queue →
      Step dep options s
        (setInstance s n { s.instances n with
          queue := queue
          hotInFlight := messageId :: (s.instances n).hotInFlight })
  | hotLock {s : Outbox} {n : ℕ} {messageId : Guid} {now : DateTimeOffset}
      {result : Option OutboxMessage} {table : Messages} :
      messageId ∈ (s.instances n).hotInFlight →
      tryLockByIdAsync dep now messageId (options n).defaultVisibilityTimeout
        (options n).instanceId s.table = some (result, table) →
      Step dep options s
        { s with table := table, workers := s.workers ++ result.toList.map (Worker.mk n) }
  | hotDone (s : Outbox) (n : ℕ) (messageId : Guid) :
      Step dep options s (setInstance s n
        { s.instances n with hotInFlight := (s.instances n).hotInFlight.erase messageId })
  /-- The cold path notes what the hot path has in flight. -/
  | turn (s : Outbox) (n : ℕ) : Step dep options s (setInstance s n
      { s.instances n with snapshot := (s.instances n).hotInFlight })
  /-- It scans afterwards, leaving out what it has noted (or, under Azure Functions, nothing). -/
  | coldLock {s : Outbox} {n : ℕ} {now : DateTimeOffset} {skipIds : List Guid}
      {scan batch : List OutboxMessage} {table : Messages} :
      skipIds = (s.instances n).snapshot ∨ skipIds = [] → scan.Perm s.table.rows →
      lockNextBatchAsync dep (options n) now (options n).batchSize
        (options n).defaultVisibilityTimeout (options n).instanceId skipIds scan s.table =
          some (batch, table) →
      Step dep options s { s with table := table, workers := s.workers ++ batch.map (Worker.mk n) }
  | writeBack {s : Outbox} {w : Worker} {kind : WriteBack} {now : DateTimeOffset} {b : Bool}
      {table : Messages} :
      w ∈ s.workers →
      kind.run dep now w.message.id (options w.instanceNo).instanceId s.table = some (b, table) →
      Step dep options s { s with table := table }
  /-- A worker ends or crashes. -/
  | stop (s : Outbox) (w : Worker) : Step dep options s { s with workers := s.workers.erase w }
  /-- A process dies with its channel and all its workers. -/
  | restart (s : Outbox) (n : ℕ) :
      Step dep options s (setInstance
        { s with workers := s.workers.filter fun w => w.instanceNo ≠ n } n .idle)
  | releaseExpiredLocks (s : Outbox) (now : DateTimeOffset) :
      Step dep options s { s with table := releaseExpiredLocksAsync now s.table }
  | purge (s : Outbox) (olderThan : DateTimeOffset) :
      Step dep options s { s with table := (purgeProcessedMessagesAsync olderThan s.table).2 }

variable {dep : Deployment} {options : ℕ → OutboxOptions}

/-- A finite run. -/
abbrev Run (dep : Deployment) (options : ℕ → OutboxOptions) : Outbox → Outbox → Prop :=
  Relation.ReflTransGen (Step dep options)

/-! ## What a step does to the table -/

/-- A step leaves the table alone, is a statement of the store, or commits a transaction. -/
theorem Step.table {s s' : Outbox} (h : Step dep options s s') :
    s'.table = s.table ∨ (∃ e, OutboxStore.Step dep s.table e s'.table) ∨
      ∃ rows ∈ s.transactions, s.table.insertAll? rows = some s'.table := by
  cases h with
  | beginTransaction => exact .inl rfl
  | publish => exact .inl rfl
  | commit hrows hins => exact .inr (.inr ⟨_, List.mem_of_getElem? hrows, hins⟩)
  | rollback => exact .inl rfl
  | receive => exact .inl rfl
  | @hotLock n messageId now result table _ hlock =>
      refine .inr (.inl ⟨⟨now, .tryLockById messageId (options n).defaultVisibilityTimeout
        (options n).instanceId, .locked result.toList⟩, trivial, ?_⟩)
      simp only [Op.run, hlock, orRefused]
  | hotDone => exact .inl rfl
  | turn => exact .inl rfl
  | @coldLock n now skipIds scan batch table _ hscan hlock =>
      refine .inr (.inl ⟨⟨now, .lockNextBatch (options n) (options n).batchSize
        (options n).defaultVisibilityTimeout (options n).instanceId skipIds scan, .locked batch⟩,
        hscan, ?_⟩)
      simp only [Op.run, hlock, orRefused]
  | @writeBack w kind now b table _ hrun =>
      refine .inr (.inl ⟨⟨now, .writeBack kind w.message.id (options w.instanceNo).instanceId,
        .answer b⟩, trivial, ?_⟩)
      simp only [Op.run, hrun, orRefused]
  | stop => exact .inl rfl
  | restart => exact .inl rfl
  | releaseExpiredLocks now =>
      exact .inr (.inl ⟨⟨now, .releaseExpiredLocks, .unit⟩, trivial, rfl⟩)
  | purge olderThan =>
      exact .inr (.inl ⟨⟨0, .purgeProcessedMessages olderThan, .count _⟩, trivial, rfl⟩)

/-- The rows of the table are well formed, and so are those waiting to be committed. -/
structure Ok (s : Outbox) : Prop where
  table : TableOk s.table
  waiting : ∀ rows ∈ s.transactions, ∀ m ∈ rows, RowOk m

theorem Ok.initial : Ok Outbox.initial := ⟨TableOk.empty, by simp [Outbox.initial]⟩

theorem Ok.step {s s' : Outbox} (h : Ok s) (hs : Step dep options s s') : Ok s' := by
  -- the rows of the table, and those of the open transactions
  refine ⟨?_, ?_⟩
  · rcases hs.table with heq | ⟨e, he⟩ | ⟨rows, hrows, hins⟩
    · rw [heq]
      exact h.table
    · exact h.table.step he
    · intro k m hm
      rcases (Table.mem_insertAll? hins).mp (Table.find?_mem hm) with hold | hnew
      · exact h.table.row hold
      · exact h.waiting rows hrows m hnew
  · cases hs with
    | beginTransaction =>
        intro rows hrows
        rcases List.mem_append.mp hrows with hrows | hrows
        · exact h.waiting rows hrows
        · obtain rfl := List.mem_singleton.mp hrows
          simp
    | @publish _ _ rows _ _ m hget hrow =>
        intro rows' hrows' m' hm'
        rcases List.mem_or_eq_of_mem_set hrows' with hold | rfl
        · exact h.waiting rows' hold m' hm'
        · rcases List.mem_append.mp hm' with hm' | hm'
          · exact h.waiting rows (List.mem_of_getElem? hget) m' hm'
          · obtain rfl := List.mem_singleton.mp hm'
            exact .publish hrow
    | commit => exact fun rows hrows => h.waiting rows (List.mem_of_mem_eraseIdx hrows)
    | rollback => exact fun rows hrows => h.waiting rows (List.mem_of_mem_eraseIdx hrows)
    | receive => exact h.waiting
    | hotLock => exact h.waiting
    | hotDone => exact h.waiting
    | turn => exact h.waiting
    | coldLock => exact h.waiting
    | writeBack => exact h.waiting
    | stop => exact h.waiting
    | restart => exact h.waiting
    | releaseExpiredLocks => exact h.waiting
    | purge => exact h.waiting

theorem Ok.run {s s' : Outbox} (h : Ok s) (hs : Run dep options s s') : Ok s' := by
  induction hs with
  | refl => exact h
  | tail _ hs ih => exact ih.step hs

/-! ## Nothing is lost -/

/-- Whether message `k` is delivered or dead-lettered. -/
def Retired (s : Outbox) (k : Guid) : Prop :=
  ∃ m, s.table.find? k = some m ∧ (m.status = .delivered ∨ m.status = .deadLettered)

/-- One step loses only messages that are retired. -/
theorem Step.keeps {s s' : Outbox} (hs : Step dep options s s') {k : Guid} {m : OutboxMessage}
    (hm : s.table.find? k = some m) : (∃ m', s'.table.find? k = some m') ∨ s.Retired k := by
  rcases hs.table with heq | ⟨e, he⟩ | ⟨rows, -, hins⟩
  · rw [heq]
    exact .inl ⟨m, hm⟩
  · have hc := he.rowChange k
    rw [hm] at hc
    generalize s'.table.find? k = o' at hc
    cases hc with
    | same => exact .inl ⟨m, rfl⟩
    | lock => exact .inl ⟨_, rfl⟩
    | writeBack => exact .inl ⟨_, rfl⟩
    | release => exact .inl ⟨_, rfl⟩
    | purge _ hp =>
        simp only [purgeable, Bool.and_eq_true, Bool.or_eq_true, decide_eq_true_eq] at hp
        exact .inr ⟨m, hm, hp.1⟩
  · rw [Table.find?_insertAll? hins, hm]
    exact .inl ⟨m, rfl⟩

/-- Along a run a committed message stays in the table or was retired on the way. -/
theorem Run.keeps {s s' : Outbox} (hs : Run dep options s s') {k : Guid} {m : OutboxMessage}
    (hm : s.table.find? k = some m) : (∃ m', s'.table.find? k = some m') ∨
      ∃ s'', Run dep options s s'' ∧ Run dep options s'' s' ∧ s''.Retired k := by
  induction hs using Relation.ReflTransGen.head_induction_on generalizing m with
  | refl => exact .inl ⟨m, hm⟩
  | head hs hrest ih =>
      rcases hs.keeps hm with ⟨m', hm'⟩ | hret
      · rcases ih hm' with h | ⟨s'', h₁, h₂, h₃⟩
        · exact .inl h
        · exact .inr ⟨s'', .head hs h₁, h₂, h₃⟩
      · exact .inr ⟨_, .refl, .head hs hrest, hret⟩

/-! ## Nothing is stranded -/

/-- The clock has passed every lock and every scheduled retry of the table. -/
def PastAll (now : DateTimeOffset) (t : Messages) : Prop :=
  ∀ m ∈ t.rows, (∀ u, m.lockedUntil = some u → u < now) ∧ ∀ r, m.nextRetryAt = some r → r ≤ now

/-- With every lock and delay in the past, a row that is not in a terminal status is a candidate. -/
theorem candidate_of_pastAll {o : OutboxOptions} (ho : o.tenantFilter = none) {now : DateTimeOffset}
    {t : Messages} (hpast : PastAll now t) {m : OutboxMessage} (hm : m ∈ t.rows) (hok : RowOk m)
    (hterm : terminal m = false) : candidate dep o now [] t m = true := by
  have hfree : m.status = .pending ∨ m.status = .processing := by
    have hst := hok.status
    simp only [terminal, Bool.or_eq_false_iff, decide_eq_false_iff_not] at hterm
    simp only [List.mem_cons, List.not_mem_nil, or_false] at hst
    tauto
  have hdue : due now m = true := by
    simp only [due, Bool.and_eq_true, Option.all_eq_true, decide_eq_true_eq]
    exact hpast m hm
  have hunblocked : t.rows.any (blocks dep now m) = false := by
    rw [List.any_eq_false]
    intro m2 hm2 hb
    simp only [blocks, Bool.and_eq_true, Option.any_eq_true, decide_eq_true_eq] at hb
    obtain ⟨u, hu, hlt⟩ := hb.1.1.1.1.2
    exact absurd ((hpast m2 hm2).1 u hu) (not_lt.mpr hlt.le)
  simp only [candidate, hdue, ho, hunblocked, Option.all_none, Bool.and_eq_true, Bool.or_eq_true,
    decide_eq_true_eq]
  refine ⟨⟨⟨⟨hfree, trivial⟩, trivial⟩, by simp⟩, by simp⟩

/-- A scan with room for every row selects every candidate. -/
theorem mem_selected_of_candidate {o : OutboxOptions} {now : DateTimeOffset} {batchSize : ℤ}
    {skipIds : List Guid} {t : Messages} {scan : List OutboxMessage} (hscan : scan.Perm t.rows)
    (hsize : t.rows.length ≤ batchSize) {m : OutboxMessage} (hm : m ∈ t.rows)
    (hc : candidate dep o now skipIds t m = true) :
    m ∈ selected dep o now batchSize skipIds t scan := by
  have hlen : ((scan.filter (candidate dep o now skipIds t)).insertionSort
      (fun a b => a.createdAt ≤ b.createdAt)).length ≤ batchSize.toNat := by
    rw [List.length_insertionSort]
    calc (scan.filter (candidate dep o now skipIds t)).length
        ≤ scan.length := List.length_filter_le _ _
      _ = t.rows.length := hscan.length_eq
      _ ≤ batchSize.toNat := by omega
  rw [selected, List.take_of_length_le hlen, List.mem_insertionSort, List.mem_filter]
  exact ⟨hscan.mem_iff.mpr hm, hc⟩

/-- **No message is lost or stranded.** In every reachable state: a message once committed is in the
table or has been delivered or dead-lettered; and once the clock is past every lock and every delay,
a scan without a tenant filter, skipped ids or too small a batch returns every message that is not
delivered, dead-lettered or failed.  Such a scan is refused only when its time-out leaves the range
of dates. -/
theorem no_message_lost_or_stranded {s : Outbox} (h : Run dep options initial s) :
    (∀ s', Run dep options s s' → ∀ k m, s.table.find? k = some m →
      (∃ m', s'.table.find? k = some m') ∨
        ∃ s'', Run dep options s s'' ∧ Run dep options s'' s' ∧ s''.Retired k) ∧
    (∀ (o : OutboxOptions) (now : DateTimeOffset) (batchSize : ℤ) (visibilityTimeout : TimeSpan)
      (lockedBy : Text) (scan : List OutboxMessage), o.tenantFilter = none →
      s.table.rows.length ≤ batchSize → PastAll now s.table → scan.Perm s.table.rows →
      (lockNextBatchAsync dep o now batchSize visibilityTimeout lockedBy [] scan s.table = none ↔
        dateAddSeconds (dep.castSeconds visibilityTimeout) now = none) ∧
      ∀ batch t', lockNextBatchAsync dep o now batchSize visibilityTimeout lockedBy [] scan s.table =
        some (batch, t') → ∀ m ∈ s.table.rows, terminal m = false →
          ∃ m' ∈ batch, m'.id = m.id) := by
  have hok : Ok s := Ok.initial.run h
  refine ⟨fun s' hs k m hm => hs.keeps hm, ?_⟩
  intro o now batchSize visibilityTimeout lockedBy scan ho hsize hpast hscan
  have hnonneg : ¬ batchSize < 0 := by omega
  refine ⟨?_, ?_⟩
  · rw [lockNextBatchAsync, if_neg hnonneg]
    cases dateAddSeconds (dep.castSeconds visibilityTimeout) now <;> simp
  · intro batch t' hrun m hm hterm
    -- nothing holds the row back, and the batch has room for all rows
    have hsel : m ∈ selected dep o now batchSize [] s.table scan :=
      mem_selected_of_candidate hscan hsize hm
        (candidate_of_pastAll ho hpast hm (hok.table.row hm) hterm)
    rw [lockNextBatchAsync, if_neg hnonneg] at hrun
    split at hrun
    · cases hrun
    next until_ _ =>
    simp only [Option.some.injEq, Prod.mk.injEq] at hrun
    refine ⟨lockRow lockedBy until_ m, ?_, rfl⟩
    rw [← hrun.1]
    refine List.mem_map_of_mem (List.mem_filter.mpr ⟨hm, ?_⟩)
    rw [List.contains_iff_mem]
    exact List.mem_map_of_mem hsel

/-- A hint read before the commit is in vain, and a scan still finds the message. -/
theorem no_message_lost_or_stranded_premature_hint :
    let dep := Deployment.binary .directSql
    let m := directRow 1000 ⟨1, text "order.placed", [], none, none, none, none, none, none⟩
    let t : Messages := ⟨[m], by simp⟩
    ∃ batch t', lockNextBatchAsync dep { instanceId := text "a" } 2000 1 ticksPerSecond (text "a") []
      t.rows t = some (batch, t') ∧ ∃ m' ∈ batch, m'.id = 1 := by
  intro dep m t
  let options : ℕ → OutboxOptions := fun _ => { instanceId := text "a" }
  let s₁ : Outbox := { initial with transactions := [[]] }
  let s₂ : Outbox := setInstance { s₁ with transactions := s₁.transactions.set 0 ([] ++ [m]) } 0
    { s₁.instances 0 with queue := ChannelOutboxSignal.notify (s₁.instances 0).queue m.id }
  let s₃ : Outbox := setInstance s₂ 0 ⟨[], [1], []⟩
  let s₅ : Outbox := { s₃ with table := t, transactions := [] }
  have h₁ : Step dep options initial s₁ := .beginTransaction initial
  have hrow : publishedRow dep 1000
      ⟨1, text "order.placed", [], none, none, none, none, none, none⟩ = some m := rfl
  have hhint : (s₂.instances 0).queue = 1 :: [] := by decide
  have hflight : (1 : Guid) ∈ (s₃.instances 0).hotInFlight := by decide
  have hlock : tryLockByIdAsync dep 1500 1 (options 0).defaultVisibilityTimeout
      (options 0).instanceId s₃.table = some (none, Table.empty) := by decide
  have hinsert : s₃.table.insertAll? [m] = some t := by decide
  have h₂ : Step dep options s₁ s₂ := .publish (i := 0) (n := 0) rfl hrow
  have h₃ : Step dep options s₂ s₃ := .receive hhint
  have h₄ : Step dep options s₃ s₃ := .hotLock hflight hlock
  have h₅ : Step dep options s₃ s₅ := .commit (i := 0) rfl hinsert
  have hrun : Run dep options initial s₅ := .tail (.tail (.tail (.tail (.single h₁) h₂) h₃) h₄) h₅
  obtain ⟨hrefused, hfound⟩ := (no_message_lost_or_stranded hrun).2 { instanceId := text "a" } 2000 1
    ticksPerSecond (text "a") t.rows rfl (by decide)
    (by intro m' hm'; obtain rfl := List.mem_singleton.mp hm'; exact ⟨nofun, nofun⟩) (.refl _)
  cases hl : lockNextBatchAsync dep { instanceId := text "a" } 2000 1 ticksPerSecond (text "a") []
      t.rows t with
  | none => exact absurd (hrefused.mp hl) (by decide)
  | some x => exact ⟨x.1, x.2, rfl, hfound x.1 x.2 hl m List.mem_cons_self rfl⟩

end Outbox

end OutboxNet
