import OutboxNet.Lib.Ranking
import OutboxNet.Store.Eligibility

/-!
# The partitions of a batch

Under ordered processing the candidate scan passes over a message while another one of its partition is
live-locked in the table it reads.  Messages that it picks together do not hold each other back: two
siblings are locked in one batch whenever both rank among the first `batchSize` candidates.
-/

set_option autoImplicit false

namespace OutboxNet.OutboxStore

variable (dep : Deployment)

/-- Whether the database takes the partition keys of two messages for the same. -/
def samePartition (m m2 : OutboxMessage) : Bool :=
  dep.sameKey m2.tenantId m.tenantId && dep.sameKey m2.userId m.userId &&
    dep.sameKey m2.entityId m.entityId

/-- A batch, taken from `t`, that respects the partitions. -/
structure OnePerPartition (now : DateTimeOffset) (t : Messages) (batch : List OutboxMessage) :
    Prop where
  alone : ∀ m ∈ batch, ∀ m2 ∈ batch, m2.id ≠ m.id → samePartition dep m m2 = true →
    unpartitioned m = true
  unblocked : ∀ m ∈ batch, unpartitioned m = false → ∀ m2 ∈ t.rows, m2.id ≠ m.id →
    samePartition dep m m2 = true → ∀ until_, m2.lockedUntil = some until_ → now < until_ →
    m2.status ≠ .processing

/-- The candidates, in the order in which the scan meets them. -/
def candidates (options : OutboxOptions) (now : DateTimeOffset) (skipIds : List Guid) (t : Messages)
    (scan : List OutboxMessage) : List OutboxMessage :=
  scan.filter (candidate dep options now skipIds t)

/-- How many candidates come ahead of `m`, by `CreatedAt` and then in the order of the scan. -/
def ahead (options : OutboxOptions) (now : DateTimeOffset) (skipIds : List Guid) (t : Messages)
    (scan : List OutboxMessage) (m : OutboxMessage) : ℕ :=
  Ranking.rank OutboxMessage.createdAt (candidates dep options now skipIds t scan) m

/-- Of two candidates of a partition, one has `batchSize` candidates ahead of it. -/
def SiblingsApart (options : OutboxOptions) (now : DateTimeOffset) (batchSize : ℤ)
    (skipIds : List Guid) (t : Messages) (scan : List OutboxMessage) : Prop :=
  ∀ m ∈ candidates dep options now skipIds t scan, ∀ m2 ∈ candidates dep options now skipIds t scan,
    m2.id ≠ m.id → samePartition dep m m2 = true → unpartitioned m = false →
    batchSize ≤ ahead dep options now skipIds t scan m ∨
      batchSize ≤ ahead dep options now skipIds t scan m2

variable {dep} {options : OutboxOptions} {now : DateTimeOffset} {batchSize : ℤ}
variable {skipIds : List Guid} {t t' : Messages} {scan batch : List OutboxMessage}

/-- The rows selected are the candidates with fewer than `batchSize` others ahead. -/
theorem mem_selected_iff (hscan : scan.Perm t.rows) (hsize : 0 ≤ batchSize) {m : OutboxMessage} :
    m ∈ selected dep options now batchSize skipIds t scan ↔
      m ∈ candidates dep options now skipIds t scan ∧
        ahead dep options now skipIds t scan m < batchSize := by
  have hnodup : (candidates dep options now skipIds t scan).Nodup :=
    (hscan.nodup_iff.mpr (List.Nodup.of_map _ t.nodup)).filter _
  by_cases hm : m ∈ candidates dep options now skipIds t scan
  · have htop : m ∈ selected dep options now batchSize skipIds t scan ↔
        ahead dep options now skipIds t scan m < batchSize.toNat :=
      Ranking.mem_take_insertionSort hnodup hm
    rw [and_iff_right hm, htop]
    omega
  · refine iff_of_false (fun hsel => hm ?_) fun h => hm h.1
    obtain ⟨hmem, hcand⟩ := mem_selected hsel
    exact List.mem_filter.mpr ⟨hmem, hcand⟩

/-- The messages of a batch are the selected rows, locked. -/
theorem mem_batch_iff {visibilityTimeout : TimeSpan} {lockedBy : Text} (hscan : scan.Perm t.rows)
    (h : lockNextBatchAsync dep options now batchSize visibilityTimeout lockedBy skipIds scan t =
      some (batch, t')) :
    0 ≤ batchSize ∧ ∃ until_, ∀ m', m' ∈ batch ↔
      ∃ m ∈ selected dep options now batchSize skipIds t scan, m' = lockRow lockedBy until_ m := by
  unfold lockNextBatchAsync at h
  split at h
  · cases h
  next hsize =>
  split at h
  · cases h
  next until_ huntil =>
  simp only [Option.some.injEq, Prod.mk.injEq] at h
  obtain ⟨rfl, -⟩ := h
  refine ⟨not_lt.mp hsize, until_, fun m' => ?_⟩
  rw [List.mem_map]
  constructor
  · rintro ⟨m, hm, rfl⟩
    obtain ⟨hrow, hid⟩ := List.mem_filter.mp hm
    rw [List.contains_iff_mem, List.mem_map] at hid
    obtain ⟨m₁, hsel, heq⟩ := hid
    have hrow₁ := hscan.mem_iff.mp (mem_selected hsel).1
    rw [← t.eq_of_key_eq hrow₁ hrow heq]
    exact ⟨m₁, hsel, rfl⟩
  · rintro ⟨m, hsel, rfl⟩
    refine ⟨m, List.mem_filter.mpr ⟨hscan.mem_iff.mp (mem_selected hsel).1, ?_⟩, rfl⟩
    rw [List.contains_iff_mem]
    exact List.mem_map_of_mem hsel

/-- A candidate has no live-locked message in its partition. -/
theorem candidate_unblocked (hordered : options.enableOrderedProcessing = true) {m m2 : OutboxMessage}
    (hcand : candidate dep options now skipIds t m = true) (hpartitioned : unpartitioned m = false)
    (hm2 : m2 ∈ t.rows) (hne : m2.id ≠ m.id) (hsame : samePartition dep m m2 = true)
    {until_ : DateTimeOffset} (huntil : m2.lockedUntil = some until_) (hlive : now < until_) :
    m2.status ≠ .processing := by
  intro hstatus
  obtain ⟨-, -, -, -, hfree⟩ := candidate_iff.mp hcand
  have hblocks := hfree hordered hpartitioned m2 hm2
  rw [samePartition, Bool.and_eq_true, Bool.and_eq_true] at hsame
  obtain ⟨⟨htenant, huser⟩, hentity⟩ := hsame
  have hlock : m2.lockedUntil.any (fun u => now < u) = true := by
    rw [huntil]
    exact decide_eq_true hlive
  rw [blocks, decide_eq_true hstatus, hlock, htenant, huser, hentity, decide_eq_true hne] at hblocks
  cases hblocks

/-- **A batch has at most one message of each partition exactly when siblings do not rank among the
first `batchSize` candidates together.**  No message is ever taken from a partition that is locked. -/
theorem lockNextBatchAsync_onePerPartition_iff {visibilityTimeout : TimeSpan} {lockedBy : Text}
    (hordered : options.enableOrderedProcessing = true) (hscan : scan.Perm t.rows)
    (h : lockNextBatchAsync dep options now batchSize visibilityTimeout lockedBy skipIds scan t =
      some (batch, t')) :
    OnePerPartition dep now t batch ↔ SiblingsApart dep options now batchSize skipIds t scan := by
  obtain ⟨hsize, until_, hbatch⟩ := mem_batch_iff hscan h
  constructor
  · intro hone m hm m2 hm2 hne hsame hpartitioned
    by_contra hboth
    rw [not_or, not_le, not_le] at hboth
    have hsel := (mem_selected_iff hscan hsize).mpr ⟨hm, hboth.1⟩
    have hsel2 := (mem_selected_iff hscan hsize).mpr ⟨hm2, hboth.2⟩
    have hunpartitioned : unpartitioned m = true :=
      hone.alone (lockRow lockedBy until_ m) ((hbatch _).mpr ⟨m, hsel, rfl⟩)
        (lockRow lockedBy until_ m2) ((hbatch _).mpr ⟨m2, hsel2, rfl⟩) hne hsame
    rw [hpartitioned] at hunpartitioned
    cases hunpartitioned
  · intro hapart
    constructor
    · intro m' hm' m2' hm2' hne hsame
      obtain ⟨m, hsel, rfl⟩ := (hbatch _).mp hm'
      obtain ⟨m2, hsel2, rfl⟩ := (hbatch _).mp hm2'
      obtain ⟨hm, hahead⟩ := (mem_selected_iff hscan hsize).mp hsel
      obtain ⟨hm2, hahead2⟩ := (mem_selected_iff hscan hsize).mp hsel2
      by_contra hpartitioned
      rcases hapart m hm m2 hm2 hne hsame (Bool.not_eq_true _ ▸ hpartitioned) with hle | hle
      · exact absurd hahead (not_lt.mpr hle)
      · exact absurd hahead2 (not_lt.mpr hle)
    · intro m' hm' hpartitioned m2 hm2 hne hsame u hu hlive
      obtain ⟨m, hsel, rfl⟩ := (hbatch _).mp hm'
      exact candidate_unblocked hordered (mem_selected hsel).2 hpartitioned hm2 hne hsame hu hlive

/-! ## Two messages about one order -/

/-- A pending message about an order. -/
def orderRow (id : Guid) (createdAt : DateTimeOffset) : OutboxMessage :=
  directRow createdAt ⟨id, text "order.changed", [], none, none, none, none, none, some (text "42")⟩

/-- Two of them. -/
def orderMessages : Messages := ⟨[orderRow 1 0, orderRow 2 10000], by decide⟩

/-- An instance with a batch size of its own. -/
def orderedOptions (batchSize : ℤ) : OutboxOptions :=
  { instanceId := text "worker-1", batchSize := batchSize }

/-- The row of a message, locked for five minutes. -/
def orderLocked (id : Guid) (createdAt : DateTimeOffset) : OutboxMessage :=
  lockRow (text "worker-1") 3000020000 (orderRow id createdAt)

/-- **A batch of two takes both messages of the partition.** -/
theorem batch_of_siblings : (orderedOptions 50).enableOrderedProcessing = true ∧
    orderMessages.rows.Perm orderMessages.rows ∧
    (∃ t', lockNextBatchAsync (Deployment.binary .directSql) (orderedOptions 50) 20000 50 3000000000
      (text "worker-1") [] orderMessages.rows orderMessages =
        some ([orderLocked 1 0, orderLocked 2 10000], t')) ∧
    ¬ OnePerPartition (Deployment.binary .directSql) 20000 orderMessages
      [orderLocked 1 0, orderLocked 2 10000] := by
  refine ⟨rfl, List.Perm.refl _, ⟨_, rfl⟩, fun h => ?_⟩
  have hunpartitioned := h.alone (orderLocked 1 0) List.mem_cons_self (orderLocked 2 10000)
    (List.mem_cons_of_mem _ List.mem_cons_self) (by decide) (by decide)
  exact absurd hunpartitioned (by decide)

/-- A batch of one takes the older one, and respects the partition. -/
theorem lockNextBatchAsync_onePerPartition_one :
    OnePerPartition (Deployment.binary .directSql) 20000 orderMessages [orderLocked 1 0] := by
  have hlock : lockNextBatchAsync (Deployment.binary .directSql) (orderedOptions 1) 20000 1 3000000000
      (text "worker-1") [] orderMessages.rows orderMessages =
        some ([orderLocked 1 0], ⟨[orderLocked 1 0, orderRow 2 10000], by decide⟩) := by decide
  refine (lockNextBatchAsync_onePerPartition_iff rfl (List.Perm.refl _) hlock).mpr ?_
  unfold SiblingsApart
  decide

end OutboxNet.OutboxStore
