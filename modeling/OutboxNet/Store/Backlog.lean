import Mathlib.Algebra.Order.BigOperators.Group.Finset
import OutboxNet.Store.BatchPartition
import OutboxNet.Store.RowInvariant

/-!
# How long a message waits

A batch takes the oldest candidates.  A candidate that it leaves behind is *passed over*: the batch is
full, and no message in it is younger.  Whatever else happens to the table, a message is passed over only
as often as messages that are not younger fill batches.
-/

set_option autoImplicit false

namespace OutboxNet.OutboxStore

variable (dep : Deployment)

/-- A batch of `size` messages or more is asked for, at a time when message `k` may be acquired, and `k` is
not in what it gets. -/
def PassedOver (k : Guid) (size : ℕ) (t : Messages) (e : Event) : Prop :=
  ∃ options batchSize visibilityTimeout lockedBy skipIds scan batch m,
    e.op = .lockNextBatch options batchSize visibilityTimeout lockedBy skipIds scan ∧
    (size : ℤ) ≤ batchSize ∧ e.result = .locked batch ∧ t.find? k = some m ∧
    candidate dep options e.now skipIds t m = true ∧ ∀ m' ∈ batch, m'.id ≠ k

/-- A run of calls, at least `n` of which pass over message `k`. -/
inductive Waiting (k : Guid) (size : ℕ) : Messages → List Event → ℕ → Messages → Prop
  | nil (t : Messages) : Waiting k size t [] 0 t
  | passed {t t' t'' : Messages} {e : Event} {events : List Event} {n : ℕ} :
      Step dep t e t' → PassedOver dep k size t e → Waiting k size t' events n t'' →
      Waiting k size t (e :: events) (n + 1) t''
  | other {t t' t'' : Messages} {e : Event} {events : List Event} {n : ℕ} :
      Step dep t e t' → Waiting k size t' events n t'' → Waiting k size t (e :: events) n t''

/-- The messages that the calls have acquired, as often as they have. -/
def acquisitions (events : List Event) : List OutboxMessage := events.flatMap (·.result.batch)

/-- Another message than `k`, created no later than `createdAt`. -/
def notYounger (k : Guid) (createdAt : DateTimeOffset) (m : OutboxMessage) : Bool :=
  m.createdAt ≤ createdAt && m.id ≠ k

/-- No call publishes message `k`. -/
def NotPublished (k : Guid) (events : List Event) : Prop := ∀ e ∈ events, ∀ a, e.op = .publish a → a.id ≠ k

variable {dep} {k : Guid} {size : ℕ} {t t' : Messages}

/-! ## One batch -/

/-- A row that may be acquired and is not among the selected ones is younger than none of them, and they
are as many as were asked for. -/
theorem selected_of_not_mem {options : OutboxOptions} {now : DateTimeOffset} {batchSize : ℤ}
    {skipIds : List Guid} {scan : List OutboxMessage} {m : OutboxMessage} (hm : m ∈ scan)
    (hcand : candidate dep options now skipIds t m = true)
    (hnot : m ∉ selected dep options now batchSize skipIds t scan) :
    (selected dep options now batchSize skipIds t scan).length = batchSize.toNat ∧
    ∀ m₁ ∈ selected dep options now batchSize skipIds t scan, m₁.createdAt ≤ m.createdAt := by
  unfold selected at hnot ⊢
  generalize hsorted : (scan.filter (candidate dep options now skipIds t)).insertionSort
    (fun a b => a.createdAt ≤ b.createdAt) = sorted at hnot ⊢
  have hmem : m ∈ sorted := by
    rw [← hsorted, List.mem_insertionSort]
    exact List.mem_filter.mpr ⟨hm, hcand⟩
  have hpairwise : sorted.Pairwise fun a b => a.createdAt ≤ b.createdAt := by
    rw [← hsorted]
    exact List.pairwise_insertionSort _ _
  have hdrop : m ∈ sorted.drop batchSize.toNat := by
    rw [← List.take_append_drop batchSize.toNat sorted, List.mem_append] at hmem
    exact hmem.resolve_left hnot
  constructor
  · rw [List.length_take]
    have hpos := List.length_pos_of_mem hdrop
    rw [List.length_drop] at hpos
    omega
  · exact fun m₁ hm₁ => hpairwise.rel_of_mem_take_of_mem_drop hm₁ hdrop

theorem selected_nodup {options : OutboxOptions} {now : DateTimeOffset} {batchSize : ℤ}
    {skipIds : List Guid} {scan : List OutboxMessage} (hscan : scan.Perm t.rows) :
    ((selected dep options now batchSize skipIds t scan).map OutboxMessage.id).Nodup := by
  have hids : (scan.map OutboxMessage.id).Nodup := (hscan.map _).nodup_iff.mpr t.nodup
  have hcandidates := hids.sublist
    ((List.filter_sublist (p := candidate dep options now skipIds t)).map OutboxMessage.id)
  have hsorted := ((List.perm_insertionSort (fun a b : OutboxMessage => a.createdAt ≤ b.createdAt)
    (scan.filter (candidate dep options now skipIds t))).map OutboxMessage.id).nodup_iff.mpr hcandidates
  exact hsorted.sublist ((List.take_sublist _ _).map OutboxMessage.id)

/-- **A message is passed over only for messages that are not younger**, and for a whole batch of them. -/
theorem PassedOver.size_le {e : Event} (h : PassedOver dep k size t e) (hs : Step dep t e t')
    {createdAt : DateTimeOffset} (hcreated : ∀ m, t.find? k = some m → m.createdAt = createdAt) :
    size ≤ e.result.batch.countP (notYounger k createdAt) := by
  obtain ⟨options, batchSize, visibilityTimeout, lockedBy, skipIds, scan, batch, m, hop, hsize, hresult,
    hm, hcand, hnot⟩ := h
  obtain ⟨now, op, result⟩ := e
  simp only at hop hresult hcand
  subst hop hresult
  obtain ⟨hscan, hrun⟩ := hs
  rcases orRefused_cases hrun with ⟨hrefused, -⟩ | ⟨batch', hlock, hbatch⟩
  · cases hrefused
  obtain rfl : batch = batch' := Result.locked.inj hbatch
  obtain ⟨-, until_, hmem⟩ := mem_batch_iff hscan hlock
  obtain ⟨hrow, hid⟩ := Table.find?_eq_some_iff.mp hm
  have hnotsel : m ∉ selected dep options now batchSize skipIds t scan := fun hsel =>
    hnot _ ((hmem _).mpr ⟨m, hsel, rfl⟩) hid
  obtain ⟨hlength, holder⟩ := selected_of_not_mem (hscan.mem_iff.mpr hrow) hcand hnotsel
  -- the batch has a message for every selected row
  obtain ⟨chosen, until', hacquired, -⟩ := lockNextBatchAsync_spec hscan hlock
  have hcount : batch.countP (notYounger k createdAt) = batch.length := by
    rw [List.countP_eq_length]
    intro m' hm'
    obtain ⟨m₁, hsel, rfl⟩ := (hmem _).mp hm'
    have hle : m₁.createdAt ≤ createdAt := hcreated m hm ▸ holder m₁ hsel
    exact Bool.and_eq_true_iff.mpr ⟨decide_eq_true hle, decide_eq_true (hnot _ hm')⟩
  have hsub : (selected dep options now batchSize skipIds t scan).map (lockRow lockedBy until_) ⊆ batch := by
    intro m' hm'
    obtain ⟨m₁, hsel, rfl⟩ := List.mem_map.mp hm'
    exact (hmem _).mpr ⟨m₁, hsel, rfl⟩
  have hnodup : ((selected dep options now batchSize skipIds t scan).map (lockRow lockedBy until_)).Nodup := by
    refine List.Nodup.of_map OutboxMessage.id ?_
    rw [List.map_map]
    exact selected_nodup hscan
  calc
    size ≤ batchSize.toNat := by omega
    _ = ((selected dep options now batchSize skipIds t scan).map (lockRow lockedBy until_)).length := by
      rw [List.length_map, hlength]
    _ ≤ batch.length := (hnodup.subperm hsub).length_le
    _ = batch.countP (notYounger k createdAt) := hcount.symm

/-! ## Runs -/

/-- No call changes the time at which a message was created. -/
theorem Step.createdAt {e : Event} (hs : Step dep t e t') {createdAt : DateTimeOffset}
    (hcreated : ∀ m, t.find? k = some m → m.createdAt = createdAt)
    (hpublish : ∀ a, e.op = .publish a → a.id ≠ k) :
    ∀ m, t'.find? k = some m → m.createdAt = createdAt := by
  have hc := hs.rowChange k
  generalize ho : t.find? k = o at hc hcreated
  generalize ho' : t'.find? k = o' at hc
  cases hc with
  | same => exact hcreated
  | publish hop hrow =>
      have hid := (publishedRow_fields hrow).1.symm.trans (Table.find?_key ho')
      exact absurd hid (hpublish _ hop)
  | @lock m _ _ _ _ _ =>
      rintro m' ⟨⟩
      exact hcreated m rfl
  | @writeBack kind _ _ m _ _ _ =>
      rintro m' ⟨⟩
      cases kind <;> exact hcreated m rfl
  | @release m _ _ =>
      rintro m' ⟨⟩
      exact hcreated m rfl
  | purge =>
      intro m hm
      cases hm

/-- The batches of a run make up for the times that message `k` is passed over. -/
theorem Waiting.mul_le {events : List Event} {n : ℕ} (hrun : Waiting dep k size t events n t')
    {createdAt : DateTimeOffset} (hcreated : ∀ m, t.find? k = some m → m.createdAt = createdAt)
    (hpublish : NotPublished k events) :
    n * size ≤ (acquisitions events).countP (notYounger k createdAt) := by
  induction hrun with
  | nil => simp
  | @passed t t₁ t₂ e events n hs hpassed _ ih =>
      have hrest := ih (hs.createdAt hcreated (hpublish e List.mem_cons_self))
        fun e' he' => hpublish e' (List.mem_cons_of_mem e he')
      have hbatch := hpassed.size_le hs hcreated
      calc
        (n + 1) * size = size + n * size := by rw [Nat.succ_mul, Nat.add_comm]
        _ ≤ e.result.batch.countP (notYounger k createdAt) +
              (acquisitions events).countP (notYounger k createdAt) := Nat.add_le_add hbatch hrest
        _ = (acquisitions (e :: events)).countP (notYounger k createdAt) := by
          rw [acquisitions, acquisitions, List.flatMap_cons, List.countP_append]
  | @other t t₁ t₂ e events n hs _ ih =>
      have hrest := ih (hs.createdAt hcreated (hpublish e List.mem_cons_self))
        fun e' he' => hpublish e' (List.mem_cons_of_mem e he')
      refine hrest.trans ?_
      rw [acquisitions, acquisitions, List.flatMap_cons, List.countP_append]
      exact Nat.le_add_left _ _

/-- The messages not younger than `k` that are acquired. -/
def rivals (k : Guid) (createdAt : DateTimeOffset) (events : List Event) : Finset Guid :=
  (((acquisitions events).filter (notYounger k createdAt)).map OutboxMessage.id).toFinset

/-- **No message starves.** Take any run of calls of any number of instances in which message `m` is not
published again.  If no other message is acquired more than `limit` times, and `r` of those acquired are not
younger than `m`, then batches of `size` or more messages pass `m` over `limit * r / size` times at most. -/
theorem passed_over_bounded {events : List Event} {n limit : ℕ} {m : OutboxMessage}
    (hrun : Waiting dep m.id size t events n t') (hm : m ∈ t.rows) (hpublish : NotPublished m.id events)
    (hlimit : ∀ j, j ≠ m.id → ((acquisitions events).map OutboxMessage.id).count j ≤ limit) :
    n * size ≤ limit * (rivals m.id m.createdAt events).card := by
  have hcreated : ∀ m', t.find? m.id = some m' → m'.createdAt = m.createdAt := fun m' hm' => by
    rw [t.eq_of_key_eq (Table.find?_mem hm') hm (Table.find?_key hm')]
  have hcount := hrun.mul_le hcreated hpublish
  generalize hl : (acquisitions events).filter (notYounger m.id m.createdAt) = l
  have hrivals : rivals m.id m.createdAt events = (l.map OutboxMessage.id).toFinset := by rw [rivals, hl]
  calc
    n * size ≤ (l.map OutboxMessage.id).length := by
      rw [List.length_map, ← hl, ← List.countP_eq_length_filter]
      exact hcount
    _ = ∑ j ∈ (l.map OutboxMessage.id).toFinset, (l.map OutboxMessage.id).count j :=
      (List.sum_toFinset_count_eq_length _).symm
    _ ≤ ∑ j ∈ (l.map OutboxMessage.id).toFinset, limit := by
      refine Finset.sum_le_sum fun j hj => ?_
      rw [List.mem_toFinset, List.mem_map] at hj
      obtain ⟨m', hm', rfl⟩ := hj
      rw [← hl] at hm'
      have hne := (Bool.and_eq_true_iff.mp (List.mem_filter.mp hm').2).2
      refine le_trans ?_ (hlimit m'.id (of_decide_eq_true hne))
      rw [← hl]
      exact (List.filter_sublist.map OutboxMessage.id).count_le _
    _ = limit * (rivals m.id m.createdAt events).card := by
      rw [Finset.sum_const_nat fun _ _ => rfl, hrivals, Nat.mul_comm]

/-- A message in the backlog. -/
def backlogRow (id : Guid) (createdAt : DateTimeOffset) : OutboxMessage :=
  directRow createdAt ⟨id, text "order.changed", [], none, none, none, none, none, none⟩

/-- The same, locked by a batch. -/
def backlogLocked (until_ : DateTimeOffset) (id : Guid) (createdAt : DateTimeOffset) : OutboxMessage :=
  lockRow (text "worker-1") until_ (backlogRow id createdAt)

/-- Five messages of which the last is the youngest, and what two batches of two make of them. -/
def backlog : Messages :=
  ⟨[backlogRow 1 0, backlogRow 2 10000, backlogRow 3 20000, backlogRow 4 30000, backlogRow 5 40000],
    by decide⟩

def backlog₁ : Messages :=
  ⟨[backlogLocked 3000050000 1 0, backlogLocked 3000050000 2 10000, backlogRow 3 20000,
    backlogRow 4 30000, backlogRow 5 40000], by decide⟩

def backlog₂ : Messages :=
  ⟨[backlogLocked 3000050000 1 0, backlogLocked 3000050000 2 10000, backlogLocked 3000060000 3 20000,
    backlogLocked 3000060000 4 30000, backlogRow 5 40000], by decide⟩

/-- The two batches. -/
def firstTwo : Event where
  now := 50000
  op := .lockNextBatch (orderedOptions 2) 2 3000000000 (text "worker-1") [] backlog.rows
  result := .locked [backlogLocked 3000050000 1 0, backlogLocked 3000050000 2 10000]

def nextTwo : Event where
  now := 60000
  op := .lockNextBatch (orderedOptions 2) 2 3000000000 (text "worker-1") [] backlog₁.rows
  result := .locked [backlogLocked 3000060000 3 20000, backlogLocked 3000060000 4 30000]

/-- The youngest message is passed over twice for the four others. -/
theorem passed_over_bounded_order : 2 * 2 ≤ 1 * (rivals 5 40000 [firstTwo, nextTwo]).card := by
  have hfirst : Step (Deployment.binary .directSql) backlog firstTwo backlog₁ :=
    ⟨List.Perm.refl _, by decide⟩
  have hnext : Step (Deployment.binary .directSql) backlog₁ nextTwo backlog₂ :=
    ⟨List.Perm.refl _, by decide⟩
  have hpassed : PassedOver (Deployment.binary .directSql) 5 2 backlog firstTwo :=
    ⟨orderedOptions 2, 2, 3000000000, text "worker-1", [], backlog.rows, _, backlogRow 5 40000, rfl,
      le_refl _, rfl, by decide, by decide, by decide⟩
  have hpassed' : PassedOver (Deployment.binary .directSql) 5 2 backlog₁ nextTwo :=
    ⟨orderedOptions 2, 2, 3000000000, text "worker-1", [], backlog₁.rows, _, backlogRow 5 40000, rfl,
      le_refl _, rfl, by decide, by decide, by decide⟩
  have hrun : Waiting (Deployment.binary .directSql) 5 2 backlog [firstTwo, nextTwo] 2 backlog₂ :=
    .passed hfirst hpassed (.passed hnext hpassed' (.nil _))
  refine passed_over_bounded (m := backlogRow 5 40000) hrun (by decide) ?_ ?_
  · rintro e he a hop
    simp only [List.mem_cons, List.not_mem_nil, or_false] at he
    rcases he with rfl | rfl <;> cases hop
  · intro j _
    -- no id is acquired twice
    have hnodup : ((acquisitions [firstTwo, nextTwo]).map OutboxMessage.id).Nodup := by decide
    exact List.nodup_iff_count_le_one.mp hnodup j

end OutboxNet.OutboxStore
