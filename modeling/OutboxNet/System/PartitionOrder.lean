import OutboxNet.Store.Eligibility
import OutboxNet.System.ExactlyOnce

/-!
# The order of a partition

Under ordered processing the candidate scan passes over a message while another one of its partition is
live-locked.  It does not look at messages that wait: an earlier message in the same batch, in its
back-off or under a lock that has run out is overtaken, and `TryLockByIdAsync` does not look at the
partition at all.  In a run in which no acquisition overtakes an earlier message in these ways, the
messages of a partition are delivered in the order of their creation.
-/

set_option autoImplicit false

namespace OutboxNet

open OutboxStore (TableOk lockRow due heldBy unpartitioned candidate tryLockByIdAsync terminal)

variable {dep : Deployment}

/-- `m₁` is an earlier message of the partition of `m`. -/
structure Earlier (dep : Deployment) (m₁ m : OutboxMessage) : Prop where
  partitioned : unpartitioned m = false
  tenantId : dep.sameKey m₁.tenantId m.tenantId = true
  userId : dep.sameKey m₁.userId m.userId = true
  entityId : dep.sameKey m₁.entityId m.entityId = true
  createdAt : m₁.createdAt < m.createdAt

/-- Whether a message is locked at `now`. -/
def OutboxMessage.live (now : DateTimeOffset) (m : OutboxMessage) : Bool :=
  m.status = .processing && m.lockedUntil.any (fun u => now < u)

/-- A candidate of the scan under ordered processing has no live-locked message in its partition. -/
theorem Earlier.not_live {options : OutboxOptions} {now : DateTimeOffset} {skipIds : List Guid}
    {t : Messages} {m m₁ : OutboxMessage} (h : Earlier dep m₁ m)
    (hcand : candidate dep options now skipIds t m = true)
    (hordered : options.enableOrderedProcessing = true) (hm : m ∈ t.rows) (hm₁ : m₁ ∈ t.rows) :
    m₁.live now = false := by
  obtain ⟨-, -, -, -, hfree⟩ := OutboxStore.candidate_iff.mp hcand
  have hblocks := hfree hordered h.partitioned m₁ hm₁
  have hne : m₁.id ≠ m.id := by
    intro hid
    have hlt := h.createdAt
    rw [t.eq_of_key_eq hm₁ hm hid] at hlt
    exact lt_irrefl _ hlt
  by_contra hlive
  rw [Bool.not_eq_false, OutboxMessage.live] at hlive
  rw [OutboxStore.blocks, hlive, h.tenantId, h.userId, h.entityId, decide_eq_true hne] at hblocks
  cases hblocks

namespace World

/-! ## Acquisitions that overtake no one -/

/-- The acquisitions of a step overtake no earlier message of their partition: none that waits, Pending
or under a lock that has run out, and, if made by `TryLockByIdAsync`, none that is locked. -/
structure Orderly (dep : Deployment) (w w' : World) : Prop where
  waiting : ∀ token r, w.rounds.length ≤ token → w'.rounds[token]? = some r →
    ∀ m₁ ∈ w.db.messages.rows, Earlier dep m₁ r.message →
      m₁.status = .pending ∨ m₁.status = .processing → m₁.live w.db.now = true
  hot : ∀ token r, w.rounds.length ≤ token → w'.rounds[token]? = some r →
    tryLockByIdAsync dep w.db.now r.message.id r.pipeline.options.defaultVisibilityTimeout
      r.pipeline.options.instanceId w.db.messages = some (some r.message, w'.db.messages) →
    ∀ m₁ ∈ w.db.messages.rows, Earlier dep m₁ r.message → m₁.live w.db.now = false

/-- A step of an orderly run. -/
def OrderlyStep (dep : Deployment) (w : World) (act : Action) (w' : World) : Prop :=
  Step dep (Database.Exec dep) w act w' ∧ (act = .acquire → Orderly dep w w')

/-- A run whose acquisitions overtake no one. -/
abbrev OrderlyRun (dep : Deployment) : World → List Action → World → Prop :=
  Steps (OrderlyStep dep)

theorem OrderlyRun.run {w w' : World} {acts : List Action} (h : OrderlyRun dep w acts w') :
    Run dep (Database.Exec dep) w acts w' :=
  h.mono fun _ _ _ hs => hs.1

/-- The row behind a new acquisition: a candidate of the scan, or the row of `TryLockByIdAsync`. -/
theorem Step.acquired_row {exec : Answering} {w w' : World} (h : Step dep exec w .acquire w')
    {token : ℕ} {r : Round} (hnew : w.rounds.length ≤ token) (hr : w'.rounds[token]? = some r) :
    ∃ m ∈ w.db.messages.rows, ∃ until_,
      r.message = lockRow r.pipeline.options.instanceId until_ m ∧
      ((∃ skipIds, candidate dep r.pipeline.options w.db.now skipIds w.db.messages m = true) ∨
        tryLockByIdAsync dep w.db.now r.message.id r.pipeline.options.defaultVisibilityTimeout
          r.pipeline.options.instanceId w.db.messages = some (some r.message, w'.db.messages)) := by
  cases h with
  | @acquireHot p messageId m messages hlock =>
      obtain ⟨until_, hacq⟩ := OutboxStore.tryLockByIdAsync_spec hlock
      rw [List.getElem?_append_right hnew, List.getElem?_map, Option.map_eq_some_iff] at hr
      obtain ⟨m', hm', rfl⟩ := hr
      have hmem := List.mem_of_getElem? hm'
      obtain ⟨row, hrow, hc, rfl, -⟩ := hacq.mem_batch hmem
      refine ⟨row, Table.find?_mem hrow, until_, rfl, .inr ?_⟩
      rw [Option.mem_toList] at hmem
      cases hmem
      obtain ⟨hid, -⟩ := OutboxStore.lockable_iff.mp hc
      show tryLockByIdAsync dep w.db.now row.id _ _ _ = _
      rw [hid]
      exact hlock
  | @acquireCold p skipIds scan batch messages hscan hlock =>
      obtain ⟨chosen, until_, hacq, hcand⟩ := OutboxStore.lockNextBatchAsync_spec hscan hlock
      rw [List.getElem?_append_right hnew, List.getElem?_map, Option.map_eq_some_iff] at hr
      obtain ⟨m', hm', rfl⟩ := hr
      obtain ⟨row, hrow, hc, rfl, -⟩ := hacq.mem_batch (List.mem_of_getElem? hm')
      have hmem := Table.find?_mem hrow
      exact ⟨row, hmem, until_, rfl, .inl ⟨skipIds, hcand row hmem hc⟩⟩

/-- When an orderly acquisition takes a message, the earlier ones of its partition are done with. -/
theorem Orderly.earlier_terminal {w w' : World} (h : Orderly dep w w')
    (hs : Step dep (Database.Exec dep) w .acquire w') (hok : TableOk w.db.messages) {token : ℕ}
    {r : Round} (hnew : w.rounds.length ≤ token) (hr : w'.rounds[token]? = some r)
    (hordered : r.pipeline.options.enableOrderedProcessing = true) {m₁ : OutboxMessage}
    (hm₁ : m₁ ∈ w.db.messages.rows) (hearlier : Earlier dep m₁ r.message) : terminal m₁ = true := by
  have hwaiting := h.waiting token r hnew hr m₁ hm₁ hearlier
  have hnot : ¬ (m₁.status = .pending ∨ m₁.status = .processing) := by
    intro hstatus
    have hlive := hwaiting hstatus
    obtain ⟨m, hm, until_, hlock, ⟨skipIds, hcand⟩ | hhot⟩ := hs.acquired_row hnew hr
    · rw [hlock] at hearlier
      have hearlier' : Earlier dep m₁ m :=
        ⟨hearlier.partitioned, hearlier.tenantId, hearlier.userId, hearlier.entityId,
          hearlier.createdAt⟩
      rw [hearlier'.not_live hcand hordered hm hm₁] at hlive
      cases hlive
    · rw [h.hot token r hnew hr hhot m₁ hm₁ hearlier] at hlive
      cases hlive
  have hmem := (hok.row hm₁).status
  rw [OutboxStore.terminal_iff]
  simp only [List.mem_cons, List.not_mem_nil, or_false] at hmem
  rcases hmem with hst | hst | hst
  · exact absurd (.inl hst) hnot
  · exact absurd (.inr hst) hnot
  · exact hst

/-! ## Messages that are done with -/

/-- Every message that is not Pending has been acquired. -/
def Worked (w : World) : Prop :=
  ∀ k m, w.db.messages.find? k = some m → m.status ≠ .pending →
    ∃ token a, w.acquisition token = some a ∧ a.2.id = k

theorem Worked.step {exec : Answering} (hexec : Sound dep exec) {w w' : World} {act : Action}
    (h : w.Worked) (hok : TableOk w.db.messages) (hs : Step dep exec w act w') : w'.Worked := by
  intro k m' hm' hst
  have hold : (∃ m, w.db.messages.find? k = some m ∧ m.status ≠ .pending) →
      ∃ token a, w'.acquisition token = some a ∧ a.2.id = k := by
    rintro ⟨m, hm, hst⟩
    obtain ⟨token, a, ha, hid⟩ := h k m hm hst
    exact ⟨token, a, hs.acquisition_mono ha, hid⟩
  by_cases hact : act = .acquire
  · subst hact
    rcases hs.acquire_row k with ⟨hsame, -⟩ | ⟨m, p, until_, token, -, -, -, -, hfind, -, hx, -⟩
    · exact hold ⟨m', by rw [← hsame, hm'], hst⟩
    · exact ⟨token, _, hx, Table.find?_key hfind⟩
  · have hrow := hs.row hexec k
    rw [hm'] at hrow
    generalize ho : w.db.messages.find? k = o at hrow
    cases hrow with
    | same => exact hold ⟨m', ho, hst⟩
    | publish _ hpub => exact absurd (OutboxStore.publishedRow_fields hpub).2.1 hst
    | lock hacq => exact absurd hacq hact
    | @writeBack _ _ _ _ _ m _ _ hheld =>
        have hproc := (hok.row (Table.find?_mem ho)).processing_of_heldBy hheld
        exact hold ⟨m, ho, by rw [hproc]; nofun⟩
    | release => exact absurd rfl hst

theorem worked_run {exec : Answering} (hexec : Sound dep exec) {now : DateTimeOffset}
    {acts : List Action} {w : World} (hrun : Run dep exec (initial now) acts w) :
    TableOk w.db.messages ∧ w.Worked := by
  refine hrun.invariant (fun w => TableOk w.db.messages ∧ w.Worked) ?_ ⟨TableOk.empty, ?_⟩
  · rintro w act w' ⟨hok, h⟩ hs
    exact ⟨tableOk_step hexec hs hok, h.step hexec hok hs⟩
  · rintro k m ⟨⟩

/-- Message `k` has been worked on, and its row is in a status no step leaves, or purged. -/
def DoneWith (w : World) (k : Guid) : Prop :=
  TableOk w.db.messages ∧ (∃ token a, w.acquisition token = some a ∧ a.2.id = k) ∧
    ∀ m, w.db.messages.find? k = some m → terminal m = true

theorem DoneWith.step {exec : Answering} (hexec : Sound dep exec) {w w' : World} {act : Action}
    {k : Guid} (h : w.DoneWith k) (hs : Step dep exec w act w') : w'.DoneWith k := by
  obtain ⟨hok, ⟨token, a, ha, hid⟩, hterm⟩ := h
  refine ⟨tableOk_step hexec hs hok, ⟨token, a, hs.acquisition_mono ha, hid⟩, ?_⟩
  intro m' hm'
  have hrow := hs.row hexec k
  rw [hm'] at hrow
  generalize ho : w.db.messages.find? k = o at hrow
  cases hrow with
  | same => exact hterm m' ho
  | publish _ _ hfresh =>
      obtain ⟨r, hr, rfl⟩ := Option.map_eq_some_iff.mp ha
      exact absurd hid (hfresh r (List.mem_of_getElem? hr))
  | lock _ hfree =>
      obtain ⟨hpending, hprocessing⟩ := OutboxStore.terminal_ne (hterm _ ho)
      exact absurd hfree (not_or.mpr ⟨hpending, hprocessing⟩)
  | writeBack _ _ hheld =>
      have hproc := (hok.row (Table.find?_mem ho)).processing_of_heldBy hheld
      exact absurd hproc (OutboxStore.terminal_ne (hterm _ ho)).2
  | release _ hexpired =>
      simp only [OutboxStore.expired, Bool.and_eq_true, decide_eq_true_eq] at hexpired
      exact absurd hexpired.1 (OutboxStore.terminal_ne (hterm _ ho)).2

/-! ## The theorem -/

/-- A round delivers the message it has acquired. -/
theorem StageStep.delivered {w : World} {stages stages' : ℕ → Stage} {token : ℕ}
    {message : OutboxMessage} {subscription : WebhookSubscription} {deliveryId : Guid}
    {answer : Except Exn DeliveryResult}
    (h : StageStep w stages (.call token ⟨.deliver message subscription deliveryId, answer⟩) stages')
    {r : Round} (hr : w.rounds[token]? = some r) : message = r.message := by
  cases h with
  | call hr' _ htrans =>
      rw [hr] at hr'
      cases hr'
      obtain ⟨-, -, -, -, -, hm, -⟩ := htrans.deliver_inv
      exact hm
  | queued _ _ hof => cases hof
  | other hnone => cases hnone

/-- **Partition order.** Take any run of any number of instances, with any faults of the database, in
which no acquisition overtakes an earlier message of its partition.  A delivery of a message starts only
when every earlier message of its partition that was committed before it was acquired is neither Pending
nor Processing. -/
theorem partition_order {now : DateTimeOffset} {acts acts' : List Action} {w₁ w₂ w₃ w₄ : World}
    {token : ℕ} {message : OutboxMessage} {subscription : WebhookSubscription} {deliveryId : Guid}
    {answer : Except Exn DeliveryResult} {m₁ : OutboxMessage}
    (hrun₁ : OrderlyRun dep (initial now) acts w₁) (hacquire : OrderlyStep dep w₁ .acquire w₂)
    (hnew : w₁.rounds.length ≤ token ∧ token < w₂.rounds.length)
    (hrun₂ : OrderlyRun dep w₂ acts' w₃)
    (hordered : ∀ r ∈ w₃.rounds, r.pipeline.options.enableOrderedProcessing = true)
    (hdeliver : Step dep (Database.Exec dep) w₃
      (.call token ⟨.deliver message subscription deliveryId, answer⟩) w₄)
    (hcommitted : m₁ ∈ w₁.db.messages.rows) (hearlier : Earlier dep m₁ message) :
    ∀ m, w₃.db.messages.find? m₁.id = some m → m.status ≠ .pending ∧ m.status ≠ .processing := by
  obtain ⟨hok, hworked⟩ := worked_run sound_exec hrun₁.run
  have hround := List.getElem?_eq_getElem hnew.2
  -- the round keeps the message and the pipeline of its acquisition
  have hacq := hrun₂.invariant
    (fun w => w.acquisition token = some (w₂.rounds[token].pipeline, w₂.rounds[token].message))
    (fun _ _ _ h hs => hs.1.acquisition_mono h) (acquisition_eq_some hround)
  obtain ⟨r₃, hr₃, hpair⟩ := Option.map_eq_some_iff.mp hacq
  obtain ⟨hp, hm⟩ := Prod.mk.inj hpair
  have hmessage : message = w₂.rounds[token].message := by
    have hrun := (hrun₁.run.snoc .acquire hacquire.1).append hrun₂.run
    obtain ⟨stages, hcoupled⟩ := coupled_run hrun
    obtain ⟨stages', -, hst⟩ := hcoupled.step hdeliver
    rw [hst.delivered hr₃, hm]
  have hterm : terminal m₁ = true := by
    refine (hacquire.2 rfl).earlier_terminal hacquire.1 hok hnew.1 hround ?_ hcommitted ?_
    · rw [← hp]
      exact hordered r₃ (List.mem_of_getElem? hr₃)
    · rw [← hmessage]
      exact hearlier
  have hfind : w₁.db.messages.find? m₁.id = some m₁ := Table.find?_eq_some_iff.mpr ⟨hcommitted, rfl⟩
  have hdone : w₁.DoneWith m₁.id := by
    refine ⟨hok, hworked _ _ hfind (OutboxStore.terminal_ne hterm).1, fun m hm => ?_⟩
    rw [hfind] at hm
    cases hm
    exact hterm
  have hdone₃ := hrun₂.invariant (fun w => w.DoneWith m₁.id)
    (fun _ _ _ h hs => h.step sound_exec hs.1) (hdone.step sound_exec hacquire.1)
  intro m hm
  exact OutboxStore.terminal_ne (hdone₃.2.2 m hm)

/-! ## Two messages of one order -/

/-- What is published about order 17 of tenant `acme`. -/
def aboutOrder (id : Guid) : OutboxStore.PublishArgs :=
  ⟨id, text "order.placed", [], none, none, none, some (text "acme"), none, some (text "17")⟩

/-- The row of a message about the order. -/
def aboutRow (id : Guid) (createdAt : DateTimeOffset) : OutboxMessage :=
  OutboxStore.directRow createdAt (aboutOrder id)

/-- The row once the host has acquired it. -/
def aboutLocked (id : Guid) (createdAt : DateTimeOffset) : OutboxMessage :=
  lockRow (text "func-1") 3000020000 (aboutRow id createdAt)

/-- A round of the host on the message. -/
def aboutRound (id : Guid) (createdAt : DateTimeOffset) : Round :=
  ⟨functionsHost, aboutLocked id createdAt, none⟩

theorem about_earlier : Earlier sqlServer (aboutRow 1 0) (aboutLocked 2 10000) :=
  ⟨by decide, by decide, by decide, by decide, by decide⟩

/-- The delivery of the second message. -/
def secondDelivery : Entry :=
  ⟨.deliver (aboutLocked 2 10000) orderSubscription (deriveDeliveryId functionsHost.sha256 2 7 1),
    Except.ok accepted⟩

/-- Both messages are published. -/
def bothPublished : World where
  db := ⟨⟨[aboutRow 1 0, aboutRow 2 10000], by decide⟩, Table.empty, 20000⟩
  rounds := []
  log := []

/-- One batch has taken both. -/
def bothAcquired : World where
  db := ⟨⟨[aboutLocked 1 0, aboutLocked 2 10000], by decide⟩, Table.empty, 20000⟩
  rounds := [aboutRound 1 0, aboutRound 2 10000]
  log := []

theorem published_row (id : Guid) (createdAt : DateTimeOffset) :
    OutboxStore.publishedRow sqlServer createdAt (aboutOrder id) = some (aboutRow id createdAt) := rfl

theorem bothPublished_run :
    Run sqlServer (Database.Exec sqlServer) (initial 20000) [.publish, .publish] bothPublished := by
  have hinsert₁ : (Table.empty : Messages).insertAll? [aboutRow 1 0] =
      some ⟨[aboutRow 1 0], by decide⟩ := by decide
  have hinsert₂ : Table.insertAll? (⟨[aboutRow 1 0], by decide⟩ : Messages) [aboutRow 2 10000] =
      some ⟨[aboutRow 1 0, aboutRow 2 10000], by decide⟩ := by decide
  refine .cons (.publish (published_row 1 0) (List.forall_mem_nil _) hinsert₁) ?_
  exact .cons (.publish (published_row 2 10000) (List.forall_mem_nil _) hinsert₂) (.nil _)

theorem bothAcquired_step (exec : Answering) :
    Step sqlServer exec bothPublished .acquire bothAcquired := by
  have hlock : OutboxStore.lockNextBatchAsync sqlServer functionsHost.options 20000
      functionsHost.options.batchSize functionsHost.options.defaultVisibilityTimeout
      functionsHost.options.instanceId [] bothPublished.db.messages.rows bothPublished.db.messages =
        some ([aboutLocked 1 0, aboutLocked 2 10000], bothAcquired.db.messages) := by decide
  have h : Step sqlServer exec bothPublished .acquire _ :=
    .acquireCold (List.Perm.refl _) hlock
  exact h

/-- One batch takes both messages of the partition, and the second one is delivered while the first is
still Processing. -/
theorem batch_overtakes : ∃ acts w₃ w₄,
    Run sqlServer (Database.Exec sqlServer) (initial 20000) [.publish, .publish] bothPublished ∧
    Step sqlServer (Database.Exec sqlServer) bothPublished .acquire bothAcquired ∧
    Run sqlServer (Database.Exec sqlServer) bothAcquired acts w₃ ∧
    (∀ r ∈ w₃.rounds, r.pipeline.options.enableOrderedProcessing = true) ∧
    Step sqlServer (Database.Exec sqlServer) w₃ (.call 1 secondDelivery) w₄ ∧
    aboutRow 1 0 ∈ bothPublished.db.messages.rows ∧
    Earlier sqlServer (aboutRow 1 0) (aboutLocked 2 10000) ∧
    w₃.db.messages.find? 1 = some (aboutLocked 1 0) ∧ (aboutLocked 1 0).status = .processing := by
  have hstart : Run sqlServer (Database.Exec sqlServer) bothAcquired [] bothAcquired := .nil _
  have hbegin := hstart.snoc (.begin_ 1 (.direct [orderSubscription] ⟨false, []⟩)) (.begin_ rfl rfl)
  have hread := hbegin.snoc (.call 1 ⟨.getDeliveryStates 2 [7], Except.ok []⟩)
    (.call rfl rfl rfl (.effect (.getDeliveryStates 2 [7] _)))
  refine ⟨_, _, _, bothPublished_run, bothAcquired_step _, hread, ?_,
    .call rfl rfl rfl (.effect (.deliver _ _ _ _ _)), List.mem_cons_self, about_earlier, rfl, rfl⟩
  intro r hr
  simp only [afterCall, bothAcquired, List.set_cons_succ, List.set_cons_zero, List.mem_cons,
    List.not_mem_nil, or_false] at hr
  rcases hr with rfl | rfl <;> rfl

/-- The row of the first message, delivered. -/
def aboutDelivered : OutboxMessage := OutboxStore.setProcessed 20000 (aboutLocked 1 0)

/-- The first message has been delivered, to no one, and the second is published; `k` is what the first
round has left to do. -/
def firstDone (k : Prog Call Call.Ans (Except Exn Unit)) : World where
  db := ⟨⟨[aboutDelivered, aboutRow 2 10000], by decide⟩, Table.empty, 20000⟩
  rounds := [⟨functionsHost, aboutLocked 1 0, some ⟨.direct [] ⟨false, []⟩, k⟩⟩]
  log := [(0, ⟨.markAsProcessed 1 (text "func-1"), .ok true⟩)]

/-- The second message has been acquired. -/
def secondAcquired (k : Prog Call Call.Ans (Except Exn Unit)) : World where
  db := ⟨⟨[aboutDelivered, aboutLocked 2 10000], by decide⟩, Table.empty, 20000⟩
  rounds := [⟨functionsHost, aboutLocked 1 0, some ⟨.direct [] ⟨false, []⟩, k⟩⟩, aboutRound 2 10000]
  log := [(0, ⟨.markAsProcessed 1 (text "func-1"), .ok true⟩)]

theorem firstDone_run : ∃ acts k, OrderlyRun sqlServer (initial 20000) acts (firstDone k) := by
  have hinsert₁ : (Table.empty : Messages).insertAll? [aboutRow 1 0] =
      some ⟨[aboutRow 1 0], by decide⟩ := by decide
  have hlock : OutboxStore.lockNextBatchAsync sqlServer functionsHost.options 20000
      functionsHost.options.batchSize functionsHost.options.defaultVisibilityTimeout
      functionsHost.options.instanceId [] [aboutRow 1 0] ⟨[aboutRow 1 0], by decide⟩ =
        some ([aboutLocked 1 0], ⟨[aboutLocked 1 0], by decide⟩) := by decide
  have hinsert₂ : Table.insertAll? (⟨[aboutDelivered], by decide⟩ : Messages) [aboutRow 2 10000] =
      some ⟨[aboutDelivered, aboutRow 2 10000], by decide⟩ := by decide
  have hstart : OrderlyRun sqlServer (initial 20000) [] (initial 20000) := .nil _
  have h₁ := hstart.snoc .publish
    ⟨.publish (published_row 1 0) (List.forall_mem_nil _) hinsert₁, fun h => by cases h⟩
  have h₂ := h₁.snoc .acquire ⟨.acquireCold (List.Perm.refl _) hlock, fun _ => ?orderly⟩
  case orderly =>
    -- the only row is the message's own
    have hnone : ∀ (token : ℕ) (r : Round), ([aboutRound 1 0] : List Round)[token]? = some r →
        ∀ m₁ ∈ [aboutRow 1 0], ¬ Earlier sqlServer m₁ r.message := by
      intro token r hr m₁ hm₁ hearlier
      rw [List.mem_singleton.mp hm₁, List.mem_singleton.mp (List.mem_of_getElem? hr)] at hearlier
      exact absurd hearlier.createdAt (by decide)
    constructor
    · intro token r _ hr m₁ hm₁ hearlier
      exact absurd hearlier (hnone token r hr m₁ hm₁)
    · intro token r _ hr _ m₁ hm₁ hearlier
      exact absurd hearlier (hnone token r hr m₁ hm₁)
  have h₃ := h₂.snoc (.begin_ 0 (.direct [] ⟨false, []⟩)) ⟨.begin_ rfl rfl, fun h => by cases h⟩
  have h₄ := h₃.snoc (.call 0 ⟨.markAsProcessed 1 (text "func-1"), Except.ok true⟩)
    ⟨.call rfl rfl rfl (.effect (.markAsProcessed 1 (text "func-1") _)), fun h => by cases h⟩
  have h₅ := h₄.snoc .publish ⟨.publish (published_row 2 10000) ?fresh hinsert₂, fun h => by cases h⟩
  case fresh =>
    intro r hr
    have hr' : r ∈ [_] := hr
    rw [List.mem_singleton.mp hr']
    exact show (1 : Guid) ≠ 2 by decide
  exact ⟨_, _, h₅⟩

theorem secondAcquired_step (k : Prog Call Call.Ans (Except Exn Unit)) :
    OrderlyStep sqlServer (firstDone k) .acquire (secondAcquired k) := by
  have hlock : OutboxStore.lockNextBatchAsync sqlServer functionsHost.options 20000
      functionsHost.options.batchSize functionsHost.options.defaultVisibilityTimeout
      functionsHost.options.instanceId [] [aboutDelivered, aboutRow 2 10000]
      ⟨[aboutDelivered, aboutRow 2 10000], by decide⟩ =
        some ([aboutLocked 2 10000], ⟨[aboutDelivered, aboutLocked 2 10000], by decide⟩) := by decide
  have hstep : Step sqlServer (Database.Exec sqlServer) (firstDone k) .acquire _ :=
    .acquireCold (List.Perm.refl _) hlock
  have hround : ∀ (token : ℕ) (r : Round), 1 ≤ token → (secondAcquired k).rounds[token]? = some r →
      r = aboutRound 2 10000 := by
    intro token r hge hr
    obtain ⟨i, rfl⟩ := Nat.exists_eq_add_of_le' hge
    have hr' : [aboutRound 2 10000][i]? = some r := hr
    exact List.mem_singleton.mp (List.mem_of_getElem? hr')
  refine ⟨hstep, fun _ => ⟨?_, ?_⟩⟩
  · intro token r hge hr m₁ hm₁ hearlier hstatus
    rw [hround token r hge hr] at hearlier
    have hm₁' : m₁ ∈ [aboutDelivered, aboutRow 2 10000] := hm₁
    simp only [List.mem_cons, List.not_mem_nil, or_false] at hm₁'
    rcases hm₁' with rfl | rfl
    · rcases hstatus with hstatus | hstatus <;> cases hstatus
    · exact absurd hearlier.createdAt (by decide)
  · intro token r hge hr _ m₁ hm₁ hearlier
    rw [hround token r hge hr] at hearlier
    have hm₁' : m₁ ∈ [aboutDelivered, aboutRow 2 10000] := hm₁
    simp only [List.mem_cons, List.not_mem_nil, or_false] at hm₁'
    rcases hm₁' with rfl | rfl
    · rfl
    · exact absurd hearlier.createdAt (by decide)

theorem secondDelivered_run (k : Prog Call Call.Ans (Except Exn Unit)) : ∃ acts w₃ w₄,
    OrderlyRun sqlServer (secondAcquired k) acts w₃ ∧
    Step sqlServer (Database.Exec sqlServer) w₃ (.call 1 secondDelivery) w₄ ∧
    ∀ r ∈ w₃.rounds, r.pipeline.options.enableOrderedProcessing = true := by
  have hstart : OrderlyRun sqlServer (secondAcquired k) [] (secondAcquired k) := .nil _
  have hbegin := hstart.snoc (.begin_ 1 (.direct [orderSubscription] ⟨false, []⟩))
    ⟨.begin_ rfl rfl, fun h => by cases h⟩
  have hread := hbegin.snoc (.call 1 ⟨.getDeliveryStates 2 [7], Except.ok []⟩)
    ⟨.call rfl rfl rfl (.effect (.getDeliveryStates 2 [7] _)), fun h => by cases h⟩
  refine ⟨_, _, _, hread, .call rfl rfl rfl (.effect (.deliver _ _ _ _ _)), ?_⟩
  intro r hr
  simp only [afterCall, secondAcquired, List.set_cons_succ, List.set_cons_zero, List.mem_cons,
    List.not_mem_nil, or_false] at hr
  rcases hr with rfl | rfl <;> rfl

/-- The second message is delivered when the first one is done with. -/
theorem partition_order_delivered : ∃ w₃ w₄,
    Step sqlServer (Database.Exec sqlServer) w₃ (.call 1 secondDelivery) w₄ ∧
    ∀ m, w₃.db.messages.find? 1 = some m → m.status ≠ .pending ∧ m.status ≠ .processing := by
  obtain ⟨acts, k, hrun⟩ := firstDone_run
  obtain ⟨acts', w₃, w₄, hrun', hdeliver, hordered⟩ := secondDelivered_run k
  have hearlier : Earlier sqlServer aboutDelivered (aboutLocked 2 10000) :=
    ⟨by decide, by decide, by decide, by decide, by decide⟩
  exact ⟨w₃, w₄, hdeliver, partition_order hrun (secondAcquired_step k)
    ⟨le_rfl, Nat.lt_succ_self 1⟩ hrun' hordered hdeliver List.mem_cons_self hearlier⟩

end World

end OutboxNet
