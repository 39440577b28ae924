import OutboxNet.Processor.Isolation
import OutboxNet.Store.Eligibility

/-!
# The hot and the cold path on one message

`TryProcessByIdAsync` and a batch of one message do the same, call for call, when the configuration lets
both get to work: a loop over one item is its body, and the cache of one message is the answer of the
reader.  In queue-mediated mode without a publisher the cold path falls back to direct delivery while
the hot path leaves the message locked; and only the cold path builds the options of the loop over the
messages, which a `MaxConcurrentDeliveries` of zero or below -1 makes throw.
-/

set_option autoImplicit false

namespace OutboxNet

/-- The token of the loop over the messages is not cancelled. -/
def BatchSchedule.Uncanceled (schedule : BatchSchedule) : Prop :=
  schedule.messages.canceled = false ∧ .cancel ∉ schedule.messages.choices

namespace Pipeline

variable {p : Pipeline} {hasPublisher : Bool} {schedule : BatchSchedule} {message : OutboxMessage}

/-- The batch goes to the queue. -/
abbrev ToQueue (p : Pipeline) (hasPublisher : Bool) : Prop :=
  p.options.processingMode = .queueMediated ∧ hasPublisher = true

/-- The options of the loop over the messages can be built. -/
def DegreeOk (p : Pipeline) : Prop :=
  ∃ limit, parallelOptions p.options.maxConcurrentDeliveries = .ok limit

/-! ## One message in a loop -/

/-- The body of the loop, run on its own. -/
theorem finish_threadOf (k : Guid) (q : Prog Call Call.Ans (Except Exn Unit)) :
    (Parallel.finish (threadOf k q) ()).bind Parallel.conclude =
      q.mapCalls (BatchCall.handling k) fun _ a => a := by
  induction q with
  | ret r => cases r <;> rfl
  | call c f ih => exact congrArg (Prog.call _) (funext ih)

/-- Direct delivery of one message whose subscriptions are cached. -/
theorem processDirectDeliveryAsync_singleton (hschedule : schedule.Uncanceled)
    {limit : Option ℕ} (hlimit : parallelOptions p.options.maxConcurrentDeliveries = .ok limit)
    (lockedBy : Text) (subCache : SubscriptionCache) :
    (p.processDirectDeliveryAsync schedule lockedBy subCache [message]).run =
      (BatchAsync.handling message.id (p.processCachedMessageAsync
        (schedule.subscriptions message.id) lockedBy subCache message)).run := by
  have hloop : (p.processDirectDeliveryAsync schedule lockedBy subCache [message]).run =
      Parallel.forEachAsync Exn.operationCanceled false limit schedule.messages.choices [message]
        (fun message => body message.id (p.processCachedMessageAsync
          (schedule.subscriptions message.id) lockedBy subCache message)) () := by
    unfold processDirectDeliveryAsync
    rw [hlimit, hschedule.1]
    rfl
  rw [hloop, Parallel.forEachAsync_singleton hschedule.2 (parallelOptions_all hlimit)]
  exact finish_threadOf message.id _

/-- A batch of one message that does not go to the queue: its subscriptions are read, and it is handled. -/
theorem processLockedBatchAsync_direct (hschedule : schedule.Uncanceled)
    (hqueue : ¬ p.ToQueue hasPublisher) (hdegree : p.DegreeOk) :
    (p.processLockedBatchAsync hasPublisher schedule [message]).run = (do
      let subscriptions ← BatchAsync.getForMessage message
      BatchAsync.handling message.id (p.processSingleMessageAsync (schedule.subscriptions message.id)
        message p.options.instanceId subscriptions) : BatchAsync Unit).run := by
  obtain ⟨limit, hlimit⟩ := hdegree
  unfold processLockedBatchAsync
  rw [if_neg hqueue]
  refine congrArg (Prog.call (BatchCall.getForMessage message)) (funext fun a => ?_)
  cases a with
  | error e => rfl
  | ok subscriptions =>
      have hcache : SubscriptionCache.get (SubscriptionCache.set [] message.cacheKey subscriptions)
          message.cacheKey = .ok subscriptions :=
        SubscriptionCache.get_of_tryGetValue (SubscriptionCache.tryGetValue_set_self _ _ _)
      refine (processDirectDeliveryAsync_singleton hschedule hlimit p.options.instanceId
        (SubscriptionCache.set [] message.cacheKey subscriptions)).trans ?_
      unfold processCachedMessageAsync
      rw [hcache]
      rfl

/-- **A batch of one message is the hot path**, in queue-mediated mode with a publisher and in direct
delivery with a valid degree of parallelism. -/
theorem processLockedBatchAsync_singleton (hschedule : schedule.Uncanceled)
    (h : p.ToQueue hasPublisher ∨ (p.options.processingMode = .directDelivery ∧ p.DegreeOk)) :
    (p.processLockedBatchAsync hasPublisher schedule [message]).run =
      (p.processLockedMessageAsync hasPublisher (schedule.subscriptions message.id) message).run := by
  rcases h with hqueue | ⟨hdirect, hdegree⟩
  · unfold processLockedBatchAsync processLockedMessageAsync
    rw [if_pos hqueue, if_pos hqueue.1, if_pos hqueue.2]
  · have hmode : p.options.processingMode ≠ .queueMediated := by
      rw [hdirect]
      nofun
    rw [processLockedBatchAsync_direct hschedule (fun hqueue => hmode hqueue.1) hdegree]
    unfold processLockedMessageAsync
    rw [if_neg hmode]

/-! ## What the two paths do to the rest -/

/-- A call to the reader. -/
def Asks (c : BatchCall) : Prop := ∃ message, c = .getForMessage message

theorem cacheMessageAsync_asks (cache : SubscriptionCache) (message : OutboxMessage) :
    (cacheMessageAsync cache message).run.Only Asks := by
  unfold cacheMessageAsync
  split
  · trivial
  · exact Prog.Only.bindThrowing ⟨⟨message, rfl⟩, fun _ => trivial⟩ fun _ => trivial

/-- Building the cache is asking the reader. -/
theorem foldlM_cacheMessageAsync_asks (messages : List OutboxMessage) (cache : SubscriptionCache) :
    (messages.foldlM cacheMessageAsync cache).run.Only Asks := by
  induction messages generalizing cache with
  | nil => trivial
  | cons message messages ih =>
      rw [List.foldlM_cons]
      exact (cacheMessageAsync_asks cache message).bindThrowing ih

/-- Without options for its loop, direct delivery comes to nothing. -/
theorem processLockedBatchAsync_asks (hqueue : ¬ p.ToQueue hasPublisher) (hdegree : ¬ p.DegreeOk)
    (messages : List OutboxMessage) :
    (p.processLockedBatchAsync hasPublisher schedule messages).run.Only Asks := by
  unfold processLockedBatchAsync
  rw [if_neg hqueue]
  refine (foldlM_cacheMessageAsync_asks messages []).bindThrowing fun cache => ?_
  unfold processDirectDeliveryAsync
  cases hlimit : parallelOptions p.options.maxConcurrentDeliveries with
  | error e => trivial
  | ok limit => exact absurd ⟨limit, hlimit⟩ hdegree

/-- What the hot path does with its message concerns that message. -/
theorem processLockedMessageAsync_only (loop : LoopSchedule) :
    (p.processLockedMessageAsync hasPublisher loop message).run.Only
      (BatchSession.Replayable (· = message.id)) := by
  have hk : decide (message.id = message.id) = true := decide_eq_true rfl
  unfold processLockedMessageAsync
  split
  · split
    · refine Prog.Only.bindThrowing ?_ fun _ => trivial
      exact BatchSession.replayable_handling hk processQueuedMessageAsync_only
    · trivial
  · refine Prog.Only.bindThrowing ⟨.inl ⟨message, rfl⟩, fun _ => trivial⟩ fun subscriptions => ?_
    exact BatchSession.replayable_handling hk (processSingleMessageAsync_only loop subscriptions)

/-- In queue-mediated mode without a publisher the hot path does nothing. -/
theorem processLockedMessageAsync_idle (hmode : p.options.processingMode = .queueMediated)
    (hnone : hasPublisher = false) (loop : LoopSchedule) :
    (p.processLockedMessageAsync hasPublisher loop message).run = .ret (.ok ()) := by
  unfold processLockedMessageAsync
  rw [if_pos hmode, if_neg (by simp [hnone])]
  rfl

end Pipeline

/-! ## The locking of the message -/

/-- Message `k` has fared the same in two runs: the calls made for it, with their answers, its row, and
its stored attempts. -/
structure SameFor (k : Guid) (x y : BatchSession) : Prop where
  calls : handled k y.log = handled k x.log
  row : y.host.db.messages.find? k = x.host.db.messages.find? k
  attempts : AttemptStore.keptAttempts (· = k) y.host.db.attempts =
    AttemptStore.keptAttempts (· = k) x.host.db.attempts

theorem SameFor.trans {k : Guid} {x y z : BatchSession} (h : SameFor k x y) (h' : SameFor k y z) :
    SameFor k x z :=
  ⟨h'.calls.trans h.calls, h'.row.trans h.row, h'.attempts.trans h.attempts⟩

theorem SameFor.symm {k : Guid} {x y : BatchSession} (h : SameFor k x y) : SameFor k y x :=
  ⟨h.calls.symm, h.row.symm, h.attempts.symm⟩

theorem BatchSession.Alike.sameFor {k : Guid} {x y : BatchSession}
    (h : BatchSession.Alike (· = k) x y) : SameFor k x y :=
  ⟨h.handled k (by simp), h.db.messages k (by simp), h.db.attempts⟩

namespace Pipeline

variable {p : Pipeline} {hasPublisher : Bool} {schedule : BatchSchedule} {loop : LoopSchedule}
variable {dep : Deployment} {reader : SubscriptionReader} {x x₁ x₂ x' : BatchSession} {k : Guid}
variable {skipIds : Option (List Guid)} {m row : OutboxMessage}

/-- The call of `LockNextBatchAsync` a batch makes. -/
abbrev lockBatchCall (p : Pipeline) (skipIds : Option (List Guid)) : BatchCall :=
  .lockNextBatch p.options.batchSize p.options.defaultVisibilityTimeout p.options.instanceId skipIds

/-- The call of `TryLockByIdAsync` the hot path makes. -/
abbrev lockByIdCall (p : Pipeline) (k : Guid) : BatchCall :=
  .tryLockById k p.options.defaultVisibilityTimeout p.options.instanceId

/-- `LockNextBatchAsync` returned, and what it returned is exactly `m`. -/
def BatchLocked (p : Pipeline) (skipIds : Option (List Guid)) (m : OutboxMessage)
    (log : List BatchEntry) : Prop :=
  (⟨p.lockBatchCall skipIds, Except.ok [m]⟩ : BatchEntry) ∈ log ∧
    ∀ batch, (⟨p.lockBatchCall skipIds, Except.ok batch⟩ : BatchEntry) ∈ log → batch = [m]

/-- The calls of the throttled release of locks. -/
def Releases (c : BatchCall) : Prop := c.isAside = true ∨ c = .releaseExpiredLocks

theorem releaseExpiredLocksAsync_only : releaseExpiredLocksAsync.run.Only Releases := by
  refine ⟨.inl rfl, fun (now : ℤ) => ⟨.inl rfl, fun (last : ℤ) => ?_⟩⟩
  show (if now - last ≥ releaseExpiredLocksInterval then _ else _ : BatchAsync Unit).run.Only Releases
  split
  · refine ⟨.inl rfl, fun (found : ℤ) => ?_⟩
    show (if found = last then _ else _ : BatchAsync Unit).run.Only Releases
    split
    · refine ⟨.inr rfl, fun a => ?_⟩
      trivial
    · trivial
  · trivial

/-- A release leaves a pending row as it is. -/
theorem releases_pending {α : Type} {q : Prog BatchCall BatchCall.Ans α} {r : α}
    (h : Prog.Exec (BatchSession.Exec dep p.options reader) q x r x') (honly : q.Only Releases)
    (hrow : x.host.db.messages.find? k = some row) (hpending : row.status = .pending) :
    x'.host.db.messages.find? k = some row ∧ x'.host.db.attempts = x.host.db.attempts ∧
      x.host.db.now ≤ x'.host.db.now := by
  refine honly.exec_invariant (J := fun y : BatchSession => y.host.db.messages.find? k = some row ∧
    y.host.db.attempts = x.host.db.attempts ∧ x.host.db.now ≤ y.host.db.now) ?_ h
    ⟨hrow, rfl, le_rfl⟩
  rintro c y a y' (hc | rfl) ⟨hfind, hattempts, hnow⟩ ⟨hcall, -⟩
  · obtain ⟨hm, ha, ht⟩ := hcall.tables hc
    exact ⟨by rw [hm, hfind], ha.trans hattempts, hnow.trans ht⟩
  · obtain ⟨hm, ha, ht⟩ := hcall.pending hfind hpending
    exact ⟨hm, ha.trans hattempts, hnow.trans ht⟩

/-- A run of calls aside from the outbox does nothing for any message. -/
theorem sameFor_of_aside {α : Type} {q : Prog BatchCall BatchCall.Ans α} {r : α}
    (h : Prog.Exec (BatchSession.Exec dep p.options reader) q x r x')
    (honly : q.Only fun c => c.isAside = true) (k : Guid) :
    SameFor k x x' ∧ x.host.db.now ≤ x'.host.db.now := by
  have hhost := honly.exec_invariant (J := fun y : BatchSession =>
    y.host.db.messages = x.host.db.messages ∧ y.host.db.attempts = x.host.db.attempts ∧
      x.host.db.now ≤ y.host.db.now) (by
    rintro c y a y' hc ⟨hmessages, hattempts, hnow⟩ ⟨hcall, -⟩
    obtain ⟨hm, ha, ht⟩ := hcall.tables hc
    exact ⟨hm.trans hmessages, ha.trans hattempts, hnow.trans ht⟩) h ⟨rfl, rfl, le_rfl⟩
  refine ⟨⟨BatchSession.handled_of_exec h (honly.mono ?_), ?_, ?_⟩, hhost.2.2⟩
  · rintro c hc c' rfl
    cases hc
  · rw [hhost.1]
  · rw [hhost.2.1]

/-- What a run of `ProcessBatchAsync` that locks exactly `m` consists of. -/
structure ColdRun (dep : Deployment) (reader : SubscriptionReader) (p : Pipeline)
    (hasPublisher : Bool) (schedule : BatchSchedule) (skipIds : Option (List Guid))
    (m : OutboxMessage) (x x₁ x₂ x' : BatchSession) : Prop where
  release : ∃ x₀, Prog.Exec (BatchSession.Exec dep p.options reader) releaseExpiredLocksAsync.run x
      (.ok ()) x₀ ∧
    BatchSession.Exec dep p.options reader (p.lockBatchCall skipIds) x₀ (Except.ok [m]) x₁
  record : BatchSession.Exec dep p.options reader (.recordBatch 1) x₁ () x₂
  rest : ∃ r, Prog.Exec (BatchSession.Exec dep p.options reader)
    (p.processLockedBatchAsync hasPublisher schedule [m]).run x₂ r x'

/-- Taking a run apart. -/
theorem ColdRun.of_exec {r : Except Exn ℕ}
    (h : Prog.Exec (BatchSession.Exec dep p.options reader)
      (p.processBatchAsync hasPublisher schedule skipIds).run x r x')
    (hlog : x.log = []) (hlocked : p.BatchLocked skipIds m x'.log) :
    ∃ x₁ x₂, ColdRun dep reader p hasPublisher schedule skipIds m x x₁ x₂ x' := by
  -- the release does not lock
  have hbefore : ∀ {o : Except Exn Unit} {y : BatchSession}, Prog.Exec
      (BatchSession.Exec dep p.options reader) releaseExpiredLocksAsync.run x o y →
      (⟨p.lockBatchCall skipIds, Except.ok [m]⟩ : BatchEntry) ∉ y.log := by
    intro o y hrelease hmem
    obtain ⟨new, hnew, hP⟩ := BatchSession.exec_log hrelease releaseExpiredLocksAsync_only
    rw [hnew, hlog, List.nil_append] at hmem
    rcases hP _ hmem with hc | hc <;> cases hc
  unfold processBatchAsync at h
  rcases Prog.exec_bindThrowing_iff.mp h with ⟨_, x₀, hrelease, h⟩ | ⟨e, hrelease, -⟩
  swap
  · exact absurd hlocked.1 (hbefore hrelease)
  rcases Prog.exec_bindThrowing_iff.mp h with ⟨batch, x₁, hlock, h⟩ | ⟨e, hlock, -⟩
  swap
  · obtain ⟨a, y, hcall, hret⟩ := Prog.exec_call_iff.mp hlock
    obtain ⟨rfl, rfl⟩ := Prog.exec_ret_iff.mp hret
    have hmem := hlocked.1
    rw [hcall.2, List.mem_append, List.mem_singleton] at hmem
    rcases hmem with hmem | heq
    · exact absurd hmem (hbefore hrelease)
    · cases heq
  obtain ⟨a, y, hcall, hret⟩ := Prog.exec_call_iff.mp hlock
  obtain ⟨rfl, rfl⟩ := Prog.exec_ret_iff.mp hret
  -- the batch that was locked is in the log
  have hbatch : batch = [m] := by
    obtain ⟨new, hnew, -⟩ := BatchSession.exec_log h (Prog.only_true _)
    refine hlocked.2 batch ?_
    rw [hnew, hcall.2]
    exact List.mem_append_left _ (List.mem_append_right _ List.mem_cons_self)
  subst hbatch
  rcases Prog.exec_bindThrowing_iff.mp h with ⟨_, x₂, hrecord, h⟩ | ⟨e, hrecord, -⟩
  swap
  · obtain ⟨_, _, _, hret⟩ := Prog.exec_call_iff.mp hrecord
    cases (Prog.exec_ret_iff.mp hret).1
  obtain ⟨_, y, hrecord, hret⟩ := Prog.exec_call_iff.mp hrecord
  obtain ⟨-, rfl⟩ := Prog.exec_ret_iff.mp hret
  refine ⟨x₁, x₂, ⟨x₀, hrelease, hcall⟩, hrecord, ?_⟩
  rcases Prog.exec_bindThrowing_iff.mp h with ⟨_, x₃, hrest, hret⟩ | ⟨e, hrest, -⟩
  · obtain ⟨-, rfl⟩ := Prog.exec_ret_iff.mp hret
    exact ⟨_, hrest⟩
  · exact ⟨_, hrest⟩

/-- Putting a run together. -/
theorem ColdRun.exec (h : ColdRun dep reader p hasPublisher schedule skipIds m x x₁ x₂ x') :
    ∃ r, Prog.Exec (BatchSession.Exec dep p.options reader)
      (p.processBatchAsync hasPublisher schedule skipIds).run x r x' := by
  obtain ⟨⟨x₀, hrelease, hlock⟩, hrecord, r, hrest⟩ := h
  have htail : ∃ r', Prog.Exec (BatchSession.Exec dep p.options reader) (do
      p.processLockedBatchAsync hasPublisher schedule [m]
      return 1 : BatchAsync ℕ).run x₂ r' x' := by
    cases r with
    | ok u => exact ⟨.ok 1, Prog.exec_bindThrowing_iff.mpr (.inl ⟨u, x', hrest, .ret _ _⟩)⟩
    | error e => exact ⟨.error e, Prog.exec_bindThrowing_iff.mpr (.inr ⟨e, hrest, rfl⟩)⟩
  obtain ⟨r', htail⟩ := htail
  refine ⟨r', Prog.exec_bindThrowing_iff.mpr (.inl ⟨(), x₀, hrelease, ?_⟩)⟩
  refine Prog.exec_bindThrowing_iff.mpr (.inl ⟨[m], x₁, .call hlock (.ret _ _), ?_⟩)
  exact .call hrecord htail

/-! ## The two paths side by side -/

/-- Calls that are not made in the handling of a message. -/
theorem handled_lockBatch (k : Guid) (log : List BatchEntry) (batch : List OutboxMessage) :
    handled k (log ++ [⟨p.lockBatchCall skipIds, Except.ok batch⟩]) = handled k log :=
  handled_append_of_none rfl

theorem handled_lockById (k k' : Guid) (log : List BatchEntry) (message : Option OutboxMessage) :
    handled k (log ++ [⟨p.lockByIdCall k', Except.ok message⟩]) = handled k log :=
  handled_append_of_none rfl

theorem handled_recordBatch (k : Guid) (log : List BatchEntry) (count : ℕ) :
    handled k (log ++ [⟨.recordBatch count, ()⟩]) = handled k log :=
  handled_append_of_none rfl

/-- The calls of a release that finds its throttle closed. -/
def closedRelease (x : BatchSession) : List BatchEntry :=
  [⟨.utcNow, x.host.lastLockRelease⟩, ⟨.readLastLockRelease, x.host.lastLockRelease⟩]

/-- A release may find its throttle closed. -/
theorem releaseExpiredLocksAsync_closed (x : BatchSession) :
    Prog.Exec (BatchSession.Exec dep p.options reader) releaseExpiredLocksAsync.run x (.ok ())
      ⟨x.host, x.log ++ closedRelease x⟩ := by
  let x₁ : BatchSession := ⟨x.host, x.log ++ [⟨.utcNow, x.host.lastLockRelease⟩]⟩
  have hclock : BatchSession.Exec dep p.options reader .utcNow x x.host.lastLockRelease x₁ :=
    ⟨.effect le_rfl (.utcNow x.host.lastLockRelease _), rfl⟩
  have hread : BatchSession.Exec dep p.options reader .readLastLockRelease x₁ x.host.lastLockRelease
      ⟨x.host, x.log ++ closedRelease x⟩ :=
    ⟨.effect le_rfl (.readLastLockRelease _), by simp [x₁, closedRelease]⟩
  refine .call hclock (.call hread ?_)
  have hclosed : ¬ x.host.lastLockRelease - x.host.lastLockRelease ≥ releaseExpiredLocksInterval := by
    rw [sub_self]
    decide
  show Prog.Exec _ (if x.host.lastLockRelease - x.host.lastLockRelease ≥
    releaseExpiredLocksInterval then _ else _ : BatchAsync Unit).run _ _ _
  rw [if_neg hclosed]
  exact .ret _ _

/-- Once the cold path has locked exactly `m`, a pending message, the hot path can lock it at the same
time. -/
theorem ColdRun.lockedById (h : ColdRun dep reader p hasPublisher schedule skipIds m x x₁ x₂ x')
    (hlog : x.log = []) (hrow : x.host.db.messages.find? m.id = some row)
    (hpending : row.status = .pending) :
    ∃ y₁, BatchSession.Exec dep p.options reader (p.lockByIdCall m.id) x (Except.ok (some m)) y₁ ∧
      BatchSession.Alike (· = m.id) x₂ y₁ := by
  obtain ⟨⟨x₀, hrelease, hlock, hlocklog⟩, ⟨hrecord, hrecordlog⟩, -⟩ := h
  obtain ⟨hrow₀, hattempts₀, hnow₀⟩ :=
    releases_pending hrelease releaseExpiredLocksAsync_only hrow hpending
  obtain ⟨now, scan, messages, hnow, hscan, hbatch, hhost₁⟩ := hlock.locked
  -- the scan that locks `m` and the statement by its id leave the same row
  obtain ⟨hlocked, messages', htry, hlocked'⟩ :=
    OutboxStore.tryLockByIdAsync_of_lockNextBatchAsync hscan hbatch hrow₀ hpending hrow
  obtain ⟨hmessages₂, hattempts₂, hnow₂⟩ := hrecord.tables rfl
  have hx₁ : x₁.host.db.messages = messages ∧ x₁.host.db.attempts = x₀.host.db.attempts ∧
      x₁.host.db.now = now := by
    rw [hhost₁]
    exact ⟨rfl, rfl, rfl⟩
  have hattempts : x₂.host.db.attempts = x.host.db.attempts :=
    calc
      x₂.host.db.attempts = x₁.host.db.attempts := hattempts₂
      _ = x₀.host.db.attempts := hx₁.2.1
      _ = x.host.db.attempts := hattempts₀
  refine ⟨⟨(x.host.at_ now).withMessages messages',
    x.log ++ [⟨p.lockByIdCall m.id, Except.ok (some m)⟩]⟩,
    ⟨.effect (hnow₀.trans hnow) (.tryLockById htry), rfl⟩, ⟨fun k hk => ?_, ?_, ?_⟩, ?_, ?_, ?_⟩
  · obtain rfl : k = m.id := by simpa using hk
    show messages'.find? m.id = x₂.host.db.messages.find? m.id
    rw [hmessages₂, hx₁.1, hlocked, hlocked']
  · rw [hattempts]
    rfl
  · rw [hattempts]
    exact fun a ha => ha
  · show now ≤ x₂.host.db.now
    rw [← hx₁.2.2]
    exact hnow₂
  · intro k hk
    have hreleased := BatchSession.handled_of_exec (k := k) hrelease
      (releaseExpiredLocksAsync_only.mono fun c hc c' heq => by
        subst heq
        rcases hc with hc | hc <;> cases hc)
    rw [hrecordlog, handled_recordBatch, hlocklog, handled_lockBatch, hreleased, handled_lockById]
  · rintro key e ⟨message, -, hmem⟩
    rw [hlog] at hmem
    rcases List.mem_singleton.mp hmem with ⟨⟩

/-- The cold path can lock exactly message `k` of the table `t` at `now`. -/
def ColdLocks (dep : Deployment) (p : Pipeline) (skipIds : Option (List Guid)) (now : DateTimeOffset)
    (t : Messages) (k : Guid) : Prop :=
  ∃ scan m t', scan.Perm t.rows ∧ m.id = k ∧
    OutboxStore.lockNextBatchAsync dep p.options now p.options.batchSize
      p.options.defaultVisibilityTimeout p.options.instanceId (skipIds.getD []) scan t =
        some ([m], t')

/-- Once the hot path has locked `m`, the cold path can lock exactly `m` at the same time, if it can
lock exactly that message then at all. -/
theorem coldRun_of_lockedById (hasPublisher : Bool) (hlog : x.log = [])
    (hlock : BatchSession.Exec dep p.options reader (p.lockByIdCall k) x (Except.ok (some m)) x₁)
    (hcold : ColdLocks dep p skipIds x₁.host.db.now x.host.db.messages k) :
    m.id = k ∧ ∃ y₁ y₂, BatchSession.Alike (· = k) x₁ y₂ ∧ handled k y₂.log = [] ∧
      p.BatchLocked skipIds m y₂.log ∧
      ∀ (schedule : BatchSchedule) (r : Except Exn Unit) (y' : BatchSession),
        Prog.Exec (BatchSession.Exec dep p.options reader)
          (p.processLockedBatchAsync hasPublisher schedule [m]).run y₂ r y' →
        ColdRun dep reader p hasPublisher schedule skipIds m x y₁ y₂ y' := by
  obtain ⟨hcall, hlocklog⟩ := hlock
  obtain ⟨now, messages, hnow, htry, hhost₁⟩ := hcall.lockedById
  obtain ⟨scan, m', messages', hscan, hid, hbatch⟩ := hcold
  have hnow₁ : x₁.host.db.now = now := by rw [hhost₁]; rfl
  rw [hnow₁] at hbatch
  obtain ⟨-, row, hrow, hpending, -⟩ :=
    OutboxStore.tryLockByIdAsync_acquires_iff.mp ⟨m, messages, htry⟩
  rw [← hid] at hrow
  obtain ⟨hlocked', messages'', htry', hlocked⟩ :=
    OutboxStore.tryLockByIdAsync_of_lockNextBatchAsync hscan hbatch hrow hpending hrow
  rw [hid, htry] at htry'
  cases htry'
  subst hid
  -- the throttle of the release is closed, then the batch is locked and counted
  let y₀ : BatchSession := ⟨x.host, x.log ++ closedRelease x⟩
  let y₁ : BatchSession := ⟨(x.host.at_ now).withMessages messages',
    y₀.log ++ [⟨p.lockBatchCall skipIds, Except.ok [m]⟩]⟩
  let y₂ : BatchSession := ⟨y₁.host, y₁.log ++ [⟨.recordBatch 1, ()⟩]⟩
  have hnone : ∀ k, handled k y₂.log = [] := by
    intro k
    show handled k (y₁.log ++ [⟨.recordBatch 1, ()⟩]) = []
    rw [handled_recordBatch, handled_lockBatch]
    show handled k (x.log ++ closedRelease x) = []
    rw [hlog]
    rfl
  have hfind : ∀ k, decide (k = m.id) = true → y₂.host.db.messages.find? k =
      x₁.host.db.messages.find? k := by
    intro k hk
    obtain rfl : k = m.id := by simpa using hk
    rw [hhost₁]
    show messages'.find? m.id = messages.find? m.id
    rw [hlocked', hlocked]
  have hattempts : y₂.host.db.attempts = x₁.host.db.attempts := by
    rw [hhost₁]
    rfl
  refine ⟨rfl, y₁, y₂, ⟨⟨hfind, by rw [hattempts], by rw [hattempts]; exact fun a ha => ha⟩,
    hnow₁.symm.le, fun k _ => ?_, ?_⟩, hnone m.id, ⟨?_, ?_⟩, fun schedule r y' hrest => ?_⟩
  · rw [hnone, hlocklog, handled_lockById, hlog]
    rfl
  · rintro key e ⟨message, -, hmem⟩
    simp only [y₂, y₁, y₀, hlog, closedRelease, List.nil_append, List.cons_append, List.mem_cons,
      List.not_mem_nil, or_false] at hmem
    rcases hmem with h | h | h | h <;> cases h
  · simp [y₂, y₁]
  · intro batch hmem
    simp only [y₂, y₁, y₀, hlog, closedRelease, List.nil_append, List.cons_append, List.mem_cons,
      List.not_mem_nil, or_false] at hmem
    rcases hmem with h | h | h | h <;> cases h
    rfl
  · exact ⟨⟨y₀, releaseExpiredLocksAsync_closed x, .effect hnow (.lockNextBatch hscan hbatch), rfl⟩,
      ⟨.effect le_rfl (.recordBatch 1 _), rfl⟩, r, hrest⟩

/-! ## Agreement -/

/-- **The two paths agree on message `k`**, from the state `x`: every run of `ProcessBatchAsync` that
locks exactly this message is matched by a run of `TryProcessByIdAsync`, and every run of
`TryProcessByIdAsync` that locks it, at a time at which `LockNextBatchAsync` can return exactly it, is
matched by a run of `ProcessBatchAsync`.  Matching runs get the same answers, clock values included. -/
structure PathsAgree (dep : Deployment) (reader : SubscriptionReader) (p : Pipeline)
    (hasPublisher : Bool) (skipIds : Option (List Guid)) (k : Guid) (x : BatchSession) : Prop where
  cold_to_hot : ∀ (schedule : BatchSchedule) (m : OutboxMessage) (r : Except Exn ℕ)
    (x' : BatchSession), schedule.Uncanceled → m.id = k →
    Prog.Exec (BatchSession.Exec dep p.options reader)
      (p.processBatchAsync hasPublisher schedule skipIds).run x r x' →
    p.BatchLocked skipIds m x'.log →
    ∃ r' y', Prog.Exec (BatchSession.Exec dep p.options reader)
        (p.tryProcessByIdAsync hasPublisher (schedule.subscriptions k) k).run x r' y' ∧
      (⟨p.lockByIdCall k, Except.ok (some m)⟩ : BatchEntry) ∈ y'.log ∧ SameFor k x' y'
  hot_to_cold : ∀ (loop : LoopSchedule) (m : OutboxMessage) (r : Except Exn Unit)
    (x₁ x' : BatchSession),
    BatchSession.Exec dep p.options reader (p.lockByIdCall k) x (Except.ok (some m)) x₁ →
    Prog.Exec (BatchSession.Exec dep p.options reader)
      (p.processLockedMessageAsync hasPublisher loop m).run x₁ r x' →
    ColdLocks dep p skipIds x₁.host.db.now x.host.db.messages k →
    ∃ schedule r' y', BatchSchedule.Uncanceled schedule ∧ schedule.subscriptions k = loop ∧
      Prog.Exec (BatchSession.Exec dep p.options reader)
        (p.processBatchAsync hasPublisher schedule skipIds).run x r' y' ∧
      p.BatchLocked skipIds m y'.log ∧ SameFor k x' y'

/-- The configurations in which the two paths agree: both publish, both deliver, or neither does
anything. -/
def PathsMatch (p : Pipeline) (hasPublisher : Bool) : Prop :=
  (p.options.processingMode = .queueMediated ∧ (hasPublisher = true ∨ ¬ p.DegreeOk)) ∨
    (p.options.processingMode = .directDelivery ∧ p.DegreeOk)

/-- A run of the hot path, put together. -/
theorem tryProcessByIdAsync_exec {y₁ y' : BatchSession} {r : Except Exn Unit}
    (hlock : BatchSession.Exec dep p.options reader (p.lockByIdCall k) x (Except.ok (some m)) y₁)
    (hrest : Prog.Exec (BatchSession.Exec dep p.options reader)
      (p.processLockedMessageAsync hasPublisher loop m).run y₁ r y') :
    (∃ r', Prog.Exec (BatchSession.Exec dep p.options reader)
      (p.tryProcessByIdAsync hasPublisher loop k).run x r' y') ∧
      (⟨p.lockByIdCall k, Except.ok (some m)⟩ : BatchEntry) ∈ y'.log := by
  constructor
  · cases r with
    | ok u =>
        refine ⟨.ok true, .call hlock (Prog.exec_bindThrowing_iff.mpr (.inl ⟨u, y', hrest, ?_⟩))⟩
        exact .ret _ _
    | error e =>
        exact ⟨.error e, .call hlock (Prog.exec_bindThrowing_iff.mpr (.inr ⟨e, hrest, rfl⟩))⟩
  · obtain ⟨new, hnew, -⟩ := BatchSession.exec_log hrest (Prog.only_true _)
    rw [hnew, hlock.2]
    exact List.mem_append_left _ (List.mem_append_right _ List.mem_cons_self)

/-- Calls that lock nothing leave it at the batch that was locked. -/
theorem BatchLocked.of_exec {α : Type} {q : Prog BatchCall BatchCall.Ans α} {y y' : BatchSession}
    {r : α} (h : p.BatchLocked skipIds m y.log)
    (hexec : Prog.Exec (BatchSession.Exec dep p.options reader) q y r y')
    (honly : q.Only fun c => c ≠ p.lockBatchCall skipIds) : p.BatchLocked skipIds m y'.log := by
  obtain ⟨new, hnew, hP⟩ := BatchSession.exec_log hexec honly
  rw [hnew]
  refine ⟨List.mem_append_left _ h.1, fun batch hmem => ?_⟩
  rcases List.mem_append.mp hmem with hmem | hmem
  · exact h.2 batch hmem
  · exact absurd rfl (hP _ hmem)

/-- Where both paths run the same program, they agree. -/
theorem pathsAgree_of_same (hlog : x.log = []) (hrow : x.host.db.messages.find? k = some row)
    (hpending : row.status = .pending)
    (h : p.ToQueue hasPublisher ∨ (p.options.processingMode = .directDelivery ∧ p.DegreeOk)) :
    PathsAgree dep reader p hasPublisher skipIds k x := by
  -- a run of either path gives one of the other, its lock taken at the same time
  constructor
  · rintro schedule m r x' hschedule rfl hexec hlocked
    obtain ⟨x₁, x₂, hcold⟩ := ColdRun.of_exec hexec hlog hlocked
    obtain ⟨y₁, hlock, hlike⟩ := hcold.lockedById hlog hrow hpending
    obtain ⟨r', hrest⟩ := hcold.rest
    rw [processLockedBatchAsync_singleton hschedule h] at hrest
    obtain ⟨y', hrest', hlike'⟩ := hlike.exec_replay hrest (processLockedMessageAsync_only _)
    obtain ⟨⟨r'', hhot⟩, hmem⟩ := tryProcessByIdAsync_exec hlock hrest'
    exact ⟨r'', y', hhot, hmem, hlike'.sameFor⟩
  · intro loop m r x₁ x' hlock hrest hlocks
    obtain ⟨hid, y₁, y₂, hlike, -, hlocked, hcold⟩ := coldRun_of_lockedById hasPublisher hlog hlock hlocks
    subst hid
    let schedule : BatchSchedule := ⟨⟨false, []⟩, fun _ => loop⟩
    have hschedule : schedule.Uncanceled := ⟨rfl, List.not_mem_nil⟩
    have honly : (p.processLockedMessageAsync hasPublisher loop m).run.Only
        (BatchSession.Replayable (· = m.id)) := processLockedMessageAsync_only loop
    obtain ⟨y', hrest', hlike'⟩ := hlike.exec_replay hrest honly
    have hlocked' := hlocked.of_exec hrest' (honly.mono fun c hc heq => by
      subst heq
      rcases hc with ⟨message, heq⟩ | ⟨k, -, hc⟩
      · cases heq
      · exact hc)
    have hbatch : (p.processLockedBatchAsync hasPublisher schedule [m]).run =
        (p.processLockedMessageAsync hasPublisher loop m).run :=
      processLockedBatchAsync_singleton hschedule h
    rw [← hbatch] at hrest'
    obtain ⟨r', hexec⟩ := (hcold schedule r y' hrest').exec
    exact ⟨schedule, r', y', hschedule, rfl, hexec, hlocked', hlike'.sameFor⟩

/-- A batch that does not go to the queue and cannot build the options of its loop is only asked
about. -/
theorem processLockedBatchAsync_aside (hqueue : ¬ p.ToQueue hasPublisher) (hdegree : ¬ p.DegreeOk)
    (messages : List OutboxMessage) :
    (p.processLockedBatchAsync hasPublisher schedule messages).run.Only fun c => c.isAside = true :=
  (processLockedBatchAsync_asks hqueue hdegree messages).mono fun c hc => by
    obtain ⟨message, rfl⟩ := hc
    rfl

/-- Where neither path does anything, they agree. -/
theorem pathsAgree_of_idle (hlog : x.log = []) (hrow : x.host.db.messages.find? k = some row)
    (hpending : row.status = .pending) (hmode : p.options.processingMode = .queueMediated)
    (hnone : hasPublisher = false) (hdegree : ¬ p.DegreeOk) :
    PathsAgree dep reader p hasPublisher skipIds k x := by
  have hqueue : ¬ p.ToQueue hasPublisher := fun h => by
    rw [hnone] at h
    cases h.2
  constructor
  · rintro schedule m r x' hschedule rfl hexec hlocked
    obtain ⟨x₁, x₂, hcold⟩ := ColdRun.of_exec hexec hlog hlocked
    obtain ⟨y₁, hlock, hlike⟩ := hcold.lockedById hlog hrow hpending
    obtain ⟨r', hrest⟩ := hcold.rest
    -- the cold path only asks for the subscriptions
    have hsame := (sameFor_of_aside hrest (processLockedBatchAsync_aside hqueue hdegree [m]) m.id).1
    have hidle : Prog.Exec (BatchSession.Exec dep p.options reader) (p.processLockedMessageAsync
        hasPublisher (schedule.subscriptions m.id) m).run y₁ (.ok ()) y₁ := by
      rw [processLockedMessageAsync_idle hmode hnone]
      exact .ret _ _
    obtain ⟨⟨r'', hhot⟩, hmem⟩ := tryProcessByIdAsync_exec hlock hidle
    exact ⟨r'', y₁, hhot, hmem, hsame.symm.trans hlike.sameFor⟩
  · intro loop m r x₁ x' hlock hrest hlocks
    obtain ⟨hid, y₁, y₂, hlike, -, hlocked, hcold⟩ := coldRun_of_lockedById hasPublisher hlog hlock hlocks
    subst hid
    rw [processLockedMessageAsync_idle hmode hnone] at hrest
    obtain ⟨-, rfl⟩ := Prog.exec_ret_iff.mp hrest
    let schedule : BatchSchedule := ⟨⟨false, []⟩, fun _ => loop⟩
    have honly : (p.processLockedBatchAsync hasPublisher schedule [m]).run.Only
        fun c => c.isAside = true := processLockedBatchAsync_aside hqueue hdegree [m]
    obtain ⟨r', y', hrest'⟩ := Prog.exec_total
      (BatchSession.exec_total dep p.options reader)
      (p.processLockedBatchAsync hasPublisher schedule [m]).run y₂
    have hlocked' := hlocked.of_exec hrest' (honly.mono fun c hc heq => by
      subst heq
      cases hc)
    obtain ⟨r'', hexec⟩ := (hcold schedule r' y' hrest').exec
    exact ⟨schedule, r'', y', ⟨rfl, List.not_mem_nil⟩, rfl, hexec, hlocked',
      hlike.sameFor.trans (sameFor_of_aside hrest' honly m.id).1⟩

/-! ## Disagreement -/

/-- The handling of a message leaves a trace. -/
theorem handled_ne_nil {subscriptions : List WebhookSubscription} {y y' : BatchSession}
    {r : Except Exn Unit} (h : Prog.Exec (BatchSession.Exec dep p.options reader)
      (BatchAsync.handling m.id (p.processSingleMessageAsync loop m p.options.instanceId
        subscriptions)).run y r y') : handled m.id y'.log ≠ [] := by
  have hfirst : ∃ c f, (p.processSingleMessageAsync loop m p.options.instanceId subscriptions).run =
      .call c f := by
    unfold processSingleMessageAsync
    split
    · exact ⟨_, _, rfl⟩
    · exact ⟨_, _, rfl⟩
  obtain ⟨c, f, hfirst⟩ := hfirst
  have hrecorded := recorded_of_handling h
  rw [hfirst] at hrecorded
  obtain ⟨a, l, hcall, hrest⟩ := Prog.exec_call_iff.mp hrecorded
  obtain ⟨new, hnew⟩ := Call.Recorded.grows hrest
  intro hnil
  rw [hnil, hcall] at hnew
  simp at hnew

/-- A message whose subscriptions are read and which is then handled, in some run. -/
theorem exists_handled (dep : Deployment) (reader : SubscriptionReader) (p : Pipeline)
    (loop : LoopSchedule) (m : OutboxMessage) (y : BatchSession) :
    ∃ r y', Prog.Exec (BatchSession.Exec dep p.options reader) (do
      let subscriptions ← BatchAsync.getForMessage m
      BatchAsync.handling m.id (p.processSingleMessageAsync loop m p.options.instanceId
        subscriptions) : BatchAsync Unit).run y r y' ∧ handled m.id y'.log ≠ [] := by
  obtain ⟨subscriptions, hreturns⟩ := reader.exists_returns dep m
  let y₁ : BatchSession := ⟨y.host, y.log ++ [⟨.getForMessage m, Except.ok subscriptions⟩]⟩
  have hask : BatchSession.Exec dep p.options reader (.getForMessage m) y (Except.ok subscriptions)
      y₁ := ⟨.effect le_rfl (.getForMessage hreturns), rfl⟩
  obtain ⟨r, y', hrest⟩ := Prog.exec_total (BatchSession.exec_total dep p.options reader)
    (BatchAsync.handling m.id (p.processSingleMessageAsync loop m p.options.instanceId
      subscriptions)).run y₁
  exact ⟨r, y', .call hask hrest, handled_ne_nil hrest⟩

/-- A pending message that the cold path can lock now, locked by the hot path now. -/
theorem ColdLocks.lockedById (reader : SubscriptionReader)
    (h : ColdLocks dep p skipIds x.host.db.now x.host.db.messages k)
    (hrow : x.host.db.messages.find? k = some row) (hpending : row.status = .pending) :
    ∃ m y₁, BatchSession.Exec dep p.options reader (p.lockByIdCall k) x (Except.ok (some m)) y₁ ∧
      y₁.host.db.now = x.host.db.now := by
  obtain ⟨scan, m, t', hscan, rfl, hbatch⟩ := h
  obtain ⟨-, t'', htry, -⟩ :=
    OutboxStore.tryLockByIdAsync_of_lockNextBatchAsync hscan hbatch hrow hpending hrow
  exact ⟨m, ⟨x.host.withMessages t'', x.log ++ [⟨p.lockByIdCall m.id, Except.ok (some m)⟩]⟩,
    ⟨.effect le_rfl (.tryLockById htry), rfl⟩, rfl⟩

/-- **Without a publisher the paths part**, in queue-mediated mode: the cold path delivers the message,
the hot path leaves it locked. -/
theorem not_pathsAgree_of_no_publisher (hlog : x.log = [])
    (hrow : x.host.db.messages.find? k = some row) (hpending : row.status = .pending)
    (hcold : ColdLocks dep p skipIds x.host.db.now x.host.db.messages k)
    (hmode : p.options.processingMode = .queueMediated) (hnone : hasPublisher = false)
    (hdegree : p.DegreeOk) : ¬ PathsAgree dep reader p hasPublisher skipIds k x := by
  intro hagree
  have hqueue : ¬ p.ToQueue hasPublisher := fun h => by
    rw [hnone] at h
    cases h.2
  obtain ⟨m, x₁, hlock, hnow⟩ := hcold.lockedById reader hrow hpending
  rw [← hnow] at hcold
  obtain ⟨hid, y₁, y₂, -, -, hlocked, hrun⟩ :=
    coldRun_of_lockedById hasPublisher hlog hlock hcold
  subst hid
  -- a batch that handles the message
  let schedule : BatchSchedule := ⟨⟨false, []⟩, fun _ => ⟨false, []⟩⟩
  have hschedule : schedule.Uncanceled := ⟨rfl, List.not_mem_nil⟩
  obtain ⟨r, y', hrest, hhandled⟩ := exists_handled dep reader p (schedule.subscriptions m.id) m y₂
  have honly : (do
      let subscriptions ← BatchAsync.getForMessage m
      BatchAsync.handling m.id (p.processSingleMessageAsync (schedule.subscriptions m.id) m
        p.options.instanceId subscriptions) : BatchAsync Unit).run.Only
      fun c => c ≠ p.lockBatchCall skipIds := by
    refine Prog.Only.bindThrowing ⟨fun h => (by cases h), fun _ => trivial⟩ fun subscriptions => ?_
    exact (processSingleMessageAsync_only _ subscriptions).mapCalls fun c _ h => by cases h
  have hlocked' := hlocked.of_exec hrest honly
  rw [← processLockedBatchAsync_direct hschedule hqueue hdegree] at hrest
  obtain ⟨r', hexec⟩ := (hrun schedule r y' hrest).exec
  obtain ⟨r'', z', hhot, -, hsame⟩ := hagree.cold_to_hot schedule m r' y' hschedule rfl hexec hlocked'
  -- the hot path makes no call but the lock
  have hidle : (p.tryProcessByIdAsync hasPublisher (schedule.subscriptions m.id) m.id).run.Only
      fun c => c = p.lockByIdCall m.id := by
    unfold tryProcessByIdAsync
    refine Prog.Only.bindThrowing ⟨rfl, fun _ => trivial⟩ fun locked => ?_
    cases locked with
    | none => trivial
    | some m' =>
        have hnothing : (p.processLockedMessageAsync hasPublisher (schedule.subscriptions m.id)
            m').run.Only fun c => c = p.lockByIdCall m.id := by
          rw [processLockedMessageAsync_idle hmode hnone]
          trivial
        exact hnothing.bindThrowing fun _ => trivial
  have hempty : handled m.id z'.log = handled m.id x.log :=
    BatchSession.handled_of_exec hhot (hidle.mono fun c hc c' heq => by
      rw [hc] at heq
      cases heq)
  rw [hsame.calls, hlog] at hempty
  exact hhandled hempty

/-- **Without options for the loop over the messages the paths part**, in direct delivery: the hot path
delivers the message, the cold path throws once it has locked it. -/
theorem not_pathsAgree_of_degree (hlog : x.log = [])
    (hrow : x.host.db.messages.find? k = some row) (hpending : row.status = .pending)
    (hcold : ColdLocks dep p skipIds x.host.db.now x.host.db.messages k)
    (hmode : p.options.processingMode = .directDelivery) (hdegree : ¬ p.DegreeOk) :
    ¬ PathsAgree dep reader p hasPublisher skipIds k x := by
  intro hagree
  have hdirect : p.options.processingMode ≠ .queueMediated := by
    rw [hmode]
    nofun
  obtain ⟨m, x₁, hlock, hnow⟩ := hcold.lockedById reader hrow hpending
  rw [← hnow] at hcold
  obtain ⟨hid, -⟩ := coldRun_of_lockedById hasPublisher hlog hlock hcold
  subst hid
  -- the hot path handles the message
  obtain ⟨r, x', hrest, hhandled⟩ := exists_handled dep reader p ⟨false, []⟩ m x₁
  have hhot : Prog.Exec (BatchSession.Exec dep p.options reader)
      (p.processLockedMessageAsync hasPublisher ⟨false, []⟩ m).run x₁ r x' := by
    unfold processLockedMessageAsync
    rw [if_neg hdirect]
    exact hrest
  obtain ⟨schedule, r', y', -, -, hexec, -, hsame⟩ := hagree.hot_to_cold _ m r x₁ x' hlock hhot hcold
  -- the cold path handles nothing
  have hnothing : (p.processBatchAsync hasPublisher schedule skipIds).run.Only
      fun c => ∀ c', c ≠ .handling m.id c' := by
    have hsuffices : ∀ {c : BatchCall}, Releases c → ∀ c', c ≠ .handling m.id c' := by
      rintro c hc c' rfl
      rcases hc with hc | hc <;> cases hc
    have hrest : ∀ batch, (p.processLockedBatchAsync hasPublisher schedule batch).run.Only
        fun c => c.isAside = true :=
      processLockedBatchAsync_aside (fun hqueue => hdirect hqueue.1) hdegree
    unfold processBatchAsync
    refine (releaseExpiredLocksAsync_only.mono fun c => hsuffices).bindThrowing fun _ => ?_
    refine Prog.Only.bindThrowing ⟨fun _ h => (by cases h), fun _ => trivial⟩ fun batch => ?_
    split
    · trivial
    · refine Prog.Only.bindThrowing ⟨fun _ h => (by cases h), fun _ => trivial⟩ fun _ => ?_
      exact ((hrest batch).mono fun c hc => hsuffices (.inl hc)).bindThrowing fun _ => trivial
  have hempty : handled m.id y'.log = handled m.id x.log :=
    BatchSession.handled_of_exec hexec hnothing
  rw [hsame.calls, hlog] at hempty
  exact hhandled hempty

/-- **Hot and cold processing.** On a pending message that both paths can lock, the two paths agree
exactly when the configuration lets both deliver, both publish, or neither do anything. -/
theorem pathsAgree_iff (dep : Deployment) (reader : SubscriptionReader) (p : Pipeline)
    (hasPublisher : Bool) (skipIds : Option (List Guid)) {k : Guid} {x : BatchSession}
    {row : OutboxMessage} (hlog : x.log = []) (hrow : x.host.db.messages.find? k = some row)
    (hpending : row.status = .pending)
    (hcold : ColdLocks dep p skipIds x.host.db.now x.host.db.messages k) :
    PathsAgree dep reader p hasPublisher skipIds k x ↔ p.PathsMatch hasPublisher := by
  constructor
  · intro hagree
    by_contra hno
    cases hmode : p.options.processingMode with
    | queueMediated =>
        have hor : ¬ (hasPublisher = true ∨ ¬ p.DegreeOk) := fun h => hno (.inl ⟨hmode, h⟩)
        push Not at hor
        exact not_pathsAgree_of_no_publisher hlog hrow hpending hcold hmode (by simpa using hor.1)
          hor.2 hagree
    | directDelivery =>
        have hdegree : ¬ p.DegreeOk := fun h => hno (.inr ⟨hmode, h⟩)
        exact not_pathsAgree_of_degree hlog hrow hpending hcold hmode hdegree hagree
  · rintro (⟨hmode, hor⟩ | hdirect)
    · cases hpublisher : hasPublisher with
      | true => exact pathsAgree_of_same hlog hrow hpending (.inl ⟨hmode, rfl⟩)
      | false =>
          have hdegree := hor.resolve_left (by simp [hpublisher])
          exact pathsAgree_of_idle hlog hrow hpending hmode rfl hdegree
    · exact pathsAgree_of_same hlog hrow hpending (.inr hdirect)

/-! ## A table with one message -/

/-- A processor of the shop. -/
def shopPipeline (mode : ProcessingMode) : Pipeline where
  options := { instanceId := text "worker-1", processingMode := mode }
  retryPolicy := ExponentialBackoff.policy {}
  sha256 := ⟨fun input => (input ++ List.replicate 32 0).take 32, by simp⟩

/-- The shop, with one pending message. -/
def shopSession : BatchSession where
  host := ⟨⟨⟨[shopMessage 10 none], by decide⟩, Table.empty, 1000⟩, 0⟩
  log := []

theorem shopSession_row :
    shopSession.host.db.messages.find? 10 = some (shopMessage 10 none) := by decide

theorem coldLocks_shop (mode : ProcessingMode) : ColdLocks (Deployment.binary .directSql)
    (shopPipeline mode) none shopSession.host.db.now shopSession.host.db.messages 10 := by
  have huntil : dateAddSeconds ((Deployment.binary .directSql).castSeconds
      (5 * 60 * ticksPerSecond)) 1000 = some (1000 + 300 * ticksPerSecond) := by decide
  have hcandidate : OutboxStore.candidate (Deployment.binary .directSql) (shopPipeline mode).options
      1000 [] shopSession.host.db.messages (shopMessage 10 none) = true := by
    cases mode <;> decide
  obtain ⟨t', hlock⟩ := OutboxStore.lockNextBatchAsync_of_candidate (text "worker-1")
    (by decide : (0 : ℤ) < 50) huntil shopSession_row hcandidate
    fun m hm _ => by rw [List.mem_singleton.mp hm]; rfl
  exact ⟨_, _, t', List.Perm.refl _, rfl, hlock⟩

/-- In queue-mediated mode without a publisher, the one pending message of the shop fares differently on
the two paths. -/
theorem not_pathsAgree_shop : ¬ PathsAgree (Deployment.binary .directSql) shopReader
    (shopPipeline .queueMediated) false none 10 shopSession :=
  not_pathsAgree_of_no_publisher rfl shopSession_row rfl (coldLocks_shop .queueMediated) rfl rfl
    ⟨some 10, by decide⟩

/-- In direct delivery they agree. -/
theorem pathsAgree_iff_shop : PathsAgree (Deployment.binary .directSql) shopReader
    (shopPipeline .directDelivery) false none 10 shopSession ↔
      (shopPipeline .directDelivery).PathsMatch false :=
  pathsAgree_iff (Deployment.binary .directSql) shopReader (shopPipeline .directDelivery) false none
    rfl shopSession_row rfl (coldLocks_shop .directDelivery)

end Pipeline

end OutboxNet
