import OutboxNet.Lib.Runs
import OutboxNet.Processor.Faultless
import OutboxNet.Processor.Rehearsal

/-!
# The whole life of a message

A message lives by rounds: a worker locks it and processes it as it was locked.  Without faults the
number of the round, the retry count of the row and the tries of every subscription go together, so the
life ends after at most as many rounds as the retry policy allows, and each subscription gets the
deliveries its own limit and the policy's allow it, whatever the others answer.

It is not enough that the store and the deliverer work.  A round whose back-off throws leaves its message
locked, with its retry count as it was, so such a life may go on without end.
-/

set_option autoImplicit false

namespace OutboxNet

open AttemptStore (attemptsOf)
open OutboxStore (lockRow tryLockByIdAsync lockNextBatchAsync)

variable {dep : Deployment}

/-! ## Runs of rounds -/

/-- A worker locks the message, by its id or by a scan. -/
inductive Locks (dep : Deployment) (p : Pipeline) (messageId : Guid) (db : Database) :
    OutboxMessage → Messages → Prop
  | hot {m : OutboxMessage} {messages : Messages} :
      tryLockByIdAsync dep db.now messageId p.options.defaultVisibilityTimeout p.options.instanceId
        db.messages = some (some m, messages) →
      Locks dep p messageId db m messages
  | cold {skipIds : List Guid} {scan batch : List OutboxMessage} {m : OutboxMessage}
      {messages : Messages} :
      scan.Perm db.messages.rows →
      lockNextBatchAsync dep p.options db.now p.options.batchSize p.options.defaultVisibilityTimeout
        p.options.instanceId skipIds scan db.messages = some (batch, messages) →
      m ∈ batch → m.id = messageId →
      Locks dep p messageId db m messages

/-- The row that was locked, and what it has become. -/
theorem Locks.row {p : Pipeline} {messageId : Guid} {db : Database} {m : OutboxMessage}
    {messages : Messages} (h : Locks dep p messageId db m messages) : ∃ row until_,
      db.messages.find? messageId = some row ∧ (row.status = .pending ∨ row.status = .processing) ∧
      m = lockRow p.options.instanceId until_ row ∧ m.id = messageId ∧
      messages.find? messageId = some m := by
  have hacquired : ∃ chosen until_ batch, OutboxStore.Acquired dep db.now
      p.options.defaultVisibilityTimeout p.options.instanceId db.messages chosen until_ batch
      messages ∧ m ∈ batch ∧ m.id = messageId := by
    cases h with
    | hot hlock =>
        obtain ⟨until_, hacq⟩ := OutboxStore.tryLockByIdAsync_spec hlock
        obtain ⟨row, -, hchosen, rfl, -⟩ := hacq.mem_batch List.mem_cons_self
        exact ⟨_, until_, _, hacq, List.mem_cons_self, (OutboxStore.lockable_iff.mp hchosen).1⟩
    | cold hscan hlock hm hid =>
        obtain ⟨chosen, until_, hacq, -⟩ := OutboxStore.lockNextBatchAsync_spec hscan hlock
        exact ⟨chosen, until_, _, hacq, hm, hid⟩
  obtain ⟨chosen, until_, batch, hacq, hm, rfl⟩ := hacquired
  obtain ⟨row, hrow, hchosen, heq, hfind⟩ := hacq.mem_batch hm
  exact ⟨row, until_, hrow, hacq.free row (Table.find?_mem hrow) hchosen, heq, rfl, hfind⟩

/-- What is fixed during the life of a message: its subscriptions, the limit of the retry policy, and
which deliveries succeed. -/
structure Life where
  messageId : Guid
  subscriptions : List WebhookSubscription
  maxRetries : ℤ
  ok : Guid → ℕ → Bool

namespace Life

/-- A round of the message, or something that has nothing to do with it. -/
inductive Event : Type
  | round | elsewhere
deriving DecidableEq, Repr

/-- One step.  Any worker may take a round, with its own options and schedule; the log is that of the
rounds of the message. -/
inductive Step (dep : Deployment) (life : Life) : Session → Event → Session → Prop
  | round {x x' : Session} {now : DateTimeOffset} {p : Pipeline} {loop : LoopSchedule}
      {m : OutboxMessage} {messages : Messages} {r : Except Exn Unit} :
      x.db.now ≤ now → Locks dep p life.messageId { x.db with now := now } m messages →
      p.retryPolicy.Limits life.maxRetries → p.Starts → ¬ loop.cancels →
      Prog.Exec (Session.Faultless dep p.retryPolicy m life.ok)
        (p.processSingleMessageAsync loop m p.options.instanceId life.subscriptions).run
        ⟨⟨messages, x.db.attempts, now⟩, x.log⟩ r x' →
      Step dep life x .round x'
  | elsewhere {x x' : Session} :
      x'.db.messages.find? life.messageId = x.db.messages.find? life.messageId →
      (∀ s, attemptsOf life.messageId s x'.db.attempts = attemptsOf life.messageId s x.db.attempts) →
      x.db.now ≤ x'.db.now → x'.log = x.log →
      Step dep life x .elsewhere x'

/-- The message is pending, with no retries and no attempts. -/
def Fresh (life : Life) (db : Database) : Prop :=
  (∃ row, db.messages.find? life.messageId = some row ∧ row.status = .pending ∧
    row.retryCount = 0) ∧ ∀ s, attemptsOf life.messageId s db.attempts = []

/-! ## What holds after some rounds -/

variable (life : Life)

/-- The tries of a subscription after `n` rounds. -/
def tries (n : ℕ) (subscription : WebhookSubscription) : Tries :=
  Tries.after (life.ok subscription.id) subscription.tries n

/-- The deliveries a subscription may get: one more than the smaller of its own limit and that of the
policy. -/
def budget (subscription : WebhookSubscription) : ℕ :=
  (min subscription.maxRetries life.maxRetries).toNat + 1

/-- The row after `n` rounds, and what the tries have come to. -/
inductive RowAfter (n : ℕ) (row : OutboxMessage) : Prop
  | pending :
      row.status = .pending → row.retryCount = n → (n : ℤ) ≤ life.maxRetries →
      RowAfter n row
  | delivered :
      row.status = .delivered → (n : ℤ) ≤ life.maxRetries + 1 →
      (∀ subscription ∈ life.subscriptions, (life.tries n subscription).succeeded = true) →
      RowAfter n row
  | deadLettered :
      row.status = .deadLettered → (n : ℤ) ≤ life.maxRetries + 1 →
      (∃ subscription ∈ life.subscriptions, (life.tries n subscription).succeeded = false) →
      (∀ subscription ∈ life.subscriptions, (life.tries n subscription).succeeded = false →
        min n subscription.tries = life.budget subscription) →
      RowAfter n row

/-- **The invariant**: after `n` rounds every subscription stands at its tries of `n` rounds, and the
row at its retry count or at the end. -/
structure After (n : ℕ) (x : Session) : Prop where
  standsAt : ∀ subscription ∈ life.subscriptions,
    x.StandsAt life.messageId subscription.id (life.tries n subscription)
  row : ∃ row, x.db.messages.find? life.messageId = some row ∧ life.RowAfter n row

variable {life} {n : ℕ} {x x' : Session}

theorem Fresh.after {db : Database} (h : life.Fresh db) (hN : 0 ≤ life.maxRetries) :
    life.After 0 ⟨db, []⟩ where
  standsAt subscription _ := by
    refine ⟨rfl, by rw [h.2]; rfl, ?_⟩
    rw [AttemptStore.hasSuccess, h.2]
    rfl
  row := by
    obtain ⟨⟨row, hrow, hstatus, hcount⟩, -⟩ := h
    exact ⟨row, hrow, .pending hstatus hcount hN⟩

/-- The tries of `n` rounds without a success are used up by the end of the budget. -/
theorem min_tries_eq_budget {subscription : WebhookSubscription} (hmax : 0 ≤ subscription.maxRetries)
    (hN : 0 ≤ life.maxRetries) (hn : (n : ℤ) ≤ life.maxRetries + 1)
    (h : subscription.tries ≤ n ∨ (n : ℤ) = life.maxRetries + 1) :
    min n subscription.tries = life.budget subscription := by
  rw [WebhookSubscription.tries] at h ⊢
  rw [budget]
  omega

/-- The row a round leaves. -/
theorem RowAfter.of_outcome {job : Job} {row : OutboxMessage}
    (h : job.Outcome life.ok (life.tries n) row)
    (hpolicy : job.pipeline.retryPolicy.Limits life.maxRetries)
    (hsubs : job.subscriptions = life.subscriptions)
    (hmax : ∀ subscription ∈ life.subscriptions, 0 ≤ subscription.maxRetries)
    (hcount : job.message.retryCount = n) (hle : (n : ℤ) ≤ life.maxRetries) :
    life.RowAfter (n + 1) row := by
  have hN : 0 ≤ life.maxRetries := by omega
  have hafter : ∀ subscription : WebhookSubscription,
      subscription.triesAfter life.ok (life.tries n) = life.tries (n + 1) subscription :=
    fun subscription => (Tries.after_succ ..).symm
  have hle' : ((n + 1 : ℕ) : ℤ) ≤ life.maxRetries + 1 := by omega
  -- the outcome of round `n` speaks of the tries after it
  cases h with
  | delivered hstatus hall =>
      rw [hsubs] at hall
      exact .delivered hstatus hle' fun subscription hsub => hafter subscription ▸ hall subscription hsub
  | exhausted hstatus hunfinished hexhausted =>
      obtain ⟨unfinished, hmem, hno⟩ := hunfinished
      rw [hsubs] at hmem hexhausted
      refine .deadLettered hstatus hle' ⟨unfinished, hmem, hafter unfinished ▸ hno⟩
        fun subscription hsub hno => ?_
      have hused := hexhausted subscription hsub (hafter subscription ▸ hno)
      have hmade := (Tries.after_spec (life.ok subscription.id) subscription.tries n).2.2.1
      refine min_tries_eq_budget (hmax subscription hsub) hN hle' (.inl ?_)
      rw [tries] at hused
      omega
  | givenUp hstatus hunfinished hdelay =>
      obtain ⟨unfinished, hmem, hno⟩ := hunfinished
      rw [hsubs] at hmem
      refine .deadLettered hstatus hle' ⟨unfinished, hmem, hafter unfinished ▸ hno⟩
        fun subscription hsub _ => ?_
      refine min_tries_eq_budget (hmax subscription hsub) hN hle' (.inr ?_)
      rw [hcount] at hdelay
      have hend : ¬ (n : ℤ) < life.maxRetries := fun hlt => hpolicy.ne_none_of_lt n _ hlt hdelay
      omega
  | retry hstatus hretry _ _ hdelay =>
      rw [hcount] at hdelay
      refine .pending hstatus (by rw [hretry, hcount]; rfl) ?_
      have hlt : ¬ life.maxRetries ≤ n := fun hend => by
        cases (hpolicy.none_of_le n _ hend).symm.trans hdelay
      omega

/-- The step lemma for a round. -/
theorem After.round (hnodup : (life.subscriptions.map (·.id)).Nodup)
    (hmax : ∀ subscription ∈ life.subscriptions, 0 ≤ subscription.maxRetries)
    (h : life.After n x) (hstep : Step dep life x .round x') : life.After (n + 1) x' := by
  obtain ⟨hstands, row, hrow, hafter⟩ := h
  cases hstep with
  | @round _ now p loop m messages r _ hlocks hpolicy hstarts hloop hrun =>
      obtain ⟨row', until_, hrow', hfree, rfl, hid, hlocked⟩ := hlocks.row
      have heq : some row' = some row := hrow'.symm.trans hrow
      cases heq
      -- a row at the end is never locked again
      obtain ⟨hcount, hle⟩ : row.retryCount = n ∧ (n : ℤ) ≤ life.maxRetries := by
        cases hafter with
        | pending _ hcount hle => exact ⟨hcount, hle⟩
        | delivered hstatus => simp [hstatus] at hfree
        | deadLettered hstatus => simp [hstatus] at hfree
      let job : Job := ⟨p, lockRow p.options.instanceId until_ row, p.options.instanceId,
        life.subscriptions⟩
      have hjob : job.message.id = life.messageId := hid
      have hstanding : job.Standing ⟨⟨messages, x.db.attempts, now⟩, x.log⟩ (life.tries n) :=
        { locked := by rw [hjob]; exact hlocked
          nodup := hnodup
          standsAt := fun subscription hsub => by rw [hjob]; exact hstands subscription hsub }
      obtain ⟨hadvanced, row', hrow', houtcome⟩ := hstanding.faultless_round hstarts hloop hrun
      rw [hjob] at hrow'
      refine ⟨fun subscription hsub => ?_, row', hrow',
        .of_outcome houtcome hpolicy rfl hmax hcount hle⟩
      have hstands' := hadvanced subscription hsub
      rw [hjob, WebhookSubscription.triesAfter] at hstands'
      rw [tries, Tries.after_succ]
      exact hstands'

/-- The step lemma for everything else. -/
theorem After.elsewhere (h : life.After n x) (hstep : Step dep life x .elsewhere x') :
    life.After n x' := by
  obtain ⟨hstands, hrow⟩ := h
  cases hstep with
  | elsewhere hfind hattempts _ hlog =>
      refine ⟨fun subscription hsub => ?_, by rw [hfind]; exact hrow⟩
      rw [Session.StandsAt, AttemptStore.hasSuccess, hlog, hattempts]
      exact hstands subscription hsub

/-- The run lemma. -/
theorem After.run (hnodup : (life.subscriptions.map (·.id)).Nodup)
    (hmax : ∀ subscription ∈ life.subscriptions, 0 ≤ subscription.maxRetries)
    {events : List Event} (hrun : Steps (Step dep life) x events x') (h : life.After n x) :
    life.After (n + events.count .round) x' := by
  induction hrun generalizing n with
  | nil => exact h
  | @cons x x₁ x' event events hstep _ ih =>
      cases event with
      | round =>
          rw [List.count_cons_self, Nat.add_comm _ 1, ← Nat.add_assoc]
          exact ih (h.round hnodup hmax hstep)
      | elsewhere =>
          rw [List.count_cons_of_ne (by decide)]
          exact ih (h.elsewhere hstep)

/-- What the tries have come to when they are final. -/
theorem After.final {life : Life} (h : life.After n x) {subscription : WebhookSubscription}
    (hsub : subscription ∈ life.subscriptions) (hmax : 0 ≤ subscription.maxRetries)
    (hn : (n : ℤ) ≤ life.maxRetries + 1)
    (hfinal : (life.tries n subscription).succeeded = false →
      min n subscription.tries = life.budget subscription) :
    (callsTo x.log subscription.id : ℕ∞) =
        min (firstSuccess (life.ok subscription.id)) (life.budget subscription) ∧
      ((life.tries n subscription).succeeded = true ↔
        firstSuccess (life.ok subscription.id) ≤ life.budget subscription) := by
  rw [(h.standsAt subscription hsub).1]
  refine Tries.after_final ?_ ?_
  · rw [budget, WebhookSubscription.tries]
    omega
  · cases hs : (life.tries n subscription).succeeded with
    | true => exact .inl hs
    | false => exact .inr (hfinal hs)

end Life

/-! ## Rehearsed lives -/

/-- An answer by the oracle that finds the lock held; whatever the draw and the clock, nothing is said of the
retry policy. -/
def Call.Held (ok : Guid → ℕ → Bool) (log : List Entry) : (c : Call) → c.Ans → Prop
  | .deliver _ subscription _, a => ∃ r, a = Except.ok r ∧
      r.success = ok subscription.id (callsTo log subscription.id + 1)
  | .markAsProcessed _ _, a => a = Except.ok true
  | .incrementRetry _ _ _ _, a => a = Except.ok true
  | .markAsDeadLettered _ _, a => a = Except.ok true
  | _, _ => True

/-- Whether a reading of the clock is in the range of dates. -/
def isDate (t : DateTimeOffset) : Bool := 0 ≤ t && t ≤ maxTicks

theorem addTime_zero {t : DateTimeOffset} (h : isDate t = true) : addTime t 0 = .ok t := by
  unfold isDate at h
  rw [Bool.and_eq_true, decide_eq_true_eq, decide_eq_true_eq] at h
  unfold addTime
  rw [Int.add_zero, if_pos h]

/-- A test for such an answer, with a clock in the range of dates. -/
def Call.held (ok : Guid → ℕ → Bool) (log : List Entry) : (c : Call) → c.Ans → Bool
  | .deliver _ subscription _, .ok r => r.success = ok subscription.id (callsTo log subscription.id + 1)
  | .deliver _ _ _, .error _ => false
  | .markAsProcessed _ _, .ok b => b
  | .markAsProcessed _ _, .error _ => false
  | .incrementRetry _ _ _ _, .ok b => b
  | .incrementRetry _ _ _ _, .error _ => false
  | .markAsDeadLettered _ _, .ok b => b
  | .markAsDeadLettered _ _, .error _ => false
  | .utcNow, t => isDate t
  | _, _ => true

theorem Call.Held.of_held {ok : Guid → ℕ → Bool} {log : List Entry} {c : Call} {a : c.Ans}
    (h : c.held ok log a = true) : c.Held ok log a := by
  cases c with
  | deliver =>
      cases a with
      | ok r => exact ⟨r, rfl, of_decide_eq_true h⟩
      | error e => cases h
  | markAsProcessed =>
      cases a with
      | ok b => exact congrArg Except.ok h
      | error e => cases h
  | incrementRetry =>
      cases a with
      | ok b => exact congrArg Except.ok h
      | error e => cases h
  | markAsDeadLettered =>
      cases a with
      | ok b => exact congrArg Except.ok h
      | error e => cases h
  | _ => trivial

/-- A policy that gives no delay but zero. -/
def RetryPolicy.Instant (policy : RetryPolicy) : Prop :=
  ∀ retryCount draw, ∃ delay, policy.getNextDelay retryCount draw = .ok delay ∧ ∀ d ∈ delay, d = 0

/-- With such a policy the back-off does not throw. -/
theorem Call.Faultless.of_held {policy : RetryPolicy} (hpolicy : policy.Instant) (m : OutboxMessage)
    {ok : Guid → ℕ → Bool} {log : List Entry} {c : Call} {a : c.Ans} (h : c.held ok log a = true) :
    c.Faultless policy m ok log a := by
  have hheld := Call.Held.of_held h
  cases c with
  | nextDouble =>
      obtain ⟨delay, hdelay, -⟩ := hpolicy m.retryCount a
      exact ⟨delay, hdelay⟩
  | utcNow =>
      intro draw delay _ _ hdelay
      obtain ⟨delay', hdelay', hzero⟩ := hpolicy m.retryCount draw
      obtain rfl : delay' = some delay := Except.ok.inj (hdelay'.symm.trans hdelay)
      rw [hzero delay rfl]
      exact ⟨a, addTime_zero h⟩
  | _ => exact hheld

namespace Life

/-- A round on the first message of a batch of the cold path, made at the time given with the replies
given. -/
def move (dep : Deployment) (life : Life) (p : Pipeline) (x : Session)
    (q : DateTimeOffset × List Reply) : Option (Event × Session) :=
  if x.db.now ≤ q.1 then
    match lockNextBatchAsync dep p.options q.1 p.options.batchSize p.options.defaultVisibilityTimeout
        p.options.instanceId [] x.db.messages.rows x.db.messages with
    | some (m :: _, messages) =>
        if m.id = life.messageId then
          ((p.processSingleMessageAsync ⟨false, []⟩ m p.options.instanceId life.subscriptions).run.replay
            (Session.serve (Database.effect? dep) (Call.held life.ok)) q.2
            ⟨⟨messages, x.db.attempts, q.1⟩, x.log⟩).map fun y => (.round, y.2)
        else none
    | _ => none
  else none

variable {life : Life} {p : Pipeline} {x x' : Session} {q : DateTimeOffset × List Reply} {event : Event}

/-- What such a round does. -/
theorem move_spec (h : life.move dep p x q = some (event, x')) : event = .round ∧ x.db.now ≤ q.1 ∧
    ∃ m messages r, Locks dep p life.messageId { x.db with now := q.1 } m messages ∧
      Prog.Exec (fun c x a x' => Database.Effect dep c x.db a x'.db ∧ c.held life.ok x.log a = true ∧
          x'.log = x.log ++ [⟨c, a⟩])
        (p.processSingleMessageAsync ⟨false, []⟩ m p.options.instanceId life.subscriptions).run
        ⟨⟨messages, x.db.attempts, q.1⟩, x.log⟩ r x' := by
  unfold move at h
  split at h
  · next hnow =>
      split at h
      · next m batch messages hlock =>
          split at h
          · next hid =>
              obtain ⟨⟨r, y⟩, hreplay, heq⟩ := Option.map_eq_some_iff.mp h
              cases heq
              refine ⟨rfl, hnow, m, messages, r, .cold (.refl _) hlock List.mem_cons_self hid, ?_⟩
              refine Prog.Exec.of_replay (fun c q x a x' hserve => ?_) hreplay
              obtain ⟨hanswer, hheld, hlog⟩ := Session.serve_spec hserve
              exact ⟨.of_effect? hanswer, hheld, hlog⟩
          · cases h
      · cases h
  · cases h

/-- A round without faults, if the policy gives no delay but zero. -/
theorem Step.of_move (hlimits : p.retryPolicy.Limits life.maxRetries) (hinstant : p.retryPolicy.Instant)
    (hstarts : p.Starts) (h : life.move dep p x q = some (event, x')) : Step dep life x event x' := by
  obtain ⟨rfl, hnow, m, messages, r, hlocks, hexec⟩ := move_spec h
  have hloop : ¬ (⟨false, []⟩ : LoopSchedule).cancels := by simp [LoopSchedule.cancels]
  refine .round hnow hlocks hlimits hstarts hloop (hexec.mono fun c x a x' hcall => ?_)
  obtain ⟨heffect, hheld, hlog⟩ := hcall
  exact ⟨⟨x.db.now, le_rfl, heffect⟩, .of_held hinstant m hheld, hlog⟩

/-! ## The theorem -/

/-- Where the message is after `rounds` rounds: at most one more than the limit of the policy were made, and
if so many were made the message has reached its end.  At the end the deliverer was called for each
subscription as often as it takes until its first success, within its budget; and the message is delivered
if every subscription has succeeded within its budget, and dead-lettered otherwise. -/
def Ends (life : Life) (rounds : ℕ) (x : Session) : Prop :=
  (rounds : ℤ) ≤ life.maxRetries + 1 ∧
  ∃ row, x.db.messages.find? life.messageId = some row ∧
    ((row.status = .pending ∧ (rounds : ℤ) < life.maxRetries + 1) ∨
      ((∀ subscription ∈ life.subscriptions, (callsTo x.log subscription.id : ℕ∞) =
          min (firstSuccess (life.ok subscription.id)) (life.budget subscription)) ∧
        ((row.status = .delivered ∧ ∀ subscription ∈ life.subscriptions,
            firstSuccess (life.ok subscription.id) ≤ life.budget subscription) ∨
          (row.status = .deadLettered ∧ ¬ ∀ subscription ∈ life.subscriptions,
            firstSuccess (life.ok subscription.id) ≤ life.budget subscription))))

/-- **The whole life of a message without faults.** Take subscriptions with distinct ids, any results of
the deliveries by their number, retry policies with one limit, a message without retries and attempts, and
any run of rounds on it in which nothing throws and no lock is lost.  There are at most as many rounds as
the limit and one more, and if there are as many the message has reached its end, as the results and the
budgets of the subscriptions have it. -/
theorem life_without_faults (life : Life) (hnodup : (life.subscriptions.map (·.id)).Nodup)
    (hmax : ∀ subscription ∈ life.subscriptions, 0 ≤ subscription.maxRetries)
    (hN : 0 ≤ life.maxRetries) {db : Database} (hfresh : life.Fresh db)
    {events : List Event} {x : Session} (hrun : Steps (Step dep life) ⟨db, []⟩ events x) :
    life.Ends (events.count .round) x := by
  have hafter := After.run hnodup hmax hrun (hfresh.after hN)
  rw [Nat.zero_add] at hafter
  obtain ⟨row, hrow, hend⟩ := hafter.row
  cases hend with
  | pending hstatus _ hle => exact ⟨by omega, row, hrow, .inl ⟨hstatus, by omega⟩⟩
  | delivered hstatus hle hall =>
      have hfinal := fun subscription (hsub : subscription ∈ life.subscriptions) =>
        hafter.final hsub (hmax subscription hsub) hle fun hno => by rw [hall subscription hsub] at hno; cases hno
      exact ⟨hle, row, hrow, .inr ⟨fun subscription hsub => (hfinal subscription hsub).1, .inl
        ⟨hstatus, fun subscription hsub => (hfinal subscription hsub).2.mp (hall subscription hsub)⟩⟩⟩
  | deadLettered hstatus hle hunfinished hused =>
      have hfinal := fun subscription (hsub : subscription ∈ life.subscriptions) =>
        hafter.final hsub (hmax subscription hsub) hle (hused subscription hsub)
      refine ⟨hle, row, hrow, .inr ⟨fun subscription hsub => (hfinal subscription hsub).1, .inr
        ⟨hstatus, fun hall => ?_⟩⟩⟩
      obtain ⟨subscription, hsub, hno⟩ := hunfinished
      rw [(hfinal subscription hsub).2.mpr (hall subscription hsub)] at hno
      cases hno

/-! ## A life with every kind of subscription -/

/-- A message with three subscriptions: one that takes it at once, one that is tried once and in vain, and
one that takes it the second time. -/
def invoiceLife : Life where
  messageId := 1
  subscriptions := [invoiceSubscription 7 (some []), { invoiceSubscription 8 (some []) with maxRetries := 0 },
    invoiceSubscription 9 (some [])]
  maxRetries := 1
  ok s k := s = 7 || s = 9 && k = 2

/-- Its row before it is locked. -/
def publishedInvoice : OutboxMessage :=
  OutboxStore.directRow 0 ⟨1, text "invoice.paid", [], none, none, none, none, none, none⟩

/-- The pipeline of its workers, which retries at once. -/
def instantPipeline : Pipeline :=
  { fixedDelayPipeline with
    retryPolicy := ExponentialBackoff.doublePolicy { maxRetries := 1, baseDelay := 0 }
    sha256 := .sparse }

/-- Without a base delay the delay is zero. -/
theorem fromMilliseconds_finalDelayMs {options : RetryPolicyOptions} (hbase : options.baseDelay = 0)
    (hmax : 0 ≤ options.maxDelay) (retryCount : ℤ) (draw : ℚ) :
    fromMilliseconds (ExponentialBackoff.finalDelayMs options retryCount draw) = .ok 0 := by
  have hcap : ExponentialBackoff.cappedDelayMs options retryCount = 0 := by
    have hle : (0 : ℚ) ≤ totalMilliseconds options.maxDelay := by
      unfold totalMilliseconds
      positivity
    unfold ExponentialBackoff.cappedDelayMs
    rw [hbase]
    simpa [totalMilliseconds] using hle
  have hfinal : ExponentialBackoff.finalDelayMs options retryCount draw = 0 := by
    simp [ExponentialBackoff.finalDelayMs, hcap]
  rw [hfinal]
  decide +kernel

theorem instantPipeline_instant : instantPipeline.retryPolicy.Instant := by
  intro retryCount draw
  have hlimits := ExponentialBackoff.doublePolicy_limits { maxRetries := 1, baseDelay := 0 }
  by_cases hlt : retryCount < 1
  · have hnumber : ExponentialBackoff.notANumber { maxRetries := 1, baseDelay := 0 } retryCount = false := by
      have hsmall : ¬ 1024 ≤ retryCount := by omega
      simp [ExponentialBackoff.notANumber, hsmall]
    refine ⟨some 0, ?_, fun d hd => (Option.mem_some_iff.mp hd).symm⟩
    refine (ExponentialBackoff.getNextDelayDouble_eq hnumber draw).trans ?_
    have hretry : ExponentialBackoff.shouldRetry { maxRetries := 1, baseDelay := 0 } retryCount = true :=
      decide_eq_true hlt
    rw [ExponentialBackoff.getNextDelay, if_pos hretry, fromMilliseconds_finalDelayMs rfl (by decide)]
    rfl
  · exact ⟨none, hlimits.none_of_le retryCount draw (not_lt.mp hlt), nofun⟩

/-- The replies to its two rounds: all three deliveries, then the third again. -/
def invoiceReplies : List (DateTimeOffset × List Reply) :=
  [(1000, [.done, .returned (.ok ⟨true, some 200, none, none, 5⟩), .time 2000,
      .returned (.ok ⟨false, some 500, none, none, 5⟩), .time 3000,
      .returned (.ok ⟨false, some 500, none, none, 5⟩), .time 4000, .done, .drew (1 / 2), .time 5000, .done,
      .done]),
    (10000, [.done, .returned (.ok ⟨true, some 200, none, none, 5⟩), .time 11000, .done, .done, .done])]

/-- The database when it has been published. -/
def publishedInvoices : Database := ⟨⟨[publishedInvoice], by simp⟩, Table.empty, 0⟩

theorem fresh_publishedInvoices {life : Life} (hid : life.messageId = 1) : life.Fresh publishedInvoices := by
  refine ⟨⟨publishedInvoice, ?_, rfl, rfl⟩, fun _ => rfl⟩
  rw [hid]
  rfl

theorem invoice_run : ∃ x : Session, Steps (Step (Deployment.binary .directSql) invoiceLife)
      ⟨publishedInvoices, []⟩ [.round, .round] x ∧
    callsTo x.log 7 = 1 ∧ callsTo x.log 8 = 1 ∧ callsTo x.log 9 = 2 := by
  have hplayed : (follow (move (Deployment.binary .directSql) invoiceLife instantPipeline)
      ⟨publishedInvoices, []⟩ invoiceReplies).map
        (fun y => (y.1, callsTo y.2.log 7, callsTo y.2.log 8, callsTo y.2.log 9)) =
      some ([.round, .round], 1, 1, 2) := by
    decide +kernel
  have hmove : ∀ x q event x', move (Deployment.binary .directSql) invoiceLife instantPipeline x q =
      some (event, x') → Step (Deployment.binary .directSql) invoiceLife x event x' := fun _ _ _ _ =>
    .of_move (ExponentialBackoff.doublePolicy_limits _) instantPipeline_instant ⟨some 4, rfl⟩
  obtain ⟨events, x, hrun, hcalls⟩ := Steps.of_follow_map hmove hplayed
  simp only [Prod.mk.injEq] at hcalls
  obtain ⟨rfl, hcalls⟩ := hcalls
  exact ⟨x, hrun, hcalls⟩

/-- It is dead-lettered after two rounds, since the second subscription has had its only delivery. -/
theorem life_without_faults_invoice : ∃ (x : Session) (row : OutboxMessage),
    Steps (Step (Deployment.binary .directSql) invoiceLife) ⟨publishedInvoices, []⟩ [.round, .round] x ∧
    callsTo x.log 7 = 1 ∧ callsTo x.log 8 = 1 ∧ callsTo x.log 9 = 2 ∧
    x.db.messages.find? 1 = some row ∧ row.status = .deadLettered ∧
    ∀ subscription ∈ invoiceLife.subscriptions, (callsTo x.log subscription.id : ℕ∞) =
      min (firstSuccess (invoiceLife.ok subscription.id)) (invoiceLife.budget subscription) := by
  obtain ⟨x, hrun, h₇, h₈, h₉⟩ := invoice_run
  obtain ⟨-, row, hrow, hend⟩ := life_without_faults invoiceLife (by decide) (by decide) (by decide)
    (fresh_publishedInvoices rfl) hrun
  rcases hend with ⟨-, hlt⟩ | ⟨hcalls, hend⟩
  · exact absurd hlt (by decide)
  · have hnever : ¬ firstSuccess (invoiceLife.ok 8) ≤ (1 : ℕ) := by
      rw [firstSuccess_le_iff]
      rintro ⟨k, -, -, hok⟩
      simp [invoiceLife] at hok
    refine ⟨x, row, hrun, h₇, h₈, h₉, hrow, ?_, hcalls⟩
    rcases hend with ⟨-, hall⟩ | ⟨hstatus, -⟩
    · exact absurd (hall { invoiceSubscription 8 (some []) with maxRetries := 0 } (by simp [invoiceLife])) hnever
    · exact hstatus

/-! ## When only the store and the deliverer work -/

/-- A call answered by the oracle that finds the lock held, made at some later time. -/
def HeldCall (dep : Deployment) (ok : Guid → ℕ → Bool) (c : Call) (x : Session) (a : c.Ans) (x' : Session) :
    Prop :=
  (∃ now, x.db.now ≤ now ∧ Database.Effect dep c { x.db with now := now } a x'.db) ∧
    c.Held ok x.log a ∧ x'.log = x.log ++ [⟨c, a⟩]

/-- One step in which no call of the store and no delivery throws, and no lock is lost.  The loop over the
subscriptions may be cancelled or not be started, and the back-off may throw. -/
inductive WorkingStep (dep : Deployment) (life : Life) : Session → Event → Session → Prop
  | round {x x' : Session} {now : DateTimeOffset} {p : Pipeline} {loop : LoopSchedule}
      {m : OutboxMessage} {messages : Messages} {r : Except Exn Unit} :
      x.db.now ≤ now → Locks dep p life.messageId { x.db with now := now } m messages →
      p.retryPolicy.Limits life.maxRetries →
      Prog.Exec (HeldCall dep life.ok)
        (p.processSingleMessageAsync loop m p.options.instanceId life.subscriptions).run
        ⟨⟨messages, x.db.attempts, now⟩, x.log⟩ r x' →
      WorkingStep dep life x .round x'
  | elsewhere {x x' : Session} :
      x'.db.messages.find? life.messageId = x.db.messages.find? life.messageId →
      (∀ s, attemptsOf life.messageId s x'.db.attempts = attemptsOf life.messageId s x.db.attempts) →
      x.db.now ≤ x'.db.now → x'.log = x.log →
      WorkingStep dep life x .elsewhere x'

/-- A step without faults is one of them. -/
theorem Step.working (h : Step dep life x event x') : WorkingStep dep life x event x' := by
  cases h with
  | round hnow hlocks hlimits _ _ hexec =>
      refine .round hnow hlocks hlimits (hexec.mono fun c x a x' hcall => ?_)
      obtain ⟨heffect, hanswer, hlog⟩ := hcall
      refine ⟨heffect, ?_, hlog⟩
      cases c <;> first | exact hanswer | trivial
  | elsewhere hfind hattempts hnow hlog => exact .elsewhere hfind hattempts hnow hlog

theorem WorkingStep.of_move (hlimits : p.retryPolicy.Limits life.maxRetries)
    (h : life.move dep p x q = some (event, x')) : WorkingStep dep life x event x' := by
  obtain ⟨rfl, hnow, m, messages, r, hlocks, hexec⟩ := move_spec h
  refine .round hnow hlocks hlimits (hexec.mono fun c x a x' hcall => ?_)
  obtain ⟨heffect, hheld, hlog⟩ := hcall
  exact ⟨⟨x.db.now, le_rfl, heffect⟩, .of_held hheld, hlog⟩

/-- A message with one subscription, whose deliveries fail. -/
def failingLife : Life where
  messageId := 1
  subscriptions := [invoiceSubscription 7 (some [])]
  maxRetries := 1
  ok _ _ := false

/-- A pipeline whose delays are as long as a `TimeSpan` can be, before jitter. -/
def endlessPipeline : Pipeline :=
  { instantPipeline with
    retryPolicy := ExponentialBackoff.doublePolicy
      { maxRetries := 1, baseDelay := TimeSpan.max, maxDelay := TimeSpan.max } }

/-- A pipeline with a degree of parallelism that `ParallelOptions` refuses. -/
def degreelessPipeline : Pipeline :=
  { instantPipeline with
    options := { instantPipeline.options with maxConcurrentSubscriptionDeliveries := 0 } }

/-- A round in which the delivery fails, the attempt is saved, and the back-off throws. -/
def endlessRound (now : DateTimeOffset) : DateTimeOffset × List Reply :=
  (now, [.done, .returned (.ok ⟨false, some 500, none, none, 5⟩), .time (now + 1), .done, .drew (3 / 4)])

/-- **Lives that do not end as they should.** With a limit of one retry, three rounds are made of which each
delivers, and the message is still locked: the back-off throws, so no retry is counted.  And a message is
dead-lettered without a delivery: the loop over its subscriptions is never started. -/
theorem life_not_ended : failingLife.Fresh publishedInvoices ∧
    (∃ x : Session, Steps (WorkingStep (Deployment.binary .directSql) failingLife)
        ⟨publishedInvoices, []⟩ [.round, .round, .round] x ∧
      x.db.messages.rows.map (fun m => (m.status, m.retryCount)) = [(.processing, 0)] ∧
      callsTo x.log 7 = 3 ∧ ¬ failingLife.Ends 3 x) ∧
    ∃ x : Session, Steps (WorkingStep (Deployment.binary .directSql) failingLife)
        ⟨publishedInvoices, []⟩ [.round, .round] x ∧
      x.db.messages.rows.map (fun m => (m.status, m.retryCount)) = [(.deadLettered, 1)] ∧
      callsTo x.log 7 = 0 ∧ ¬ failingLife.Ends 2 x := by
  have hlimits : ∀ options : RetryPolicyOptions, options.maxRetries = 1 →
      (ExponentialBackoff.doublePolicy options).Limits failingLife.maxRetries := by
    intro options hmax
    have h := ExponentialBackoff.doublePolicy_limits options
    rwa [hmax] at h
  refine ⟨fresh_publishedInvoices rfl, ?_, ?_⟩
  · have hplayed : (follow (move (Deployment.binary .directSql) failingLife endlessPipeline)
        ⟨publishedInvoices, []⟩ [endlessRound 1000, endlessRound 4000000000, endlessRound 8000000000]).map
          (fun y => (y.1, y.2.db.messages.rows.map (fun m => (m.status, m.retryCount)), callsTo y.2.log 7)) =
        some ([.round, .round, .round], [(.processing, 0)], 3) := by
      decide +kernel
    have hmove : ∀ x q event x', move (Deployment.binary .directSql) failingLife endlessPipeline x q =
        some (event, x') → WorkingStep (Deployment.binary .directSql) failingLife x event x' :=
      fun _ _ _ _ => .of_move (hlimits _ rfl)
    obtain ⟨events, x, hrun, hobserved⟩ := Steps.of_follow_map hmove hplayed
    simp only [Prod.mk.injEq] at hobserved
    obtain ⟨rfl, hrow, hcalls⟩ := hobserved
    exact ⟨x, hrun, hrow, hcalls, fun hends => absurd hends.1 (by decide)⟩
  · have hplayed : (follow (move (Deployment.binary .directSql) failingLife degreelessPipeline)
        ⟨publishedInvoices, []⟩ [(1000, [.done, .drew (1 / 2), .time 2000, .done, .done]),
          (10000, [.done, .drew (1 / 2), .done, .done])]).map
          (fun y => (y.1, y.2.db.messages.rows.map (fun m => (m.status, m.retryCount)), callsTo y.2.log 7)) =
        some ([.round, .round], [(.deadLettered, 1)], 0) := by
      decide +kernel
    have hmove : ∀ x q event x', move (Deployment.binary .directSql) failingLife degreelessPipeline x q =
        some (event, x') → WorkingStep (Deployment.binary .directSql) failingLife x event x' :=
      fun _ _ _ _ => .of_move (hlimits _ rfl)
    obtain ⟨events, x, hrun, hobserved⟩ := Steps.of_follow_map hmove hplayed
    simp only [Prod.mk.injEq] at hobserved
    obtain ⟨rfl, hrow, hcalls⟩ := hobserved
    refine ⟨x, hrun, hrow, hcalls, ?_⟩
    rintro ⟨-, row, hfind, hend⟩
    rcases hend with ⟨-, hlt⟩ | ⟨hmade, -⟩
    · exact absurd hlt (by decide)
    · -- one delivery is due at least
      have hnone : (callsTo x.log 7 : ℕ∞) = min (firstSuccess fun _ => false) (2 : ℕ) :=
        hmade _ List.mem_cons_self
      rw [hcalls] at hnone
      have hsuccess : firstSuccess (fun _ => false) ≤ (0 : ℕ) := by
        rcases min_eq_iff.mp hnone.symm with ⟨hzero, -⟩ | ⟨htwo, -⟩
        · exact hzero.le
        · exact absurd htwo (by decide)
      obtain ⟨k, -, -, hok⟩ := firstSuccess_le_iff.mp hsuccess
      cases hok

end Life

end OutboxNet
