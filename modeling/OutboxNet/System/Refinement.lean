import OutboxNet.System.Fencing
import OutboxNet.System.Outbox

/-!
# The rounds refine the outbox

The workers of `System/Outbox.lean` may write back whatever they like.  Those of `System/World.lean` are
rounds that run the code of the processor, call by call, with its faults.  Every run of the rounds is, for
the table and the messages acquired, a run of the outbox.  Each acquisition is made by an instance of its
own: what it has in flight are the ids its scan skips, or the id it locks, which came to it by hints.
A publish is a transaction of its own, and a call of a round is a write-back of its worker, or nothing.
-/

set_option autoImplicit false

namespace OutboxNet

open OutboxStore (publishedRow)

variable {dep : Deployment}

namespace Outbox

variable {options : ℕ → OutboxOptions} {s : Outbox}

/-! ## What an instance has in flight -/

@[simp] theorem setInstance_self (s : Outbox) (n : ℕ) (i : Instance) :
    (setInstance s n i).instances n = i := Function.update_self ..

@[simp] theorem setInstance_setInstance (s : Outbox) (n : ℕ) (i j : Instance) :
    setInstance (setInstance s n i) n j = setInstance s n j := by
  simp only [setInstance, Function.update_idem]

theorem setInstance_eq_self {n : ℕ} {i : Instance} (h : s.instances n = i) : setInstance s n i = s := by
  rw [setInstance, ← h, Function.update_eq_self]

/-- A message may have any id. -/
theorem exists_publishedRow (dep : Deployment) (id : Guid) :
    ∃ a m, publishedRow dep 0 a = some m ∧ m.id = id := by
  refine ⟨⟨id, [], [], none, none, none, none, none, none⟩, ?_⟩
  unfold publishedRow
  cases dep.provider with
  | directSql => exact ⟨_, rfl, rfl⟩
  | efCore => exact ⟨_, rfl, rfl⟩

/-- A transaction that inserts one row; an instance without hints gets one. -/
theorem run_publish (hnone : s.transactions = []) {n : ℕ} (hqueue : (s.instances n).queue = [])
    {now : DateTimeOffset} {a : OutboxStore.PublishArgs} {m : OutboxMessage}
    (hrow : publishedRow dep now a = some m) :
    Run dep options s
      (setInstance { s with transactions := [[m]] } n { s.instances n with queue := [m.id] }) := by
  obtain ⟨table, transactions, instances, workers⟩ := s
  obtain rfl : transactions = [] := hnone
  have hbegin : Step dep options ⟨table, [], instances, workers⟩ ⟨table, [[]], instances, workers⟩ :=
    .beginTransaction _
  have hpublish : Step dep options ⟨table, [[]], instances, workers⟩ (setInstance
      ⟨table, [[m]], instances, workers⟩ n
        { instances n with queue := ChannelOutboxSignal.notify (instances n).queue m.id }) :=
    .publish (s := ⟨table, [[]], instances, workers⟩) (i := 0) (n := n) rfl hrow
  rw [show (instances n).queue = [] from hqueue] at hpublish
  exact .tail (.single hbegin) hpublish

/-- A hint of a transaction that is rolled back is read all the same. -/
theorem run_hint (hnone : s.transactions = []) {n : ℕ} (hqueue : (s.instances n).queue = [])
    (messageId : Guid) :
    Run dep options s (setInstance s n { s.instances n with
      queue := []
      hotInFlight := messageId :: (s.instances n).hotInFlight }) := by
  obtain ⟨a, m, hrow, rfl⟩ := exists_publishedRow dep messageId
  have hpublished : Run dep options s _ := run_publish hnone hqueue hrow
  obtain ⟨table, transactions, instances, workers⟩ := s
  obtain rfl : transactions = [] := hnone
  have hrollback : Step dep options
      (setInstance ⟨table, [[m]], instances, workers⟩ n { instances n with queue := [m.id] })
      (setInstance ⟨table, [], instances, workers⟩ n { instances n with queue := [m.id] }) :=
    .rollback _ 0
  have hreceive : Step dep options
      (setInstance ⟨table, [], instances, workers⟩ n { instances n with queue := [m.id] }) _ :=
    .receive (congrArg Instance.queue (setInstance_self _ n _))
  rw [setInstance_self, setInstance_setInstance] at hreceive
  exact .tail (.tail hpublished hrollback) hreceive

/-- It may have any messages in flight. -/
theorem run_inFlight (hnone : s.transactions = []) {n : ℕ} (hidle : s.instances n = .idle)
    (ids : List Guid) : Run dep options s (setInstance s n ⟨[], ids, []⟩) := by
  induction ids with
  | nil =>
      have hsame : setInstance s n ⟨[], [], []⟩ = s := setInstance_eq_self hidle
      rw [hsame]
  | cons messageId ids ih =>
      have hhint : Run dep options (setInstance s n ⟨[], ids, []⟩) _ :=
        run_hint (s := setInstance s n ⟨[], ids, []⟩) hnone
          (congrArg Instance.queue (setInstance_self s n _)) messageId
      rw [setInstance_self, setInstance_setInstance] at hhint
      exact ih.trans hhint

/-- The cold path may have noted any messages. -/
theorem run_snapshot (hnone : s.transactions = []) {n : ℕ} (hidle : s.instances n = .idle)
    (ids : List Guid) : Run dep options s (setInstance s n ⟨[], ids, ids⟩) := by
  have hturn : Step dep options (setInstance s n ⟨[], ids, []⟩) _ := .turn _ n
  rw [setInstance_self, setInstance_setInstance] at hturn
  exact (run_inFlight hnone hidle ids).tail hturn

/-- A publish and its commit; the instance that got the hint is done with it. -/
theorem run_commit (hnone : s.transactions = []) {n : ℕ} (hidle : s.instances n = .idle)
    {now : DateTimeOffset} {a : OutboxStore.PublishArgs} {m : OutboxMessage}
    (hrow : publishedRow dep now a = some m) {table : Messages} (hins : s.table.insertAll? [m] = some table) :
    Run dep options s { s with table := table } := by
  have hpublished : Run dep options s _ :=
    run_publish hnone (congrArg Instance.queue hidle) hrow
  rw [hidle] at hpublished
  obtain ⟨before, transactions, instances, workers⟩ := s
  obtain rfl : transactions = [] := hnone
  have hcommit : Step dep options (setInstance ⟨before, [[m]], instances, workers⟩ n ⟨[m.id], [], []⟩)
      (setInstance ⟨table, [], instances, workers⟩ n ⟨[m.id], [], []⟩) := .commit (i := 0) rfl hins
  have hreceive : Step dep options (setInstance ⟨table, [], instances, workers⟩ n ⟨[m.id], [], []⟩) _ :=
    .receive (congrArg Instance.queue (setInstance_self _ n _))
  rw [setInstance_self, setInstance_setInstance] at hreceive
  have hdone : Step dep options (setInstance ⟨table, [], instances, workers⟩ n ⟨[], [m.id], []⟩) _ :=
    .hotDone _ n m.id
  rw [setInstance_self, setInstance_setInstance, List.erase_cons_head] at hdone
  have hback : setInstance ⟨table, [], instances, workers⟩ n .idle =
      ⟨table, [], instances, workers⟩ := setInstance_eq_self hidle
  replace hdone := (congrArg (Step dep options _) hback).mp hdone
  exact .tail (.tail (.tail hpublished hcommit) hreceive) hdone

end Outbox

namespace World

open Outbox (setInstance)
open OutboxStore (WriteBack)

variable {exec : Answering} {options : ℕ → OutboxOptions} {w w' : World} {act : Action} {s : Outbox}

/-- Only acquisitions start rounds. -/
theorem Step.length_rounds (hs : Step dep exec w act w') (hact : act ≠ .acquire) :
    w'.rounds.length = w.rounds.length := by
  cases hs with
  | acquireHot => exact absurd rfl hact
  | acquireCold => exact absurd rfl hact
  | begin_ => exact List.length_set
  | call => exact List.length_set
  | _ => rfl

/-! ## The abstraction -/

/-- The outbox has the table of the world, and a worker for each of its rounds, with the message and the
options of the round.  No instance is busy that is not used yet. -/
structure Abstracts (options : ℕ → OutboxOptions) (w : World) (s : Outbox) : Prop where
  table : s.table = w.db.messages
  transactions : s.transactions = []
  idle : ∀ n, w.rounds.length ≤ n → s.instances n = .idle
  length : s.workers.length = w.rounds.length
  workers : ∀ token p m, w.acquisition token = some (p, m) →
    ∃ x, s.workers[token]? = some x ∧ x.message = m ∧ options x.instanceNo = p.options

namespace Abstracts

theorem initial (options : ℕ → OutboxOptions) (now : DateTimeOffset) :
    Abstracts options (initial now) Outbox.initial :=
  ⟨rfl, rfl, fun _ _ => rfl, rfl, fun _ _ _ h => nomatch h⟩

/-- What happens to the table alone. -/
theorem on_table (h : Abstracts options w s) (hlength : w'.rounds.length = w.rounds.length)
    (hacq : w'.acquisition = w.acquisition) :
    Abstracts options w' { s with table := w'.db.messages } where
  table := rfl
  transactions := h.transactions
  idle := by
    rw [hlength]
    exact h.idle
  length := h.length.trans hlength.symm
  workers := by
    rw [hacq]
    exact h.workers

/-- What leaves the table as it is. -/
theorem stays (h : Abstracts options w s) (hmessages : w'.db.messages = w.db.messages)
    (hlength : w'.rounds.length = w.rounds.length) (hacq : w'.acquisition = w.acquisition) :
    Abstracts options w' s := by
  have h' := h.on_table hlength hacq
  rwa [hmessages, ← h.table] at h'

/-- An acquisition that returns messages, by an instance not used yet. -/
theorem acquired (h : Abstracts options w s) {p : Pipeline} {batch : List OutboxMessage}
    (hrounds : w'.rounds = w.rounds ++ batch.map fun m => ⟨p, m, none⟩) (hbatch : batch ≠ [])
    (hoptions : options w.rounds.length = p.options) (i : Instance) :
    Abstracts options w'
      { setInstance s w.rounds.length i with
        table := w'.db.messages
        workers := s.workers ++ batch.map (Worker.mk w.rounds.length) } where
  table := rfl
  transactions := h.transactions
  idle := by
    intro n hn
    have hpos := List.length_pos_iff.mpr hbatch
    rw [hrounds, List.length_append, List.length_map] at hn
    show Function.update s.instances _ i n = _
    rw [Function.update_of_ne (by omega)]
    exact h.idle n (by omega)
  length := by
    rw [hrounds, List.length_append, List.length_append, List.length_map, List.length_map, h.length]
  workers := by
    intro token q m hx
    rw [acquisition_append hrounds] at hx
    show ∃ x, (s.workers ++ _)[token]? = some x ∧ _
    by_cases hlt : token < w.rounds.length
    · rw [if_pos hlt] at hx
      rw [List.getElem?_append_left (h.length ▸ hlt)]
      exact h.workers token q m hx
    · rw [if_neg hlt] at hx
      obtain ⟨m', hm', hpair⟩ := Option.map_eq_some_iff.mp hx
      cases hpair
      have hle : s.workers.length ≤ token := h.length ▸ not_lt.mp hlt
      rw [List.getElem?_append_right hle, List.getElem?_map, h.length, hm']
      exact ⟨_, rfl, rfl, hoptions⟩

/-- An acquisition step. -/
theorem acquire (h : Abstracts options w s) (hs : Step dep exec w .acquire w')
    (hoptions : ∀ token p m, w'.acquisition token = some (p, m) → options token = p.options) :
    ∃ s', Outbox.Run dep options s s' ∧ Abstracts options w' s' := by
  -- an acquisition that returns nothing does nothing
  have hnothing : ∀ {p : Pipeline} {chosen : OutboxMessage → Bool} {until_ : DateTimeOffset},
      OutboxStore.Acquired dep w.db.now p.options.defaultVisibilityTimeout p.options.instanceId
        w.db.messages chosen until_ [] w'.db.messages → w'.rounds = w.rounds →
      Abstracts options w' s := by
    intro p chosen until_ hacq hrounds
    refine h.stays ?_ (congrArg List.length hrounds) ?_
    · rw [hacq.table_eq]
      refine Table.update_eq_self fun m hm => ?_
      by_contra hchosen
      rw [Bool.not_eq_false] at hchosen
      exact absurd (hacq.batch_mem hm hchosen) List.not_mem_nil
    · funext token
      rw [World.acquisition, World.acquisition, hrounds]
  -- what the first message of the batch tells of the instance
  have hfirst : ∀ {p : Pipeline} {m : OutboxMessage} {batch : List OutboxMessage},
      w'.rounds = w.rounds ++ (m :: batch).map (fun m => ⟨p, m, none⟩) →
      options w.rounds.length = p.options := by
    intro p m batch hrounds
    refine hoptions w.rounds.length p m ?_
    rw [acquisition_append hrounds, if_neg (lt_irrefl _), Nat.sub_self]
    rfl
  have hidle := h.idle w.rounds.length le_rfl
  cases hs with
  | @acquireHot p messageId m messages hlock =>
      cases m with
      | none =>
          obtain ⟨until_, hacq⟩ := OutboxStore.tryLockByIdAsync_spec hlock
          exact ⟨s, .refl, hnothing hacq (List.append_nil _)⟩
      | some m =>
          have hopt : options w.rounds.length = p.options := hfirst (p := p) (m := m) rfl
          have hbefore : Outbox.Run dep options s _ := Outbox.run_inFlight h.transactions hidle [messageId]
          have hlocked : OutboxStore.tryLockByIdAsync dep w.db.now messageId
              (options w.rounds.length).defaultVisibilityTimeout (options w.rounds.length).instanceId
              s.table = some (some m, messages) := by
            rw [hopt, h.table]
            exact hlock
          have hstep : Outbox.Step dep options (setInstance s w.rounds.length ⟨[], [messageId], []⟩) _ :=
            .hotLock (by rw [Outbox.setInstance_self]; exact List.mem_cons_self) hlocked
          exact ⟨_, hbefore.tail hstep, h.acquired rfl (List.cons_ne_nil _ _) hopt _⟩
  | @acquireCold p skipIds scan batch messages hscan hlock =>
      cases batch with
      | nil =>
          obtain ⟨chosen, until_, hacq, -⟩ := OutboxStore.lockNextBatchAsync_spec hscan hlock
          exact ⟨s, .refl, hnothing hacq (List.append_nil _)⟩
      | cons m batch =>
          have hopt : options w.rounds.length = p.options := hfirst (p := p) (m := m) rfl
          have hbefore : Outbox.Run dep options s _ := Outbox.run_snapshot h.transactions hidle skipIds
          have hlocked : OutboxStore.lockNextBatchAsync dep (options w.rounds.length) w.db.now
              (options w.rounds.length).batchSize (options w.rounds.length).defaultVisibilityTimeout
              (options w.rounds.length).instanceId skipIds scan s.table = some (m :: batch, messages) := by
            rw [hopt, h.table]
            exact hlock
          have hstep : Outbox.Step dep options (setInstance s w.rounds.length ⟨[], skipIds, skipIds⟩) _ :=
            .coldLock (.inl (by rw [Outbox.setInstance_self])) (h.table ▸ hscan) hlocked
          exact ⟨_, hbefore.tail hstep, h.acquired rfl (List.cons_ne_nil _ _) hopt _⟩

/-- **The step lemma.** The outbox follows every step of the world. -/
theorem step (h : Abstracts options w s) (hexec : Sound dep exec) (hs : Step dep exec w act w')
    (hcoupled : ∃ stages, Coupled w stages)
    (hoptions : ∀ token p m, w'.acquisition token = some (p, m) → options token = p.options) :
    ∃ s', Outbox.Run dep options s s' ∧ Abstracts options w' s' := by
  by_cases hact : act = .acquire
  · subst hact
    exact h.acquire hs hoptions
  have hacq := hs.acquisition hact
  have hlength := hs.length_rounds hact
  have hsame : w'.db.messages = w.db.messages →
      ∃ s', Outbox.Run dep options s s' ∧ Abstracts options w' s' :=
    fun hmessages => ⟨s, .refl, h.stays hmessages hlength hacq⟩
  have htable : Outbox.Run dep options s { s with table := w'.db.messages } →
      ∃ s', Outbox.Run dep options s s' ∧ Abstracts options w' s' :=
    fun hrun => ⟨_, hrun, h.on_table hlength hacq⟩
  cases hs with
  | tick => exact hsame rfl
  | publish hrow _ hins =>
      rw [← h.table] at hins
      exact htable (Outbox.run_commit h.transactions (h.idle _ le_rfl) hrow hins)
  | acquireHot => exact absurd rfl hact
  | acquireCold => exact absurd rfl hact
  | begin_ => exact hsame rfl
  | @call token r work c k a db hr hwork hprog hcall =>
      have hcalled : Step dep exec w (.call token ⟨c, a⟩) _ := .call hr hwork hprog hcall
      obtain ⟨stages, hstages⟩ := hcoupled
      obtain ⟨stages', -, hst⟩ := hstages.step hcalled
      cases hexec hcall with
      | none => exact hsame rfl
      | saved => exact hsame rfl
      | @wroteBack kind messageId lockedBy b messages hc hrun =>
          -- the write-back is one of the worker of this round
          obtain ⟨rfl, rfl⟩ := hst.addressed hr hc
          obtain ⟨x, hx, hmessage, hopt⟩ := h.workers token _ _ (acquisition_eq_some hr)
          have hrun' : kind.run dep w.db.now x.message.id (options x.instanceNo).instanceId s.table =
              some (b, messages) := by
            rw [hmessage, hopt, h.table]
            exact hrun
          exact htable (.single (.writeBack (List.mem_of_getElem? hx) hrun'))
  | releaseExpiredLocks =>
      have hstep : Outbox.Step dep options s _ := .releaseExpiredLocks s w.db.now
      rw [h.table] at hstep
      exact htable (.single hstep)
  | @purgeMessages olderThan messages hmessages =>
      have hstep : Outbox.Step dep options s _ := .purge s olderThan
      rw [h.table, ← hmessages] at hstep
      exact htable (.single hstep)
  | purgeAttempts => exact hsame rfl

/-- The run lemma; the options are those of the rounds in the end. -/
theorem run {acts : List Action} (hrun : Run dep exec w acts w') (hexec : Sound dep exec)
    (hcoupled : ∃ stages, Coupled w stages)
    (hoptions : ∀ token p m, w'.acquisition token = some (p, m) → options token = p.options)
    (h : Abstracts options w s) : ∃ s', Outbox.Run dep options s s' ∧ Abstracts options w' s' := by
  induction hrun generalizing s with
  | nil w => exact ⟨s, .refl, h⟩
  | @cons w w₁ w' act acts hs hrest ih =>
      have hlater : ∀ token x, w₁.acquisition token = some x → w'.acquisition token = some x :=
        fun token x => hrest.invariant (fun w => w.acquisition token = some x)
          (fun _ _ _ hx hs => hs.acquisition_mono hx)
      obtain ⟨s₁, hfirst, h₁⟩ := h.step hexec hs hcoupled
        fun token p m hx => hoptions token p m (hlater token _ hx)
      obtain ⟨stages, hstages⟩ := hcoupled
      obtain ⟨stages₁, hstages₁, -⟩ := hstages.step hs
      obtain ⟨s', hsecond, h'⟩ := ih ⟨stages₁, hstages₁⟩ hoptions h₁
      exact ⟨s', hfirst.trans hsecond, h'⟩

end Abstracts

/-- The options of the acquisition with a token. -/
def optionsOf (w : World) (token : ℕ) : OutboxOptions :=
  ((w.acquisition token).map fun x => x.1.options).getD { instanceId := [] }

/-- **The rounds refine the outbox.** Take any run of any number of workers that run the code of the
processor, in either mode, with any interleaving, crashes and faults of the database.  There is a run of the
outbox with abstract workers that leads to the same table, and to a worker for each acquisition, with the
message that was acquired and an instance of the same options. -/
theorem rounds_refine_outbox {now : DateTimeOffset} {acts : List Action}
    (hrun : Run dep (Database.Exec dep) (initial now) acts w) :
    ∃ (options : ℕ → OutboxOptions) (s : Outbox), Outbox.Run dep options Outbox.initial s ∧
      s.table = w.db.messages ∧ s.workers.length = w.rounds.length ∧
      ∀ (token : ℕ) (r : Round), w.rounds[token]? = some r → ∃ x, s.workers[token]? = some x ∧
        x.message = r.message ∧ options x.instanceNo = r.pipeline.options := by
  have hoptions : ∀ token p m, w.acquisition token = some (p, m) → w.optionsOf token = p.options := by
    intro token p m hx
    rw [optionsOf, hx]
    rfl
  obtain ⟨s, hrun', h⟩ := Abstracts.run hrun sound_exec ⟨fun _ => .start, Coupled.initial now _⟩ hoptions
    (Abstracts.initial w.optionsOf now)
  exact ⟨_, s, hrun', h.table, h.length, fun token r hr => h.workers token _ _ (acquisition_eq_some hr)⟩

/-- The order that is acquired. -/
theorem rounds_refine_outbox_order : ∃ (options : ℕ → OutboxOptions) (s : Outbox),
    Outbox.Run sqlServer options Outbox.initial s ∧ s.table.rows = [orderRow₁] ∧
      s.workers.map Worker.message = [orderRow₁] := by
  obtain ⟨options, s, hrun, htable, hlength, hworkers⟩ :=
    rounds_refine_outbox (acquired_run (Database.Exec sqlServer))
  obtain ⟨x, hx, hmessage, -⟩ := hworkers 0 _ rfl
  refine ⟨options, s, hrun, congrArg Table.rows htable, ?_⟩
  obtain ⟨y, hy⟩ := List.length_eq_one_iff.mp (show s.workers.length = 1 from hlength)
  rw [hy] at hx ⊢
  cases hx
  exact congrArg (fun m => [m]) hmessage

end World

end OutboxNet
