import OutboxNet.Store.PublishRoundTrip
import OutboxNet.System.Outbox

/-!
# Only what was committed is processed

A publisher inserts its rows in the transaction of its caller, and leaves its hints before the transaction
ends.  Whatever the hints name, workers get messages of transactions that have committed, with the content
that was published; and when such a transaction commits, all its messages come into the table at once.
A message whose transaction is rolled back is never acquired.
-/

set_option autoImplicit false

namespace OutboxNet

namespace OutboxStore

variable {m m₁ m₂ : OutboxMessage}

/-- Two versions of the row of one message. -/
structure Version (m m' : OutboxMessage) : Prop where
  id : m'.id = m.id
  content : SameContent m m'

namespace Version

theorem refl (m : OutboxMessage) : Version m m := ⟨rfl, rfl, rfl, rfl, rfl, rfl, rfl, rfl, rfl⟩

theorem trans (h : Version m m₁) (h' : Version m₁ m₂) : Version m m₂ where
  id := h'.id.trans h.id
  content :=
    { eventType := h'.content.eventType.trans h.content.eventType
      payload := h'.content.payload.trans h.content.payload
      correlationId := h'.content.correlationId.trans h.content.correlationId
      traceId := h'.content.traceId.trans h.content.traceId
      headers := h'.content.headers.trans h.content.headers
      tenantId := h'.content.tenantId.trans h.content.tenantId
      userId := h'.content.userId.trans h.content.userId
      entityId := h'.content.entityId.trans h.content.entityId }

theorem lockRow (lockedBy : Text) (until_ : DateTimeOffset) (m : OutboxMessage) :
    Version m (lockRow lockedBy until_ m) := ⟨rfl, rfl, rfl, rfl, rfl, rfl, rfl, rfl, rfl⟩

theorem set (dep : Deployment) (kind : WriteBack) (now : DateTimeOffset) (m : OutboxMessage) :
    Version m (kind.set dep now m) := by
  cases kind <;> exact ⟨rfl, rfl, rfl, rfl, rfl, rfl, rfl, rfl, rfl⟩

theorem unlockAs (status : MessageStatus) (m : OutboxMessage) : Version m (unlockAs status m) :=
  ⟨rfl, rfl, rfl, rfl, rfl, rfl, rfl, rfl, rfl⟩

/-- The rows after an update are versions of those before. -/
theorem of_update {t : Messages} {p : OutboxMessage → Bool} {f : OutboxMessage → OutboxMessage}
    {hf : ∀ m, (f m).id = m.id} (hversion : ∀ m, Version m (f m)) {m' : OutboxMessage}
    (hm' : m' ∈ (t.update p f hf).rows) : ∃ m ∈ t.rows, Version m m' := by
  obtain ⟨m, hm, rfl⟩ := List.mem_map.mp hm'
  refine ⟨m, hm, ?_⟩
  split
  · exact hversion m
  · exact refl m

/-- What an acquisition returns are versions of rows of the table. -/
theorem of_acquired {dep : Deployment} {now : DateTimeOffset} {visibilityTimeout : TimeSpan}
    {lockedBy : Text} {t t' : Messages} {chosen : OutboxMessage → Bool} {until_ : DateTimeOffset}
    {batch : List OutboxMessage}
    (h : Acquired dep now visibilityTimeout lockedBy t chosen until_ batch t') :
    (∀ m' ∈ t'.rows, ∃ m ∈ t.rows, Version m m') ∧ ∀ m' ∈ batch, ∃ m ∈ t.rows, Version m m' := by
  constructor
  · intro m' hm'
    rw [h.table_eq] at hm'
    exact of_update (lockRow lockedBy until_) hm'
  · intro m' hm'
    rw [h.batch_eq] at hm'
    obtain ⟨m, hm, rfl⟩ := List.mem_map.mp hm'
    exact ⟨m, (List.mem_filter.mp hm).1, lockRow lockedBy until_ m⟩

end Version

end OutboxStore

namespace Outbox

open OutboxStore

variable {dep : Deployment} {options : ℕ → OutboxOptions} {s s' : Outbox}

/-- Transaction `i`, which has inserted `rows`, commits. -/
structure Commits (s : Outbox) (i : ℕ) (rows : List OutboxMessage) (s' : Outbox) : Prop where
  transaction : s.transactions[i]? = some rows
  table : s.table.insertAll? rows = some s'.table
  after : s' = { s with table := s'.table, transactions := s.transactions.eraseIdx i }

/-- A transaction that inserted the message, as it was published, has committed on the way to `s`. -/
def Committed (dep : Deployment) (options : ℕ → OutboxOptions) (s : Outbox) (message : OutboxMessage) :
    Prop :=
  ∃ s₁ i rows s₂, Run dep options initial s₁ ∧ Commits s₁ i rows s₂ ∧ Run dep options s₂ s ∧
    ∃ m ∈ rows, Version m message

theorem Committed.version {m m' : OutboxMessage} (h : Committed dep options s m) (hversion : Version m m') :
    Committed dep options s m' := by
  obtain ⟨s₁, i, rows, s₂, hbefore, hcommit, hafter, m₀, hm₀, h₀⟩ := h
  exact ⟨s₁, i, rows, s₂, hbefore, hcommit, hafter, m₀, hm₀, h₀.trans hversion⟩

theorem Committed.step {m : OutboxMessage} (h : Committed dep options s m) (hs : Step dep options s s') :
    Committed dep options s' m := by
  obtain ⟨s₁, i, rows, s₂, hbefore, hcommit, hafter, hm⟩ := h
  exact ⟨s₁, i, rows, s₂, hbefore, hcommit, hafter.tail hs, hm⟩

/-- A row of the table was there before, maybe in another version, or has just been committed. -/
theorem Step.row_version (hs : Step dep options s s') {m' : OutboxMessage} (hm' : m' ∈ s'.table.rows) :
    (∃ m ∈ s.table.rows, Version m m') ∨ ∃ i rows, Commits s i rows s' ∧ m' ∈ rows := by
  have hsame : m' ∈ s.table.rows → ∃ m ∈ s.table.rows, Version m m' := fun hm => ⟨m', hm, .refl m'⟩
  cases hs with
  | beginTransaction => exact .inl (hsame hm')
  | publish => exact .inl (hsame hm')
  | @commit i rows table hrows hins =>
      rcases (Table.mem_insertAll? hins).mp hm' with hold | hnew
      · exact .inl (hsame hold)
      · exact .inr ⟨i, rows, ⟨hrows, hins, rfl⟩, hnew⟩
  | rollback => exact .inl (hsame hm')
  | receive => exact .inl (hsame hm')
  | hotLock _ hlock =>
      obtain ⟨until_, hacq⟩ := tryLockByIdAsync_spec hlock
      exact .inl ((Version.of_acquired hacq).1 m' hm')
  | hotDone => exact .inl (hsame hm')
  | turn => exact .inl (hsame hm')
  | coldLock _ hscan hlock =>
      obtain ⟨chosen, until_, hacq, -⟩ := lockNextBatchAsync_spec hscan hlock
      exact .inl ((Version.of_acquired hacq).1 m' hm')
  | @writeBack w kind now b table _ hrun =>
      obtain ⟨-, hf, rfl⟩ := WriteBack.run_eq hrun
      have hmem : m' ∈ (s.table.update _ (kind.set dep now) hf).rows := hm'
      exact .inl (Version.of_update (Version.set dep kind now) hmem)
  | stop => exact .inl (hsame hm')
  | restart => exact .inl (hsame hm')
  | releaseExpiredLocks now =>
      have hmem : m' ∈ (s.table.update (expired now) (unlockAs .pending) (unlockAs_id .pending)).rows := hm'
      exact .inl (Version.of_update (Version.unlockAs .pending) hmem)
  | purge => exact .inl (hsame (Table.mem_delete.mp hm').1)

/-- A worker was there before, or has got a row of the table. -/
theorem Step.worker_version (hs : Step dep options s s') {x : Worker} (hx : x ∈ s'.workers) :
    x ∈ s.workers ∨ ∃ m ∈ s.table.rows, Version m x.message := by
  -- the messages acquired in one step
  have hnew : ∀ (n : ℕ) (batch : List OutboxMessage), (∀ m' ∈ batch, ∃ m ∈ s.table.rows, Version m m') →
      x ∈ s.workers ++ batch.map (Worker.mk n) →
      x ∈ s.workers ∨ ∃ m ∈ s.table.rows, Version m x.message := by
    intro n batch hbatch hx
    rcases List.mem_append.mp hx with hold | hx
    · exact .inl hold
    · obtain ⟨m', hm', rfl⟩ := List.mem_map.mp hx
      exact .inr (hbatch m' hm')
  cases hs with
  | hotLock _ hlock =>
      obtain ⟨until_, hacq⟩ := tryLockByIdAsync_spec hlock
      exact hnew _ _ (Version.of_acquired hacq).2 hx
  | coldLock _ hscan hlock =>
      obtain ⟨chosen, until_, hacq, -⟩ := lockNextBatchAsync_spec hscan hlock
      exact hnew _ _ (Version.of_acquired hacq).2 hx
  | stop => exact .inl (List.mem_of_mem_erase hx)
  | restart => exact .inl (List.mem_of_mem_filter hx)
  | _ => exact .inl hx

/-- The invariant: rows and workers come from transactions that have committed. -/
structure AllCommitted (dep : Deployment) (options : ℕ → OutboxOptions) (s : Outbox) : Prop where
  reached : Run dep options initial s
  rows : ∀ m ∈ s.table.rows, Committed dep options s m
  workers : ∀ x ∈ s.workers, Committed dep options s x.message

theorem AllCommitted.initial : AllCommitted dep options initial :=
  ⟨.refl, List.forall_mem_nil _, List.forall_mem_nil _⟩

/-- The step lemma. -/
theorem AllCommitted.step (h : AllCommitted dep options s) (hs : Step dep options s s') :
    AllCommitted dep options s' where
  reached := h.reached.tail hs
  rows := by
    intro m' hm'
    rcases hs.row_version hm' with ⟨m, hm, hversion⟩ | ⟨i, rows, hcommit, hnew⟩
    · exact ((h.rows m hm).step hs).version hversion
    · exact ⟨s, i, rows, s', h.reached, hcommit, .refl, m', hnew, .refl m'⟩
  workers := by
    intro x hx
    rcases hs.worker_version hx with hold | ⟨m, hm, hversion⟩
    · exact (h.workers x hold).step hs
    · exact ((h.rows m hm).step hs).version hversion

theorem AllCommitted.run (hrun : Run dep options Outbox.initial s) : AllCommitted dep options s := by
  induction hrun with
  | refl => exact AllCommitted.initial
  | tail _ hs ih => exact ih.step hs

/-- **Only what was committed is processed.** Take any run of any number of publishers and instances, with
any hints lost, early or in vain, any rollbacks, crashes and restarts.  When a worker has a message, a
transaction had inserted it before, with the content that the worker has; that transaction committed; and
with it all the other messages it had inserted were in the table. -/
theorem only_committed_messages (hrun : Run dep options initial s) {x : Worker} (hx : x ∈ s.workers) :
    ∃ s₁ i rows s₂, Run dep options initial s₁ ∧ Commits s₁ i rows s₂ ∧ Run dep options s₂ s ∧
      (∃ m ∈ rows, m.id = x.message.id ∧ SameContent m x.message) ∧
      ∀ m ∈ rows, s₂.table.find? m.id = some m := by
  obtain ⟨s₁, i, rows, s₂, hbefore, hcommit, hafter, m, hm, hversion⟩ :=
    (AllCommitted.run hrun).workers x hx
  refine ⟨s₁, i, rows, s₂, hbefore, hcommit, hafter, ⟨m, hm, hversion.id.symm, hversion.content⟩, ?_⟩
  intro m hm
  exact Table.find?_eq_some_iff.mpr ⟨(Table.mem_insertAll? hcommit.table).mpr (.inr hm), rfl⟩

/-- The hot path gets a message as soon as it is committed. -/
theorem only_committed_messages_order :
    let dep := Deployment.binary .directSql
    let options : ℕ → OutboxOptions := fun _ => { instanceId := text "a" }
    let m := directRow 1000 ⟨1, text "order.placed", [], none, none, none, none, none, none⟩
    ∃ s₁ i rows s₂, Run dep options initial s₁ ∧ Commits s₁ i rows s₂ ∧
      (∃ m' ∈ rows, m'.id = 1 ∧ SameContent m' m) ∧ ∀ m' ∈ rows, s₂.table.find? m'.id = some m' := by
  intro dep options m
  let t : Messages := ⟨[m], List.nodup_singleton _⟩
  let locked := lockRow (text "a") 3000002000 m
  let t' : Messages := ⟨[locked], List.nodup_singleton _⟩
  let s₁ : Outbox := { initial with transactions := [[]] }
  let s₂ : Outbox := setInstance { s₁ with transactions := s₁.transactions.set 0 ([] ++ [m]) } 0
    { s₁.instances 0 with queue := ChannelOutboxSignal.notify (s₁.instances 0).queue m.id }
  let s₃ : Outbox := setInstance s₂ 0 ⟨[], [1], []⟩
  let s₄ : Outbox := { s₃ with table := t, transactions := [] }
  let s₅ : Outbox := { s₄ with table := t', workers := [⟨0, locked⟩] }
  have hrow : publishedRow dep 1000
      ⟨1, text "order.placed", [], none, none, none, none, none, none⟩ = some m := rfl
  have hhint : (s₂.instances 0).queue = 1 :: [] := by decide
  have hinsert : s₃.table.insertAll? [m] = some t := by decide
  have hflight : (1 : Guid) ∈ (s₄.instances 0).hotInFlight := by decide
  have hlock : tryLockByIdAsync dep 2000 1 (options 0).defaultVisibilityTimeout
      (options 0).instanceId s₄.table = some (some locked, t') := by decide
  have h₁ : Step dep options initial s₁ := .beginTransaction initial
  have h₂ : Step dep options s₁ s₂ := .publish (i := 0) (n := 0) rfl hrow
  have h₃ : Step dep options s₂ s₃ := .receive hhint
  have h₄ : Step dep options s₃ s₄ := .commit (i := 0) rfl hinsert
  have h₅ : Step dep options s₄ s₅ := .hotLock hflight hlock
  have hrun : Run dep options initial s₅ := .tail (.tail (.tail (.tail (.single h₁) h₂) h₃) h₄) h₅
  have hworker : (⟨0, locked⟩ : Worker) ∈ s₅.workers := List.mem_singleton_self _
  obtain ⟨s₁, i, rows, s₂, hbefore, hcommit, -, ⟨m', hm', hid, hcontent⟩, hall⟩ :=
    only_committed_messages hrun hworker
  refine ⟨s₁, i, rows, s₂, hbefore, hcommit, ⟨m', hm', hid, ?_⟩, hall⟩
  obtain ⟨he, hp, hc, ht, hh, htenant, hu, hentity⟩ := hcontent
  exact ⟨he, hp, hc, ht, hh, htenant, hu, hentity⟩

end Outbox

end OutboxNet
