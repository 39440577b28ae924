import OutboxNet.System.World

/-!
# Fencing of lost locks

The token of an acquisition is the position of its round.  The lock a row carries is always that of the
last acquisition of its message.  A write-back checks the instance name only, so it goes through exactly
when that last acquisition was made under the same name: it may be a later one than the writer's own,
made by another worker of its instance, but never one of another instance.
-/

set_option autoImplicit false

namespace OutboxNet

open OutboxStore (TableOk lockRow due heldBy writeBackParam WriteBack)

/-! ## The addresses of write-backs -/

section Addressed

variable {c : Call} {kind : WriteBack} {messageId : Guid} {lockedBy : Text}

/-- A round in direct delivery writes back to its own message under its own instance name. -/
theorem Job.Trans.addressed {job : Job} {s s' : Stage} {a : c.Ans} (h : job.Trans c s a s')
    (hc : c.writeBack? = some (kind, messageId, lockedBy)) :
    messageId = job.message.id ∧ lockedBy = job.lockedBy := by
  induction h with
  | nothingToSave _ _ _ ih => exact ih hc
  | faulted _ _ ih => exact ih hc
  | retry _ _ ih => exact ih hc
  | noSubscriptions => cases hc; exact ⟨rfl, rfl⟩
  | processed => cases hc; exact ⟨rfl, rfl⟩
  | deadLetter => cases hc; exact ⟨rfl, rfl⟩
  | incrementRetry => cases hc; exact ⟨rfl, rfl⟩
  | giveUp => cases hc; exact ⟨rfl, rfl⟩
  | _ => cases hc

/-- So does a queue-mediated round. -/
theorem Call.OfQueued.addressed {message : OutboxMessage} {by_ : Text} (h : c.OfQueued message by_)
    (hc : c.writeBack? = some (kind, messageId, lockedBy)) :
    messageId = message.id ∧ lockedBy = by_ := by
  cases c <;> cases hc <;> exact h

end Addressed

namespace World

variable {dep : Deployment} {exec : Answering}

/-! ## What an acquisition does to one message -/

/-- The acquisitions after an acquisition step: the old ones, then those of the batch. -/
theorem acquisition_append {w w' : World} {p : Pipeline} {batch : List OutboxMessage}
    (h : w'.rounds = w.rounds ++ batch.map fun m => ⟨p, m, none⟩) (token : ℕ) :
    w'.acquisition token =
      if token < w.rounds.length then w.acquisition token
      else (batch[token - w.rounds.length]?).map fun m => (p, m) := by
  unfold acquisition
  rw [h]
  split
  · next hlt => rw [List.getElem?_append_left hlt]
  · next hge =>
      rw [List.getElem?_append_right (not_lt.mp hge), List.getElem?_map, Option.map_map]
      rfl

/-- An acquisition step leaves a message and its acquisitions alone, or it locks the row of the message
and becomes its last acquisition. -/
theorem Step.acquire_row {w w' : World} (h : Step dep exec w .acquire w') (k : Guid) :
    (w'.db.messages.find? k = w.db.messages.find? k ∧
      ∀ token x, w'.acquisition token = some x → x.2.id = k → token < w.rounds.length) ∨
    ∃ m p until_ token, w.db.messages.find? k = some m ∧
      (m.status = .pending ∨ m.status = .processing) ∧ due w.db.now m = true ∧
      dateAddSeconds (dep.castSeconds p.options.defaultVisibilityTimeout) w.db.now = some until_ ∧
      w'.db.messages.find? k = some (lockRow p.options.instanceId until_ m) ∧
      w.rounds.length ≤ token ∧
      w'.acquisition token = some (p, lockRow p.options.instanceId until_ m) ∧
      ∀ token' x, w.rounds.length ≤ token' → w'.acquisition token' = some x → x.2.id = k →
        token' = token := by
  obtain ⟨p, chosen, until_, batch, hacq, hrounds, -⟩ := h.acquired
  have happ := acquisition_append hrounds
  by_cases hk : ∃ (i : ℕ) (m' : OutboxMessage), batch[i]? = some m' ∧ m'.id = k
  · right
    obtain ⟨i, m', hi, rfl⟩ := hk
    obtain ⟨m, hfind, hc, rfl, hfind'⟩ := hacq.mem_batch (List.mem_of_getElem? hi)
    have hm := Table.find?_mem hfind
    refine ⟨m, p, until_, w.rounds.length + i, hfind, hacq.free m hm hc, hacq.due m hm hc,
      hacq.until_eq, hfind', by omega, by simp [happ, hi], ?_⟩
    -- the ids of a batch are distinct
    intro token' x hge hx hid
    rw [happ, if_neg (not_lt.mpr hge), Option.map_eq_some_iff] at hx
    obtain ⟨m'', hj, rfl⟩ := hx
    have hltj := (List.getElem?_eq_some_iff.mp hj).1
    have hsame : (batch.map OutboxMessage.id)[token' - w.rounds.length]? =
        (batch.map OutboxMessage.id)[i]? := by
      simpa [hi, hj] using hid
    have heq := (List.getElem?_inj (by simpa using hltj) hacq.nodup).mp hsame
    omega
  · left
    constructor
    · rw [hacq.table_eq, Table.find?_update]
      cases hfind : w.db.messages.find? k with
      | none => rfl
      | some m =>
          rw [Option.map_some, if_neg]
          intro hc
          have hid : m.id = k := Table.find?_key hfind
          obtain ⟨i, hi⟩ := List.mem_iff_getElem?.mp (hacq.batch_mem (Table.find?_mem hfind) hc)
          exact hk ⟨i, _, hi, hid⟩
    · intro token x hx hid
      by_contra hge
      rw [happ, if_neg hge, Option.map_eq_some_iff] at hx
      obtain ⟨m', hi, rfl⟩ := hx
      exact hk ⟨_, m', hi, hid⟩

/-- The last acquisition of a message stays the last while no later one is made. -/
theorem Latest.mono {w w' : World} {k : Guid} {token : ℕ} (h : w.Latest k token)
    (hmono : ∀ token x, w.acquisition token = some x → w'.acquisition token = some x)
    (hnew : ∀ token' x, w'.acquisition token' = some x → x.2.id = k →
      w.acquisition token' = some x) : w'.Latest k token := by
  rw [latest_iff] at h ⊢
  obtain ⟨⟨x, hx, hid⟩, hlast⟩ := h
  exact ⟨⟨x, hmono _ _ hx, hid⟩, fun token' x' hlt hx' hid' =>
    hlast token' x' hlt (hnew token' x' hx' hid') hid'⟩

/-! ## The current lock -/

/-- The lock that message `k` carries is that of the acquisition `owner`. -/
def CurrentLock (w : World) (k : Guid) (owner : ℕ) : Prop :=
  w.Latest k owner ∧ ∃ p a m, w.acquisition owner = some (p, a) ∧ w.db.messages.find? k = some m ∧
    m.status = .processing ∧ m.lockedUntil = a.lockedUntil ∧ m.lockedBy = a.lockedBy ∧
    a.lockedBy = some (nvarchar 256 p.options.instanceId)

/-- An acquisition step leaves a message and its acquisitions alone, or it locks its row, found due, and
that lock is current. -/
theorem Step.acquire_current {w w' : World} (h : Step dep exec w .acquire w') (k : Guid) :
    (w'.db.messages.find? k = w.db.messages.find? k ∧
      ∀ token x, w'.acquisition token = some x → x.2.id = k → token < w.rounds.length) ∨
    ∃ m owner, w.db.messages.find? k = some m ∧ due w.db.now m = true ∧ w.rounds.length ≤ owner ∧
      w'.CurrentLock k owner ∧ ∀ token x, w.rounds.length ≤ token →
        w'.acquisition token = some x → x.2.id = k → token = owner := by
  refine (h.acquire_row k).imp_right ?_
  rintro ⟨m, p, until_, owner, hm, -, hdue, -, hfind, hge, hx, honly⟩
  have hlatest : w'.Latest k owner := by
    refine latest_iff.mpr ⟨⟨_, hx, Table.find?_key hfind⟩, fun token x hlt hx' hid => ?_⟩
    exact hlt.ne' (honly token x (hge.trans hlt.le) hx' hid)
  exact ⟨m, owner, hm, hdue, hge, ⟨hlatest, p, _, _, hx, hfind, rfl, rfl, rfl, rfl⟩, honly⟩

/-- Every row that is `Processing` carries the lock of an acquisition, the last one of its message. -/
def Locked (w : World) : Prop :=
  ∀ k m, w.db.messages.find? k = some m → m.status = .processing → ∃ owner, w.CurrentLock k owner

/-- The current lock stays current while the row is left alone and not acquired again. -/
theorem CurrentLock.mono {w w' : World} {act : Action} {k : Guid} {owner : ℕ}
    (h : w.CurrentLock k owner) (hs : Step dep exec w act w')
    (hsame : w'.db.messages.find? k = w.db.messages.find? k)
    (hold : act = .acquire → ∀ token x, w'.acquisition token = some x → x.2.id = k →
      token < w.rounds.length) : w'.CurrentLock k owner := by
  obtain ⟨hlatest, p, a, m, hx, hfind, hrow⟩ := h
  refine ⟨hlatest.mono (fun _ _ => hs.acquisition_mono) ?_, p, a, m, hs.acquisition_mono hx,
    hsame.trans hfind, hrow⟩
  intro token x hx' hid
  by_cases hact : act = .acquire
  · have hlt := hold hact token x hx' hid
    have hbefore := acquisition_eq_some (List.getElem?_eq_getElem hlt)
    have hx'' := hs.acquisition_mono hbefore
    rw [hx'] at hx''
    rw [hx'']
    exact hbefore
  · rwa [hs.acquisition hact] at hx'

/-- A step that is not an acquisition leaves the rows that are `Processing` afterwards as they were. -/
theorem Step.processing_before (hexec : Sound dep exec) {w w' : World} {act : Action}
    (hs : Step dep exec w act w') (hact : act ≠ .acquire) {k : Guid} {m' : OutboxMessage}
    (hm' : w'.db.messages.find? k = some m') (hst : m'.status = .processing) :
    w.db.messages.find? k = some m' := by
  have hc := hs.row hexec k
  rw [hm'] at hc
  generalize w.db.messages.find? k = o at hc ⊢
  cases hc with
  | same => rfl
  | publish _ hrow =>
      rw [(OutboxStore.publishedRow_fields hrow).2.1] at hst
      cases hst
  | lock hacq => exact absurd hacq hact
  | @writeBack _ _ kind => cases kind <;> cases hst
  | release => cases hst

/-- The step lemma. -/
theorem Locked.step (hexec : Sound dep exec) {w w' : World} {act : Action} (h : Locked w)
    (hs : Step dep exec w act w') : Locked w' := by
  intro k m' hm' hst
  by_cases hact : act = .acquire
  · subst hact
    rcases hs.acquire_current k with ⟨hsame, hold⟩ | ⟨m, owner, -, -, -, hcurrent, -⟩
    · rw [hsame] at hm'
      obtain ⟨owner, hcurrent⟩ := h k m' hm' hst
      exact ⟨owner, hcurrent.mono hs hsame fun _ => hold⟩
    · exact ⟨owner, hcurrent⟩
  · have hbefore := hs.processing_before hexec hact hm' hst
    obtain ⟨owner, hcurrent⟩ := h k m' hbefore hst
    exact ⟨owner, hcurrent.mono hs (hm'.trans hbefore.symm) fun h => absurd h hact⟩

/-- A current lock that was not made by this step was current before. -/
theorem CurrentLock.of_step (hexec : Sound dep exec) {w w' : World} {act : Action} {k : Guid}
    {token : ℕ} (h : w'.CurrentLock k token) (hlocked : Locked w) (hs : Step dep exec w act w')
    (hlt : token < w.rounds.length) : w.CurrentLock k token := by
  obtain ⟨hlatest, p, a, m, hx, hfind, hproc, -⟩ := h
  have hbefore : w.db.messages.find? k = some m := by
    by_cases hact : act = .acquire
    · subst hact
      rcases hs.acquire_current k with ⟨hsame, -⟩ | ⟨m', owner, -, -, hge, hcurrent, -⟩
      · rw [← hsame]
        exact hfind
      · have := hlatest.unique hcurrent.1
        omega
    · exact hs.processing_before hexec hact hfind hproc
  obtain ⟨owner, howner⟩ := hlocked k m hbefore hproc
  have hlatest' : w.Latest k token := by
    have hold := acquisition_eq_some (List.getElem?_eq_getElem hlt)
    rw [latest_iff] at hlatest ⊢
    obtain ⟨⟨x, hx, hid⟩, hlast⟩ := hlatest
    rw [hs.acquisition_mono hold] at hx
    refine ⟨⟨x, hold.trans hx, hid⟩, fun token' x' hlt hx' => ?_⟩
    exact hlast token' x' hlt (hs.acquisition_mono hx')
  rw [hlatest'.unique howner.1]
  exact howner

/-- What every run keeps: the row invariant and the owners of the locks. -/
theorem locked_run (hexec : Sound dep exec) {now : DateTimeOffset} {acts : List Action} {w : World}
    (hrun : Run dep exec (initial now) acts w) : TableOk w.db.messages ∧ Locked w := by
  refine hrun.invariant (fun w => TableOk w.db.messages ∧ Locked w) ?_ ⟨TableOk.empty, ?_⟩
  · rintro w act w' ⟨hok, hlocked⟩ hs
    exact ⟨tableOk_step hexec hs hok, hlocked.step hexec hs⟩
  · rintro k m ⟨⟩

/-! ## Write-backs -/

/-- A round writes back to its own message under its own instance name. -/
theorem StageStep.addressed {w : World} {stages stages' : ℕ → Stage} {token : ℕ} {entry : Entry}
    (h : StageStep w stages (.call token entry) stages') {r : Round} (hr : w.rounds[token]? = some r)
    {kind : WriteBack} {messageId : Guid} {lockedBy : Text}
    (hc : entry.call.writeBack? = some (kind, messageId, lockedBy)) :
    messageId = r.message.id ∧ lockedBy = r.lockedBy := by
  cases h with
  | call hr' _ htrans =>
      rw [hr] at hr'
      cases hr'
      exact htrans.addressed hc
  | queued hr' _ hof =>
      rw [hr] at hr'
      cases hr'
      exact hof.addressed hc
  | other hnone => cases hnone

/-- **Fencing.** Take any run of any number of workers, in either mode and with any faults of the
database, and a write-back of a round.  It is addressed to the message of the round.  When it returns
true, the message carries the lock of an acquisition under an instance name that the database takes for
the round's; that is the round's own acquisition or a later one.  When the last acquisition of the
message was made under another instance name, it does not return true and changes no row. -/
theorem write_back_fenced {now : DateTimeOffset} {acts : List Action} {w w' : World} {token : ℕ}
    {entry : Entry} {r : Round} {kind : WriteBack} {messageId : Guid} {lockedBy : Text}
    (hrun : Run dep (Database.Exec dep) (initial now) acts w)
    (hstep : Step dep (Database.Exec dep) w (.call token entry) w')
    (hr : w.rounds[token]? = some r)
    (hc : entry.call.writeBack? = some (kind, messageId, lockedBy)) :
    messageId = r.message.id ∧
    (entry.call.answer? entry.answer = some true → ∃ owner r', w.CurrentLock messageId owner ∧
      w.rounds[owner]? = some r' ∧ token ≤ owner ∧
      dep.sameText (nvarchar 256 r'.lockedBy) (writeBackParam dep r.lockedBy) = true) ∧
    (∀ owner r', w.Latest messageId owner → w.rounds[owner]? = some r' →
      dep.sameText (nvarchar 256 r'.lockedBy) (writeBackParam dep r.lockedBy) = false →
      entry.call.answer? entry.answer ≠ some true ∧ w'.db.messages = w.db.messages) := by
  obtain ⟨hok, hlocked⟩ := locked_run sound_exec hrun
  obtain ⟨stages, hcoupled⟩ := coupled_run hrun
  obtain ⟨stages', -, hst⟩ := hcoupled.step hstep
  obtain ⟨rfl, rfl⟩ := hst.addressed hr hc
  -- a row the write-back finds held carries the lock of the last acquisition
  have hheld : ∀ m ∈ w.db.messages.rows, heldBy dep r.message.id r.lockedBy m = true →
      ∃ owner r', w.CurrentLock r.message.id owner ∧ w.rounds[owner]? = some r' ∧
        dep.sameText (nvarchar 256 r'.lockedBy) (writeBackParam dep r.lockedBy) = true := by
    intro m hm hh
    have hst := (hok.row hm).processing_of_heldBy hh
    simp only [heldBy, Bool.and_eq_true, decide_eq_true_eq] at hh
    obtain ⟨owner, hlock⟩ := hlocked _ m (Table.find?_eq_some_iff.mpr ⟨hm, hh.1⟩) hst
    have hlock' := hlock
    obtain ⟨-, p, a, m', hx, hfind, -, -, hby, hname⟩ := hlock'
    obtain ⟨r', hr', hpair⟩ := Option.map_eq_some_iff.mp hx
    cases hpair
    refine ⟨owner, r', hlock, hr', ?_⟩
    have hmm' : m = m' := by
      rw [Table.find?_eq_some_iff.mpr ⟨hm, hh.1⟩] at hfind
      exact Option.some.inj hfind
    have hm' := hh.2
    rw [hmm', hby, hname, Option.any_some] at hm'
    exact hm'
  refine ⟨rfl, ?_, ?_⟩
  · intro htrue
    cases hstep with
    | call _ _ _ hexec =>
        obtain ⟨m, hfind, hh⟩ := hexec.held hc htrue
        obtain ⟨owner, r', hlock, hr', hsame⟩ := hheld m (Table.find?_mem hfind) hh
        refine ⟨owner, r', hlock, hr', ?_, hsame⟩
        -- the round's own acquisition is one of the message's
        by_contra hlt
        exact hlock.1.2 token r (not_le.mp hlt) hr rfl
  · intro owner r' hlatest hr' hother
    have hnone : ∀ m ∈ w.db.messages.rows, heldBy dep r.message.id r.lockedBy m = false := by
      intro m hm
      by_contra hh
      obtain ⟨owner', r'', hlock, hr'', hsame⟩ := hheld m hm (by simpa using hh)
      obtain rfl := hlatest.unique hlock.1
      rw [hr'] at hr''
      cases hr''
      rw [hother] at hsame
      cases hsame
    cases hstep with
    | call _ _ _ hexec =>
        constructor
        · intro htrue
          have hrun' := hexec.writeBack hc htrue
          cases (WriteBack.run_not_held hrun' hnone).1
        · rcases hexec.change with _ | ⟨hsave, _⟩ | ⟨hc', hrun'⟩
          · rfl
          · rfl
          · rw [hc] at hc'
            cases hc'
            exact (WriteBack.run_not_held hrun' hnone).2

/-! ## A lock lost to a worker of the same instance -/

/-- The pipeline of one host whose concurrent invocations share it. -/
def functionsHost : Pipeline where
  options := { instanceId := text "func-1" }
  retryPolicy := ⟨fun _ _ => .ok none⟩
  sha256 := ⟨fun _ => List.replicate 32 0, length_replicate_zero⟩

/-- The row of a message published at the beginning. -/
def orderRow : OutboxMessage :=
  OutboxStore.directRow 0 ⟨1, text "order.placed", [], none, none, none, none, none, none⟩

/-- The row after the first acquisition, until five minutes later. -/
def orderRow₁ : OutboxMessage := lockRow (text "func-1") 3000000000 orderRow

/-- The row after the second acquisition, made when the first had expired. -/
def orderRow₂ : OutboxMessage := lockRow (text "func-1") 7000000000 orderRow₁

theorem orderRow₁_nodup : ([orderRow₁].map OutboxMessage.id).Nodup := List.nodup_singleton _

theorem orderRow₂_nodup : ([orderRow₂].map OutboxMessage.id).Nodup := List.nodup_singleton _

/-- The host's database. -/
abbrev sqlServer : Deployment := Deployment.binary .directSql

/-- The message has been published and acquired by the host. -/
def acquired : World where
  db := ⟨⟨[orderRow₁], orderRow₁_nodup⟩, Table.empty, 0⟩
  rounds := [⟨functionsHost, orderRow₁, none⟩]
  log := []

/-- The message has been published. -/
def published : World where
  db := ⟨⟨[orderRow], by simp⟩, Table.empty, 0⟩
  rounds := []
  log := []

theorem publish_order (exec : Answering) : Step sqlServer exec (initial 0) .publish published := by
  have hrow : OutboxStore.publishedRow sqlServer 0
      ⟨1, text "order.placed", [], none, none, none, none, none, none⟩ = some orderRow := rfl
  have hinsert : (Table.empty : Messages).insertAll? [orderRow] = some ⟨[orderRow], by simp⟩ := by
    decide
  exact .publish hrow (List.forall_mem_nil _) hinsert

/-- A pipeline with the host's options, in whatever processing mode, acquires the message. -/
theorem acquire_order (exec : Answering) {p : Pipeline} {mode : ProcessingMode}
    (hoptions : p.options = { functionsHost.options with processingMode := mode }) :
    Step sqlServer exec published .acquire
      { acquired with rounds := [⟨p, orderRow₁, none⟩] } := by
  have hlock : OutboxStore.lockNextBatchAsync sqlServer p.options 0 p.options.batchSize
      p.options.defaultVisibilityTimeout p.options.instanceId [] [orderRow]
      ⟨[orderRow], by simp⟩ = some ([orderRow₁], ⟨[orderRow₁], by simp⟩) := by
    rw [hoptions]
    cases mode <;> decide
  exact .acquireCold (w := published) (List.Perm.refl _) hlock

theorem acquired_run (exec : Answering) :
    Run sqlServer exec (initial 0) [.publish, .acquire] acquired :=
  .cons (publish_order exec) (.cons (acquire_order exec rfl) (.nil _))

/-- The scan that acquires the message again. -/
theorem order_relocked : OutboxStore.lockNextBatchAsync sqlServer functionsHost.options 4000000000
    functionsHost.options.batchSize functionsHost.options.defaultVisibilityTimeout
    functionsHost.options.instanceId [] [orderRow₁] ⟨[orderRow₁], by simp⟩ =
      some ([orderRow₂], ⟨[orderRow₂], by simp⟩) := by decide

/-- Two invocations of the host have acquired the message one after the other; the round of the first
has begun, without subscriptions. -/
def reacquired : World where
  db := ⟨⟨[orderRow₂], orderRow₂_nodup⟩, Table.empty, 4000000000⟩
  rounds := [(⟨functionsHost, orderRow₁, none⟩ : Round).begin_ (.direct [] ⟨false, []⟩),
    ⟨functionsHost, orderRow₂, none⟩]
  log := []

/-- The first of them marks the message as processed, and is told that it did. -/
def markedByFirst : Entry := ⟨.markAsProcessed 1 (text "func-1"), .ok true⟩

theorem reacquired_run : ∃ acts, Run sqlServer (Database.Exec sqlServer) (initial 0) acts
    reacquired := by
  have h₁ := (acquired_run (Database.Exec sqlServer)).snoc .tick
    (.tick (by decide : (0 : DateTimeOffset) ≤ 4000000000))
  have h₂ := h₁.snoc .acquire (.acquireCold (List.Perm.refl _) order_relocked)
  exact ⟨_, h₂.snoc (.begin_ 0 (.direct [] ⟨false, []⟩)) (.begin_ rfl rfl)⟩

theorem reacquired_step : ∃ w', Step sqlServer (Database.Exec sqlServer) reacquired
    (.call 0 markedByFirst) w' ∧ w'.db.messages.rows ≠ reacquired.db.messages.rows := by
  refine ⟨_, .call (c := .markAsProcessed 1 (text "func-1")) (a := Except.ok true) rfl rfl rfl
    (.effect (.markAsProcessed 1 (text "func-1") _)), ?_⟩
  decide

/-- An instance does not fence off its own workers: the write-back of the first acquisition returns true
and changes the row, while the message carries the lock of the second. -/
theorem write_back_of_lost_lock : ∃ acts w', Run sqlServer (Database.Exec sqlServer) (initial 0) acts
    reacquired ∧ Step sqlServer (Database.Exec sqlServer) reacquired (.call 0 markedByFirst) w' ∧
    markedByFirst.call.answer? markedByFirst.answer = some true ∧
    w'.db.messages.rows ≠ reacquired.db.messages.rows ∧
    reacquired.CurrentLock 1 1 ∧ ¬ reacquired.CurrentLock 1 0 := by
  obtain ⟨acts, hrun⟩ := reacquired_run
  obtain ⟨w', hstep, hchanged⟩ := reacquired_step
  have hlatest : reacquired.Latest 1 1 := by
    refine ⟨⟨_, rfl, rfl⟩, fun token r hlt hr => ?_⟩
    have := (List.getElem?_eq_some_iff.mp hr).1
    simp only [reacquired, List.length_cons, List.length_nil] at this
    omega
  refine ⟨acts, w', hrun, hstep, rfl, hchanged, ⟨hlatest, functionsHost, orderRow₂, orderRow₂, rfl,
    by decide, rfl, rfl, rfl, rfl⟩, fun h => ?_⟩
  exact absurd (h.1.unique hlatest) (by decide)

/-- Fencing in that run: the owner of the lock is the second acquisition, of the same instance. -/
theorem write_back_fenced_reacquired :
    (∃ acts w', Run sqlServer (Database.Exec sqlServer) (initial 0) acts reacquired ∧
      Step sqlServer (Database.Exec sqlServer) reacquired (.call 0 markedByFirst) w') ∧
    ∃ owner r', reacquired.CurrentLock 1 owner ∧ reacquired.rounds[owner]? = some r' ∧ 0 ≤ owner ∧
      sqlServer.sameText (nvarchar 256 r'.lockedBy)
        (writeBackParam sqlServer (text "func-1")) = true := by
  obtain ⟨acts, hrun⟩ := reacquired_run
  obtain ⟨w', hstep, -⟩ := reacquired_step
  have hwriteBack : markedByFirst.call.writeBack? = some (.processed, 1, text "func-1") := rfl
  exact ⟨⟨acts, w', hrun, hstep⟩, (write_back_fenced hrun hstep rfl hwriteBack).2.1 rfl⟩

end World

end OutboxNet
