import OutboxNet.Lib.Runs
import OutboxNet.Processor.Conformance
import OutboxNet.Processor.Database
import OutboxNet.Processor.Queued
import OutboxNet.Store.RowInvariant

/-!
# Rounds of many workers on one database

The system the processor is part of: publishers add messages; workers of any number of instances
acquire messages, by id or by a scan; each acquisition starts a round, which begins when its plan is
known, with its subscriptions in direct delivery, and then makes one call after another, interleaved
with all other rounds.  The position of a round in the list of rounds is the token of its acquisition.
A worker that crashes is a round that makes no further step.

The log holds every call of every round with its answer, in the order of their execution.
-/

set_option autoImplicit false

namespace OutboxNet

open OutboxStore (PublishArgs publishedRow tryLockByIdAsync lockNextBatchAsync TableOk)

/-! ## The state -/

/-- What is to be done with an acquired message. -/
inductive Plan : Type
  | direct (subscriptions : List WebhookSubscription) (loop : LoopSchedule)
  | queueMediated

/-- The plan of a round that has begun, and the program it has still to run. -/
structure Work where
  plan : Plan
  prog : Prog Call Call.Ans (Except Exn Unit)

/-- A round: the pipeline of its instance, the message as it was acquired, and its work once begun. -/
structure Round where
  pipeline : Pipeline
  message : OutboxMessage
  work : Option Work

namespace Round

/-- The instance name the round writes back under. -/
def lockedBy (r : Round) : Text := r.pipeline.options.instanceId

/-- The job of a round, for a list of subscriptions. -/
def job (r : Round) (subscriptions : List WebhookSubscription) : Job :=
  ⟨r.pipeline, r.message, r.lockedBy, subscriptions⟩

/-- The program of a round. -/
def program (r : Round) : Plan → Prog Call Call.Ans (Except Exn Unit)
  | .direct subscriptions loop =>
      (r.pipeline.processSingleMessageAsync loop r.message r.lockedBy subscriptions).run
  | .queueMediated => (r.pipeline.processQueuedMessageAsync r.lockedBy r.message).run

/-- The round begins. -/
def begin_ (r : Round) (plan : Plan) : Round := { r with work := some ⟨plan, r.program plan⟩ }

/-- Where the program of a round is in the protocol of its plan, `s` being its stage in direct
delivery. -/
def ConformsTo (r : Round) (work : Work) (s : Stage) : Prop :=
  match work.plan with
  | .direct subscriptions loop =>
      work.prog.Conforms (r.job subscriptions).Trans ((r.job subscriptions).Finished loop) s
  | .queueMediated => Pipeline.Queued r.message r.lockedBy work.prog

end Round

structure World where
  db : Database
  rounds : List Round
  log : List (ℕ × Entry)

/-- What happens in one step. -/
inductive Action : Type
  | tick
  | publish
  | acquire
  | begin_ (token : ℕ) (plan : Plan)
  | call (token : ℕ) (entry : Entry)
  | releaseExpiredLocks
  | purgeMessages
  | purgeAttempts

/-- The round an action belongs to. -/
def Action.token? : Action → Option ℕ
  | .begin_ token _ => some token
  | .call token _ => some token
  | _ => none

namespace World

/-- The world before the first message. -/
def initial (now : DateTimeOffset) : World := ⟨⟨Table.empty, Table.empty, now⟩, [], []⟩

/-- The world after the call `c` of round `token` was answered with `a`. -/
def afterCall (w : World) (token : ℕ) (r : Round) (work : Work) (c : Call) (a : c.Ans)
    (p : Prog Call Call.Ans (Except Exn Unit)) (db : Database) : World where
  db := db
  rounds := w.rounds.set token { r with work := some { work with prog := p } }
  log := w.log ++ [(token, ⟨c, a⟩)]

/-- The way calls are answered: `Database.Effect` without faults of the database, `Database.Exec`
with them. -/
abbrev Answering := (c : Call) → Database → c.Ans → Database → Prop

/-- One step of the world.  Ids are fresh: a publisher takes one no message ever had. -/
inductive Step (dep : Deployment) (exec : Answering) : World → Action → World → Prop
  | tick {w : World} {now : DateTimeOffset} :
      w.db.now ≤ now → Step dep exec w .tick { w with db := { w.db with now := now } }
  | publish {w : World} {now : DateTimeOffset} {a : PublishArgs} {m : OutboxMessage}
      {messages : Messages} :
      publishedRow dep now a = some m → (∀ r ∈ w.rounds, r.message.id ≠ m.id) →
      w.db.messages.insertAll? [m] = some messages →
      Step dep exec w .publish { w with db := { w.db with messages := messages } }
  | acquireHot {w : World} {p : Pipeline} {messageId : Guid} {m : Option OutboxMessage}
      {messages : Messages} :
      tryLockByIdAsync dep w.db.now messageId p.options.defaultVisibilityTimeout
        p.options.instanceId w.db.messages = some (m, messages) →
      Step dep exec w .acquire
        { w with
          db := { w.db with messages := messages }
          rounds := w.rounds ++ m.toList.map fun m => ⟨p, m, none⟩ }
  | acquireCold {w : World} {p : Pipeline} {skipIds : List Guid} {scan batch : List OutboxMessage}
      {messages : Messages} :
      scan.Perm w.db.messages.rows →
      lockNextBatchAsync dep p.options w.db.now p.options.batchSize
        p.options.defaultVisibilityTimeout p.options.instanceId skipIds scan w.db.messages =
          some (batch, messages) →
      Step dep exec w .acquire
        { w with
          db := { w.db with messages := messages }
          rounds := w.rounds ++ batch.map fun m => ⟨p, m, none⟩ }
  | begin_ {w : World} {token : ℕ} {r : Round} {plan : Plan} :
      w.rounds[token]? = some r → r.work = none →
      Step dep exec w (.begin_ token plan) { w with rounds := w.rounds.set token (r.begin_ plan) }
  | call {w : World} {token : ℕ} {r : Round} {work : Work} {c : Call}
      {k : c.Ans → Prog Call Call.Ans (Except Exn Unit)} {a : c.Ans} {db : Database} :
      w.rounds[token]? = some r → r.work = some work → work.prog = .call c k →
      exec c w.db a db →
      Step dep exec w (.call token ⟨c, a⟩) (w.afterCall token r work c a (k a) db)
  | releaseExpiredLocks {w : World} :
      Step dep exec w .releaseExpiredLocks
        { w with db := { w.db with
          messages := OutboxStore.releaseExpiredLocksAsync w.db.now w.db.messages } }
  | purgeMessages {w : World} {olderThan : DateTimeOffset} {messages : Messages} :
      messages = (OutboxStore.purgeProcessedMessagesAsync olderThan w.db.messages).2 →
      Step dep exec w .purgeMessages
        { w with db := { w.db with
          messages := messages
          attempts := AttemptStore.cascade messages w.db.attempts } }
  | purgeAttempts {w : World} (olderThan : DateTimeOffset) :
      Step dep exec w .purgeAttempts
        { w with db := { w.db with
          attempts := AttemptStore.purgeOldAttemptsAsync olderThan w.db.attempts } }

/-- A run. -/
abbrev Run (dep : Deployment) (exec : Answering) : World → List Action → World → Prop :=
  Steps (Step dep exec)

/-- The token of the last acquisition of a message. -/
def Latest (w : World) (messageId : Guid) (token : ℕ) : Prop :=
  (∃ r, w.rounds[token]? = some r ∧ r.message.id = messageId) ∧
    ∀ token' r, token < token' → w.rounds[token']? = some r → r.message.id ≠ messageId

variable {dep : Deployment} {exec : Answering}

/-- What the calls of an answering can do to the tables. -/
def Sound (dep : Deployment) (exec : Answering) : Prop :=
  ∀ {c : Call} {d d' : Database} {a : c.Ans}, exec c d a d' → Database.Change dep c d d'

theorem sound_exec : Sound dep (Database.Exec dep) := fun h => h.change

theorem sound_effect : Sound dep (Database.Effect dep) := fun h => h.change

/-- A call of a round is answered by the database and written to the log. -/
theorem Step.called {w w' : World} {token : ℕ} {entry : Entry}
    (h : Step dep exec w (.call token entry) w') :
    exec entry.call w.db entry.answer w'.db ∧ w'.log = w.log ++ [(token, entry)] := by
  cases h with
  | call _ _ _ hcall => exact ⟨hcall, rfl⟩

/-- The log only grows. -/
theorem Step.log_mono {w w' : World} {act : Action} (h : Step dep exec w act w')
    {x : ℕ × Entry} (hx : x ∈ w.log) : x ∈ w'.log := by
  cases h with
  | call => exact List.mem_append_left _ hx
  | _ => exact hx

/-- A step remains one when more answers are possible. -/
theorem Step.mono {exec' : Answering}
    (hle : ∀ {c : Call} {d d' : Database} {a : c.Ans}, exec c d a d' → exec' c d a d') {w w' : World}
    {act : Action} (h : Step dep exec w act w') : Step dep exec' w act w' := by
  cases h with
  | tick hnow => exact .tick hnow
  | publish hrow hfresh hins => exact .publish hrow hfresh hins
  | acquireHot hlock => exact .acquireHot hlock
  | acquireCold hscan hlock => exact .acquireCold hscan hlock
  | begin_ hr hnone => exact .begin_ hr hnone
  | call hr hwork hprog hexec => exact .call hr hwork hprog (hle hexec)
  | releaseExpiredLocks => exact .releaseExpiredLocks
  | purgeMessages hm => exact .purgeMessages hm
  | purgeAttempts olderThan => exact .purgeAttempts olderThan

/-- The clock does not go back. -/
theorem Step.now_le (hexec : Sound dep exec) {w w' : World} {act : Action}
    (h : Step dep exec w act w') : w.db.now ≤ w'.db.now := by
  cases h with
  | tick hnow => exact hnow
  | call _ _ _ hcall => exact le_of_eq (hexec hcall).now.symm
  | _ => exact le_rfl

/-! ## Acquisitions -/

/-- An acquisition locks free and due rows and starts a round for each. -/
theorem Step.acquired {w w' : World} (h : Step dep exec w .acquire w') :
    ∃ (p : Pipeline) (chosen : OutboxMessage → Bool) (until_ : DateTimeOffset)
      (batch : List OutboxMessage),
      OutboxStore.Acquired dep w.db.now p.options.defaultVisibilityTimeout p.options.instanceId
        w.db.messages chosen until_ batch w'.db.messages ∧
      w'.rounds = w.rounds ++ batch.map (fun m => ⟨p, m, none⟩) ∧
      w' = { w' with db := { w.db with messages := w'.db.messages }, log := w.log } := by
  cases h with
  | @acquireHot p messageId m messages hlock =>
      obtain ⟨until_, hacq⟩ := OutboxStore.tryLockByIdAsync_spec hlock
      exact ⟨p, _, until_, m.toList, hacq, rfl, rfl⟩
  | @acquireCold p skipIds scan batch messages hscan hlock =>
      obtain ⟨chosen, until_, hacq, -⟩ := OutboxStore.lockNextBatchAsync_spec hscan hlock
      exact ⟨p, chosen, until_, batch, hacq, rfl, rfl⟩

/-! ## The message table -/

/-- The call of the message store an action makes. -/
inductive EventOf (dep : Deployment) (w : World) : Action → OutboxStore.Event → Prop
  | publish {now : DateTimeOffset} {a : PublishArgs} :
      (∀ m, publishedRow dep now a = some m → ∀ r ∈ w.rounds, r.message.id ≠ m.id) →
      EventOf dep w .publish ⟨now, .publish a, .unit⟩
  | tryLockById (messageId : Guid) (visibilityTimeout : TimeSpan) (lockedBy : Text)
      (batch : List OutboxMessage) :
      EventOf dep w .acquire
        ⟨w.db.now, .tryLockById messageId visibilityTimeout lockedBy, .locked batch⟩
  | lockNextBatch (options : OutboxOptions) (batchSize : ℤ) (visibilityTimeout : TimeSpan)
      (lockedBy : Text) (skipIds : List Guid) (scan batch : List OutboxMessage) :
      EventOf dep w .acquire ⟨w.db.now,
        .lockNextBatch options batchSize visibilityTimeout lockedBy skipIds scan, .locked batch⟩
  | writeBack {token : ℕ} {entry : Entry} {kind : OutboxStore.WriteBack} {messageId : Guid}
      {lockedBy : Text} (b : Bool) :
      entry.call.writeBack? = some (kind, messageId, lockedBy) →
      EventOf dep w (.call token entry) ⟨w.db.now, .writeBack kind messageId lockedBy, .answer b⟩
  | releaseExpiredLocks :
      EventOf dep w .releaseExpiredLocks ⟨w.db.now, .releaseExpiredLocks, .unit⟩
  | purgeMessages (olderThan : DateTimeOffset) (n : ℕ) :
      EventOf dep w .purgeMessages ⟨w.db.now, .purgeProcessedMessages olderThan, .count n⟩

/-- Every step is, for the message table, a call of the store or nothing. -/
theorem Step.event (hexec : Sound dep exec) {w w' : World} {act : Action}
    (h : Step dep exec w act w') : w'.db.messages = w.db.messages ∨
      ∃ e, EventOf dep w act e ∧ OutboxStore.Step dep w.db.messages e w'.db.messages := by
  cases h with
  | tick => exact .inl rfl
  | @publish now a m messages hrow hfresh hins =>
      refine .inr ⟨⟨now, .publish a, .unit⟩, .publish ?_, trivial, ?_⟩
      · intro m' hm'
        rw [hrow] at hm'
        cases hm'
        exact hfresh
      · simp only [OutboxStore.Op.run, hrow, Option.bind_some, hins, Option.map_some,
          OutboxStore.orRefused]
  | @acquireHot p messageId m messages hlock =>
      refine .inr ⟨_, .tryLockById messageId p.options.defaultVisibilityTimeout p.options.instanceId
        m.toList, trivial, ?_⟩
      simp only [OutboxStore.Op.run, hlock, OutboxStore.orRefused]
  | @acquireCold p skipIds scan batch messages hscan hlock =>
      refine .inr ⟨_, .lockNextBatch p.options p.options.batchSize p.options.defaultVisibilityTimeout
        p.options.instanceId skipIds scan batch, hscan, ?_⟩
      simp only [OutboxStore.Op.run, hlock, OutboxStore.orRefused]
  | begin_ => exact .inl rfl
  | call _ _ _ hcall =>
      rcases (hexec hcall).messages with heq | ⟨kind, messageId, lockedBy, b, hc, hs⟩
      · exact .inl heq
      · exact .inr ⟨_, .writeBack b hc, hs⟩
  | releaseExpiredLocks => exact .inr ⟨_, .releaseExpiredLocks, trivial, rfl⟩
  | @purgeMessages olderThan messages hm =>
      subst hm
      exact .inr ⟨_, .purgeMessages olderThan _, trivial, rfl⟩
  | purgeAttempts => exact .inl rfl

theorem tableOk_step (hexec : Sound dep exec) {w w' : World} {act : Action}
    (h : Step dep exec w act w') (hok : TableOk w.db.messages) : TableOk w'.db.messages := by
  rcases h.event hexec with heq | ⟨e, -, he⟩
  · rw [heq]
    exact hok
  · exact hok.step he

/-- The row of message `k` before and after a step. -/
inductive RowStep (dep : Deployment) (w : World) (act : Action) (k : Guid) :
    Option OutboxMessage → Option OutboxMessage → Prop
  | same (o : Option OutboxMessage) : RowStep dep w act k o o
  | publish {now : DateTimeOffset} {a : PublishArgs} {m : OutboxMessage} :
      act = .publish → publishedRow dep now a = some m → (∀ r ∈ w.rounds, r.message.id ≠ k) →
      RowStep dep w act k none (some m)
  | lock {m : OutboxMessage} {lockedBy : Text} {until_ : DateTimeOffset} :
      act = .acquire → (m.status = .pending ∨ m.status = .processing) →
      OutboxStore.due w.db.now m = true →
      RowStep dep w act k (some m) (some (OutboxStore.lockRow lockedBy until_ m))
  | writeBack {token : ℕ} {entry : Entry} {kind : OutboxStore.WriteBack} {messageId : Guid}
      {lockedBy : Text} {m : OutboxMessage} :
      act = .call token entry → entry.call.writeBack? = some (kind, messageId, lockedBy) →
      OutboxStore.heldBy dep messageId lockedBy m = true →
      RowStep dep w act k (some m) (some (kind.set dep w.db.now m))
  | release {m : OutboxMessage} :
      act = .releaseExpiredLocks → OutboxStore.expired w.db.now m = true →
      RowStep dep w act k (some m) (some (OutboxStore.unlockAs .pending m))
  | purge {olderThan : DateTimeOffset} {m : OutboxMessage} :
      act = .purgeMessages → OutboxStore.purgeable olderThan m = true →
      RowStep dep w act k (some m) none

/-- **What a step can do to the row of message `k`.** -/
theorem Step.row (hexec : Sound dep exec) {w w' : World} {act : Action}
    (h : Step dep exec w act w') (k : Guid) :
    RowStep dep w act k (w.db.messages.find? k) (w'.db.messages.find? k) := by
  rcases h.event hexec with heq | ⟨e, hof, he⟩
  · rw [heq]
    exact .same _
  · have hkey := fun m => Table.find?_key (t := w'.db.messages) (k := k) (r := m)
    have hc := he.rowChange k
    generalize w.db.messages.find? k = o at hc
    generalize w'.db.messages.find? k = o' at hc hkey
    cases hc with
    | same => exact .same _
    | publish hop hrow =>
        cases hof <;> cases hop
        next hfresh => exact .publish rfl hrow fun r hr => hkey _ rfl ▸ hfresh _ hrow r hr
    | lock hfree hdue hmem =>
        cases hof with
        | tryLockById => exact .lock rfl hfree hdue
        | lockNextBatch => exact .lock rfl hfree hdue
        | _ => cases hmem
    | writeBack hop hheld hres =>
        cases hof <;> cases hop
        next hc => exact .writeBack rfl hc hheld
    | release hop hexp =>
        cases hof <;> cases hop
        exact .release rfl hexp
    | purge hop hp =>
        cases hof <;> cases hop
        exact .purge rfl hp

/-! ## The rounds -/

/-- The acquisition with a token: the pipeline that made it and the message it returned. -/
def acquisition (w : World) (token : ℕ) : Option (Pipeline × OutboxMessage) :=
  (w.rounds[token]?).map fun r => (r.pipeline, r.message)

theorem acquisition_eq_some {w : World} {token : ℕ} {r : Round} (h : w.rounds[token]? = some r) :
    w.acquisition token = some (r.pipeline, r.message) := by
  simp [acquisition, h]

theorem latest_iff {w : World} {messageId : Guid} {token : ℕ} : w.Latest messageId token ↔
    (∃ x, w.acquisition token = some x ∧ x.2.id = messageId) ∧
      ∀ token' x, token < token' → w.acquisition token' = some x → x.2.id ≠ messageId := by
  simp only [Latest, acquisition, Option.map_eq_some_iff]
  constructor
  · rintro ⟨⟨r, hr, hid⟩, hlast⟩
    refine ⟨⟨_, ⟨r, hr, rfl⟩, hid⟩, ?_⟩
    rintro token' _ hlt ⟨r', hr', rfl⟩
    exact hlast token' r' hlt hr'
  · rintro ⟨⟨_, ⟨r, hr, rfl⟩, hid⟩, hlast⟩
    exact ⟨⟨r, hr, hid⟩, fun token' r' hlt hr' => hlast token' _ hlt ⟨r', hr', rfl⟩⟩

/-- Two last acquisitions of a message are the same. -/
theorem Latest.unique {w : World} {messageId : Guid} {token token' : ℕ}
    (h : w.Latest messageId token) (h' : w.Latest messageId token') : token = token' := by
  obtain ⟨⟨r, hr, hid⟩, hlast⟩ := h
  obtain ⟨⟨r', hr', hid'⟩, hlast'⟩ := h'
  rcases lt_trichotomy token token' with hlt | heq | hgt
  · exact absurd hid' (hlast token' r' hlt hr')
  · exact heq
  · exact absurd hid (hlast' token r hgt hr)

/-- Replacing a round by one with the same pipeline and message changes no acquisition. -/
theorem acquisition_set {w w' : World} {token : ℕ} {r r' : Round} (hr : w.rounds[token]? = some r)
    (hrounds : w'.rounds = w.rounds.set token r') (hp : r'.pipeline = r.pipeline)
    (hm : r'.message = r.message) : w'.acquisition = w.acquisition := by
  obtain ⟨hlt, rfl⟩ := List.getElem?_eq_some_iff.mp hr
  funext token'
  by_cases heq : token = token'
  · subst heq
    simp [acquisition, hrounds, hlt, hp, hm]
  · simp [acquisition, hrounds, List.getElem?_set_ne heq]

/-- Only acquisitions change the acquisitions. -/
theorem Step.acquisition {w w' : World} {act : Action} (h : Step dep exec w act w')
    (hact : act ≠ .acquire) : w'.acquisition = w.acquisition := by
  cases h with
  | acquireHot => exact absurd rfl hact
  | acquireCold => exact absurd rfl hact
  | begin_ hr _ => exact acquisition_set hr rfl rfl rfl
  | call hr _ _ _ => exact acquisition_set hr rfl rfl rfl
  | tick => rfl
  | publish => rfl
  | releaseExpiredLocks => rfl
  | purgeMessages => rfl
  | purgeAttempts => rfl

/-- A round that was not there before has just been acquired. -/
theorem Step.acquire_of_new {w w' : World} {act : Action} (h : Step dep exec w act w') {token : ℕ}
    {r' : Round} (hr' : w'.rounds[token]? = some r') (hlt : ¬ token < w.rounds.length) :
    act = .acquire := by
  by_contra hact
  have hsame := congrFun (h.acquisition hact) token
  rw [acquisition_eq_some hr', World.acquisition, List.getElem?_eq_none (not_lt.mp hlt)] at hsame
  cases hsame

/-- The acquisitions made so far stay. -/
theorem Step.acquisition_mono {w w' : World} {act : Action} (h : Step dep exec w act w')
    {token : ℕ} {x : Pipeline × OutboxMessage} (hx : w.acquisition token = some x) :
    w'.acquisition token = some x := by
  by_cases hact : act = .acquire
  · subst hact
    obtain ⟨p, _, _, batch, -, hrounds, -⟩ := h.acquired
    obtain ⟨r, hr, -⟩ := Option.map_eq_some_iff.mp hx
    rw [← hx, World.acquisition, hrounds,
      List.getElem?_append_left (List.getElem?_eq_some_iff.mp hr).1]
    rfl
  · rw [h.acquisition hact]
    exact hx

/-- A round keeps its pipeline and its message, and its plan once it has one. -/
theorem Step.round {w w' : World} {act : Action} (h : Step dep exec w act w') {token : ℕ} {r : Round}
    (hr : w.rounds[token]? = some r) : ∃ r', w'.rounds[token]? = some r' ∧
      r'.pipeline = r.pipeline ∧ r'.message = r.message ∧
      (∀ work, r.work = some work → ∃ prog, r'.work = some ⟨work.plan, prog⟩) ∧
      (act.token? ≠ some token → r' = r) := by
  have hsame : w'.rounds[token]? = some r → ∃ r', w'.rounds[token]? = some r' ∧
      r'.pipeline = r.pipeline ∧ r'.message = r.message ∧
      (∀ work, r.work = some work → ∃ prog, r'.work = some ⟨work.plan, prog⟩) ∧
      (act.token? ≠ some token → r' = r) :=
    fun h => ⟨r, h, rfl, rfl, fun work hwork => ⟨work.prog, hwork⟩, fun _ => rfl⟩
  have hlt := (List.getElem?_eq_some_iff.mp hr).1
  -- only `begin_` and `call` touch a round that is there
  cases h with
  | tick => exact hsame hr
  | publish => exact hsame hr
  | acquireHot => exact hsame (by rw [List.getElem?_append_left hlt]; exact hr)
  | acquireCold => exact hsame (by rw [List.getElem?_append_left hlt]; exact hr)
  | @begin_ token' r₀ plan hr₀ hnone =>
      by_cases heq : token' = token
      · subst heq
        rw [hr] at hr₀
        cases hr₀
        refine ⟨r.begin_ plan, by simp [hlt], rfl, rfl, fun work hwork => ?_, fun h => absurd rfl h⟩
        rw [hnone] at hwork
        cases hwork
      · exact hsame (by rw [List.getElem?_set_ne heq]; exact hr)
  | @call token' r₀ work c k a db hr₀ hwork₀ hprog hcall =>
      by_cases heq : token' = token
      · subst heq
        rw [hr] at hr₀
        cases hr₀
        refine ⟨{ r with work := some { work with prog := k a } }, by simp [afterCall, hlt], rfl, rfl,
          fun work' hwork' => ⟨k a, ?_⟩, fun h => absurd rfl h⟩
        rw [hwork₀] at hwork'
        cases hwork'
        rfl
      · exact hsame (by rw [afterCall, List.getElem?_set_ne heq]; exact hr)
  | releaseExpiredLocks => exact hsame hr
  | purgeMessages => exact hsame hr
  | purgeAttempts => exact hsame hr

/-- A job is made from the pipeline and the message of its round. -/
theorem Round.job_congr {r r' : Round} (hp : r'.pipeline = r.pipeline) (hm : r'.message = r.message)
    (subscriptions : List WebhookSubscription) : r'.job subscriptions = r.job subscriptions := by
  simp only [Round.job, Round.lockedBy, hp, hm]

/-- A round in direct delivery stays one, and keeps its job. -/
theorem Step.direct_round {w w' : World} {act : Action} (h : Step dep exec w act w') {token : ℕ}
    {r : Round} {subscriptions : List WebhookSubscription} {loop : LoopSchedule}
    {prog : Prog Call Call.Ans (Except Exn Unit)} (hr : w.rounds[token]? = some r)
    (hwork : r.work = some ⟨.direct subscriptions loop, prog⟩) :
    ∃ r' prog', w'.rounds[token]? = some r' ∧
      r'.work = some ⟨.direct subscriptions loop, prog'⟩ ∧ r'.message = r.message ∧
      r'.job subscriptions = r.job subscriptions := by
  obtain ⟨r', hr', hp, hm, hplan, -⟩ := h.round hr
  obtain ⟨prog', hwork'⟩ := hplan _ hwork
  exact ⟨r', prog', hr', hwork', hm, Round.job_congr hp hm subscriptions⟩

/-- A round that has a plan has just begun, or had it before. -/
theorem Step.round_inv {w w' : World} {act : Action} (h : Step dep exec w act w') {token : ℕ}
    {r' : Round} {work' : Work} (hr' : w'.rounds[token]? = some r') (hwork' : r'.work = some work') :
    (∃ plan, act = .begin_ token plan) ∨ ∃ r work, w.rounds[token]? = some r ∧
      r.work = some work ∧ r.pipeline = r'.pipeline ∧ r.message = r'.message ∧
      work.plan = work'.plan := by
  have hsame : w.rounds[token]? = some r' → (∃ plan, act = .begin_ token plan) ∨
      ∃ r work, w.rounds[token]? = some r ∧ r.work = some work ∧ r.pipeline = r'.pipeline ∧
        r.message = r'.message ∧ work.plan = work'.plan :=
    fun h => .inr ⟨r', work', h, hwork', rfl, rfl, rfl⟩
  -- rounds just acquired have no work yet
  have happend : ∀ rounds : List Round, (∀ r ∈ rounds, r.work = none) →
      (w.rounds ++ rounds)[token]? = some r' → w.rounds[token]? = some r' := by
    intro rounds hnone hr
    by_cases hlt : token < w.rounds.length
    · rwa [List.getElem?_append_left hlt] at hr
    · rw [List.getElem?_append_right (not_lt.mp hlt)] at hr
      rw [hnone r' (List.mem_of_getElem? hr)] at hwork'
      cases hwork'
  cases h with
  | tick => exact hsame hr'
  | publish => exact hsame hr'
  | acquireHot => exact hsame (happend _ (by simp) hr')
  | acquireCold => exact hsame (happend _ (by simp) hr')
  | @begin_ token₀ r₀ plan hr₀ hnone =>
      by_cases heq : token₀ = token
      · subst heq
        exact .inl ⟨plan, rfl⟩
      · rw [List.getElem?_set_ne heq] at hr'
        exact hsame hr'
  | @call token₀ r₀ work₀ c k a db hr₀ hwork₀ hprog hcall =>
      by_cases heq : token₀ = token
      · subst heq
        have hlt := (List.getElem?_eq_some_iff.mp hr₀).1
        rw [afterCall, List.getElem?_set_self hlt] at hr'
        cases hr'
        cases hwork'
        exact .inr ⟨r₀, work₀, hr₀, hwork₀, rfl, rfl, rfl⟩
      · rw [afterCall, List.getElem?_set_ne heq] at hr'
        exact hsame hr'
  | releaseExpiredLocks => exact hsame hr'
  | purgeMessages => exact hsame hr'
  | purgeAttempts => exact hsame hr'

/-- Every round that has begun has a plan that satisfies `P`. -/
def Planned (P : Plan → Prop) (w : World) : Prop :=
  ∀ (token : ℕ) (r : Round) (work : Work), w.rounds[token]? = some r → r.work = some work →
    P work.plan

theorem Planned.initial (P : Plan → Prop) (now : DateTimeOffset) : Planned P (initial now) := by
  intro token r work hr
  simp [World.initial] at hr

/-- **Invariants of the work of rounds.** What holds of a round that begins, and is kept when its
program goes on after a call, holds of the work of every round. -/
theorem Step.work {Ψ : Pipeline → OutboxMessage → Work → Prop} {w w' : World} {act : Action}
    (hs : Step dep exec w act w')
    (hbegin : ∀ token plan, act = .begin_ token plan → ∀ r : Round,
      Ψ r.pipeline r.message ⟨plan, r.program plan⟩)
    (hcall : ∀ p m plan (c : Call) (k : c.Ans → Prog Call Call.Ans (Except Exn Unit)) a,
      Ψ p m ⟨plan, .call c k⟩ → Ψ p m ⟨plan, k a⟩)
    (h : ∀ (token : ℕ) (r : Round) (work : Work), w.rounds[token]? = some r → r.work = some work →
      Ψ r.pipeline r.message work)
    {token : ℕ} {r' : Round} {work' : Work} (hr' : w'.rounds[token]? = some r')
    (hwork' : r'.work = some work') : Ψ r'.pipeline r'.message work' := by
  by_cases hact : act.token? = some token
  · cases hs with
    | begin_ hr _ =>
        cases hact
        rw [List.getElem?_set_self (List.getElem?_eq_some_iff.mp hr).1] at hr'
        cases hr'
        cases hwork'
        exact hbegin token _ rfl _
    | @call _ _ work _ _ _ _ hr hwork hprog _ =>
        cases hact
        have hbefore := h token _ _ hr hwork
        obtain ⟨plan, prog⟩ := work
        subst hprog
        rw [afterCall, List.getElem?_set_self (List.getElem?_eq_some_iff.mp hr).1] at hr'
        cases hr'
        cases hwork'
        exact hcall _ _ _ _ _ _ hbefore
    | _ => cases hact
  · -- the round did not act, so it was there as it is
    rcases hs.round_inv hr' hwork' with ⟨plan, rfl⟩ | ⟨r, work, hr, hwork, -⟩
    · exact absurd rfl hact
    · obtain ⟨r'', hr'', -, -, -, hsame⟩ := hs.round hr
      rw [hr', hsame hact] at hr''
      cases hr''
      exact h token r' work' hr hwork'

theorem Planned.step {P : Plan → Prop} {w w' : World} {act : Action} (h : Planned P w)
    (hs : Step dep exec w act w') (hbegin : ∀ token plan, act = .begin_ token plan → P plan) :
    Planned P w' := by
  intro token r' work' hr' hwork'
  exact hs.work (Ψ := fun _ _ work => P work.plan) (fun token plan hact _ => hbegin token plan hact)
    (fun _ _ _ _ _ _ h => h) h hr' hwork'

/-- Only rounds that have begun have made calls. -/
def Begun (w : World) : Prop :=
  ∀ x ∈ w.log, ∃ r, w.rounds[x.1]? = some r ∧ r.work.isSome = true

theorem Begun.initial (now : DateTimeOffset) : (initial now).Begun := List.forall_mem_nil _

theorem Begun.step {w w' : World} {act : Action} (h : w.Begun) (hs : Step dep exec w act w') :
    w'.Begun := by
  have hold : ∀ x ∈ w.log, ∃ r, w'.rounds[x.1]? = some r ∧ r.work.isSome = true := by
    intro x hx
    obtain ⟨r, hr, hwork⟩ := h x hx
    obtain ⟨work, hwork⟩ := Option.isSome_iff_exists.mp hwork
    obtain ⟨r', hr', -, -, hplan, -⟩ := hs.round hr
    obtain ⟨prog, hwork'⟩ := hplan work hwork
    exact ⟨r', hr', by rw [hwork']; rfl⟩
  intro x hx
  cases hs with
  | @call token r work c k a db hr hwork hprog hexec =>
      rcases List.mem_append.mp hx with hx | hx
      · exact hold x hx
      · rw [List.mem_singleton.mp hx]
        exact ⟨_, List.getElem?_set_self (List.getElem?_eq_some_iff.mp hr).1, rfl⟩
  | _ => exact hold x hx

/-! ## Stages -/

/-- Every round that has begun conforms to its protocol, from the stage given for it. -/
def Coupled (w : World) (stages : ℕ → Stage) : Prop :=
  ∀ (token : ℕ) (r : Round) (work : Work), w.rounds[token]? = some r → r.work = some work →
    r.ConformsTo work (stages token)

/-- What a step does to the stages. -/
inductive StageStep (w : World) (stages : ℕ → Stage) : Action → (ℕ → Stage) → Prop
  | begin_ (token : ℕ) (plan : Plan) :
      StageStep w stages (.begin_ token plan) (Function.update stages token .start)
  | call {token : ℕ} {entry : Entry} {r : Round} {subscriptions : List WebhookSubscription}
      {loop : LoopSchedule} {prog : Prog Call Call.Ans (Except Exn Unit)} {s' : Stage} :
      w.rounds[token]? = some r → r.work = some ⟨.direct subscriptions loop, prog⟩ →
      (r.job subscriptions).Trans entry.call (stages token) entry.answer s' →
      StageStep w stages (.call token entry) (Function.update stages token s')
  | queued {token : ℕ} {entry : Entry} {r : Round} {prog : Prog Call Call.Ans (Except Exn Unit)} :
      w.rounds[token]? = some r → r.work = some ⟨.queueMediated, prog⟩ →
      entry.call.OfQueued r.message r.lockedBy → StageStep w stages (.call token entry) stages
  | other {act : Action} : act.token? = none → StageStep w stages act stages

/-- The stage of a round that does not act stays. -/
theorem StageStep.other_stage {w : World} {stages stages' : ℕ → Stage} {act : Action}
    (h : StageStep w stages act stages') {token : ℕ} (hact : act.token? ≠ some token) :
    stages' token = stages token := by
  cases h with
  | begin_ token' => exact Function.update_of_ne (fun heq => hact (by rw [heq]; rfl)) _ _
  | @call token' => exact Function.update_of_ne (fun heq => hact (by rw [heq]; rfl)) _ _
  | queued => rfl
  | other => rfl

/-- **A call of a round in direct delivery** is one that its stage allows. -/
theorem StageStep.of_call {w : World} {stages stages' : ℕ → Stage} {token : ℕ} {entry : Entry}
    (h : StageStep w stages (.call token entry) stages') {r : Round}
    {subscriptions : List WebhookSubscription} {loop : LoopSchedule}
    {prog : Prog Call Call.Ans (Except Exn Unit)} (hr : w.rounds[token]? = some r)
    (hwork : r.work = some ⟨.direct subscriptions loop, prog⟩) :
    ∃ s', (r.job subscriptions).Trans entry.call (stages token) entry.answer s' ∧
      stages' = Function.update stages token s' := by
  cases h with
  | @call _ _ r' subscriptions' loop' prog' s' hr' hwork' htrans =>
      rw [hr] at hr'
      cases hr'
      rw [hwork] at hwork'
      cases hwork'
      exact ⟨s', htrans, rfl⟩
  | queued hr' hwork' =>
      rw [hr] at hr'
      cases hr'
      rw [hwork] at hwork'
      cases hwork'
  | other hnone => cases hnone

/-- A round in direct delivery has begun, so that when it acts it makes a call. -/
theorem StageStep.of_acting {w w' : World} {stages stages' : ℕ → Stage} {act : Action}
    (h : StageStep w stages act stages') (hs : Step dep exec w act w') {token : ℕ} {r : Round}
    {subscriptions : List WebhookSubscription} {loop : LoopSchedule}
    {prog : Prog Call Call.Ans (Except Exn Unit)} (hr : w.rounds[token]? = some r)
    (hwork : r.work = some ⟨.direct subscriptions loop, prog⟩) (hact : act.token? = some token) :
    ∃ entry s', act = .call token entry ∧
      (r.job subscriptions).Trans entry.call (stages token) entry.answer s' ∧
      stages' = Function.update stages token s' := by
  cases hs with
  | begin_ hr' hnone =>
      cases hact
      rw [hr] at hr'
      cases hr'
      rw [hwork] at hnone
      cases hnone
  | @call _ _ _ c k a db =>
      cases hact
      obtain ⟨s', htrans, hstages⟩ := h.of_call hr hwork
      exact ⟨⟨c, a⟩, s', rfl, htrans, hstages⟩
  | _ => cases hact

theorem Coupled.initial (now : DateTimeOffset) (stages : ℕ → Stage) :
    Coupled (initial now) stages := by
  intro token r work hr
  simp [World.initial] at hr

/-- Replacing one round and its stage. -/
theorem Coupled.set {w w' : World} {stages : ℕ → Stage} (h : Coupled w stages) {token : ℕ}
    {r' : Round} (hrounds : w'.rounds = w.rounds.set token r') {s' : Stage}
    (h' : ∀ work, r'.work = some work → r'.ConformsTo work s') :
    Coupled w' (Function.update stages token s') := by
  intro token' r work hr hwork
  rw [hrounds, List.getElem?_set] at hr
  split at hr
  · next heq =>
      subst heq
      split at hr
      · cases hr
        rw [Function.update_self]
        exact h' work hwork
      · cases hr
  · next hne =>
      rw [Function.update_of_ne (Ne.symm hne)]
      exact h token' r work hr hwork

/-- **The coupling.** Every step can be followed by the stages. -/
theorem Coupled.step {w w' : World} {stages : ℕ → Stage} {act : Action} (h : Coupled w stages)
    (hs : Step dep exec w act w') :
    ∃ stages', Coupled w' stages' ∧ StageStep w stages act stages' := by
  -- a step that appends rounds not begun, or none
  have happend : ∀ (rounds : List Round), (∀ r ∈ rounds, r.work = none) →
      w'.rounds = w.rounds ++ rounds → Coupled w' stages := by
    intro rounds hnone hrounds token r work hr hwork
    rw [hrounds] at hr
    by_cases hlt : token < w.rounds.length
    · rw [List.getElem?_append_left hlt] at hr
      exact h token r work hr hwork
    · rw [List.getElem?_append_right (not_lt.mp hlt)] at hr
      rw [hnone r (List.mem_of_getElem? hr)] at hwork
      cases hwork
  have hsame : w'.rounds = w.rounds → Coupled w' stages := fun heq =>
    happend [] (by simp) (by rw [heq, List.append_nil])
  cases hs with
  | tick => exact ⟨stages, hsame rfl, .other rfl⟩
  | publish => exact ⟨stages, hsame rfl, .other rfl⟩
  | acquireHot => exact ⟨stages, happend _ (by simp) rfl, .other rfl⟩
  | acquireCold => exact ⟨stages, happend _ (by simp) rfl, .other rfl⟩
  | @begin_ token r plan hr hnone =>
      refine ⟨Function.update stages token .start, h.set rfl ?_, .begin_ token plan⟩
      rintro work ⟨⟩
      cases plan with
      | direct subscriptions loop =>
          exact Job.processSingleMessageAsync_conforms (r.job subscriptions) loop
      | queueMediated => exact Pipeline.processQueuedMessageAsync_queued r.pipeline
  | @call token r work c k a db hr hwork hprog hcall =>
      have hconf := h token r work hr hwork
      obtain ⟨plan, prog⟩ := work
      subst hprog
      cases plan with
      | direct subscriptions loop =>
          obtain ⟨s', htrans, hk⟩ := hconf a
          refine ⟨Function.update stages token s', h.set rfl ?_, .call hr hwork htrans⟩
          rintro work' ⟨⟩
          exact hk
      | queueMediated =>
          obtain ⟨_, hof, hk⟩ := hconf a
          refine ⟨Function.update stages token (stages token), h.set rfl ?_, ?_⟩
          · rintro work' ⟨⟩
            exact hk
          · rw [Function.update_eq_self]
            exact .queued hr hwork hof
  | releaseExpiredLocks => exact ⟨stages, hsame rfl, .other rfl⟩
  | purgeMessages => exact ⟨stages, hsame rfl, .other rfl⟩
  | purgeAttempts => exact ⟨stages, hsame rfl, .other rfl⟩

/-- A statement about every round in direct delivery, with its job and its stage. -/
def ForRounds (Φ : ℕ → Job → Stage → Prop) (w : World) (stages : ℕ → Stage) : Prop :=
  ∀ (token : ℕ) (r : Round) (subscriptions : List WebhookSubscription) (loop : LoopSchedule)
    (prog : Prog Call Call.Ans (Except Exn Unit)), w.rounds[token]? = some r →
    r.work = some ⟨.direct subscriptions loop, prog⟩ → Φ token (r.job subscriptions) (stages token)

theorem ForRounds.initial (Φ : ℕ → Job → Stage → Prop) (now : DateTimeOffset) (stages : ℕ → Stage) :
    ForRounds Φ (initial now) stages := by
  intro token r subscriptions loop prog hr
  simp [World.initial] at hr

/-- The step rule for rounds: it holds of a round that begins, of a round left alone, and of a round that
makes a call, their plans being known. -/
theorem ForRounds.step_of_work {w w' : World} {stages stages' : ℕ → Stage} {act : Action}
    {Φ Φ' : ℕ → Job → Stage → Prop} (h : ForRounds Φ w stages) (hs : Step dep exec w act w')
    (hst : StageStep w stages act stages')
    (hstart : ∀ token r subscriptions plan, act = .begin_ token plan → w.rounds[token]? = some r →
      r.work = none → Φ' token (r.job subscriptions) .start)
    (hother : ∀ token r subscriptions loop prog s, act.token? ≠ some token →
      w.rounds[token]? = some r → r.work = some ⟨.direct subscriptions loop, prog⟩ →
      Φ token (r.job subscriptions) s → Φ' token (r.job subscriptions) s)
    (hcall : ∀ token entry r subscriptions loop prog s s', act = .call token entry →
      w.rounds[token]? = some r → r.work = some ⟨.direct subscriptions loop, prog⟩ →
      (r.job subscriptions).Trans entry.call s entry.answer s' →
      Φ token (r.job subscriptions) s → Φ' token (r.job subscriptions) s') :
    ForRounds Φ' w' stages' := by
  intro token r' subscriptions loop prog hr' hwork'
  rcases hs.round_inv hr' hwork' with ⟨plan, rfl⟩ | ⟨r, ⟨_, prog₀⟩, hr, hwork, hp, hm, rfl⟩
  · cases hs with
    | @begin_ _ r _ hr hnone =>
        have hlt := (List.getElem?_eq_some_iff.mp hr).1
        rw [List.getElem?_set_self hlt] at hr'
        cases hr'
        cases hst with
        | begin_ =>
            rw [Function.update_self]
            exact hstart token r subscriptions plan rfl hr hnone
        | other hnone => cases hnone
  · rw [Round.job_congr hp.symm hm.symm]
    have hbefore := h token r subscriptions loop prog₀ hr hwork
    by_cases hact : act.token? = some token
    · obtain ⟨entry, s', rfl, htrans, rfl⟩ := hst.of_acting hs hr hwork hact
      rw [Function.update_self]
      exact hcall token entry r subscriptions loop prog₀ _ s' rfl hr hwork htrans hbefore
    · rw [hst.other_stage hact]
      exact hother token r subscriptions loop prog₀ _ hact hr hwork hbefore

theorem ForRounds.step {w w' : World} {stages stages' : ℕ → Stage} {act : Action}
    {Φ Φ' : ℕ → Job → Stage → Prop} (h : ForRounds Φ w stages) (hs : Step dep exec w act w')
    (hst : StageStep w stages act stages')
    (hstart : ∀ token r subscriptions plan, act = .begin_ token plan → w.rounds[token]? = some r →
      r.work = none → Φ' token (r.job subscriptions) .start)
    (hother : ∀ token r subscriptions s, act.token? ≠ some token → w.rounds[token]? = some r →
      Φ token (r.job subscriptions) s → Φ' token (r.job subscriptions) s)
    (hcall : ∀ token entry r subscriptions s s', act = .call token entry →
      w.rounds[token]? = some r → (r.job subscriptions).Trans entry.call s entry.answer s' →
      Φ token (r.job subscriptions) s → Φ' token (r.job subscriptions) s') :
    ForRounds Φ' w' stages' :=
  h.step_of_work hs hst hstart (fun token r subscriptions _ _ s hact hr _ =>
    hother token r subscriptions s hact hr)
    (fun token entry r subscriptions _ _ s s' hact hr _ => hcall token entry r subscriptions s s' hact hr)

/-- Every world reached can be given stages. -/
theorem coupled_run {now : DateTimeOffset} {acts : List Action} {w : World}
    (hrun : Run dep exec (initial now) acts w) : ∃ stages, Coupled w stages := by
  refine hrun.invariant (fun w => ∃ stages, Coupled w stages) ?_
    ⟨fun _ => .start, Coupled.initial now _⟩
  rintro w act w' ⟨stages, hc⟩ hs
  obtain ⟨stages', hc', -⟩ := hc.step hs
  exact ⟨stages', hc'⟩

/-- **Invariants of worlds with stages.** What every step kept by `P` preserves, along with the
coupling, holds after every run of such steps. -/
theorem run_invariant (I : World → (ℕ → Stage) → Prop) (P : Action → Prop)
    (hstep : ∀ w stages act w' stages', P act → Coupled w stages → I w stages →
      Step dep exec w act w' → Coupled w' stages' → StageStep w stages act stages' →
      I w' stages')
    {w w' : World} {acts : List Action} (hrun : Run dep exec w acts w') (hP : ∀ act ∈ acts, P act)
    (h : ∃ stages, Coupled w stages ∧ I w stages) : ∃ stages, Coupled w' stages ∧ I w' stages := by
  refine hrun.invariant_of (fun w => ∃ stages, Coupled w stages ∧ I w stages) P ?_ hP h
  rintro w act w' hact ⟨stages, hc, hI⟩ hs
  obtain ⟨stages', hc', hst⟩ := hc.step hs
  exact ⟨stages', hc', hstep w stages act w' stages' hact hc hI hs hc' hst⟩

end World

end OutboxNet
