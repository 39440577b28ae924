import OutboxNet.System.Fencing

/-!
# Recorded successes

What the attempts table says of a delivery and what the endpoints answered belong together in every
world without a purge of attempts: a stored success was answered, and a round that counts a success,
from the states it read or from its own deliveries, finds it stored once its attempts are saved.
-/

set_option autoImplicit false

namespace OutboxNet

open AttemptStore (States)
open OutboxStore (heldBy WriteBack)

variable {dep : Deployment}

namespace World

/-! ## What the log and the tables keep -/

/-- A delivery of message `k` to subscription `s` was answered with success. -/
def Succeeded (w : World) (k s : Guid) : Prop :=
  ∃ (token : ℕ) (message : OutboxMessage) (subscription : WebhookSubscription) (deliveryId : Guid)
    (result : DeliveryResult),
    (token, (⟨.deliver message subscription deliveryId, .ok result⟩ : Entry)) ∈ w.log ∧
      message.id = k ∧ subscription.id = s ∧ result.success = true

theorem Succeeded.mono {w w' : World} {k s : Guid} (h : w.Succeeded k s)
    (hk : ∀ x ∈ w.log, x ∈ w'.log) : w'.Succeeded k s := by
  obtain ⟨token, message, subscription, deliveryId, result, hmem, h⟩ := h
  exact ⟨token, message, subscription, deliveryId, result, hk _ hmem, h⟩

/-- What a later world keeps of an earlier one: the log, and, while the row of message `k` is there, the
successes stored for it. -/
structure Keeps (w w' : World) (k : Guid) : Prop where
  log : ∀ x ∈ w.log, x ∈ w'.log
  alive : (w'.db.messages.find? k).isSome = true → (w.db.messages.find? k).isSome = true
  stored : (w'.db.messages.find? k).isSome = true → ∀ s,
    AttemptStore.hasSuccess k s w.db.attempts = true →
      AttemptStore.hasSuccess k s w'.db.attempts = true

/-- The message of a round, once gone, does not come back. -/
theorem Step.alive {exec : Answering} (hexec : Sound dep exec) {w w' : World} {act : Action}
    (h : Step dep exec w act w') {token : ℕ} {r : Round} (hr : w.rounds[token]? = some r)
    (halive : (w'.db.messages.find? r.message.id).isSome = true) :
    (w.db.messages.find? r.message.id).isSome = true := by
  have hrow := h.row hexec r.message.id
  generalize w.db.messages.find? r.message.id = o at hrow
  generalize w'.db.messages.find? r.message.id = o' at hrow halive
  cases hrow with
  | same => exact halive
  | publish _ _ hfresh => exact absurd rfl (hfresh r (List.mem_of_getElem? hr))
  | _ => rfl

/-- Every step but a purge of attempts keeps the successes of the message of a round. -/
theorem Step.keeps {exec : Answering} (hexec : Sound dep exec) {w w' : World} {act : Action}
    (h : Step dep exec w act w') (hact : act ≠ .purgeAttempts) {token : ℕ} {r : Round}
    (hr : w.rounds[token]? = some r) : Keeps w w' r.message.id where
  log := fun _ hx => h.log_mono hx
  alive := h.alive hexec hr
  stored := by
    intro halive s hs
    cases h with
    | call _ _ _ hcall => exact (hexec hcall).hasSuccess hs
    | purgeMessages =>
        obtain ⟨m, hm⟩ := Option.isSome_iff_exists.mp halive
        show AttemptStore.hasSuccess _ s (AttemptStore.cascade _ w.db.attempts) = true
        rw [AttemptStore.hasSuccess_cascade hm]
        exact hs
    | purgeAttempts => exact absurd rfl hact
    | _ => exact hs

/-! ## Rounds and their successes -/

/-- The results of a round are in the log. -/
def Logged (w : World) (token : ℕ) (job : Job) (states : States) (results : Results) : Prop :=
  ∀ i r, results i = some r → ∃ subscription, job.subscriptions[i]? = some subscription ∧
    (token, (⟨.deliver job.message subscription (job.deliveryId states subscription), r⟩ : Entry)) ∈
      w.log

/-- The successes in the states a round has read are stored, while the row of its message is there. -/
def Seen (w : World) (job : Job) (states : States) : Prop :=
  (w.db.messages.find? job.message.id).isSome = true → ∀ subscription ∈ job.subscriptions,
    Pipeline.hasSuccess states subscription = true →
      AttemptStore.hasSuccess job.message.id subscription.id w.db.attempts = true

/-- The successes among the results of a round are stored, while the row of its message is there. -/
def Stored (w : World) (job : Job) (results : Results) : Prop :=
  (w.db.messages.find? job.message.id).isSome = true → ∀ i subscription r,
    job.subscriptions[i]? = some subscription → results i = some (.ok r) → r.success = true →
      AttemptStore.hasSuccess job.message.id subscription.id w.db.attempts = true

/-- What holds of a round in its stage. -/
def StageOk (w : World) (token : ℕ) (job : Job) : Stage → Prop
  | .delivering states results => w.Logged token job states results ∧ w.Seen job states
  | .settled states results saved => w.Logged token job states results ∧ w.Seen job states ∧
      (saved = true → w.Stored job results)
  | _ => True

theorem Logged.mono {w w' : World} {token : ℕ} {job : Job} {states : States} {results : Results}
    (h : w.Logged token job states results) (hk : ∀ x ∈ w.log, x ∈ w'.log) :
    w'.Logged token job states results := by
  intro i r hi
  obtain ⟨subscription, hsub, hmem⟩ := h i r hi
  exact ⟨subscription, hsub, hk _ hmem⟩

/-- One more result, and its entry in the log. -/
theorem Logged.update {w w' : World} {token : ℕ} {job : Job} {states : States} {results : Results}
    (h : w.Logged token job states results) {i : ℕ} {subscription : WebhookSubscription}
    (hsub : job.subscriptions[i]? = some subscription) {r : Except Exn DeliveryResult}
    (hlog : w'.log = w.log ++
      [(token, ⟨.deliver job.message subscription (job.deliveryId states subscription), r⟩)]) :
    w'.Logged token job states (Function.update results i (some r)) := by
  intro j r' hj
  by_cases heq : j = i
  · subst heq
    rw [Function.update_self] at hj
    cases hj
    exact ⟨subscription, hsub, by rw [hlog]; exact List.mem_append_right _ List.mem_cons_self⟩
  · rw [Function.update_of_ne heq] at hj
    obtain ⟨subscription', hsub', hmem⟩ := h j r' hj
    exact ⟨subscription', hsub', by rw [hlog]; exact List.mem_append_left _ hmem⟩

theorem Seen.mono {w w' : World} {job : Job} {states : States} (h : w.Seen job states)
    (hk : Keeps w w' job.message.id) : w'.Seen job states :=
  fun halive subscription hsub hs =>
    hk.stored halive _ (h (hk.alive halive) subscription hsub hs)

theorem Stored.mono {w w' : World} {job : Job} {results : Results} (h : w.Stored job results)
    (hk : Keeps w w' job.message.id) : w'.Stored job results :=
  fun halive i subscription r hsub hi hr =>
    hk.stored halive _ (h (hk.alive halive) i subscription r hsub hi hr)

theorem StageOk.mono {w w' : World} {token : ℕ} {job : Job} {s : Stage} (h : w.StageOk token job s)
    (hk : Keeps w w' job.message.id) : w'.StageOk token job s := by
  cases s with
  | delivering states results => exact ⟨h.1.mono hk.log, h.2.mono hk⟩
  | settled states results saved =>
      exact ⟨h.1.mono hk.log, h.2.1.mono hk, fun hsaved => (h.2.2 hsaved).mono hk⟩
  | _ => trivial

/-- What a save that returned has stored. -/
theorem Stored.saved {w w' : World} {job : Job} {states : States} {results : Results}
    {utcNow : ℕ → DateTimeOffset} {attempts : List DeliveryAttempt}
    (hperm : attempts.Perm (job.newAttempts states results utcNow))
    (hexec : Database.Exec dep (Call.saveAttempts attempts) w.db (.ok ()) w'.db) :
    w'.Stored job results := by
  intro _ i subscription r hsub hi hr
  obtain ⟨defaults, stored, hsave, hdb⟩ := hexec.saved
  have hmem := hperm.mem_iff.mpr (Job.mem_newAttempts.mpr ⟨i, subscription, r, hsub, hi, rfl⟩)
  rw [hdb]
  refine (AttemptStore.hasSuccess_saveAttemptsAsync hsave _ _).mpr (.inr ⟨_, hmem, rfl, rfl, ?_⟩)
  simp [Pipeline.deliveryAttempt, hr]

/-- The step lemma of a round: a call of its protocol, answered by the database with its faults. -/
theorem StageOk.trans {w w' : World} {token : ℕ} {job : Job} {c : Call} {s s' : Stage} {a : c.Ans}
    (htrans : job.Trans c s a s') (hexec : Database.Exec dep c w.db a w'.db)
    (hlog : w'.log = w.log ++ [(token, ⟨c, a⟩)]) (hk : Keeps w w' job.message.id)
    (h : w.StageOk token job s) : w'.StageOk token job s' := by
  induction htrans with
  | metric => exact h.mono hk
  | attemptTime => exact h.mono hk
  | @read states hne =>
      refine ⟨(fun i r hi => by cases hi), fun halive subscription hsub hs => ?_⟩
      refine hk.stored halive _ ?_
      rwa [hexec.read.1, Pipeline.hasSuccess_getDeliveryStatesAsync (List.mem_map_of_mem hsub)] at hs
  | readThrew => split <;> trivial
  | deliver hsub _ _ => exact ⟨h.1.update hsub hlog, h.2.mono hk⟩
  | save _ hperm _ => exact ⟨h.1.mono hk.log, h.2.mono hk, fun _ => Stored.saved hperm hexec⟩
  | saveThrew =>
      unfold Job.afterFailedSave
      split
      · trivial
      · exact ⟨h.1.mono hk.log, h.2.mono hk, nofun⟩
  | nothingToSave _ hnone _ ih =>
      refine ih hexec hlog ⟨h.1, h.2, fun _ _ i subscription r hsub hi => ?_⟩
      exact absurd hi (hnone i (List.getElem?_eq_some_iff.mp hsub).1 r)
  | faulted _ _ ih => exact ih hexec hlog trivial
  | retry _ _ ih => exact ih hexec hlog trivial
  | noSubscriptions => trivial
  | processed => trivial
  | deadLetter => trivial
  | draw => trivial
  | clock => trivial
  | incrementRetry => trivial
  | giveUp => trivial

end World

/-- What a round saves are the attempts of its deliveries. -/
theorem Job.Trans.saved {job : Job} {c : Call} {s s' : Stage} {a : c.Ans}
    (h : job.Trans c s a s') {attempts : List DeliveryAttempt} (hc : c = .saveAttempts attempts) :
    ∃ states results utcNow, s = .delivering states results ∧
      attempts.Perm (job.newAttempts states results utcNow) := by
  induction h with
  | save _ hperm _ =>
      cases hc
      exact ⟨_, _, _, rfl, hperm⟩
  | saveThrew _ hperm _ =>
      cases hc
      exact ⟨_, _, _, rfl, hperm⟩
  | nothingToSave _ _ _ ih =>
      obtain ⟨states, results, utcNow, hs, -⟩ := ih hc
      cases hs
  | faulted _ _ ih =>
      obtain ⟨states, results, utcNow, hs, -⟩ := ih hc
      cases hs
  | retry _ _ ih =>
      obtain ⟨states, results, utcNow, hs, -⟩ := ih hc
      cases hs
  | _ => cases hc

/-- When a round marks its message as processed: without subscriptions, or with every verdict a success
and its attempts saved, or without results to save. -/
theorem Job.Trans.markAsProcessed {job : Job} {c : Call} {s s' : Stage} {a : c.Ans}
    (h : job.Trans c s a s') {messageId : Guid} {lockedBy : Text}
    (hc : c = .markAsProcessed messageId lockedBy) :
    (s = .start ∧ job.subscriptions = []) ∨ ∃ states results,
      (∀ i < job.subscriptions.length, job.verdictAt states results i = some .succeeded) ∧
      (s = .settled states results true ∨ (s = .delivering states results ∧
        ∀ i < job.subscriptions.length, ∀ r, results i ≠ some (.ok r))) := by
  induction h with
  | noSubscriptions hnil => exact .inl ⟨rfl, hnil⟩
  | processed hall => exact .inr ⟨_, _, hall, .inl rfl⟩
  | nothingToSave _ hnone _ ih =>
      rcases ih hc with ⟨hs, -⟩ | ⟨states, results, hall, hs | ⟨hs, -⟩⟩
      · cases hs
      · cases hs
        exact .inr ⟨_, _, hall, .inr ⟨rfl, hnone⟩⟩
      · cases hs
  | faulted _ _ ih => rcases ih hc with ⟨hs, -⟩ | ⟨states, results, -, hs | ⟨hs, -⟩⟩ <;> cases hs
  | retry _ _ ih => rcases ih hc with ⟨hs, -⟩ | ⟨states, results, -, hs | ⟨hs, -⟩⟩ <;> cases hs
  | _ => cases hc

namespace World

/-- A call that saves attempts is that of a round which is delivering. -/
theorem StageStep.saved {w : World} {stages stages' : ℕ → Stage} {token : ℕ} {entry : Entry}
    (h : StageStep w stages (.call token entry) stages') {attempts : List DeliveryAttempt}
    (hc : entry.call = .saveAttempts attempts) :
    ∃ r subscriptions loop prog states results utcNow, w.rounds[token]? = some r ∧
      r.work = some ⟨.direct subscriptions loop, prog⟩ ∧
      stages token = .delivering states results ∧
      attempts.Perm ((r.job subscriptions).newAttempts states results utcNow) := by
  cases h with
  | @call _ _ r subscriptions loop prog _ hr hwork htrans =>
      obtain ⟨states, results, utcNow, hstage, hperm⟩ := htrans.saved hc
      exact ⟨r, subscriptions, loop, prog, states, results, utcNow, hr, hwork, hstage, hperm⟩
  | queued _ _ hof =>
      rw [hc] at hof
      cases hof
  | other hnone => cases hnone

/-! ## The invariant -/

/-- Every stored success was answered, and every round is in order. -/
structure Recorded (w : World) (stages : ℕ → Stage) : Prop where
  answered : ∀ a ∈ w.db.attempts.rows, a.status = .success →
    w.Succeeded a.outboxMessageId a.webhookSubscriptionId
  rounds : ForRounds (StageOk w) w stages

/-- Every success that a call stores was answered. -/
theorem Recorded.answered_step {w w' : World} {stages stages' : ℕ → Stage} {token : ℕ}
    {entry : Entry} (h : w.Recorded stages)
    (hs : Step dep (Database.Exec dep) w (.call token entry) w')
    (hst : StageStep w stages (.call token entry) stages') {a : DeliveryAttempt}
    (ha : a ∈ w'.db.attempts.rows) (hstatus : a.status = .success) :
    w'.Succeeded a.outboxMessageId a.webhookSubscriptionId := by
  obtain ⟨hexec, hlog⟩ := hs.called
  have hold : a ∈ w.db.attempts.rows → w'.Succeeded a.outboxMessageId a.webhookSubscriptionId :=
    fun ha => (h.answered a ha hstatus).mono fun x hx => hlog ▸ List.mem_append_left _ hx
  rcases hexec.change.attempts with hsame | ⟨newAttempts, defaults, hsave, hrun⟩
  · exact hold (hsame ▸ ha)
  · rcases AttemptStore.mem_saveAttemptsAsync hrun ha with ha | ⟨j, x, hx, rfl⟩
    · exact hold ha
    · obtain ⟨r, subscriptions, loop, prog, states, results, utcNow, hr, hwork, hstage, hperm⟩ :=
        hst.saved hsave
      have hok := h.rounds token _ _ _ _ hr hwork
      rw [hstage] at hok
      obtain ⟨i, subscription, result, hsub, hi, rfl⟩ :=
        Job.mem_newAttempts.mp (hperm.mem_iff.mp hx)
      obtain ⟨subscription', hsub', hmem⟩ := hok.1 i _ hi
      rw [hsub] at hsub'
      cases hsub'
      refine ⟨token, _, _, _, result, hlog ▸ List.mem_append_left _ hmem, rfl, rfl, ?_⟩
      by_contra hfailed
      simp [Pipeline.deliveryAttempt, hfailed] at hstatus

/-- The step lemma. -/
theorem Recorded.step {w w' : World} {stages stages' : ℕ → Stage} {act : Action}
    (h : w.Recorded stages) (hs : Step dep (Database.Exec dep) w act w')
    (hst : StageStep w stages act stages') (hact : act ≠ .purgeAttempts) :
    w'.Recorded stages' where
  answered := by
    intro a ha hstatus
    cases hs with
    | call hr hwork hprog hexec =>
        exact h.answered_step (.call hr hwork hprog hexec) hst ha hstatus
    | purgeMessages =>
        exact h.answered a (AttemptStore.mem_cascade.mp ha).1 hstatus
    | purgeAttempts => exact absurd rfl hact
    | _ => exact h.answered a ha hstatus
  rounds := by
    refine h.rounds.step hs hst (fun _ _ _ _ _ _ _ => trivial) ?_ ?_
    · intro token r subscriptions s _ hr hok
      exact hok.mono (hs.keeps sound_exec hact hr)
    · rintro token entry r subscriptions s s' rfl hr htrans hok
      obtain ⟨hexec, hlog⟩ := hs.called
      exact hok.trans htrans hexec hlog (hs.keeps sound_exec hact hr)

/-- The invariant holds after every run without a purge of attempts. -/
theorem recorded_run {now : DateTimeOffset} {acts : List Action} {w : World}
    (hrun : Run dep (Database.Exec dep) (initial now) acts w)
    (hpurge : ∀ act ∈ acts, act ≠ .purgeAttempts) :
    ∃ stages, Coupled w stages ∧ w.Recorded stages := by
  refine run_invariant Recorded (· ≠ .purgeAttempts) ?_ hrun hpurge
    ⟨fun _ => .start, Coupled.initial now _, ?_, ForRounds.initial _ now _⟩
  · rintro w stages act w' stages' hact - h hs - hst
    exact h.step hs hst hact
  · rintro a ⟨⟩

/-- A round that marks its message as processed, the row being there, finds a success stored for every
subscription of its list: seen in the states, or among the results that were saved. -/
theorem Recorded.of_markAsProcessed {w : World} {stages stages' : ℕ → Stage} {token : ℕ}
    {messageId : Guid} {lockedBy : Text} {answer : Except Exn Bool} {r : Round}
    {subscriptions : List WebhookSubscription} {loop : LoopSchedule}
    {prog : Prog Call Call.Ans (Except Exn Unit)} (h : w.Recorded stages)
    (hst : StageStep w stages (.call token ⟨.markAsProcessed messageId lockedBy, answer⟩) stages')
    (hr : w.rounds[token]? = some r) (hwork : r.work = some ⟨.direct subscriptions loop, prog⟩)
    (halive : (w.db.messages.find? r.message.id).isSome = true) {subscription : WebhookSubscription}
    (hsub : subscription ∈ subscriptions) :
    AttemptStore.hasSuccess r.message.id subscription.id w.db.attempts = true := by
  have hok := h.rounds token r subscriptions loop prog hr hwork
  obtain ⟨i, hi, rfl⟩ := List.mem_iff_getElem.mp hsub
  have hi' := List.getElem?_eq_getElem hi
  obtain ⟨s', htrans, -⟩ := hst.of_call hr hwork
  rcases htrans.markAsProcessed rfl with ⟨-, hnil⟩ | ⟨states, results, hall, hs⟩
  · rw [show subscriptions = [] from hnil] at hi
    cases hi
  have hverdict := hall i hi
  rw [Job.verdictAt_eq hi'] at hverdict
  rcases Job.verdict_succeeded hverdict with hseen | ⟨res, hres, hsuccess⟩
  · -- a success that the round has read
    rcases hs with hs | ⟨hs, -⟩ <;> rw [hs] at hok
    · exact hok.2.1 halive _ hsub hseen
    · exact hok.2 halive _ hsub hseen
  · -- a success among the results of the round, which it has saved
    rcases hs with hs | ⟨hs, hnone⟩
    · rw [hs] at hok
      exact hok.2.2 rfl halive i _ res hi' hres hsuccess
    · exact absurd hres (hnone i hi res)

/-- **Delivered means recorded.** Take any run of any number of workers with any faults of the database
and of the deliverer, and without a purge of attempts.  When a round in direct delivery marks its message
as processed and is told so, there is a stored success for every subscription of its list, and that
subscription's endpoint did answer a delivery of the message with success. -/
theorem delivered_means_recorded {now : DateTimeOffset} {acts : List Action} {w w' : World}
    {token : ℕ} {messageId : Guid} {lockedBy : Text} {r : Round}
    {subscriptions : List WebhookSubscription} {loop : LoopSchedule}
    {prog : Prog Call Call.Ans (Except Exn Unit)}
    (hrun : Run dep (Database.Exec dep) (initial now) acts w)
    (hpurge : ∀ act ∈ acts, act ≠ .purgeAttempts)
    (hstep : Step dep (Database.Exec dep) w
      (.call token ⟨.markAsProcessed messageId lockedBy, .ok true⟩) w')
    (hr : w.rounds[token]? = some r) (hwork : r.work = some ⟨.direct subscriptions loop, prog⟩) :
    messageId = r.message.id ∧ ∀ subscription ∈ subscriptions,
      (∃ a ∈ w.db.attempts.rows, a.outboxMessageId = messageId ∧
        a.webhookSubscriptionId = subscription.id ∧ a.status = .success) ∧
      w.Succeeded messageId subscription.id := by
  obtain ⟨stages, hcoupled, hrec⟩ := recorded_run hrun hpurge
  obtain ⟨stages', -, hst⟩ := hcoupled.step hstep
  obtain ⟨rfl, -⟩ := hst.addressed hr rfl
  obtain ⟨hexec, -⟩ := hstep.called
  obtain ⟨m, hm, -⟩ := hexec.held rfl rfl
  refine ⟨rfl, fun subscription hsub => ?_⟩
  have hstored := hrec.of_markAsProcessed hst hr hwork (by rw [hm]; rfl) hsub
  obtain ⟨a, ha, hid, hsubId, hstatus⟩ := AttemptStore.hasSuccess_iff.mp hstored
  refine ⟨⟨a, ha, hid, hsubId, hstatus⟩, ?_⟩
  rw [← hid, ← hsubId]
  exact hrec.answered a ha hstatus

/-- A subscription to the order's event. -/
def orderSubscription : WebhookSubscription where
  id := 7
  tenantId := none
  eventType := text "order.placed"
  webhookUrl := text "https://example.org/hook"
  secret := some (text "secret")
  isActive := true
  maxRetries := 3
  timeout := 30 * ticksPerSecond
  customHeaders := none

/-- The answer of an endpoint that accepts a delivery. -/
def accepted : DeliveryResult := ⟨true, some 200, none, none, 5⟩

/-- The id of the first delivery of the order. -/
def firstDeliveryId : Guid := deriveDeliveryId functionsHost.sha256 1 7 1

/-- The attempt of that delivery. -/
def firstAttempt : DeliveryAttempt :=
  Pipeline.deliveryAttempt orderRow₁ orderSubscription firstDeliveryId 1 accepted 50000000

/-- The order was delivered and the attempt saved; `k` is what the round does once it has marked the
message. -/
def savedOrder (k : Except Exn Bool → Prog Call Call.Ans (Except Exn Unit)) : World where
  db := ⟨⟨[orderRow₁], orderRow₁_nodup⟩, ⟨[firstAttempt], by simp⟩, 0⟩
  rounds := [⟨functionsHost, orderRow₁, some ⟨.direct [orderSubscription] ⟨false, []⟩,
    .call (.markAsProcessed 1 (text "func-1")) k⟩⟩]
  log := [(0, ⟨.getDeliveryStates 1 [7], .ok []⟩),
    (0, ⟨.deliver orderRow₁ orderSubscription firstDeliveryId, .ok accepted⟩),
    (0, ⟨.utcNow, (50000000 : ℤ)⟩), (0, ⟨.saveAttempts [firstAttempt], .ok ()⟩)]

theorem savedOrder_run : ∃ acts k, Run sqlServer (Database.Exec sqlServer) (initial 0) acts
    (savedOrder k) ∧ ∀ act ∈ acts, act ≠ .purgeAttempts := by
  have h₁ := (acquired_run (Database.Exec sqlServer)).snoc
    (.begin_ 0 (.direct [orderSubscription] ⟨false, []⟩)) (.begin_ rfl rfl)
  have h₂ := h₁.snoc (.call 0 ⟨.getDeliveryStates 1 [7], Except.ok []⟩)
    (.call rfl rfl rfl (.effect (.getDeliveryStates 1 [7] _)))
  have h₃ := h₂.snoc
    (.call 0 ⟨.deliver orderRow₁ orderSubscription firstDeliveryId, Except.ok accepted⟩)
    (.call rfl rfl rfl (.effect (.deliver _ _ _ _ _)))
  have h₄ := h₃.snoc (.call 0 ⟨.utcNow, (50000000 : ℤ)⟩)
    (.call rfl rfl rfl (.effect (.utcNow _ _)))
  have hsave : AttemptStore.saveAttemptsAsync sqlServer ⟨fun _ => 0, 0⟩ ⟨[orderRow₁], by simp⟩
      [firstAttempt] Table.empty = some ⟨[firstAttempt], by simp⟩ := by decide
  have h₅ := h₄.snoc (.call 0 ⟨.saveAttempts [firstAttempt], Except.ok ()⟩)
    (.call rfl rfl rfl (.effect (.saveAttempts hsave)))
  exact ⟨_, _, h₅, by simp⟩

/-- The order marked as processed: its success is recorded. -/
theorem delivered_means_recorded_order : ∃ k, ∀ subscription ∈ [orderSubscription],
    (∃ a ∈ (savedOrder k).db.attempts.rows, a.outboxMessageId = 1 ∧
      a.webhookSubscriptionId = subscription.id ∧ a.status = .success) ∧
    (savedOrder k).Succeeded 1 subscription.id := by
  obtain ⟨acts, k, hrun, hpurge⟩ := savedOrder_run
  have hstep : Step sqlServer (Database.Exec sqlServer) (savedOrder k)
      (.call 0 ⟨.markAsProcessed 1 (text "func-1"), Except.ok true⟩) _ :=
    .call rfl rfl rfl (.effect (.markAsProcessed 1 (text "func-1") _))
  exact ⟨k, (delivered_means_recorded hrun hpurge hstep rfl rfl).2⟩

end World

end OutboxNet
