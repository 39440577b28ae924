import OutboxNet.Processor.Confluence
import OutboxNet.Processor.FaultIsolation
import OutboxNet.Processor.Rehearsal

/-!
# Tenants do not see each other

What is done for a message depends on the subscriptions of its own tenant and of none, and on nothing else
in the table of subscriptions or in the batch.  Which tenants are the same is for the database to say: its
collation may take two spellings for one.
-/

set_option autoImplicit false

namespace OutboxNet

open AttemptStore (States getDeliveryStatesAsync attemptsOf tryGetValue)
open Pipeline (attemptCount hasSuccess nextAttempt)

/-! ## The rows of a tenant -/

namespace SubscriptionStore

variable {dep : Deployment} {tenantId : Option Text} {s : WebhookSubscription}

/-- Two tables have the same rows for a tenant. -/
def AgreeFor (dep : Deployment) (tenantId : Option Text) (subscriptions₁ subscriptions₂ : Subscriptions) :
    Prop :=
  ∀ s, forTenant dep tenantId s = true → (s ∈ subscriptions₁.rows ↔ s ∈ subscriptions₂.rows)

/-- Where the database tells all strings apart, the rows for a tenant are those of that tenant and of
none. -/
theorem forTenant_iff (hcollation : Function.Injective dep.collation)
    (hfits : ∀ t, tenantId = some t → t.length ≤ 256) :
    forTenant dep tenantId s = true ↔ s.tenantId = none ∨ s.tenantId = tenantId := by
  have hparameter : tenantId.map (parameter dep) = tenantId := by
    cases tenantId with
    | none => rfl
    | some t =>
        refine congrArg some ?_
        unfold parameter
        split
        · exact List.take_of_length_le (hfits t rfl)
        · rfl
  unfold forTenant
  rw [hparameter, Bool.or_eq_true, Option.isNone_iff_eq_none]
  refine or_congr_right ?_
  cases hs : s.tenantId with
  | none => cases tenantId <;> simp [Deployment.sameKey]
  | some a =>
      cases tenantId with
      | none => simp [Deployment.sameKey]
      | some t => simp [Deployment.sameKey, Deployment.sameText_iff, hcollation.eq_iff]

theorem enrichSecret_tenantId (getSecret : SecretRetriever) (s : WebhookSubscription) :
    (enrichSecret getSecret s).tenantId = s.tenantId := by
  unfold enrichSecret
  split <;> rfl

/-- What a store returns for a message is for its tenant. -/
theorem forTenant_of_mem {secretRetriever : Option SecretRetriever} {rows : List WebhookSubscription}
    {message : OutboxMessage} (hs : s ∈ getForMessageAsync dep secretRetriever rows message) :
    forTenant dep message.tenantId s = true := by
  have hselected : ∀ s ∈ rows.filter (selects dep message), forTenant dep message.tenantId s = true := by
    intro s hs
    have hselects := (List.mem_filter.mp hs).2
    rw [selects_eq_and, Bool.and_eq_true] at hselects
    exact hselects.2
  cases secretRetriever with
  | none => exact hselected s hs
  | some getSecret =>
      obtain ⟨s', hs', rfl⟩ := List.mem_map.mp hs
      have hsame : forTenant dep message.tenantId (enrichSecret getSecret s') =
          forTenant dep message.tenantId s' := by
        unfold forTenant
        rw [enrichSecret_tenantId]
      rw [hsame]
      exact hselected s' hs'

end SubscriptionStore

namespace SubscriptionReader

open SubscriptionStore (AgreeFor forTenant)

variable {dep : Deployment} {message : OutboxMessage} {subscriptions₁ subscriptions₂ : Subscriptions}
variable {secretRetriever : Option SubscriptionStore.SecretRetriever}
variable {result₁ result₂ : List WebhookSubscription}

/-- **Tables that agree for the tenant of a message have the same answers for it.** -/
theorem Returns.perm_of_agreeFor (hagree : AgreeFor dep message.tenantId subscriptions₁ subscriptions₂)
    (h₁ : (database subscriptions₁ secretRetriever).Returns dep message result₁)
    (h₂ : (database subscriptions₂ secretRetriever).Returns dep message result₂) :
    result₁.Perm result₂ := by
  obtain ⟨rows₁, hrows₁, rfl⟩ := h₁
  obtain ⟨rows₂, hrows₂, rfl⟩ := h₂
  have hnodup : ∀ {subscriptions : Subscriptions} {rows : List WebhookSubscription},
      rows.Perm subscriptions.rows → (rows.filter (SubscriptionStore.selects dep message)).Nodup :=
    fun {subscriptions} _ hrows =>
      (hrows.nodup_iff.mpr (List.Nodup.of_map _ subscriptions.nodup)).filter _
  refine SubscriptionStore.enrichSecretsAsync_perm _
    ((List.perm_ext_iff_of_nodup (hnodup hrows₁) (hnodup hrows₂)).mpr fun s => ?_)
  rw [List.mem_filter, List.mem_filter, hrows₁.mem_iff, hrows₂.mem_iff]
  refine and_congr_left fun hselects => ?_
  rw [SubscriptionStore.selects_eq_and, Bool.and_eq_true] at hselects
  exact hagree s hselects.2

/-- The subscriptions a reader returns are for the tenant of the message. -/
theorem Returns.forTenant (h : (database subscriptions₁ secretRetriever).Returns dep message result₁)
    {s : WebhookSubscription} (hs : s ∈ result₁) :
    SubscriptionStore.forTenant dep message.tenantId s = true := by
  obtain ⟨rows, -, rfl⟩ := h
  exact SubscriptionStore.forTenant_of_mem hs

end SubscriptionReader

/-! ## One plan for two lists of subscriptions -/

/-- The states of a message's subscriptions do not depend on the order in which they are asked for. -/
theorem AttemptStore.tryGetValue_congr {messageId : Guid} {ids₁ ids₂ : List Guid}
    {attempts₁ attempts₂ : Attempts} (hids : ids₁.Perm ids₂)
    (hattempts : ∀ s, attemptsOf messageId s attempts₁ = attemptsOf messageId s attempts₂)
    (subscriptionId : Guid) :
    tryGetValue (getDeliveryStatesAsync messageId ids₁ attempts₁) subscriptionId =
      tryGetValue (getDeliveryStatesAsync messageId ids₂ attempts₂) subscriptionId := by
  have hgroup : AttemptStore.group messageId ids₁ attempts₁ subscriptionId =
      AttemptStore.group messageId ids₂ attempts₂ subscriptionId := by
    unfold AttemptStore.group AttemptStore.hasSuccess
    rw [hattempts, hids.count_eq]
  rw [AttemptStore.tryGetValue_getDeliveryStatesAsync, AttemptStore.tryGetValue_getDeliveryStatesAsync,
    hgroup]
  simp only [hids.mem_iff]

namespace Job

section Plan

variable {job : Job} {o : Oracle} {subscriptions : List WebhookSubscription} {states states' : States}
variable {log : List Entry}

/-- The round of the same message with other subscriptions. -/
def withSubscriptions (job : Job) (subscriptions : List WebhookSubscription) : Job :=
  { job with subscriptions := subscriptions }

/-- Two plans that say the same of every subscription. -/
structure SamePlan (job : Job) (o : Oracle) (states states' : States) : Prop where
  deliverCall : job.deliverCall states' = job.deliverCall states
  resultFor : job.resultFor o states' = job.resultFor o states
  attemptFor : job.attemptFor o states' = job.attemptFor o states
  verdictFor : job.verdictFor o states' = job.verdictFor o states

section SameStates

variable (hstates : ∀ subscriptionId, tryGetValue states' subscriptionId = tryGetValue states subscriptionId)

include hstates

theorem hasSuccess_congr : hasSuccess states' = hasSuccess states := by
  funext s
  unfold hasSuccess
  rw [hstates]

theorem attemptCount_congr : attemptCount states' = attemptCount states := by
  funext s
  unfold attemptCount
  rw [hstates]

theorem attempted_congr : attempted states' = attempted states := by
  funext s
  unfold attempted
  rw [hasSuccess_congr hstates, attemptCount_congr hstates]

/-- A plan depends on the states of the subscriptions alone. -/
theorem samePlan (job : Job) (o : Oracle) : job.SamePlan o states states' := by
  have hnext : nextAttempt states' = nextAttempt states := by
    funext s
    unfold nextAttempt
    rw [attemptCount_congr hstates]
  have hid : job.deliveryId states' = job.deliveryId states := by
    funext s
    unfold deliveryId
    rw [hnext]
  have hresult : job.resultFor o states' = job.resultFor o states := by
    funext s
    unfold resultFor
    rw [hid]
  refine ⟨?_, hresult, ?_, ?_⟩
  · funext s
    unfold Job.deliverCall
    rw [hid]
  · funext s
    unfold Job.attemptFor
    rw [hid, hnext, hresult]
  · funext s
    unfold Job.verdictFor verdict
    rw [hasSuccess_congr hstates, attemptCount_congr hstates, hresult]

end SameStates

section Congr

variable (hperm : subscriptions.Perm job.subscriptions)
variable (hstates : ∀ subscriptionId, tryGetValue states' subscriptionId = tryGetValue states subscriptionId)

include hperm hstates

theorem targets_congr :
    ((job.withSubscriptions subscriptions).targets states').Perm (job.targets states) := by
  unfold targets
  rw [attempted_congr hstates]
  exact hperm.filter _

theorem ErrorText.congr {error : Text}
    (h : (job.withSubscriptions subscriptions).ErrorText o states' error) :
    job.ErrorText o states error := by
  refine h.imp_right fun ⟨s, hs, hfailed⟩ =>
    ⟨s, (targets_congr hperm hstates).mem_iff.mp hs, ?_⟩
  rw [← (samePlan hstates job o).resultFor]
  exact hfailed

theorem verdictFor_congr {s : WebhookSubscription} {v : Verdict} :
    (s ∈ subscriptions ∧ (job.withSubscriptions subscriptions).verdictFor o states' s = some v) ↔
      (s ∈ job.subscriptions ∧ job.verdictFor o states s = some v) := by
  have hverdict : (job.withSubscriptions subscriptions).verdictFor o states' s =
      job.verdictFor o states s := congrFun (samePlan hstates job o).verdictFor s
  rw [hperm.mem_iff, hverdict]

theorem abandons_congr :
    (job.withSubscriptions subscriptions).Abandons o states' ↔ job.Abandons o states := by
  have htargets : ((job.withSubscriptions subscriptions).targets states').Perm (job.targets states) :=
    targets_congr hperm hstates
  refine and_congr (not_congr ⟨fun hnil => ?_, fun hnil => ?_⟩) (exists_congr fun e =>
    and_congr_right fun _ => or_congr_right (exists_congr fun s => verdictFor_congr hperm hstates))
  · exact (hnil ▸ htargets).symm.eq_nil
  · exact (hnil ▸ htargets).eq_nil

theorem Decides.congr {c : Call} (h : (job.withSubscriptions subscriptions).Decides o states' log c) :
    job.Decides o states log c := by
  have hverdict : (job.withSubscriptions subscriptions).verdictFor o states' =
      job.verdictFor o states := (samePlan hstates job o).verdictFor
  cases h with
  | processed hall =>
      refine .processed fun s hs => ?_
      rw [← hverdict]
      exact hall s (hperm.mem_iff.mpr hs)
  | exhausted hall hsome =>
      refine .exhausted (fun s hs => ?_) ?_
      · rw [← hverdict]
        exact hall s (hperm.mem_iff.mpr hs)
      · obtain ⟨s, hexhausted⟩ := hsome
        exact ⟨s, (verdictFor_congr hperm hstates).mp hexhausted⟩
  | failed hsome herror hback =>
      obtain ⟨s, hfailed⟩ := hsome
      refine .failed ⟨s, (verdictFor_congr hperm hstates).mp hfailed⟩ (herror.congr hperm hstates) ?_
      -- the failure handler does not look at the subscriptions
      cases hback with
      | giveUp hnone => exact .giveUp hnone
      | retry hsome hnow hadd => exact .retry hsome hnow hadd

/-- **What a round does depends neither on the order of its subscriptions nor on that of the states.** -/
theorem Conducted.congr (h : (job.withSubscriptions subscriptions).Conducted o states' log) :
    job.Conducted o states log := by
  have hplan := samePlan hstates job o
  have htargets : ((job.withSubscriptions subscriptions).targets states').Perm (job.targets states) :=
    targets_congr hperm hstates
  have habandons : (job.withSubscriptions subscriptions).Abandons o states' ↔ job.Abandons o states :=
    abandons_congr hperm hstates
  constructor
  · rw [← hplan.deliverCall]
    exact h.deliveries.trans (htargets.map _)
  · rw [← hplan.attemptFor]
    exact h.saved.trans (htargets.map _)
  · intro hnot
    obtain ⟨c, hc, hdecides⟩ := h.writeBack (mt habandons.mp hnot)
    exact ⟨c, hc, hdecides.congr hperm hstates⟩
  · intro hleft
    exact h.abandoned (habandons.mpr hleft)

end Congr

end Plan

end Job

/-! ## What is read and delivered -/

section Handling

variable {dep : Deployment} {options : OutboxOptions} {reader : SubscriptionReader}
variable {x x' : BatchSession}

/-- A round that began with these attempts: they are there until it reads the states, and it reads theirs
only. -/
structure Job.Reading (job : Job) (attempts : Attempts) (s : Stage) (y : BatchSession) : Prop where
  unread : s = .start → y.host.db.attempts = attempts
  read : job.ReadStates (getDeliveryStatesAsync job.message.id (job.subscriptions.map (·.id)) attempts)
    (handled job.message.id y.log)

theorem Job.Reading.step {job : Job} {attempts : Attempts} {c : Call} {a : c.Ans} {s s' : Stage}
    (h : job.Reading attempts s x) (htrans : job.Trans c s a s')
    (hcall : BatchSession.Exec dep options reader (.handling job.message.id c) x a x') :
    job.Reading attempts s' x' := by
  obtain ⟨hhost, hlog⟩ := hcall
  obtain ⟨now, db, -, hdb, hhost'⟩ := Host.exec_handling_iff.mp hhost
  constructor
  · intro hs'
    obtain ⟨hs, metric, eventType, rfl⟩ := htrans.metric_of_start hs'
    rw [hhost', ← h.unread hs]
    rcases hdb.change.attempts with hsame | ⟨_, _, hc, -⟩
    · exact hsame
    · cases hc
  · rw [hlog, handled_handling]
    intro ids states hmem
    rcases List.mem_append.mp hmem with hmem | hmem
    · exact h.read ids states hmem
    · cases List.mem_singleton.mp hmem
      obtain rfl := htrans.start_of_read rfl
      obtain ⟨-, rfl, -⟩ := htrans.read_inv
      rw [hdb.read.1, ← h.unread rfl]

/-- **A round reads the states that are stored when its handling begins.** -/
theorem Job.readStates_of_handling {job : Job} {loop : LoopSchedule} {r : Except Exn Unit}
    (hnone : handled job.message.id x.log = [])
    (h : Prog.Exec (BatchSession.Exec dep options reader) (BatchAsync.handling job.message.id
      (job.pipeline.processSingleMessageAsync loop job.message job.lockedBy job.subscriptions)).run x r
      x') :
    job.ReadStates (getDeliveryStatesAsync job.message.id (job.subscriptions.map (·.id))
      x.host.db.attempts) (handled job.message.id x'.log) := by
  have hbegin : job.Reading x.host.db.attempts .start x := by
    refine ⟨fun _ => rfl, ?_⟩
    rw [hnone]
    intro ids states hmem
    cases hmem
  have hexec : Prog.Exec (fun c d a d' => ∃ a', a' = a ∧
      BatchSession.Exec dep options reader (.handling job.message.id c) d a' d')
      (job.pipeline.processSingleMessageAsync loop job.message job.lockedBy job.subscriptions).run x r
      x' := Prog.Exec.of_mapCalls h
  obtain ⟨s', -, hreading⟩ := (job.processSingleMessageAsync_conforms loop).exec
    (fun c s a s' d d' hreading htrans ⟨_, heq, hcall⟩ => hreading.step htrans (heq ▸ hcall)) hexec hbegin
  exact hreading.read

/-- In a batch an id is that of one message. -/
theorem filter_id_eq_singleton {messages : List OutboxMessage} {message : OutboxMessage}
    (hnodup : (messages.map OutboxMessage.id).Nodup) (hmem : message ∈ messages) :
    (messages.filter fun m => decide (m.id = message.id)) = [message] :=
  Table.filter_eq_singleton (t := ⟨messages, hnodup⟩) (Table.find?_eq_some_iff.mpr ⟨hmem, rfl⟩)
    (decide_eq_true rfl) fun _ _ hm => of_decide_eq_true hm

namespace Pipeline

variable {p : Pipeline} {hasPublisher : Bool} {schedule : BatchSchedule}
variable {message : OutboxMessage} {messages : List OutboxMessage}

/-- **What is done for a message in a batch that is delivered directly**: its round, with what the reader
returns for it. -/
theorem exists_handling (hqueue : ¬ p.ToQueue hasPublisher)
    (hnodup : (messages.map OutboxMessage.id).Nodup) (hmem : message ∈ messages) (hlog : x.log = [])
    (hschedule : schedule.Uncanceled)
    (h : Prog.Exec (BatchSession.Exec dep options reader)
      (p.processLockedBatchAsync hasPublisher schedule messages).run x (.ok ()) x') :
    ∃ subscriptions y r y', reader.Returns dep message subscriptions ∧
      y.host.db.attempts = x.host.db.attempts ∧ handled message.id y.log = [] ∧
      Prog.Exec (BatchSession.Exec dep options reader) (BatchAsync.handling message.id
        (p.processSingleMessageAsync (schedule.subscriptions message.id) message p.options.instanceId
          subscriptions)).run y r y' ∧
      handled message.id y'.log = handled message.id x'.log := by
  unfold processLockedBatchAsync at h
  rw [if_neg hqueue] at h
  rcases Prog.exec_bindThrowing_iff.mp h with ⟨cache, y, hcache, hdirect⟩ | ⟨e, -, he⟩
  swap
  · cases he
  have hserves := buildSubscriptionCacheAsync_serves hcache
  obtain ⟨subscriptions, hfound⟩ := Option.isSome_iff_exists.mp (hserves.found message hmem)
  have hunhandled : ∀ m ∈ messages, handled m.id y.log = [] := by
    intro m _
    rw [buildSubscriptionCacheAsync_handled m.id hcache, hlog]
    rfl
  have hattempts : y.host.db.attempts = x.host.db.attempts := by
    refine Prog.Only.exec_invariant (P := Asks)
      (J := fun z => z.host.db.attempts = x.host.db.attempts) ?_ hcache
      (foldlM_cacheMessageAsync_asks messages []) rfl
    rintro c z a z' ⟨m, rfl⟩ hz hcall
    exact (Host.Exec.tables rfl hcall.1).2.1.trans hz
  -- the other messages are erased from the loop
  have hkeep : BatchSession.Alike (· = message.id) y y := BatchSession.Alike.refl _ y
  obtain ⟨schedule', r, y', hsubscriptions, huncanceled, hsolo, hlike⟩ :=
    processDirectDeliveryAsync_erase hnodup hdirect hkeep hunhandled (fun _ _ _ => rfl) (.inl rfl)
  rw [filter_id_eq_singleton hnodup hmem] at hsolo
  have hdegree : ∃ limit, parallelOptions p.options.maxConcurrentDeliveries = .ok limit := by
    cases hlimit : parallelOptions p.options.maxConcurrentDeliveries with
    | ok limit => exact ⟨limit, rfl⟩
    | error e =>
        unfold processDirectDeliveryAsync at hdirect
        rw [hlimit] at hdirect
        cases (Prog.exec_ret_iff.mp hdirect).1
  obtain ⟨limit, hlimit⟩ := hdegree
  rw [processDirectDeliveryAsync_singleton (huncanceled hschedule) hlimit, hsubscriptions] at hsolo
  unfold processCachedMessageAsync at hsolo
  rw [SubscriptionCache.get_of_tryGetValue hfound] at hsolo
  exact ⟨subscriptions, y, r, y', hserves.returns message subscriptions hfound, hattempts,
    hunhandled message hmem, hsolo, hlike.handled message.id (decide_eq_true rfl)⟩

end Pipeline

end Handling

/-- A message that is handed to the queue, when nothing throws. -/
theorem Job.processQueuedMessageAsync_told {job : Job} {o : Oracle} {r : Except Exn Unit}
    {l l' : List Entry} (h : Prog.Exec (o.Exec job.pipeline.retryPolicy job.message)
      (job.pipeline.processQueuedMessageAsync job.lockedBy job.message).run l r l') :
    Job.WroteOnly (.markAsProcessed job.message.id job.lockedBy) r l l' := by
  have hpublishing : ∀ {r : Except Exn Unit} {l₁ : List Entry},
      Prog.Exec (o.Exec job.pipeline.retryPolicy job.message) (do
        Async.publish job.message
        if ← Async.markAsProcessed job.message.id job.lockedBy then
          Async.addMetric .messagesProcessed job.message.eventType : Async Unit).run l r l₁ →
      Job.WroteOnly (.markAsProcessed job.message.id job.lockedBy) r l l₁ := by
    intro r l₁ hrun
    rcases Prog.exec_bindThrowing_iff.mp hrun with ⟨_, l₂, hpublish, hrest⟩ | ⟨e, hpublish, -⟩
    · obtain ⟨rfl, -⟩ := Job.oracle_perform hpublish
      exact (Job.countedWriteBack_told (fun h => Job.markAsProcessed_told h) hrest).after rfl
    · obtain ⟨-, hanswer⟩ := Job.oracle_perform hpublish
      cases hanswer
  unfold Pipeline.processQueuedMessageAsync at h
  rcases Prog.exec_bindThrowing_iff.mp h with ⟨x, l₁, hcatch, hrest⟩ | ⟨e, hcatch, -⟩
  · rcases Prog.exec_catching hcatch with ⟨_, hrun, heq⟩ | ⟨e, hrun, -⟩
    · cases heq
      obtain ⟨rfl, rfl⟩ := Prog.exec_ret_iff.mp hrest
      exact ⟨rfl, (hpublishing hrun).2⟩
    · cases (hpublishing hrun).1
  · rcases Prog.exec_catching hcatch with ⟨_, -, he⟩ | ⟨e', hrun, -⟩
    · cases he
    · cases (hpublishing hrun).1

/-! ## Batches -/

/-- A run of a locked batch to its end, in which nothing is cancelled and nothing leaves the loop over the
messages. -/
structure BatchRun (dep : Deployment) (p : Pipeline) (hasPublisher : Bool) (reader : SubscriptionReader)
    where
  schedule : BatchSchedule
  messages : List OutboxMessage
  before : BatchSession
  after : BatchSession
  nodup : (messages.map OutboxMessage.id).Nodup
  log : before.log = []
  uncanceled : schedule.Uncanceled
  exec : Prog.Exec (BatchSession.Exec dep p.options reader)
    (p.processLockedBatchAsync hasPublisher schedule messages).run before (.ok ()) after

namespace BatchRun

variable {dep : Deployment} {p : Pipeline} {hasPublisher : Bool} {reader : SubscriptionReader}
variable {o : Oracle} {m : OutboxMessage}

/-- Message `m` is in the batch, and what is called for it is answered by the oracle. -/
structure Answered (run : BatchRun dep p hasPublisher reader) (o : Oracle) (m : OutboxMessage) : Prop where
  mem : m ∈ run.messages
  loop : ¬ (run.schedule.subscriptions m.id).cancels
  answers : ∀ entry ∈ handled m.id run.after.log, o.Answers p.retryPolicy m entry.call entry.answer

/-- The round of a message with these subscriptions. -/
def job (p : Pipeline) (m : OutboxMessage) (subscriptions : List WebhookSubscription) : Job :=
  ⟨p, m, p.options.instanceId, subscriptions⟩

/-- The states of these subscriptions before the run. -/
def states (run : BatchRun dep p hasPublisher reader) (m : OutboxMessage)
    (subscriptions : List WebhookSubscription) : States :=
  getDeliveryStatesAsync m.id (subscriptions.map (·.id)) run.before.host.db.attempts

variable {run : BatchRun dep p hasPublisher reader}

/-- **Direct delivery**: the message has the round of the subscriptions the reader returns for it. -/
theorem Answered.conducted (h : run.Answered o m) (hqueue : ¬ p.ToQueue hasPublisher)
    (hstarts : p.Starts) : ∃ subscriptions, reader.Returns dep m subscriptions ∧
      (job p m subscriptions).Conducted o (run.states m subscriptions) (handled m.id run.after.log) := by
  obtain ⟨subscriptions, y, r, y', hreturns, hattempts, hnone, hexec, hlog⟩ :=
    Pipeline.exists_handling hqueue run.nodup h.mem run.log run.uncanceled run.exec
  have hrecorded := Pipeline.recorded_of_handling hexec
  have hread : (job p m subscriptions).ReadStates
      (getDeliveryStatesAsync m.id (subscriptions.map (·.id)) y.host.db.attempts)
      (handled m.id y'.log) := Job.readStates_of_handling hnone hexec
  rw [hnone, hlog] at hrecorded
  rw [hattempts, hlog] at hread
  have hround := Oracle.exec_of_recorded hrecorded h.answers
  have hconducted : (job p m subscriptions).Conducted o (run.states m subscriptions)
      (handled m.id run.after.log) := Job.processSingleMessageAsync_told hstarts h.loop hround hread
  exact ⟨subscriptions, hreturns, hconducted⟩

/-- **Queue-mediated delivery**: the message is published and marked as processed. -/
theorem Answered.queued (h : run.Answered o m) (hqueue : p.ToQueue hasPublisher) :
    WritesBack (handled m.id run.after.log) [.markAsProcessed m.id p.options.instanceId] := by
  have hexec := run.exec
  unfold Pipeline.processLockedBatchAsync at hexec
  rw [if_pos hqueue] at hexec
  have hkeep : BatchSession.Alike (· = m.id) run.before run.before := BatchSession.Alike.refl _ _
  obtain ⟨r, y', hsolo, hlike⟩ :=
    Pipeline.processQueueMediatedAsync_erase run.nodup hexec hkeep (.inl rfl)
  rw [filter_id_eq_singleton run.nodup h.mem, Pipeline.processQueueMediatedAsync_cons] at hsolo
  have hlog : handled m.id y'.log = handled m.id run.after.log :=
    hlike.handled m.id (decide_eq_true rfl)
  -- after the message there is nothing left
  have hhandling : ∃ r, Prog.Exec (BatchSession.Exec dep p.options reader)
      (BatchAsync.handling m.id (p.processQueuedMessageAsync p.options.instanceId m)).run run.before r
      y' := by
    rcases Prog.exec_bindThrowing_iff.mp hsolo with ⟨u, y₁, hhead, hrest⟩ | ⟨e, hhead, -⟩
    · obtain ⟨-, rfl⟩ := Prog.exec_ret_iff.mp hrest
      exact ⟨_, hhead⟩
    · exact ⟨_, hhead⟩
  obtain ⟨r, hhandling⟩ := hhandling
  have hrecorded := Pipeline.recorded_of_handling hhandling
  rw [hlog, run.log] at hrecorded
  have hround : Prog.Exec (o.Exec p.retryPolicy m)
      (p.processQueuedMessageAsync p.options.instanceId m).run [] r (handled m.id run.after.log) :=
    Oracle.exec_of_recorded hrecorded h.answers
  obtain ⟨-, new, hnew, hwrites⟩ :=
    @Job.processQueuedMessageAsync_told (job p m []) _ _ _ _ hround
  rw [hnew]
  exact hwrites

/-- A message that goes to the queue has the same round in both runs, whatever the subscriptions. -/
theorem Answered.queued_same {reader₁ reader₂ : SubscriptionReader}
    {run₁ : BatchRun dep p hasPublisher reader₁} {run₂ : BatchRun dep p hasPublisher reader₂}
    (h₁ : run₁.Answered o m) (h₂ : run₂.Answered o m) (hqueue : p.ToQueue hasPublisher)
    {subscriptions : List WebhookSubscription} {states : States} :
    (job p m subscriptions).SameRound o states (handled m.id run₁.after.log)
      (handled m.id run₂.after.log) := by
  have hlog₁ := h₁.queued hqueue
  have hlog₂ := h₂.queued hqueue
  refine ⟨?_, ?_, ?_, ?_⟩
  · rw [hlog₁.deliveries, hlog₂.deliveries]
  · rw [hlog₁.saved, hlog₂.saved]
  · rw [hlog₁.writeBacks, hlog₂.writeBacks]
    exact .cons .processed .nil
  · rw [hlog₁.writeBacks]
    exact le_refl 1

end BatchRun

/-! ## Whom a batch delivers to -/

/-- A delivery, if it is one, is one of a message of `messages` to a subscription for its tenant. -/
def BatchCall.DeliversWithin (dep : Deployment) (messages : List OutboxMessage) : BatchCall → Prop
  | .handling _ (.deliver m s _) => m ∈ messages ∧ SubscriptionStore.forTenant dep m.tenantId s = true
  | _ => True

theorem BatchCall.nonempty_ans (c : BatchCall) : Nonempty c.Ans := by
  cases c with
  | utcNow => exact ⟨(0 : ℤ)⟩
  | readLastLockRelease => exact ⟨(0 : ℤ)⟩
  | compareExchangeLastLockRelease => exact ⟨(0 : ℤ)⟩
  | releaseExpiredLocks => exact ⟨.ok ()⟩
  | lockNextBatch => exact ⟨.ok []⟩
  | tryLockById => exact ⟨.ok none⟩
  | getForMessage => exact ⟨.ok []⟩
  | recordBatch => exact ⟨()⟩
  | handling k c => exact c.nonempty_ans

namespace Pipeline

variable {dep : Deployment} {options : OutboxOptions} {p : Pipeline} {hasPublisher : Bool}
variable {schedule : BatchSchedule} {loop : LoopSchedule} {lockedBy : Text} {message : OutboxMessage}
variable {messages : List OutboxMessage} {subscriptions : List WebhookSubscription}
variable {x x' : BatchSession} {r : Except Exn Unit}

/-- A round delivers its own message to its own subscriptions. -/
theorem processSingleMessageAsync_delivers
    (hfor : ∀ s ∈ subscriptions, SubscriptionStore.forTenant dep message.tenantId s = true)
    (hmem : message ∈ messages) (k : Guid) :
    (p.processSingleMessageAsync loop message lockedBy subscriptions).run.Only
      fun c => (BatchCall.handling k c).DeliversWithin dep messages := by
  have hconforms := Job.processSingleMessageAsync_conforms ⟨p, message, lockedBy, subscriptions⟩ loop
  refine hconforms.only Call.nonempty_ans fun c s a s' htrans => ?_
  cases c with
  | deliver m subscription deliveryId =>
      obtain ⟨_, _, i, -, -, rfl, hsub, -⟩ := htrans.deliver_inv
      exact ⟨hmem, hfor subscription (List.mem_of_getElem? hsub)⟩
  | _ => trivial

/-- In queue-mediated mode nothing is delivered. -/
theorem processQueueMediatedAsync_delivers (messages' : List OutboxMessage) :
    (p.processQueueMediatedAsync lockedBy messages').run.Only (BatchCall.DeliversWithin dep messages) := by
  induction messages' with
  | nil => trivial
  | cons first messages' ih =>
      rw [processQueueMediatedAsync_cons]
      refine Prog.Only.bindThrowing ?_ fun _ => ih
      have hqueued : (p.processQueuedMessageAsync lockedBy first).run.Only
          fun c => (BatchCall.handling first.id c).DeliversWithin dep messages := by
        refine (processQueuedMessageAsync_queued p).only Call.nonempty_ans fun c _ _ _ h => ?_
        cases c with
        | deliver => exact h.elim
        | _ => trivial
      refine Prog.Only.mapCalls ?_ hqueued
      exact fun _ hc => hc

/-- The loop over the messages delivers to the subscriptions in the cache. -/
theorem processDirectDeliveryAsync_delivers {subscriptions : Subscriptions}
    {secretRetriever : Option SubscriptionStore.SecretRetriever} {cache : SubscriptionCache}
    (hserves : SubscriptionCache.Serves dep (.database subscriptions secretRetriever) messages cache) :
    (p.processDirectDeliveryAsync schedule lockedBy cache messages).run.Only
      (BatchCall.DeliversWithin dep messages) := by
  unfold processDirectDeliveryAsync
  cases hlimit : parallelOptions p.options.maxConcurrentDeliveries with
  | error e => trivial
  | ok limit =>
      refine Parallel.forEachAsync_only BatchCall.nonempty_ans (fun m hm => ?_) _ _ _
      obtain ⟨returned, hfound⟩ := Option.isSome_iff_exists.mp (hserves.found m hm)
      have hreturns := hserves.returns m returned hfound
      have hbody : (p.processCachedMessageAsync (schedule.subscriptions m.id) lockedBy cache m).run.Only
          fun c => (BatchCall.handling m.id c).DeliversWithin dep messages := by
        unfold processCachedMessageAsync
        rw [SubscriptionCache.get_of_tryGetValue hfound]
        exact processSingleMessageAsync_delivers (fun s hs => hreturns.forTenant hs) hm m.id
      refine Prog.Only.mapCalls ?_ hbody
      exact fun _ hc => hc

/-- While the cache is built, nothing is delivered. -/
theorem buildSubscriptionCacheAsync_delivers {reader : SubscriptionReader}
    {cache : Except Exn SubscriptionCache} (hlog : x.log = [])
    (h : Prog.Exec (BatchSession.Exec dep options reader) (buildSubscriptionCacheAsync messages).run x
      cache x') : ∀ entry ∈ x'.log, entry.call.DeliversWithin dep messages := by
  obtain ⟨new, hnew, hasks⟩ := BatchSession.exec_log h (foldlM_cacheMessageAsync_asks messages [])
  rw [hnew, hlog]
  intro entry hmem
  obtain ⟨m, hm⟩ := hasks entry hmem
  rw [hm]
  trivial

/-- A batch that has been locked delivers its messages to subscriptions for their tenants. -/
theorem processLockedBatchAsync_delivers {subscriptions : Subscriptions}
    {secretRetriever : Option SubscriptionStore.SecretRetriever} (hlog : x.log = [])
    (h : Prog.Exec (BatchSession.Exec dep options (.database subscriptions secretRetriever))
      (p.processLockedBatchAsync hasPublisher schedule messages).run x r x') :
    ∀ entry ∈ x'.log, entry.call.DeliversWithin dep messages := by
  unfold processLockedBatchAsync at h
  split at h
  · obtain ⟨new, hnew, honly⟩ := BatchSession.exec_log h (processQueueMediatedAsync_delivers messages)
    rw [hnew, hlog]
    exact honly
  · rcases Prog.exec_bindThrowing_iff.mp h with ⟨cache, x₁, hcache, hdirect⟩ | ⟨e, hcache, -⟩
    · have hserves := buildSubscriptionCacheAsync_serves hcache
      obtain ⟨new, hnew, honly⟩ :=
        BatchSession.exec_log hdirect (processDirectDeliveryAsync_delivers hserves)
      rw [hnew]
      intro entry hmem
      rcases List.mem_append.mp hmem with hmem | hmem
      · exact buildSubscriptionCacheAsync_delivers hlog hcache entry hmem
      · exact honly entry hmem
    · exact buildSubscriptionCacheAsync_delivers hlog hcache

/-- The handling of one message that has been locked by its id. -/
theorem processLockedMessageAsync_delivers {subscriptions : Subscriptions}
    {secretRetriever : Option SubscriptionStore.SecretRetriever} {r : Except Exn Unit}
    (h : Prog.Exec (BatchSession.Exec dep options (.database subscriptions secretRetriever))
      (p.processLockedMessageAsync hasPublisher loop message).run x r x') :
    ∃ new, x'.log = x.log ++ new ∧ ∀ entry ∈ new, entry.call.DeliversWithin dep [message] := by
  unfold processLockedMessageAsync at h
  split at h
  · split at h
    · exact BatchSession.exec_log h (processQueueMediatedAsync_delivers [message])
    · obtain ⟨-, rfl⟩ := Prog.exec_ret_iff.mp h
      exact ⟨[], (List.append_nil _).symm, List.forall_mem_nil _⟩
  · obtain ⟨a, x₁, hask, hrest⟩ := Prog.exec_call_iff.mp h
    cases a with
    | error e =>
        obtain ⟨-, rfl⟩ := Prog.exec_ret_iff.mp hrest
        exact ⟨_, hask.2, fun entry hmem => by rw [List.mem_singleton.mp hmem]; trivial⟩
    | ok returned =>
        have hreturns := Host.Exec.returns hask.1
        have honly : (BatchAsync.handling message.id (p.processSingleMessageAsync loop message
            p.options.instanceId returned)).run.Only (BatchCall.DeliversWithin dep [message]) := by
          refine Prog.Only.mapCalls ?_ (processSingleMessageAsync_delivers
            (fun s hs => hreturns.forTenant hs) (List.mem_singleton_self message) message.id)
          exact fun _ hc => hc
        obtain ⟨new, hnew, hall⟩ := BatchSession.exec_log hrest honly
        refine ⟨[⟨.getForMessage message, Except.ok returned⟩] ++ new, ?_, ?_⟩
        · rw [hnew, hask.2, List.append_assoc]
        · intro entry hmem
          rcases List.mem_append.mp hmem with hmem | hmem
          · rw [List.mem_singleton.mp hmem]
            trivial
          · exact hall entry hmem

/-- A message handled by its id is delivered to subscriptions for its tenant. -/
theorem tryProcessByIdAsync_delivers {subscriptions : Subscriptions}
    {secretRetriever : Option SubscriptionStore.SecretRetriever} {k : Guid} {r : Except Exn Bool}
    (hlog : x.log = [])
    (h : Prog.Exec (BatchSession.Exec dep options (.database subscriptions secretRetriever))
      (p.tryProcessByIdAsync hasPublisher loop k).run x r x') :
    ∃ messages, ∀ entry ∈ x'.log, entry.call.DeliversWithin dep messages := by
  obtain ⟨a, x₁, hlock, hrest⟩ := Prog.exec_call_iff.mp h
  have hlocked : ∀ messages, ∀ entry ∈ x₁.log, entry.call.DeliversWithin dep messages := by
    intro messages entry hmem
    rw [hlock.2, hlog] at hmem
    rw [List.mem_singleton.mp hmem]
    trivial
  rcases a with e | _ | m
  · obtain ⟨-, rfl⟩ := Prog.exec_ret_iff.mp hrest
    exact ⟨[], hlocked []⟩
  · obtain ⟨-, rfl⟩ := Prog.exec_ret_iff.mp hrest
    exact ⟨[], hlocked []⟩
  · have hhandled : ∃ r', Prog.Exec (BatchSession.Exec dep options
        (.database subscriptions secretRetriever))
        (p.processLockedMessageAsync hasPublisher loop m).run x₁ r' x' := by
      rcases Prog.exec_bindThrowing_iff.mp hrest with ⟨u, x₂, hhandle, hret⟩ | ⟨e, hhandle, -⟩
      · obtain ⟨-, rfl⟩ := Prog.exec_ret_iff.mp hret
        exact ⟨_, hhandle⟩
      · exact ⟨_, hhandle⟩
    obtain ⟨r', hhandled⟩ := hhandled
    obtain ⟨new, hnew, hall⟩ := processLockedMessageAsync_delivers hhandled
    refine ⟨[m], ?_⟩
    rw [hnew]
    intro entry hmem
    rcases List.mem_append.mp hmem with hmem | hmem
    · exact hlocked [m] entry hmem
    · exact hall entry hmem

end Pipeline

/-! ## Two runs -/

/-- **Tenant isolation.**  Two runs, on tables of subscriptions that agree for the tenant of a message and
with whatever else in the batch, make the same deliveries for it, save the same attempts and write it back
in the same way; and in every run a message is delivered to the subscriptions for its tenant only. -/
structure TenantIsolated (dep : Deployment) (p : Pipeline) (hasPublisher : Bool)
    (secretRetriever : Option SubscriptionStore.SecretRetriever) : Prop where
  same : ∀ {subscriptions₁ subscriptions₂ : Subscriptions} {o : Oracle} {m : OutboxMessage}
    (run₁ : BatchRun dep p hasPublisher (.database subscriptions₁ secretRetriever))
    (run₂ : BatchRun dep p hasPublisher (.database subscriptions₂ secretRetriever)),
    SubscriptionStore.AgreeFor dep m.tenantId subscriptions₁ subscriptions₂ →
    (∀ s, attemptsOf m.id s run₁.before.host.db.attempts = attemptsOf m.id s run₂.before.host.db.attempts) →
    run₁.Answered o m → run₂.Answered o m → p.Starts → o.saveThrows = none →
    ∃ subscriptions, (SubscriptionReader.database subscriptions₁ secretRetriever).Returns dep m
        subscriptions ∧
      (BatchRun.job p m subscriptions).SameRound o (run₁.states m subscriptions)
        (handled m.id run₁.after.log) (handled m.id run₂.after.log)
  delivered : ∀ {subscriptions : Subscriptions} {schedule : BatchSchedule}
    {messages : List OutboxMessage} {x x' : BatchSession} {r : Except Exn Unit}, x.log = [] →
    Prog.Exec (BatchSession.Exec dep p.options (.database subscriptions secretRetriever))
      (p.processLockedBatchAsync hasPublisher schedule messages).run x r x' →
    ∀ entry ∈ x'.log, entry.call.DeliversWithin dep messages
  deliveredById : ∀ {subscriptions : Subscriptions} {loop : LoopSchedule} {k : Guid}
    {x x' : BatchSession} {r : Except Exn Bool}, x.log = [] →
    Prog.Exec (BatchSession.Exec dep p.options (.database subscriptions secretRetriever))
      (p.tryProcessByIdAsync hasPublisher loop k).run x r x' →
    ∃ messages, ∀ entry ∈ x'.log, entry.call.DeliversWithin dep messages

/-- **Tenants do not see each other.** -/
theorem tenant_noninterference (dep : Deployment) (p : Pipeline) (hasPublisher : Bool)
    (secretRetriever : Option SubscriptionStore.SecretRetriever) :
    TenantIsolated dep p hasPublisher secretRetriever where
  same := by
    intro subscriptions₁ subscriptions₂ o m run₁ run₂ hagree hattempts h₁ h₂ hstarts _
    by_cases hqueue : p.ToQueue hasPublisher
    · -- neither run looks at the subscriptions
      obtain ⟨subscriptions, hreturns⟩ :=
        (SubscriptionReader.database subscriptions₁ secretRetriever).exists_returns dep m
      exact ⟨subscriptions, hreturns, h₁.queued_same h₂ hqueue⟩
    · obtain ⟨returned₁, hreturns₁, hconducted₁⟩ := h₁.conducted hqueue hstarts
      obtain ⟨returned₂, hreturns₂, hconducted₂⟩ := h₂.conducted hqueue hstarts
      have hperm : returned₂.Perm returned₁ := (hreturns₁.perm_of_agreeFor hagree hreturns₂).symm
      have hstates := AttemptStore.tryGetValue_congr (hperm.map (·.id)) fun s => (hattempts s).symm
      have hconducted : (BatchRun.job p m returned₁).Conducted o (run₁.states m returned₁)
          (handled m.id run₂.after.log) := Job.Conducted.congr hperm hstates hconducted₂
      have hsame : ((BatchRun.job p m returned₁).withDegree
          p.options.maxConcurrentSubscriptionDeliveries) = BatchRun.job p m returned₁ := rfl
      rw [← hsame] at hconducted₁ hconducted
      exact ⟨returned₁, hreturns₁, hconducted₁.same hconducted⟩
  delivered := Pipeline.processLockedBatchAsync_delivers
  deliveredById := Pipeline.tryProcessByIdAsync_delivers

/-! ## The shop and its tenants -/

/-- Whether an answer is one of the oracle, in a round of message `m` in which nothing else throws. -/
def Oracle.answered (o : Oracle) (policy : RetryPolicy) (m : OutboxMessage) : (c : Call) → c.Ans → Bool
  | .deliver message subscription deliveryId, .ok r =>
      decide (r = o.deliver message subscription deliveryId)
  | .deliver _ _ _, .error _ => false
  | .nextDouble, draw =>
      decide ((show ℚ from draw) = o.nextDouble m.id) && (errorOf (policy.getNextDelay m.retryCount draw)).isNone
  | .utcNow, now =>
      match policy.getNextDelay m.retryCount (o.nextDouble m.id) with
      | .ok (some delay) => (errorOf (addTime now delay)).isNone
      | _ => true
  | .saveAttempts _, a => decide (errorOf a = o.saveThrows)
  | c, a => (c.exn? a).isNone

theorem Oracle.answers_of_answered {o : Oracle} {policy : RetryPolicy} {m : OutboxMessage} {c : Call}
    {a : c.Ans} (h : o.answered policy m c a = true) : o.Answers policy m c a := by
  cases c with
  | deliver message subscription deliveryId =>
      cases a with
      | error e => cases h
      | ok r => exact congrArg Except.ok (of_decide_eq_true h)
  | nextDouble =>
      obtain ⟨hdraw, hdelay⟩ := Bool.and_eq_true_iff.mp h
      have hsame : (show ℚ from a) = o.nextDouble m.id := of_decide_eq_true hdraw
      exact ⟨hsame, Job.ok_of_errorOf (Option.isNone_iff_eq_none.mp hdelay)⟩
  | utcNow =>
      intro delay hdelay
      rw [answered, hdelay] at h
      exact Job.ok_of_errorOf (Option.isNone_iff_eq_none.mp h)
  | saveAttempts =>
      have hsame : errorOf a = o.saveThrows := of_decide_eq_true h
      exact hsame
  | _ => exact Option.isNone_iff_eq_none.mp h

/-- One message of the shop, locked, and nothing delivered yet. -/
def soloSession (m : OutboxMessage) : BatchSession where
  host := ⟨⟨⟨[m], List.nodup_singleton _⟩, Table.empty, 1000⟩, 0⟩
  log := []

/-- A subscription of a tenant, or of none. -/
def tenantHook (id : Guid) (tenantId : Option Text) : WebhookSubscription :=
  ⟨id, tenantId, text "order.paid", text "https://acme.example/hook", some (text "s3cret"), true, 5,
    30 * ticksPerSecond, none⟩

def tenantSubscription (tenantId : Text) : WebhookSubscription := tenantHook 1 (some tenantId)

/-- The table with this subscription. -/
def tenantSubscriptions (tenantId : Text) : Subscriptions := ⟨[tenantSubscription tenantId], by simp⟩

/-- A locked message of a tenant. -/
def tenantMessage (tenantId : Text) : OutboxMessage :=
  OutboxStore.lockRow (text "worker-1") (1000 + 300 * ticksPerSecond)
    (Pipeline.shopMessage 10 (some tenantId))

/-- The table with a subscription of the tenant `acme`, one for all, and one of another tenant. -/
def sharedTable (tenantId : Text) : Subscriptions :=
  ⟨[tenantHook 7 (some (text "acme")), tenantHook 8 none, tenantHook 9 (some tenantId)],
    (by decide : ([7, 8, 9] : List Guid).Nodup)⟩

/-- A message of `acme`, and another one. -/
def sharedBatch (tenantId : Option Text) : List OutboxMessage :=
  [tenantMessage (text "acme"), OutboxStore.lockRow (text "worker-1") (1000 + 300 * ticksPerSecond)
    (Pipeline.shopMessage 11 tenantId)]

/-- They are locked, and nothing is delivered yet. -/
def sharedSession (tenantId : Option Text) : BatchSession where
  host := ⟨⟨⟨sharedBatch tenantId, (by decide : ([10, 11] : List Guid).Nodup)⟩, Table.empty, 1000⟩, 0⟩
  log := []

/-- The reply of an endpoint that is down. -/
def down (status : ℤ) : BatchReply :=
  .handled (.returned (.ok ⟨false, some status, none,
    some (if status = 500 then text "HTTP 500" else text "HTTP 503"), 5⟩))

/-- The replies of a round with one subscription, at this time. -/
def oneDown (status : ℤ) (now : DateTimeOffset) : List BatchReply :=
  [.handled .done, down status, .handled (.time now), .handled .done, .handled (.drew 0),
    .handled (.time now), .handled .done, .handled .done]

/-- The replies of a round with two subscriptions. -/
def twoDown (first second : ℤ) (now : DateTimeOffset) : List BatchReply :=
  [.handled .done, down first, .handled (.time now), down second, .handled (.time now), .handled .done,
    .handled (.drew 0), .handled (.time now), .handled .done, .handled .done]

/-- The shop, with a hash that tells its deliveries apart. -/
def sharedShop : Pipeline := { Pipeline.shopPipeline .directDelivery with sha256 := Hash.sparse }

/-- Where the batch ends, with these subscriptions and replies. -/
def sharedAfter (subscriptions : Subscriptions) (tenantId : Option Text) (replies : List BatchReply) :
    BatchSession :=
  (sharedShop.processLockedBatchAsync false Pipeline.uncanceled (sharedBatch tenantId)).run.reached
    (BatchSession.serve (Deployment.binary .directSql) sharedShop.options
      (SubscriptionStore.getForMessageAsync (Deployment.binary .directSql) none subscriptions.rows))
    replies (sharedSession tenantId)

/-- A run of the batch, if the replies are its answers. -/
def sharedRun (subscriptions : Subscriptions) (tenantId : Option Text) (replies : List BatchReply)
    (h : ((sharedShop.processLockedBatchAsync false Pipeline.uncanceled
      (sharedBatch tenantId)).run.replay (BatchSession.serve (Deployment.binary .directSql) sharedShop.options
      (SubscriptionStore.getForMessageAsync (Deployment.binary .directSql) none subscriptions.rows))
      replies (sharedSession tenantId)).map Prod.fst = some (.ok ())) :
    BatchRun (Deployment.binary .directSql) sharedShop false (.database subscriptions none) where
  schedule := Pipeline.uncanceled
  messages := sharedBatch tenantId
  before := sharedSession tenantId
  after := sharedAfter subscriptions tenantId replies
  nodup := (by decide : ([10, 11] : List Guid).Nodup)
  log := rfl
  uncanceled := ⟨rfl, List.not_mem_nil⟩
  exec := BatchSession.exec_of_rehearsal (fun _ => ⟨_, List.Perm.refl _, rfl⟩) h

/-- Another message is delivered to two endpoints, the other tenant's among them. -/
def besideGlobex : BatchRun (Deployment.binary .directSql) sharedShop false
    (.database (sharedTable (text "globex")) none) :=
  sharedRun (sharedTable (text "globex")) (some (text "globex"))
    ([.done, .done] ++ twoDown 500 503 2000 ++ twoDown 503 503 2500) (by decide +kernel)

/-- Another message has no tenant, and the other subscription is of another tenant; the clock is later. -/
def besideNone : BatchRun (Deployment.binary .directSql) sharedShop false
    (.database (sharedTable (text "initech")) none) :=
  sharedRun (sharedTable (text "initech")) none
    ([.done, .done] ++ twoDown 500 503 7000 ++ oneDown 503 7500) (by decide +kernel)

/-- In both runs the message of `acme` is delivered to its subscriptions 7 and 8, whatever the other message
and the other tenant's subscription are. -/
theorem tenant_noninterference_shop :
    (∃ subscriptions, (BatchRun.job sharedShop (tenantMessage (text "acme")) subscriptions).SameRound bothFail
      (besideGlobex.states (tenantMessage (text "acme")) subscriptions)
      (handled 10 besideGlobex.after.log) (handled 10 besideNone.after.log)) ∧
    [7, 8, 9].map (callsTo (handled 10 besideGlobex.after.log)) = [1, 1, 0] ∧
    [7, 8, 9].map (callsTo (handled 10 besideNone.after.log)) = [1, 1, 0] ∧
    [7, 8, 9].map (callsTo (handled 11 besideGlobex.after.log)) = [0, 1, 1] ∧
    [7, 8, 9].map (callsTo (handled 11 besideNone.after.log)) = [0, 1, 0] := by
  have hagree : SubscriptionStore.AgreeFor (Deployment.binary .directSql) (tenantMessage (text "acme")).tenantId
      (sharedTable (text "globex")) (sharedTable (text "initech")) := by
    intro s hs
    show s ∈ [_, _, _] ↔ s ∈ [_, _, _]
    simp only [List.mem_cons, List.not_mem_nil, or_false]
    -- the foreign subscription is not for the tenant
    refine or_congr_right (or_congr_right ⟨fun h => ?_, fun h => ?_⟩)
    · subst h
      exact absurd hs (by decide)
    · subst h
      exact absurd hs (by decide)
  have hloop : ¬ LoopSchedule.cancels ⟨false, []⟩ := by rintro (h | h) <;> cases h
  have hglobex : ∀ entry ∈ handled 10 besideGlobex.after.log,
      bothFail.answered sharedShop.retryPolicy (tenantMessage (text "acme")) entry.call entry.answer = true := by
    decide +kernel
  have hnone : ∀ entry ∈ handled 10 besideNone.after.log,
      bothFail.answered sharedShop.retryPolicy (tenantMessage (text "acme")) entry.call entry.answer = true := by
    decide +kernel
  obtain ⟨subscriptions, -, hsame⟩ := (tenant_noninterference (Deployment.binary .directSql) sharedShop
    false none).same besideGlobex besideNone hagree (fun _ => rfl)
    ⟨List.mem_cons_self, hloop, fun entry hmem => Oracle.answers_of_answered (hglobex entry hmem)⟩
    ⟨List.mem_cons_self, hloop, fun entry hmem => Oracle.answers_of_answered (hnone entry hmem)⟩
    ⟨some 4, by decide⟩ rfl
  exact ⟨⟨subscriptions, hsame⟩, by decide +kernel, by decide +kernel, by decide +kernel, by decide +kernel⟩

/-- A letter in lower case. -/
def lowerCase (u : UInt16) : UInt16 := if 0x41 ≤ u ∧ u ≤ 0x5A then u + 0x20 else u

/-- A database that ignores case. -/
def caseInsensitive : Deployment :=
  { Deployment.binary .directSql with collation := List.map lowerCase }

/-- One attempt can be saved in an empty table. -/
theorem exists_saved {messages : Messages} {a : DeliveryAttempt} (defaults : AttemptStore.Defaults)
    (hmessage : (messages.find? a.outboxMessageId).isSome = true) :
    ∃ attempts, AttemptStore.saveAttemptsAsync caseInsensitive defaults messages [a] Table.empty =
      some attempts := by
  have hkey : AttemptStore.foreignKey messages (AttemptStore.attemptRows caseInsensitive defaults [a]) =
      true := by
    show ((messages.find? a.outboxMessageId).isSome && true) = true
    rw [hmessage]
    rfl
  have haccepts : AttemptStore.acceptsInsert caseInsensitive [a] = true := rfl
  unfold AttemptStore.saveAttemptsAsync
  rw [if_neg (by simp), if_pos (Bool.and_eq_true_iff.mpr ⟨haccepts, hkey⟩)]
  exact Option.isSome_iff_exists.mp (Table.insertAll?_isSome.mpr
    ⟨List.nodup_singleton _, fun _ _ _ h => by cases h⟩)

/-- **The database decides which tenants differ**: where it ignores case, the message of a tenant goes to
the subscription of another spelling. -/
theorem delivered_across_spellings : ∃ x', Prog.Exec (BatchSession.Exec caseInsensitive
      (Pipeline.shopPipeline .directDelivery).options
      (.database (tenantSubscriptions (text "ACME")) none))
      ((Pipeline.shopPipeline .directDelivery).processLockedBatchAsync false Pipeline.uncanceled
        [tenantMessage (text "acme")]).run (soloSession (tenantMessage (text "acme"))) (.ok ()) x' ∧
    ∃ m s deliveryId r, (⟨.handling m.id (.deliver m s deliveryId), r⟩ : BatchEntry) ∈ x'.log ∧
      s.tenantId ≠ none ∧ s.tenantId ≠ m.tenantId := by
  have hreturns : (SubscriptionReader.database (tenantSubscriptions (text "ACME")) none).Returns
      caseInsensitive (tenantMessage (text "acme")) [tenantSubscription (text "ACME")] :=
    ⟨_, List.Perm.refl _, by decide⟩
  have hask : BatchSession.Exec caseInsensitive (Pipeline.shopPipeline .directDelivery).options
      (.database (tenantSubscriptions (text "ACME")) none)
      (.getForMessage (tenantMessage (text "acme"))) (soloSession (tenantMessage (text "acme")))
      (Except.ok [tenantSubscription (text "ACME")])
      ⟨(soloSession (tenantMessage (text "acme"))).host, [⟨.getForMessage (tenantMessage (text "acme")),
        Except.ok [tenantSubscription (text "ACME")]⟩]⟩ :=
    ⟨.effect le_rfl (.getForMessage hreturns), rfl⟩
  refine ⟨_, .call hask (Pipeline.exec_handled (.getDeliveryStates _ _ _)
    (Pipeline.exec_handled (.deliver _ _ _ (.ok ⟨true, some 200, none, none, 5⟩) _)
    (Pipeline.exec_handled (.utcNow 2000 _)
    (Pipeline.exec_handled (.saveAttempts (exists_saved ⟨fun n => n, 2000⟩ ?_).choose_spec)
    (Pipeline.exec_handled (.markAsProcessed _ _ _)
    (Pipeline.exec_handled (.addMetric _ _ _) (.ret _ _))))))), ?_⟩
  · rfl
  · exact ⟨tenantMessage (text "acme"), tenantSubscription (text "ACME"), _, _,
      List.mem_of_getElem? (i := 2) rfl, by decide, by decide⟩

end OutboxNet
