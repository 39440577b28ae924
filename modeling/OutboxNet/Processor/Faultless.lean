import OutboxNet.Lib.Retry
import OutboxNet.Processor.Bookkeeping

/-!
# One round without faults

A round run alone in which nothing throws and no lock is lost, the results of the deliveries being fixed
in advance by their number.  It makes one more try for every subscription that has neither succeeded nor
used up its budget, and ends by the verdicts: delivered, dead-lettered, or to be retried.
-/

set_option autoImplicit false

namespace OutboxNet

open AttemptStore (States attemptsOf getDeliveryStatesAsync tryGetValue)
open OutboxStore (WriteBack heldBy)

variable {dep : Deployment}

/-! ## The environment -/

/-- Whether a call is a delivery to subscription `s`. -/
def Call.deliversTo (s : Guid) : Call → Bool
  | .deliver _ subscription _ => subscription.id = s
  | _ => false

/-- The degree of parallelism is one the loop over the subscriptions starts with. -/
def Pipeline.Starts (p : Pipeline) : Prop :=
  ∃ limit, parallelOptions p.options.maxConcurrentSubscriptionDeliveries = .ok limit

/-- How often the deliverer was called for subscription `s`. -/
def callsTo (log : List Entry) (s : Guid) : ℕ := log.countP fun e => e.call.deliversTo s

theorem callsTo_append (log : List Entry) (e : Entry) (s : Guid) :
    callsTo (log ++ [e]) s = callsTo log s + if e.call.deliversTo s then 1 else 0 := by
  rw [callsTo, List.countP_append, List.countP_singleton, callsTo]

/-- An answer without faults, in a round of message `m`: the `k`-th delivery to `s` succeeds if `ok s k`,
the write-backs find the lock held, and the arithmetic of the retry policy stays in range. -/
def Call.Faultless (policy : RetryPolicy) (m : OutboxMessage) (ok : Guid → ℕ → Bool)
    (log : List Entry) : (c : Call) → c.Ans → Prop
  | .deliver _ subscription _, a => ∃ r, a = Except.ok r ∧
      r.success = ok subscription.id (callsTo log subscription.id + 1)
  | .markAsProcessed _ _, a => a = Except.ok true
  | .incrementRetry _ _ _ _, a => a = Except.ok true
  | .markAsDeadLettered _ _, a => a = Except.ok true
  | .nextDouble, draw => ∃ delay, policy.getNextDelay m.retryCount draw = .ok delay
  | .utcNow, t => ∀ draw delay, 0 ≤ draw → draw < 1 →
      policy.getNextDelay m.retryCount draw = .ok (some delay) → ∃ t', addTime t delay = .ok t'
  | _, _ => True

/-- A call without faults, made at some later time. -/
def Session.Faultless (dep : Deployment) (policy : RetryPolicy) (m : OutboxMessage)
    (ok : Guid → ℕ → Bool) (c : Call) (x : Session) (a : c.Ans) (x' : Session) : Prop :=
  (∃ now, x.db.now ≤ now ∧ Database.Effect dep c { x.db with now := now } a x'.db) ∧
    c.Faultless policy m ok x.log a ∧ x'.log = x.log ++ [⟨c, a⟩]

namespace Session.Faultless

variable {policy : RetryPolicy} {m : OutboxMessage} {ok : Guid → ℕ → Bool} {c : Call} {x x' : Session}
variable {a : c.Ans}

/-- Only a delivery is counted. -/
theorem calls (h : Session.Faultless dep policy m ok c x a x') (hc : c.isDeliver = false) (s : Guid) :
    callsTo x'.log s = callsTo x.log s := by
  have hno : c.deliversTo s = false := by
    cases c <;> first | rfl | cases hc
  rw [h.2.2, callsTo_append, hno]
  rfl

/-- Only a save changes the attempts. -/
theorem attempts (h : Session.Faultless dep policy m ok c x a x')
    (hc : ∀ attempts, c ≠ .saveAttempts attempts) : x'.db.attempts = x.db.attempts := by
  obtain ⟨⟨now, -, heffect⟩, -⟩ := h
  rcases heffect.change.attempts with heq | ⟨newAttempts, _, hsave, -⟩
  · exact heq
  · exact absurd hsave (hc newAttempts)

/-- Only a write-back changes the messages. -/
theorem messages (h : Session.Faultless dep policy m ok c x a x') (hc : c.writeBack? = none) :
    x'.db.messages = x.db.messages := by
  obtain ⟨⟨now, -, heffect⟩, -⟩ := h
  rcases heffect.change.messages with heq | ⟨_, _, _, _, hwrite, -⟩
  · exact heq
  · rw [hc] at hwrite
    cases hwrite

/-- A write-back finds its row and sets it. -/
theorem written (h : Session.Faultless dep policy m ok c x a x') {kind : WriteBack} {messageId : Guid}
    {lockedBy : Text} (hc : c.writeBack? = some (kind, messageId, lockedBy)) {row : OutboxMessage}
    (hrow : x.db.messages.find? messageId = some row) :
    ∃ now, x'.db.messages.find? messageId = some (kind.set dep now row) := by
  obtain ⟨⟨now, -, heffect⟩, hanswer, -⟩ := h
  have htrue : c.answer? a = some true := by
    cases c <;> cases hc <;> cases hanswer <;> rfl
  exact ⟨now, (Database.Exec.effect heffect).written hc htrue hrow⟩

end Session.Faultless

/-! ## Where the subscriptions stand -/

/-- Subscription `s` stands, for message `k`, at these tries: so many deliveries were made and so many
attempts are stored, with a success among them or not. -/
def Session.StandsAt (x : Session) (k s : Guid) (t : Tries) : Prop :=
  callsTo x.log s = t.made ∧ (attemptsOf k s x.db.attempts).length = t.made ∧
    AttemptStore.hasSuccess k s x.db.attempts = t.succeeded

/-- The number of tries a subscription may have by its own limit. -/
def WebhookSubscription.tries (subscription : WebhookSubscription) : ℕ :=
  (subscription.maxRetries + 1).toNat

/-- The tries of a subscription after one more round. -/
def WebhookSubscription.triesAfter (subscription : WebhookSubscription) (ok : Guid → ℕ → Bool)
    (tries : WebhookSubscription → Tries) : Tries :=
  Tries.next (ok subscription.id) subscription.tries (tries subscription)

namespace Job

variable {job : Job} {ok : Guid → ℕ → Bool} {tries : WebhookSubscription → Tries} {x₀ : Session}

/-- The message is locked as the job has it, and its subscriptions, with distinct ids, stand at the tries
given. -/
structure Standing (job : Job) (x₀ : Session) (tries : WebhookSubscription → Tries) : Prop where
  locked : x₀.db.messages.find? job.message.id = some job.message
  nodup : (job.subscriptions.map (·.id)).Nodup
  standsAt : ∀ subscription ∈ job.subscriptions,
    x₀.StandsAt job.message.id subscription.id (tries subscription)

/-- The states a round has read. -/
def statesOf (job : Job) (x₀ : Session) : States :=
  getDeliveryStatesAsync job.message.id (job.subscriptions.map (·.id)) x₀.db.attempts

theorem Standing.hasSuccess (h : job.Standing x₀ tries) {subscription : WebhookSubscription}
    (hsub : subscription ∈ job.subscriptions) :
    Pipeline.hasSuccess (job.statesOf x₀) subscription = (tries subscription).succeeded := by
  rw [statesOf, Pipeline.hasSuccess_getDeliveryStatesAsync (List.mem_map_of_mem hsub)]
  exact (h.standsAt subscription hsub).2.2

theorem Standing.attemptCount (h : job.Standing x₀ tries) {subscription : WebhookSubscription}
    (hsub : subscription ∈ job.subscriptions) :
    Pipeline.attemptCount (job.statesOf x₀) subscription = (tries subscription).made := by
  rw [statesOf, Pipeline.attemptCount_getDeliveryStatesAsync (List.mem_map_of_mem hsub) h.nodup,
    (h.standsAt subscription hsub).2.1]

/-- A subscription is attempted if it has not succeeded and has tries left. -/
theorem Standing.attempted_iff (h : job.Standing x₀ tries) {subscription : WebhookSubscription}
    (hsub : subscription ∈ job.subscriptions) :
    attempted (job.statesOf x₀) subscription = true ↔
      (tries subscription).succeeded = false ∧ (tries subscription).made < subscription.tries := by
  rw [Job.attempted_iff, h.hasSuccess hsub, h.attemptCount hsub, WebhookSubscription.tries]
  refine and_congr_right fun _ => ?_
  omega

/-! ## The deliveries of a round -/

/-- The deliveries so far were answered by the oracle, and are the only ones of the round. -/
structure Answered (job : Job) (ok : Guid → ℕ → Bool) (tries : WebhookSubscription → Tries) (x₀ : Session)
    (states : States) (results : Results) (x : Session) : Prop where
  states_eq : states = job.statesOf x₀
  result : ∀ i r, results i = some r → ∃ subscription result,
    job.subscriptions[i]? = some subscription ∧ r = .ok result ∧
      attempted states subscription = true ∧
      result.success = ok subscription.id ((tries subscription).made + 1)
  calls : ∀ (i : ℕ) subscription, job.subscriptions[i]? = some subscription →
    callsTo x.log subscription.id =
      (tries subscription).made + if (results i).isSome then 1 else 0

/-- The round has made the next try for every subscription. -/
def Advanced (job : Job) (ok : Guid → ℕ → Bool) (tries : WebhookSubscription → Tries) (x : Session) : Prop :=
  ∀ subscription ∈ job.subscriptions,
    x.StandsAt job.message.id subscription.id (subscription.triesAfter ok tries)

section Answered

variable {states : States} {results : Results} {x : Session}

/-- A position that was delivered to has a result. -/
theorem Answered.result_at (h : job.Answered ok tries x₀ states results x) {i : ℕ}
    {subscription : WebhookSubscription} (hi : job.subscriptions[i]? = some subscription)
    {r : Except Exn DeliveryResult} (hr : results i = some r) : ∃ result, r = .ok result ∧
      attempted states subscription = true ∧
      result.success = ok subscription.id ((tries subscription).made + 1) := by
  obtain ⟨subscription', result, hi', rfl, hatt, hok⟩ := h.result i r hr
  rw [hi] at hi'
  cases hi'
  exact ⟨result, rfl, hatt, hok⟩

/-- The verdict on a position, and what the round has done there. -/
theorem Answered.verdictAt (h : job.Answered ok tries x₀ states results x)
    (hstanding : job.Standing x₀ tries) (hcomplete : job.Complete states results) {i : ℕ}
    {subscription : WebhookSubscription} (hi : job.subscriptions[i]? = some subscription) :
    (job.verdictAt states results i = some .succeeded ∧ results i = none ∧
      (tries subscription).succeeded = true) ∨
    (job.verdictAt states results i = some .exhausted ∧ results i = none ∧
      (tries subscription).succeeded = false ∧
      subscription.tries ≤ (tries subscription).made) ∨
    ((tries subscription).succeeded = false ∧
      (tries subscription).made < subscription.tries ∧ ∃ result, results i = some (.ok result) ∧
      result.success = ok subscription.id ((tries subscription).made + 1) ∧
      job.verdictAt states results i = some (if result.success then .succeeded else .failed)) := by
  have hmem := List.mem_of_getElem? hi
  have hattempted := hstanding.attempted_iff hmem
  have hnone : attempted (job.statesOf x₀) subscription = false → results i = none := by
    intro hno
    by_contra hsome
    obtain ⟨r, hr⟩ := Option.ne_none_iff_exists'.mp hsome
    obtain ⟨-, -, hatt, -⟩ := h.result_at hi hr
    rw [h.states_eq, hno] at hatt
    cases hatt
  rw [verdictAt_eq hi]
  cases hs : (tries subscription).succeeded with
  | true =>
      left
      refine ⟨verdict_of_hasSuccess ?_ _, hnone ?_, rfl⟩
      · rw [h.states_eq, hstanding.hasSuccess hmem, hs]
      · rw [Bool.eq_false_iff, ne_eq, hattempted, hs]
        exact fun h => Bool.noConfusion h.1
  | false =>
      right
      by_cases hlt : (tries subscription).made < subscription.tries
      · right
        have hatt : attempted states subscription = true := by
          rw [h.states_eq, hattempted]
          exact ⟨hs, hlt⟩
        -- an attempted position has a verdict only by its result
        have hsome := hcomplete i (List.getElem?_eq_some_iff.mp hi).1
        rw [verdictAt_eq hi] at hsome
        cases hr : results i with
        | none =>
            obtain ⟨hno, hle⟩ := Job.attempted_iff.mp hatt
            rw [hr] at hsome
            simp [verdict, hno, not_lt.mpr hle] at hsome
        | some r =>
            obtain ⟨result, rfl, -, hok⟩ := h.result_at hi hr
            exact ⟨rfl, hlt, result, rfl, hok, verdict_of_attempted hatt result⟩
      · left
        have hle := not_lt.mp hlt
        refine ⟨?_, hnone ?_, rfl, hle⟩
        · have hno : Pipeline.hasSuccess states subscription = false := by
            rw [h.states_eq, hstanding.hasSuccess hmem, hs]
          have hmore : Pipeline.attemptCount states subscription > subscription.maxRetries := by
            rw [h.states_eq, hstanding.attemptCount hmem]
            rw [WebhookSubscription.tries] at hle
            omega
          simp [verdict, hno, hmore]
        · rw [Bool.eq_false_iff, ne_eq, hattempted]
          exact fun h => hlt h.2

/-- Whether a position has succeeded after the round. -/
theorem Answered.succeeded_iff (h : job.Answered ok tries x₀ states results x)
    (hstanding : job.Standing x₀ tries) (hcomplete : job.Complete states results) {i : ℕ}
    {subscription : WebhookSubscription} (hi : job.subscriptions[i]? = some subscription) :
    job.verdictAt states results i = some .succeeded ↔
      (subscription.triesAfter ok tries).succeeded = true := by
  rw [WebhookSubscription.triesAfter]
  rcases h.verdictAt hstanding hcomplete hi with ⟨hv, -, hs⟩ | ⟨hv, -, hs, hle⟩ |
    ⟨hs, hlt, result, -, hok, hv⟩
  · simp [hv, Tries.next_of_succeeded hs, hs]
  · simp [hv, Tries.next_of_exhausted hle, hs]
  · rw [hv, Tries.next_of_try hs hlt, ← hok]
    cases result.success <;> simp

/-- The deliveries of a complete round are the next tries. -/
theorem Answered.calls_eq (h : job.Answered ok tries x₀ states results x)
    (hstanding : job.Standing x₀ tries) (hcomplete : job.Complete states results) {i : ℕ}
    {subscription : WebhookSubscription} (hi : job.subscriptions[i]? = some subscription) :
    (subscription.triesAfter ok tries).made =
      (tries subscription).made + if (results i).isSome then 1 else 0 := by
  rw [WebhookSubscription.triesAfter]
  rcases h.verdictAt hstanding hcomplete hi with ⟨-, hr, hs⟩ | ⟨-, hr, -, hle⟩ |
    ⟨hs, hlt, result, hr, -, -⟩
  · simp [hr, Tries.next_of_succeeded hs]
  · simp [hr, Tries.next_of_exhausted hle]
  · simp [hr, Tries.next_of_try hs hlt]

/-- The attempts of a round for one subscription: one if it was delivered to. -/
theorem Answered.countP_newAttempts (h : job.Answered ok tries x₀ states results x)
    (hstanding : job.Standing x₀ tries) (utcNow : ℕ → DateTimeOffset) {i : ℕ}
    {subscription : WebhookSubscription} (hi : job.subscriptions[i]? = some subscription) :
    ((job.newAttempts states results utcNow).countP fun a =>
      a.outboxMessageId = job.message.id && a.webhookSubscriptionId = subscription.id) =
      if (results i).isSome then 1 else 0 := by
  have hat : ∀ j, ((job.attemptAt states results utcNow j).map fun a =>
      decide (a.outboxMessageId = job.message.id) &&
        decide (a.webhookSubscriptionId = subscription.id)).getD false =
      (j == i && (results i).isSome) := by
    intro j
    by_cases hji : j = i
    · subst hji
      cases hr : results j with
      | none => simp [attemptAt, hi, hr]
      | some r =>
          obtain ⟨result, rfl, -, -⟩ := h.result_at hi hr
          simp [attemptAt, hi, hr, Pipeline.deliveryAttempt]
    · have hne : ∀ a ∈ job.attemptAt states results utcNow j,
          a.webhookSubscriptionId ≠ subscription.id := by
        intro a ha hid
        unfold attemptAt at ha
        split at ha
        · next subscription' result hj hr =>
            cases ha
            exact hji (position_eq hstanding.nodup hj hi hid)
        · cases ha
      cases ha : job.attemptAt states results utcNow j with
      | none => simp [hji]
      | some a => simp [hji, hne a ha]
  -- the ids of the subscriptions are distinct, so only position `i` counts
  rw [newAttempts, List.countP_filterMap]
  simp only [hat]
  cases hr : (results i).isSome with
  | false => simp
  | true =>
      have hlt := (List.getElem?_eq_some_iff.mp hi).1
      simpa [List.count] using List.count_eq_one_of_mem List.nodup_range (List.mem_range.mpr hlt)

/-- There is a successful attempt of a round for one subscription if its result is a success. -/
theorem Standing.success_mem_iff (h : job.Standing x₀ tries) (utcNow : ℕ → DateTimeOffset) {i : ℕ}
    {subscription : WebhookSubscription} (hi : job.subscriptions[i]? = some subscription) :
    (∃ a ∈ job.newAttempts states results utcNow, a.outboxMessageId = job.message.id ∧
      a.webhookSubscriptionId = subscription.id ∧ a.status = .success) ↔
      ∃ result, results i = some (.ok result) ∧ result.success = true := by
  constructor
  · rintro ⟨a, ha, -, hid, hstatus⟩
    obtain ⟨j, subscription', result, hj, hr, rfl⟩ := mem_newAttempts.mp ha
    obtain rfl := position_eq h.nodup hj hi hid
    refine ⟨result, hr, ?_⟩
    by_contra hno
    simp [Pipeline.deliveryAttempt, hno] at hstatus
  · rintro ⟨result, hr, hok⟩
    exact ⟨_, mem_newAttempts.mpr ⟨i, subscription, result, hi, hr, rfl⟩, rfl, rfl,
      by simp [Pipeline.deliveryAttempt, hok]⟩

/-- A round that has saved its attempts has made the next try everywhere. -/
theorem Answered.advanced_of_saved (h : job.Answered ok tries x₀ states results x)
    (hstanding : job.Standing x₀ tries) (hcomplete : job.Complete states results)
    {attempts : List DeliveryAttempt} {utcNow : ℕ → DateTimeOffset}
    (hperm : attempts.Perm (job.newAttempts states results utcNow)) {x' : Session}
    {d : AttemptStore.Defaults} {messages : Messages}
    (hsave : AttemptStore.saveAttemptsAsync dep d messages attempts x₀.db.attempts =
      some x'.db.attempts) (hlog : ∀ s, callsTo x'.log s = callsTo x.log s) :
    job.Advanced ok tries x' := by
  intro subscription hsub
  obtain ⟨i, hi⟩ := List.mem_iff_getElem?.mp hsub
  obtain ⟨-, hlength, hsuccess⟩ := hstanding.standsAt subscription hsub
  refine ⟨?_, ?_, ?_⟩
  · rw [hlog, h.calls i subscription hi, h.calls_eq hstanding hcomplete hi]
  · rw [AttemptStore.length_attemptsOf_saveAttemptsAsync hsave, hperm.countP_eq, hlength,
      h.countP_newAttempts hstanding utcNow hi, h.calls_eq hstanding hcomplete hi]
  · rw [Bool.eq_iff_iff, AttemptStore.hasSuccess_saveAttemptsAsync hsave, hsuccess,
      ← h.succeeded_iff hstanding hcomplete hi]
    simp only [hperm.mem_iff]
    rw [hstanding.success_mem_iff utcNow hi]
    rcases h.verdictAt hstanding hcomplete hi with ⟨hv, hr, hs⟩ | ⟨hv, hr, hs, -⟩ |
      ⟨hs, -, result, hr, -, hv⟩
    · simp [hv, hs]
    · simp [hv, hr, hs]
    · cases hok : result.success <;> simp [hv, hr, hs, hok]

/-- A round without attempts has nothing to do anywhere. -/
theorem Answered.advanced_of_none (h : job.Answered ok tries x₀ states results x)
    (hstanding : job.Standing x₀ tries) (hcomplete : job.Complete states results)
    (hnone : ∀ i < job.subscriptions.length, ∀ r, results i ≠ some (.ok r))
    (hattempts : x.db.attempts = x₀.db.attempts) : job.Advanced ok tries x := by
  intro subscription hsub
  obtain ⟨i, hi⟩ := List.mem_iff_getElem?.mp hsub
  obtain ⟨-, hlength, hsuccess⟩ := hstanding.standsAt subscription hsub
  have hno := hnone i (List.getElem?_eq_some_iff.mp hi).1
  have hsame : results i = none ∧ subscription.triesAfter ok tries = tries subscription := by
    rcases h.verdictAt hstanding hcomplete hi with ⟨-, hr, hs⟩ | ⟨-, hr, -, hle⟩ |
      ⟨-, -, result, hr, -, -⟩
    · exact ⟨hr, Tries.next_of_succeeded hs⟩
    · exact ⟨hr, Tries.next_of_exhausted hle⟩
    · exact absurd hr (hno result)
  obtain ⟨hr, htries⟩ := hsame
  rw [htries]
  refine ⟨?_, by rw [hattempts, hlength], by rw [hattempts, hsuccess]⟩
  rw [h.calls i subscription hi, hr]
  simp

/-- Calls that are no deliveries change no count. -/
theorem Answered.congr (h : job.Answered ok tries x₀ states results x) {x' : Session}
    (hlog : ∀ s, callsTo x'.log s = callsTo x.log s) :
    job.Answered ok tries x₀ states results x' :=
  ⟨h.states_eq, h.result, fun i subscription hi => by rw [hlog, h.calls i subscription hi]⟩

theorem Advanced.congr (h : job.Advanced ok tries x) {x' : Session}
    (hlog : ∀ s, callsTo x'.log s = callsTo x.log s) (hattempts : x'.db.attempts = x.db.attempts) :
    job.Advanced ok tries x' := by
  intro subscription hsub
  rw [Session.StandsAt, hlog, hattempts]
  exact h subscription hsub

/-- A delivery answered by the oracle. -/
theorem Answered.deliver (h : job.Answered ok tries x₀ states results x)
    (hstanding : job.Standing x₀ tries) {i : ℕ} {subscription : WebhookSubscription}
    (hi : job.subscriptions[i]? = some subscription) (hnone : results i = none)
    (hatt : attempted states subscription = true) {result : DeliveryResult}
    (hok : result.success = ok subscription.id (callsTo x.log subscription.id + 1)) {x' : Session}
    (hlog : ∀ s, callsTo x'.log s = callsTo x.log s + if subscription.id = s then 1 else 0) :
    job.Answered ok tries x₀ states (Function.update results i (some (.ok result))) x' where
  states_eq := h.states_eq
  result j r hr := by
    by_cases hji : j = i
    · subst hji
      rw [Function.update_self] at hr
      cases hr
      refine ⟨subscription, result, hi, rfl, hatt, ?_⟩
      rw [hok, h.calls j subscription hi, hnone]
      rfl
    · rw [Function.update_of_ne hji] at hr
      exact h.result j r hr
  calls j subscription' hj := by
    rw [hlog, h.calls j subscription' hj]
    by_cases hji : j = i
    · subst hji
      rw [hi] at hj
      cases hj
      simp [hnone]
    · have hne : subscription.id ≠ subscription'.id := fun hid =>
        hji (position_eq hstanding.nodup hj hi hid.symm)
      simp [Function.update_of_ne hji, hne]

end Answered

/-! ## The end of a round -/

/-- Some subscription has not succeeded when the round has made its tries. -/
def Unfinished (job : Job) (ok : Guid → ℕ → Bool) (tries : WebhookSubscription → Tries) : Prop :=
  ∃ subscription ∈ job.subscriptions, (subscription.triesAfter ok tries).succeeded = false

/-- How a round without faults leaves the row of its message: delivered; dead-lettered, with no tries
left or with no delay from the policy; or to be retried. -/
inductive Outcome (job : Job) (ok : Guid → ℕ → Bool) (tries : WebhookSubscription → Tries) (row : OutboxMessage) :
    Prop
  | delivered :
      row.status = .delivered →
      (∀ subscription ∈ job.subscriptions, (subscription.triesAfter ok tries).succeeded = true) →
      Outcome job ok tries row
  | exhausted :
      row.status = .deadLettered → job.Unfinished ok tries →
      (∀ subscription ∈ job.subscriptions, (subscription.triesAfter ok tries).succeeded = false →
        subscription.tries ≤ (tries subscription).made) →
      Outcome job ok tries row
  | givenUp {draw : ℚ} :
      row.status = .deadLettered → job.Unfinished ok tries →
      job.pipeline.retryPolicy.getNextDelay job.message.retryCount draw = .ok none →
      Outcome job ok tries row
  | retry {draw : ℚ} {delay : TimeSpan} :
      row.status = .pending → row.retryCount = job.message.retryCount + 1 →
      row.lockedUntil = none → job.Unfinished ok tries →
      job.pipeline.retryPolicy.getNextDelay job.message.retryCount draw = .ok (some delay) →
      Outcome job ok tries row

/-- What holds of a round without faults in its stage. -/
def Progress (job : Job) (ok : Guid → ℕ → Bool) (tries : WebhookSubscription → Tries) (x₀ : Session) (s : Stage)
    (x : Session) : Prop :=
  match s with
  | .start => x.db.messages = x₀.db.messages ∧ x.db.attempts = x₀.db.attempts ∧
      ∀ s, callsTo x.log s = callsTo x₀.log s
  | .delivering states results => x.db.messages = x₀.db.messages ∧
      x.db.attempts = x₀.db.attempts ∧ job.Answered ok tries x₀ states results x
  | .settled states results _ => x.db.messages = x₀.db.messages ∧
      job.Answered ok tries x₀ states results x ∧ job.Complete states results ∧
      job.Advanced ok tries x
  | .failing draw utcNow => x.db.messages = x₀.db.messages ∧ job.Advanced ok tries x ∧
      job.Unfinished ok tries ∧
      (∀ d, draw = some d → 0 ≤ d ∧ d < 1 ∧
        ∃ delay, job.pipeline.retryPolicy.getNextDelay job.message.retryCount d = .ok delay) ∧
      (∀ t, utcNow = some t → ∀ d delay, 0 ≤ d → d < 1 →
        job.pipeline.retryPolicy.getNextDelay job.message.retryCount d = .ok (some delay) →
          ∃ t', addTime t delay = .ok t')
  | .closed => job.Advanced ok tries x ∧
      ∃ row, x.db.messages.find? job.message.id = some row ∧ job.Outcome ok tries row

/-- The verdicts of a complete round say which subscriptions have succeeded. -/
theorem Answered.unfinished_of_verdict {states : States} {results : Results} {x : Session}
    (h : job.Answered ok tries x₀ states results x) (hstanding : job.Standing x₀ tries)
    (hcomplete : job.Complete states results) {v : Verdict} (hpos : 0 < job.count states results v)
    (hv : v ≠ .succeeded) : job.Unfinished ok tries := by
  obtain ⟨i, hlt, hi⟩ := count_pos_iff.mp hpos
  have hsub := List.getElem?_eq_getElem hlt
  refine ⟨_, List.getElem_mem hlt, ?_⟩
  rw [Bool.eq_false_iff, ne_eq, ← h.succeeded_iff hstanding hcomplete hsub, hi]
  exact fun h => hv (Option.some.inj h)

/-- Without a failed verdict, a subscription that has not succeeded has no tries left. -/
theorem Answered.used_up_of_not_failed {states : States} {results : Results} {x : Session}
    (h : job.Answered ok tries x₀ states results x) (hstanding : job.Standing x₀ tries)
    (hcomplete : job.Complete states results) (hfailed : job.count states results .failed = 0)
    {subscription : WebhookSubscription} (hsub : subscription ∈ job.subscriptions)
    (hno : (subscription.triesAfter ok tries).succeeded = false) :
    subscription.tries ≤ (tries subscription).made := by
  obtain ⟨i, hi⟩ := List.mem_iff_getElem?.mp hsub
  have hnot := count_eq_zero_iff.mp hfailed i (List.getElem?_eq_some_iff.mp hi).1
  rw [Bool.eq_false_iff, ne_eq, ← h.succeeded_iff hstanding hcomplete hi] at hno
  rcases h.verdictAt hstanding hcomplete hi with ⟨hv, -⟩ | ⟨-, -, -, hle⟩ | ⟨-, -, result, -, -, hv⟩
  · exact absurd hv hno
  · exact hle
  · -- a try of this round would have succeeded or failed
    cases hok : result.success
    · exact absurd (by simpa [hok] using hv) hnot
    · exact absurd (by simpa [hok] using hv) hno

/-- No delivery has thrown, and the loop was started. -/
theorem Answered.not_faulted {states : States} {results : Results} {x : Session}
    (h : job.Answered ok tries x₀ states results x) (hstarts : job.pipeline.Starts) :
    ¬ job.Faulted results := by
  rintro (⟨i, e, hi⟩ | ⟨⟨e, he⟩, -⟩)
  · obtain ⟨_, _, -, hok, -⟩ := h.result i _ hi
    cases hok
  · obtain ⟨limit, hlimit⟩ := hstarts
    rw [hlimit] at he
    cases he

/-- Calls that neither deliver nor write keep what holds. -/
theorem Progress.neutral {s : Stage} {x x' : Session} {c : Call} {a : c.Ans}
    (h : job.Progress ok tries x₀ s x)
    (hexec : Session.Faultless dep job.pipeline.retryPolicy job.message ok c x a x')
    (hdeliver : c.isDeliver = false) (hsave : ∀ attempts, c ≠ .saveAttempts attempts)
    (hwrite : c.writeBack? = none) : job.Progress ok tries x₀ s x' := by
  have hlog := hexec.calls hdeliver
  have hattempts := hexec.attempts hsave
  have hmessages := hexec.messages hwrite
  cases s with
  | start => exact ⟨hmessages.trans h.1, hattempts.trans h.2.1, fun s => (hlog s).trans (h.2.2 s)⟩
  | delivering states results =>
      exact ⟨hmessages.trans h.1, hattempts.trans h.2.1, h.2.2.congr hlog⟩
  | settled states results saved =>
      exact ⟨hmessages.trans h.1, h.2.1.congr hlog, h.2.2.1, h.2.2.2.congr hlog hattempts⟩
  | failing draw utcNow => exact ⟨hmessages.trans h.1, h.2.1.congr hlog hattempts, h.2.2⟩
  | closed =>
      obtain ⟨hadvanced, row, hrow, houtcome⟩ := h
      exact ⟨hadvanced.congr hlog hattempts, row, by rw [hmessages, hrow], houtcome⟩

/-- A write-back that ends the round. -/
theorem Progress.close {x x' : Session} {c : Call} {a : c.Ans} (hstanding : job.Standing x₀ tries)
    (hexec : Session.Faultless dep job.pipeline.retryPolicy job.message ok c x a x')
    (hmessages : x.db.messages = x₀.db.messages) (hadvanced : job.Advanced ok tries x)
    {kind : WriteBack} (hwrite : c.writeBack? = some (kind, job.message.id, job.lockedBy))
    (houtcome : ∀ now, job.Outcome ok tries (kind.set dep now job.message)) :
    job.Progress ok tries x₀ .closed x' := by
  obtain ⟨now, hrow⟩ := hexec.written hwrite (by rw [hmessages, hstanding.locked])
  refine ⟨hadvanced.congr (hexec.calls ?_) (hexec.attempts ?_), _, hrow, houtcome now⟩
  · cases c <;> first | rfl | cases hwrite
  · rintro attempts rfl
    cases hwrite

/-- The step lemma. -/
theorem Progress.trans {s s' : Stage} {x x' : Session} {c : Call} {a : c.Ans}
    (hstanding : job.Standing x₀ tries) (hstarts : job.pipeline.Starts)
    (h : job.Progress ok tries x₀ s x) (htrans : job.Trans c s a s')
    (hexec : Session.Faultless dep job.pipeline.retryPolicy job.message ok c x a x') :
    job.Progress ok tries x₀ s' x' := by
  -- one case for each transition; those of a call that throws cannot happen
  induction htrans with
  | metric => exact h.neutral hexec rfl nofun rfl
  | attemptTime => exact h.neutral hexec rfl nofun rfl
  | noSubscriptions hnil =>
      have hnone : ∀ subscription, subscription ∉ job.subscriptions := by simp [hnil]
      exact Progress.close hstanding hexec h.1 (fun subscription hsub => absurd hsub (hnone _)) rfl
        fun now => .delivered rfl fun subscription hsub => absurd hsub (hnone _)
  | read =>
      obtain ⟨hmessages, hattempts, hlog⟩ := h
      have hread := hexec.1
      obtain ⟨now, -, heffect⟩ := hread
      refine ⟨(hexec.messages rfl).trans hmessages, (hexec.attempts nofun).trans hattempts, ?_, ?_, ?_⟩
      · rw [statesOf, ← hattempts]
        exact Except.ok.inj heffect.read.1
      · intro i r hr
        cases hr
      · intro i subscription hi
        rw [hexec.calls rfl, hlog, (hstanding.standsAt subscription (List.mem_of_getElem? hi)).1]
        rfl
  | readThrew =>
      obtain ⟨now, -, heffect⟩ := hexec.1
      cases heffect.read.1
  | @deliver states results i subscription r hi hnone hatt =>
      obtain ⟨hmessages, hattempts, hanswered⟩ := h
      obtain ⟨result, rfl, hok⟩ := hexec.2.1
      refine ⟨(hexec.messages rfl).trans hmessages, (hexec.attempts nofun).trans hattempts,
        hanswered.deliver hstanding hi hnone hatt hok fun s => ?_⟩
      rw [hexec.2.2, callsTo_append]
      simp [Call.deliversTo]
  | @save states results utcNow attempts hcomplete hperm _ =>
      obtain ⟨hmessages, hattempts, hanswered⟩ := h
      obtain ⟨now, -, heffect⟩ := hexec.1
      obtain ⟨-, defaults, attempts', hsave, hdb⟩ := heffect.saved
      refine ⟨(hexec.messages rfl).trans hmessages, hanswered.congr (hexec.calls rfl), hcomplete, ?_⟩
      have hstored : AttemptStore.saveAttemptsAsync dep defaults x.db.messages attempts
          x₀.db.attempts = some x'.db.attempts := by
        rw [hdb, ← hattempts]
        exact hsave
      exact hanswered.advanced_of_saved hstanding hcomplete hperm hstored (hexec.calls rfl)
  | saveThrew =>
      obtain ⟨now, -, heffect⟩ := hexec.1
      cases heffect.saved.1
  | nothingToSave hcomplete hnone _ ih =>
      obtain ⟨hmessages, hattempts, hanswered⟩ := h
      exact ih ⟨hmessages, hanswered, hcomplete,
        hanswered.advanced_of_none hstanding hcomplete hnone hattempts⟩ hexec
  | faulted hfault => exact absurd hfault (h.2.2.not_faulted hstarts)
  | processed hall =>
      obtain ⟨hmessages, hanswered, hcomplete, hadvanced⟩ := h
      refine Progress.close hstanding hexec hmessages hadvanced rfl fun now =>
        .delivered rfl fun subscription hsub => ?_
      obtain ⟨i, hi⟩ := List.mem_iff_getElem?.mp hsub
      exact (hanswered.succeeded_iff hstanding hcomplete hi).mp
        (hall i (List.getElem?_eq_some_iff.mp hi).1)
  | deadLetter hfailed hexhausted =>
      obtain ⟨hmessages, hanswered, hcomplete, hadvanced⟩ := h
      exact Progress.close hstanding hexec hmessages hadvanced rfl fun now => .exhausted rfl
        (hanswered.unfinished_of_verdict hstanding hcomplete hexhausted nofun)
        fun subscription hsub hno =>
          hanswered.used_up_of_not_failed hstanding hcomplete hfailed hsub hno
  | retry hfailed _ ih =>
      obtain ⟨hmessages, hanswered, hcomplete, hadvanced⟩ := h
      exact ih ⟨hmessages, hadvanced,
        hanswered.unfinished_of_verdict hstanding hcomplete hfailed nofun, nofun, nofun⟩ hexec
  | @draw draw =>
      obtain ⟨hmessages, hadvanced, hunfinished, hdraw, htime⟩ :=
        Progress.neutral (s := .failing none none) h hexec rfl nofun rfl
      refine ⟨hmessages, hadvanced, hunfinished, ?_, htime⟩
      rintro d ⟨⟩
      obtain ⟨⟨now, -, heffect⟩, hdelay, -⟩ := hexec
      exact ⟨heffect.drew.1, heffect.drew.2, hdelay⟩
  | @clock draw utcNow =>
      obtain ⟨hmessages, hadvanced, hunfinished, hdraw, htime⟩ :=
        Progress.neutral (s := .failing (some draw) none) h hexec rfl nofun rfl
      refine ⟨hmessages, hadvanced, hunfinished, hdraw, ?_⟩
      rintro t ⟨⟩
      exact hexec.2.1
  | incrementRetry hdelay hadd =>
      obtain ⟨hmessages, hadvanced, hunfinished, -⟩ := h
      exact Progress.close hstanding hexec hmessages hadvanced rfl fun now =>
        .retry rfl rfl rfl hunfinished hdelay
  | giveUp hdelay =>
      obtain ⟨hmessages, hadvanced, hunfinished, -⟩ := h
      exact Progress.close hstanding hexec hmessages hadvanced rfl fun now =>
        .givenUp rfl hunfinished hdelay

/-- **One round without faults.** It makes the next try for every subscription, and leaves the row of
its message delivered, dead-lettered, or to be retried. -/
theorem Standing.faultless_round {loop : LoopSchedule} (hstanding : job.Standing x₀ tries)
    (hstarts : job.pipeline.Starts)
    (hloop : ¬ loop.cancels) {r : Except Exn Unit} {x : Session}
    (hrun : Prog.Exec (Session.Faultless dep job.pipeline.retryPolicy job.message ok)
      (job.pipeline.processSingleMessageAsync loop job.message job.lockedBy job.subscriptions).run
      x₀ r x) :
    job.Advanced ok tries x ∧
      ∃ row, x.db.messages.find? job.message.id = some row ∧ job.Outcome ok tries row := by
  have hstart : job.Progress ok tries x₀ .start x₀ := ⟨rfl, rfl, fun _ => rfl⟩
  obtain ⟨s, hfinished, hprogress⟩ : ∃ s, job.Finished loop r s ∧ job.Progress ok tries x₀ s x := by
    refine Prog.Conforms.exec (J := job.Progress ok tries x₀) ?_
      (processSingleMessageAsync_conforms job loop) hrun hstart
    exact fun _ _ _ _ _ _ h htrans hexec => Progress.trans hstanding hstarts h htrans hexec
  cases hfinished with
  | closed => exact hprogress
  | policyThrew _ hthrew =>
      cases hthrew with
      | delay he =>
          obtain ⟨-, -, -, hdraw, -⟩ := hprogress
          obtain ⟨-, -, delay, hdelay⟩ := hdraw _ rfl
          rw [he] at hdelay
          cases hdelay
      | time hdelay he =>
          obtain ⟨-, -, -, hdraw, htime⟩ := hprogress
          obtain ⟨hle, hlt, -⟩ := hdraw _ rfl
          obtain ⟨t', ht'⟩ := htime _ rfl _ _ hle hlt hdelay
          rw [he] at ht'
          cases ht'
  | loopThrew hthrew =>
      rcases hthrew with ⟨hthrew, -⟩ | hcancels
      · exact absurd hthrew.faulted (hprogress.2.2.not_faulted hstarts)
      · exact absurd hcancels hloop

end Job

end OutboxNet
