import Mathlib.Algebra.BigOperators.Group.Finset.Basic
import Mathlib.Algebra.BigOperators.Pi
import OutboxNet.Processor.Round

/-!
# The processor conforms to the protocol of a round

`processSingleMessageAsync` makes only calls that `Job.Trans` allows, under every schedule of the loop
over the subscriptions and whatever the answers.  The loop is handled by the rule for loops: a body
relies on its own position of the results being left alone, and guarantees to touch no other; what
the bodies add to the accumulators is summed up to the counts of the verdicts.
-/

set_option autoImplicit false

namespace OutboxNet.Job

open AttemptStore (States)
open Pipeline (DeliveryOutcome attemptCount hasSuccess nextAttempt deliveryAttempt)
open Parallel (BodyConforms Discipline forEachAsync_conforms)

variable {job : Job}

/-! ## One delivery -/

/-- What is added up over the bodies: successes, failures, exhausted budgets, attempts. -/
abbrev Tally := ℕ × ℕ × ℕ × Multiset DeliveryAttempt

/-- The accumulators as a tally. -/
def tally (c : DeliveryOutcome) : Tally :=
  (c.successCount, c.failedCount, c.exhaustedCount, (c.newAttempts : Multiset DeliveryAttempt))

/-- What position `i` relies on: the others leave its result alone. -/
def Rely (states : States) (i : ℕ) (s s' : Stage) : Prop :=
  ∀ results, s = .delivering states results →
    ∃ results', s' = .delivering states results' ∧ results' i = results i

/-- What position `i` guarantees: it touches no other result. -/
def Guarantee (states : States) (i : ℕ) (s s' : Stage) : Prop :=
  ∀ results, s = .delivering states results →
    ∃ o, s' = .delivering states (Function.update results i o)

/-- The round is delivering, with these states read. -/
def Delivering (states : States) (s : Stage) : Prop := ∃ results, s = .delivering states results

theorem discipline (states : States) :
    Discipline (Delivering states) (Rely states) (Guarantee states) where
  refl i s results h := ⟨results, h, rfl⟩
  trans i s₁ s₂ s₃ h₁ h₂ results h := by
    obtain ⟨results', h', he'⟩ := h₁ results h
    obtain ⟨results'', h'', he''⟩ := h₂ results' h'
    exact ⟨results'', h'', he''.trans he'⟩
  guar i j s s' hne h results hs := by
    obtain ⟨o, ho⟩ := h results hs
    exact ⟨_, ho, Function.update_of_ne (Ne.symm hne) o results⟩
  keeps i s s' hK h := by
    obtain ⟨results, rfl⟩ := hK
    obtain ⟨o, ho⟩ := h results rfl
    exact ⟨_, ho⟩

/-- The counters a verdict moves. -/
def verdictTally : Verdict → ℕ × ℕ × ℕ
  | .succeeded => (1, 0, 0)
  | .failed => (0, 1, 0)
  | .exhausted => (0, 0, 1)

/-- The contribution of a position with verdict `v` whose attempt, if any, is `attempt`. -/
def contribution (v : Verdict) (attempt : Option DeliveryAttempt) : Tally :=
  ((verdictTally v).1, (verdictTally v).2.1, (verdictTally v).2.2,
    (attempt.toList : Multiset DeliveryAttempt))

/-- How the body of position `i` ends. -/
def BodyPost (job : Job) (states : States) (i : ℕ) (r : Except Exn Unit) (d : Tally) (s : Stage) :
    Prop :=
  ∃ results, s = .delivering states results ∧
    match r with
    | .error e => results i = some (.error e)
    | .ok () => ∃ v utcNow, job.verdictAt states results i = some v ∧
        d = contribution v (job.attemptAt states results (fun _ => utcNow) i)

/-- The steps of a body, one after another. -/
theorem deliverToSubscription_run (p : Pipeline) (message : OutboxMessage) (states : States)
    (subscription : WebhookSubscription) :
    (p.deliverToSubscription message states subscription).run =
      if hasSuccess states subscription then
        .call (.upd fun c => { c with successCount := c.successCount + 1 }) fun _ => .ret (.ok ())
      else if attemptCount states subscription > subscription.maxRetries then
        .call (.upd fun c => { c with exhaustedCount := c.exhaustedCount + 1 })
          fun _ => .ret (.ok ())
      else
        .call (.ext (.deliver message subscription (deriveDeliveryId p.sha256 message.id
          subscription.id (nextAttempt states subscription)))) fun
        | .error e => .ret (.error e)
        | .ok result => .call (.ext .utcNow) fun utcNow =>
            .call (.upd fun c => { c with newAttempts := c.newAttempts ++ [deliveryAttempt message
              subscription (deriveDeliveryId p.sha256 message.id subscription.id
                (nextAttempt states subscription)) (nextAttempt states subscription) result
              utcNow] }) fun _ =>
            if result.success then
              .call (.upd fun c => { c with successCount := c.successCount + 1 })
                fun _ => .ret (.ok ())
            else
              .call (.upd fun c => { c with failedCount := c.failedCount + 1 }) fun _ =>
              .call (.upd fun c => { c with lastError := result.errorMessage })
                fun _ => .ret (.ok ()) := by
  unfold Pipeline.deliverToSubscription
  split
  · rfl
  split
  · rfl
  -- the delivery, the clock, the list of attempts, and then one counter
  refine congrArg (Prog.call _) (funext fun a => ?_)
  cases a with
  | error e => rfl
  | ok result =>
      refine congrArg (Prog.call _) (funext fun utcNow => ?_)
      refine congrArg (Prog.call _) (funext fun _ => ?_)
      split <;> rfl

/-- A body that moves one counter. -/
theorem tally_success (c : DeliveryOutcome) :
    tally { c with successCount := c.successCount + 1 } = tally c + (1, 0, 0, 0) := by
  simp [tally]

theorem tally_failed (c : DeliveryOutcome) :
    tally { c with failedCount := c.failedCount + 1 } = tally c + (0, 1, 0, 0) := by
  simp [tally]

theorem tally_exhausted (c : DeliveryOutcome) :
    tally { c with exhaustedCount := c.exhaustedCount + 1 } = tally c + (0, 0, 1, 0) := by
  simp [tally]

theorem tally_attempt (c : DeliveryOutcome) (a : DeliveryAttempt) :
    tally { c with newAttempts := c.newAttempts ++ [a] } = tally c + (0, 0, 0, {a}) := by
  simp [tally, ← Multiset.coe_add]

/-- **One body.** The body of position `i` conforms on its own. -/
theorem deliverToSubscription_conforms {i : ℕ} {subscription : WebhookSubscription}
    (hi : job.subscriptions[i]? = some subscription) (states : States) :
    BodyConforms job.Trans tally (Rely states i) (Guarantee states i) (BodyPost job states i)
      (job.pipeline.deliverToSubscription job.message states subscription).run 0
      (.delivering states Results.none) := by
  rw [deliverToSubscription_run]
  split
  · next hs =>
      refine ⟨(1, 0, 0, 0), tally_success, fun s' hR => ?_⟩
      obtain ⟨results, rfl, hres⟩ := hR _ rfl
      refine ⟨results, rfl, .succeeded, 0, ?_, ?_⟩
      · rw [verdictAt_eq hi, verdict_of_hasSuccess hs]
      · simp [attemptAt, hi, hres, Results.none, contribution, verdictTally]
  next hs =>
  split
  · next hx =>
      refine ⟨(0, 0, 1, 0), tally_exhausted, fun s' hR => ?_⟩
      obtain ⟨results, rfl, hres⟩ := hR _ rfl
      refine ⟨results, rfl, .exhausted, 0, ?_, ?_⟩
      · rw [verdictAt_eq hi]
        simp [verdict, hs, hx]
      · simp [attemptAt, hi, hres, Results.none, contribution, verdictTally]
  next hx =>
  have hatt : attempted states subscription = true :=
    attempted_iff.mpr ⟨by simpa using hs, not_lt.mp hx⟩
  intro s₁ hR₁ answer
  obtain ⟨results₁, rfl, hres₁⟩ := hR₁ _ rfl
  refine ⟨.delivering states (Function.update results₁ i (some answer)),
    .deliver hi hres₁ hatt, fun results h => ?_, ?_⟩
  · cases h
    exact ⟨_, rfl⟩
  cases answer with
  | error e =>
      intro s₂ hR₂
      obtain ⟨results₂, rfl, hres₂⟩ := hR₂ _ rfl
      exact ⟨results₂, rfl, by simpa using hres₂⟩
  | ok result =>
      intro s₂ hR₂ utcNow
      obtain ⟨results₂, rfl, hres₂⟩ := hR₂ _ rfl
      rw [Function.update_self] at hres₂
      refine ⟨.delivering states results₂, .attemptTime, fun results h => ?_,
        (0, 0, 0, {_}), fun c => tally_attempt c _, ?_⟩
      · cases h
        exact ⟨results₂ i, by rw [Function.update_eq_self]⟩
      -- from here on the accumulators only; the result of the position is fixed
      have hpost : ∀ s₃, Rely states i (.delivering states results₂) s₃ →
          BodyPost job states i (.ok ()) (contribution (if result.success then .succeeded else .failed)
            (some (deliveryAttempt job.message subscription (job.deliveryId states subscription)
              (nextAttempt states subscription) result utcNow))) s₃ := by
        intro s₃ hR₃
        obtain ⟨results₃, rfl, hres₃⟩ := hR₃ _ rfl
        have hres : results₃ i = some (.ok result) := hres₃.trans hres₂
        refine ⟨results₃, rfl, if result.success then .succeeded else .failed, utcNow, ?_, ?_⟩
        · rw [verdictAt_eq hi, hres, verdict_of_attempted hatt]
        · simp [attemptAt, hi, hres]
      split
      · next hok =>
          refine ⟨(1, 0, 0, 0), tally_success, fun s₃ hR₃ => ?_⟩
          have := hpost s₃ hR₃
          simpa [hok, contribution, verdictTally, deliveryId] using this
      · next hfail =>
          refine ⟨(0, 1, 0, 0), tally_failed, 0, fun c => by simp [tally], fun s₃ hR₃ => ?_⟩
          have := hpost s₃ hR₃
          simpa [hfail, contribution, verdictTally, deliveryId] using this

/-! ## The loop -/

/-- The outcome of the loop says what the results say. -/
structure Tallied (job : Job) (states : States) (results : Results) (outcome : DeliveryOutcome) :
    Prop where
  complete : job.Complete states results
  successCount : outcome.successCount = job.count states results .succeeded
  failedCount : outcome.failedCount = job.count states results .failed
  exhaustedCount : outcome.exhaustedCount = job.count states results .exhausted
  newAttempts : ∃ utcNow, outcome.newAttempts.Perm (job.newAttempts states results utcNow)

/-- How the loop ends. -/
def LoopPost (job : Job) (loop : LoopSchedule) (states : States) (r : Except Exn DeliveryOutcome)
    (s : Stage) : Prop :=
  ∃ results, s = .delivering states results ∧
    match r with
    | .ok outcome => Tallied job states results outcome
    | .error e => job.Threw results e ∨ (loop.cancels ∧ e = Exn.operationCanceled)

/-- A sum of indicators counts. -/
theorem sum_eq_countP {n : ℕ} {p : ℕ → Bool} {f : ℕ → ℕ}
    (h : ∀ i < n, f i = if p i then 1 else 0) :
    ∑ i ∈ Finset.range n, f i = (List.range n).countP p := by
  induction n with
  | zero => rfl
  | succ n ih =>
      rw [Finset.sum_range_succ, List.range_succ, List.countP_append, List.countP_singleton,
        ih fun i hi => h i (Nat.lt_succ_of_lt hi), h n (Nat.lt_succ_self n)]

/-- A sum of optional elements is the list of those that are there. -/
theorem sum_toList {α : Type} {n : ℕ} {f : ℕ → Option α} {g : ℕ → Multiset α}
    (h : ∀ i < n, g i = ((f i).toList : Multiset α)) :
    ∑ i ∈ Finset.range n, g i = ((List.range n).filterMap f : Multiset α) := by
  induction n with
  | zero => rfl
  | succ n ih =>
      rw [Finset.sum_range_succ, List.range_succ, List.filterMap_append,
        ih fun i hi => h i (Nat.lt_succ_of_lt hi), h n (Nat.lt_succ_self n), ← Multiset.coe_add]
      cases hf : f n <;> simp [hf]

/-- The sum of the contributions is the tally of the outcome. -/
theorem tallied_of_contributions {states : States} {results : Results} {outcome : DeliveryOutcome}
    {d : ℕ → Tally}
    (hsum : tally outcome = ∑ i ∈ Finset.range job.subscriptions.length, d i)
    (hd : ∀ i < job.subscriptions.length, ∃ v utcNow, job.verdictAt states results i = some v ∧
      d i = contribution v (job.attemptAt states results (fun _ => utcNow) i)) :
    Tallied job states results outcome := by
  have hverdict : ∀ i < job.subscriptions.length, (d i).1 =
      (if job.verdictAt states results i = some .succeeded then 1 else 0) ∧
      (d i).2.1 = (if job.verdictAt states results i = some .failed then 1 else 0) ∧
      (d i).2.2.1 = (if job.verdictAt states results i = some .exhausted then 1 else 0) := by
    intro i hi
    obtain ⟨v, utcNow, hv, hdi⟩ := hd i hi
    rw [hv, hdi]
    cases v <;> simp [contribution, verdictTally]
  have hattempt : ∀ i : ℕ, ∃ utcNow, i < job.subscriptions.length →
      (d i).2.2.2 = ((job.attemptAt states results (fun _ => utcNow) i).toList : Multiset _) := by
    intro i
    by_cases hi : i < job.subscriptions.length
    · obtain ⟨v, utcNow, -, hdi⟩ := hd i hi
      exact ⟨utcNow, fun _ => by rw [hdi]; rfl⟩
    · exact ⟨0, fun h => absurd h hi⟩
  -- every body has read the clock for itself
  choose utcNow hattempt using hattempt
  have hfst : outcome.successCount = ∑ i ∈ Finset.range job.subscriptions.length, (d i).1 := by
    rw [← Prod.fst_sum, ← hsum]
    rfl
  have hsnd : outcome.failedCount = ∑ i ∈ Finset.range job.subscriptions.length, (d i).2.1 := by
    rw [← Prod.fst_sum, ← Prod.snd_sum, ← hsum]
    rfl
  have hthd : outcome.exhaustedCount =
      ∑ i ∈ Finset.range job.subscriptions.length, (d i).2.2.1 := by
    rw [← Prod.fst_sum, ← Prod.snd_sum, ← Prod.snd_sum, ← hsum]
    rfl
  have hfth : (outcome.newAttempts : Multiset DeliveryAttempt) =
      ∑ i ∈ Finset.range job.subscriptions.length, (d i).2.2.2 := by
    rw [← Prod.snd_sum, ← Prod.snd_sum, ← Prod.snd_sum, ← hsum]
    rfl
  refine ⟨?_, ?_, ?_, ?_, utcNow, ?_⟩
  · intro i hi
    obtain ⟨v, -, hv, -⟩ := hd i hi
    rw [hv]
    rfl
  · rw [hfst]
    exact sum_eq_countP fun i hi => by simpa using (hverdict i hi).1
  · rw [hsnd]
    exact sum_eq_countP fun i hi => by simpa using (hverdict i hi).2.1
  · rw [hthd]
    exact sum_eq_countP fun i hi => by simpa using (hverdict i hi).2.2
  · rw [← Multiset.coe_eq_coe, hfth]
    exact sum_toList fun i hi => hattempt i hi

/-- **The loop.** -/
theorem deliverToSubscriptionsAsync_conforms (loop : LoopSchedule) (states : States) :
    (job.pipeline.deliverToSubscriptionsAsync loop job.message job.subscriptions
      states).run.Conforms job.Trans (LoopPost job loop states)
      (.delivering states Results.none) := by
  unfold Pipeline.deliverToSubscriptionsAsync
  cases hopt : Pipeline.parallelOptions
      job.pipeline.options.maxConcurrentSubscriptionDeliveries with
  | error e => exact ⟨Results.none, rfl, .inl (.inr ⟨hopt, rfl⟩)⟩
  | ok limit =>
      have hbody : ∀ i subscription, job.subscriptions[i]? = some subscription →
          BodyConforms job.Trans tally (Rely states i) (Guarantee states i) (BodyPost job states i)
            (job.pipeline.deliverToSubscription job.message states subscription).run 0
            (.delivering states Results.none) :=
        fun i subscription hi => deliverToSubscription_conforms hi states
      refine Prog.Conforms.mono ?_ (forEachAsync_conforms (discipline states) Exn.operationCanceled
        loop.canceled limit loop.choices ⟨Results.none, rfl⟩ hbody)
      rintro (e | outcome) s ⟨⟨results, rfl⟩, hs⟩
      · refine ⟨results, rfl, ?_⟩
        rcases hs with hcancel | ⟨i, -, d, results', hs', hres⟩
        · exact .inr hcancel
        · cases hs'
          exact .inl (.inl ⟨i, hres⟩)
      · obtain ⟨d, hsum, hd⟩ := hs
        refine ⟨results, rfl, tallied_of_contributions (d := d) ?_ ?_⟩
        · rw [hsum]
          simp [tally, DeliveryOutcome.zero]
        · intro i hi
          obtain ⟨results', hs', h⟩ := hd i hi
          cases hs'
          exact h

/-! ## The failure handler -/

/-- How the failure handler ends: closed, or by an exception of the retry policy. -/
def HandledPost (job : Job) (r : Except Exn Unit) (s : Stage) : Prop :=
  s = .closed ∨ (job.PolicyThrew s ∧ ∃ e, r = .error e)

/-- A metric may be added in any stage. -/
theorem addMetric_conforms {Q : Except Exn Unit → Stage → Prop} {s : Stage} (metric : Metric)
    (eventType : Text) (h : Q (.ok ()) s) :
    (Async.addMetric metric eventType).run.Conforms job.Trans Q s :=
  fun _ => ⟨s, .metric, h⟩

/-- A write-back that closes the round, with the metric added after it when it returns true. -/
theorem writeBack_conforms {s : Stage} {x : Async Bool} {metric : Metric} {eventType : Text}
    (hx : x.run.Conforms job.Trans (fun _ s' => s' = .closed) s) :
    (do if ← x then Async.addMetric metric eventType : Async Unit).run.Conforms job.Trans
      (fun _ s' => s' = .closed) s := by
  refine Prog.Conforms.bindThrowing hx ?_ ?_
  · rintro b s' rfl
    cases b
    · rfl
    · exact addMetric_conforms metric eventType rfl
  · rintro e s' rfl
    rfl

/-- The failure handler, from the stage of a failing round. -/
theorem handleMessageFailureAsync_conforms (error : Option Text) :
    (job.pipeline.handleMessageFailureAsync job.message job.lockedBy error).run.Conforms job.Trans
      (HandledPost job) (.failing none none) := by
  rw [Pipeline.handleMessageFailureAsync_run]
  refine fun draw => ⟨.failing (some draw) none, .draw, ?_⟩
  beta_reduce
  cases hdelay : job.pipeline.retryPolicy.getNextDelay job.message.retryCount draw with
  | error e => exact .inr ⟨.delay hdelay, e, rfl⟩
  | ok delay =>
      cases delay with
      | none =>
          have hclose : (Async.markAsDeadLettered job.message.id job.lockedBy).run.Conforms
              job.Trans (fun _ s' => s' = .closed) (.failing (some draw) none) :=
            fun _ => ⟨.closed, .giveUp hdelay, rfl⟩
          exact (writeBack_conforms hclose).mono fun _ _ h => .inl h
      | some delay =>
          refine fun utcNow => ⟨.failing (some draw) (some utcNow), .clock, ?_⟩
          beta_reduce
          cases hadd : addTime utcNow delay with
          | error e => exact .inr ⟨.time hdelay hadd, e, rfl⟩
          | ok nextRetryAt =>
              have hclose : (Async.incrementRetry job.message.id job.lockedBy nextRetryAt
                  error).run.Conforms job.Trans (fun _ s' => s' = .closed)
                  (.failing (some draw) (some utcNow)) :=
                fun _ => ⟨.closed, .incrementRetry hdelay hadd, rfl⟩
              exact (writeBack_conforms hclose).mono fun _ _ h => .inl h

/-- The failure handler, from a stage that may behave as a failing one. -/
theorem handleMessageFailureAsync_conforms_from {s : Stage} (error : Option Text)
    (hs : ∀ c (a : c.Ans) s', job.Trans c (.failing none none) a s' → job.Trans c s a s') :
    (job.pipeline.handleMessageFailureAsync job.message job.lockedBy error).run.Conforms job.Trans
      (HandledPost job) s := by
  refine Prog.Conforms.of_le hs ?_ (fun _ _ h => h) (handleMessageFailureAsync_conforms error)
  rintro r (h | ⟨h, -⟩) <;> cases h

/-! ## The decision and bookkeeping phases -/

/-- How the phases after the deliveries end. -/
def DecidedPost (job : Job) (_ : Except Exn Unit) (s : Stage) : Prop :=
  s = .closed ∨ job.PolicyThrew s

/-- The decision phase, once the attempts are saved or there is no success among them. -/
theorem decideAsync_conforms {states : States} {results : Results} {outcome : DeliveryOutcome}
    {saved : Bool} (ht : Tallied job states results outcome)
    (hsaved : saved = true ∨ job.count states results .succeeded = 0) (hpos : job.subscriptions ≠ []) :
    (job.pipeline.decideAsync job.message job.lockedBy outcome).run.Conforms job.Trans
      (DecidedPost job) (.settled states results saved) := by
  unfold Pipeline.decideAsync
  have hdecision : Prog.Conforms job.Trans (HandledPost job)
      (do
        if outcome.failedCount = 0 ∧ outcome.exhaustedCount = 0 then
          if ← Async.markAsProcessed job.message.id job.lockedBy then
            Async.addMetric .messagesProcessed job.message.eventType
        else if outcome.failedCount > 0 then
          job.pipeline.handleMessageFailureAsync job.message job.lockedBy
            (some (outcome.lastError.getD (text "One or more deliveries failed")))
        else
          if ← Async.markAsDeadLettered job.message.id job.lockedBy then
            Async.addMetric .messagesDeadLettered job.message.eventType : Async Unit).run
      (.settled states results saved) := by
    rw [ht.failedCount, ht.exhaustedCount]
    split
    · next h =>
        have hall := fun i hi => all_succeeded (i := i) ht.complete h.1 h.2 hi
        -- a round whose verdicts are all successes has one, so its attempts are saved
        obtain rfl : saved = true := by
          rcases hsaved with h' | h'
          · exact h'
          · have hlen : 0 < job.subscriptions.length := List.length_pos_iff.mpr hpos
            exact absurd (hall 0 hlen) (count_eq_zero_iff.mp h' 0 hlen)
        have hclose : (Async.markAsProcessed job.message.id job.lockedBy).run.Conforms job.Trans
            (fun _ s' => s' = .closed) (.settled states results true) :=
          fun _ => ⟨.closed, .processed hall, rfl⟩
        exact (writeBack_conforms hclose).mono fun _ _ h => .inl h
    next h =>
    split
    · next hf =>
        exact handleMessageFailureAsync_conforms_from _ fun c a s' ht => .retry hf ht
    · next hf =>
        have hf₀ : job.count states results .failed = 0 := Nat.eq_zero_of_not_pos hf
        have hx : 0 < job.count states results .exhausted :=
          Nat.pos_of_ne_zero fun hx => h ⟨hf₀, hx⟩
        have hclose : (Async.markAsDeadLettered job.message.id job.lockedBy).run.Conforms job.Trans
            (fun _ s' => s' = .closed) (.settled states results saved) :=
          fun _ => ⟨.closed, .deadLetter hf₀ hx, rfl⟩
        exact (writeBack_conforms hclose).mono fun _ _ h => .inl h
  have hpost : ∀ r s, HandledPost job r s → DecidedPost job (.ok ()) s := by
    rintro r s (rfl | ⟨h, -⟩)
    · exact .inl rfl
    · exact .inr h
  refine Prog.Conforms.bindThrowing
    (Q := fun _ s => DecidedPost job (.ok ()) s) (hdecision.catching ?_ ?_ ?_) ?_ ?_
  · exact fun a s h => hpost _ s h
  · exact fun e s h _ => hpost _ s h
  · exact fun e s h _ => hpost _ s h
  · rintro (e | u) s h
    · exact h
    · exact h
  · exact fun e s h => h

/-- How a save of attempts ends. -/
def SavedPost (job : Job) (states : States) (results : Results) : Except Exn Bool → Stage → Prop
  | .ok true, s => s = .settled states results true
  | .ok false, s => (s = .closed ∧ 0 < job.count states results .succeeded) ∨
      (s = .settled states results false ∧ job.count states results .succeeded = 0)
  | .error _, s => s = .closed

/-- What the store's answer to a save leaves. -/
def SaveTried (job : Job) (states : States) (results : Results) : Except Exn Unit → Stage → Prop
  | .ok (), s => s = .settled states results true
  | .error e, s => s = job.afterFailedSave states results e

/-- What is left of it when the exception is caught, unless it is a cancellation. -/
def SaveCaught (job : Job) (states : States) (results : Results) :
    Except Exn (Except Exn Unit) → Stage → Prop
  | .ok (.ok ()), s => s = .settled states results true
  | .ok (.error _), s => SavedPost job states results (.ok false) s
  | .error _, s => s = .closed

theorem trySaveAttemptsAsync_conforms {states : States} {results : Results}
    {attempts : List DeliveryAttempt} {utcNow : ℕ → DateTimeOffset}
    (hc : job.Complete states results)
    (hperm : attempts.Perm (job.newAttempts states results utcNow)) (hne : attempts ≠ []) :
    (Pipeline.trySaveAttemptsAsync attempts).run.Conforms job.Trans (SavedPost job states results)
      (.delivering states results) := by
  unfold Pipeline.trySaveAttemptsAsync
  rw [if_neg (fun h => hne (List.length_eq_zero_iff.mp h))]
  have hsave : (Async.saveAttempts attempts).run.Conforms job.Trans (SaveTried job states results)
      (.delivering states results) := by
    rintro (e | u)
    · exact ⟨_, .saveThrew hc hperm hne, rfl⟩
    · exact ⟨_, .save hc hperm hne, rfl⟩
  -- a cancellation passes the exception filter and ends the round
  refine Prog.Conforms.bindThrowing (Q := SaveCaught job states results)
    (hsave.catching (fun _ _ h => h) ?_ ?_) ?_ ?_
  · rintro e s rfl he
    by_cases hpos : 0 < job.count states results .succeeded
    · exact .inl ⟨by simp [afterFailedSave, hpos], hpos⟩
    · exact .inr ⟨by simp [afterFailedSave, hpos, he], Nat.eq_zero_of_not_pos hpos⟩
  · rintro e s rfl he
    show afterFailedSave job states results e = .closed
    simp [afterFailedSave, he]
  · rintro (e | u) s h
    · exact h
    · exact h
  · exact fun _ _ h => h

theorem bookkeepAsync_conforms {states : States} {results : Results} {outcome : DeliveryOutcome}
    (ht : Tallied job states results outcome) (hpos : job.subscriptions ≠ []) :
    (job.pipeline.bookkeepAsync job.message job.lockedBy outcome).run.Conforms job.Trans
      (DecidedPost job) (.delivering states results) := by
  unfold Pipeline.bookkeepAsync
  obtain ⟨utcNow, hperm⟩ := ht.newAttempts
  split
  · next hlen =>
      have hne : outcome.newAttempts ≠ [] := List.length_pos_iff.mp hlen
      refine Prog.Conforms.bindThrowing (trySaveAttemptsAsync_conforms ht.complete hperm hne) ?_ ?_
      · rintro (_ | _) s h
        · rcases h with ⟨rfl, hsucc⟩ | ⟨rfl, hsucc⟩
          · rw [if_pos (by simpa [ht.successCount] using hsucc)]
            exact .inl rfl
          · rw [if_neg (by simp [ht.successCount, hsucc])]
            exact decideAsync_conforms ht (.inr hsucc) hpos
        · obtain rfl : s = .settled states results true := h
          exact decideAsync_conforms ht (.inl rfl) hpos
      · exact fun e s h => .inl h
  · next hlen =>
      have hnil : outcome.newAttempts = [] := by
        rw [← List.length_eq_zero_iff]
        exact Nat.eq_zero_of_not_pos hlen
      -- without new attempts no delivery was made
      have hnone : ∀ i < job.subscriptions.length, ∀ r, results i ≠ some (.ok r) := by
        intro i hi r hr
        have hmem : _ ∈ job.newAttempts states results utcNow :=
          mem_newAttempts.mpr ⟨i, _, r, List.getElem?_eq_getElem hi, hr, rfl⟩
        rw [← hperm.mem_iff, hnil] at hmem
        cases hmem
      refine Prog.Conforms.of_le (fun c a s' h => .nothingToSave ht.complete hnone h) ?_
        (fun _ _ h => h) (decideAsync_conforms ht (.inl rfl) hpos)
      rintro r (h | h) <;> cases h

/-! ## The round -/

/-- How the loop ends inside its `try`. -/
def CaughtPost (job : Job) (loop : LoopSchedule) (states : States)
    (r : Except Exn (Except Exn DeliveryOutcome)) (s : Stage) : Prop :=
  ∃ results, s = .delivering states results ∧
    match r with
    | .ok (.ok outcome) => Tallied job states results outcome
    | .ok (.error _) => job.Faulted results
    | .error e => (job.Threw results e ∧ e.isCanceled = true) ∨ loop.cancels

/-- **`ProcessSingleMessageAsync` conforms to the protocol of a round**, under every schedule. -/
theorem processSingleMessageAsync_conforms (job : Job) (loop : LoopSchedule) :
    (job.pipeline.processSingleMessageAsync loop job.message job.lockedBy
      job.subscriptions).run.Conforms job.Trans (job.Finished loop) .start := by
  unfold Pipeline.processSingleMessageAsync
  have hdecided : ∀ r s, DecidedPost job r s → job.Finished loop r s := by
    rintro r s (rfl | h)
    · exact .closed r
    · exact .policyThrew r h
  have hhandled : ∀ r s, HandledPost job r s → job.Finished loop r s := by
    rintro r s (rfl | ⟨h, -⟩)
    · exact .closed r
    · exact .policyThrew r h
  split
  · next hlen =>
      have hnil : job.subscriptions = [] := List.length_eq_zero_iff.mp hlen
      have hclose : (Async.markAsProcessed job.message.id job.lockedBy).run.Conforms job.Trans
          (fun _ s' => s' = .closed) .start := fun _ => ⟨.closed, .noSubscriptions hnil, rfl⟩
      refine Prog.Conforms.bindThrowing hclose ?_ ?_
      · rintro b s rfl
        exact addMetric_conforms _ _ (.closed _)
      · rintro e s rfl
        exact .closed _
  next hlen =>
  have hne : job.subscriptions ≠ [] := fun h => hlen (by rw [h]; rfl)
  -- reading the states
  have hread : (Async.getDeliveryStates job.message.id
      (job.subscriptions.map (·.id))).run.Conforms job.Trans (fun r s => match r with
        | .ok states => s = .delivering states Results.none
        | .error e => s = if e.isCanceled then .closed else .failing none none) .start := by
    rintro (e | states)
    · exact ⟨_, .readThrew hne, rfl⟩
    · exact ⟨_, .read hne, rfl⟩
  refine Prog.Conforms.bindThrowing
    (Q := fun (r : Except Exn (Except Exn States)) s => match r with
      | .ok (.ok states) => s = .delivering states Results.none
      | .ok (.error _) => s = .failing none none
      | .error _ => s = .closed)
    (hread.catching (fun _ _ h => h) (fun e s h he => by simpa [he] using h)
      (fun e s h he => by simpa [he] using h)) ?_ ?_
  · rintro (e | states) s rfl
    · exact (handleMessageFailureAsync_conforms _).mono hhandled
    · -- delivering
      refine Prog.Conforms.bindThrowing (Q := CaughtPost job loop states)
        ((deliverToSubscriptionsAsync_conforms loop states).catching (fun _ _ h => h) ?_ ?_) ?_ ?_
      · rintro e s ⟨results, rfl, h⟩ he
        refine ⟨results, rfl, ?_⟩
        rcases h with h | ⟨-, rfl⟩
        · exact h.faulted
        · cases he
      · rintro e s ⟨results, rfl, h⟩ he
        exact ⟨results, rfl, h.imp (fun h => ⟨h, he⟩) And.left⟩
      · rintro (e | outcome) s ⟨results, rfl, h⟩
        · exact (handleMessageFailureAsync_conforms_from _ fun c a s' => .faulted h).mono hhandled
        · exact (bookkeepAsync_conforms h hne).mono hdecided
      · rintro e s ⟨results, rfl, h⟩
        exact .loopThrew h
  · rintro e s rfl
    exact .closed _

end OutboxNet.Job
