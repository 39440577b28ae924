import OutboxNet.Processor.Isolation
import OutboxNet.System.RetryBudget

/-!
# The counters of the processor

A round adds to a counter after a write-back, in six places.  In five of them the counter moves only
when the write-back has returned true.  The sixth is the round without subscriptions, which does not
look at the answer: it counts a message as processed that another instance may hold.

Each round owes at most one metric at a time, from the answer of a write-back to the next call.  Over
all rounds, what has been added and what is owed is what has returned true, and what has returned false
to a round that did not look.
-/

set_option autoImplicit false

namespace OutboxNet

open AttemptStore (States)

/-! ## Metrics and write-backs -/

/-- The counter of a write-back. -/
def Call.metric? : Call → Option Metric
  | .markAsProcessed _ _ => some .messagesProcessed
  | .incrementRetry _ _ _ _ => some .messagesFailed
  | .markAsDeadLettered _ _ => some .messagesDeadLettered
  | _ => none

/-- Whether a call adds to a counter. -/
def Call.adds (metric : Metric) : Call → Bool
  | .addMetric m _ => m = metric
  | _ => false

/-- A write-back that returned true, to the counter `metric`. -/
def Entry.returnedTrue (metric : Metric) (e : Entry) : Bool :=
  e.call.metric? = some metric && e.call.answer? e.answer = some true

/-- A `MarkAsProcessedAsync` that returned false. -/
def Entry.refused (e : Entry) : Bool :=
  e.call.metric? = some .messagesProcessed && e.call.answer? e.answer = some false

/-- Whether a round with this plan has no use for the answer of its `MarkAsProcessedAsync`. -/
def Plan.ignoresAnswer : Plan → Bool
  | .direct [] _ => true
  | _ => false

/-- The metric a round adds next, after the entry `e`. -/
def Entry.counted (ignoresAnswer : Bool) (e : Entry) : Option Metric :=
  if e.call.answer? e.answer = some true ∨ (ignoresAnswer ∧ e.refused) then e.call.metric? else none

/-- The metric a program is about to add. -/
def owed {α : Type} : Prog Call Call.Ans α → Option Metric
  | .call (.addMetric metric _) _ => some metric
  | _ => none

/-- An entry counts for `metric` when it returned true, or was refused and nobody looked. -/
theorem Entry.counted_count (ignoresAnswer : Bool) (e : Entry) (metric : Metric) :
    (if e.counted ignoresAnswer = some metric then 1 else 0) =
      (if e.returnedTrue metric then 1 else 0) +
        if ignoresAnswer ∧ e.refused ∧ metric = .messagesProcessed then 1 else 0 := by
  obtain ⟨c, a⟩ := e
  rcases hans : c.answer? a with _ | _ | _
  · simp [counted, returnedTrue, refused, hans]
  · -- a refusal: it counts when it is one of `MarkAsProcessedAsync` that nobody looks at
    cases ignoresAnswer
    · simp [counted, returnedTrue, refused, hans]
    · by_cases hc : c.metric? = some .messagesProcessed
      · simp [counted, returnedTrue, refused, hans, hc, eq_comm]
      · simp [counted, returnedTrue, refused, hans, hc]
  · simp [counted, returnedTrue, refused, hans]

/-! ## What a round owes -/

namespace Pipeline

/-- The protocol of the counters: a metric is added when it is owed, and no other call is made until
then. -/
inductive Counting (ignoresAnswer : Bool) :
    (c : Call) → Option Metric → c.Ans → Option Metric → Prop
  | add {metric : Metric} {eventType : Text} {a : (Call.addMetric metric eventType).Ans} :
      Counting ignoresAnswer (.addMetric metric eventType) (some metric) a none
  | other {c : Call} {a : c.Ans} :
      (∀ metric eventType, c ≠ .addMetric metric eventType) →
      Counting ignoresAnswer c none a (Entry.counted ignoresAnswer ⟨c, a⟩)

/-- What a call adds and leaves owed is what was owed before it and what its answer counts. -/
theorem Counting.paid {ignoresAnswer : Bool} {c : Call} {before after : Option Metric} {a : c.Ans}
    (h : Counting ignoresAnswer c before a after) (metric : Metric) :
    (if c.adds metric then 1 else 0) + (if after = some metric then 1 else 0) =
      (if before = some metric then 1 else 0) +
        if Entry.counted ignoresAnswer ⟨c, a⟩ = some metric then 1 else 0 := by
  cases h with
  | @add m eventType a =>
      -- the debt is paid: the counter moves, and nothing is counted
      have hpaid : Entry.counted ignoresAnswer ⟨.addMetric m eventType, a⟩ = none := by
        simp [Entry.counted, Call.metric?]
      simp only [hpaid, Call.adds, decide_eq_true_eq, Option.some.injEq, reduceCtorEq]
  | other hne =>
      -- a call that counts makes a debt, and no counter moves
      have hno : c.adds metric = false := by
        cases c with
        | addMetric m eventType => exact absurd rfl (hne m eventType)
        | _ => rfl
      simp only [hno, Bool.false_eq_true, reduceCtorEq, if_false]

/-- A program that adds what it owes. -/
abbrev Counts {α : Type} (ignoresAnswer : Bool) (x : Prog Call Call.Ans α) : Prop :=
  x.Conforms (Counting ignoresAnswer) (fun _ s => s = none) none

/-- A call that is no write-back and adds nothing. -/
def Uncounted : Call → Prop
  | .addMetric _ _ => False
  | c => c.metric? = none

theorem Uncounted.counting {ignoresAnswer : Bool} {c : Call} {a : c.Ans} (h : Uncounted c) :
    Counting ignoresAnswer c none a none := by
  have hother : Counting ignoresAnswer c none a (Entry.counted ignoresAnswer ⟨c, a⟩) := by
    refine .other ?_
    rintro metric eventType rfl
    exact h
  have hmetric : c.metric? = none := by
    cases c with
    | addMetric => exact h.elim
    | _ => exact h
  rwa [Entry.counted, hmetric, ite_self] at hother

variable {p : Pipeline} {message : OutboxMessage} {lockedBy : Text} {ignoresAnswer : Bool}

theorem counts_of_only {α : Type} {x : Prog Call Call.Ans α} (h : x.Only Uncounted) :
    Counts ignoresAnswer x :=
  h.conforms fun _ _ hc => hc.counting

theorem Counts.andThen {α β : Type} {x : Async α} {f : α → Async β} (hx : Counts ignoresAnswer x.run)
    (hf : ∀ a, Counts ignoresAnswer (f a).run) : Counts ignoresAnswer (x >>= f).run := by
  refine Prog.Conforms.bindThrowing hx ?_ fun _ _ h => h
  rintro a s rfl
  exact hf a

theorem Counts.catching {α : Type} {x : Async α} (hx : Counts ignoresAnswer x.run)
    (through : Exn → Bool) : Counts ignoresAnswer (Prog.catching through x).run :=
  Prog.Conforms.catching hx (fun _ _ h => h) (fun _ _ h _ => h) fun _ _ h _ => h

/-- A write-back, followed by its metric when it returns true. -/
theorem counts_writeBack {x : Async Bool} {metric : Metric}
    (hx : x.run.Conforms (Counting ignoresAnswer)
      (fun r s => s = if r = .ok true then some metric else none) none) (eventType : Text) :
    Counts ignoresAnswer (do if ← x then Async.addMetric metric eventType : Async Unit).run := by
  refine Prog.Conforms.bindThrowing hx ?_ ?_
  · rintro (_ | _) s rfl
    · rfl
    · exact fun _ => ⟨none, .add, rfl⟩
  · rintro e s rfl
    rfl

theorem counts_markAsProcessed (eventType : Text) : Counts false
    (do if ← Async.markAsProcessed message.id lockedBy then
          Async.addMetric .messagesProcessed eventType : Async Unit).run := by
  refine counts_writeBack ?_ eventType
  rintro (e | _ | _) <;> exact ⟨_, .other nofun, rfl⟩

theorem counts_incrementRetry (nextRetryAt : DateTimeOffset) (error : Option Text)
    (eventType : Text) : Counts false
    (do if ← Async.incrementRetry message.id lockedBy nextRetryAt error then
          Async.addMetric .messagesFailed eventType : Async Unit).run := by
  refine counts_writeBack ?_ eventType
  rintro (e | _ | _) <;> exact ⟨_, .other nofun, rfl⟩

theorem counts_markAsDeadLettered (eventType : Text) : Counts false
    (do if ← Async.markAsDeadLettered message.id lockedBy then
          Async.addMetric .messagesDeadLettered eventType : Async Unit).run := by
  refine counts_writeBack ?_ eventType
  rintro (e | _ | _) <;> exact ⟨_, .other nofun, rfl⟩

theorem counts_handleMessageFailureAsync (error : Option Text) :
    Counts false (p.handleMessageFailureAsync message lockedBy error).run := by
  rw [handleMessageFailureAsync_run]
  refine fun draw => ⟨none, Uncounted.counting rfl, ?_⟩
  beta_reduce
  cases p.retryPolicy.getNextDelay message.retryCount draw with
  | error e => exact rfl
  | ok delay =>
      cases delay with
      | none => exact counts_markAsDeadLettered message.eventType
      | some delay =>
          refine fun utcNow => ⟨none, Uncounted.counting rfl, ?_⟩
          beta_reduce
          cases addTime utcNow delay with
          | error e => exact rfl
          | ok nextRetryAt => exact counts_incrementRetry nextRetryAt error message.eventType

/-! ## The rounds -/

/-- A queue-mediated round. -/
theorem counts_processQueuedMessageAsync :
    Counts false (p.processQueuedMessageAsync lockedBy message).run := by
  unfold processQueuedMessageAsync
  have hpublish : Counts false (Async.publish message).run :=
    counts_of_only ⟨rfl, fun _ => trivial⟩
  have hpublishing : Counts false (do
      Async.publish message
      if ← Async.markAsProcessed message.id lockedBy then
        Async.addMetric .messagesProcessed message.eventType : Async Unit).run :=
    hpublish.andThen fun _ => counts_markAsProcessed message.eventType
  refine (hpublishing.catching fun _ => false).andThen ?_
  rintro (e | _)
  · exact counts_handleMessageFailureAsync (some e.message)
  · exact rfl

theorem counts_decideAsync (outcome : DeliveryOutcome) :
    Counts false (p.decideAsync message lockedBy outcome).run := by
  unfold decideAsync
  refine Counts.andThen (Counts.catching ?_ Exn.isCanceled) ?_
  · split
    · exact counts_markAsProcessed message.eventType
    split
    · exact counts_handleMessageFailureAsync _
    · exact counts_markAsDeadLettered message.eventType
  · rintro (e | _) <;> exact rfl

theorem counts_trySaveAttemptsAsync (attempts : List DeliveryAttempt) :
    Counts false (trySaveAttemptsAsync attempts).run := by
  unfold trySaveAttemptsAsync
  split
  · exact rfl
  have hsave : Counts false (Async.saveAttempts attempts).run :=
    counts_of_only ⟨rfl, fun _ => trivial⟩
  refine (hsave.catching Exn.isCanceled).andThen ?_
  rintro (e | _) <;> exact rfl

theorem counts_bookkeepAsync (outcome : DeliveryOutcome) :
    Counts false (p.bookkeepAsync message lockedBy outcome).run := by
  unfold bookkeepAsync
  split
  · refine (counts_trySaveAttemptsAsync _).andThen fun saved => ?_
    split
    · exact rfl
    · exact counts_decideAsync outcome
  · exact counts_decideAsync outcome

theorem counts_deliverToSubscriptionsAsync (loop : LoopSchedule)
    (subscriptions : List WebhookSubscription) (states : States) : Counts false
      (p.deliverToSubscriptionsAsync loop message subscriptions states).run :=
  counts_of_only (deliverToSubscriptionsAsync_only loop (fun _ _ => rfl) rfl)

/-- What is owed when a message without subscriptions has been marked as processed: the one place where
the answer is thrown away. -/
def owedUnread : Except Exn Bool → Option Metric
  | .ok _ => some .messagesProcessed
  | .error _ => none

/-- **A round in direct delivery adds what it owes**; one without subscriptions owes whatever the
answer. -/
theorem counts_processSingleMessageAsync (loop : LoopSchedule)
    (subscriptions : List WebhookSubscription) :
    Counts (Plan.direct subscriptions loop).ignoresAnswer
      (p.processSingleMessageAsync loop message lockedBy subscriptions).run := by
  unfold processSingleMessageAsync
  cases subscriptions with
  | nil =>
      rw [List.length_nil, if_pos rfl]
      have hclose : (Async.markAsProcessed message.id lockedBy).run.Conforms (Counting true)
          (fun r s => s = owedUnread r) none := by
        have hother : ∀ metric eventType, Call.markAsProcessed message.id lockedBy ≠
            .addMetric metric eventType := fun _ _ h => by cases h
        rintro (e | _ | _) <;> exact ⟨_, .other hother, rfl⟩
      refine Prog.Conforms.bindThrowing hclose ?_ ?_
      · rintro b s rfl
        exact fun _ => ⟨none, .add, rfl⟩
      · rintro e s rfl
        rfl
  | cons first rest =>
      rw [if_neg (by simp)]
      have hread : Counts false (Async.getDeliveryStates message.id
          ((first :: rest).map (·.id))).run := counts_of_only ⟨rfl, fun _ => trivial⟩
      refine (hread.catching Exn.isCanceled).andThen ?_
      rintro (e | states)
      · exact counts_handleMessageFailureAsync (some e.message)
      refine ((counts_deliverToSubscriptionsAsync loop (first :: rest) states).catching
        Exn.isCanceled).andThen ?_
      rintro (e | outcome)
      · exact (counts_trySaveAttemptsAsync []).andThen fun _ =>
          counts_handleMessageFailureAsync (some e.message)
      · exact counts_bookkeepAsync outcome

/-- What a program owes is what it is about to add. -/
theorem owed_eq {α : Type} {x : Prog Call Call.Ans α} {s : Option Metric}
    (h : x.Conforms (Counting ignoresAnswer) (fun _ s => s = none) s)
    (hanswer : ∀ c : Call, Nonempty c.Ans) : owed x = s := by
  cases x with
  | ret a => exact Eq.symm h
  | call c k =>
      obtain ⟨a⟩ := hanswer c
      obtain ⟨s', hT, -⟩ := h a
      cases hT with
      | add => rfl
      | other hne =>
          cases c with
          | addMetric metric eventType => exact absurd rfl (hne metric eventType)
          | _ => rfl

/-- A metric to come, or its absence, is seen in the program. -/
abbrev Accounts {α : Type} (ignoresAnswer : Bool) (x : Prog Call Call.Ans α) : Prop :=
  x.Conforms (Counting ignoresAnswer) (fun _ s => s = none) (owed x)

/-- **One call.** The debt of a program is paid by its call, or there was none and the answer makes the
new one. -/
theorem Accounts.call {α : Type} {c : Call} {k : c.Ans → Prog Call Call.Ans α}
    (h : Accounts ignoresAnswer (.call c k)) (a : c.Ans) :
    Accounts ignoresAnswer (k a) ∧
      Counting ignoresAnswer c (owed (.call c k)) a (owed (k a)) := by
  obtain ⟨s', hT, hk⟩ := h a
  have heq := owed_eq hk Call.nonempty_ans
  subst heq
  exact ⟨hk, hT⟩

end Pipeline

/-! ## All rounds -/

/-- The metric a round owes. -/
def Round.owed (r : Round) : Option Metric := r.work.bind fun work => OutboxNet.owed work.prog

namespace World

/-- What has been added to a counter. -/
def added (w : World) (metric : Metric) : ℕ := w.log.countP fun x => x.2.call.adds metric

/-- The write-backs of a counter that returned true. -/
def returnedTrue (w : World) (metric : Metric) : ℕ := w.log.countP fun x => x.2.returnedTrue metric

/-- The counters agree with the write-backs. -/
def CountersMatch (w : World) : Prop := ∀ metric, w.added metric = w.returnedTrue metric

/-- No round is between a write-back and its metric. -/
def Settled (w : World) : Prop := ∀ r ∈ w.rounds, r.owed = none

/-- Whether the round of a token has begun with a plan that ignores answers. -/
def ignoresAnswer (w : World) (token : ℕ) : Bool :=
  ((w.rounds[token]?).bind (·.work)).any (·.plan.ignoresAnswer)

/-- A `MarkAsProcessedAsync` that returned false to a round without subscriptions. -/
def Overlooked (w : World) (x : ℕ × Entry) : Prop :=
  w.ignoresAnswer x.1 = true ∧ x.2.refused = true

instance (w : World) (x : ℕ × Entry) : Decidable (w.Overlooked x) :=
  inferInstanceAs (Decidable (_ ∧ _))

/-- The rounds that owe a metric. -/
def owing (w : World) (metric : Metric) : ℕ := w.rounds.countP fun r => r.owed = some metric

/-- The entries that make a round owe a metric. -/
def counted (w : World) (metric : Metric) : ℕ :=
  w.log.countP fun x => x.2.counted (w.ignoresAnswer x.1) = some metric

variable {dep : Deployment} {exec : Answering}

/-- What is counted has returned true, or was overlooked. -/
theorem counted_eq (w : World) (metric : Metric) : w.counted metric = w.returnedTrue metric +
    w.log.countP fun x => w.Overlooked x ∧ metric = .messagesProcessed := by
  unfold counted returnedTrue
  induction w.log with
  | nil => rfl
  | cons x log ih =>
      have hx := Entry.counted_count (w.ignoresAnswer x.1) x.2 metric
      simp only [List.countP_cons, decide_eq_true_eq, Overlooked, and_assoc] at ih ⊢
      omega

theorem ignoresAnswer_of_work {w : World} {token : ℕ} {r : Round} {work : Work}
    (hr : w.rounds[token]? = some r) (hwork : r.work = some work) :
    w.ignoresAnswer token = work.plan.ignoresAnswer := by
  simp [ignoresAnswer, hr, hwork]

/-- A round that has begun keeps its plan. -/
theorem Step.ignoresAnswer {w w' : World} {act : Action} (h : Step dep exec w act w') {token : ℕ}
    (hbegun : ∃ r, w.rounds[token]? = some r ∧ r.work.isSome = true) :
    w'.ignoresAnswer token = w.ignoresAnswer token := by
  obtain ⟨r, hr, hsome⟩ := hbegun
  obtain ⟨work, hwork⟩ := Option.isSome_iff_exists.mp hsome
  obtain ⟨r', hr', -, -, hplan, -⟩ := h.round hr
  obtain ⟨prog, hwork'⟩ := hplan work hwork
  rw [ignoresAnswer_of_work hr' hwork', ignoresAnswer_of_work hr hwork]

/-- Replacing a round changes what is owed by its own debt. -/
theorem owing_set {w : World} (w' : World) {token : ℕ} {r r' : Round}
    (hr : w.rounds[token]? = some r) (hrounds : w'.rounds = w.rounds.set token r') (metric : Metric) :
    w'.owing metric + (if r.owed = some metric then 1 else 0) =
      w.owing metric + if r'.owed = some metric then 1 else 0 := by
  obtain ⟨hlt, rfl⟩ := List.getElem?_eq_some_iff.mp hr
  have hle := List.boole_getElem_le_countP (p := fun r => r.owed = some metric) hlt
  unfold owing
  rw [hrounds, List.countP_set hlt]
  simp only [decide_eq_true_eq] at hle ⊢
  omega

/-- What is added and owed is what is counted. -/
structure Balanced (w : World) : Prop where
  begun : w.Begun
  accounts : ∀ (token : ℕ) (r : Round) (work : Work), w.rounds[token]? = some r →
    r.work = some work → Pipeline.Accounts work.plan.ignoresAnswer work.prog
  balance : ∀ metric, w.added metric + w.owing metric = w.counted metric

theorem Balanced.initial (now : DateTimeOffset) : (initial now).Balanced where
  begun := Begun.initial now
  accounts token r work hr := by simp [World.initial] at hr
  balance metric := rfl

/-- A round that begins owes nothing. -/
theorem Round.counts (r : Round) (plan : Plan) :
    Pipeline.Counts plan.ignoresAnswer (r.program plan) := by
  cases plan with
  | direct subscriptions loop => exact Pipeline.counts_processSingleMessageAsync loop subscriptions
  | queueMediated => exact Pipeline.counts_processQueuedMessageAsync

/-- Every program in progress goes on accounting for what it owes. -/
theorem Balanced.accounts_step {w w' : World} {act : Action} (h : w.Balanced)
    (hs : Step dep exec w act w') {token : ℕ} {r : Round} {work : Work}
    (hr : w'.rounds[token]? = some r) (hwork : r.work = some work) :
    Pipeline.Accounts work.plan.ignoresAnswer work.prog := by
  refine hs.work (Ψ := fun _ _ work => Pipeline.Accounts work.plan.ignoresAnswer work.prog)
    ?_ ?_ h.accounts hr hwork
  · intro token plan _ r
    have hcounts := Round.counts r plan
    show (r.program plan).Conforms _ _ (owed (r.program plan))
    rw [Pipeline.owed_eq hcounts Call.nonempty_ans]
    exact hcounts
  · exact fun _ _ _ _ _ a haccounts => (haccounts.call a).1

/-- The entries of the log count after a step as they did before it. -/
theorem Balanced.counted_old {w w' : World} {act : Action} (h : w.Balanced)
    (hs : Step dep exec w act w') (metric : Metric) :
    w.log.countP (fun x => x.2.counted (w'.ignoresAnswer x.1) = some metric) =
      w.counted metric := by
  unfold counted
  refine List.countP_congr fun x hx => ?_
  rw [hs.ignoresAnswer (h.begun x hx)]

/-- A step that makes no call and leaves what is owed as it is keeps the balance. -/
theorem Balanced.of_owing {w w' : World} {act : Action} (h : w.Balanced)
    (hs : Step dep exec w act w') (hlog : w'.log = w.log) {metric : Metric}
    (howing : w'.owing metric = w.owing metric) :
    w'.added metric + w'.owing metric = w'.counted metric := by
  have hadded : w'.added metric = w.added metric := by
    unfold added
    rw [hlog]
  have hcounted : w'.counted metric = w.counted metric := by
    rw [← h.counted_old hs metric]
    unfold counted
    rw [hlog]
  rw [hadded, howing, hcounted]
  exact h.balance metric

/-- Rounds that have not begun owe nothing. -/
theorem owing_append {w w' : World} (rounds : List Round) (hnone : ∀ r ∈ rounds, r.work = none)
    (hrounds : w'.rounds = w.rounds ++ rounds) (metric : Metric) :
    w'.owing metric = w.owing metric := by
  have hzero : rounds.countP (fun r => r.owed = some metric) = 0 := by
    rw [List.countP_eq_zero]
    intro r hr
    simp [Round.owed, hnone r hr]
  unfold owing
  rw [hrounds, List.countP_append, hzero, Nat.add_zero]

/-- A round owes nothing before it begins and nothing just after. -/
theorem owing_begin {w w' : World} {token : ℕ} {r : Round} {plan : Plan}
    (hr : w.rounds[token]? = some r) (hnone : r.work = none)
    (hrounds : w'.rounds = w.rounds.set token (r.begin_ plan)) (metric : Metric) :
    w'.owing metric = w.owing metric := by
  have hset := owing_set w' hr hrounds metric
  have hbefore : r.owed = none := by simp [Round.owed, hnone]
  have hafter : (r.begin_ plan).owed = none :=
    Pipeline.owed_eq (Round.counts r plan) Call.nonempty_ans
  simpa only [hbefore, hafter, reduceCtorEq, if_false, Nat.add_zero] using hset

/-- A call keeps the balance: it pays the debt of its round, or its answer makes one. -/
theorem Balanced.of_call {w w' : World} {act : Action} (h : w.Balanced)
    (hs : Step dep exec w act w') {token : ℕ} {r : Round} {plan : Plan} {c : Call}
    {k : c.Ans → Prog Call Call.Ans (Except Exn Unit)} {a : c.Ans}
    (hr : w.rounds[token]? = some r) (hwork : r.work = some ⟨plan, .call c k⟩)
    (hrounds : w'.rounds = w.rounds.set token { r with work := some ⟨plan, k a⟩ })
    (hlog : w'.log = w.log ++ [(token, ⟨c, a⟩)]) (metric : Metric) :
    w'.added metric + w'.owing metric = w'.counted metric := by
  have haccounts : Pipeline.Accounts plan.ignoresAnswer (.call c k) := h.accounts token r _ hr hwork
  have hpaid := (haccounts.call a).2.paid metric
  have hset := owing_set w' hr hrounds metric
  have hbefore : r.owed = owed (.call c k) := by
    rw [Round.owed, hwork]
    rfl
  have hafter : Round.owed { r with work := some ⟨plan, k a⟩ } = owed (k a) := rfl
  rw [hbefore, hafter] at hset
  have hadded : w'.added metric = w.added metric + if c.adds metric then 1 else 0 := by
    unfold added
    rw [hlog, List.countP_append, List.countP_singleton]
  have hcounted : w'.counted metric = w.counted metric +
      if Entry.counted plan.ignoresAnswer ⟨c, a⟩ = some metric then 1 else 0 := by
    have htoken : w'.ignoresAnswer token = plan.ignoresAnswer := by
      rw [hs.ignoresAnswer ⟨r, hr, by rw [hwork]; rfl⟩]
      exact ignoresAnswer_of_work hr hwork
    rw [← h.counted_old hs metric]
    unfold counted
    rw [hlog, List.countP_append, List.countP_singleton, htoken]
    simp only [decide_eq_true_eq]
  have hbalance := h.balance metric
  omega

/-- **The step lemma.** -/
theorem Balanced.step {w w' : World} {act : Action} (h : w.Balanced) (hs : Step dep exec w act w') :
    w'.Balanced := by
  refine ⟨h.begun.step hs, fun _ _ _ hr hwork => h.accounts_step hs hr hwork, fun metric => ?_⟩
  have hstep := hs
  cases hs with
  | tick => exact h.of_owing hstep rfl rfl
  | publish => exact h.of_owing hstep rfl rfl
  | acquireHot => exact h.of_owing hstep rfl (owing_append _ (by simp) rfl metric)
  | acquireCold => exact h.of_owing hstep rfl (owing_append _ (by simp) rfl metric)
  | begin_ hr hnone => exact h.of_owing hstep rfl (owing_begin hr hnone rfl metric)
  | @call token r work c k a db hr hwork hprog hcall =>
      obtain ⟨plan, prog⟩ := work
      subst hprog
      exact h.of_call hstep hr hwork rfl rfl metric
  | releaseExpiredLocks => exact h.of_owing hstep rfl rfl
  | purgeMessages => exact h.of_owing hstep rfl rfl
  | purgeAttempts => exact h.of_owing hstep rfl rfl

theorem balanced_run {now : DateTimeOffset} {acts : List Action} {w : World}
    (hrun : Run dep exec (initial now) acts w) : w.Balanced :=
  hrun.invariant Balanced (fun _ _ _ h hs => h.step hs) (Balanced.initial now)

/-- When no metric is to come, a counter shows what was counted for it. -/
theorem Balanced.added_eq {w : World} (h : w.Balanced) (hsettled : w.Settled) (metric : Metric) :
    w.added metric = w.counted metric := by
  have hzero : w.owing metric = 0 := by
    unfold owing
    rw [List.countP_eq_zero]
    intro r hr
    simp [hsettled r hr]
  have hbalance := h.balance metric
  omega

/-- The counters of retries and of dead-letters agree with the write-backs in every run. -/
theorem failures_match {now : DateTimeOffset} {acts : List Action} {w : World}
    (hrun : Run dep exec (initial now) acts w) (hsettled : w.Settled) {metric : Metric}
    (hmetric : metric ≠ .messagesProcessed) : w.added metric = w.returnedTrue metric := by
  rw [(balanced_run hrun).added_eq hsettled, counted_eq, List.countP_eq_zero.mpr, Nat.add_zero]
  intro x _
  simp [hmetric]

/-- **The counters match the transitions, exactly when no refusal is overlooked.** After every run, of
any number of rounds in either mode and with any answers, in which no round is left between a write-back
and its metric: what has been added to each counter is the number of its write-backs that returned true,
if and only if no `MarkAsProcessedAsync` of a round without subscriptions returned false. -/
theorem counters_match_iff {now : DateTimeOffset} {acts : List Action} {w : World}
    (hrun : Run dep exec (initial now) acts w) (hsettled : w.Settled) :
    w.CountersMatch ↔ ∀ x ∈ w.log, ¬ w.Overlooked x := by
  have hadded : ∀ metric, w.added metric = w.returnedTrue metric +
      w.log.countP fun x => w.Overlooked x ∧ metric = .messagesProcessed := by
    intro metric
    rw [(balanced_run hrun).added_eq hsettled, counted_eq]
  constructor
  · intro hmatch x hx hover
    have hprocessed := hadded .messagesProcessed
    rw [hmatch .messagesProcessed] at hprocessed
    have hpos : 0 < w.log.countP fun x => w.Overlooked x ∧
        Metric.messagesProcessed = .messagesProcessed :=
      List.countP_pos_iff.mpr ⟨x, hx, by simp [hover]⟩
    omega
  · intro hnone metric
    rw [hadded metric, List.countP_eq_zero.mpr, Nat.add_zero]
    intro x hx
    simp [hnone x hx]

/-! ## A message without subscribers -/

/-- The order has no subscribers: its round has marked it, with this answer, and added its metric. -/
def markedOrder (db : Database) (answer : Bool) : World where
  db := db
  rounds := [⟨functionsHost, orderRow₁, some ⟨.direct [] ⟨false, []⟩, .ret (.ok ())⟩⟩]
  log := [(0, ⟨.markAsProcessed 1 (text "func-1"), .ok answer⟩),
    (0, ⟨.addMetric .messagesProcessed (text "order.placed"), ()⟩)]

/-- The metric is added whatever the table says. -/
theorem markedOrder_run {acts : List Action} {db : Database}
    (hrun : Run sqlServer (Database.Exec sqlServer) (initial 0) acts { acquired with db := db }) :
    ∃ acts', Run sqlServer (Database.Exec sqlServer) (initial 0) acts'
      (markedOrder
        { db with messages := (OutboxStore.markAsProcessedAsync sqlServer db.now 1 (text "func-1")
          db.messages).2 }
        (OutboxStore.markAsProcessedAsync sqlServer db.now 1 (text "func-1") db.messages).1) := by
  have h₁ := hrun.snoc (.begin_ 0 (.direct [] ⟨false, []⟩)) (.begin_ rfl rfl)
  have h₂ := h₁.snoc (.call 0 ⟨.markAsProcessed 1 (text "func-1"), Except.ok _⟩)
    (.call rfl rfl rfl (.effect (.markAsProcessed 1 (text "func-1") db)))
  have h₃ := h₂.snoc (.call 0 ⟨.addMetric .messagesProcessed (text "order.placed"), ()⟩)
    (.call rfl rfl rfl (.effect (.addMetric .messagesProcessed (text "order.placed") _)))
  exact ⟨_, h₃⟩

theorem markedOrder_settled (db : Database) (answer : Bool) : (markedOrder db answer).Settled := by
  intro r hr
  rw [List.mem_singleton.mp hr]
  rfl

/-- The order marked under its lock: one write-back returned true, and one message is counted. -/
theorem counters_match_marked : ∃ acts db,
    Run sqlServer (Database.Exec sqlServer) (initial 0) acts (markedOrder db true) ∧
    (markedOrder db true).added .messagesProcessed = 1 ∧ (markedOrder db true).CountersMatch := by
  obtain ⟨acts, hrun⟩ := markedOrder_run (acquired_run (Database.Exec sqlServer))
  refine ⟨acts, _, hrun, rfl, (counters_match_iff hrun (markedOrder_settled _ _)).mpr ?_⟩
  intro x hx
  simp only [markedOrder, List.mem_cons, List.not_mem_nil, or_false] at hx
  rintro ⟨-, hrefused⟩
  rcases hx with rfl | rfl
  · exact absurd hrefused (by decide)
  · exact absurd hrefused (by decide)

/-- The lock of the order has run out and been released: its round is told that nothing was marked, and
counts it all the same. -/
theorem overlooked_run : ∃ acts db,
    Run sqlServer (Database.Exec sqlServer) (initial 0) acts (markedOrder db false) := by
  have h₁ := (acquired_run (Database.Exec sqlServer)).snoc .tick
    (.tick (by decide : (0 : DateTimeOffset) ≤ 4000000000))
  have h₂ := h₁.snoc .releaseExpiredLocks .releaseExpiredLocks
  obtain ⟨acts, hrun⟩ := markedOrder_run h₂
  exact ⟨acts, _, hrun⟩

/-- A counter shows more than the transitions. -/
theorem counted_without_transition : ¬ ∀ (acts : List Action) (w : World),
    Run sqlServer (Database.Exec sqlServer) (initial 0) acts w → w.Settled → w.CountersMatch := by
  intro h
  obtain ⟨acts, db, hrun⟩ := overlooked_run
  have hmatch := h acts _ hrun (markedOrder_settled db false) .messagesProcessed
  exact absurd hmatch (show (1 : ℕ) ≠ 0 by decide)

end World

end OutboxNet
