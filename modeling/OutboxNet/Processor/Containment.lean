import OutboxNet.Processor.Isolation

/-!
# Which exceptions leave the handling of a message

`ProcessSingleMessageAsync` swallows the exceptions of its bookkeeping and decision phases, and hands
those of a state read or of a delivery to the failure handler; a queue-mediated round hands it every
exception.  What the failure handler throws, and what marking a message without subscriptions throws,
leaves the handling of the message.  The log of the round tells: nothing is thrown if every exception
that reached the failure handler was followed by a write-back that returned.
-/

set_option autoImplicit false

namespace OutboxNet

open AttemptStore (States)

/-! ## Exceptions and write-backs of a log -/

/-- The exception of a computation that threw. -/
def errorOf {α : Type} : Except Exn α → Option Exn
  | .ok _ => none
  | .error e => some e

/-- The exception a call was answered with. -/
def Call.exn? : (c : Call) → c.Ans → Option Exn
  | .getDeliveryStates _ _, a => errorOf a
  | .saveAttempts _, a => errorOf a
  | .markAsProcessed _ _, a => errorOf a
  | .incrementRetry _ _ _ _, a => errorOf a
  | .markAsDeadLettered _ _, a => errorOf a
  | .deliver _ _ _, a => errorOf a
  | .publish _, a => errorOf a
  | .utcNow, _ => none
  | .nextDouble, _ => none
  | .addMetric _ _, _ => none

def Entry.exn? (entry : Entry) : Option Exn := entry.call.exn? entry.answer

/-- A write-back that returned. -/
def Entry.wroteBack (entry : Entry) : Bool := (entry.call.answer? entry.answer).isSome

/-- The exceptions thrown by the calls of a log are no cancellations. -/
def Calm (log : List Entry) : Prop :=
  ∀ entry ∈ log, ∀ e, entry.exn? = some e → e.isCanceled = false

/-- Some call of the log threw. -/
def SomeThrew (log : List Entry) : Prop := ∃ entry ∈ log, (entry.exn?).isSome = true

/-- A write-back of the log returned. -/
def WroteBack (log : List Entry) : Prop := ∃ entry ∈ log, entry.wroteBack = true

/-- The exceptions of a retry policy are no cancellations. -/
def RetryPolicy.Calm (policy : RetryPolicy) : Prop :=
  ∀ retryCount draw e, policy.getNextDelay retryCount draw = .error e → e.isCanceled = false

/-- The exception of an overflow is none. -/
theorem ExponentialBackoff.policy_calm (options : RetryPolicyOptions) : (policy options).Calm := by
  intro retryCount draw e he
  rcases getNextDelay_cases options retryCount draw with ⟨-, h⟩ | ⟨-, ⟨delay, h⟩ | h⟩
  · rw [show (policy options).getNextDelay retryCount draw = .ok none from h] at he
    cases he
  · rw [show (policy options).getNextDelay retryCount draw = .ok (some delay) from h] at he
    cases he
  · rw [show (policy options).getNextDelay retryCount draw = .error .timeSpanOverflow from h] at he
    cases he
    rfl

theorem calm_append {l l' : List Entry} : Calm (l ++ l') ↔ Calm l ∧ Calm l' := by
  simp only [Calm, List.mem_append, or_imp, forall_and]

theorem wroteBack_append {l l' : List Entry} :
    WroteBack (l ++ l') ↔ WroteBack l ∨ WroteBack l' := by
  simp only [WroteBack, List.mem_append, or_and_right, exists_or]

theorem wroteBack_singleton {entry : Entry} : WroteBack [entry] ↔ entry.wroteBack = true := by
  simp [WroteBack]

/-- The calls before the bookkeeping of a round: the exceptions of later ones are swallowed. -/
def Call.beforeBookkeeping : Call → Bool
  | .getDeliveryStates _ _ => true
  | .deliver _ _ _ => true
  | _ => false

/-- The handling of a message has met an exception that is not swallowed: any one in queue-mediated mode
and for a message without subscriptions (`bare`); otherwise one of the state read, of a delivery, or of
the options of the loop over the subscriptions. -/
def Pipeline.Failed (p : Pipeline) (bare : Prop) (log : List Entry) : Prop :=
  (bare ∧ SomeThrew log) ∨
  (∃ entry ∈ log, entry.call.beforeBookkeeping = true ∧ (entry.exn?).isSome = true) ∨
  (¬ bare ∧ log ≠ [] ∧ ∃ e, parallelOptions p.options.maxConcurrentSubscriptionDeliveries = .error e)

/-! ## Recorded runs -/

namespace Call

theorem Recorded.of_perform {c : Call} {l l' : List Entry} {a : c.Ans}
    (h : Prog.Exec Call.Recorded (Prog.perform c) l a l') : l' = l ++ [⟨c, a⟩] := by
  obtain ⟨a', l₁, hc, hr⟩ := Prog.exec_call_iff.mp h
  obtain ⟨rfl, rfl⟩ := Prog.exec_ret_iff.mp hr
  exact hc

/-- A call that cannot throw. -/
theorem Recorded.of_lift {c : Call} {l l' : List Entry} {r : Except Exn c.Ans}
    (h : Prog.Exec Call.Recorded (ExceptT.lift (Prog.perform c) :
      ExceptT Exn (Prog Call Call.Ans) c.Ans).run l r l') :
    ∃ a, r = .ok a ∧ l' = l ++ [⟨c, a⟩] := by
  obtain ⟨a, l₁, hc, hr⟩ := Prog.exec_call_iff.mp h
  obtain ⟨rfl, rfl⟩ := Prog.exec_ret_iff.mp hr
  exact ⟨a, rfl, hc⟩

/-- What is in the log stays there. -/
theorem Recorded.mem {α : Type} {p : Prog Call Call.Ans α} {l l' : List Entry} {r : α}
    (h : Prog.Exec Call.Recorded p l r l') {entry : Entry} (hmem : entry ∈ l) : entry ∈ l' := by
  obtain ⟨new, rfl⟩ := Recorded.grows h
  exact List.mem_append_left new hmem

end Call

namespace Pipeline

variable {p : Pipeline} {message : OutboxMessage} {lockedBy : Text} {l l' : List Entry}
variable {r : Except Exn Unit}

/-! ## The failure handler -/

/-- How a part of a round ends that ends with a write-back: normally, after a write-back that returned;
or by an exception and without one, and then by a cancellation only if one was thrown. -/
def Settled (policy : RetryPolicy) (l : List Entry) (r : Except Exn Unit) (l' : List Entry) : Prop :=
  ∃ new, l' = l ++ new ∧ ((r = .ok () ∧ WroteBack new) ∨
    ∃ e, r = .error e ∧ ¬ WroteBack new ∧ (policy.Calm → Calm new → e.isCanceled = false))

/-- A call before, that is no write-back. -/
theorem Settled.after {policy : RetryPolicy} (entry : Entry)
    (h : Settled policy (l ++ [entry]) r l') (hentry : entry.wroteBack = false) :
    Settled policy l r l' := by
  obtain ⟨new, rfl, hend⟩ := h
  refine ⟨[entry] ++ new, List.append_assoc _ _ _, ?_⟩
  rcases hend with ⟨hr, hwrote⟩ | ⟨e, hr, hnot, hcalm⟩
  · exact .inl ⟨hr, wroteBack_append.mpr (.inr hwrote)⟩
  · refine .inr ⟨e, hr, fun hwrote => ?_, fun hpolicy hall => hcalm hpolicy (calm_append.mp hall).2⟩
    rcases wroteBack_append.mp hwrote with hwrote | hwrote
    · rw [wroteBack_singleton, hentry] at hwrote
      cases hwrote
    · exact hnot hwrote

/-- An exception of the policy, or of the date computed from its delay. -/
theorem Settled.thrown {policy : RetryPolicy} {e : Exn}
    (he : policy.Calm → e.isCanceled = false) : Settled policy l (.error e) l := by
  refine ⟨[], (List.append_nil l).symm, .inr ⟨e, rfl, ?_, fun h _ => he h⟩⟩
  rintro ⟨_, hmem, -⟩
  cases hmem

/-- A write-back with the metric added after it. -/
theorem countedWriteBack_recorded {policy : RetryPolicy} {x : Async Bool} {metric : Metric}
    {eventType : Text}
    (hwrite : ∀ o l₁, Prog.Exec Call.Recorded x.run l o l₁ → ∃ entry, l₁ = l ++ [entry] ∧
      entry.wroteBack = o.toOption.isSome ∧ entry.exn? = errorOf o)
    (h : Prog.Exec Call.Recorded
      (do if ← x then Async.addMetric metric eventType : Async Unit).run l r l') :
    Settled policy l r l' := by
  rcases Prog.exec_bindThrowing_iff.mp h with ⟨b, l₁, hx, hrest⟩ | ⟨e, hx, rfl⟩
  · obtain ⟨entry, rfl, hwrote, -⟩ := hwrite _ _ hx
    have hdone : WroteBack [entry] := wroteBack_singleton.mpr hwrote
    cases b with
    | false =>
        obtain ⟨rfl, rfl⟩ := Prog.exec_ret_iff.mp hrest
        exact ⟨_, rfl, .inl ⟨rfl, hdone⟩⟩
    | true =>
        obtain ⟨-, rfl, rfl⟩ := Call.Recorded.of_lift hrest
        refine ⟨_, List.append_assoc _ _ _, .inl ⟨rfl, wroteBack_append.mpr (.inl hdone)⟩⟩
  · obtain ⟨entry, rfl, hwrote, hexn⟩ := hwrite _ _ hx
    refine ⟨_, rfl, .inr ⟨e, rfl, fun hdone => ?_, fun _ hcalm => ?_⟩⟩
    · rw [wroteBack_singleton, hwrote] at hdone
      cases hdone
    · exact hcalm entry List.mem_cons_self e hexn

theorem markAsProcessed_recorded {o : Except Exn Bool}
    (h : Prog.Exec Call.Recorded (Async.markAsProcessed message.id lockedBy).run l o l') :
    ∃ entry, l' = l ++ [entry] ∧ entry.wroteBack = o.toOption.isSome ∧ entry.exn? = errorOf o :=
  ⟨_, Call.Recorded.of_perform h, rfl, rfl⟩

theorem markAsDeadLettered_recorded {o : Except Exn Bool}
    (h : Prog.Exec Call.Recorded (Async.markAsDeadLettered message.id lockedBy).run l o l') :
    ∃ entry, l' = l ++ [entry] ∧ entry.wroteBack = o.toOption.isSome ∧ entry.exn? = errorOf o :=
  ⟨_, Call.Recorded.of_perform h, rfl, rfl⟩

theorem incrementRetry_recorded {nextRetryAt : DateTimeOffset} {error : Option Text}
    {o : Except Exn Bool}
    (h : Prog.Exec Call.Recorded (Async.incrementRetry message.id lockedBy nextRetryAt error).run l o
      l') :
    ∃ entry, l' = l ++ [entry] ∧ entry.wroteBack = o.toOption.isSome ∧ entry.exn? = errorOf o :=
  ⟨_, Call.Recorded.of_perform h, rfl, rfl⟩

/-- The failure handler. -/
theorem handleMessageFailureAsync_recorded {error : Option Text}
    (h : Prog.Exec Call.Recorded (p.handleMessageFailureAsync message lockedBy error).run l r l') :
    Settled p.retryPolicy l r l' := by
  obtain ⟨draw, _, rfl, h⟩ := handleMessageFailureAsync_exec h
  refine Settled.after ⟨.nextDouble, draw⟩ ?_ rfl
  rcases h with ⟨e, hdelay, rfl, rfl⟩ | ⟨-, h⟩ | ⟨delay, now, _, -, rfl, h⟩
  · exact Settled.thrown fun hpolicy => hpolicy _ _ e hdelay
  · exact countedWriteBack_recorded (fun _ _ => markAsDeadLettered_recorded) h
  · refine Settled.after ⟨.utcNow, now⟩ ?_ rfl
    rcases h with ⟨e, hadd, rfl, rfl⟩ | ⟨date, -, h⟩
    · -- the retry time is out of the range of dates
      refine Settled.thrown fun _ => ?_
      unfold addTime at hadd
      split at hadd
      · cases hadd
      · cases hadd
        rfl
    · exact countedWriteBack_recorded (fun _ _ => incrementRetry_recorded) h

/-! ## The deliveries -/

/-- Where the exception of a loop over the subscriptions comes from. -/
def DeliveryThrew (l : List Entry) (e : Exn) : Prop :=
  ∃ entry ∈ l, entry.call.beforeBookkeeping = true ∧ entry.exn? = some e

/-- The log so far, in the loop over the subscriptions: no write-back, and nothing is taken back. -/
theorem discipline_recorded : Parallel.Discipline (fun l : List Entry => ¬ WroteBack l)
    (fun _ l l' => ∀ entry ∈ l, entry ∈ l')
    (fun _ l l' => (∀ entry ∈ l, entry ∈ l') ∧ (¬ WroteBack l → ¬ WroteBack l')) where
  refl _ _ _ h := h
  trans _ _ _ _ h h' entry hentry := h' entry (h entry hentry)
  guar _ _ _ _ _ h := h.1
  keeps _ _ _ hK h := h.2 hK

/-- A call that is no write-back. -/
theorem not_wroteBack_append {entry : Entry} (hentry : entry.wroteBack = false)
    (h : ¬ WroteBack l) : ¬ WroteBack (l ++ [entry]) := by
  rw [wroteBack_append, wroteBack_singleton, hentry]
  exact fun hor => hor.elim h Bool.false_ne_true

/-- One delivery throws only what the deliverer throws. -/
theorem deliverToSubscription_recorded (p : Pipeline) (message : OutboxMessage) (states : States)
    (subscription : WebhookSubscription) (l : List Entry) :
    Parallel.BodyConforms Call.Recorded (fun _ : DeliveryOutcome => (0 : ℕ))
      (fun l l' => ∀ entry ∈ l, entry ∈ l')
      (fun l l' => (∀ entry ∈ l, entry ∈ l') ∧ (¬ WroteBack l → ¬ WroteBack l'))
      (fun r _ l' => ∀ e, r = .error e → DeliveryThrew l' e)
      (p.deliverToSubscription message states subscription).run 0 l := by
  have hgrow : ∀ (l : List Entry) (entry : Entry), entry.wroteBack = false →
      (∀ e ∈ l, e ∈ l ++ [entry]) ∧ (¬ WroteBack l → ¬ WroteBack (l ++ [entry])) :=
    fun l entry hentry => ⟨fun e => List.mem_append_left _, not_wroteBack_append hentry⟩
  rw [Job.deliverToSubscription_run]
  split
  · exact ⟨0, fun _ => rfl, fun _ _ e he => by cases he⟩
  split
  · exact ⟨0, fun _ => rfl, fun _ _ e he => by cases he⟩
  intro l₁ _ a
  refine ⟨_, rfl, hgrow _ _ rfl, ?_⟩
  cases a with
  | error e =>
      intro l₂ hl₂ e' he'
      cases he'
      exact ⟨_, hl₂ _ (List.mem_append_right _ List.mem_cons_self), rfl, rfl⟩
  | ok result =>
      intro l₂ _ utcNow
      refine ⟨_, rfl, hgrow _ _ rfl, 0, fun _ => rfl, ?_⟩
      split
      · exact ⟨0, fun _ => rfl, fun _ _ e he => by cases he⟩
      · exact ⟨0, fun _ => rfl, 0, fun _ => rfl, fun _ _ e he => by cases he⟩

/-- The deliveries of a round: no write-back among them, and an exception is that of a delivery or of the
options of the loop, unless the loop is cancelled. -/
theorem deliverToSubscriptionsAsync_recorded {loop : LoopSchedule}
    {subscriptions : List WebhookSubscription} {states : States}
    {o : Except Exn DeliveryOutcome}
    (h : Prog.Exec Call.Recorded
      (p.deliverToSubscriptionsAsync loop message subscriptions states).run l o l')
    (hl : ¬ WroteBack l) : ¬ WroteBack l' ∧ ∀ e, o = .error e →
      (loop.canceled = true ∨ .cancel ∈ loop.choices) ∨ DeliveryThrew l' e ∨
        parallelOptions p.options.maxConcurrentSubscriptionDeliveries = .error e := by
  unfold deliverToSubscriptionsAsync at h
  rcases Prog.exec_bindThrowing_iff.mp h with ⟨limit, l₁, hoptions, hloop⟩ | ⟨e, hoptions, rfl⟩
  · obtain ⟨-, rfl⟩ := Prog.exec_ret_iff.mp hoptions
    have hbody : ∀ (i : ℕ) subscription, subscriptions[i]? = some subscription → _ :=
      fun _ subscription _ => deliverToSubscription_recorded p message states subscription l₁
    have hconforms : (Parallel.forEachAsync Exn.operationCanceled loop.canceled limit loop.choices
        subscriptions (fun subscription => (p.deliverToSubscription message states subscription).run)
        DeliveryOutcome.zero).Conforms Call.Recorded _ l₁ :=
      Parallel.forEachAsync_conforms discipline_recorded Exn.operationCanceled loop.canceled limit
        loop.choices hl hbody
    -- the log is a function of the calls and their answers
    have hsame : ∀ (c : Call) (s : List Entry) (a : c.Ans) (s' d d' : List Entry), s = d →
        Call.Recorded c s a s' → Call.Recorded c d a d' → s' = d' := by
      rintro c s a s' d d' rfl hs hd
      exact hs.trans hd.symm
    obtain ⟨_, ⟨hwrote, hend⟩, rfl⟩ := hconforms.exec hsame hloop rfl
    refine ⟨hwrote, fun e he => ?_⟩
    subst he
    rcases hend with ⟨hcancel, -⟩ | ⟨i, -, d, hd⟩
    · exact .inl hcancel
    · exact .inr (.inl (hd e rfl))
  · obtain ⟨he, rfl⟩ := Prog.exec_ret_iff.mp hoptions
    refine ⟨hl, fun e' he' => .inr (.inr ?_)⟩
    cases he'
    exact he.symm

/-! ## The bookkeeping -/

/-- The decision swallows every exception but a cancellation. -/
theorem decideAsync_recorded {outcome : DeliveryOutcome}
    (h : Prog.Exec Call.Recorded (p.decideAsync message lockedBy outcome).run l r l')
    (hpolicy : p.retryPolicy.Calm) (hcalm : Calm l') : r = .ok () := by
  unfold decideAsync at h
  rcases Prog.exec_bindThrowing_iff.mp h with ⟨o, l₁, -, hrest⟩ | ⟨e, hcatch, rfl⟩
  · cases o <;> exact (Prog.exec_ret_iff.mp hrest).1
  rcases Prog.exec_catching hcatch with ⟨_, -, he⟩ | ⟨e', hdecision, ⟨-, he⟩ | ⟨hthrough, he⟩⟩
  · cases he
  · cases he
  cases he
  -- each branch of the decision is a write-back or the failure handler
  have hsettled : Settled p.retryPolicy l (.error e) l' := by
    split at hdecision
    · exact countedWriteBack_recorded (fun _ _ => markAsProcessed_recorded) hdecision
    split at hdecision
    · exact handleMessageFailureAsync_recorded hdecision
    · exact countedWriteBack_recorded (fun _ _ => markAsDeadLettered_recorded) hdecision
  obtain ⟨new, rfl, ⟨he, -⟩ | ⟨e', he, -, hnot⟩⟩ := hsettled
  · cases he
  · cases he
    rw [hnot hpolicy (calm_append.mp hcalm).2] at hthrough
    cases hthrough

/-- Saving the attempts swallows every exception but a cancellation. -/
theorem trySaveAttemptsAsync_recorded {attempts : List DeliveryAttempt} {o : Except Exn Bool}
    (h : Prog.Exec Call.Recorded (trySaveAttemptsAsync attempts).run l o l') (hcalm : Calm l') :
    ∃ saved, o = .ok saved := by
  unfold trySaveAttemptsAsync at h
  split at h
  · exact ⟨true, (Prog.exec_ret_iff.mp h).1⟩
  rcases Prog.exec_bindThrowing_iff.mp h with ⟨a, l₁, -, hrest⟩ | ⟨e, hcatch, rfl⟩
  · cases a with
    | ok u => exact ⟨true, (Prog.exec_ret_iff.mp hrest).1⟩
    | error e => exact ⟨false, (Prog.exec_ret_iff.mp hrest).1⟩
  rcases Prog.exec_catching hcatch with ⟨_, -, he⟩ | ⟨e', hsave, ⟨-, he⟩ | ⟨hthrough, he⟩⟩
  · cases he
  · cases he
  cases he
  have hlog := Call.Recorded.of_perform hsave
  rw [hcalm ⟨.saveAttempts attempts, .error e⟩ (by simp [hlog]) e rfl] at hthrough
  cases hthrough

/-- The bookkeeping phase throws nothing but cancellations. -/
theorem bookkeepAsync_recorded {outcome : DeliveryOutcome}
    (h : Prog.Exec Call.Recorded (p.bookkeepAsync message lockedBy outcome).run l r l')
    (hpolicy : p.retryPolicy.Calm) (hcalm : Calm l') : r = .ok () := by
  unfold bookkeepAsync at h
  split at h
  swap
  · exact decideAsync_recorded h hpolicy hcalm
  rcases Prog.exec_bindThrowing_iff.mp h with ⟨saved, l₁, -, hrest⟩ | ⟨e, hsave, rfl⟩
  · split at hrest
    · exact (Prog.exec_ret_iff.mp hrest).1
    · exact decideAsync_recorded hrest hpolicy hcalm
  · obtain ⟨saved, he⟩ := trySaveAttemptsAsync_recorded hsave hcalm
    cases he

/-! ## The two rounds -/

/-- After an exception that reached the failure handler, a write-back that returned was the failure
handler's. -/
theorem Settled.contained {policy : RetryPolicy} (h : Settled policy l r l') (hl : ¬ WroteBack l)
    (hwrote : WroteBack l') : r = .ok () := by
  obtain ⟨new, rfl, ⟨hr, -⟩ | ⟨e, -, hnot, -⟩⟩ := h
  · exact hr
  · exact absurd ((wroteBack_append.mp hwrote).resolve_left hl) hnot

theorem not_wroteBack_nil : ¬ WroteBack [] := by
  rintro ⟨_, hmem, -⟩
  cases hmem

/-- Without cancellations, the loop over the subscriptions throws none. -/
theorem deliverToSubscriptionsAsync_calm {loop : LoopSchedule}
    {subscriptions : List WebhookSubscription} {states : States} {e : Exn}
    (h : Prog.Exec Call.Recorded
      (p.deliverToSubscriptionsAsync loop message subscriptions states).run l (.error e) l')
    (hl : ¬ WroteBack l) (hloop : loop.canceled = false ∧ .cancel ∉ loop.choices) (hcalm : Calm l') :
    e.isCanceled = false ∧
      (DeliveryThrew l' e ∨ parallelOptions p.options.maxConcurrentSubscriptionDeliveries = .error e) := by
  obtain ⟨-, horigin⟩ := deliverToSubscriptionsAsync_recorded h hl
  rcases horigin e rfl with hcancel | ⟨entry, hmem, hbefore, hexn⟩ | hoptions
  · rw [hloop.1] at hcancel
    exact absurd (hcancel.resolve_left Bool.false_ne_true) hloop.2
  · exact ⟨hcalm entry hmem e hexn, .inl ⟨entry, hmem, hbefore, hexn⟩⟩
  · refine ⟨?_, .inr hoptions⟩
    unfold parallelOptions at hoptions
    split at hoptions
    · cases hoptions
      rfl
    · cases hoptions

/-- Marking a message without subscriptions throws, or the round returns. -/
theorem markBare_contained
    (h : Prog.Exec Call.Recorded (do
      let _ ← Async.markAsProcessed message.id lockedBy
      Async.addMetric .messagesProcessed message.eventType : Async Unit).run [] r l')
    (hcontained : SomeThrew l' → WroteBack l') : r = .ok () := by
  rcases Prog.exec_bindThrowing_iff.mp h with ⟨b, l₁, -, hrest⟩ | ⟨e, hmark, rfl⟩
  · obtain ⟨_, rfl, -⟩ := Call.Recorded.of_lift hrest
    rfl
  · -- marking the message threw, and nothing was tried after it
    obtain ⟨entry, rfl, hwrote, hexn⟩ := markAsProcessed_recorded hmark
    have hthrew : SomeThrew ([] ++ [entry]) := ⟨entry, List.mem_cons_self, by rw [hexn]; rfl⟩
    have hwroteBack := hcontained hthrew
    rw [List.nil_append, wroteBack_singleton, hwrote] at hwroteBack
    cases hwroteBack

/-- **What leaves a round of direct delivery.** A round whose exceptions are no cancellations, and in
which every exception that is not swallowed was followed by a write-back that returned, ends without an
exception. -/
theorem processSingleMessageAsync_contained {loop : LoopSchedule}
    {subscriptions : List WebhookSubscription}
    (h : Prog.Exec Call.Recorded
      (p.processSingleMessageAsync loop message lockedBy subscriptions).run [] r l')
    (hloop : loop.canceled = false ∧ .cancel ∉ loop.choices) (hpolicy : p.retryPolicy.Calm)
    (hcalm : Calm l') (hcontained : p.Failed (subscriptions = []) l' → WroteBack l') :
    r = .ok () := by
  unfold processSingleMessageAsync at h
  split at h
  · next hnone =>
      have hbare : subscriptions = [] := List.length_eq_zero_iff.mp hnone
      exact markBare_contained h fun hthrew => hcontained (.inl ⟨hbare, hthrew⟩)
  next hsome =>
  have hbare : subscriptions ≠ [] := fun hnil => hsome (by rw [hnil]; rfl)
  rcases Prog.exec_bindThrowing_iff.mp h with ⟨o, l₁, hread, h⟩ | ⟨e, hread, rfl⟩
  swap
  · -- a cancellation of the state read
    rcases Prog.exec_catching hread with ⟨_, -, he⟩ | ⟨e', hcall, ⟨-, he⟩ | ⟨hthrough, he⟩⟩
    · cases he
    · cases he
    · cases he
      have hlog := Call.Recorded.of_perform hcall
      rw [hcalm _ (by rw [hlog]; exact List.mem_cons_self) e rfl] at hthrough
      cases hthrough
  have hlog : ∃ a, l₁ = [⟨.getDeliveryStates message.id (subscriptions.map (·.id)), a⟩] := by
    rcases Prog.exec_catching hread with ⟨_, hcall, -⟩ | ⟨_, hcall, -⟩
    · exact ⟨_, Call.Recorded.of_perform hcall⟩
    · exact ⟨_, Call.Recorded.of_perform hcall⟩
  have hfirst : ¬ WroteBack l₁ := by
    obtain ⟨a, rfl⟩ := hlog
    exact not_wroteBack_append rfl not_wroteBack_nil
  rcases Prog.exec_catching hread with ⟨states, -, he⟩ | ⟨e, hcall, ⟨-, he⟩ | ⟨-, he⟩⟩
  swap
  · -- the state read threw
    cases he
    refine (handleMessageFailureAsync_recorded h).contained hfirst (hcontained (.inr (.inl ?_)))
    refine ⟨⟨.getDeliveryStates message.id (subscriptions.map (·.id)), .error e⟩, ?_, rfl, rfl⟩
    exact Call.Recorded.mem h (by rw [Call.Recorded.of_perform hcall]; exact List.mem_cons_self)
  swap
  · cases he
  cases he
  rcases Prog.exec_bindThrowing_iff.mp h with ⟨o, l₂, hdeliver, h⟩ | ⟨e, hdeliver, rfl⟩
  swap
  · -- a cancellation in the deliveries
    rcases Prog.exec_catching hdeliver with ⟨_, -, he⟩ | ⟨e', hloops, ⟨-, he⟩ | ⟨hthrough, he⟩⟩
    · cases he
    · cases he
    · cases he
      rw [(deliverToSubscriptionsAsync_calm hloops hfirst hloop hcalm).1] at hthrough
      cases hthrough
  rcases Prog.exec_catching hdeliver with ⟨outcome, -, he⟩ | ⟨e, hloops, ⟨-, he⟩ | ⟨-, he⟩⟩
  · cases he
    exact bookkeepAsync_recorded h hpolicy hcalm
  · -- a delivery or the options of the loop threw
    cases he
    obtain ⟨hsecond, -⟩ := deliverToSubscriptionsAsync_recorded hloops hfirst
    rcases Prog.exec_bindThrowing_iff.mp h with ⟨_, l₃, hsave, h⟩ | ⟨e', hsave, -⟩
    swap
    · obtain ⟨he, -⟩ := Prog.exec_ret_iff.mp hsave
      cases he
    obtain ⟨-, rfl⟩ := Prog.exec_ret_iff.mp hsave
    have hlater : Calm l₃ := fun entry hmem => hcalm entry (Call.Recorded.mem h hmem)
    refine (handleMessageFailureAsync_recorded h).contained hsecond (hcontained ?_)
    rcases (deliverToSubscriptionsAsync_calm hloops hfirst hloop hlater).2 with
      ⟨entry, hmem, hbefore, hexn⟩ | hoptions
    · exact .inr (.inl ⟨entry, Call.Recorded.mem h hmem, hbefore, by rw [hexn]; rfl⟩)
    · refine .inr (.inr ⟨hbare, ?_, e, hoptions⟩)
      obtain ⟨a, hlog⟩ := hlog
      have hread : (⟨.getDeliveryStates message.id (subscriptions.map (·.id)), a⟩ : Entry) ∈ l₁ := by
        rw [hlog]
        exact List.mem_cons_self
      exact List.ne_nil_of_mem (Call.Recorded.mem h (Call.Recorded.mem hloops hread))
  · cases he

/-- **What leaves a queue-mediated round.** -/
theorem processQueuedMessageAsync_contained
    (h : Prog.Exec Call.Recorded (p.processQueuedMessageAsync lockedBy message).run [] r l')
    (hcontained : SomeThrew l' → WroteBack l') : r = .ok () := by
  unfold processQueuedMessageAsync at h
  rcases Prog.exec_bindThrowing_iff.mp h with ⟨o, l₁, hcatch, h⟩ | ⟨e, hcatch, rfl⟩
  swap
  · rcases Prog.exec_catching hcatch with ⟨_, -, he⟩ | ⟨e', -, ⟨-, he⟩ | ⟨hthrough, -⟩⟩
    · cases he
    · cases he
    · cases hthrough
  rcases Prog.exec_catching hcatch with ⟨_, -, he⟩ | ⟨e, hpublishing, ⟨-, he⟩ | ⟨-, he⟩⟩
  · cases he
    exact (Prog.exec_ret_iff.mp h).1
  swap
  · cases he
  cases he
  -- the exception is that of the publish, or of marking the message
  have hthrew : ¬ WroteBack l₁ ∧ SomeThrew l₁ := by
    rcases Prog.exec_bindThrowing_iff.mp hpublishing with ⟨u, l₂, hpublish, hrest⟩ | ⟨e', hpublish, he⟩
    · have hlog := Call.Recorded.of_perform hpublish
      rcases Prog.exec_bindThrowing_iff.mp hrest with ⟨b, l₃, -, hrest⟩ | ⟨e', hmark, -⟩
      · cases b with
        | false =>
            obtain ⟨he, -⟩ := Prog.exec_ret_iff.mp hrest
            cases he
        | true =>
            obtain ⟨_, he, -⟩ := Call.Recorded.of_lift hrest
            cases he
      · obtain ⟨entry, rfl, hwrote, hexn⟩ := markAsProcessed_recorded hmark
        refine ⟨not_wroteBack_append hwrote ?_, entry, List.mem_append_right _ List.mem_cons_self, ?_⟩
        · rw [hlog]
          exact not_wroteBack_append rfl not_wroteBack_nil
        · rw [hexn]
          rfl
    · cases he
      rw [Call.Recorded.of_perform hpublish]
      exact ⟨not_wroteBack_append rfl not_wroteBack_nil, _, List.mem_cons_self, rfl⟩
  obtain ⟨hfirst, entry, hmem, hexn⟩ := hthrew
  refine (handleMessageFailureAsync_recorded h).contained hfirst (hcontained ⟨entry, ?_, hexn⟩)
  exact Call.Recorded.mem h hmem

end Pipeline

end OutboxNet
