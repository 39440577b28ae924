import OutboxNet.Lib.Interleave
import OutboxNet.Processor.Bookkeeping
import OutboxNet.Processor.Containment
import OutboxNet.Processor.Faultless

/-!
# What a round does

A round whose deliveries are answered by an oracle, and in which at most the save of the attempts throws.
What it does is then settled by its subscriptions and the states it has read: whom it delivers to, which
attempts it saves, and the write-back it makes; only the clock and the order in which the deliveries end
are left open.
-/

set_option autoImplicit false

namespace OutboxNet

open AttemptStore (States)
open Pipeline (DeliveryOutcome attemptCount hasSuccess nextAttempt deliveryAttempt)

/-! ## The answers -/

/-- What answers the calls of the rounds, but for the tables and the clock: the results of the deliveries,
the number drawn for a message, and the exception of a save of attempts, if it throws. -/
structure Oracle where
  deliver : OutboxMessage → WebhookSubscription → Guid → DeliveryResult
  nextDouble : Guid → ℚ
  saveThrows : Option Exn := none

/-- An answer of the oracle in a round of message `m`, in which no other operation throws. -/
def Oracle.Answers (o : Oracle) (policy : RetryPolicy) (m : OutboxMessage) :
    (c : Call) → c.Ans → Prop
  | .deliver message subscription deliveryId, a =>
      a = Except.ok (o.deliver message subscription deliveryId)
  | .nextDouble, draw => draw = o.nextDouble m.id ∧
      ∃ delay, policy.getNextDelay m.retryCount draw = .ok delay
  | .utcNow, now => ∀ delay,
      policy.getNextDelay m.retryCount (o.nextDouble m.id) = .ok (some delay) →
        ∃ t, addTime now delay = .ok t
  | .saveAttempts _, a => errorOf a = o.saveThrows
  | c, a => c.exn? a = none

/-- A delivery is answered by the oracle, other calls as it happens. -/
def Oracle.Delivers (o : Oracle) : (c : Call) → c.Ans → Prop
  | .deliver message subscription deliveryId, a =>
      a = Except.ok (o.deliver message subscription deliveryId)
  | _, _ => True

theorem Oracle.Answers.delivers {o : Oracle} {policy : RetryPolicy} {m : OutboxMessage} {c : Call}
    {a : c.Ans} (h : o.Answers policy m c a) : o.Delivers c a := by
  cases c with
  | deliver => exact h
  | _ => trivial

/-- A call whose delivery, if it is one, is answered by the oracle, written down. -/
def Oracle.DeliverExec (o : Oracle) (c : Call) (l : List Entry) (a : c.Ans) (l' : List Entry) : Prop :=
  Call.Recorded c l a l' ∧ o.Delivers c a

/-- A call answered by the oracle, and written down. -/
def Oracle.Exec (o : Oracle) (policy : RetryPolicy) (m : OutboxMessage) (c : Call) (l : List Entry)
    (a : c.Ans) (l' : List Entry) : Prop :=
  Call.Recorded c l a l' ∧ o.Answers policy m c a

/-- A recorded run whose answers are those of the oracle. -/
theorem Oracle.exec_of_recorded {o : Oracle} {policy : RetryPolicy} {m : OutboxMessage} {α : Type}
    {q : Prog Call Call.Ans α} {l l' : List Entry} {r : α} (h : Prog.Exec Call.Recorded q l r l')
    (hanswers : ∀ entry ∈ l', o.Answers policy m entry.call entry.answer) :
    Prog.Exec (o.Exec policy m) q l r l' := by
  induction h with
  | ret a l => exact .ret a l
  | @call c k l l₁ l₂ a r hcall hrest ih =>
      have hmem : (⟨c, a⟩ : Entry) ∈ l₂ := by
        refine Call.Recorded.mem hrest ?_
        rw [hcall]
        exact List.mem_append_right _ List.mem_cons_self
      exact .call ⟨hcall, hanswers _ hmem⟩ (ih hanswers)

/-- The calls of `DeliverAsync`. -/
def deliveries (log : List Entry) : List Call := (log.map (·.call)).filter Call.isDeliver

/-- The attempts a call saves. -/
def Call.savedAttempts : Call → List DeliveryAttempt
  | .saveAttempts attempts => attempts
  | _ => []

/-- The attempts saved. -/
def savedAttempts (log : List Entry) : List DeliveryAttempt :=
  log.flatMap (·.call.savedAttempts)

/-- The write-backs. -/
def writeBacks (log : List Entry) : List Call :=
  (log.map (·.call)).filter fun c => c.writeBack?.isSome

/-- An attempt without its time. -/
def DeliveryAttempt.timeless (a : DeliveryAttempt) : DeliveryAttempt := { a with attemptedAt := 0 }

section Views

variable {l l' : List Entry} {c : Call} {a : c.Ans}

theorem deliveries_append : deliveries (l ++ l') = deliveries l ++ deliveries l' := by
  rw [deliveries, List.map_append, List.filter_append, deliveries, deliveries]

theorem savedAttempts_append : savedAttempts (l ++ l') = savedAttempts l ++ savedAttempts l' :=
  List.flatMap_append

theorem writeBacks_append : writeBacks (l ++ l') = writeBacks l ++ writeBacks l' := by
  rw [writeBacks, List.map_append, List.filter_append, writeBacks, writeBacks]

end Views

/-- A part of a log with no delivery, no save and the write-backs `cs`. -/
structure WritesBack (log : List Entry) (cs : List Call) : Prop where
  deliveries : deliveries log = []
  saved : savedAttempts log = []
  writeBacks : writeBacks log = cs

theorem WritesBack.append {l l' : List Entry} {cs cs' : List Call} (h : WritesBack l cs)
    (h' : WritesBack l' cs') : WritesBack (l ++ l') (cs ++ cs') where
  deliveries := by rw [deliveries_append, h.deliveries, h'.deliveries, List.append_nil]
  saved := by rw [savedAttempts_append, h.saved, h'.saved, List.append_nil]
  writeBacks := by rw [writeBacks_append, h.writeBacks, h'.writeBacks]

/-- The calls of a round that are seen in none of the three. -/
def Call.isPlain : Call → Bool
  | .getDeliveryStates _ _ => true
  | .publish _ => true
  | .utcNow => true
  | .nextDouble => true
  | .addMetric _ _ => true
  | _ => false

theorem writesBack_plain {c : Call} {a : c.Ans} (hc : c.isPlain = true) :
    WritesBack [⟨c, a⟩] [] := by
  cases c <;> first | exact ⟨rfl, rfl, rfl⟩ | cases hc

/-! ## The plan of a round -/

namespace Job

variable (job : Job) (o : Oracle) (states : States)

/-- The subscriptions a round delivers to. -/
def targets : List WebhookSubscription := job.subscriptions.filter (attempted states)

def deliverCall (subscription : WebhookSubscription) : Call :=
  .deliver job.message subscription (job.deliveryId states subscription)

/-- What the oracle answers to the delivery. -/
def resultFor (subscription : WebhookSubscription) : DeliveryResult :=
  o.deliver job.message subscription (job.deliveryId states subscription)

/-- The attempt recorded for the delivery, without its time. -/
def attemptFor (subscription : WebhookSubscription) : DeliveryAttempt :=
  deliveryAttempt job.message subscription (job.deliveryId states subscription)
    (nextAttempt states subscription) (job.resultFor o states subscription) 0

/-- The verdict on a subscription. -/
def verdictFor (subscription : WebhookSubscription) : Option Verdict :=
  verdict states (some (.ok (job.resultFor o states subscription))) subscription

/-- The text recorded for a failed round: that of one of its failed deliveries, or the fixed one. -/
def ErrorText (e : Text) : Prop :=
  e = text "One or more deliveries failed" ∨ ∃ subscription ∈ job.targets states,
    (job.resultFor o states subscription).success = false ∧
      (job.resultFor o states subscription).errorMessage = some e

/-- The write-back of the failure handler, which is given `error`. -/
inductive HandsBack (error : Text) (log : List Entry) : Call → Prop
  | giveUp :
      job.pipeline.retryPolicy.getNextDelay job.message.retryCount (o.nextDouble job.message.id) =
        .ok none →
      HandsBack error log (.markAsDeadLettered job.message.id job.lockedBy)
  | retry {delay : TimeSpan} {now nextRetryAt : DateTimeOffset} :
      job.pipeline.retryPolicy.getNextDelay job.message.retryCount (o.nextDouble job.message.id) =
        .ok (some delay) →
      (⟨.utcNow, now⟩ : Entry) ∈ log → addTime now delay = .ok nextRetryAt →
      HandsBack error log (.incrementRetry job.message.id job.lockedBy nextRetryAt (some error))

/-- The write-back the verdicts call for. -/
inductive Decides (log : List Entry) : Call → Prop
  | processed :
      (∀ subscription ∈ job.subscriptions, job.verdictFor o states subscription = some .succeeded) →
      Decides log (.markAsProcessed job.message.id job.lockedBy)
  | exhausted :
      (∀ subscription ∈ job.subscriptions, job.verdictFor o states subscription ≠ some .failed) →
      (∃ subscription ∈ job.subscriptions, job.verdictFor o states subscription = some .exhausted) →
      Decides log (.markAsDeadLettered job.message.id job.lockedBy)
  | failed {error : Text} {c : Call} :
      (∃ subscription ∈ job.subscriptions, job.verdictFor o states subscription = some .failed) →
      job.ErrorText o states error → job.HandsBack o error log c →
      Decides log c

/-- The round leaves its message locked: the save of its attempts throws a cancellation, or it throws
and there is a success among the verdicts. -/
def Abandons : Prop :=
  job.targets states ≠ [] ∧ ∃ e, o.saveThrows = some e ∧ (e.isCanceled = true ∨
    ∃ subscription ∈ job.subscriptions, job.verdictFor o states subscription = some .succeeded)

/-- **What a round does**: its deliveries, the attempts it saves, and its write-back. -/
structure Conducted (log : List Entry) : Prop where
  deliveries : (deliveries log).Perm ((job.targets states).map (job.deliverCall states))
  saved : ((savedAttempts log).map DeliveryAttempt.timeless).Perm
    ((job.targets states).map (job.attemptFor o states))
  writeBack : ¬ job.Abandons o states → ∃ c, writeBacks log = [c] ∧ job.Decides o states log c
  abandoned : job.Abandons o states → writeBacks log = []

variable {job o states}

/-! ## The deliveries -/

/-- The items of a list, by position. -/
theorem filterMap_range {α β : Type} (f : α → Option β) (l : List α) :
    (List.range l.length).filterMap (fun i => (l[i]?).bind f) = l.filterMap f := by
  induction l with
  | nil => rfl
  | cons a l ih =>
      rw [List.length_cons, List.range_succ_eq_map, List.filterMap_cons, List.filterMap_map,
        List.filterMap_cons]
      have hrest : ((fun i => ((a :: l)[i]?).bind f) ∘ Nat.succ) = fun i => (l[i]?).bind f := by
        funext i
        simp
      rw [hrest, ih]
      cases h : f a <;> simp [h]

/-- What the log tells of a round that delivers: the results are those of the oracle, and the deliveries
are those of the positions with a result, in some order. -/
structure Told (job : Job) (o : Oracle) (states : States) (results : Results) (log : List Entry) :
    Prop where
  result : ∀ i r, results i = some r → ∃ subscription, job.subscriptions[i]? = some subscription ∧
    attempted states subscription = true ∧ r = .ok (job.resultFor o states subscription)
  order : ∃ order : List ℕ, order.Nodup ∧ (∀ i, i ∈ order ↔ results i ≠ none) ∧
    deliveries log = order.filterMap fun i => (job.subscriptions[i]?).map (job.deliverCall states)
  saved : savedAttempts log = []
  writeBacks : writeBacks log = []

theorem Told.start {log : List Entry} (h : WritesBack log []) :
    Told job o states Results.none log where
  result i r hr := by cases hr
  order := ⟨[], List.nodup_nil, fun i => by simp [Results.none], h.deliveries⟩
  saved := h.saved
  writeBacks := h.writeBacks

/-- A call that is seen in none of the lists. -/
theorem Told.plain {results : Results} {log : List Entry} {c : Call} {a : c.Ans}
    (h : Told job o states results log) (hc : c.isPlain = true) :
    Told job o states results (log ++ [⟨c, a⟩]) := by
  have hplain : WritesBack [⟨c, a⟩] [] := writesBack_plain hc
  obtain ⟨order, hnodup, hmem, hdeliveries⟩ := h.order
  refine ⟨h.result, ⟨order, hnodup, hmem, ?_⟩, ?_, ?_⟩
  · rw [deliveries_append, hplain.deliveries, List.append_nil, hdeliveries]
  · rw [savedAttempts_append, hplain.saved, h.saved, List.append_nil]
  · rw [writeBacks_append, hplain.writeBacks, h.writeBacks, List.append_nil]

/-- A delivery answered by the oracle. -/
theorem Told.deliver {results : Results} {log : List Entry} {i : ℕ}
    {subscription : WebhookSubscription} {r : Except Exn DeliveryResult}
    (h : Told job o states results log) (hi : job.subscriptions[i]? = some subscription)
    (hnone : results i = Option.none) (hatt : attempted states subscription = true)
    (hr : r = .ok (job.resultFor o states subscription)) :
    Told job o states (Function.update results i (some r))
      (log ++ [⟨job.deliverCall states subscription, r⟩]) := by
  obtain ⟨order, hnodup, hmem, hdeliveries⟩ := h.order
  have hnew : i ∉ order := fun hin => (hmem i).mp hin hnone
  refine ⟨fun j r' hj => ?_, ⟨order ++ [i], ?_, fun j => ?_, ?_⟩, ?_, ?_⟩
  · by_cases hji : j = i
    · subst hji
      rw [Function.update_self] at hj
      cases hj
      exact ⟨subscription, hi, hatt, hr⟩
    · rw [Function.update_of_ne hji] at hj
      exact h.result j r' hj
  · exact List.nodup_append'.mpr ⟨hnodup, List.nodup_singleton i, by simpa using hnew⟩
  · by_cases hji : j = i
    · simp [hji]
    · rw [List.mem_append, hmem, Function.update_of_ne hji]
      simp [hji]
  · rw [deliveries_append, hdeliveries, List.filterMap_append]
    simp [hi, deliveries, deliverCall, Call.isDeliver]
  · rw [savedAttempts_append, h.saved]
    rfl
  · rw [writeBacks_append, h.writeBacks]
    rfl

/-- What the log tells in a stage, after the states have been read; nothing is said of what comes after
the deliveries. -/
def Telling (job : Job) (o : Oracle) (states : States) : Stage → List Entry → Prop
  | .start, _ => False
  | .delivering states' results, log => states' = states ∧ Told job o states results log
  | _, _ => True

/-- The step lemma. -/
theorem Telling.trans {s s' : Stage} {l l' : List Entry} {c : Call} {a : c.Ans}
    (h : Telling job o states s l) (htrans : job.Trans c s a s')
    (hexec : o.DeliverExec c l a l') : Telling job o states s' l' := by
  obtain ⟨hlog, hanswer⟩ := hexec
  unfold Call.Recorded at hlog
  subst hlog
  induction htrans with
  | @metric metric eventType s a =>
      cases s with
      | start => exact h
      | delivering states' results => exact ⟨h.1, h.2.plain rfl⟩
      | _ => trivial
  | attemptTime => exact ⟨h.1, h.2.plain rfl⟩
  | deliver hi hnone hatt =>
      obtain ⟨rfl, htold⟩ := h
      exact ⟨rfl, htold.deliver hi hnone hatt hanswer⟩
  | noSubscriptions => exact h.elim
  | read => exact h.elim
  | readThrew => exact h.elim
  | nothingToSave _ _ _ ih => exact ih trivial hanswer
  | faulted _ _ ih => exact ih trivial hanswer
  | retry _ _ ih => exact ih trivial hanswer
  | saveThrew =>
      unfold afterFailedSave
      split <;> trivial
  | _ => trivial

/-! ## The deliveries of a complete round -/

section Complete

variable {results : Results} {log : List Entry} {i : ℕ} {subscription : WebhookSubscription}

/-- What is planned for a subscription, read off the list. -/
theorem map_targets {β : Type} (f : WebhookSubscription → β) :
    (job.targets states).map f =
      job.subscriptions.filterMap fun s => if attempted states s then some (f s) else none := by
  rw [targets, ← List.filterMap_eq_map, List.filterMap_filter]
  rfl

/-- Once every position has a verdict, the results are those planned. -/
theorem Told.result_eq (h : Told job o states results log) (hcomplete : job.Complete states results)
    (hi : job.subscriptions[i]? = some subscription) :
    results i = if attempted states subscription then some (.ok (job.resultFor o states subscription))
      else none := by
  cases hr : results i with
  | some r =>
      obtain ⟨subscription', hi', hatt, rfl⟩ := h.result i r hr
      rw [hi] at hi'
      cases hi'
      rw [if_pos hatt]
  | none =>
      have hverdict := hcomplete i (List.getElem?_eq_some_iff.mp hi).1
      rw [verdictAt_eq hi, hr] at hverdict
      rw [if_neg]
      intro hatt
      obtain ⟨hno, hle⟩ := attempted_iff.mp hatt
      simp [verdict, hno, not_lt.mpr hle] at hverdict

/-- The verdict on a position is the one planned. -/
theorem Told.verdictAt_eq (h : Told job o states results log)
    (hcomplete : job.Complete states results) (hi : job.subscriptions[i]? = some subscription) :
    job.verdictAt states results i = job.verdictFor o states subscription := by
  rw [Job.verdictAt_eq hi, h.result_eq hcomplete hi, verdictFor]
  split
  · rfl
  · next hno =>
      -- an earlier success or an exhausted budget
      unfold verdict
      split
      · rfl
      · next hs =>
          have hgt : attemptCount states subscription > subscription.maxRetries := by
            by_contra hle
            exact hno (attempted_iff.mpr ⟨by simpa using hs, not_lt.mp hle⟩)
          rw [if_pos hgt, if_pos hgt]

theorem Told.count_pos (h : Told job o states results log) (hcomplete : job.Complete states results)
    {v : Verdict} : 0 < job.count states results v ↔
      ∃ subscription ∈ job.subscriptions, job.verdictFor o states subscription = some v := by
  rw [count_pos_iff]
  constructor
  · rintro ⟨i, hlt, hv⟩
    have hi := List.getElem?_eq_getElem hlt
    exact ⟨_, List.getElem_mem hlt, by rw [← h.verdictAt_eq hcomplete hi, hv]⟩
  · rintro ⟨subscription, hmem, hv⟩
    obtain ⟨i, hi⟩ := List.mem_iff_getElem?.mp hmem
    exact ⟨i, (List.getElem?_eq_some_iff.mp hi).1, by rw [h.verdictAt_eq hcomplete hi, hv]⟩

theorem Told.count_eq_zero (h : Told job o states results log)
    (hcomplete : job.Complete states results) {v : Verdict} :
    job.count states results v = 0 ↔
      ∀ subscription ∈ job.subscriptions, job.verdictFor o states subscription ≠ some v := by
  constructor
  · intro hzero subscription hmem hv
    have hpos := (h.count_pos hcomplete).mpr ⟨subscription, hmem, hv⟩
    omega
  · intro hnone
    by_contra hne
    obtain ⟨subscription, hmem, hv⟩ := (h.count_pos hcomplete).mp (Nat.pos_of_ne_zero hne)
    exact hnone subscription hmem hv

/-- **Whom a complete round has delivered to.** -/
theorem Told.deliveries_perm (h : Told job o states results log)
    (hcomplete : job.Complete states results) :
    (deliveries log).Perm ((job.targets states).map (job.deliverCall states)) := by
  obtain ⟨order, hnodup, hmem, hdeliveries⟩ := h.order
  have hbound : ∀ i, results i ≠ none → i < job.subscriptions.length := by
    intro i hi
    obtain ⟨r, hr⟩ := Option.ne_none_iff_exists'.mp hi
    obtain ⟨subscription, hsub, -⟩ := h.result i r hr
    exact (List.getElem?_eq_some_iff.mp hsub).1
  have horder : order.Perm
      ((List.range job.subscriptions.length).filter fun i => decide (results i ≠ none)) := by
    refine (List.perm_ext_iff_of_nodup hnodup (List.nodup_range.filter _)).mpr fun i => ?_
    rw [hmem, List.mem_filter, List.mem_range, decide_eq_true_eq]
    exact ⟨fun hi => ⟨hbound i hi, hi⟩, And.right⟩
  have hlist : ((List.range job.subscriptions.length).filter fun i => decide (results i ≠ none)).filterMap
      (fun i => (job.subscriptions[i]?).map (job.deliverCall states)) =
      (job.targets states).map (job.deliverCall states) := by
    rw [List.filterMap_filter, map_targets, ← filterMap_range _ job.subscriptions]
    refine List.filterMap_congr fun i hi => ?_
    obtain ⟨subscription, hsub⟩ : ∃ s, job.subscriptions[i]? = some s :=
      ⟨_, List.getElem?_eq_getElem (List.mem_range.mp hi)⟩
    rw [hsub, h.result_eq hcomplete hsub]
    cases hatt : attempted states subscription <;> simp [hatt]
  rw [hdeliveries, ← hlist]
  exact horder.filterMap _

/-- The attempts of a complete round, without their times. -/
theorem Told.newAttempts_eq (h : Told job o states results log)
    (hcomplete : job.Complete states results) (utcNow : ℕ → DateTimeOffset) :
    (job.newAttempts states results utcNow).map DeliveryAttempt.timeless =
      (job.targets states).map (job.attemptFor o states) := by
  rw [newAttempts, List.map_filterMap, map_targets, ← filterMap_range _ job.subscriptions]
  refine List.filterMap_congr fun i hi => ?_
  obtain ⟨subscription, hsub⟩ : ∃ s, job.subscriptions[i]? = some s :=
    ⟨_, List.getElem?_eq_getElem (List.mem_range.mp hi)⟩
  rw [attemptAt, hsub, h.result_eq hcomplete hsub, Option.bind_some]
  cases hatt : attempted states subscription <;> rfl

end Complete

/-! ## The loop over the subscriptions -/

/-- The text of an error, if there is one, is that of a failed delivery of the round. -/
def FailedText (job : Job) (o : Oracle) (states : States) (error : Option Text) : Prop :=
  ∀ e, error = some e → ∃ subscription ∈ job.targets states,
    (job.resultFor o states subscription).success = false ∧
      (job.resultFor o states subscription).errorMessage = some e

theorem FailedText.errorText {error : Option Text} (h : job.FailedText o states error) :
    job.ErrorText o states (error.getD (text "One or more deliveries failed")) := by
  cases error with
  | none => exact .inl rfl
  | some e => exact .inr (h e rfl)

/-- One delivery keeps the last error to that. -/
theorem deliverToSubscription_keeps {subscription : WebhookSubscription}
    (hmem : subscription ∈ job.subscriptions) :
    Parallel.Keeps o.Delivers
      (fun acc : DeliveryOutcome => job.FailedText o states acc.lastError)
      (job.pipeline.deliverToSubscription job.message states subscription).run := by
  rw [deliverToSubscription_run]
  split
  · exact ⟨fun _ h => h, trivial⟩
  next hno =>
  split
  · exact ⟨fun _ h => h, trivial⟩
  next hle =>
  have htarget : subscription ∈ job.targets states :=
    List.mem_filter.mpr ⟨hmem, attempted_iff.mpr ⟨by simpa using hno, not_lt.mp hle⟩⟩
  intro a ha
  obtain rfl : a = Except.ok (job.resultFor o states subscription) := ha
  intro utcNow _
  refine ⟨fun _ h => h, ?_⟩
  split
  · exact ⟨fun _ h => h, trivial⟩
  · next hfailed =>
      -- the result of a failed delivery becomes the last error
      refine ⟨fun _ h => h, fun _ _ e he => ?_, trivial⟩
      exact ⟨subscription, htarget, by simpa using hfailed, he⟩

/-- **The deliveries of a round**, when no delivery throws. -/
theorem deliverToSubscriptionsAsync_told {loop : LoopSchedule} {l l' : List Entry}
    {r : Except Exn DeliveryOutcome} (hstarts : job.pipeline.Starts) (hloop : ¬ loop.cancels)
    (hl : WritesBack l [])
    (h : Prog.Exec o.DeliverExec (job.pipeline.deliverToSubscriptionsAsync loop job.message
      job.subscriptions states).run l r l') :
    ∃ outcome results, r = .ok outcome ∧ Told job o states results l' ∧
      Tallied job states results outcome ∧ job.FailedText o states outcome.lastError := by
  have htelling : Telling job o states (.delivering states Results.none) l := ⟨rfl, Told.start hl⟩
  have hstep : ∀ (c : Call) s (a : c.Ans) s' l l', Telling job o states s l → job.Trans c s a s' →
      o.DeliverExec c l a l' → Telling job o states s' l' :=
    fun _ _ _ _ _ _ h htrans hexec => h.trans htrans hexec
  obtain ⟨s, ⟨results, rfl, hend⟩, -, htold⟩ : ∃ s, LoopPost job loop states r s ∧
      Telling job o states s l' :=
    Prog.Conforms.exec hstep (deliverToSubscriptionsAsync_conforms loop states) h htelling
  obtain ⟨limit, hlimit⟩ := hstarts
  cases r with
  | error e =>
      -- no delivery has thrown, and the loop was started and not cancelled
      rcases hend with (⟨i, hi⟩ | ⟨he, -⟩) | ⟨hcancels, -⟩
      · obtain ⟨_, -, -, hok⟩ := htold.result i _ hi
        cases hok
      · rw [hlimit] at he
        cases he
      · exact absurd hcancels hloop
  | ok outcome =>
      refine ⟨outcome, results, rfl, htold, hend, ?_⟩
      unfold Pipeline.deliverToSubscriptionsAsync at h
      rw [hlimit] at h
      have hlast : job.FailedText o states DeliveryOutcome.zero.lastError :=
        fun e he => by cases he
      exact Parallel.forEachAsync_keeps (fun _ _ _ _ hexec => hexec.2)
        (fun subscription hmem => deliverToSubscription_keeps hmem)
        (Pipeline.parallelOptions_all hlimit) h hlast

/-! ## The write-back -/

section WriteBack

variable {l l' : List Entry} {r : Except Exn Unit}

/-- One call. -/
theorem oracle_perform {policy : RetryPolicy} {m : OutboxMessage} {c : Call} {a : c.Ans}
    (h : Prog.Exec (o.Exec policy m) (Prog.perform c) l a l') :
    l' = l ++ [⟨c, a⟩] ∧ o.Answers policy m c a := by
  obtain ⟨a', l₁, hc, hr⟩ := Prog.exec_call_iff.mp h
  obtain ⟨rfl, rfl⟩ := Prog.exec_ret_iff.mp hr
  exact hc

/-- One call that cannot throw. -/
theorem oracle_lift {policy : RetryPolicy} {m : OutboxMessage} {c : Call} {x : Except Exn c.Ans}
    (h : Prog.Exec (o.Exec policy m) (ExceptT.lift (Prog.perform c) :
      ExceptT Exn (Prog Call Call.Ans) c.Ans).run l x l') :
    ∃ a, x = .ok a ∧ l' = l ++ [⟨c, a⟩] ∧ o.Answers policy m c a := by
  obtain ⟨a, l₁, hc, hr⟩ := Prog.exec_call_iff.mp h
  obtain ⟨rfl, rfl⟩ := Prog.exec_ret_iff.mp hr
  exact ⟨a, rfl, hc⟩

/-- A metric. -/
theorem addMetric_told {policy : RetryPolicy} {m : OutboxMessage} {metric : Metric}
    {eventType : Text}
    (h : Prog.Exec (o.Exec policy m) (Async.addMetric metric eventType).run l r l') :
    r = .ok () ∧ ∃ new, l' = l ++ new ∧ WritesBack new [] := by
  obtain ⟨_, rfl, rfl, -⟩ := oracle_lift h
  exact ⟨rfl, _, rfl, writesBack_plain rfl⟩

/-- Nothing but the write-back `c`, and perhaps a metric, has been added to the log. -/
def WroteOnly (c : Call) (r : Except Exn Unit) (l l' : List Entry) : Prop :=
  r = .ok () ∧ ∃ new, l' = l ++ new ∧ WritesBack new [c]

/-- A write-back with the metric added after it. -/
theorem countedWriteBack_told {policy : RetryPolicy} {m : OutboxMessage} {x : Async Bool}
    {metric : Metric} {eventType : Text} {c : Call}
    (hwrite : ∀ {b l₁}, Prog.Exec (o.Exec policy m) x.run l b l₁ →
      (∃ b', b = .ok b') ∧ ∃ new, l₁ = l ++ new ∧ WritesBack new [c])
    (h : Prog.Exec (o.Exec policy m)
      (do if ← x then Async.addMetric metric eventType : Async Unit).run l r l') :
    WroteOnly c r l l' := by
  rcases Prog.exec_bindThrowing_iff.mp h with ⟨b, l₁, hx, hrest⟩ | ⟨e, hx, rfl⟩
  · obtain ⟨-, new, rfl, hnew⟩ := hwrite hx
    cases b with
    | false =>
        obtain ⟨rfl, rfl⟩ := Prog.exec_ret_iff.mp hrest
        exact ⟨rfl, new, rfl, hnew⟩
    | true =>
        obtain ⟨rfl, more, rfl, hmore⟩ := addMetric_told hrest
        exact ⟨rfl, new ++ more, List.append_assoc l new more, hnew.append hmore⟩
  · obtain ⟨⟨b, hb⟩, -⟩ := hwrite hx
    cases hb

/-- A store call that does not throw returns. -/
theorem ok_of_errorOf {α : Type} {a : Except Exn α} (h : errorOf a = none) : ∃ b, a = .ok b := by
  cases a with
  | ok b => exact ⟨b, rfl⟩
  | error e => cases h

theorem markAsProcessed_told {policy : RetryPolicy} {m : OutboxMessage} {b : Except Exn Bool}
    (h : Prog.Exec (o.Exec policy m)
      (Async.markAsProcessed job.message.id job.lockedBy).run l b l') :
    (∃ b', b = .ok b') ∧ ∃ new, l' = l ++ new ∧
      WritesBack new [.markAsProcessed job.message.id job.lockedBy] := by
  obtain ⟨rfl, ha⟩ := oracle_perform h
  exact ⟨ok_of_errorOf ha, _, rfl, rfl, rfl, rfl⟩

theorem markAsDeadLettered_told {policy : RetryPolicy} {m : OutboxMessage} {b : Except Exn Bool}
    (h : Prog.Exec (o.Exec policy m)
      (Async.markAsDeadLettered job.message.id job.lockedBy).run l b l') :
    (∃ b', b = .ok b') ∧ ∃ new, l' = l ++ new ∧
      WritesBack new [.markAsDeadLettered job.message.id job.lockedBy] := by
  obtain ⟨rfl, ha⟩ := oracle_perform h
  exact ⟨ok_of_errorOf ha, _, rfl, rfl, rfl, rfl⟩

theorem incrementRetry_told {policy : RetryPolicy} {m : OutboxMessage} {b : Except Exn Bool}
    {nextRetryAt : DateTimeOffset} {error : Option Text}
    (h : Prog.Exec (o.Exec policy m)
      (Async.incrementRetry job.message.id job.lockedBy nextRetryAt error).run l b l') :
    (∃ b', b = .ok b') ∧ ∃ new, l' = l ++ new ∧
      WritesBack new [.incrementRetry job.message.id job.lockedBy nextRetryAt error] := by
  obtain ⟨rfl, ha⟩ := oracle_perform h
  exact ⟨ok_of_errorOf ha, _, rfl, rfl, rfl, rfl⟩

/-- Plain calls before a write-back. -/
theorem WroteOnly.after {c c' : Call} {a : c'.Ans} (h : WroteOnly c r (l ++ [⟨c', a⟩]) l')
    (hc : c'.isPlain = true) : WroteOnly c r l l' := by
  obtain ⟨hr, new, rfl, hnew⟩ := h
  exact ⟨hr, [⟨c', a⟩] ++ new, List.append_assoc l _ new, (writesBack_plain hc).append hnew⟩

/-- **The failure handler**, when nothing throws. -/
theorem handleMessageFailureAsync_told {error : Text}
    (h : Prog.Exec (o.Exec job.pipeline.retryPolicy job.message)
      (job.pipeline.handleMessageFailureAsync job.message job.lockedBy (some error)).run l r l') :
    ∃ c, WroteOnly c r l l' ∧ job.HandsBack o error l' c := by
  obtain ⟨draw, _, ⟨rfl, hanswer, delay, hdelay⟩, h⟩ := Pipeline.handleMessageFailureAsync_exec h
  subst hanswer
  rcases h with ⟨e, hthrew, -⟩ | ⟨hnext, h⟩ | ⟨delay', now, _, hnext, ⟨rfl, hrange⟩, h⟩
  · rw [hdelay] at hthrew
    cases hthrew
  · -- the policy gives up
    refine ⟨_, ?_, .giveUp hnext⟩
    exact (countedWriteBack_told (fun h => markAsDeadLettered_told h) h).after rfl
  · obtain ⟨t, ht⟩ := hrange delay' hnext
    rcases h with ⟨e, hthrew, -⟩ | ⟨nextRetryAt, hadd, h⟩
    · rw [ht] at hthrew
      cases hthrew
    have hwrote := countedWriteBack_told (fun h => incrementRetry_told h) h
    obtain ⟨-, new, rfl, -⟩ := id hwrote
    refine ⟨_, (hwrote.after rfl).after rfl, .retry hnext ?_ hadd⟩
    exact List.mem_append_left _ (List.mem_append_right _ List.mem_cons_self)

/-! ## The bookkeeping -/

section Bookkeeping

variable {results : Results} {outcome : DeliveryOutcome}

/-- **The decision**, when nothing throws. -/
theorem decideAsync_told {log : List Entry} (htold : Told job o states results log)
    (htallied : Tallied job states results outcome)
    (hlast : job.FailedText o states outcome.lastError)
    (h : Prog.Exec (o.Exec job.pipeline.retryPolicy job.message)
      (job.pipeline.decideAsync job.message job.lockedBy outcome).run l r l') :
    ∃ c new, l' = l ++ new ∧ WritesBack new [c] ∧ job.Decides o states l' c := by
  have hcomplete := htallied.complete
  -- the decision itself returns, so nothing is swallowed
  have hdecision : ∀ {o' : Except Exn Unit} {l₁ : List Entry},
      Prog.Exec (o.Exec job.pipeline.retryPolicy job.message) (do
        if outcome.failedCount = 0 ∧ outcome.exhaustedCount = 0 then
          if ← Async.markAsProcessed job.message.id job.lockedBy then
            Async.addMetric .messagesProcessed job.message.eventType
        else if outcome.failedCount > 0 then
          job.pipeline.handleMessageFailureAsync job.message job.lockedBy
            (some (outcome.lastError.getD (text "One or more deliveries failed")))
        else
          if ← Async.markAsDeadLettered job.message.id job.lockedBy then
            Async.addMetric .messagesDeadLettered job.message.eventType : Async Unit).run l o' l₁ →
      ∃ c, WroteOnly c o' l l₁ ∧ job.Decides o states l₁ c := by
    intro o' l₁ h
    rw [htallied.failedCount, htallied.exhaustedCount] at h
    split at h
    · next hnone =>
        refine ⟨_, countedWriteBack_told (fun h => markAsProcessed_told h) h, .processed ?_⟩
        intro subscription hmem
        obtain ⟨i, hi⟩ := List.mem_iff_getElem?.mp hmem
        rw [← htold.verdictAt_eq hcomplete hi]
        exact all_succeeded hcomplete hnone.1 hnone.2 (List.getElem?_eq_some_iff.mp hi).1
    next hsome =>
    split at h
    · next hfailed =>
        obtain ⟨c, hwrote, hback⟩ := handleMessageFailureAsync_told h
        exact ⟨c, hwrote, .failed ((htold.count_pos hcomplete).mp hfailed) hlast.errorText hback⟩
    · next hfailed =>
        have hzero : job.count states results .failed = 0 := Nat.eq_zero_of_not_pos hfailed
        have hexhausted : 0 < job.count states results .exhausted :=
          Nat.pos_of_ne_zero fun hx => hsome ⟨hzero, hx⟩
        exact ⟨_, countedWriteBack_told (fun h => markAsDeadLettered_told h) h,
          .exhausted ((htold.count_eq_zero hcomplete).mp hzero)
            ((htold.count_pos hcomplete).mp hexhausted)⟩
  unfold Pipeline.decideAsync at h
  rcases Prog.exec_bindThrowing_iff.mp h with ⟨o', l₁, hcatch, hrest⟩ | ⟨e, hcatch, -⟩
  · have hlog : l' = l₁ := by cases o' <;> exact (Prog.exec_ret_iff.mp hrest).2
    subst hlog
    rcases Prog.exec_catching hcatch with ⟨_, hrun, -⟩ | ⟨e, hrun, -⟩
    · obtain ⟨c, ⟨-, new, hnew, hwrites⟩, hdecides⟩ := hdecision hrun
      exact ⟨c, new, hnew, hwrites, hdecides⟩
    · obtain ⟨_, ⟨hok, -⟩, -⟩ := hdecision hrun
      cases hok
  · rcases Prog.exec_catching hcatch with ⟨_, -, he⟩ | ⟨e', hrun, -⟩
    · cases he
    · obtain ⟨_, ⟨hok, -⟩, -⟩ := hdecision hrun
      cases hok

/-- The number of attempts of a complete round is the number of its targets. -/
theorem Told.length_newAttempts {log : List Entry} (htold : Told job o states results log)
    (htallied : Tallied job states results outcome) :
    outcome.newAttempts.length = (job.targets states).length := by
  obtain ⟨utcNow, hperm⟩ := htallied.newAttempts
  have heq := congrArg List.length (htold.newAttempts_eq htallied.complete utcNow)
  simpa [hperm.length_eq] using heq

/-- The save of the attempts. -/
theorem trySaveAttemptsAsync_told {attempts : List DeliveryAttempt} {b : Except Exn Bool}
    (hne : attempts ≠ [])
    (h : Prog.Exec (o.Exec job.pipeline.retryPolicy job.message)
      (Pipeline.trySaveAttemptsAsync attempts).run l b l') :
    (∃ a, l' = l ++ [⟨.saveAttempts attempts, a⟩]) ∧
      ((o.saveThrows = none ∧ b = .ok true) ∨ ∃ e, o.saveThrows = some e ∧
        ((e.isCanceled = false ∧ b = .ok false) ∨ (e.isCanceled = true ∧ b = .error e))) := by
  unfold Pipeline.trySaveAttemptsAsync at h
  rw [if_neg (fun hlen => hne (List.length_eq_zero_iff.mp hlen))] at h
  rcases Prog.exec_bindThrowing_iff.mp h with ⟨x, l₁, hcatch, hrest⟩ | ⟨e, hcatch, rfl⟩
  · rcases Prog.exec_catching hcatch with ⟨u, hsave, hx⟩ | ⟨e, hsave, ⟨hnot, hx⟩ | ⟨-, he⟩⟩
    · cases hx
      obtain ⟨rfl, ha⟩ := oracle_perform hsave
      obtain ⟨rfl, rfl⟩ := Prog.exec_ret_iff.mp hrest
      exact ⟨⟨_, rfl⟩, .inl ⟨ha.symm, rfl⟩⟩
    · cases hx
      obtain ⟨rfl, ha⟩ := oracle_perform hsave
      obtain ⟨rfl, rfl⟩ := Prog.exec_ret_iff.mp hrest
      exact ⟨⟨_, rfl⟩, .inr ⟨e, ha.symm, .inl ⟨hnot, rfl⟩⟩⟩
    · cases he
  · rcases Prog.exec_catching hcatch with ⟨u, -, he⟩ | ⟨e', hsave, ⟨-, he⟩ | ⟨hthrough, he⟩⟩
    · cases he
    · cases he
    · cases he
      obtain ⟨rfl, ha⟩ := oracle_perform hsave
      exact ⟨⟨_, rfl⟩, .inr ⟨e, ha.symm, .inr ⟨hthrough, rfl⟩⟩⟩

/-- **The bookkeeping of a round**. -/
theorem bookkeepAsync_told (htold : Told job o states results l)
    (htallied : Tallied job states results outcome)
    (hlast : job.FailedText o states outcome.lastError)
    (h : Prog.Exec (o.Exec job.pipeline.retryPolicy job.message)
      (job.pipeline.bookkeepAsync job.message job.lockedBy outcome).run l r l') :
    Conducted job o states l' := by
  have hcomplete := htallied.complete
  have htargets := htold.length_newAttempts htallied
  -- what is left after the attempts have been saved, or not
  have hconducted : ∀ {more : List Entry}, deliveries more = [] →
      savedAttempts more = outcome.newAttempts →
      (¬ job.Abandons o states → ∃ c, writeBacks more = [c] ∧ job.Decides o states (l ++ more) c) →
      (job.Abandons o states → writeBacks more = []) → Conducted job o states (l ++ more) := by
    intro more hmore hsaved hdecides habandoned
    refine ⟨?_, ?_, fun hnot => ?_, fun hleft => ?_⟩
    · rw [deliveries_append, hmore, List.append_nil]
      exact htold.deliveries_perm hcomplete
    · obtain ⟨utcNow, hperm⟩ := htallied.newAttempts
      rw [savedAttempts_append, htold.saved, List.nil_append, hsaved,
        ← htold.newAttempts_eq hcomplete utcNow]
      exact hperm.map _
    · obtain ⟨c, hc, hdecides⟩ := hdecides hnot
      exact ⟨c, by rw [writeBacks_append, htold.writeBacks, hc, List.nil_append], hdecides⟩
    · rw [writeBacks_append, htold.writeBacks, habandoned hleft, List.append_nil]
  unfold Pipeline.bookkeepAsync at h
  split at h
  swap
  · next hnone =>
      have hnil : outcome.newAttempts = [] := List.length_eq_zero_iff.mp (Nat.eq_zero_of_not_pos hnone)
      obtain ⟨c, new, rfl, hnew, hdecides⟩ := decideAsync_told htold htallied hlast h
      refine hconducted hnew.deliveries (hnew.saved.trans hnil.symm)
        (fun _ => ⟨c, hnew.writeBacks, hdecides⟩) fun hleft => absurd ?_ hleft.1
      rw [← List.length_eq_zero_iff, ← htargets, hnil]
      rfl
  next hsome =>
  have hne : outcome.newAttempts ≠ [] := List.length_pos_iff.mp hsome
  have htarget : job.targets states ≠ [] := by
    rw [← List.length_pos_iff, ← htargets]
    exact hsome
  have hsuccess : 0 < outcome.successCount ↔ ∃ subscription ∈ job.subscriptions,
      job.verdictFor o states subscription = some .succeeded := by
    rw [htallied.successCount]
    exact htold.count_pos hcomplete
  rcases Prog.exec_bindThrowing_iff.mp h with ⟨saved, l₁, hsave, h⟩ | ⟨e, hsave, -⟩
  swap
  · -- a cancellation of the save
    obtain ⟨⟨a, rfl⟩, ⟨-, he⟩ | ⟨e', hthrows, ⟨-, he⟩ | ⟨hcanceled, -⟩⟩⟩ :=
      trySaveAttemptsAsync_told hne hsave
    · cases he
    · cases he
    · have hleft : job.Abandons o states := ⟨htarget, e', hthrows, .inl hcanceled⟩
      refine hconducted rfl ?_ (fun hnot => absurd hleft hnot) fun _ => rfl
      exact List.append_nil _
  obtain ⟨⟨a, rfl⟩, hend⟩ := trySaveAttemptsAsync_told hne hsave
  split at h
  · next hlost =>
      -- a success that could not be recorded
      have hleft : job.Abandons o states := by
        simp only [Bool.and_eq_true, Bool.not_eq_true', decide_eq_true_eq] at hlost
        rcases hend with ⟨-, hok⟩ | ⟨e, hthrows, -⟩
        · cases hok
          cases hlost.1
        · exact ⟨htarget, e, hthrows, .inr (hsuccess.mp hlost.2)⟩
      obtain ⟨-, rfl⟩ := Prog.exec_ret_iff.mp h
      refine hconducted rfl ?_ (fun hnot => absurd hleft hnot) fun _ => rfl
      exact List.append_nil _
  next hkept =>
  have hnot : ¬ job.Abandons o states := by
    rintro ⟨-, e, hthrows, hor⟩
    rcases hend with ⟨hnone, -⟩ | ⟨e', hthrows', ⟨hno, hok⟩ | ⟨-, hok⟩⟩
    · rw [hnone] at hthrows
      cases hthrows
    · rw [hthrows] at hthrows'
      cases hthrows'
      cases hok
      rcases hor with hcanceled | hsucceeded
      · rw [hno] at hcanceled
        cases hcanceled
      · exact hkept (by simpa using hsuccess.mpr hsucceeded)
    · cases hok
  obtain ⟨c, new, rfl, hnew, hdecides⟩ := decideAsync_told htold htallied hlast h
  rw [List.append_assoc] at hdecides ⊢
  refine hconducted ?_ ?_ (fun _ => ⟨c, ?_, hdecides⟩) fun hleft => absurd hleft hnot
  · rw [deliveries_append, hnew.deliveries]
    rfl
  · rw [savedAttempts_append, hnew.saved, List.append_nil]
    exact List.append_nil _
  · rw [writeBacks_append, hnew.writeBacks]
    rfl

end Bookkeeping

/-! ## The round -/

/-- What is in a log of the oracle stays there. -/
theorem mem_of_exec {α : Type} {policy : RetryPolicy} {m : OutboxMessage}
    {q : Prog Call Call.Ans α} {x : α} (h : Prog.Exec (o.Exec policy m) q l x l') {entry : Entry}
    (hmem : entry ∈ l) : entry ∈ l' := by
  induction h with
  | ret a l => exact hmem
  | call hcall _ ih =>
      refine ih ?_
      rw [hcall.1]
      exact List.mem_append_left _ hmem

/-- The states a round has read, if it has read any. -/
def ReadStates (job : Job) (states : States) (log : List Entry) : Prop :=
  ∀ ids states', (⟨.getDeliveryStates job.message.id ids, Except.ok states'⟩ : Entry) ∈ log →
    states' = states

/-- **What a round does is settled by its subscriptions and the states it has read.** -/
theorem processSingleMessageAsync_told {loop : LoopSchedule} (hstarts : job.pipeline.Starts)
    (hloop : ¬ loop.cancels)
    (h : Prog.Exec (o.Exec job.pipeline.retryPolicy job.message)
      (job.pipeline.processSingleMessageAsync loop job.message job.lockedBy job.subscriptions).run [] r
      l') (hread : ReadStates job states l') :
    Conducted job o states l' := by
  unfold Pipeline.processSingleMessageAsync at h
  split at h
  · next hnone =>
      have hnil : job.subscriptions = [] := List.length_eq_zero_iff.mp hnone
      -- without subscriptions the message is marked as processed at once
      have htargets : job.targets states = [] := by rw [targets, hnil, List.filter_nil]
      rcases Prog.exec_bindThrowing_iff.mp h with ⟨b, l₁, hmark, hrest⟩ | ⟨e, hmark, -⟩
      swap
      · obtain ⟨⟨_, he⟩, -⟩ := markAsProcessed_told hmark
        cases he
      obtain ⟨-, new, rfl, hnew⟩ := markAsProcessed_told hmark
      obtain ⟨-, more, rfl, hmore⟩ := addMetric_told hrest
      have hall := hnew.append hmore
      refine ⟨?_, ?_, fun _ => ⟨_, hall.writeBacks, .processed ?_⟩, fun hleft => ?_⟩
      · rw [hall.deliveries, htargets]
        exact List.Perm.refl _
      · rw [hall.saved, htargets]
        exact List.Perm.refl _
      · rw [hnil]
        exact fun _ hmem => by cases hmem
      · exact absurd htargets hleft.1
  rcases Prog.exec_bindThrowing_iff.mp h with ⟨x, l₁, hcatch, h⟩ | ⟨e, hcatch, -⟩
  swap
  · rcases Prog.exec_catching hcatch with ⟨_, -, he⟩ | ⟨e', hcall, -⟩
    · cases he
    · cases (oracle_perform hcall).2
  rcases Prog.exec_catching hcatch with ⟨states', hcall, hx⟩ | ⟨e', hcall, -⟩
  swap
  · cases (oracle_perform hcall).2
  cases hx
  obtain ⟨rfl, -⟩ := oracle_perform hcall
  -- nothing throws: the states are read, the deliveries made, and the bookkeeping follows
  obtain rfl : states' = states := hread _ _ (mem_of_exec h List.mem_cons_self)
  have hfirst : WritesBack ([] ++ [⟨.getDeliveryStates job.message.id
      (job.subscriptions.map (·.id)), Except.ok states'⟩]) [] := writesBack_plain rfl
  have hdelivered : ∀ {x l₁},
      Prog.Exec (o.Exec job.pipeline.retryPolicy job.message)
        (job.pipeline.deliverToSubscriptionsAsync loop job.message job.subscriptions states').run _ x
        l₁ → _ :=
    fun hrun => deliverToSubscriptionsAsync_told hstarts hloop hfirst
      (hrun.mono fun _ _ _ _ hexec => ⟨hexec.1, hexec.2.delivers⟩)
  rcases Prog.exec_bindThrowing_iff.mp h with ⟨x, l₂, hdeliver, h⟩ | ⟨e, hdeliver, -⟩
  swap
  · rcases Prog.exec_catching hdeliver with ⟨_, -, he⟩ | ⟨e', hrun, -⟩
    · cases he
    · obtain ⟨_, _, hok, -⟩ := hdelivered hrun
      cases hok
  rcases Prog.exec_catching hdeliver with ⟨outcome, hrun, hx⟩ | ⟨e', hrun, -⟩
  swap
  · obtain ⟨_, _, hok, -⟩ := hdelivered hrun
    cases hok
  cases hx
  obtain ⟨_, results, hok, htold, htallied, hlast⟩ := hdelivered hrun
  cases hok
  exact bookkeepAsync_told htold htallied hlast h

end WriteBack

end Job

end OutboxNet
