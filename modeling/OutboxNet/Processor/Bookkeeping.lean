import OutboxNet.Processor.Conformance
import OutboxNet.Processor.Rehearsal

/-!
# What a failing round has recorded

A round run alone, with a log of its calls.  When it ends with `IncrementRetryAsync` or
`MarkAsDeadLetteredAsync`, the successes of its deliveries are stored, unless one of its deliveries
threw: then the loop over the subscriptions is abandoned with the attempts it had collected.
-/

set_option autoImplicit false

namespace OutboxNet

open AttemptStore (States getDeliveryStatesAsync)
open OutboxStore (WriteBack)

variable {dep : Deployment}

/-- Whether a call hands the message back as failed. -/
def Call.isFailure : Call → Bool
  | .incrementRetry _ _ _ _ => true
  | .markAsDeadLettered _ _ => true
  | _ => false

def Call.isDeliver : Call → Bool
  | .deliver _ _ _ => true
  | _ => false

/-- A delivery to subscription `s` returned success. -/
def SucceededIn (log : List Entry) (s : Guid) : Prop :=
  ∃ (message : OutboxMessage) (subscription : WebhookSubscription) (deliveryId : Guid)
    (r : DeliveryResult), (⟨.deliver message subscription deliveryId, .ok r⟩ : Entry) ∈ log ∧
      subscription.id = s ∧ r.success = true

/-- A delivery threw. -/
def ThrewIn (log : List Entry) : Prop :=
  ∃ (message : OutboxMessage) (subscription : WebhookSubscription) (deliveryId : Guid) (e : Exn),
    (⟨.deliver message subscription deliveryId, .error e⟩ : Entry) ∈ log

/-- Whether a call was a delivery to subscription `s` that returned success. -/
def Entry.succeeded (s : Guid) : Entry → Bool
  | ⟨.deliver _ subscription _, .ok r⟩ => decide (subscription.id = s) && r.success
  | _ => false

/-- Whether a call was a delivery that threw. -/
def Entry.isThrow : Entry → Bool
  | ⟨.deliver _ _ _, .error _⟩ => true
  | _ => false

theorem succeededIn_iff_any {log : List Entry} {s : Guid} :
    SucceededIn log s ↔ log.any (Entry.succeeded s) = true := by
  rw [List.any_eq_true]
  constructor
  · rintro ⟨message, subscription, deliveryId, r, hmem, rfl, hr⟩
    exact ⟨_, hmem, by simp [Entry.succeeded, hr]⟩
  · rintro ⟨entry, hmem, hsucceeded⟩
    unfold Entry.succeeded at hsucceeded
    split at hsucceeded
    · next subscription _ r =>
        rw [Bool.and_eq_true, decide_eq_true_eq] at hsucceeded
        exact ⟨_, subscription, _, r, hmem, hsucceeded⟩
    · cases hsucceeded

theorem threwIn_iff_any {log : List Entry} : ThrewIn log ↔ log.any Entry.isThrow = true := by
  rw [List.any_eq_true]
  constructor
  · rintro ⟨message, subscription, deliveryId, e, hmem⟩
    exact ⟨_, hmem, rfl⟩
  · rintro ⟨entry, hmem, hthrow⟩
    unfold Entry.isThrow at hthrow
    split at hthrow
    · exact ⟨_, _, _, _, hmem⟩
    · cases hthrow

instance (log : List Entry) (s : Guid) : Decidable (SucceededIn log s) :=
  decidable_of_iff _ succeededIn_iff_any.symm

instance (log : List Entry) : Decidable (ThrewIn log) :=
  decidable_of_iff _ threwIn_iff_any.symm

theorem mem_append_entry {log : List Entry} {c : Call} {a : c.Ans} (hc : c.isDeliver = false)
    {message : OutboxMessage} {subscription : WebhookSubscription} {deliveryId : Guid}
    {r : Except Exn DeliveryResult} :
    (⟨.deliver message subscription deliveryId, r⟩ : Entry) ∈ log ++ [⟨c, a⟩] ↔
      (⟨.deliver message subscription deliveryId, r⟩ : Entry) ∈ log := by
  simp only [List.mem_append, List.mem_singleton]
  refine ⟨fun h => h.elim id fun heq => ?_, .inl⟩
  cases heq
  cases hc

namespace Job

variable {job : Job} {attempts₀ : Attempts}

/-! ## Results and log -/

/-- The deliveries in the log are the results. -/
structure Delivered (job : Job) (states : States) (results : Results) (log : List Entry) : Prop where
  mem_log : ∀ i r, results i = some r → ∃ subscription, job.subscriptions[i]? = some subscription ∧
    attempted states subscription = true ∧
    (⟨.deliver job.message subscription (job.deliveryId states subscription), r⟩ : Entry) ∈ log
  of_mem : ∀ message subscription deliveryId r,
    (⟨.deliver message subscription deliveryId, r⟩ : Entry) ∈ log →
      ∃ i : ℕ, job.subscriptions[i]? = some subscription ∧ results i = some r

theorem Delivered.none {states : States} {log : List Entry}
    (h : ∀ e ∈ log, e.call.isDeliver = false) : job.Delivered states Results.none log where
  mem_log i r hi := by cases hi
  of_mem message subscription deliveryId r hmem := by cases h _ hmem

theorem Delivered.append {states : States} {results : Results} {log : List Entry} {c : Call}
    {a : c.Ans} (h : job.Delivered states results log) (hc : c.isDeliver = false) :
    job.Delivered states results (log ++ [⟨c, a⟩]) where
  mem_log i r hi := by
    obtain ⟨subscription, hsub, hatt, hmem⟩ := h.mem_log i r hi
    exact ⟨subscription, hsub, hatt, List.mem_append_left _ hmem⟩
  of_mem message subscription deliveryId r hmem :=
    h.of_mem message subscription deliveryId r ((mem_append_entry hc).mp hmem)

theorem Delivered.deliver {states : States} {results : Results} {log : List Entry} {i : ℕ}
    {subscription : WebhookSubscription} {r : Except Exn DeliveryResult}
    (h : job.Delivered states results log) (hsub : job.subscriptions[i]? = some subscription)
    (hi : results i = Option.none) (hatt : attempted states subscription = true) :
    job.Delivered states (Function.update results i (some r))
      (log ++ [⟨.deliver job.message subscription (job.deliveryId states subscription), r⟩]) where
  mem_log j r' hj := by
    by_cases heq : j = i
    · subst heq
      rw [Function.update_self] at hj
      cases hj
      exact ⟨subscription, hsub, hatt, List.mem_append_right _ List.mem_cons_self⟩
    · rw [Function.update_of_ne heq] at hj
      obtain ⟨subscription', hsub', hatt', hmem⟩ := h.mem_log j r' hj
      exact ⟨subscription', hsub', hatt', List.mem_append_left _ hmem⟩
  of_mem message subscription' deliveryId r' hmem := by
    rcases List.mem_append.mp hmem with hmem | hmem
    · obtain ⟨j, hsub', hj⟩ := h.of_mem _ _ _ _ hmem
      refine ⟨j, hsub', ?_⟩
      rw [Function.update_of_ne]
      · exact hj
      · rintro rfl
        rw [hi] at hj
        cases hj
    · cases List.mem_singleton.mp hmem
      exact ⟨i, hsub, Function.update_self ..⟩

/-! ## The invariant of a round -/

/-- The successes in the log are stored exactly if no delivery threw or there is none. -/
def Exact (job : Job) (x : Session) : Prop :=
  (∀ s, SucceededIn x.log s → AttemptStore.hasSuccess job.message.id s x.db.attempts = true) ↔
    (¬ ThrewIn x.log ∨ ∀ s, ¬ SucceededIn x.log s)

/-- No call so far hands the message back as failed. -/
def NoFailure (log : List Entry) : Prop := ∀ e ∈ log, e.call.isFailure = false

/-- What holds of a round in its stage, when it found the attempts `attempts₀`. -/
def Books (job : Job) (attempts₀ : Attempts) (s : Stage) (x : Session) : Prop :=
  match s with
  | .start => x.db.attempts = attempts₀ ∧ (∀ e ∈ x.log, e.call.isDeliver = false) ∧ NoFailure x.log
  | .delivering states results => x.db.attempts = attempts₀ ∧
      states = getDeliveryStatesAsync job.message.id (job.subscriptions.map (·.id)) attempts₀ ∧
      job.Delivered states results x.log ∧ NoFailure x.log
  | .settled states results saved => job.Complete states results ∧
      job.Delivered states results x.log ∧ NoFailure x.log ∧
      if saved then ∀ s, SucceededIn x.log s →
        AttemptStore.hasSuccess job.message.id s x.db.attempts = true
      else job.count states results .succeeded = 0
  | .failing _ _ => job.Exact x ∧ NoFailure x.log
  | .closed => job.Exact x ∨ NoFailure x.log

theorem NoFailure.append {log : List Entry} {c : Call} {a : c.Ans} (h : NoFailure log)
    (hc : c.isFailure = false) : NoFailure (log ++ [⟨c, a⟩]) := by
  intro e he
  rcases List.mem_append.mp he with he | he
  · exact h e he
  · rw [List.mem_singleton.mp he]
    exact hc

theorem succeededIn_append {log : List Entry} {c : Call} {a : c.Ans} (hc : c.isDeliver = false)
    {s : Guid} : SucceededIn (log ++ [⟨c, a⟩]) s ↔ SucceededIn log s := by
  simp only [SucceededIn, mem_append_entry hc]

theorem threwIn_append {log : List Entry} {c : Call} {a : c.Ans} (hc : c.isDeliver = false) :
    ThrewIn (log ++ [⟨c, a⟩]) ↔ ThrewIn log := by
  simp only [ThrewIn, mem_append_entry hc]

theorem Exact.append {x x' : Session} {c : Call} {a : c.Ans} (h : job.Exact x)
    (hc : c.isDeliver = false) (hlog : x'.log = x.log ++ [⟨c, a⟩])
    (hattempts : x'.db.attempts = x.db.attempts) : job.Exact x' := by
  simpa only [Exact, hlog, hattempts, succeededIn_append hc, threwIn_append hc] using h

/-- Without a delivery there is nothing to record. -/
theorem Exact.of_no_deliver {x : Session} (h : ∀ e ∈ x.log, e.call.isDeliver = false) :
    job.Exact x := by
  have hnone : ∀ s, ¬ SucceededIn x.log s := by
    rintro s ⟨_, _, _, _, hmem, -⟩
    cases h _ hmem
  exact iff_of_true (fun s hs => absurd hs (hnone s)) (.inr hnone)

/-- A settled round has recorded its successes, or has none. -/
theorem Exact.of_settled {x : Session} {states : States} {results : Results} {saved : Bool}
    (h : job.Books attempts₀ (.settled states results saved) x) : job.Exact x := by
  obtain ⟨hcomplete, hdelivered, -, hsaved⟩ := h
  -- a delivery that threw would have left its position without a verdict
  have hthrew : ¬ ThrewIn x.log := by
    rintro ⟨message, subscription, deliveryId, e, hmem⟩
    obtain ⟨i, hsub, hi⟩ := hdelivered.of_mem _ _ _ _ hmem
    obtain ⟨subscription', hsub', hatt, -⟩ := hdelivered.mem_log i _ hi
    obtain ⟨hno, hle⟩ := attempted_iff.mp hatt
    have hsome := hcomplete i (List.getElem?_eq_some_iff.mp hsub').1
    rw [verdictAt_eq hsub', hi] at hsome
    simp [verdict, hno, not_lt.mpr hle] at hsome
  refine iff_of_true ?_ (.inl hthrew)
  cases saved with
  | true => exact hsaved
  | false =>
      rintro s ⟨message, subscription, deliveryId, r, hmem, -, hr⟩
      obtain ⟨i, hsub, hi⟩ := hdelivered.of_mem _ _ _ _ hmem
      obtain ⟨subscription', hsub', hatt, -⟩ := hdelivered.mem_log i _ hi
      have hlt := (List.getElem?_eq_some_iff.mp hsub').1
      have hverdict := verdict_of_attempted hatt r
      rw [if_pos hr] at hverdict
      refine absurd ?_ (count_eq_zero_iff.mp hsaved i hlt)
      rw [verdictAt_eq hsub', hi]
      exact hverdict

/-- A round that abandons its deliveries has recorded nothing. -/
theorem Exact.of_faulted {x : Session} {states : States} {results : Results}
    (h : job.Books attempts₀ (.delivering states results) x) (hfault : job.Faulted results) :
    job.Exact x := by
  obtain ⟨hattempts, hstates, hdelivered, -⟩ := h
  rcases hfault with ⟨i, e, hi⟩ | ⟨-, hnone⟩
  · obtain ⟨subscription, hsub, -, hmem⟩ := hdelivered.mem_log i _ hi
    have hthrew : ThrewIn x.log := ⟨_, _, _, e, hmem⟩
    constructor
    · -- a success of this round is not in the table, since it was attempted
      rintro hstored
      refine .inr fun s hs => ?_
      have hs' := hstored s hs
      obtain ⟨message, subscription', deliveryId, r, hmem', rfl, -⟩ := hs
      obtain ⟨j, hsub', hj⟩ := hdelivered.of_mem _ _ _ _ hmem'
      obtain ⟨subscription'', hsub'', hatt, -⟩ := hdelivered.mem_log j _ hj
      rw [hsub'] at hsub''
      cases hsub''
      have hno := (attempted_iff.mp hatt).1
      rw [hstates, Pipeline.hasSuccess_getDeliveryStatesAsync
        (List.mem_map_of_mem (List.mem_of_getElem? hsub')), ← hattempts, hs'] at hno
      cases hno
    · rintro (hno | hnone)
      · exact absurd hthrew hno
      · exact fun s hs => absurd hs (hnone s)
  · refine Exact.of_no_deliver fun e he => ?_
    obtain ⟨c, a⟩ := e
    cases c with
    | deliver message subscription deliveryId =>
        obtain ⟨i, -, hi⟩ := hdelivered.of_mem _ _ _ _ he
        rw [hnone] at hi
        cases hi
    | _ => rfl

/-- Calls that neither deliver nor save nor hand the message back keep the books. -/
theorem Books.neutral {x x' : Session} {s : Stage} {c : Call} {a : c.Ans}
    (h : job.Books attempts₀ s x) (hdeliver : c.isDeliver = false) (hfailure : c.isFailure = false)
    (hlog : x'.log = x.log ++ [⟨c, a⟩]) (hattempts : x'.db.attempts = x.db.attempts) :
    job.Books attempts₀ s x' := by
  have hfail : NoFailure x.log → NoFailure x'.log := fun h => hlog ▸ h.append hfailure
  cases s with
  | start =>
      refine ⟨hattempts.trans h.1, fun e he => ?_, hfail h.2.2⟩
      rw [hlog] at he
      rcases List.mem_append.mp he with he | he
      · exact h.2.1 e he
      · rw [List.mem_singleton.mp he]
        exact hdeliver
  | delivering states results =>
      exact ⟨hattempts.trans h.1, h.2.1, hlog ▸ h.2.2.1.append hdeliver, hfail h.2.2.2⟩
  | settled states results saved =>
      refine ⟨h.1, hlog ▸ h.2.1.append hdeliver, hfail h.2.2.1, ?_⟩
      have hsaved := h.2.2.2
      cases saved with
      | true =>
          intro s hs
          rw [hlog, succeededIn_append hdeliver] at hs
          rw [hattempts]
          exact hsaved s hs
      | false => exact hsaved
  | failing draw utcNow => exact ⟨h.1.append hdeliver hlog hattempts, hfail h.2⟩
  | closed => exact h.imp (fun h => h.append hdeliver hlog hattempts) hfail

/-- The step lemma. -/
theorem Books.trans {x x' : Session} {s s' : Stage} {c : Call} {a : c.Ans}
    (h : job.Books attempts₀ s x) (htrans : job.Trans c s a s') (hexec : Session.Exec dep c x a x') :
    job.Books attempts₀ s' x' := by
  obtain ⟨hdb, hlog⟩ := hexec
  -- a write-back leaves the attempts alone
  have hsame : (∀ attempts, c ≠ .saveAttempts attempts) → x'.db.attempts = x.db.attempts := by
    intro hne
    rcases hdb.change.attempts with heq | ⟨newAttempts, _, hc, -⟩
    · exact heq
    · exact absurd hc (hne newAttempts)
  induction htrans with
  | metric => exact h.neutral rfl rfl hlog (hsame nofun)
  | attemptTime => exact h.neutral rfl rfl hlog (hsame nofun)
  | noSubscriptions => exact .inr (hlog ▸ h.2.2.append rfl)
  | read =>
      refine ⟨(hsame nofun).trans h.1, ?_, ?_, hlog ▸ h.2.2.append rfl⟩
      · rw [← h.1]
        exact hdb.read.1
      · exact hlog ▸ (Delivered.none h.2.1).append rfl
  | readThrew =>
      have hbefore : job.Exact x := Exact.of_no_deliver h.2.1
      have hexact : job.Exact x' := hbefore.append rfl hlog (hsame nofun)
      split
      · exact .inl hexact
      · exact ⟨hexact, hlog ▸ h.2.2.append rfl⟩
  | deliver hsub hi hatt =>
      exact ⟨(hsame nofun).trans h.1, h.2.1, hlog ▸ h.2.2.1.deliver hsub hi hatt,
        hlog ▸ h.2.2.2.append rfl⟩
  | save hcomplete hperm _ =>
      refine ⟨hcomplete, hlog ▸ h.2.2.1.append rfl, hlog ▸ h.2.2.2.append rfl, ?_⟩
      intro s hs
      obtain ⟨message, subscription, deliveryId, r, hmem, rfl, hr⟩ :=
        (succeededIn_append rfl).mp (hlog ▸ hs)
      obtain ⟨i, hsub, hi⟩ := h.2.2.1.of_mem _ _ _ _ hmem
      obtain ⟨defaults, stored, hsave, hdb'⟩ := hdb.saved
      have hmem' := hperm.mem_iff.mpr (mem_newAttempts.mpr ⟨i, subscription, r, hsub, hi, rfl⟩)
      rw [hdb']
      refine (AttemptStore.hasSuccess_saveAttemptsAsync hsave _ _).mpr (.inr ⟨_, hmem', rfl, rfl, ?_⟩)
      simp [Pipeline.deliveryAttempt, hr]
  | saveThrew hcomplete _ _ =>
      unfold afterFailedSave
      split
      · exact .inr (hlog ▸ h.2.2.2.append rfl)
      · next hno =>
          refine ⟨hcomplete, hlog ▸ h.2.2.1.append rfl, hlog ▸ h.2.2.2.append rfl, ?_⟩
          have hzero := mt Or.inr hno
          simpa using hzero
  | @nothingToSave c states results a s' hcomplete hnone _ ih =>
      refine ih ⟨hcomplete, h.2.2.1, h.2.2.2, ?_⟩ hdb hlog hsame
      rintro s ⟨message, subscription, deliveryId, r, hmem, -, -⟩
      obtain ⟨i, hsub, hi⟩ := h.2.2.1.of_mem _ _ _ _ hmem
      exact absurd hi (hnone i (List.getElem?_eq_some_iff.mp hsub).1 r)
  | faulted hfault _ ih => exact ih ⟨Exact.of_faulted h hfault, h.2.2.2⟩ hdb hlog hsame
  | retry _ _ ih => exact ih ⟨Exact.of_settled h, h.2.2.1⟩ hdb hlog hsame
  | processed => exact .inr (hlog ▸ h.2.2.1.append rfl)
  | deadLetter => exact .inl ((Exact.of_settled h).append rfl hlog (hsame nofun))
  | draw => exact Books.neutral (s := .failing none none) h rfl rfl hlog (hsame nofun)
  | clock => exact Books.neutral (s := .failing _ none) h rfl rfl hlog (hsame nofun)
  | incrementRetry => exact .inl (h.1.append rfl hlog (hsame nofun))
  | giveUp => exact .inl (h.1.append rfl hlog (hsame nofun))

/-- The run lemma. -/
theorem books_run {loop : LoopSchedule} {db : Database} {r : Except Exn Unit} {x : Session}
    (hrun : Prog.Exec (Session.Exec dep) (job.pipeline.processSingleMessageAsync loop job.message
      job.lockedBy job.subscriptions).run ⟨db, []⟩ r x) :
    ∃ s, job.Finished loop r s ∧ job.Books db.attempts s x := by
  have hstart : job.Books db.attempts .start ⟨db, []⟩ :=
    ⟨rfl, List.forall_mem_nil _, List.forall_mem_nil _⟩
  refine Prog.Conforms.exec (J := job.Books db.attempts) ?_
    (processSingleMessageAsync_conforms job loop) hrun hstart
  exact fun _ _ _ _ _ _ h htrans hexec => Books.trans h htrans hexec

end Job

/-- **What a failing round has recorded.** Take a round run alone, with any faults of the database, any
schedule and any answers of the deliverer, that ends with `IncrementRetryAsync` or
`MarkAsDeadLetteredAsync`.  The subscriptions for which a delivery returned success all have a stored
success if and only if no delivery of the round threw or none returned success. -/
theorem failed_round_records_successes (p : Pipeline) (loop : LoopSchedule) (message : OutboxMessage)
    (lockedBy : Text) (subscriptions : List WebhookSubscription) {db : Database} {x : Session}
    {r : Except Exn Unit}
    (hrun : Prog.Exec (Session.Exec dep)
      (p.processSingleMessageAsync loop message lockedBy subscriptions).run ⟨db, []⟩ r x)
    (hend : ∃ e ∈ x.log, e.call.isFailure = true) :
    (∀ s, SucceededIn x.log s → AttemptStore.hasSuccess message.id s x.db.attempts = true) ↔
      (¬ ThrewIn x.log ∨ ∀ s, ¬ SucceededIn x.log s) := by
  let job : Job := ⟨p, message, lockedBy, subscriptions⟩
  obtain ⟨s, hfinished, hbooks⟩ : ∃ s, job.Finished loop r s ∧ job.Books db.attempts s x :=
    Job.books_run hrun
  obtain ⟨e, he, hfailure⟩ := hend
  have hsome : ¬ Job.NoFailure x.log := fun h => by
    rw [h e he] at hfailure
    cases hfailure
  cases hfinished with
  | closed => exact hbooks.resolve_right hsome
  | policyThrew _ hthrew => cases hthrew <;> exact absurd hbooks.2 hsome
  | loopThrew => exact absurd hbooks.2.2.2 hsome

/-! ## A success that is forgotten -/

/-- A pipeline with a retry policy of five seconds. -/
def fixedDelayPipeline : Pipeline where
  options := { instanceId := text "worker-1" }
  retryPolicy := ⟨fun _ _ => .ok (some (5 * ticksPerSecond))⟩
  sha256 := Hash.sparse

/-- The row of a message it has locked. -/
def invoiceRow : OutboxMessage :=
  OutboxStore.lockRow (text "worker-1") 3000000000
    (OutboxStore.directRow 0 ⟨1, text "invoice.paid", [], none, none, none, none, none, none⟩)

/-- A subscription to the message. -/
def invoiceSubscription (id : Guid) (secret : Option Text) : WebhookSubscription :=
  ⟨id, none, text "invoice.paid", text "https://example.org/hook", secret, true, 3,
    30 * ticksPerSecond, none⟩

/-- The exception of a deliverer that has stopped calling an endpoint. -/
def brokenCircuit : Exn := ⟨false, text "The circuit is now open and is not allowing calls."⟩

/-- A round of the message for the subscriptions 7 and 8. -/
def invoiceRound : Prog Call Call.Ans (Except Exn Unit) :=
  (fixedDelayPipeline.processSingleMessageAsync ⟨false, []⟩ invoiceRow (text "worker-1")
    [invoiceSubscription 7 (some (text "secret")), invoiceSubscription 8 (some (text "secret"))]).run

/-- The message is locked, and nothing has been delivered. -/
def invoiceLocked : Session := ⟨⟨⟨[invoiceRow], by simp⟩, Table.empty, 0⟩, []⟩

/-- A delivery to the first subscription succeeds, that to the second throws, and the round ends with
`IncrementRetryAsync`. -/
def abandoned : Session :=
  Session.reached (Deployment.binary .directSql) (fun _ _ _ => true) invoiceRound
    [.done, .returned (.ok ⟨true, some 200, none, none, 5⟩), .time 50000000,
      .returned (.error brokenCircuit), .drew 0, .time 60000000, .done, .done] invoiceLocked

/-- The delivery to the second subscription returns a failure instead. -/
def halfFailed : Session :=
  Session.reached (Deployment.binary .directSql) (fun _ _ _ => true) invoiceRound
    [.done, .returned (.ok ⟨true, some 200, none, none, 5⟩), .time 50000000,
      .returned (.ok ⟨false, some 500, none, some (text "HTTP 500"), 5⟩), .time 55000000, .done,
      .drew 0, .time 60000000, .done, .done] invoiceLocked

theorem abandoned_run : Prog.Exec (Session.Exec (Deployment.binary .directSql)) invoiceRound invoiceLocked
    (.ok ()) abandoned :=
  Session.exec_of_rehearsal (fun _ _ _ _ h _ => h) (by decide +kernel)

theorem halfFailed_run : Prog.Exec (Session.Exec (Deployment.binary .directSql)) invoiceRound
    invoiceLocked (.ok ()) halfFailed :=
  Session.exec_of_rehearsal (fun _ _ _ _ h _ => h) (by decide +kernel)

/-- A round that calls the failure handler has then not recorded all its successes. -/
theorem success_forgotten : Prog.Exec (Session.Exec (Deployment.binary .directSql)) invoiceRound
      invoiceLocked (.ok ()) abandoned ∧
    (∃ e ∈ abandoned.log, e.call.isFailure = true) ∧
    ¬ (∀ s, SucceededIn abandoned.log s →
      AttemptStore.hasSuccess invoiceRow.id s abandoned.db.attempts = true) := by
  refine ⟨abandoned_run, by decide +kernel, fun h => ?_⟩
  have hsucceeded : SucceededIn abandoned.log 7 := by decide +kernel
  have hforgotten : AttemptStore.hasSuccess invoiceRow.id 7 abandoned.db.attempts = false := by
    decide +kernel
  rw [h 7 hsucceeded] at hforgotten
  cases hforgotten

/-- The condition in these rounds: the other delivery threw, or it returned and the success of the first is
stored. -/
theorem failed_round_records_successes_abandoned :
    ((∀ s, SucceededIn abandoned.log s →
        AttemptStore.hasSuccess invoiceRow.id s abandoned.db.attempts = true) ↔
      (¬ ThrewIn abandoned.log ∨ ∀ s, ¬ SucceededIn abandoned.log s)) ∧
    ThrewIn abandoned.log ∧ SucceededIn abandoned.log 7 ∧
    (∀ s, SucceededIn halfFailed.log s →
      AttemptStore.hasSuccess invoiceRow.id s halfFailed.db.attempts = true) ∧
    SucceededIn halfFailed.log 7 :=
  ⟨failed_round_records_successes _ _ _ _ _ abandoned_run (by decide +kernel), by decide +kernel,
    by decide +kernel,
    (failed_round_records_successes _ _ _ _ _ halfFailed_run (by decide +kernel)).mpr
      (.inl (by decide +kernel)), by decide +kernel⟩

end OutboxNet
