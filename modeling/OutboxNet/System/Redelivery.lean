import OutboxNet.System.Recorded

/-!
# A recorded success is not delivered again

A round that reads the states of its message after a success was stored for a subscription does not
deliver to that subscription, and counts it as succeeded: its write-back is the one that its verdicts
prescribe, and the verdict on that subscription is a success.
-/

set_option autoImplicit false

namespace OutboxNet

open AttemptStore (States)

variable {dep : Deployment}

/-! ## The decision of a round -/

namespace Job

/-- A round whose message is handed to the retry policy. -/
def Failing (job : Job) (states : States) (results : Results) : Prop :=
  0 < job.count states results .failed ∨ job.Faulted results

/-- The write-backs that the verdicts of a round prescribe. -/
inductive Decision (job : Job) (states : States) (results : Results) : Call → Prop
  | processed :
      (∀ i < job.subscriptions.length, job.verdictAt states results i = some .succeeded) →
      Decision job states results (.markAsProcessed job.message.id job.lockedBy)
  | deadLetter :
      job.count states results .failed = 0 → 0 < job.count states results .exhausted →
      Decision job states results (.markAsDeadLettered job.message.id job.lockedBy)
  | retry {nextRetryAt : DateTimeOffset} {error : Option Text} :
      job.Failing states results →
      Decision job states results (.incrementRetry job.message.id job.lockedBy nextRetryAt error)
  | giveUp :
      job.Failing states results →
      Decision job states results (.markAsDeadLettered job.message.id job.lockedBy)

end Job

namespace World

/-! ## A round after its read -/

/-- The stage of a round whose read of the states was answered with `read`. -/
def AfterRead (w : World) (token : ℕ) (job : Job) (read : Except Exn States) : Stage → Prop
  | .start => False
  | .delivering states results => read = .ok states ∧ w.Logged token job states results
  | .settled states results _ => read = .ok states ∧ w.Logged token job states results
  | .failing _ _ => ∀ states, read = .ok states →
      ∃ results, w.Logged token job states results ∧ job.Failing states results
  | .closed => True

namespace AfterRead

variable {w w' : World} {token : ℕ} {job : Job} {read : Except Exn States}

theorem mono {s : Stage} (h : w.AfterRead token job read s) (hk : ∀ x ∈ w.log, x ∈ w'.log) :
    w'.AfterRead token job read s := by
  cases s with
  | start => exact h
  | delivering states results => exact ⟨h.1, h.2.mono hk⟩
  | settled states results saved => exact ⟨h.1, h.2.mono hk⟩
  | failing draw utcNow =>
      intro states hread
      obtain ⟨results, hlogged, hfailing⟩ := h states hread
      exact ⟨results, hlogged.mono hk, hfailing⟩
  | closed => trivial

/-- A failing round remembers the results it fails for. -/
theorem failing {states : States} {results : Results} (hread : read = .ok states)
    (hlogged : w.Logged token job states results) (hfailing : job.Failing states results) :
    w.AfterRead token job read (.failing none none) := by
  intro states' hread'
  rw [hread] at hread'
  cases hread'
  exact ⟨results, hlogged, hfailing⟩

variable {c : Call} {s s' : Stage} {a : c.Ans}

/-- The step lemma. -/
theorem trans (htrans : job.Trans c s a s') (h : w.AfterRead token job read s)
    (hlog : w'.log = w.log ++ [(token, ⟨c, a⟩)]) : w'.AfterRead token job read s' := by
  have hk : ∀ x ∈ w.log, x ∈ w'.log := fun x hx => hlog ▸ List.mem_append_left _ hx
  induction htrans with
  | metric => exact h.mono hk
  | attemptTime => exact h.mono hk
  | noSubscriptions => exact h.elim
  | read => exact h.elim
  | readThrew => exact h.elim
  | deliver hsub _ _ => exact ⟨h.1, h.2.update hsub hlog⟩
  | save => exact ⟨h.1, h.2.mono hk⟩
  | saveThrew =>
      unfold Job.afterFailedSave
      split
      · trivial
      · exact ⟨h.1, h.2.mono hk⟩
  | nothingToSave _ _ _ ih => exact ih h hlog
  | faulted hfault _ ih => exact ih (failing h.1 h.2 (.inr hfault)) hlog
  | retry hfailed _ ih => exact ih (failing h.1 h.2 (.inl hfailed)) hlog
  | draw => exact mono (s := .failing none none) h hk
  | clock => exact mono (s := .failing _ none) h hk
  | processed => trivial
  | deadLetter => trivial
  | incrementRetry => trivial
  | giveUp => trivial

/-- A round delivers to its subscriptions that the states it read leave to attempt. -/
theorem deliver (htrans : job.Trans c s a s') (h : w.AfterRead token job read s)
    {message : OutboxMessage} {subscription : WebhookSubscription} {deliveryId : Guid}
    (hc : c = .deliver message subscription deliveryId) :
    ∃ states, read = .ok states ∧ subscription ∈ job.subscriptions ∧
      Job.attempted states subscription = true := by
  induction htrans with
  | deliver hsub _ hatt =>
      cases hc
      exact ⟨_, h.1, List.mem_of_getElem? hsub, hatt⟩
  | nothingToSave _ _ _ ih => exact ih h hc
  | faulted hfault _ ih => exact ih (failing h.1 h.2 (.inr hfault)) hc
  | retry hfailed _ ih => exact ih (failing h.1 h.2 (.inl hfailed)) hc
  | _ => cases hc

/-- The write-back of a round is the one that its verdicts prescribe. -/
theorem decision (htrans : job.Trans c s a s') (h : w.AfterRead token job read s)
    {states : States} (hread : read = .ok states) (hc : c.writeBack?.isSome = true) :
    ∃ results, w.Logged token job states results ∧ job.Decision states results c := by
  induction htrans with
  | noSubscriptions => exact h.elim
  | nothingToSave _ _ _ ih => exact ih h hc
  | faulted hfault _ ih => exact ih (failing h.1 h.2 (.inr hfault)) hc
  | retry hfailed _ ih => exact ih (failing h.1 h.2 (.inl hfailed)) hc
  | processed hall =>
      obtain rfl := Except.ok.inj (h.1.symm.trans hread)
      exact ⟨_, h.2, .processed hall⟩
  | deadLetter hfailed hexhausted =>
      obtain rfl := Except.ok.inj (h.1.symm.trans hread)
      exact ⟨_, h.2, .deadLetter hfailed hexhausted⟩
  | incrementRetry =>
      obtain ⟨results, hlogged, hfailing⟩ := h states hread
      exact ⟨results, hlogged, .retry hfailing⟩
  | giveUp =>
      obtain ⟨results, hlogged, hfailing⟩ := h states hread
      exact ⟨results, hlogged, .giveUp hfailing⟩
  | _ => cases hc

end AfterRead

/-! ## What attempts refer to -/

/-- A step other than a purge of messages removes no row. -/
theorem Step.find?_isSome {exec : Answering} (hexec : Sound dep exec) {w w' : World} {act : Action}
    (h : Step dep exec w act w') (hact : act ≠ .purgeMessages) {k : Guid}
    (hk : (w.db.messages.find? k).isSome = true) : (w'.db.messages.find? k).isSome = true := by
  have hrow := h.row hexec k
  generalize w.db.messages.find? k = o at hrow hk
  generalize w'.db.messages.find? k = o' at hrow
  cases hrow with
  | same => exact hk
  | purge hpurge => exact absurd hpurge hact
  | _ => rfl

/-- Every stored attempt belongs to a row of the message table and to the message of a round. -/
def Referenced (w : World) : Prop :=
  ∀ a ∈ w.db.attempts.rows, (w.db.messages.find? a.outboxMessageId).isSome = true ∧
    ∃ (token : ℕ) (r : Round), w.rounds[token]? = some r ∧ r.message.id = a.outboxMessageId

theorem Referenced.initial (now : DateTimeOffset) : (initial now).Referenced :=
  List.forall_mem_nil _

theorem Referenced.step {w w' : World} {stages stages' : ℕ → Stage} {act : Action}
    (h : w.Referenced) (hs : Step dep (Database.Exec dep) w act w')
    (hst : StageStep w stages act stages') : w'.Referenced := by
  -- an attempt that was there before, its message still there
  have hold : ∀ a ∈ w.db.attempts.rows, (w'.db.messages.find? a.outboxMessageId).isSome = true →
      (w'.db.messages.find? a.outboxMessageId).isSome = true ∧
        ∃ (token : ℕ) (r : Round), w'.rounds[token]? = some r ∧ r.message.id = a.outboxMessageId := by
    intro a ha halive
    obtain ⟨-, token, r, hr, hid⟩ := h a ha
    obtain ⟨r', hr', -, hm, -⟩ := hs.round hr
    exact ⟨halive, token, r', hr', by rw [hm, hid]⟩
  intro a ha
  have hsame : w'.db.attempts = w.db.attempts → act ≠ .purgeMessages → _ := fun heq hact =>
    have ha' : a ∈ w.db.attempts.rows := heq ▸ ha
    hold a ha' (hs.find?_isSome sound_exec hact (h a ha').1)
  cases hs with
  | tick => exact hsame rfl nofun
  | publish => exact hsame rfl nofun
  | acquireHot => exact hsame rfl nofun
  | acquireCold => exact hsame rfl nofun
  | begin_ => exact hsame rfl nofun
  | @call token r work c k answer db hr hwork hprog hexec =>
      have hs : Step dep (Database.Exec dep) w (.call token ⟨c, answer⟩) _ :=
        .call hr hwork hprog hexec
      rcases hexec.change.attempts with heq | ⟨newAttempts, defaults, hc, hsave⟩
      · exact hsame heq nofun
      · rcases AttemptStore.mem_saveAttemptsAsync hsave ha with ha' | ⟨j, x, hx, rfl⟩
        · exact hold a ha' (hs.find?_isSome sound_exec nofun (h a ha').1)
        · have hkey := AttemptStore.saveAttemptsAsync_foreignKey hsave hx
          refine ⟨hs.find?_isSome sound_exec nofun hkey, ?_⟩
          obtain ⟨r₀, _, _, _, states, results, utcNow, hr₀, -, -, hperm⟩ := hst.saved hc
          obtain ⟨i, subscription, res, -, -, rfl⟩ := Job.mem_newAttempts.mp (hperm.mem_iff.mp hx)
          obtain ⟨r', hr', -, hm, -⟩ := hs.round hr₀
          exact ⟨token, r', hr', congrArg OutboxMessage.id hm⟩
  | releaseExpiredLocks => exact hsame rfl nofun
  | purgeMessages =>
      obtain ⟨ha', halive⟩ := AttemptStore.mem_cascade.mp ha
      exact hold a ha' halive
  | purgeAttempts olderThan =>
      have ha' := (Table.mem_delete.mp ha).1
      exact hold a ha' (h a ha').1

theorem referenced_run {now : DateTimeOffset} {acts : List Action} {w : World}
    (hrun : Run dep (Database.Exec dep) (initial now) acts w) : w.Referenced := by
  obtain ⟨stages, -, h⟩ := run_invariant (fun w _ => w.Referenced) (fun _ => True)
    (fun w stages act w' stages' _ _ h hs _ hst => h.step hs hst) hrun (fun _ _ => trivial)
    ⟨fun _ => .start, Coupled.initial now _, Referenced.initial now⟩
  exact h

/-! ## The theorem -/

/-- A success that was stored for the message of a round is there or the message has been purged. -/
theorem hasSuccess_run {w w' : World} {acts : List Action} {k s : Guid}
    (hrun : Run dep (Database.Exec dep) w acts w') (hpurge : ∀ act ∈ acts, act ≠ .purgeAttempts)
    {token : ℕ} {r : Round} (hr : w.rounds[token]? = some r) (hid : r.message.id = k)
    (hs : AttemptStore.hasSuccess k s w.db.attempts = true)
    (halive : (w'.db.messages.find? k).isSome = true) :
    AttemptStore.hasSuccess k s w'.db.attempts = true := by
  have h := hrun.invariant_of (fun w => (∃ r, w.rounds[token]? = some r ∧ r.message.id = k) ∧
    ((w.db.messages.find? k).isSome = true → AttemptStore.hasSuccess k s w.db.attempts = true))
    (· ≠ .purgeAttempts) ?_ hpurge ⟨⟨r, hr, hid⟩, fun _ => hs⟩
  · exact h.2 halive
  · rintro w act w' hact ⟨⟨r, hr, rfl⟩, hstored⟩ hstep
    obtain ⟨r', hr', -, hm, -⟩ := hstep.round hr
    have hk := hstep.keeps sound_exec hact hr
    exact ⟨⟨r', hr', by rw [hm]⟩, fun halive => hk.stored halive s (hstored (hk.alive halive))⟩

/-- The stage of a round keeps up with its read. -/
theorem afterRead_run {w w' : World} {acts : List Action} {stages : ℕ → Stage} {token : ℕ}
    {r : Round} {subscriptions : List WebhookSubscription} {loop : LoopSchedule}
    {prog : Prog Call Call.Ans (Except Exn Unit)} {read : Except Exn States}
    (hrun : Run dep (Database.Exec dep) w acts w') (hcoupled : Coupled w stages)
    (hr : w.rounds[token]? = some r) (hwork : r.work = some ⟨.direct subscriptions loop, prog⟩)
    (hread : w.AfterRead token (r.job subscriptions) read (stages token)) :
    ∃ stages' r' prog', Coupled w' stages' ∧ w'.rounds[token]? = some r' ∧
      r'.work = some ⟨.direct subscriptions loop, prog'⟩ ∧
      r'.job subscriptions = r.job subscriptions ∧
      w'.AfterRead token (r.job subscriptions) read (stages' token) := by
  have h := run_invariant (fun w stages => ∃ r' prog', w.rounds[token]? = some r' ∧
      r'.work = some ⟨.direct subscriptions loop, prog'⟩ ∧
      r'.job subscriptions = r.job subscriptions ∧
      w.AfterRead token (r.job subscriptions) read (stages token)) (fun _ => True) ?_ hrun
    (fun _ _ => trivial) ⟨stages, hcoupled, r, prog, hr, hwork, rfl, hread⟩
  · obtain ⟨stages', hc', r', prog', h⟩ := h
    exact ⟨stages', r', prog', hc', h⟩
  rintro w stages act w' stages' - - ⟨r₁, prog₁, hr₁, hwork₁, hjob, hread⟩ hs - hst
  obtain ⟨r₂, prog₂, hr₂, hwork₂, -, hjob₂⟩ := hs.direct_round hr₁ hwork₁
  refine ⟨r₂, prog₂, hr₂, hwork₂, hjob₂.trans hjob, ?_⟩
  by_cases hact : act.token? = some token
  · obtain ⟨entry, s', rfl, htrans, rfl⟩ := hst.of_acting hs hr₁ hwork₁ hact
    rw [hjob] at htrans
    rw [Function.update_self]
    exact hread.trans htrans hs.called.2
  · rw [hst.other_stage hact]
    exact hread.mono fun x hx => hs.log_mono hx

/-- **A recorded success is not delivered again.** Take any run with any faults in which message `k` has
a stored success for subscription `s`, and go on in any way without a purge of attempts.  A round that
then reads the states of `k`, if the message has not been purged meanwhile, never makes a delivery to
`s`; and once it has the states, its write-back is the one prescribed by its verdicts, among which that
on `s` is a success. -/
theorem recorded_success_not_redelivered {now : DateTimeOffset} {acts₁ acts₂ acts₃ : List Action}
    {w₁ w₂ w₃ w₄ w₅ : World} {k s : Guid} {token : ℕ} {subscriptionIds : List Guid}
    {read : Except Exn States} {entry : Entry} {a : DeliveryAttempt}
    (hrun₁ : Run dep (Database.Exec dep) (initial now) acts₁ w₁) (ha : a ∈ w₁.db.attempts.rows)
    (hmessage : a.outboxMessageId = k) (hsubscription : a.webhookSubscriptionId = s)
    (hstatus : a.status = .success) (hrun₂ : Run dep (Database.Exec dep) w₁ acts₂ w₂)
    (hpurge : ∀ act ∈ acts₂, act ≠ .purgeAttempts)
    (hread : Step dep (Database.Exec dep) w₂ (.call token ⟨.getDeliveryStates k subscriptionIds, read⟩)
      w₃) (hrun₃ : Run dep (Database.Exec dep) w₃ acts₃ w₄)
    (hcall : Step dep (Database.Exec dep) w₄ (.call token entry) w₅) :
    (.purgeMessages ∈ acts₂ ∧ w₂.db.messages.find? k = none) ∨
    ∃ r subscriptions loop prog, w₂.rounds[token]? = some r ∧ r.message.id = k ∧
      r.work = some ⟨.direct subscriptions loop, prog⟩ ∧
      (∀ message subscription deliveryId, entry.call = .deliver message subscription deliveryId →
        subscription.id ≠ s) ∧
      (∀ states, read = .ok states → entry.call.writeBack?.isSome = true →
        ∃ results, w₄.Logged token (r.job subscriptions) states results ∧
          (r.job subscriptions).Decision states results entry.call ∧
          ∀ (i : ℕ) (subscription : WebhookSubscription), subscriptions[i]? = some subscription →
            subscription.id = s →
            (r.job subscriptions).verdictAt states results i = some .succeeded) := by
  obtain ⟨hforeign, token₀, r₀, hr₀, hid₀⟩ := referenced_run hrun₁ a ha
  have hs₁ : AttemptStore.hasSuccess k s w₁.db.attempts = true :=
    AttemptStore.hasSuccess_iff.mpr ⟨a, ha, hmessage, hsubscription, hstatus⟩
  rw [hmessage] at hforeign hid₀
  by_cases halive : (w₂.db.messages.find? k).isSome = true
  swap
  · -- without a purge of messages the row would still be there
    left
    refine ⟨?_, by simpa using halive⟩
    by_contra hnone
    refine halive (hrun₂.invariant_of (fun w => (w.db.messages.find? k).isSome = true)
      (· ≠ .purgeMessages) (fun _ _ _ hact h hs => hs.find?_isSome sound_exec hact h) ?_ hforeign)
    rintro act hact rfl
    exact hnone hact
  right
  have hs₂ := hasSuccess_run hrun₂ hpurge hr₀ hid₀ hs₁ halive
  obtain ⟨stages₂, hc₂⟩ := coupled_run (hrun₁.append hrun₂)
  obtain ⟨stages₃, hc₃, hst₃⟩ := hc₂.step hread
  obtain ⟨hexec, -⟩ := hread.called
  cases hst₃ with
  | @call _ _ r subscriptions loop prog s' hr hwork htrans =>
      rw [htrans.start_of_read rfl] at htrans
      obtain ⟨rfl, rfl, hok, herror⟩ := htrans.read_inv
      -- what the round has read says that `s` has succeeded
      have hseen : ∀ states, read = .ok states → ∀ subscription ∈ subscriptions,
          subscription.id = s → Pipeline.hasSuccess states subscription = true := by
        rintro states rfl subscription hsub rfl
        have hmem : subscription.id ∈ (r.job subscriptions).subscriptions.map (·.id) :=
          List.mem_map_of_mem hsub
        rw [hexec.read.1, Pipeline.hasSuccess_getDeliveryStatesAsync hmem]
        exact hs₂
      have hafter : w₃.AfterRead token (r.job subscriptions) read s' := by
        cases read with
        | ok states =>
            rw [hok states rfl]
            exact ⟨rfl, fun _ _ h => by cases h⟩
        | error e =>
            rcases herror e rfl with rfl | rfl
            · trivial
            · exact fun _ h => by cases h
      obtain ⟨r₃, prog₃, hr₃, hwork₃, -, hjob₃⟩ := hread.direct_round hr hwork
      obtain ⟨stages₄, r₄, prog₄, hc₄, hr₄, hwork₄, hjob₄, hafter₄⟩ :=
        afterRead_run hrun₃ hc₃ hr₃ hwork₃
          (show w₃.AfterRead token _ read _ by rwa [hjob₃, Function.update_self])
      obtain ⟨stages₅, -, hst₅⟩ := hc₄.step hcall
      obtain ⟨s₅, htrans₅, -⟩ := hst₅.of_call hr₄ hwork₄
      rw [hjob₄] at htrans₅
      rw [hjob₃] at htrans₅ hafter₄
      refine ⟨r, subscriptions, loop, prog, hr, rfl, hwork, ?_, ?_⟩
      · intro message subscription deliveryId hc hsub
        obtain ⟨states, hread', hmem, hatt⟩ := hafter₄.deliver htrans₅ hc
        have hno := (Job.attempted_iff.mp hatt).1
        rw [hseen states hread' subscription hmem hsub] at hno
        cases hno
      · intro states hread' hwb
        obtain ⟨results, hlogged, hdecision⟩ := hafter₄.decision htrans₅ hread' hwb
        refine ⟨results, hlogged, hdecision, fun i subscription hi hsub => ?_⟩
        rw [Job.verdictAt_eq hi]
        exact Job.verdict_of_hasSuccess
          (hseen states hread' subscription (List.mem_of_getElem? hi) hsub) _
  | queued _ _ hof => cases hof
  | other hnone => cases hnone

/-- The order acquired again after its success was recorded: the next round marks it as processed, with
the success it has read. -/
theorem recorded_success_not_redelivered_expired :
    let job := (⟨functionsHost, orderRow₂, none⟩ : Round).job [orderSubscription]
    ∃ results, job.Decision [(7, ⟨1, true⟩)] results (.markAsProcessed 1 (text "func-1")) ∧
      job.verdictAt [(7, ⟨1, true⟩)] results 0 = some .succeeded := by
  intro job
  obtain ⟨acts, k, hrun, -⟩ := savedOrder_run
  have h₀ : Run sqlServer (Database.Exec sqlServer) (savedOrder k) [] (savedOrder k) := .nil _
  have h₁ := h₀.snoc .tick
    (.tick (by decide : (0 : DateTimeOffset) ≤ 4000000000))
  have h₂ := h₁.snoc .acquire (.acquireCold (List.Perm.refl _) order_relocked)
  have h₃ := h₂.snoc (.begin_ 1 (.direct [orderSubscription] ⟨false, []⟩)) (.begin_ rfl rfl)
  rcases recorded_success_not_redelivered (a := firstAttempt) hrun List.mem_cons_self rfl rfl rfl h₃
      (by simp) (show Step _ _ _ (.call 1 ⟨.getDeliveryStates 1 [7], Except.ok [(7, ⟨1, true⟩)]⟩) _ from
        .call rfl rfl rfl (.effect (.getDeliveryStates 1 [7] _)))
      (.nil _) (show Step _ _ _ (.call 1 ⟨.markAsProcessed 1 (text "func-1"), Except.ok true⟩) _ from
        .call rfl rfl rfl (.effect (.markAsProcessed 1 (text "func-1") _))) with ⟨-, hgone⟩ | h
  · cases hgone
  · obtain ⟨r, subscriptions, loop, prog, hr, -, hwork, -, hwb⟩ := h
    cases hr
    cases hwork
    obtain ⟨results, -, hdecision, hverdict⟩ := hwb _ rfl rfl
    exact ⟨results, hdecision, hverdict 0 orderSubscription rfl rfl⟩

end World

end OutboxNet
