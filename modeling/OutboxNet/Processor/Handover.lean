import OutboxNet.Processor.Conduct
import OutboxNet.Processor.FaultIsolation
import OutboxNet.Processor.Rehearsal

/-!
# A message handed to the queue

In queue-mediated mode one `try` covers the publish and the status update after it.  An exception of the
update is taken for one of the publish: the failure handler is run for a message that is in the queue.
-/

set_option autoImplicit false

namespace OutboxNet

open OutboxStore (WriteBack)

/-! ## The log of one message -/

/-- The publish returned. -/
def Published (log : List Entry) : Prop :=
  ∃ message, (⟨.publish message, Except.ok ()⟩ : Entry) ∈ log

/-- `MarkAsProcessedAsync` threw. -/
def MarkThrew (log : List Entry) : Prop :=
  ∃ messageId lockedBy e, (⟨.markAsProcessed messageId lockedBy, Except.error e⟩ : Entry) ∈ log

/-- `IncrementRetryAsync` or `MarkAsDeadLetteredAsync` was called. -/
def FailureIn (log : List Entry) : Prop := ∃ entry ∈ log, entry.call.isFailure = true

/-- Whether a call was a publish that returned. -/
def Entry.published : Entry → Bool
  | ⟨.publish _, .ok ()⟩ => true
  | _ => false

/-- Whether a call was a `MarkAsProcessedAsync` that threw. -/
def Entry.markThrew : Entry → Bool
  | ⟨.markAsProcessed _ _, .error _⟩ => true
  | _ => false

theorem published_iff_any {log : List Entry} : Published log ↔ log.any Entry.published = true := by
  rw [List.any_eq_true]
  constructor
  · rintro ⟨message, hmem⟩
    exact ⟨_, hmem, rfl⟩
  · rintro ⟨entry, hmem, hpublished⟩
    unfold Entry.published at hpublished
    split at hpublished
    · exact ⟨_, hmem⟩
    · cases hpublished

theorem markThrew_iff_any {log : List Entry} : MarkThrew log ↔ log.any Entry.markThrew = true := by
  rw [List.any_eq_true]
  constructor
  · rintro ⟨messageId, lockedBy, e, hmem⟩
    exact ⟨_, hmem, rfl⟩
  · rintro ⟨entry, hmem, hthrew⟩
    unfold Entry.markThrew at hthrew
    split at hthrew
    · exact ⟨_, _, _, hmem⟩
    · cases hthrew

instance (log : List Entry) : Decidable (Published log) :=
  decidable_of_iff _ published_iff_any.symm

instance (log : List Entry) : Decidable (MarkThrew log) :=
  decidable_of_iff _ markThrew_iff_any.symm

instance (log : List Entry) : Decidable (FailureIn log) :=
  inferInstanceAs (Decidable (∃ entry ∈ log, entry.call.isFailure = true))

/-- A call, and perhaps a metric after it. -/
inductive Counted (c : Call) : List Entry → Prop
  | bare (a : c.Ans) : Counted c [⟨c, a⟩]
  | counted (a : c.Ans) (metric : Metric) (eventType : Text) :
      Counted c [⟨c, a⟩, ⟨.addMetric metric eventType, ()⟩]

/-- An entry is not the first of a list if its call is another. -/
theorem mem_cons_of_call_ne {entry first : Entry} {log : List Entry} (h : entry.call ≠ first.call) :
    entry ∈ first :: log ↔ entry ∈ log := by
  rw [List.mem_cons, or_iff_right (fun heq => h (congrArg Entry.call heq))]

section Counted

variable {log : List Entry}

theorem Counted.call_eq {c : Call} (h : Counted c log) {entry : Entry} (hmem : entry ∈ log) :
    entry.call = c ∨ ∃ metric eventType, entry.call = .addMetric metric eventType := by
  cases h with
  | bare a =>
      obtain rfl := List.mem_singleton.mp hmem
      exact .inl rfl
  | counted a metric eventType =>
      rcases List.mem_cons.mp hmem with rfl | hmem
      · exact .inl rfl
      · obtain rfl := List.mem_singleton.mp hmem
        exact .inr ⟨metric, eventType, rfl⟩

theorem Counted.failureIn {c : Call} (h : Counted c log) (hc : c.isFailure = true) : FailureIn log := by
  cases h with
  | bare a => exact ⟨_, List.mem_cons_self, hc⟩
  | counted a => exact ⟨_, List.mem_cons_self, hc⟩

/-- The random number of the failure handler is the one drawn first. -/
theorem Counted.draw_eq {c : Call} (h : Counted c log) (hc : c.isFailure = true) {draw draw' : ℚ}
    (hmem : (⟨.nextDouble, draw'⟩ : Entry) ∈ (⟨.nextDouble, draw⟩ : Entry) :: log) : draw' = draw := by
  rcases List.mem_cons.mp hmem with heq | hmem
  · cases heq
    rfl
  · rcases h.call_eq hmem with rfl | ⟨_, _, heq⟩
    · cases hc
    · cases heq

end Counted

namespace Pipeline

variable (p : Pipeline) (message : OutboxMessage) (lockedBy : Text)

/-- The failure handler stops before its write-back: the retry policy throws, or the time of the next
retry is out of range. -/
def Stalls (log : List Entry) : Prop :=
  ∃ draw, (⟨.nextDouble, draw⟩ : Entry) ∈ log ∧
    ((∃ e, p.retryPolicy.getNextDelay message.retryCount draw = .error e) ∨
      ∃ delay now e, p.retryPolicy.getNextDelay message.retryCount draw = .ok (some delay) ∧
        (⟨.utcNow, now⟩ : Entry) ∈ log ∧ addTime now delay = .error e)

/-- The calls of the failure handler. -/
inductive HandsOver (error : Option Text) : List Entry → Prop
  | policyThrew {draw : ℚ} {e : Exn} :
      p.retryPolicy.getNextDelay message.retryCount draw = .error e →
      HandsOver error [⟨.nextDouble, draw⟩]
  | outOfRange {draw : ℚ} {delay : TimeSpan} {now : DateTimeOffset} {e : Exn} :
      p.retryPolicy.getNextDelay message.retryCount draw = .ok (some delay) →
      addTime now delay = .error e →
      HandsOver error [⟨.nextDouble, draw⟩, ⟨.utcNow, now⟩]
  | giveUp {draw : ℚ} {more : List Entry} :
      p.retryPolicy.getNextDelay message.retryCount draw = .ok none →
      Counted (.markAsDeadLettered message.id lockedBy) more →
      HandsOver error (⟨.nextDouble, draw⟩ :: more)
  | retry {draw : ℚ} {delay : TimeSpan} {now nextRetryAt : DateTimeOffset} {more : List Entry} :
      p.retryPolicy.getNextDelay message.retryCount draw = .ok (some delay) →
      addTime now delay = .ok nextRetryAt →
      Counted (.incrementRetry message.id lockedBy nextRetryAt error) more →
      HandsOver error (⟨.nextDouble, draw⟩ :: ⟨.utcNow, now⟩ :: more)

/-- The calls of a queue-mediated round. -/
inductive QueueRound : List Entry → Prop
  | sent {b : Bool} {more : List Entry} :
      (∀ entry ∈ more, ∃ metric eventType, entry = ⟨.addMetric metric eventType, ()⟩) →
      QueueRound (⟨.publish message, Except.ok ()⟩ ::
        ⟨.markAsProcessed message.id lockedBy, Except.ok b⟩ :: more)
  | markThrew {e : Exn} {more : List Entry} :
      HandsOver p message lockedBy (some e.message) more →
      QueueRound (⟨.publish message, Except.ok ()⟩ ::
        ⟨.markAsProcessed message.id lockedBy, Except.error e⟩ :: more)
  | publishThrew {e : Exn} {more : List Entry} :
      HandsOver p message lockedBy (some e.message) more →
      QueueRound (⟨.publish message, Except.error e⟩ :: more)

variable {p message lockedBy} {l l' : List Entry} {r : Except Exn Unit}

/-- A write-back with its metric. -/
theorem countedWriteBack_counted {x : Async Bool} {metric : Metric} {eventType : Text} {c : Call}
    (hx : ∀ {o l₁}, Prog.Exec Call.Recorded x.run l o l₁ → ∃ a : c.Ans, l₁ = l ++ [⟨c, a⟩])
    (h : Prog.Exec Call.Recorded
      (do if ← x then Async.addMetric metric eventType : Async Unit).run l r l') :
    ∃ more, l' = l ++ more ∧ Counted c more := by
  rcases Prog.exec_bindThrowing_iff.mp h with ⟨b, l₁, hwrite, hrest⟩ | ⟨e, hwrite, -⟩
  · obtain ⟨a, rfl⟩ := hx hwrite
    cases b with
    | false =>
        obtain ⟨-, rfl⟩ := Prog.exec_ret_iff.mp hrest
        exact ⟨_, rfl, .bare a⟩
    | true =>
        obtain ⟨_, -, rfl⟩ := Call.Recorded.of_lift hrest
        exact ⟨_, List.append_assoc l _ _, .counted a metric eventType⟩
  · obtain ⟨a, rfl⟩ := hx hwrite
    exact ⟨_, rfl, .bare a⟩

/-- The failure handler makes the calls of the failure handler. -/
theorem handleMessageFailureAsync_handsOver {error : Option Text}
    (h : Prog.Exec Call.Recorded (p.handleMessageFailureAsync message lockedBy error).run l r l') :
    ∃ more, l' = l ++ more ∧ HandsOver p message lockedBy error more := by
  obtain ⟨draw, _, rfl, h⟩ := handleMessageFailureAsync_exec h
  rcases h with ⟨e, hpolicy, -, rfl⟩ | ⟨hpolicy, h⟩ | ⟨delay, now, _, hpolicy, rfl, h⟩
  · exact ⟨_, rfl, .policyThrew hpolicy⟩
  · -- without a delay the message is given up
    have hwrite : ∀ {o l₁}, Prog.Exec Call.Recorded
        (Async.markAsDeadLettered message.id lockedBy).run (l ++ [⟨.nextDouble, draw⟩]) o l₁ →
        ∃ a : (Call.markAsDeadLettered message.id lockedBy).Ans,
          l₁ = l ++ [⟨.nextDouble, draw⟩] ++ [⟨.markAsDeadLettered message.id lockedBy, a⟩] :=
      fun h => ⟨_, Call.Recorded.of_perform h⟩
    obtain ⟨more, rfl, hmore⟩ := countedWriteBack_counted hwrite h
    exact ⟨_, List.append_assoc l _ more, .giveUp hpolicy hmore⟩
  · have hlog : l ++ [⟨.nextDouble, draw⟩] ++ [⟨.utcNow, now⟩] =
        l ++ [⟨.nextDouble, draw⟩, ⟨.utcNow, now⟩] := List.append_assoc l _ _
    rw [hlog] at h
    rcases h with ⟨e, hadd, -, rfl⟩ | ⟨nextRetryAt, hadd, h⟩
    · exact ⟨_, rfl, .outOfRange hpolicy hadd⟩
    have hwrite : ∀ {o l₁}, Prog.Exec Call.Recorded
        (Async.incrementRetry message.id lockedBy nextRetryAt error).run _ o l₁ →
        ∃ a : (Call.incrementRetry message.id lockedBy nextRetryAt error).Ans,
          l₁ = l ++ [⟨.nextDouble, draw⟩, ⟨.utcNow, now⟩] ++
            [⟨.incrementRetry message.id lockedBy nextRetryAt error, a⟩] :=
      fun h => ⟨_, Call.Recorded.of_perform h⟩
    obtain ⟨more, rfl, hmore⟩ := countedWriteBack_counted hwrite h
    exact ⟨_, List.append_assoc l _ more, .retry hpolicy hadd hmore⟩

/-- A queue-mediated round makes the calls of a queue-mediated round. -/
theorem processQueuedMessageAsync_queueRound
    (h : Prog.Exec Call.Recorded (p.processQueuedMessageAsync lockedBy message).run [] r l') :
    QueueRound p message lockedBy l' := by
  unfold processQueuedMessageAsync at h
  rcases Prog.exec_bindThrowing_iff.mp h with ⟨o, l₁, hcatch, h⟩ | ⟨e, hcatch, -⟩
  swap
  · rcases Prog.exec_catching hcatch with ⟨_, -, he⟩ | ⟨e', -, ⟨-, he⟩ | ⟨hthrough, -⟩⟩
    · cases he
    · cases he
    · cases hthrough
  rcases Prog.exec_catching hcatch with ⟨_, hpublishing, ho⟩ | ⟨e, hpublishing, ⟨-, ho⟩ | ⟨-, ho⟩⟩
  · cases ho
    -- nothing in the `try` threw
    obtain ⟨-, rfl⟩ := Prog.exec_ret_iff.mp h
    rcases Prog.exec_bindThrowing_iff.mp hpublishing with ⟨u, l₂, hpublish, hrest⟩ | ⟨_, -, he⟩
    swap
    · cases he
    obtain rfl := Call.Recorded.of_perform hpublish
    rcases Prog.exec_bindThrowing_iff.mp hrest with ⟨b, l₃, hmark, hrest⟩ | ⟨_, -, he⟩
    swap
    · cases he
    obtain rfl := Call.Recorded.of_perform hmark
    cases b with
    | false =>
        obtain ⟨-, rfl⟩ := Prog.exec_ret_iff.mp hrest
        exact .sent (List.forall_mem_nil _)
    | true =>
        obtain ⟨_, -, rfl⟩ := Call.Recorded.of_lift hrest
        exact .sent (List.forall_mem_singleton.mpr ⟨_, _, rfl⟩)
  · cases ho
    -- the exception handled is that of the publish or of the status update
    obtain ⟨more, rfl, hmore⟩ := handleMessageFailureAsync_handsOver h
    rcases Prog.exec_bindThrowing_iff.mp hpublishing with ⟨u, l₂, hpublish, hrest⟩ | ⟨_, hpublish, he⟩
    swap
    · cases he
      obtain rfl := Call.Recorded.of_perform hpublish
      exact .publishThrew hmore
    obtain rfl := Call.Recorded.of_perform hpublish
    rcases Prog.exec_bindThrowing_iff.mp hrest with ⟨b, l₃, -, hrest⟩ | ⟨_, hmark, he⟩
    · -- a metric does not throw
      cases b with
      | false =>
          obtain ⟨he, -⟩ := Prog.exec_ret_iff.mp hrest
          cases he
      | true =>
          obtain ⟨_, he, -⟩ := Call.Recorded.of_lift hrest
          cases he
    · cases he
      obtain rfl := Call.Recorded.of_perform hmark
      exact .markThrew hmore
  · cases ho

/-! ## What the log says -/

section Log

variable {log : List Entry} {error : Option Text}

/-- The failure handler hands the message back unless it stalls. -/
theorem HandsOver.failureIn_iff (h : HandsOver p message lockedBy error log) :
    FailureIn log ↔ ¬ Stalls p message log := by
  -- the handler stalls when the policy throws or the retry time is out of range, and writes back otherwise
  cases h with
  | @policyThrew draw e hpolicy =>
      refine iff_of_false ?_ (not_not.mpr ⟨draw, List.mem_cons_self, .inl ⟨e, hpolicy⟩⟩)
      rintro ⟨entry, hmem, hfailure⟩
      obtain rfl := List.mem_singleton.mp hmem
      cases hfailure
  | @outOfRange draw delay now e hpolicy hadd =>
      refine iff_of_false ?_ (not_not.mpr ⟨draw, List.mem_cons_self, .inr ⟨delay, now, e, hpolicy,
        List.mem_cons_of_mem _ List.mem_cons_self, hadd⟩⟩)
      rintro ⟨entry, hmem, hfailure⟩
      rcases List.mem_cons.mp hmem with rfl | hmem
      · cases hfailure
      · obtain rfl := List.mem_singleton.mp hmem
        cases hfailure
  | giveUp hpolicy hmore =>
      obtain ⟨entry, hmem, hfailure⟩ := hmore.failureIn rfl
      refine iff_of_true ⟨entry, List.mem_cons_of_mem _ hmem, hfailure⟩ ?_
      rintro ⟨draw', hdraw, hthrew⟩
      obtain rfl := hmore.draw_eq rfl hdraw
      rcases hthrew with ⟨e, he⟩ | ⟨delay, now, e, hsome, -⟩
      · rw [hpolicy] at he
        cases he
      · rw [hpolicy] at hsome
        cases hsome
  | @retry draw delay now nextRetryAt more hpolicy hadd hmore =>
      obtain ⟨entry, hmem, hfailure⟩ := hmore.failureIn rfl
      refine iff_of_true
        ⟨entry, List.mem_cons_of_mem _ (List.mem_cons_of_mem _ hmem), hfailure⟩ ?_
      rintro ⟨draw', hdraw, hthrew⟩
      have hdraw' : draw' = draw := by
        rcases List.mem_cons.mp hdraw with heq | hdraw
        · cases heq
          rfl
        rcases List.mem_cons.mp hdraw with heq | hdraw
        · cases heq
        · rcases hmore.call_eq hdraw with heq | ⟨_, _, heq⟩ <;> cases heq
      subst hdraw'
      rcases hthrew with ⟨e, he⟩ | ⟨delay', now', e, hsome, hnow, he⟩
      · rw [hpolicy] at he
        cases he
      · -- the time added to is the one read
        have heq := hpolicy.symm.trans hsome
        cases heq
        have hnow' : now' = now := by
          rcases List.mem_cons.mp hnow with heq | hnow
          · cases heq
          rcases List.mem_cons.mp hnow with heq | hnow
          · cases heq
            rfl
          · rcases hmore.call_eq hnow with heq | ⟨_, _, heq⟩ <;> cases heq
        subst hnow'
        rw [hadd] at he
        cases he

/-- Whether the failure handler stalls is read off the random numbers and the clock readings. -/
theorem Stalls.congr {log' : List Entry} (h : ∀ entry : Entry,
    entry.call = .nextDouble ∨ entry.call = .utcNow → (entry ∈ log ↔ entry ∈ log')) :
    Stalls p message log ↔ Stalls p message log' := by
  have hmono : ∀ {log log' : List Entry}, (∀ entry : Entry,
      entry.call = .nextDouble ∨ entry.call = .utcNow → entry ∈ log → entry ∈ log') →
      Stalls p message log → Stalls p message log' := by
    rintro log log' h ⟨draw, hdraw, hthrew⟩
    refine ⟨draw, h _ (.inl rfl) hdraw, hthrew.imp_right ?_⟩
    rintro ⟨delay, now, e, hpolicy, hnow, hadd⟩
    exact ⟨delay, now, e, hpolicy, h _ (.inr rfl) hnow, hadd⟩
  exact ⟨hmono fun entry hcall => (h entry hcall).mp, hmono fun entry hcall => (h entry hcall).mpr⟩

/-- The failure handler publishes nothing. -/
theorem HandsOver.not_published (h : HandsOver p message lockedBy error log) : ¬ Published log := by
  rintro ⟨message', hmem⟩
  cases h with
  | policyThrew => cases List.mem_singleton.mp hmem
  | outOfRange =>
      rcases List.mem_cons.mp hmem with heq | hmem
      · cases heq
      · cases List.mem_singleton.mp hmem
  | giveUp _ hmore =>
      rcases List.mem_cons.mp hmem with heq | hmem
      · cases heq
      · rcases hmore.call_eq hmem with heq | ⟨_, _, heq⟩ <;> cases heq
  | retry _ _ hmore =>
      rcases List.mem_cons.mp hmem with heq | hmem
      · cases heq
      rcases List.mem_cons.mp hmem with heq | hmem
      · cases heq
      · rcases hmore.call_eq hmem with heq | ⟨_, _, heq⟩ <;> cases heq

/-- **The failure handler is run for a published message exactly if the status update threw.** -/
theorem QueueRound.failureIn_iff (h : QueueRound p message lockedBy log) (hpublished : Published log) :
    FailureIn log ↔ MarkThrew log ∧ ¬ Stalls p message log := by
  cases h with
  | @sent b more hmore =>
      -- the status update returned, and at most a metric follows
      have hnone : ∀ entry ∈ more, entry.call.isFailure = false := by
        rintro entry hmem
        obtain ⟨metric, eventType, rfl⟩ := hmore entry hmem
        rfl
      refine iff_of_false ?_ ?_
      · rintro ⟨entry, hmem, hfailure⟩
        rcases List.mem_cons.mp hmem with rfl | hmem
        · cases hfailure
        rcases List.mem_cons.mp hmem with rfl | hmem
        · cases hfailure
        · rw [hnone entry hmem] at hfailure
          cases hfailure
      · rintro ⟨⟨messageId, by_, e, hmem⟩, -⟩
        rcases List.mem_cons.mp hmem with heq | hmem
        · cases heq
        rcases List.mem_cons.mp hmem with heq | hmem
        · cases heq
        · obtain ⟨metric, eventType, heq⟩ := hmore _ hmem
          cases heq
  | @markThrew e more hmore =>
      have hthrew : MarkThrew (⟨.publish message, Except.ok ()⟩ ::
          ⟨.markAsProcessed message.id lockedBy, Except.error e⟩ :: more) :=
        ⟨_, _, e, List.mem_cons_of_mem _ List.mem_cons_self⟩
      have hfailure : FailureIn (⟨.publish message, Except.ok ()⟩ ::
          ⟨.markAsProcessed message.id lockedBy, Except.error e⟩ :: more) ↔ FailureIn more := by
        simp [FailureIn, Call.isFailure]
      have hstalls : Stalls p message (⟨.publish message, Except.ok ()⟩ ::
          ⟨.markAsProcessed message.id lockedBy, Except.error e⟩ :: more) ↔ Stalls p message more := by
        refine Stalls.congr fun entry hcall => ?_
        rw [mem_cons_of_call_ne, mem_cons_of_call_ne]
        all_goals rcases hcall with hcall | hcall <;> rw [hcall] <;> exact fun h => by cases h
      rw [hfailure, hstalls, hmore.failureIn_iff]
      exact ⟨fun h => ⟨hthrew, h⟩, And.right⟩
  | publishThrew hmore =>
      obtain ⟨message', hmem⟩ := hpublished
      rcases List.mem_cons.mp hmem with heq | hmem
      · cases heq
      · exact absurd ⟨message', hmem⟩ hmore.not_published

end Log

/-! ## The batch -/

section Batch

/-- The calls of the queue loop. -/
theorem processQueueMediatedAsync_only {messages : List OutboxMessage} {P : BatchCall → Prop}
    (hP : ∀ message ∈ messages, ∀ c : Call, c.Concerns message.id → P (.handling message.id c)) :
    (p.processQueueMediatedAsync lockedBy messages).run.Only P := by
  induction messages with
  | nil => trivial
  | cons first messages ih =>
      rw [processQueueMediatedAsync_cons]
      refine Prog.Only.bindThrowing ?_ fun _ => ?_
      · exact Prog.Only.mapCalls (fun c hc => hP first List.mem_cons_self c hc)
          processQueuedMessageAsync_only
      · exact ih fun message hm => hP message (List.mem_cons_of_mem _ hm)

variable {dep : Deployment} {options : OutboxOptions} {reader : SubscriptionReader}
variable {x x' : BatchSession} {messages : List OutboxMessage}

/-- What is done for one message of a batch is nothing, or a queue-mediated round. -/
theorem processQueueMediatedAsync_handled (hnodup : (messages.map OutboxMessage.id).Nodup)
    (h : Prog.Exec (BatchSession.Exec dep options reader)
      (p.processQueueMediatedAsync lockedBy messages).run x r x') (hm : message ∈ messages)
    (hnil : handled message.id x.log = []) :
    handled message.id x'.log = [] ∨ QueueRound p message lockedBy (handled message.id x'.log) := by
  induction messages generalizing x with
  | nil => cases hm
  | cons first messages ih =>
      rw [processQueueMediatedAsync_cons] at h
      rw [List.map_cons, List.nodup_cons] at hnodup
      rcases List.mem_cons.mp hm with rfl | hm
      · right
        rcases Prog.exec_bindThrowing_iff.mp h with ⟨u, x₁, hhead, hrest⟩ | ⟨e, hhead, rfl⟩
        · -- the others are other messages
          have hrecorded := recorded_of_handling hhead
          rw [hnil] at hrecorded
          have honly : (p.processQueueMediatedAsync lockedBy messages).run.Only
              fun c => ∀ c', c ≠ .handling message.id c' := by
            refine processQueueMediatedAsync_only fun message' hmem' c _ c' heq => ?_
            have hid : message'.id = message.id := (BatchCall.handling.inj heq).1
            exact hnodup.1 (hid ▸ List.mem_map_of_mem hmem')
          rw [BatchSession.handled_of_exec hrest honly]
          exact processQueuedMessageAsync_queueRound hrecorded
        · have hrecorded := recorded_of_handling hhead
          rw [hnil] at hrecorded
          exact processQueuedMessageAsync_queueRound hrecorded
      · have hne : first.id ≠ message.id := fun heq => hnodup.1 (heq ▸ List.mem_map_of_mem hm)
        rcases Prog.exec_bindThrowing_iff.mp h with ⟨u, x₁, hhead, hrest⟩ | ⟨e, hhead, rfl⟩
        · refine ih hnodup.2 hrest hm ?_
          rw [BatchSession.handled_of_exec hhead (handling_other hne _), hnil]
        · exact .inl (by rw [BatchSession.handled_of_exec hhead (handling_other hne _), hnil])

/-- Unless the message is handed back as failed, its row is not dead-lettered. -/
theorem processQueueMediatedAsync_row {k : Guid}
    (h : Prog.Exec (BatchSession.Exec dep options reader)
      (p.processQueueMediatedAsync lockedBy messages).run x r x')
    (hrow : ∀ row, x.host.db.messages.find? k = some row → row.status ≠ .deadLettered)
    (hfailure : ¬ FailureIn (handled k x'.log)) :
    ∀ row, x'.host.db.messages.find? k = some row → row.status ≠ .deadLettered := by
  let J : BatchSession → Prop := fun x => FailureIn (handled k x.log) ∨
    ∀ row, x.host.db.messages.find? k = some row → row.status ≠ .deadLettered
  have honly : (p.processQueueMediatedAsync lockedBy messages).run.Only
      fun c => ∃ k' c', c = .handling k' c' ∧ c'.Concerns k' :=
    processQueueMediatedAsync_only fun message _ c hc => ⟨message.id, c, rfl, hc⟩
  have hJ : ∀ (c : BatchCall) (x : BatchSession) (a : c.Ans) (x' : BatchSession),
      (∃ k' c', c = .handling k' c' ∧ c'.Concerns k') → J x → BatchSession.Exec dep options reader c x a x' →
      J x' := by
    rintro _ x a x' ⟨k', c, rfl, hc⟩ hx ⟨hexec, hlog⟩
    obtain ⟨now, db, -, hdb, hhost⟩ := Host.exec_handling_iff.mp hexec
    by_cases hk : k' = k
    · subst hk
      have hhandled : handled k' x'.log = handled k' x.log ++ [⟨c, a⟩] := by
        rw [hlog]
        exact handled_handling
      rcases hx with ⟨entry, hmem, hentry⟩ | hx
      · exact .inl ⟨entry, by rw [hhandled]; exact List.mem_append_left _ hmem, hentry⟩
      by_cases hfail : c.isFailure = true
      · exact .inl ⟨⟨c, a⟩, by rw [hhandled]; exact List.mem_append_right _ List.mem_cons_self, hfail⟩
      right
      rw [hhost]
      cases hdb.change with
      | none => exact hx
      | saved => exact hx
      | @wroteBack kind messageId lockedBy' b messages' hwrite hrun =>
          -- the only write-back left is that of a processed message
          have hkind : kind = .processed := by
            cases c <;> cases hwrite
            · rfl
            · exact absurd rfl hfail
            · exact absurd rfl hfail
          subst hkind
          obtain ⟨-, hf, hmessages⟩ := WriteBack.run_eq hrun
          rintro row hfind
          change messages'.find? k' = some row at hfind
          rw [hmessages, Table.find?_update] at hfind
          obtain ⟨row₀, hfind₀, rfl⟩ := Option.map_eq_some_iff.mp hfind
          split
          · intro hstatus
            cases hstatus
          · exact hx row₀ hfind₀
    · have hhandled : handled k x'.log = handled k x.log := by
        rw [hlog]
        exact handled_handling_of_ne hk
      have hsame : x.host.db.messages.find? k = db.messages.find? k :=
        (hdb.change.absorb (Database.Alike.refl (fun k' => k' = k) _) (by simpa using hk) hc).messages k
          (by simp)
      show FailureIn (handled k x'.log) ∨ _
      rw [hhandled, hhost]
      exact hx.imp_right fun hx row hfind => hx row (hsame.trans hfind)
  exact (Prog.Only.exec_invariant hJ h honly (.inr hrow)).resolve_left hfailure

/-- What becomes of a message that was published: no call hands it back as failed, and its row is not
dead-lettered. -/
structure NotFailed (k : Guid) (x x' : BatchSession) : Prop where
  failure : ¬ FailureIn (handled k x'.log)
  row : (∀ row, x.host.db.messages.find? k = some row → row.status ≠ .deadLettered) →
    ∀ row, x'.host.db.messages.find? k = some row → row.status ≠ .deadLettered

/-- **A published message is not treated as failed exactly if its status update did not throw**, or the
failure handler stalled before its write-back. -/
theorem published_not_failed_iff (hnodup : (messages.map OutboxMessage.id).Nodup)
    (h : Prog.Exec (BatchSession.Exec dep options reader)
      (p.processQueueMediatedAsync lockedBy messages).run x r x') (hlog : x.log = [])
    (hm : message ∈ messages) (hpublished : Published (handled message.id x'.log)) :
    NotFailed message.id x x' ↔ ¬ MarkThrew (handled message.id x'.log) ∨
      Stalls p message (handled message.id x'.log) := by
  have hround : QueueRound p message lockedBy (handled message.id x'.log) := by
    refine (processQueueMediatedAsync_handled hnodup h hm (by rw [hlog]; rfl)).resolve_left ?_
    intro hnil
    obtain ⟨message', hmem⟩ := hpublished
    rw [hnil] at hmem
    cases hmem
  have hfailure := hround.failureIn_iff hpublished
  constructor
  · intro hnot
    by_contra hcond
    rw [not_or, not_not] at hcond
    exact hnot.failure (hfailure.mpr hcond)
  · intro hcond
    have hnone : ¬ FailureIn (handled message.id x'.log) := fun hin => by
      obtain ⟨hthrew, hgoes⟩ := hfailure.mp hin
      exact hcond.elim (fun hno => hno hthrew) hgoes
    exact ⟨hnone, fun hrow => processQueueMediatedAsync_row h hrow hnone⟩

end Batch

/-! ## A message that is sent and dead-lettered -/

/-- The publishing of message 10. -/
def mailing : Prog BatchCall BatchCall.Ans (Except Exn Unit) :=
  (queueShop.processQueueMediatedAsync (text "worker-1") [shopLocked 10]).run

/-- Where it ends, with these replies. -/
def mailed (replies : List BatchReply) : BatchSession :=
  mailing.reached (BatchSession.serve (Deployment.binary .directSql) queueShop.options fun _ => []) replies
    pairSession

/-- The publish returns and the status update throws; the failure handler dead-letters the message. -/
def sentAndFailed : BatchSession := mailed
  [.handled (.published (.ok ())), .handled (.failed sqlTimeout), .handled (.drew 0), .handled .done,
    .handled .done]

/-- The publish and the status update return. -/
def sentAndMarked : BatchSession := mailed
  [.handled (.published (.ok ())), .handled .done, .handled .done]

theorem mailed_run {replies : List BatchReply} (h : (mailing.replay (BatchSession.serve
      (Deployment.binary .directSql) queueShop.options fun _ => []) replies pairSession).map Prod.fst =
    some (.ok ())) : Prog.Exec (BatchSession.Exec (Deployment.binary .directSql) queueShop.options
      noSubscriptions) mailing pairSession (.ok ()) (mailed replies) :=
  BatchSession.exec_of_rehearsal noSubscriptions_returns h

theorem sentAndFailed_run : Prog.Exec (BatchSession.Exec (Deployment.binary .directSql) queueShop.options
      noSubscriptions) mailing pairSession (.ok ()) sentAndFailed :=
  mailed_run (by decide +kernel)

theorem sentAndMarked_run : Prog.Exec (BatchSession.Exec (Deployment.binary .directSql) queueShop.options
      noSubscriptions) mailing pairSession (.ok ()) sentAndMarked :=
  mailed_run (by decide +kernel)

/-- **A message is in the queue, and dead-lettered** by the round that put it there. -/
theorem published_and_dead_lettered : Prog.Exec (BatchSession.Exec (Deployment.binary .directSql)
      queueShop.options noSubscriptions) mailing pairSession (.ok ()) sentAndFailed ∧
    Published (handled 10 sentAndFailed.log) ∧ FailureIn (handled 10 sentAndFailed.log) ∧
    (sentAndFailed.host.db.messages.find? 10).map (·.status) = some .deadLettered ∧
    ¬ NotFailed 10 pairSession sentAndFailed := by
  have hfailure : FailureIn (handled 10 sentAndFailed.log) := by decide +kernel
  exact ⟨sentAndFailed_run, by decide +kernel, hfailure, by decide +kernel,
    fun hnot => hnot.failure hfailure⟩

/-- The condition in these rounds: the status update threw and the failure handler went on, or it returned. -/
theorem published_not_failed_iff_shop :
    (NotFailed 10 pairSession sentAndFailed ↔ ¬ MarkThrew (handled 10 sentAndFailed.log) ∨
      Stalls queueShop (shopLocked 10) (handled 10 sentAndFailed.log)) ∧
    MarkThrew (handled 10 sentAndFailed.log) ∧ NotFailed 10 pairSession sentAndMarked ∧
    (sentAndMarked.host.db.messages.find? 10).map (·.status) = some .delivered := by
  have hnodup : ([shopLocked 10].map OutboxMessage.id).Nodup := List.nodup_singleton _
  have hreturned : ¬ MarkThrew (handled 10 sentAndMarked.log) := by decide +kernel
  refine ⟨published_not_failed_iff hnodup sentAndFailed_run rfl List.mem_cons_self ?_, by decide +kernel,
    (published_not_failed_iff hnodup sentAndMarked_run rfl List.mem_cons_self ?_).mpr (.inl hreturned),
    by decide +kernel⟩
  · show Published (handled 10 sentAndFailed.log)
    decide +kernel
  · show Published (handled 10 sentAndMarked.log)
    decide +kernel

end Pipeline

end OutboxNet
