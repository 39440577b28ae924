import OutboxNet.Lib.Interleave
import OutboxNet.Processor.Conformance
import OutboxNet.Processor.Frame
import OutboxNet.Processor.Queued
import OutboxNet.Processor.SubscriptionCache

/-!
# The messages of a batch do not see each other

`handled k` is what is done for message `k`, read off the log of a batch: its calls with their answers.
When the handling of some messages is erased from a run of a batch, what remains is a run of the batch
without these messages, as long as none of them makes the processing of the batch stop.
-/

set_option autoImplicit false

namespace OutboxNet

/-! ## Every call of a program is about its message -/

theorem Call.nonempty_ans (c : Call) : Nonempty c.Ans := by
  cases c with
  | getDeliveryStates => exact ⟨.ok []⟩
  | saveAttempts => exact ⟨.ok ()⟩
  | markAsProcessed => exact ⟨.ok true⟩
  | incrementRetry => exact ⟨.ok true⟩
  | markAsDeadLettered => exact ⟨.ok true⟩
  | deliver => exact ⟨.error Exn.operationCanceled⟩
  | publish => exact ⟨.ok ()⟩
  | utcNow => exact ⟨(0 : ℤ)⟩
  | nextDouble => exact ⟨(0 : ℚ)⟩
  | addMetric => exact ⟨()⟩

theorem Job.Trans.concerns {job : Job} {c : Call} {s s' : Stage} {a : c.Ans}
    (h : job.Trans c s a s') : c.Concerns job.message.id := by
  have hattempts : ∀ {attempts : List DeliveryAttempt} {states : AttemptStore.States}
      {results : Results} {utcNow : ℕ → DateTimeOffset},
      attempts.Perm (job.newAttempts states results utcNow) →
      ∀ attempt ∈ attempts, attempt.outboxMessageId = job.message.id := by
    intro attempts states results utcNow hperm attempt hmem
    obtain ⟨i, subscription, r, -, -, rfl⟩ := mem_newAttempts.mp (hperm.mem_iff.mp hmem)
    rfl
  induction h with
  | metric => trivial
  | noSubscriptions => rfl
  | read => rfl
  | readThrew => rfl
  | deliver => rfl
  | attemptTime => trivial
  | save _ hperm _ => exact hattempts hperm
  | saveThrew _ hperm _ => exact hattempts hperm
  | nothingToSave _ _ _ ih => exact ih
  | faulted _ _ ih => exact ih
  | processed => rfl
  | deadLetter => rfl
  | retry _ _ ih => exact ih
  | draw => trivial
  | clock => trivial
  | incrementRetry => rfl
  | giveUp => rfl

namespace Pipeline

variable {p : Pipeline} {message : OutboxMessage} {lockedBy : Text}

/-- What the body of the loop calls: the delivery of the next attempt, and the clock. -/
theorem deliverToSubscription_only {P : Call → Prop} {states : AttemptStore.States}
    {subscription : WebhookSubscription}
    (hdeliver : P (.deliver message subscription (deriveDeliveryId p.sha256 message.id subscription.id
      (nextAttempt states subscription)))) (hclock : P .utcNow) :
    (p.deliverToSubscription message states subscription).run.Only (Parallel.OnCalls P) := by
  rw [Job.deliverToSubscription_run]
  split
  · exact ⟨trivial, fun _ => trivial⟩
  split
  · exact ⟨trivial, fun _ => trivial⟩
  refine ⟨hdeliver, ?_⟩
  rintro (e | result)
  · trivial
  refine ⟨hclock, fun _ => ⟨trivial, fun _ => ?_⟩⟩
  split
  · exact ⟨trivial, fun _ => trivial⟩
  · exact ⟨trivial, fun _ => ⟨trivial, fun _ => trivial⟩⟩

/-- What the loop calls. -/
theorem deliverToSubscriptionsAsync_only {P : Call → Prop} (loop : LoopSchedule)
    {states : AttemptStore.States} {subscriptions : List WebhookSubscription}
    (hdeliver : ∀ subscription ∈ subscriptions, P (.deliver message subscription (deriveDeliveryId
      p.sha256 message.id subscription.id (nextAttempt states subscription)))) (hclock : P .utcNow) :
    (p.deliverToSubscriptionsAsync loop message subscriptions states).run.Only P := by
  unfold deliverToSubscriptionsAsync
  cases parallelOptions p.options.maxConcurrentSubscriptionDeliveries with
  | error e => trivial
  | ok limit =>
      exact Parallel.forEachAsync_only Call.nonempty_ans
        (fun subscription hmem => deliverToSubscription_only (hdeliver subscription hmem) hclock) _ _ _

theorem processSingleMessageAsync_only (loop : LoopSchedule)
    (subscriptions : List WebhookSubscription) :
    (p.processSingleMessageAsync loop message lockedBy subscriptions).run.Only
      (Call.Concerns message.id) :=
  (Job.processSingleMessageAsync_conforms ⟨p, message, lockedBy, subscriptions⟩ loop).only
    Call.nonempty_ans fun _ _ _ _ h => h.concerns

theorem processCachedMessageAsync_only (loop : LoopSchedule) (subCache : SubscriptionCache) :
    (p.processCachedMessageAsync loop lockedBy subCache message).run.Only
      (Call.Concerns message.id) := by
  unfold processCachedMessageAsync
  cases subCache.get message.cacheKey with
  | error e => trivial
  | ok subscriptions => exact processSingleMessageAsync_only loop subscriptions

theorem processQueuedMessageAsync_only :
    (p.processQueuedMessageAsync lockedBy message).run.Only (Call.Concerns message.id) := by
  refine (processQueuedMessageAsync_queued p).only Call.nonempty_ans fun c _ _ _ h => ?_
  cases c with
  | publish m => exact congrArg OutboxMessage.id h
  | markAsProcessed => exact h.1
  | incrementRetry => exact h.1
  | markAsDeadLettered => exact h.1
  | utcNow => trivial
  | nextDouble => trivial
  | addMetric => trivial
  | _ => exact h.elim

end Pipeline

/-! ## What is done for a message -/

/-- The call made in the handling of message `k`, if the entry is one. -/
def BatchEntry.handledFor (k : Guid) : BatchEntry → Option Entry
  | ⟨.handling messageId c, a⟩ => if messageId = k then some ⟨c, a⟩ else none
  | _ => none

/-- The calls made in the handling of message `k`, with their answers. -/
def handled (k : Guid) (log : List BatchEntry) : List Entry := log.filterMap (·.handledFor k)

theorem handled_append (k : Guid) (log : List BatchEntry) (e : BatchEntry) :
    handled k (log ++ [e]) = handled k log ++ (e.handledFor k).toList := by
  rw [handled, List.filterMap_append]
  cases h : e.handledFor k <;> simp [handled, h]

/-- A call that is not made in the handling of a message. -/
theorem handled_append_of_none {k : Guid} {log : List BatchEntry} {e : BatchEntry}
    (h : e.handledFor k = none) : handled k (log ++ [e]) = handled k log := by
  rw [handled_append, h]
  exact List.append_nil _

theorem handled_handling {k : Guid} {log : List BatchEntry} {c : Call} {a : c.Ans} :
    handled k (log ++ [⟨.handling k c, a⟩]) = handled k log ++ [⟨c, a⟩] := by
  rw [handled_append]
  simp [BatchEntry.handledFor]

theorem handled_handling_of_ne {k k' : Guid} (h : k' ≠ k) {log : List BatchEntry} {c : Call}
    {a : c.Ans} : handled k (log ++ [⟨.handling k' c, a⟩]) = handled k log := by
  rw [handled_append]
  simp [BatchEntry.handledFor, h]

/-- The calls a batch makes in the handling of message `k`. -/
def BatchCall.Concerns (k : Guid) : BatchCall → Prop
  | .handling messageId c => messageId = k ∧ c.Concerns k
  | _ => False

/-- The reader threw when it was asked for the subscriptions of a message with this key. -/
def ReaderThrew (key : CacheKey) (e : Exn) (log : List BatchEntry) : Prop :=
  ∃ message : OutboxMessage, message.cacheKey = key ∧
    (⟨.getForMessage message, .error e⟩ : BatchEntry) ∈ log

/-- Two runs of a batch that look the same to the messages that are kept; the second one may lack others
and be behind in time, and the reader throws in it only what it throws in the first. -/
structure BatchSession.Alike (keep : Guid → Bool) (x y : BatchSession) : Prop where
  db : Database.Alike keep x.host.db y.host.db
  now : y.host.db.now ≤ x.host.db.now
  handled : ∀ k, keep k = true → handled k y.log = handled k x.log
  asked : ∀ key e, ReaderThrew key e y.log → ReaderThrew key e x.log

namespace BatchSession

variable {dep : Deployment} {options : OutboxOptions} {reader : SubscriptionReader}
variable {keep : Guid → Bool} {x x' y : BatchSession}

theorem Alike.refl (keep : Guid → Bool) (x : BatchSession) : Alike keep x x :=
  ⟨Database.Alike.refl keep x.host.db, le_rfl, fun _ _ => rfl, fun _ _ => id⟩

/-- A call that is not to the reader. -/
theorem readerThrew_handling {key : CacheKey} {e : Exn} {log : List BatchEntry} {k : Guid} {c : Call}
    {a : c.Ans} :
    ReaderThrew key e (log ++ [⟨.handling k c, a⟩]) ↔ ReaderThrew key e log := by
  refine exists_congr fun message => and_congr_right fun _ => ?_
  rw [List.mem_append, List.mem_singleton]
  refine ⟨fun h => h.elim id fun heq => ?_, .inl⟩
  cases heq

/-- A call for a kept message can be made in the other run too. -/
theorem Exec.replay {k : Guid} {c : Call} {a : c.Ans}
    (hexec : Exec dep options reader (BatchCall.handling k c) x a x') (h : Alike keep x y)
    (hk : keep k = true) (hc : c.Concerns k) :
    ∃ y', Exec dep options reader (BatchCall.handling k c) y a y' ∧ Alike keep x' y' := by
  obtain ⟨hhost, hlog⟩ := hexec
  obtain ⟨now, db, hnow, hdb, hhost'⟩ := Host.exec_handling_iff.mp hhost
  have hdb₀ : Database.Alike keep { x.host.db with now := now } { y.host.db with now := now } :=
    ⟨h.db.messages, h.db.attempts, h.db.fewer⟩
  obtain ⟨db', hdb', hlike, hsame⟩ := hdb.replay hdb₀ rfl hk hc
  have hlater : y.host.db.now ≤ now := h.now.trans hnow
  refine ⟨⟨{ y.host with db := db' }, y.log ++ [⟨.handling k c, a⟩]⟩,
    ⟨Host.exec_handling_iff.mpr ⟨now, db', hlater, hdb', rfl⟩, rfl⟩, ?_, ?_, ?_, ?_⟩
  · rw [hhost']
    exact hlike
  · rw [hhost']
    exact hsame.le
  · intro k' hk'
    rw [hlog]
    by_cases heq : k = k'
    · subst heq
      rw [handled_handling, handled_handling, h.handled k hk']
    · rw [handled_handling_of_ne heq, handled_handling_of_ne heq, h.handled k' hk']
  · intro key e hthrew
    rw [hlog, readerThrew_handling]
    exact h.asked key e (readerThrew_handling.mp hthrew)

/-- A call for another message does not show. -/
theorem Exec.absorb {k : Guid} {c : Call} {a : c.Ans}
    (hexec : Exec dep options reader (BatchCall.handling k c) x a x') (h : Alike keep x y)
    (hk : keep k = false) (hc : c.Concerns k) : Alike keep x' y := by
  obtain ⟨hhost, hlog⟩ := hexec
  obtain ⟨now, db, hnow, hdb, hhost'⟩ := Host.exec_handling_iff.mp hhost
  have hchange := hdb.change
  have hdb₀ : Database.Alike keep { x.host.db with now := now } y.host.db :=
    ⟨h.db.messages, h.db.attempts, h.db.fewer⟩
  refine ⟨?_, ?_, fun k' hk' => ?_, fun key e hthrew => ?_⟩
  · rw [hhost']
    exact hchange.absorb hdb₀ hk hc
  · have hsame : db.now = now := hchange.now
    rw [hhost']
    show y.host.db.now ≤ db.now
    rw [hsame]
    exact h.now.trans hnow
  · have hne : k ≠ k' := by
      rintro rfl
      rw [hk] at hk'
      cases hk'
    rw [hlog, handled_handling_of_ne hne, h.handled k' hk']
  · rw [hlog, readerThrew_handling]
    exact h.asked key e hthrew

/-- The reader can be asked in the other run too. -/
theorem Exec.askAgain {message : OutboxMessage} {a : (BatchCall.getForMessage message).Ans}
    (hexec : Exec dep options reader (BatchCall.getForMessage message) x a x') (h : Alike keep x y) :
    ∃ y', Exec dep options reader (BatchCall.getForMessage message) y a y' ∧ Alike keep x' y' := by
  obtain ⟨hhost, hlog⟩ := hexec
  obtain ⟨now, hnow, hhost', hreturns⟩ := Host.exec_getForMessage_iff.mp hhost
  have hagain : Host.Exec dep options reader (.getForMessage message) y.host a (y.host.at_ now) :=
    Host.exec_getForMessage_iff.mpr ⟨now, h.now.trans hnow, rfl, hreturns⟩
  refine ⟨⟨y.host.at_ now, y.log ++ [⟨.getForMessage message, a⟩]⟩, ⟨hagain, rfl⟩, ?_, ?_, ?_, ?_⟩
  · rw [hhost']
    exact ⟨h.db.messages, h.db.attempts, h.db.fewer⟩
  · rw [hhost']
    exact le_rfl
  · intro k hk
    have hsame : ∀ log, OutboxNet.handled k (log ++ [⟨.getForMessage message, a⟩]) =
        OutboxNet.handled k log := fun log => handled_append_of_none rfl
    rw [hlog, hsame, hsame, h.handled k hk]
  · rintro key e ⟨message', hkey, hmem⟩
    rw [hlog]
    rcases List.mem_append.mp hmem with hmem | hmem
    · obtain ⟨message'', hkey', hmem'⟩ := h.asked key e ⟨message', hkey, hmem⟩
      exact ⟨message'', hkey', List.mem_append_left _ hmem'⟩
    · exact ⟨message', hkey, List.mem_append_right _ hmem⟩

/-- The reader may be asked once more in the other run, unless it throws something new. -/
theorem Alike.ask (h : Alike keep x y) {message : OutboxMessage}
    {a : (BatchCall.getForMessage message).Ans}
    (ha : ∀ e, a = Except.error e → ReaderThrew message.cacheKey e x.log) :
    Alike keep x ⟨y.host, y.log ++ [⟨.getForMessage message, a⟩]⟩ where
  db := h.db
  now := h.now
  handled k hk := by
    have hsame : OutboxNet.handled k (y.log ++ [⟨.getForMessage message, a⟩]) =
        OutboxNet.handled k y.log := handled_append_of_none rfl
    rw [hsame, h.handled k hk]
  asked key e hthrew := by
    obtain ⟨message', hkey, hmem⟩ := hthrew
    rcases List.mem_append.mp hmem with hmem | hmem
    · exact h.asked key e ⟨message', hkey, hmem⟩
    · cases List.mem_singleton.mp hmem
      exact hkey ▸ ha e rfl

/-- What the reader is asked in the first run does not matter to the other one. -/
theorem Exec.askedFirst {message : OutboxMessage} {a : (BatchCall.getForMessage message).Ans}
    (hexec : Exec dep options reader (BatchCall.getForMessage message) x a x') (h : Alike keep x y) :
    Alike keep x' y := by
  obtain ⟨hhost, hlog⟩ := hexec
  obtain ⟨now, hnow, hhost', -⟩ := Host.exec_getForMessage_iff.mp hhost
  refine ⟨?_, ?_, fun k hk => ?_, fun key e hthrew => ?_⟩
  · rw [hhost']
    exact ⟨h.db.messages, h.db.attempts, h.db.fewer⟩
  · rw [hhost']
    exact h.now.trans hnow
  · have hsame : OutboxNet.handled k (x.log ++ [⟨.getForMessage message, a⟩]) =
        OutboxNet.handled k x.log := handled_append_of_none rfl
    rw [hlog, hsame, h.handled k hk]
  · obtain ⟨message', hkey, hmem⟩ := h.asked key e hthrew
    rw [hlog]
    exact ⟨message', hkey, List.mem_append_left _ hmem⟩

/-- A call for a kept message, or to the reader. -/
def Replayable (keep : Guid → Bool) (c : BatchCall) : Prop :=
  (∃ message, c = .getForMessage message) ∨ ∃ k, keep k = true ∧ c.Concerns k

/-- The handling of a kept message is replayable. -/
theorem replayable_handling {α : Type} {k : Guid} (hk : keep k = true) {x : Async α}
    (h : x.run.Only (Call.Concerns k)) :
    (BatchAsync.handling k x).run.Only (Replayable keep) :=
  Prog.Only.mapCalls (fun _ hc => .inr ⟨k, hk, rfl, hc⟩) h

/-- A program that concerns kept messages runs in the other run too. -/
theorem Alike.exec_replay {α : Type} {q : Prog BatchCall BatchCall.Ans α} {r : α}
    (hexec : Prog.Exec (Exec dep options reader) q x r x') (honly : q.Only (Replayable keep))
    (h : Alike keep x y) :
    ∃ y', Prog.Exec (Exec dep options reader) q y r y' ∧ Alike keep x' y' := by
  induction hexec generalizing y with
  | ret a x => exact ⟨y, .ret a y, h⟩
  | @call c f x x₁ x₂ a r hcall _ ih =>
      have hone : ∃ y₁, Exec dep options reader c y a y₁ ∧ Alike keep x₁ y₁ := by
        rcases honly.1 with ⟨message, rfl⟩ | ⟨k, hk, hc⟩
        · exact Exec.askAgain hcall h
        · cases c with
          | handling messageId c =>
              obtain ⟨rfl, hc⟩ := hc
              exact Exec.replay hcall h hk hc
          | _ => exact hc.elim
      obtain ⟨y₁, hcall', h₁⟩ := hone
      obtain ⟨y', hrest, h'⟩ := ih (honly.2 a) h₁
      exact ⟨y', .call hcall' hrest, h'⟩

/-- What a program writes down are its own calls. -/
theorem exec_log {α : Type} {P : BatchCall → Prop} {q : Prog BatchCall BatchCall.Ans α} {r : α}
    (hexec : Prog.Exec (Exec dep options reader) q x r x') (honly : q.Only P) :
    ∃ new, x'.log = x.log ++ new ∧ ∀ entry ∈ new, P entry.call := by
  induction hexec with
  | ret a x => exact ⟨[], (List.append_nil _).symm, fun entry h => by cases h⟩
  | @call c f x x₁ x₂ a r hcall _ ih =>
      obtain ⟨new, hnew, hP⟩ := ih (honly.2 a)
      refine ⟨⟨c, a⟩ :: new, ?_, ?_⟩
      · rw [hnew, hcall.2, List.append_assoc]
        rfl
      · rintro entry (_ | ⟨_, hmem⟩)
        · exact honly.1
        · exact hP entry hmem

/-- A program that does not handle message `k` leaves its calls alone. -/
theorem handled_of_exec {α : Type} {k : Guid} {q : Prog BatchCall BatchCall.Ans α} {r : α}
    (hexec : Prog.Exec (Exec dep options reader) q x r x')
    (honly : q.Only fun c => ∀ c', c ≠ .handling k c') :
    OutboxNet.handled k x'.log = OutboxNet.handled k x.log := by
  obtain ⟨new, hnew, hP⟩ := exec_log hexec honly
  have hnone : OutboxNet.handled k new = [] := by
    refine List.filterMap_eq_nil_iff.mpr fun entry hmem => ?_
    obtain ⟨c, a⟩ := entry
    cases c with
    | handling messageId c =>
        have hne : messageId ≠ k := by
          rintro rfl
          exact hP _ hmem c rfl
        simp [BatchEntry.handledFor, hne]
    | _ => rfl
  rw [hnew]
  unfold OutboxNet.handled at hnone ⊢
  rw [List.filterMap_append, hnone, List.append_nil]

/-- **The handling of messages can be erased.** -/
theorem erasable (dep : Deployment) (options : OutboxOptions) (reader : SubscriptionReader)
    (keep : Guid → Bool) : Parallel.Erasable (Exec dep options reader)
      (fun message : OutboxMessage => keep message.id)
      (fun message => BatchCall.Concerns message.id) (Alike keep) where
  replay message c x a x' y hk hc h hexec := by
    cases c with
    | handling messageId c =>
        obtain ⟨rfl, hc⟩ := hc
        exact Exec.replay hexec h hk hc
    | _ => exact hc.elim
  absorb message c x a x' y hk hc h hexec := by
    cases c with
    | handling messageId c =>
        obtain ⟨rfl, hc⟩ := hc
        exact Exec.absorb hexec h hk hc
    | _ => exact hc.elim

end BatchSession

/-! ## What is done for a message is a run of its own program -/

/-- Every answer is possible, and every call is written down with its answer. -/
def Call.Recorded (c : Call) (l : List Entry) (a : c.Ans) (l' : List Entry) : Prop :=
  l' = l ++ [⟨c, a⟩]

/-- A recorded run adds to its log. -/
theorem Call.Recorded.grows {α : Type} {p : Prog Call Call.Ans α} {l l' : List Entry} {r : α}
    (h : Prog.Exec Call.Recorded p l r l') : ∃ new, l' = l ++ new := by
  induction h with
  | ret a l => exact ⟨[], (List.append_nil l).symm⟩
  | @call c k l l₁ l₂ a r hcall _ ih =>
      obtain ⟨new, hnew⟩ := ih
      refine ⟨⟨c, a⟩ :: new, ?_⟩
      rw [hnew, hcall, List.append_assoc]
      rfl

namespace Pipeline

variable {dep : Deployment} {options : OutboxOptions} {reader : SubscriptionReader}

/-- One method handling message `k`, in a batch. -/
theorem recorded_of_handling {α : Type} {k : Guid} {q : Prog Call Call.Ans α} {x x' : BatchSession}
    {r : α} (h : Prog.Exec (BatchSession.Exec dep options reader)
      (q.mapCalls (BatchCall.handling k) fun _ a => a) x r x') :
    Prog.Exec Call.Recorded q (handled k x.log) r (handled k x'.log) := by
  induction q generalizing x with
  | ret a =>
      obtain ⟨rfl, rfl⟩ := Prog.exec_ret_iff.mp h
      exact .ret _ _
  | call c f ih =>
      obtain ⟨a, x₁, hcall, hrest⟩ := Prog.exec_call_iff.mp h
      have hlog : handled k x₁.log = handled k x.log ++ [⟨c, a⟩] := by
        rw [hcall.2]
        exact handled_handling
      exact .call hlog (ih a hrest)

/-- A program that handles message `k`, as the body of a loop. -/
def threadOf (k : Guid) (q : Prog Call Call.Ans (Except Exn Unit)) :
    Parallel.Body BatchCall BatchCall.Ans Unit Exn :=
  q.mapCalls (fun c => Parallel.Local.ext (BatchCall.handling k c)) fun _ a => a

theorem threadOf_only {k : Guid} {q : Prog Call Call.Ans (Except Exn Unit)}
    (h : q.Only (Call.Concerns k)) :
    (threadOf k q).Only (Parallel.OnCalls (BatchCall.Concerns k)) :=
  h.mapCalls fun _ hc => ⟨rfl, hc⟩

/-- In a running loop every thread is what is left of the program of its message, once that has been
given the answers in the log; a message that has not been started has no calls in the log. -/
structure Tracked (messages : List OutboxMessage)
    (program : OutboxMessage → Prog Call Call.Ans (Except Exn Unit))
    (c : Parallel.Config BatchCall BatchCall.Ans Unit Exn BatchSession) : Prop where
  started : ∀ (i : ℕ) message b, messages[i]? = some message → c.threads[i]? = some b →
    ∃ q, b = threadOf message.id q ∧ ∀ r l,
      Prog.Exec Call.Recorded q (handled message.id c.state.log) r l →
        Prog.Exec Call.Recorded (program message) [] r l
  pending : ∀ (i : ℕ) message, messages[i]? = some message → c.threads.length ≤ i →
    handled message.id c.state.log = []
  bound : c.threads.length ≤ messages.length

variable {messages : List OutboxMessage}
variable {program : OutboxMessage → Prog Call Call.Ans (Except Exn Unit)} {limit : Option ℕ}
variable {c c' : Parallel.Config BatchCall BatchCall.Ans Unit Exn BatchSession}

/-- The messages at two positions have different ids. -/
theorem id_ne_of_ne (hnodup : (messages.map OutboxMessage.id).Nodup) {i j : ℕ}
    {message message' : OutboxMessage} (hi : messages[i]? = some message)
    (hj : messages[j]? = some message') (hne : i ≠ j) : message.id ≠ message'.id := by
  intro hid
  have hget : ∀ {l : ℕ} {m : OutboxMessage}, messages[l]? = some m →
      (messages.map OutboxMessage.id)[l]? = some m.id := fun hm => by simp [hm]
  refine hne ((List.getElem?_inj (List.getElem?_eq_some_iff.mp (hget hi)).1 hnodup).mp ?_)
  rw [hget hi, hget hj, hid]

/-- The thread that moves, as a program. -/
theorem threadOf_call {k : Guid} {q : Prog Call Call.Ans (Except Exn Unit)}
    {l : Parallel.Local BatchCall Unit} {f : l.Ans BatchCall.Ans → Parallel.Body BatchCall
      BatchCall.Ans Unit Exn} (h : .call l f = threadOf k q) :
    ∃ c g, q = .call c g ∧ l = .ext (.handling k c) ∧ HEq f fun a : c.Ans => threadOf k (g a) := by
  cases q with
  | ret r => cases h
  | call c g =>
      cases h
      exact ⟨c, g, rfl, rfl, HEq.rfl⟩

theorem Tracked.item (h : Tracked messages program c) {i : ℕ}
    {b : Parallel.Body BatchCall BatchCall.Ans Unit Exn} (hi : c.threads[i]? = some b) :
    ∃ message, messages[i]? = some message :=
  ⟨_, List.getElem?_eq_getElem ((List.getElem?_eq_some_iff.mp hi).1.trans_le h.bound)⟩

/-- The step. -/
theorem Tracked.move (hnodup : (messages.map OutboxMessage.id).Nodup)
    (h : Tracked messages program c)
    (hmove : Parallel.Move (BatchSession.Exec dep options reader) limit messages
      (fun message => threadOf message.id (program message)) c c') :
    Tracked messages program c' := by
  cases hmove with
  | @start message _ hnext _ =>
      refine ⟨fun i message' b hi hb => ?_, fun i message' hi hlen => ?_, ?_⟩
      · rcases Parallel.getElem?_concat_cases hb with hb | ⟨rfl, rfl⟩
        · exact h.started i message' b hi hb
        · rw [hnext] at hi
          cases hi
          refine ⟨program message, rfl, fun r l hrest => ?_⟩
          rwa [h.pending _ message hnext le_rfl] at hrest
      · rw [List.length_append] at hlen
        exact h.pending i message' hi (by omega)
      · rw [List.length_append]
        exact (List.getElem?_eq_some_iff.mp hnext).1
  | @upd i f k _ hi =>
      obtain ⟨message, hmessage⟩ := h.item hi
      obtain ⟨q, hq, -⟩ := h.started i _ _ hmessage hi
      -- the thread of a message updates nothing that is shared
      obtain ⟨_, _, -, hl, -⟩ := threadOf_call hq
      cases hl
  | @ext i call k a x' _ hi hcall =>
      obtain ⟨message, hmessage⟩ := h.item hi
      obtain ⟨q, hq, hleft⟩ := h.started i _ _ hmessage hi
      obtain ⟨c₀, g, rfl, hl, hk⟩ := threadOf_call hq
      cases hl
      cases hk
      have hself : handled message.id x'.log = handled message.id c.state.log ++ [⟨c₀, a⟩] := by
        rw [hcall.2]
        exact handled_handling
      have hother : ∀ (j : ℕ) message', messages[j]? = some message' → i ≠ j →
          handled message'.id x'.log = handled message'.id c.state.log := by
        intro j message' hj hij
        rw [hcall.2]
        exact handled_handling_of_ne (id_ne_of_ne hnodup hmessage hj hij)
      refine ⟨fun j message' b hj hb => ?_, fun j message' hj hlen => ?_, ?_⟩
      · rw [List.getElem?_set] at hb
        split at hb
        · next hij =>
            subst hij
            split at hb
            · cases hb
              rw [hmessage] at hj
              cases hj
              refine ⟨g a, rfl, fun r l hrest => hleft r l ?_⟩
              rw [hself] at hrest
              exact .call rfl hrest
            · cases hb
        · next hij =>
            obtain ⟨q', hq', hleft'⟩ := h.started j message' b hj hb
            refine ⟨q', hq', fun r l hrest => hleft' r l ?_⟩
            rwa [hother j message' hj hij] at hrest
      · rw [List.length_set] at hlen
        have hij : i ≠ j := by
          have hlt := (List.getElem?_eq_some_iff.mp hi).1
          omega
        rw [hother j message' hj hij]
        exact h.pending j message' hj hlen
      · rw [List.length_set]
        exact h.bound

/-- The run. -/
theorem Tracked.reaches (hnodup : (messages.map OutboxMessage.id).Nodup)
    (h : Tracked messages program c)
    (hreach : Parallel.Reaches (BatchSession.Exec dep options reader) limit messages
      (fun message => threadOf message.id (program message)) c c') :
    Tracked messages program c' := by
  induction hreach with
  | refl => exact h
  | tail _ hmove ih => exact ih.move hnodup hmove

/-- **The thread of a message that has ended has run the message's program**, with the calls in the log. -/
theorem Tracked.ended (h : Tracked messages program c) {i : ℕ} {message : OutboxMessage}
    (hi : messages[i]? = some message) {r : Except Exn Unit}
    (hr : c.threads[i]? = some (.ret r)) :
    Prog.Exec Call.Recorded (program message) [] r (handled message.id c.state.log) := by
  obtain ⟨q, hq, hleft⟩ := h.started i message _ hi hr
  cases q with
  | ret r' =>
      cases hq
      exact hleft r _ (.ret _ _)
  | call c g => cases hq

end Pipeline

end OutboxNet
