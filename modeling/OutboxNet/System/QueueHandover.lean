import OutboxNet.Delivery.AzureStorageQueue
import OutboxNet.System.Duplicates
import OutboxNet.System.ExactlyOnce

/-!
# Handing messages to the queue

In queue-mediated mode a round publishes its message to the queue and then marks it as processed.  A
message that is `Delivered` has been handed over, whatever the rounds, their crashes and the failures of the
database and the queue were; and no acquisition publishes it twice (`delivered_means_handed_over`).

So a message can come to the queue more than once, but not without a reason: if every round is done before
its lock expires and the database does not fail, each message is published once, and once more for each
publish that threw, at most (`timely_rounds_hand_over_once`).  A publish that threw may have left the message
in the queue.
-/

set_option autoImplicit false

namespace OutboxNet

variable {dep : Deployment}

/-! ## The stages of a round -/

/-- Where a queue-mediated round is: before its publish, between its publish and its status update, in the
failure handler, or at its end. -/
inductive Sending : Type
  | start | sent | failing | closed
deriving DecidableEq, Repr

namespace Sending

/-- Where a round is after one more call. -/
def after : Sending → Entry → Sending
  | .start, ⟨.publish _, .ok _⟩ => .sent
  | .start, ⟨.publish _, .error _⟩ => .failing
  | .sent, ⟨.markAsProcessed _ _, .ok _⟩ => .closed
  | .sent, ⟨.markAsProcessed _ _, .error _⟩ => .failing
  | .failing, ⟨.incrementRetry _ _ _ _, _⟩ => .closed
  | .failing, ⟨.markAsDeadLettered _ _, _⟩ => .closed
  | s, _ => s

/-- The calls a queue-mediated round can make. -/
def Allows (message : OutboxMessage) (lockedBy : Text) : Sending → Call → Prop
  | _, .addMetric _ _ => True
  | .start, .publish m => m = message
  | .sent, .markAsProcessed messageId by_ => messageId = message.id ∧ by_ = lockedBy
  | .failing, .nextDouble => True
  | .failing, .utcNow => True
  | .failing, .incrementRetry messageId by_ _ _ => messageId = message.id ∧ by_ = lockedBy
  | .failing, .markAsDeadLettered messageId by_ => messageId = message.id ∧ by_ = lockedBy
  | _, _ => False

/-- The protocol of a queue-mediated round, in its order. -/
def Trans (message : OutboxMessage) (lockedBy : Text) (c : Call) (s : Sending) (a : c.Ans)
    (s' : Sending) : Prop :=
  s.Allows message lockedBy c ∧ s' = s.after ⟨c, a⟩

/-- A round that returns has no publish or status update before it. -/
def Ends (_ : Except Exn Unit) (s : Sending) : Prop := s = .failing ∨ s = .closed

/-- What is left of a queue-mediated round. -/
abbrev Sends {α : Type} (message : OutboxMessage) (lockedBy : Text) (Q : α → Sending → Prop)
    (x : Prog Call Call.Ans α) (s : Sending) : Prop :=
  x.Conforms (Trans message lockedBy) Q s

variable {message : OutboxMessage} {lockedBy : Text} {s : Sending}

theorem after_addMetric (metric : Metric) (eventType : Text) (s : Sending) :
    s.after ⟨.addMetric metric eventType, ()⟩ = s := by
  cases s <;> rfl

theorem sends_addMetric (metric : Metric) (eventType : Text) (s : Sending) :
    Sends message lockedBy (fun _ s' => s' = s) (Async.addMetric metric eventType).run s := by
  refine fun _ => ⟨s, ⟨?_, (after_addMetric metric eventType s).symm⟩, rfl⟩
  cases s <;> trivial

/-- A write-back in the failure handler, with its metric when it returns true. -/
theorem sends_counted {x : Async Bool} (metric : Metric) (eventType : Text)
    (hx : Sends message lockedBy (fun _ s' => s' = .closed) x.run s) :
    Sends message lockedBy Ends
      (do if ← x then Async.addMetric metric eventType : Async Unit).run s := by
  refine Prog.Conforms.bindThrowing hx (fun b s' hs' => ?_) fun _ s' hs' => .inr hs'
  subst hs'
  cases b
  · exact .inr rfl
  · exact (sends_addMetric metric eventType .closed).mono fun _ _ hs' => .inr hs'

/-- The failure handler. -/
theorem sends_handleMessageFailureAsync (p : Pipeline) (error : Option Text) :
    Sends message lockedBy Ends (p.handleMessageFailureAsync message lockedBy error).run .failing := by
  rw [Pipeline.handleMessageFailureAsync_run]
  refine fun draw => ⟨.failing, ⟨trivial, rfl⟩, ?_⟩
  beta_reduce
  cases p.retryPolicy.getNextDelay message.retryCount draw with
  | error e => exact .inl rfl
  | ok delay =>
      cases delay with
      | none =>
          apply sends_counted
          exact fun _ => ⟨.closed, ⟨⟨rfl, rfl⟩, rfl⟩, rfl⟩
      | some delay =>
          refine fun utcNow => ⟨.failing, ⟨trivial, rfl⟩, ?_⟩
          beta_reduce
          cases addTime utcNow delay with
          | error e => exact .inl rfl
          | ok nextRetryAt =>
              apply sends_counted
              exact fun _ => ⟨.closed, ⟨⟨rfl, rfl⟩, rfl⟩, rfl⟩

/-- What a part of the `try` block leaves: the round at `next`, or an exception for the failure handler. -/
def Leaves {α : Type} (next : Sending) (r : Except Exn α) (s : Sending) : Prop :=
  match r with
  | .ok _ => s = next
  | .error _ => s = .failing

/-- The status update after a publish. -/
theorem sends_markAsProcessed : Sends message lockedBy (Leaves .closed)
    (do if ← Async.markAsProcessed message.id lockedBy then
          Async.addMetric .messagesProcessed message.eventType : Async Unit).run .sent := by
  have hmark : Sends message lockedBy (Leaves .closed)
      (Async.markAsProcessed message.id lockedBy).run .sent := by
    rintro (e | b)
    · exact ⟨.failing, ⟨⟨rfl, rfl⟩, rfl⟩, rfl⟩
    · exact ⟨.closed, ⟨⟨rfl, rfl⟩, rfl⟩, rfl⟩
  refine Prog.Conforms.bindThrowing hmark (fun b s' hs' => ?_) fun _ s' hs' => hs'
  subst hs'
  cases b
  · exact rfl
  · exact fun _ => ⟨.closed, ⟨trivial, rfl⟩, rfl⟩

/-- **A queue-mediated round keeps the order**: publish, status update, or the failure handler. -/
theorem sends_processQueuedMessageAsync (p : Pipeline) :
    Sends message lockedBy Ends (p.processQueuedMessageAsync lockedBy message).run .start := by
  unfold Pipeline.processQueuedMessageAsync
  have hpublishing : Sends message lockedBy (Leaves .closed) (do
      Async.publish message
      if ← Async.markAsProcessed message.id lockedBy then
        Async.addMetric .messagesProcessed message.eventType : Async Unit).run .start := by
    have hpublish : Sends message lockedBy (Leaves .sent) (Async.publish message).run .start := by
      rintro (e | u)
      · exact ⟨.failing, ⟨rfl, rfl⟩, rfl⟩
      · exact ⟨.sent, ⟨rfl, rfl⟩, rfl⟩
    refine Prog.Conforms.bindThrowing hpublish (fun _ s' hs' => ?_) fun _ s' hs' => hs'
    subst hs'
    exact sends_markAsProcessed
  have hcaught : Sends message lockedBy (fun r s' => ∃ r', r = .ok r' ∧ Leaves .closed r' s')
      (Async.catchingAll (do
        Async.publish message
        if ← Async.markAsProcessed message.id lockedBy then
          Async.addMetric .messagesProcessed message.eventType : Async Unit)).run .start := by
    refine Prog.Conforms.catching hpublishing (fun _ s' hs' => ⟨_, rfl, hs'⟩)
      (fun _ s' hs' _ => ⟨_, rfl, hs'⟩) fun _ _ _ hthrough => ?_
    cases hthrough
  refine Prog.Conforms.bindThrowing hcaught ?_ ?_
  · rintro (e | u) s' ⟨_, ⟨⟩, hs'⟩
    · cases hs'
      exact sends_handleMessageFailureAsync p (some e.message)
    · exact .inr hs'
  · rintro e s' ⟨_, ⟨⟩, -⟩

/-- A closed round makes no store call any more. -/
theorem quiescent_of_closed {prog : Prog Call Call.Ans (Except Exn Unit)}
    (h : Sends message lockedBy Ends prog .closed) : Quiescent prog := by
  induction prog with
  | ret r => trivial
  | call c k ih =>
      have hallows : Allows message lockedBy .closed c := by
        obtain ⟨a, -⟩ := c.exists_fine
        obtain ⟨s', ⟨hallows, -⟩, -⟩ := h a
        exact hallows
      cases c with
      | addMetric =>
          refine ⟨nofun, fun a => ih a ?_⟩
          obtain ⟨s', ⟨-, rfl⟩, hk⟩ := h a
          exact hk
      | _ => exact absurd hallows id

/-- A round that has not yet come to its status update has it before it. -/
theorem not_quiescent {prog : Prog Call Call.Ans (Except Exn Unit)}
    (h : Sends message lockedBy Ends prog s) (hs : s = .start ∨ s = .sent) : ¬ Quiescent prog := by
  intro hquiet
  induction prog generalizing s with
  | ret r =>
      rcases h with rfl | rfl
      · rcases hs with hs | hs <;> cases hs
      · rcases hs with hs | hs <;> cases hs
  | call c k ih =>
      obtain ⟨a, -⟩ := c.exists_fine
      obtain ⟨s', ⟨hallows, -⟩, -⟩ := h a
      rcases hs with rfl | rfl
      · cases c with
        | publish m =>
            -- the queue may take the message
            obtain ⟨s', ⟨-, rfl⟩, hk⟩ := h (Except.ok ())
            exact ih _ hk (.inr rfl) (hquiet.2 _)
        | addMetric =>
            obtain ⟨s', ⟨-, rfl⟩, hk⟩ := h ()
            exact ih _ hk (.inl rfl) (hquiet.2 _)
        | _ => exact hallows
      · cases c with
        | markAsProcessed => exact hquiet.1 rfl
        | addMetric =>
            obtain ⟨s', ⟨-, rfl⟩, hk⟩ := h ()
            exact ih _ hk (.inr rfl) (hquiet.2 _)
        | _ => exact hallows

end Sending

/-! ## What a round has handed over -/

/-- Whether an entry is a publish of message `k`. -/
def Entry.publishes (k : Guid) : Entry → Bool
  | ⟨.publish message, _⟩ => message.id = k
  | _ => false

/-- Whether it is one that has returned. -/
def Entry.handsOver (k : Guid) : Entry → Bool
  | ⟨.publish message, .ok _⟩ => message.id = k
  | _ => false

/-- Whether it is one that threw. -/
def Entry.publishThrew (k : Guid) : Entry → Bool
  | ⟨.publish message, .error _⟩ => message.id = k
  | _ => false

theorem Entry.handsOver_iff {k : Guid} {e : Entry} : e.handsOver k = true ↔
    ∃ message, e = ⟨.publish message, Except.ok ()⟩ ∧ message.id = k := by
  constructor
  · intro h
    unfold Entry.handsOver at h
    split at h
    · next message _ => exact ⟨message, rfl, of_decide_eq_true h⟩
    · cases h
  · rintro ⟨message, rfl, rfl⟩
    exact decide_eq_true rfl

/-- An entry that is no publish publishes nothing. -/
theorem Entry.publishes_eq_false {k : Guid} {e : Entry} (h : ∀ m, e.call ≠ .publish m) :
    e.publishes k = false := by
  unfold Entry.publishes
  split
  · next message _ => exact absurd rfl (h message)
  · rfl

/-- A publish has returned or thrown. -/
theorem countP_publishes (entries : List Entry) (k : Guid) : entries.countP (·.publishes k) =
    entries.countP (·.handsOver k) + entries.countP (·.publishThrew k) := by
  induction entries with
  | nil => rfl
  | cons e entries ih =>
      have he : (if e.publishes k = true then 1 else 0) =
          (if e.handsOver k = true then 1 else 0) + if e.publishThrew k = true then 1 else 0 := by
        obtain ⟨c, a⟩ := e
        cases c with
        | publish message => cases a <;> simp [Entry.publishes, Entry.handsOver, Entry.publishThrew]
        | _ => rfl
      simp only [List.countP_cons, ih, he]
      omega

/-- What a round on `message` has published by its stage: nothing before its publish, and its own message
once at most. -/
def Sending.Handed (message : OutboxMessage) (entries : List Entry) : Sending → Prop
  | .start => ∀ k, entries.countP (·.publishes k) = 0
  | .sent => (⟨.publish message, Except.ok ()⟩ : Entry) ∈ entries ∧
      ∀ k, entries.countP (·.publishes k) ≤ if message.id = k then 1 else 0
  | _ => ∀ k, entries.countP (·.publishes k) ≤ if message.id = k then 1 else 0

namespace Sending.Handed

variable {message : OutboxMessage} {lockedBy : Text} {s : Sending} {entries : List Entry}

theorem countP_le (h : s.Handed message entries) (k : Guid) :
    entries.countP (·.publishes k) ≤ if message.id = k then 1 else 0 := by
  cases s with
  | start => exact (le_of_eq (h k)).trans (Nat.zero_le _)
  | sent => exact h.2 k
  | failing => exact h k
  | closed => exact h k

/-- An entry that is no publish adds nothing. -/
theorem countP_append {e : Entry} (h : ∀ m, e.call ≠ .publish m) (k : Guid) :
    (entries ++ [e]).countP (·.publishes k) = entries.countP (·.publishes k) := by
  rw [List.countP_append, List.countP_singleton, Entry.publishes_eq_false h]
  rfl

/-- The step lemma of a round. -/
theorem trans (h : s.Handed message entries) {e : Entry} (hallows : s.Allows message lockedBy e.call) :
    (s.after e).Handed message (entries ++ [e]) := by
  obtain ⟨c, a⟩ := e
  -- a call that is no publish adds nothing
  have hlater : (∀ m, c ≠ .publish m) → ∀ k,
      (entries ++ [(⟨c, a⟩ : Entry)]).countP (·.publishes k) ≤ if message.id = k then 1 else 0 := by
    intro hne k
    rw [countP_append hne]
    exact h.countP_le k
  cases c with
  | addMetric metric eventType =>
      have hne : ∀ m, Call.addMetric metric eventType ≠ .publish m := by
        rintro m ⟨⟩
      cases s with
      | start => exact fun k => (countP_append hne k).trans (h k)
      | sent => exact ⟨List.mem_append_left _ h.1, hlater hne⟩
      | failing => exact hlater hne
      | closed => exact hlater hne
  | publish m =>
      cases s with
      | start =>
          obtain rfl : m = message := hallows
          have honce : ∀ k, (entries ++ [(⟨.publish m, a⟩ : Entry)]).countP (·.publishes k) ≤
              if m.id = k then 1 else 0 := by
            intro k
            rw [List.countP_append, h k, List.countP_singleton, Nat.zero_add]
            simp [Entry.publishes]
          cases a with
          | error e => exact honce
          | ok u => exact ⟨List.mem_append_right _ List.mem_cons_self, honce⟩
      | _ => exact absurd hallows id
  | markAsProcessed =>
      cases s with
      | sent =>
          have hne := hlater (by rintro m ⟨⟩)
          cases a with
          | error e => exact hne
          | ok b => exact hne
      | _ => exact absurd hallows id
  | _ =>
      -- the calls of the failure handler
      cases s with
      | failing => exact hlater (by rintro m ⟨⟩)
      | _ => exact absurd hallows id

end Sending.Handed

namespace World

variable {exec : Answering} {w w' : World} {act : Action} {token : ℕ} {r : Round}
  {prog : Prog Call Call.Ans (Except Exn Unit)}

/-- Where a queue-mediated round is, by the calls it has made. -/
def sending (w : World) (token : ℕ) : Sending := (w.entriesOf token).foldl Sending.after .start

/-- How often `PublishAsync` was called for message `k`. -/
def publications (w : World) (k : Guid) : ℕ := w.log.countP fun x => x.2.publishes k

/-- How often it returned: the queue has taken the message. -/
def handovers (w : World) (k : Guid) : ℕ := w.log.countP fun x => x.2.handsOver k

/-- How often it threw: the queue may have taken the message. -/
def thrownPublications (w : World) (k : Guid) : ℕ := w.log.countP fun x => x.2.publishThrew k

theorem publications_eq (w : World) (k : Guid) :
    w.publications k = w.handovers k + w.thrownPublications k := by
  have hcount := countP_publishes (w.log.map Prod.snd) k
  rw [List.countP_map, List.countP_map, List.countP_map] at hcount
  exact hcount

/-- The acquisitions of message `k`. -/
def acquisitionsOf (w : World) (k : Guid) : Finset ℕ :=
  (Finset.range w.rounds.length).filter fun token => (w.rounds[token]?).any (·.message.id = k)

theorem Step.sending_call {entry : Entry} (hs : Step dep exec w (.call token entry) w') :
    w'.sending token = (w.sending token).after entry := by
  rw [World.sending, hs.entriesOf_call, List.foldl_append]
  rfl

theorem Step.sending (hs : Step dep exec w act w') (hact : ∀ entry, act ≠ .call token entry) :
    w'.sending token = w.sending token := by
  rw [World.sending, hs.entriesOf hact]
  rfl

/-- Every queue-mediated round keeps its order. -/
structure InOrder (w : World) : Prop where
  begun : w.Begun
  round : ∀ (token : ℕ) (r : Round) (prog : Prog Call Call.Ans (Except Exn Unit)),
    w.rounds[token]? = some r → r.work = some ⟨.queueMediated, prog⟩ →
    Sending.Sends r.message r.lockedBy Sending.Ends prog (w.sending token) ∧
      (w.sending token).Handed r.message (w.entriesOf token)

namespace InOrder

theorem initial (now : DateTimeOffset) : InOrder (initial now) where
  begun := Begun.initial now
  round := by
    intro token r prog hr
    simp [World.initial] at hr

/-- The step lemma. -/
theorem step (h : InOrder w) (hs : Step dep exec w act w') : InOrder w' where
  begun := h.begun.step hs
  round := by
    intro token r' prog' hr' hwork'
    refine hs.history (Ψ := fun p m work entries => work.plan = .queueMediated →
      Sending.Sends m p.options.instanceId Sending.Ends work.prog (entries.foldl Sending.after .start) ∧
        (entries.foldl Sending.after .start).Handed m entries) h.begun ?_ ?_ ?_ hr' hwork' rfl
    · rintro token plan - r rfl
      exact ⟨Sending.sends_processQueuedMessageAsync r.pipeline, fun _ => rfl⟩
    · intro p m plan c k a entries hround hplan
      obtain ⟨hsends, hhanded⟩ := hround hplan
      obtain ⟨s', ⟨hallows, rfl⟩, hk⟩ := hsends a
      rw [List.foldl_append]
      exact ⟨hk, hhanded.trans hallows⟩
    · rintro token r ⟨plan, prog⟩ hr hwork rfl
      exact h.round token r prog hr hwork

/-- A call of a round in a world of queue-mediated rounds. -/
theorem of_call (h : InOrder w) (hplanned : w.Planned (· = .queueMediated)) {entry : Entry}
    (hs : Step dep exec w (.call token entry) w') : ∃ r prog, w.rounds[token]? = some r ∧
      r.work = some ⟨.queueMediated, prog⟩ ∧
      (w.sending token).Allows r.message r.lockedBy entry.call := by
  cases hs with
  | @call _ r work c k a db hr hwork hprog hexec =>
      obtain ⟨plan, prog⟩ := work
      obtain rfl : plan = .queueMediated := hplanned token r _ hr hwork
      subst hprog
      obtain ⟨s', ⟨hallows, -⟩, -⟩ := (h.round token r _ hr hwork).1 a
      exact ⟨r, _, hr, hwork, hallows⟩

end InOrder

/-! ## The rows and the rounds -/

/-- The envelope of a row stays as it was published, and so do the copies that the rounds have of it. -/
def Enveloped (w : World) : Prop :=
  ∀ r ∈ w.rounds, ∀ m, w.db.messages.find? r.message.id = some m → m.envelope = r.message.envelope

theorem Enveloped.step (hexec : Sound dep exec) (h : w.Enveloped) (hs : Step dep exec w act w') :
    w'.Enveloped := by
  intro r' hmem m' hm'
  obtain ⟨token, hr'⟩ := List.mem_iff_getElem?.mp hmem
  by_cases hlt : token < w.rounds.length
  · obtain ⟨r, hr⟩ := (⟨_, List.getElem?_eq_getElem hlt⟩ : ∃ r, w.rounds[token]? = some r)
    have hr₀ := List.mem_of_getElem? hr
    obtain ⟨r'', hr'', -, hm, -⟩ := hs.round hr
    rw [hr'] at hr''
    cases hr''
    rw [hm] at hm' ⊢
    have hold := h r hr₀
    have hrow := hs.row hexec r.message.id
    rw [hm'] at hrow
    generalize w.db.messages.find? r.message.id = o at hrow hold
    cases hrow with
    | same => exact hold m' rfl
    | publish _ _ hfresh => exact absurd rfl (hfresh r hr₀)
    | @lock m => exact hold m rfl
    | @writeBack _ _ kind _ _ m => cases kind <;> exact hold m rfl
    | @release m => exact hold m rfl
  · -- a round that was not there has a copy of the row it has locked
    obtain rfl := hs.acquire_of_new hr' hlt
    rcases hs.acquire_row r'.message.id with ⟨-, hold⟩ |
      ⟨m, p, until_, token', -, -, -, -, hfind, -, hx, honly⟩
    · exact absurd (hold token _ (acquisition_eq_some hr') rfl) hlt
    · obtain rfl := honly token _ (not_lt.mp hlt) (acquisition_eq_some hr') rfl
      rw [acquisition_eq_some hr', Option.some.injEq, Prod.mk.injEq] at hx
      rw [hfind] at hm'
      cases hm'
      rw [hx.2]

/-- Every `Delivered` row has been handed over to the queue. -/
structure HandedOver (w : World) : Prop where
  planned : w.Planned (· = .queueMediated)
  order : w.InOrder
  enveloped : w.Enveloped
  delivered : ∀ m ∈ w.db.messages.rows, m.status = .delivered → ∃ token message,
    (token, (⟨.publish message, Except.ok ()⟩ : Entry)) ∈ w.log ∧ message.envelope = m.envelope

namespace HandedOver

/-- A row is marked by the round that has published it. -/
theorem marked (h : w.HandedOver) {entry : Entry} (hs : Step dep exec w (.call token entry) w')
    {messageId : Guid} {lockedBy : Text} {m : OutboxMessage}
    (hc : entry.call.writeBack? = some (.processed, messageId, lockedBy))
    (hheld : OutboxStore.heldBy dep messageId lockedBy m = true) (hm : m ∈ w.db.messages.rows) :
    ∃ message, (token, (⟨.publish message, Except.ok ()⟩ : Entry)) ∈ w.log ∧
      message.envelope = m.envelope := by
  obtain ⟨r, prog, hr, hwork, hallows⟩ := h.order.of_call h.planned hs
  obtain ⟨c, a⟩ := entry
  cases c with
  | markAsProcessed id by_ =>
      obtain ⟨rfl, rfl⟩ : id = messageId ∧ by_ = lockedBy := by cases hc; exact ⟨rfl, rfl⟩
      cases hat : w.sending token with
      | sent =>
          rw [hat] at hallows
          have hhanded := (h.order.round token r prog hr hwork).2
          rw [hat] at hhanded
          refine ⟨r.message, mem_entriesOf.mp hhanded.1, ?_⟩
          have hid : m.id = r.message.id := by
            simp only [OutboxStore.heldBy, Bool.and_eq_true, decide_eq_true_eq] at hheld
            exact hheld.1.trans hallows.1
          exact (h.enveloped r (List.mem_of_getElem? hr) m (Table.find?_eq_some_iff.mpr ⟨hm, hid⟩)).symm
      | _ =>
          rw [hat] at hallows
          exact hallows.elim
  | _ => cases hc

/-- The step lemma. -/
theorem step (hexec : Sound dep exec) (h : w.HandedOver) (hs : Step dep exec w act w')
    (hbegin : ∀ token plan, act = .begin_ token plan → plan = .queueMediated) : w'.HandedOver where
  planned := h.planned.step hs hbegin
  order := h.order.step hs
  enveloped := h.enveloped.step hexec hs
  delivered := by
    intro m' hm' hstatus
    have hold : ∀ m ∈ w.db.messages.rows, m.status = .delivered → ∃ token message,
        (token, (⟨.publish message, Except.ok ()⟩ : Entry)) ∈ w'.log ∧
          message.envelope = m.envelope := by
      intro m hm hstatus
      obtain ⟨token, message, hmem, henvelope⟩ := h.delivered m hm hstatus
      exact ⟨token, message, hs.log_mono hmem, henvelope⟩
    have hrow := hs.row hexec m'.id
    rw [Table.find?_eq_some_iff.mpr ⟨hm', rfl⟩] at hrow
    generalize ho : w.db.messages.find? m'.id = o at hrow
    cases hrow with
    | same => exact hold m' (Table.find?_mem ho) hstatus
    | publish _ hrow =>
        rw [(OutboxStore.publishedRow_fields hrow).2.1] at hstatus
        cases hstatus
    | lock => cases hstatus
    | @writeBack token entry kind messageId lockedBy m hact hc hheld =>
        subst hact
        cases kind with
        | processed =>
            obtain ⟨message, hmem, henvelope⟩ := h.marked hs hc hheld (Table.find?_mem ho)
            exact ⟨token, message, hs.log_mono hmem, henvelope⟩
        | _ => cases hstatus
    | release => cases hstatus

theorem initial (now : DateTimeOffset) : HandedOver (initial now) where
  planned := Planned.initial _ now
  order := InOrder.initial now
  enveloped := List.forall_mem_nil _
  delivered := List.forall_mem_nil _

/-- An acquisition publishes its own message, once at most. -/
theorem countP_entriesOf_le (h : w.HandedOver) (k : Guid) (token : ℕ) :
    (w.entriesOf token).countP (·.publishes k) ≤
      if (w.rounds[token]?).any (·.message.id = k) = true then 1 else 0 := by
  by_cases hpos : 0 < (w.entriesOf token).countP (·.publishes k)
  · obtain ⟨e, he, hyes⟩ := List.countP_pos_iff.mp hpos
    obtain ⟨r, hr, hwork⟩ := h.order.begun _ (mem_entriesOf.mp he)
    obtain ⟨⟨plan, prog⟩, hwork⟩ := Option.isSome_iff_exists.mp hwork
    obtain rfl : plan = .queueMediated := h.planned token r _ hr hwork
    have hle := (h.order.round token r prog hr hwork).2.countP_le k
    rw [hr]
    simpa using hle
  · omega

end HandedOver

/-- **Delivered means handed over.** Take any run of any number of workers in queue-mediated mode, with any
interleaving, crashes, purges, and failures of the database and the queue.  The queue has taken the envelope
of every message that is `Delivered`; and no message was published more often than it was acquired. -/
theorem delivered_means_handed_over {now : DateTimeOffset} {acts : List Action}
    (hrun : Run dep (Database.Exec dep) (initial now) acts w)
    (hplans : ∀ token plan, .begin_ token plan ∈ acts → plan = .queueMediated) :
    (∀ m ∈ w.db.messages.rows, m.status = .delivered → ∃ token message,
      (token, (⟨.publish message, Except.ok ()⟩ : Entry)) ∈ w.log ∧ message.envelope = m.envelope) ∧
    ∀ k, w.publications k ≤ (w.acquisitionsOf k).card := by
  have h : w.HandedOver := by
    refine hrun.invariant_of HandedOver
      (fun act => ∀ token plan, act = .begin_ token plan → plan = .queueMediated)
      (fun _ _ _ hbegin h hs => h.step sound_exec hs hbegin) ?_ (HandedOver.initial now)
    rintro act hact token plan rfl
    exact hplans token plan hact
  refine ⟨h.delivered, fun k => ?_⟩
  calc
    w.publications k =
        ∑ token ∈ Finset.range w.rounds.length, (w.entriesOf token).countP (·.publishes k) :=
      countP_log w h.order.begun _
    _ ≤ ∑ token ∈ Finset.range w.rounds.length,
          if (w.rounds[token]?).any (·.message.id = k) = true then 1 else 0 :=
      Finset.sum_le_sum fun token _ => h.countP_entriesOf_le k token
    _ = (w.acquisitionsOf k).card := by rw [acquisitionsOf, Finset.card_filter]

/-! ## Timely rounds -/

/-- A write-back of the round finds the row that it has locked: its instance name fits the column. -/
def Named (dep : Deployment) (w : World) : Prop :=
  ∀ r ∈ w.rounds, dep.sameText (nvarchar 256 r.lockedBy)
    (OutboxStore.writeBackParam dep r.lockedBy) = true

/-- A run in queue-mediated mode without faults of the database, whose rounds are timely, and their
instance names short enough, in every world it passes. -/
abbrev TimelyQueueRun (dep : Deployment) : World → List Action → World → Prop :=
  Steps fun w act w' => Step dep (Database.Effect dep) w act w' ∧
    (∀ token plan, act = .begin_ token plan → plan = .queueMediated) ∧ w'.Timely ∧ w'.Named dep

/-- A round on message `k` is between its publish and its status update. -/
def Between (w : World) (k : Guid) : Prop :=
  ∃ token r prog, w.rounds[token]? = some r ∧ r.work = some ⟨.queueMediated, prog⟩ ∧ r.message.id = k ∧
    w.sending token = .sent

/-- The row of message `k`, if it is there, is `Delivered`. -/
def Through (w : World) (k : Guid) : Prop :=
  ∀ m, w.db.messages.find? k = some m → m.status = .delivered

/-- A message that is through stays so. -/
theorem Through.step {k : Guid} (h : w.Through k) (hexec : Sound dep exec) (hs : Step dep exec w act w')
    (hok : OutboxStore.TableOk w.db.messages) (hround : ∃ r ∈ w.rounds, r.message.id = k) :
    w'.Through k := by
  intro m' hm'
  have hrow := hs.row hexec k
  rw [hm'] at hrow
  generalize ho : w.db.messages.find? k = o at hrow
  cases hrow with
  | same => exact h m' ho
  | publish _ _ hfresh =>
      obtain ⟨r, hr, hid⟩ := hround
      exact absurd hid (hfresh r hr)
  | lock _ hfree =>
      rw [h _ ho] at hfree
      rcases hfree with hfree | hfree <;> cases hfree
  | writeBack _ _ hheld =>
      have hproc := (hok.row (Table.find?_mem ho)).processing_of_heldBy hheld
      cases hproc.symm.trans (h _ ho)
  | release _ hexp =>
      rw [OutboxStore.expired, h _ ho] at hexp
      cases hexp

/-- A round that does not act stays between its publish and its status update. -/
theorem Between.of_other {token : ℕ} {r : Round} {prog : Prog Call Call.Ans (Except Exn Unit)} {k : Guid}
    (hr : w.rounds[token]? = some r) (hwork : r.work = some ⟨.queueMediated, prog⟩)
    (hid : r.message.id = k) (hat : w.sending token = .sent) (hs : Step dep exec w act w')
    (hother : ∀ entry, act ≠ .call token entry) : w'.Between k := by
  obtain ⟨r', hr', -, hm, hplan, -⟩ := hs.round hr
  obtain ⟨prog', hwork'⟩ := hplan _ hwork
  exact ⟨token, r', prog', hr', hwork', hm ▸ hid, (hs.sending hother).trans hat⟩

/-- Every message comes to the queue once at most, and one that has is through, or a round on it is at its
status update. -/
structure HandedOnce (w : World) : Prop where
  handed : w.HandedOver
  tableOk : OutboxStore.TableOk w.db.messages
  owned : w.Owned
  atMostOnce : ∀ k, w.handovers k ≤ 1
  after : ∀ k, 0 < w.handovers k → w.Through k ∨ w.Between k

namespace HandedOnce

/-- A message that has come to the queue has a round. -/
theorem round (h : w.HandedOnce) {k : Guid} (hpos : 0 < w.handovers k) :
    ∃ r ∈ w.rounds, r.message.id = k := by
  obtain ⟨x, hx, hyes⟩ := List.countP_pos_iff.mp hpos
  have hcount : 0 < (w.entriesOf x.1).countP (·.handsOver k) :=
    List.countP_pos_iff.mpr ⟨x.2, mem_entriesOf.mpr hx, hyes⟩
  have hle := h.handed.countP_entriesOf_le k x.1
  rw [countP_publishes] at hle
  by_cases hany : (w.rounds[x.1]?).any (·.message.id = k) = true
  · rw [Option.any_eq_true] at hany
    obtain ⟨r, hr, hid⟩ := hany
    exact ⟨r, List.mem_of_getElem? hr, of_decide_eq_true hid⟩
  · rw [if_neg hany] at hle
    omega

/-- A round that is not yet past its status update has the lock of its message. -/
theorem current (h : w.HandedOnce) (htimely : w.Timely) (hr : w.rounds[token]? = some r)
    (hwork : r.work = some ⟨.queueMediated, prog⟩)
    (hat : w.sending token = .start ∨ w.sending token = .sent) : w.CurrentLock r.message.id token :=
  h.owned.current htimely hr hwork
    (Sending.not_quiescent (h.handed.order.round token r prog hr hwork).1 hat)

/-- Before its publish a round's message has not come to the queue. -/
theorem handovers_eq_zero (h : w.HandedOnce) (htimely : w.Timely) (hr : w.rounds[token]? = some r)
    (hwork : r.work = some ⟨.queueMediated, prog⟩) (hat : w.sending token = .start) :
    w.handovers r.message.id = 0 := by
  by_contra hne
  have hcurrent := h.current htimely hr hwork (.inl hat)
  rcases h.after _ (Nat.pos_of_ne_zero hne) with hthrough | ⟨token', r', prog', hr', hwork', hid, hat'⟩
  · obtain ⟨-, _, _, m, -, hfind, hproc, -⟩ := hcurrent
    cases hproc.symm.trans (hthrough m hfind)
  · -- another round at its status update would have the lock
    have hcurrent' := h.current htimely hr' hwork' (.inr hat')
    rw [hid] at hcurrent'
    obtain rfl := hcurrent.1.unique hcurrent'.1
    cases hat.symm.trans hat'

/-- The status update of the round that has the lock. -/
theorem through_of_mark (h : w.HandedOnce) (htimely : w.Timely) (hnamed : w.Named dep)
    (hr : w.rounds[token]? = some r) (hwork : r.work = some ⟨.queueMediated, prog⟩)
    (hat : w.sending token = .sent) {a : Except Exn Bool}
    (hs : Step dep (Database.Effect dep) w
      (.call token ⟨.markAsProcessed r.message.id r.lockedBy, a⟩) w') : w'.Through r.message.id := by
  obtain ⟨-, p, x, m, hx, hfind, hproc, -, hby, hname⟩ := h.current htimely hr hwork (.inr hat)
  rw [acquisition_eq_some hr] at hx
  cases hx
  obtain ⟨b, -, hrun⟩ := hs.called.1.writeBack rfl
  obtain ⟨-, hf, hmessages⟩ := OutboxStore.WriteBack.run_eq hrun
  have hheld : OutboxStore.heldBy dep r.message.id r.lockedBy m = true := by
    rw [OutboxStore.heldBy, Table.find?_key hfind, hby, hname, Option.any_some, Bool.and_eq_true]
    exact ⟨decide_eq_true rfl, hnamed r (List.mem_of_getElem? hr)⟩
  intro m' hm'
  rw [hmessages, Table.find?_update, hfind, Option.map_some, if_pos hheld] at hm'
  cases hm'
  rfl

/-- A message that has come to the queue stays accounted for. -/
theorem after_step (h : w.HandedOnce) (hs : Step dep (Database.Effect dep) w act w')
    (htimely : w.Timely) (hnamed : w.Named dep) {k : Guid} (hpos : 0 < w.handovers k) :
    w'.Through k ∨ w'.Between k := by
  rcases h.after k hpos with hthrough | ⟨token, r, prog, hr, hwork, rfl, hat⟩
  · exact .inl (hthrough.step sound_effect hs h.tableOk (h.round hpos))
  · by_cases hcall : ∃ entry, act = .call token entry
    · obtain ⟨⟨c, a⟩, rfl⟩ := hcall
      obtain ⟨r₀, prog₀, hr₀, hwork₀, hallows⟩ := h.handed.order.of_call h.handed.planned hs
      rw [hr] at hr₀
      cases hr₀
      rw [hat] at hallows
      cases c with
      | addMetric =>
          obtain ⟨r', hr', -, hm, hplan, -⟩ := hs.round hr
          obtain ⟨prog', hwork'⟩ := hplan _ hwork
          refine .inr ⟨token, r', prog', hr', hwork', by rw [hm], ?_⟩
          rw [hs.sending_call, hat]
          rfl
      | markAsProcessed =>
          obtain ⟨rfl, rfl⟩ := hallows
          exact .inl (h.through_of_mark htimely hnamed hr hwork hat hs)
      | _ => exact hallows.elim
    · exact .inr (Between.of_other hr hwork rfl hat hs fun entry heq => hcall ⟨entry, heq⟩)

/-- What a step adds to the handovers of message `k`: nothing, or the publish of a round on it. -/
theorem handovers_step (h : w.HandedOnce) (hs : Step dep (Database.Effect dep) w act w') (k : Guid) :
    w'.handovers k = w.handovers k ∨ ∃ token r prog, w.rounds[token]? = some r ∧
      r.work = some ⟨.queueMediated, prog⟩ ∧ r.message.id = k ∧ w.sending token = .start ∧
      act = .call token ⟨.publish r.message, Except.ok ()⟩ ∧ w'.handovers k = w.handovers k + 1 := by
  by_cases hcall : ∃ token entry, act = .call token entry
  · obtain ⟨token, entry, rfl⟩ := hcall
    have hcount : w'.handovers k = w.handovers k + if entry.handsOver k = true then 1 else 0 := by
      rw [handovers, hs.called.2, List.countP_append, List.countP_singleton]
      rfl
    by_cases hhands : entry.handsOver k = true
    · obtain ⟨r, prog, hr, hwork, hallows⟩ := h.handed.order.of_call h.handed.planned hs
      obtain ⟨message, rfl, rfl⟩ := Entry.handsOver_iff.mp hhands
      rw [if_pos hhands] at hcount
      cases hat : w.sending token with
      | start =>
          rw [hat] at hallows
          obtain rfl : message = r.message := hallows
          exact .inr ⟨token, r, prog, hr, hwork, rfl, hat, rfl, hcount⟩
      | _ =>
          rw [hat] at hallows
          exact hallows.elim
    · rw [if_neg hhands, Nat.add_zero] at hcount
      exact .inl hcount
  · left
    cases hs with
    | @call token => exact absurd ⟨token, _, rfl⟩ hcall
    | _ => rfl

/-- A round that writes back is done. -/
theorem done_of_writeBack (h : w.HandedOnce) {entry : Entry}
    (hs : Step dep (Database.Effect dep) w (.call token entry) w')
    (hwriter : entry.call.writeBack?.isSome = true) {r' : Round} (hr' : w'.rounds[token]? = some r') :
    r'.Done := by
  obtain ⟨r, prog, hr, hwork, hallows⟩ := h.handed.order.of_call h.handed.planned hs
  obtain ⟨⟨kind, messageId, lockedBy⟩, hc⟩ := Option.isSome_iff_exists.mp hwriter
  -- the database answers every write-back, so each leads to `closed`
  have hclosed : (w.sending token).after entry = .closed := by
    obtain ⟨b, hanswer, -⟩ := hs.called.1.writeBack hc
    obtain ⟨c, a⟩ := entry
    generalize w.sending token = s at hallows
    cases c with
    | markAsProcessed =>
        cases a with
        | error e => cases hanswer
        | ok b =>
            cases s with
            | sent => rfl
            | _ => exact hallows.elim
    | incrementRetry =>
        cases s with
        | failing => rfl
        | _ => exact hallows.elim
    | markAsDeadLettered =>
        cases s with
        | failing => rfl
        | _ => exact hallows.elim
    | _ => cases hc
  obtain ⟨r'', hr'', -, -, hplan, -⟩ := hs.round hr
  rw [hr'] at hr''
  cases hr''
  obtain ⟨prog', hwork'⟩ := hplan _ hwork
  have hsends := ((h.handed.order.step hs).round token r' prog' hr' hwork').1
  rw [hs.sending_call, hclosed] at hsends
  exact ⟨_, hwork', Sending.quiescent_of_closed hsends⟩

/-- The step lemma. -/
theorem step {stages stages' : ℕ → Stage} (h : w.HandedOnce)
    (hs : Step dep (Database.Effect dep) w act w') (hst : StageStep w stages act stages')
    (hbegin : ∀ token plan, act = .begin_ token plan → plan = .queueMediated) (htimely : w.Timely)
    (hnamed : w.Named dep) : w'.HandedOnce where
  handed := h.handed.step sound_effect hs hbegin
  tableOk := tableOk_step sound_effect hs h.tableOk
  owned := by
    refine h.owned.step_of_done sound_effect hs h.tableOk htimely hst ?_
    rintro token entry rfl hwriter r' hr'
    exact h.done_of_writeBack hs hwriter hr'
  atMostOnce := by
    intro k
    rcases h.handovers_step hs k with heq | ⟨token, r, prog, hr, hwork, rfl, hat, -, heq⟩
    · rw [heq]
      exact h.atMostOnce k
    · rw [heq, h.handovers_eq_zero htimely hr hwork hat]
  after := by
    intro k hpos
    rcases h.handovers_step hs k with heq | ⟨token, r, prog, hr, hwork, rfl, hat, rfl, -⟩
    · exact h.after_step hs htimely hnamed (heq ▸ hpos)
    · obtain ⟨r', hr', -, hm, hplan, -⟩ := hs.round hr
      obtain ⟨prog', hwork'⟩ := hplan _ hwork
      refine .inr ⟨token, r', prog', hr', hwork', by rw [hm], ?_⟩
      rw [hs.sending_call, hat]
      rfl

theorem initial (now : DateTimeOffset) : HandedOnce (initial now) where
  handed := HandedOver.initial now
  tableOk := OutboxStore.TableOk.empty
  owned := by
    intro token r hr
    simp [World.initial] at hr
  atMostOnce := fun _ => Nat.zero_le _
  after := fun _ hpos => absurd hpos (lt_irrefl 0)

end HandedOnce

/-- **Timely rounds publish once.** Take any run of any number of workers in queue-mediated mode, with any
interleaving, failures of the queue and purges, in which the database does not fail, every round makes its
last store call before its lock expires, and the instance names fit their column.  Every message is
published at most once more than publishes of it threw, so once at most if none did; and exactly once more
if it is `Delivered`. -/
theorem timely_rounds_hand_over_once {now : DateTimeOffset} {acts : List Action}
    (hrun : TimelyQueueRun dep (initial now) acts w) :
    (∀ k, w.publications k ≤ w.thrownPublications k + 1) ∧
    ∀ m ∈ w.db.messages.rows, m.status = .delivered →
      w.publications m.id = w.thrownPublications m.id + 1 := by
  have hinv : (w.Timely ∧ w.Named dep) ∧ ∃ stages, Coupled w stages ∧ w.HandedOnce := by
    refine hrun.invariant
      (fun w => (w.Timely ∧ w.Named dep) ∧ ∃ stages, Coupled w stages ∧ w.HandedOnce) ?_
      ⟨⟨List.forall_mem_nil _, List.forall_mem_nil _⟩, fun _ => .start, Coupled.initial now _,
        HandedOnce.initial now⟩
    rintro w act w' ⟨⟨htimely, hnamed⟩, stages, hcoupled, h⟩ ⟨hs, hbegin, htimely', hnamed'⟩
    obtain ⟨stages', hcoupled', hst⟩ := hcoupled.step hs
    exact ⟨⟨htimely', hnamed'⟩, stages', hcoupled', h.step hs hst hbegin htimely hnamed⟩
  obtain ⟨-, -, -, h⟩ := hinv
  refine ⟨fun k => ?_, fun m hm hstatus => ?_⟩
  · have honce := h.atMostOnce k
    rw [publications_eq]
    omega
  · obtain ⟨token, message, hmem, henvelope⟩ := h.handed.delivered m hm hstatus
    have hid : message.id = m.id := congrArg QueueMessageEnvelope.messageId henvelope
    have hpos : 0 < w.handovers m.id :=
      List.countP_pos_iff.mpr ⟨_, hmem, Entry.handsOver_iff.mpr ⟨message, rfl, hid⟩⟩
    have honce := h.atMostOnce m.id
    rw [publications_eq]
    omega

/-! ## An order handed over -/

/-- A host in queue-mediated mode, with a back-off of no delay. -/
def queueShard : Pipeline :=
  { queueHost with retryPolicy := ExponentialBackoff.policy { baseDelay := 0 } }

/-- Whether an action begins no round of direct delivery. -/
def queueOnly : Action → Bool
  | .begin_ _ (.direct _ _) => false
  | _ => true

theorem eq_queueMediated {act : Action} (h : queueOnly act = true) {token : ℕ} {plan : Plan}
    (hact : act = .begin_ token plan) : plan = .queueMediated := by
  subst hact
  cases plan with
  | direct => cases h
  | queueMediated => rfl

/-- Whether every world of a run in queue-mediated mode is timely, and its instance names fit. -/
def queueTest (_ : World) (act : Action) (w : World) : Bool :=
  queueOnly act && w.inTime && w.rounds.all fun r =>
    sqlServer.sameText (nvarchar 256 r.lockedBy) (OutboxStore.writeBackParam sqlServer r.lockedBy)

/-- The queue takes too long to answer for an order; after a retry it answers, and the order is marked. -/
def queuedCues : List Cue :=
  [.publish 0 (orderArgs 1), .acquireCold queueShard []] ++
  Cue.round 0 .queueMediated [.published (.error ⟨false, text "The request timed out."⟩),
    .drew (1 / 2), .time 10, .done, .done] ++
  [.tick 100, .acquireCold queueShard []] ++
  Cue.round 1 .queueMediated [.published (.ok ()), .done, .done]

/-- The world after it. -/
def queuedOrder : World :=
  rehearsed sqlServer (Database.effect? sqlServer) queueTest (initial 0) queuedCues

theorem queuedOrder_run : ∃ acts, TimelyQueueRun sqlServer (initial 0) acts queuedOrder := by
  have hrehearses : rehearses sqlServer (Database.effect? sqlServer) queueTest (initial 0) queuedCues =
      true := by decide +kernel
  refine steps_of_rehearsal hrehearses (fun _ _ _ _ _ => Database.Effect.of_effect?)
    fun w act w' hs htest => ?_
  simp only [queueTest, Bool.and_eq_true, List.all_eq_true] at htest
  obtain ⟨⟨hact, htimely⟩, hnamed⟩ := htest
  exact ⟨hs, fun _ _ => eq_queueMediated hact, timely_of_inTime htimely, hnamed⟩

theorem queuedOrder_delivered : ∃ m ∈ queuedOrder.db.messages.rows, m.id = 1 ∧ m.status = .delivered := by
  decide +kernel

/-- The order that is `Delivered` has come to the queue, once in its two acquisitions that is known. -/
theorem delivered_means_handed_over_order :
    (∃ m ∈ queuedOrder.db.messages.rows, m.id = 1 ∧ m.status = .delivered ∧
      ∃ token message, (token, (⟨.publish message, Except.ok ()⟩ : Entry)) ∈ queuedOrder.log ∧
        message.envelope = m.envelope) ∧
    queuedOrder.publications 1 ≤ (queuedOrder.acquisitionsOf 1).card ∧
    queuedOrder.publications 1 = 2 ∧ queuedOrder.handovers 1 = 1 := by
  obtain ⟨acts, hrun⟩ := queuedOrder_run
  obtain ⟨m, hm, hid, hstatus⟩ := queuedOrder_delivered
  have hplans : ∀ token plan, Action.begin_ token plan ∈ acts → plan = .queueMediated := by
    have hall := hrun.labels (fun act => ∀ token plan, act = .begin_ token plan → plan = .queueMediated)
      fun _ _ _ hs => hs.2.1
    exact fun token plan hact => hall _ hact token plan rfl
  have hhanded := delivered_means_handed_over (hrun.mono fun _ _ _ hs => hs.1.mono .effect) hplans
  exact ⟨⟨m, hm, hid, hstatus, hhanded.1 m hm hstatus⟩, hhanded.2 1, by decide +kernel,
    by decide +kernel⟩

/-- The order is published once more than a publish of it threw. -/
theorem timely_rounds_hand_over_once_order :
    (∃ m ∈ queuedOrder.db.messages.rows, m.id = 1 ∧ m.status = .delivered ∧
      queuedOrder.publications m.id = queuedOrder.thrownPublications m.id + 1) ∧
    queuedOrder.publications 1 = 2 ∧ queuedOrder.thrownPublications 1 = 1 := by
  obtain ⟨acts, hrun⟩ := queuedOrder_run
  obtain ⟨m, hm, hid, hstatus⟩ := queuedOrder_delivered
  exact ⟨⟨m, hm, hid, hstatus, (timely_rounds_hand_over_once hrun).2 m hm hstatus⟩, by decide +kernel,
    by decide +kernel⟩

end World

end OutboxNet
