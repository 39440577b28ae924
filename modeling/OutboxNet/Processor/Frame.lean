import OutboxNet.Processor.Database
import OutboxNet.Store.Operations

/-!
# What the handling of one message does to the others

A call made in the handling of a message reads and writes the row and the attempts of that message.  So
it does not show in what the database says about other messages, and it can be made, with the same
answer, in a database without the traces of others.
-/

set_option autoImplicit false

namespace OutboxNet

open OutboxStore AttemptStore

/-- The calls that are about message `k`, or about none. -/
def Call.Concerns (k : Guid) : Call → Prop
  | .getDeliveryStates messageId _ => messageId = k
  | .saveAttempts attempts => ∀ a ∈ attempts, a.outboxMessageId = k
  | .markAsProcessed messageId _ => messageId = k
  | .incrementRetry messageId _ _ _ => messageId = k
  | .markAsDeadLettered messageId _ => messageId = k
  | .deliver message _ _ => message.id = k
  | .publish message => message.id = k
  | .utcNow => True
  | .nextDouble => True
  | .addMetric _ _ => True

/-- The stored attempts of the messages that are kept. -/
def AttemptStore.keptAttempts (keep : Guid → Bool) (attempts : Attempts) : List DeliveryAttempt :=
  attempts.rows.filter fun a => keep a.outboxMessageId

namespace Database

/-- Two databases that say the same of the messages that are kept; of the others the second one has at
most the attempts of the first. -/
structure Alike (keep : Guid → Bool) (d e : Database) : Prop where
  messages : ∀ k, keep k = true → e.messages.find? k = d.messages.find? k
  attempts : keptAttempts keep e.attempts = keptAttempts keep d.attempts
  fewer : ∀ a ∈ e.attempts.rows, a ∈ d.attempts.rows

theorem Alike.refl (keep : Guid → Bool) (d : Database) : Alike keep d d :=
  ⟨fun _ _ => rfl, rfl, fun _ h => h⟩

variable {dep : Deployment} {keep : Guid → Bool} {k : Guid} {d d' e : Database}

/-- The attempts of a kept message. -/
theorem Alike.attemptsOf (h : Alike keep d e) (hk : keep k = true) (subscriptionId : Guid) :
    attemptsOf k subscriptionId e.attempts = attemptsOf k subscriptionId d.attempts := by
  have hkept : ∀ attempts : Attempts, AttemptStore.attemptsOf k subscriptionId attempts =
      (keptAttempts keep attempts).filter fun a =>
        a.outboxMessageId = k && a.webhookSubscriptionId = subscriptionId := by
    intro attempts
    rw [AttemptStore.attemptsOf, keptAttempts, List.filter_filter]
    refine List.filter_congr fun a _ => ?_
    by_cases ha : a.outboxMessageId = k
    · simp [ha, hk]
    · simp [ha]
  rw [hkept, hkept, h.attempts]

/-- The states read for a kept message. -/
theorem Alike.getDeliveryStates (h : Alike keep d e) (hk : keep k = true)
    (subscriptionIds : List Guid) : getDeliveryStatesAsync k subscriptionIds e.attempts =
      getDeliveryStatesAsync k subscriptionIds d.attempts := by
  unfold getDeliveryStatesAsync
  congr 1
  funext subscriptionId
  unfold group hasSuccess
  rw [h.attemptsOf hk]

/-! ## The row of a message -/

theorem any_heldBy (messageId : Guid) (lockedBy : Text) (p : OutboxMessage → Bool) (t : Messages) :
    t.rows.any (fun m => heldBy dep messageId lockedBy m && p m) =
      (t.find? messageId).any fun m => heldBy dep messageId lockedBy m && p m := by
  refine t.any_key fun m hm => ?_
  simp only [heldBy, Bool.and_eq_true, decide_eq_true_eq] at hm
  exact hm.1.1

/-- A write-back of a kept message finds what it finds in the other database. -/
theorem Alike.held (h : Alike keep d e) (hk : keep k = true) (lockedBy : Text)
    (p : OutboxMessage → Bool) :
    e.messages.rows.any (fun m => heldBy dep k lockedBy m && p m) =
      d.messages.rows.any fun m => heldBy dep k lockedBy m && p m := by
  rw [any_heldBy, any_heldBy, h.messages k hk]

/-- A write-back leaves other rows alone. -/
theorem find?_writeBack_of_ne {messageId : Guid} {lockedBy : Text}
    {set : OutboxMessage → OutboxMessage} (hset : ∀ m, (set m).id = m.id) {t : Messages}
    (hk : k ≠ messageId) :
    (t.update (heldBy dep messageId lockedBy) set hset).find? k = t.find? k := by
  rw [Table.find?_update]
  cases hfind : t.find? k with
  | none => rfl
  | some m =>
      have hid : m.id ≠ messageId := Table.find?_key hfind ▸ hk
      simp [heldBy, hid]

/-- A write-back of a kept message does to its row what it does in the other database. -/
theorem Alike.update (h : Alike keep d e) {messageId : Guid} {lockedBy : Text}
    {set : OutboxMessage → OutboxMessage} (hset : ∀ m, (set m).id = m.id) :
    Alike keep
      { d with messages := d.messages.update (heldBy dep messageId lockedBy) set hset }
      { e with messages := e.messages.update (heldBy dep messageId lockedBy) set hset } where
  messages k hk := by
    show (e.messages.update _ set hset).find? k = (d.messages.update _ set hset).find? k
    rw [Table.find?_update, Table.find?_update, h.messages k hk]
  attempts := h.attempts
  fewer := h.fewer

/-- A save of attempts of a kept message goes through in the other database. -/
theorem Alike.save (h : Alike keep d e) (hk : keep k = true) {defaults : Defaults}
    {newAttempts : List DeliveryAttempt} (hnew : ∀ a ∈ newAttempts, a.outboxMessageId = k)
    {attempts : Attempts}
    (hsave : saveAttemptsAsync dep defaults d.messages newAttempts d.attempts = some attempts) :
    ∃ attempts', saveAttemptsAsync dep defaults e.messages newAttempts e.attempts = some attempts' ∧
      Alike keep { d with attempts := attempts } { e with attempts := attempts' } := by
  have hrows := saveAttemptsAsync_rows hsave
  have hmessage : ∀ a ∈ attemptRows dep defaults newAttempts, a.outboxMessageId = k := by
    intro a ha
    obtain ⟨i, hi, rfl⟩ := List.mem_mapIdx.mp ha
    exact hnew newAttempts[i] (List.getElem_mem hi)
  have hforeign : foreignKey e.messages (attemptRows dep defaults newAttempts) =
      foreignKey d.messages (attemptRows dep defaults newAttempts) := by
    unfold foreignKey
    rw [Bool.eq_iff_iff, List.all_eq_true, List.all_eq_true]
    refine forall₂_congr fun a ha => ?_
    rw [hmessage a ha, h.messages k hk]
  -- the new ids are not in the larger table, so they are not in the smaller one
  have hsave' : ∃ attempts', saveAttemptsAsync dep defaults e.messages newAttempts e.attempts =
      some attempts' := by
    unfold saveAttemptsAsync at hsave ⊢
    split
    · exact ⟨_, rfl⟩
    · next hne =>
        rw [if_neg hne] at hsave
        rw [hforeign]
        split at hsave
        · next hok =>
            rw [if_pos hok]
            have hsome := Table.insertAll?_isSome.mp (Option.isSome_iff_exists.mpr ⟨_, hsave⟩)
            refine Option.isSome_iff_exists.mp (Table.insertAll?_isSome.mpr ⟨hsome.1, ?_⟩)
            exact fun r hr r' hr' => hsome.2 r hr r' (h.fewer r' hr')
        · cases hsave
  obtain ⟨attempts', hsave'⟩ := hsave'
  refine ⟨attempts', hsave', h.messages, ?_, ?_⟩
  · have hold := h.attempts
    simp only [keptAttempts] at hold ⊢
    rw [saveAttemptsAsync_rows hsave', hrows, List.filter_append, List.filter_append, hold]
  · intro a ha
    rw [saveAttemptsAsync_rows hsave', List.mem_append] at ha
    show a ∈ attempts.rows
    rw [hrows, List.mem_append]
    exact ha.imp_left (h.fewer a)

/-! ## The two lemmas -/

/-- **Replay.** What a call about a kept message does, it does in the other database, with the same
answer. -/
theorem Effect.replay {c : Call} {a : c.Ans} (heffect : Effect dep c d a d') (h : Alike keep d e)
    (hnow : e.now = d.now) (hk : keep k = true) (hc : c.Concerns k) :
    ∃ e', Effect dep c e a e' ∧ Alike keep d' e' ∧ e'.now = d'.now := by
  -- both databases have the same row and the same attempts of `k`
  cases heffect with
  | getDeliveryStates messageId subscriptionIds =>
      obtain rfl : messageId = k := hc
      refine ⟨e, ?_, h, hnow⟩
      rw [← h.getDeliveryStates hk]
      exact .getDeliveryStates messageId subscriptionIds e
  | saveAttempts hsave =>
      obtain ⟨attempts', hsave', h'⟩ := h.save hk hc hsave
      exact ⟨_, .saveAttempts hsave', h', hnow⟩
  | markAsProcessed messageId lockedBy =>
      obtain rfl : messageId = k := hc
      have hanswer : (markAsProcessedAsync dep e.now messageId lockedBy e.messages).1 =
          (markAsProcessedAsync dep d.now messageId lockedBy d.messages).1 := by
        simpa [markAsProcessedAsync, OutboxStore.writeBack] using h.held hk lockedBy fun _ => true
      have htable : markAsProcessedAsync dep e.now messageId lockedBy e.messages =
          markAsProcessedAsync dep d.now messageId lockedBy e.messages := by rw [hnow]
      rw [← hanswer]
      refine ⟨_, .markAsProcessed messageId lockedBy e, ?_, hnow⟩
      rw [htable]
      exact h.update (setProcessed_id d.now)
  | @incrementRetry messageId lockedBy nextRetryAt error _ b messages hrun =>
      obtain rfl : messageId = k := hc
      unfold incrementRetryAsync at hrun
      split at hrun
      · cases hrun
      next hroom =>
      obtain ⟨hb, rfl⟩ := Prod.mk.inj (Option.some.inj hrun)
      have hanswer : e.messages.rows.any (heldBy dep messageId lockedBy) = b := by
        rw [← hb]
        simpa using h.held hk lockedBy fun _ => true
      have hrun' : incrementRetryAsync dep messageId lockedBy nextRetryAt error e.messages =
          some (b, e.messages.update (heldBy dep messageId lockedBy) (setRetry dep nextRetryAt error)
            (setRetry_id dep nextRetryAt error)) := by
        rw [incrementRetryAsync, h.held hk lockedBy fun m => decide (int32Max ≤ m.retryCount),
          if_neg hroom, OutboxStore.writeBack, hanswer]
      exact ⟨_, .incrementRetry hrun', h.update (setRetry_id dep nextRetryAt error), hnow⟩
  | markAsDeadLettered messageId lockedBy =>
      obtain rfl : messageId = k := hc
      have hanswer : (markAsDeadLetteredAsync dep messageId lockedBy e.messages).1 =
          (markAsDeadLetteredAsync dep messageId lockedBy d.messages).1 := by
        simpa [markAsDeadLetteredAsync, OutboxStore.writeBack] using h.held hk lockedBy fun _ => true
      rw [← hanswer]
      exact ⟨_, .markAsDeadLettered messageId lockedBy e, h.update setDeadLettered_id, hnow⟩
  | deliver message subscription deliveryId r => exact ⟨e, .deliver _ _ _ _ e, h, hnow⟩
  | publish message r => exact ⟨e, .publish _ _ e, h, hnow⟩
  | utcNow t => exact ⟨e, .utcNow t e, h, hnow⟩
  | nextDouble _ hge hlt => exact ⟨e, .nextDouble e hge hlt, h, hnow⟩
  | addMetric metric eventType => exact ⟨e, .addMetric _ _ e, h, hnow⟩

/-- **Absorption.** What a call about another message does, does not show. -/
theorem Change.absorb {c : Call} (hchange : Change dep c d d') (h : Alike keep d e)
    (hk : keep k = false) (hc : c.Concerns k) : Alike keep d' e := by
  cases hchange with
  | none => exact h
  | @saved newAttempts defaults attempts hcall hsave =>
      subst hcall
      have hrows := saveAttemptsAsync_rows hsave
      refine ⟨h.messages, ?_, fun a ha => ?_⟩
      · have hnone : (attemptRows dep defaults newAttempts).filter
            (fun a => keep a.outboxMessageId) = [] := by
          rw [List.filter_eq_nil_iff]
          intro a ha
          obtain ⟨i, hi, rfl⟩ := List.mem_mapIdx.mp ha
          have hid : (attemptRow dep defaults i newAttempts[i]).outboxMessageId = k :=
            hc newAttempts[i] (List.getElem_mem hi)
          rw [hid, hk]
          exact Bool.false_ne_true
        have hold := h.attempts
        simp only [keptAttempts] at hold ⊢
        rw [hrows, List.filter_append, hnone, List.append_nil, hold]
      · show a ∈ attempts.rows
        rw [hrows]
        exact List.mem_append_left _ (h.fewer a ha)
  | @wroteBack kind messageId lockedBy b messages hcall hrun =>
      have hid : messageId = k := by
        cases c with
        | markAsProcessed => cases hcall; exact hc
        | incrementRetry => cases hcall; exact hc
        | markAsDeadLettered => cases hcall; exact hc
        | _ => cases hcall
      -- a write-back changes the row of `k` at most
      obtain ⟨-, hf, rfl⟩ := WriteBack.run_eq hrun
      refine ⟨fun k' hk' => ?_, h.attempts, h.fewer⟩
      have hne : k' ≠ messageId := by
        rintro rfl
        rw [hid, hk] at hk'
        cases hk'
      rw [h.messages k' hk']
      exact (find?_writeBack_of_ne hf hne).symm

/-- The same for a call with the faults of the database. -/
theorem Exec.replay {c : Call} {a : c.Ans} (hexec : Exec dep c d a d') (h : Alike keep d e)
    (hnow : e.now = d.now) (hk : keep k = true) (hc : c.Concerns k) :
    ∃ e', Exec dep c e a e' ∧ Alike keep d' e' ∧ e'.now = d'.now := by
  cases hexec with
  | effect heffect =>
      obtain ⟨e', heffect', h', hnow'⟩ := heffect.replay h hnow hk hc
      exact ⟨e', .effect heffect', h', hnow'⟩
  | failed hthrew => exact ⟨e, .failed hthrew, h, hnow⟩
  | answerLost hthrew heffect =>
      obtain ⟨e', heffect', h', hnow'⟩ := heffect.replay h hnow hk hc
      exact ⟨e', .answerLost hthrew heffect', h', hnow'⟩

end Database

end OutboxNet
