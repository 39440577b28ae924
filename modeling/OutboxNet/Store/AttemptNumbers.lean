import OutboxNet.Lib.Numbering
import OutboxNet.Store.AttemptStore

/-!
# The numbers of stored attempts

The number of the next attempt is the count of the stored ones plus one.  It is fresh as long as the
attempts of every message and subscription carry the numbers from 1 to their count.  A save of one
attempt with the next number keeps this, and so does the cascade of a purge of messages; a purge by age
keeps it when it takes, with an attempt, the later ones of its message and subscription.
-/

set_option autoImplicit false

namespace OutboxNet.AttemptStore

variable {dep : Deployment}

/-- The place of an attempt among those of its message and subscription; the stored number has 32
bits. -/
def ordinal (a : DeliveryAttempt) : ℕ := (a.attemptNumber % 4294967296).toNat

theorem ordinal_eq {a : DeliveryAttempt} {n : ℤ} (h : a.attemptNumber = int32 n) (hn : 0 ≤ n)
    (hlt : n < 4294967296) : (ordinal a : ℤ) = n := by
  have hmod : int32 n % 4294967296 = n := by
    have hbmod : n.bmod 4294967296 % ((4294967296 : ℕ) : ℤ) = n % ((4294967296 : ℕ) : ℤ) :=
      Int.bmod_emod
    exact hbmod.trans (Int.emod_eq_of_lt hn hlt)
  rw [ordinal, h, hmod, Int.toNat_of_nonneg hn]

/-- Whether an attempt belongs to a message and a subscription. -/
def ofPair (messageId subscriptionId : Guid) (a : DeliveryAttempt) : Bool :=
  a.outboxMessageId = messageId && a.webhookSubscriptionId = subscriptionId

theorem ofPair_iff {messageId subscriptionId : Guid} {a : DeliveryAttempt} :
    ofPair messageId subscriptionId a = true ↔
      a.outboxMessageId = messageId ∧ a.webhookSubscriptionId = subscriptionId := by
  simp only [ofPair, Bool.and_eq_true, decide_eq_true_eq]

theorem mem_attemptsOf {messageId subscriptionId : Guid} {attempts : Attempts}
    {a : DeliveryAttempt} : a ∈ attemptsOf messageId subscriptionId attempts ↔
      a ∈ attempts.rows ∧ a.outboxMessageId = messageId ∧ a.webhookSubscriptionId = subscriptionId := by
  simp only [attemptsOf, List.mem_filter, Bool.and_eq_true, decide_eq_true_eq]

/-- A save of attempts of other messages. -/
theorem attemptsOf_save {attempts attempts' : Attempts} {d : Defaults} {messages : Messages}
    {newAttempts : List DeliveryAttempt}
    (hsave : saveAttemptsAsync dep d messages newAttempts attempts = some attempts')
    {messageId : Guid} (hother : ∀ a ∈ newAttempts, a.outboxMessageId ≠ messageId)
    (subscriptionId : Guid) : (attemptsOf messageId subscriptionId attempts').length =
      (attemptsOf messageId subscriptionId attempts).length := by
  rw [length_attemptsOf_saveAttemptsAsync hsave, List.countP_eq_zero.mpr, Nat.add_zero]
  intro a ha
  simp [hother a ha]

/-- A delete of none of the attempts of a message and subscription. -/
theorem attemptsOf_delete {attempts : Attempts} {p : DeliveryAttempt → Bool}
    {messageId subscriptionId : Guid}
    (hkeep : ∀ a ∈ attemptsOf messageId subscriptionId attempts, p a = false) :
    attemptsOf messageId subscriptionId (attempts.delete p) =
      attemptsOf messageId subscriptionId attempts := by
  rw [attemptsOf, Table.delete, List.filter_comm]
  refine List.filter_eq_self.mpr fun a ha => ?_
  rw [hkeep a ha]
  rfl

/-- The attempts of every message and subscription carry the numbers from 1 to their count. -/
def Numbering (attempts : Attempts) : Prop :=
  ∀ messageId subscriptionId, Numbered ((attemptsOf messageId subscriptionId attempts).map ordinal)

namespace Numbering

variable {attempts attempts' : Attempts}

theorem empty : Numbering Table.empty := fun _ _ => Numbered.nil

/-- The next number of a message and subscription is not stored. -/
theorem next_not_stored (h : Numbering attempts) {a : DeliveryAttempt} (ha : a ∈ attempts.rows) :
    ordinal a ≠ (attemptsOf a.outboxMessageId a.webhookSubscriptionId attempts).length + 1 := by
  intro heq
  have hnext := (h a.outboxMessageId a.webhookSubscriptionId).next_not_mem
  rw [List.length_map, ← heq] at hnext
  exact hnext (List.mem_map_of_mem (mem_attemptsOf.mpr ⟨ha, rfl, rfl⟩))

/-- The numbers of the rows inserted are those of the attempts saved. -/
theorem map_attemptRows (dep : Deployment) (d : Defaults) (newAttempts : List DeliveryAttempt)
    (messageId subscriptionId : Guid) :
    ((attemptRows dep d newAttempts).filter (ofPair messageId subscriptionId)).map ordinal =
      (newAttempts.filter (ofPair messageId subscriptionId)).map ordinal := by
  rw [attemptRows, List.mapIdx_eq_zipIdx_map, List.filter_map, List.map_map]
  conv_rhs => rw [← List.zipIdx_map_fst 0 newAttempts, List.filter_map, List.map_map]
  rfl

/-- Attempts of different subscriptions: at most one belongs to a given pair. -/
theorem filter_ofPair {newAttempts : List DeliveryAttempt}
    (hone : (newAttempts.map (·.webhookSubscriptionId)).Nodup) (messageId subscriptionId : Guid) :
    newAttempts.filter (ofPair messageId subscriptionId) = [] ∨
      ∃ a ∈ newAttempts, ofPair messageId subscriptionId a = true ∧
        newAttempts.filter (ofPair messageId subscriptionId) = [a] := by
  have hmem : ∀ a ∈ newAttempts.filter (ofPair messageId subscriptionId),
      a ∈ newAttempts ∧ ofPair messageId subscriptionId a = true := fun a => List.mem_filter.mp
  have hnodup : ((newAttempts.filter (ofPair messageId subscriptionId)).map
      (·.webhookSubscriptionId)).Nodup := hone.sublist (List.filter_sublist.map _)
  match hfilter : newAttempts.filter (ofPair messageId subscriptionId) with
  | [] => exact .inl rfl
  | [a] =>
      obtain ⟨ha, hpair⟩ := hmem a (by rw [hfilter]; exact List.mem_singleton_self a)
      exact .inr ⟨a, ha, hpair, rfl⟩
  | a :: b :: rest =>
      -- two attempts of one subscription
      rw [hfilter] at hmem hnodup
      have ha := (ofPair_iff.mp (hmem a List.mem_cons_self).2).2
      have hb := (ofPair_iff.mp (hmem b (List.mem_cons_of_mem _ List.mem_cons_self)).2).2
      rw [List.map_cons, List.map_cons, ha, hb, List.nodup_cons] at hnodup
      exact absurd List.mem_cons_self hnodup.1

/-- A save of attempts of different subscriptions, each with the next number. -/
theorem save (h : Numbering attempts) {d : Defaults} {messages : Messages}
    {newAttempts : List DeliveryAttempt}
    (hsave : saveAttemptsAsync dep d messages newAttempts attempts = some attempts')
    (hone : (newAttempts.map (·.webhookSubscriptionId)).Nodup)
    (hnext : ∀ a ∈ newAttempts, ordinal a =
      (attemptsOf a.outboxMessageId a.webhookSubscriptionId attempts).length + 1) :
    Numbering attempts' := by
  intro messageId subscriptionId
  have hrows : (attemptsOf messageId subscriptionId attempts').map ordinal =
      (attemptsOf messageId subscriptionId attempts).map ordinal ++
        (newAttempts.filter (ofPair messageId subscriptionId)).map ordinal := by
    rw [← map_attemptRows dep d, ← List.map_append]
    congr 1
    rw [attemptsOf, saveAttemptsAsync_rows hsave, List.filter_append]
    rfl
  rw [hrows]
  rcases filter_ofPair hone messageId subscriptionId with hnone | ⟨a, ha, hpair, hfilter⟩
  · rw [hnone, List.map_nil, List.append_nil]
    exact h messageId subscriptionId
  · obtain ⟨rfl, rfl⟩ := ofPair_iff.mp hpair
    have hconcat := (h a.outboxMessageId a.webhookSubscriptionId).concat
    rw [List.length_map] at hconcat
    rw [hfilter, List.map_singleton, hnext a ha]
    exact hconcat

/-- A delete that takes, with an attempt, the later ones of its message and subscription. -/
theorem delete (h : Numbering attempts) {p : DeliveryAttempt → Bool}
    (hlater : ∀ a ∈ attempts.rows, ∀ b ∈ attempts.rows,
      b.outboxMessageId = a.outboxMessageId → b.webhookSubscriptionId = a.webhookSubscriptionId →
      ordinal a < ordinal b → p a = true → p b = true) : Numbering (attempts.delete p) := by
  intro messageId subscriptionId
  have hrows : attemptsOf messageId subscriptionId (attempts.delete p) =
      (attemptsOf messageId subscriptionId attempts).filter fun a => !p a := by
    rw [attemptsOf, attemptsOf, Table.delete, List.filter_filter, List.filter_filter]
    simp only [Bool.and_comm]
  rw [hrows]
  refine (h messageId subscriptionId).filter ?_
  intro a ha b hb hlt hkeep
  obtain ⟨ha, hid, hsub⟩ := mem_attemptsOf.mp ha
  obtain ⟨hb, hid', hsub'⟩ := mem_attemptsOf.mp hb
  rw [Bool.not_eq_true'] at hkeep ⊢
  by_contra hp
  rw [Bool.not_eq_false] at hp
  rw [hlater a ha b hb (hid'.trans hid.symm) (hsub'.trans hsub.symm) hlt hp] at hkeep
  cases hkeep

/-- The cascade of a purge of messages takes all attempts of a message or none. -/
theorem cascade (h : Numbering attempts) (messages : Messages) :
    Numbering (AttemptStore.cascade messages attempts) := by
  refine h.delete ?_
  intro a _ b _ hid _ _ hgone
  rwa [hid]

end Numbering

end OutboxNet.AttemptStore
