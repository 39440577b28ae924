import Mathlib.Data.List.Dedup
import OutboxNet.Store.OutboxStore

/-!
# The table of delivery attempts

The statements of `IDeliveryAttemptStore` that the processor uses, and the purge.  `Id` is the primary
key, `OutboxMessageId` a foreign key with cascading delete; there is no key on the subscription.
-/

set_option autoImplicit false

namespace OutboxNet

/-- The table `DeliveryAttempts`. -/
abbrev Attempts := Table DeliveryAttempt.id

namespace AttemptStore

variable (dep : Deployment)

/-! ## Reading the delivery states -/

/-- The stored attempts of one message and subscription. -/
def attemptsOf (messageId subscriptionId : Guid) (attempts : Attempts) : List DeliveryAttempt :=
  attempts.rows.filter fun a =>
    a.outboxMessageId = messageId && a.webhookSubscriptionId = subscriptionId

/-- Whether a success is stored for the message and the subscription. -/
def hasSuccess (messageId subscriptionId : Guid) (attempts : Attempts) : Bool :=
  (attemptsOf messageId subscriptionId attempts).any fun a => a.status = .success

/-- The dictionary `GetDeliveryStatesAsync` returns. -/
abbrev States := List (Guid × SubscriptionDeliveryState)

/-- `states.TryGetValue(subscriptionId)`. -/
def tryGetValue (states : States) (subscriptionId : Guid) : Option SubscriptionDeliveryState :=
  (states.find? fun p => p.1 = subscriptionId).map Prod.snd

/-- One group of the query: the attempts of a subscription joined with the ids asked for, so that an
id asked for twice counts its attempts twice.  A subscription without attempts has no group. -/
def group (messageId : Guid) (subscriptionIds : List Guid) (attempts : Attempts)
    (subscriptionId : Guid) : Option (Guid × SubscriptionDeliveryState) :=
  let rows := attemptsOf messageId subscriptionId attempts
  if rows.isEmpty then none
  else some (subscriptionId,
    { attemptCount := rows.length * subscriptionIds.count subscriptionId
      hasSuccess := hasSuccess messageId subscriptionId attempts })

/-- `GetDeliveryStatesAsync`. -/
def getDeliveryStatesAsync (messageId : Guid) (subscriptionIds : List Guid)
    (attempts : Attempts) : States :=
  subscriptionIds.dedup.filterMap (group messageId subscriptionIds attempts)

/-! ## Saving attempts -/

/-- What the store or the database puts in place of values left unset. -/
structure Defaults where
  newGuid : ℕ → Guid
  utcNow : DateTimeOffset

/-- `default(DateTimeOffset)`. -/
def defaultTime : DateTimeOffset := 0

/-- The row inserted for attempt number `i` of a list.  The direct provider cuts the response body to
the size of its parameter. -/
def attemptRow (d : Defaults) (i : ℕ) (a : DeliveryAttempt) : DeliveryAttempt :=
  { a with
    id := if a.id = .empty then d.newGuid i else a.id
    responseBody :=
      match dep.provider with
      | .directSql => a.responseBody.map (nvarchar 4000)
      | .efCore => a.responseBody
    attemptedAt := dep.clientTime (if a.attemptedAt = defaultTime then d.utcNow else a.attemptedAt)
    nextRetryAt := a.nextRetryAt.map dep.clientTime }

/-- The rows inserted for a list of attempts. -/
def attemptRows (d : Defaults) (attempts : List DeliveryAttempt) : List DeliveryAttempt :=
  attempts.mapIdx (attemptRow dep d)

/-- The number of parameters of one row of the direct provider's insert. -/
def parametersPerAttempt : ℕ := 11

/-- Whether the server accepts the text of the insert.  The direct provider sends one statement: at
most 2100 parameters, at most 1000 rows.  EF Core splits a long insert itself, in one transaction, but
sends a response body in full, which must fit its column. -/
def acceptsInsert (attempts : List DeliveryAttempt) : Bool :=
  match dep.provider with
  | .directSql =>
      attempts.length * parametersPerAttempt ≤ 2100 && attempts.length ≤ 1000
  | .efCore => attempts.all fun a => a.responseBody.all (OutboxStore.fits 4000)

/-- The foreign key: every row names a message of the table. -/
def foreignKey (messages : Messages) (rows : List DeliveryAttempt) : Bool :=
  rows.all fun a => (messages.find? a.outboxMessageId).isSome

/-- `SaveAttemptsAsync`: all attempts or none. -/
def saveAttemptsAsync (d : Defaults) (messages : Messages) (newAttempts : List DeliveryAttempt)
    (attempts : Attempts) : Option Attempts :=
  if newAttempts.isEmpty then some attempts
  else if acceptsInsert dep newAttempts && foreignKey messages (attemptRows dep d newAttempts) then
    attempts.insertAll? (attemptRows dep d newAttempts)
  else none

/-! ## Deletes -/

/-- `PurgeOldAttemptsAsync`. -/
def purgeOldAttemptsAsync (olderThan : DateTimeOffset) (attempts : Attempts) : Attempts :=
  attempts.delete fun a => a.attemptedAt < olderThan

/-- The cascade of a purge of messages: attempts of a message that is gone go with it. -/
def cascade (messages : Messages) (attempts : Attempts) : Attempts :=
  attempts.delete fun a => (messages.find? a.outboxMessageId).isNone

/-! ## What the statements do to the successes -/

variable {dep}

theorem hasSuccess_iff {messageId subscriptionId : Guid} {attempts : Attempts} :
    hasSuccess messageId subscriptionId attempts = true ↔ ∃ a ∈ attempts.rows,
      a.outboxMessageId = messageId ∧ a.webhookSubscriptionId = subscriptionId ∧
        a.status = .success := by
  simp only [hasSuccess, attemptsOf, List.any_filter, List.any_eq_true, Bool.and_eq_true,
    decide_eq_true_eq]
  constructor
  · rintro ⟨a, ha, ⟨h₁, h₂⟩, h₃⟩
    exact ⟨a, ha, h₁, h₂, h₃⟩
  · rintro ⟨a, ha, h₁, h₂, h₃⟩
    exact ⟨a, ha, ⟨h₁, h₂⟩, h₃⟩

theorem group_key {messageId : Guid} {subscriptionIds : List Guid} {attempts : Attempts}
    {subscriptionId : Guid} {p : Guid × SubscriptionDeliveryState}
    (h : group messageId subscriptionIds attempts subscriptionId = some p) :
    p.1 = subscriptionId := by
  unfold group at h
  simp only at h
  split at h
  · cases h
  · cases h
    rfl

/-- The state of a subscription in the dictionary: its group, if it was asked for. -/
theorem tryGetValue_getDeliveryStatesAsync (messageId : Guid) (subscriptionIds : List Guid)
    (attempts : Attempts) (subscriptionId : Guid) :
    tryGetValue (getDeliveryStatesAsync messageId subscriptionIds attempts) subscriptionId =
      if subscriptionId ∈ subscriptionIds then
        (group messageId subscriptionIds attempts subscriptionId).map Prod.snd
      else none := by
  have hlist : ∀ ids : List Guid,
      tryGetValue (ids.filterMap (group messageId subscriptionIds attempts)) subscriptionId =
        if subscriptionId ∈ ids then
          (group messageId subscriptionIds attempts subscriptionId).map Prod.snd
        else none := by
    intro ids
    -- by induction on the ids; one without attempts has no group and is left out
    induction ids with
    | nil => rfl
    | cons s ids ih =>
        rw [List.filterMap_cons]
        by_cases hs : subscriptionId = s
        · subst hs
          cases hg : group messageId subscriptionIds attempts subscriptionId with
          | none =>
              simp only [hg] at ih
              simp [ih]
          | some p => simp [tryGetValue, group_key hg]
        · cases hg : group messageId subscriptionIds attempts s with
          | none => simp [ih, hs]
          | some p =>
              have hne : p.1 ≠ subscriptionId := by
                rw [group_key hg]
                exact Ne.symm hs
              have hskip : tryGetValue
                  (p :: ids.filterMap (group messageId subscriptionIds attempts)) subscriptionId =
                  tryGetValue (ids.filterMap (group messageId subscriptionIds attempts))
                    subscriptionId := by
                simp [tryGetValue, hne]
              simp [hskip, ih, hs]
  rw [getDeliveryStatesAsync, hlist]
  simp only [List.mem_dedup]

/-- A subscription asked for is seen to have succeeded exactly when a success is stored. -/
theorem tryGetValue_hasSuccess {messageId : Guid} {subscriptionIds : List Guid}
    {attempts : Attempts} {subscriptionId : Guid} (hmem : subscriptionId ∈ subscriptionIds) :
    (tryGetValue (getDeliveryStatesAsync messageId subscriptionIds attempts) subscriptionId).any
      (·.hasSuccess) = hasSuccess messageId subscriptionId attempts := by
  rw [tryGetValue_getDeliveryStatesAsync, if_pos hmem]
  unfold group
  simp only
  split
  · next h =>
      rw [List.isEmpty_iff] at h
      simp [hasSuccess, h]
  · simp

@[simp] theorem attemptRow_outboxMessageId (d : Defaults) (i : ℕ) (a : DeliveryAttempt) :
    (attemptRow dep d i a).outboxMessageId = a.outboxMessageId := rfl

@[simp] theorem attemptRow_webhookSubscriptionId (d : Defaults) (i : ℕ) (a : DeliveryAttempt) :
    (attemptRow dep d i a).webhookSubscriptionId = a.webhookSubscriptionId := rfl

@[simp] theorem attemptRow_status (d : Defaults) (i : ℕ) (a : DeliveryAttempt) :
    (attemptRow dep d i a).status = a.status := rfl

theorem attemptRow_id {d : Defaults} {i : ℕ} {a : DeliveryAttempt} (h : a.id ≠ .empty) :
    (attemptRow dep d i a).id = a.id := by
  simp [attemptRow, h]

/-- A save inserts the rows of the attempts. -/
theorem saveAttemptsAsync_rows {d : Defaults} {messages : Messages}
    {newAttempts : List DeliveryAttempt} {attempts attempts' : Attempts}
    (h : saveAttemptsAsync dep d messages newAttempts attempts = some attempts') :
    attempts'.rows = attempts.rows ++ attemptRows dep d newAttempts := by
  unfold saveAttemptsAsync at h
  split at h
  · next hempty =>
      cases h
      rw [List.isEmpty_iff.mp hempty]
      simp [attemptRows]
  · split at h
    · exact Table.insertAll?_eq_some_iff.mp h
    · cases h

/-- What is saved names a message of the table. -/
theorem saveAttemptsAsync_foreignKey {d : Defaults} {messages : Messages}
    {newAttempts : List DeliveryAttempt} {attempts attempts' : Attempts}
    (h : saveAttemptsAsync dep d messages newAttempts attempts = some attempts')
    {x : DeliveryAttempt} (hx : x ∈ newAttempts) :
    (messages.find? x.outboxMessageId).isSome = true := by
  unfold saveAttemptsAsync at h
  split at h
  · next hempty =>
      rw [List.isEmpty_iff.mp hempty] at hx
      cases hx
  · split at h
    · next hok =>
        simp only [Bool.and_eq_true, foreignKey, List.all_eq_true] at hok
        obtain ⟨i, hi, rfl⟩ := List.mem_iff_getElem.mp hx
        exact hok.2 (attemptRow dep d i newAttempts[i]) (List.mem_mapIdx.mpr ⟨i, hi, rfl⟩)
    · cases h

/-- A row after a save was there or is the row of an attempt saved. -/
theorem mem_saveAttemptsAsync {d : Defaults} {messages : Messages}
    {newAttempts : List DeliveryAttempt} {attempts attempts' : Attempts}
    (h : saveAttemptsAsync dep d messages newAttempts attempts = some attempts')
    {a : DeliveryAttempt} (ha : a ∈ attempts'.rows) :
    a ∈ attempts.rows ∨ ∃ i, ∃ x ∈ newAttempts, a = attemptRow dep d i x := by
  rw [saveAttemptsAsync_rows h, List.mem_append] at ha
  refine ha.imp_right fun ha => ?_
  obtain ⟨i, hi, rfl⟩ := List.mem_mapIdx.mp ha
  exact ⟨i, _, List.getElem_mem hi, rfl⟩

/-- After a save, the successes are the old ones and those saved. -/
theorem hasSuccess_saveAttemptsAsync {d : Defaults} {messages : Messages}
    {newAttempts : List DeliveryAttempt} {attempts attempts' : Attempts}
    (h : saveAttemptsAsync dep d messages newAttempts attempts = some attempts')
    (messageId subscriptionId : Guid) :
    hasSuccess messageId subscriptionId attempts' = true ↔
      hasSuccess messageId subscriptionId attempts = true ∨ ∃ a ∈ newAttempts,
        a.outboxMessageId = messageId ∧ a.webhookSubscriptionId = subscriptionId ∧
          a.status = .success := by
  have hrows : (∃ a ∈ attemptRows dep d newAttempts, a.outboxMessageId = messageId ∧
      a.webhookSubscriptionId = subscriptionId ∧ a.status = .success) ↔ ∃ a ∈ newAttempts,
        a.outboxMessageId = messageId ∧ a.webhookSubscriptionId = subscriptionId ∧
          a.status = .success := by
    constructor
    · rintro ⟨a, ha, h'⟩
      obtain ⟨i, hi, rfl⟩ := List.mem_mapIdx.mp ha
      exact ⟨_, List.getElem_mem hi, h'⟩
    · rintro ⟨a, ha, h'⟩
      obtain ⟨i, hi, rfl⟩ := List.mem_iff_getElem.mp ha
      exact ⟨_, List.mem_mapIdx.mpr ⟨i, hi, rfl⟩, h'⟩
  rw [hasSuccess_iff, hasSuccess_iff, saveAttemptsAsync_rows h, ← hrows]
  simp only [List.mem_append, or_and_right, exists_or]

/-- After a save, the attempts of a subscription are the old ones and those saved. -/
theorem length_attemptsOf_saveAttemptsAsync {d : Defaults} {messages : Messages}
    {newAttempts : List DeliveryAttempt} {attempts attempts' : Attempts}
    (h : saveAttemptsAsync dep d messages newAttempts attempts = some attempts')
    (messageId subscriptionId : Guid) :
    (attemptsOf messageId subscriptionId attempts').length =
      (attemptsOf messageId subscriptionId attempts).length + newAttempts.countP fun a =>
        a.outboxMessageId = messageId && a.webhookSubscriptionId = subscriptionId := by
  have hrows : (attemptRows dep d newAttempts).countP (fun a =>
        a.outboxMessageId = messageId && a.webhookSubscriptionId = subscriptionId) =
      newAttempts.countP fun a =>
        a.outboxMessageId = messageId && a.webhookSubscriptionId = subscriptionId := by
    rw [attemptRows, List.mapIdx_eq_zipIdx_map, List.countP_map]
    conv_rhs => rw [← List.zipIdx_map_fst 0 newAttempts, List.countP_map]
    rfl
  rw [attemptsOf, attemptsOf, saveAttemptsAsync_rows h, List.filter_append, List.length_append,
    ← List.countP_eq_length_filter, ← List.countP_eq_length_filter, hrows]

theorem mem_cascade {messages : Messages} {attempts : Attempts} {a : DeliveryAttempt} :
    a ∈ (cascade messages attempts).rows ↔
      a ∈ attempts.rows ∧ (messages.find? a.outboxMessageId).isSome = true := by
  simp only [cascade, Table.mem_delete, Option.isNone_eq_false_iff]

/-- A cascade keeps the successes of the messages that are left. -/
theorem hasSuccess_cascade {messages : Messages} {attempts : Attempts} {messageId : Guid}
    {m : OutboxMessage} (hm : messages.find? messageId = some m) (subscriptionId : Guid) :
    hasSuccess messageId subscriptionId (cascade messages attempts) =
      hasSuccess messageId subscriptionId attempts := by
  rw [Bool.eq_iff_iff, hasSuccess_iff, hasSuccess_iff]
  simp only [mem_cascade]
  constructor
  · rintro ⟨a, ⟨ha, -⟩, h⟩
    exact ⟨a, ha, h⟩
  · rintro ⟨a, ha, hid, h⟩
    exact ⟨a, ⟨ha, by rw [hid, hm]; rfl⟩, hid, h⟩

end AttemptStore

end OutboxNet
