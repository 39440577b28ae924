import Mathlib.Data.List.Sort
import OutboxNet.Store.AttemptNumbers

/-!
# The queries of the table of attempts

The statement of `IDeliveryAttemptStore` that lists the attempts of a message, and the two helpers for one
subscription.  The server comes upon the rows in some order, `scan`, and sorts them; rows with equal keys
stay as they came.

The attempts of a subscription in the list for its message are those stored for it, and the helpers count
them and look for a success among them.
-/

set_option autoImplicit false

namespace OutboxNet.AttemptStore

/-! ## The statements -/

/-- `GetByMessageIdAsync`. -/
def getByMessageIdAsync (messageId : Guid) (scan : List DeliveryAttempt) : List DeliveryAttempt :=
  (scan.filter fun a => a.outboxMessageId = messageId).insertionSort
    fun a b => a.attemptNumber ≤ b.attemptNumber

/-- `GetAttemptCountAsync`. -/
def getAttemptCountAsync (messageId subscriptionId : Guid) (attempts : Attempts) : ℤ :=
  let states := getDeliveryStatesAsync messageId [subscriptionId] attempts
  ((tryGetValue states subscriptionId).map (·.attemptCount)).getD 0

/-- `HasSuccessfulDeliveryAsync`. -/
def hasSuccessfulDeliveryAsync (messageId subscriptionId : Guid) (attempts : Attempts) : Bool :=
  let states := getDeliveryStatesAsync messageId [subscriptionId] attempts
  (tryGetValue states subscriptionId).any (·.hasSuccess)

/-! ## The helpers -/

variable {messageId subscriptionId : Guid} {attempts : Attempts} {scan : List DeliveryAttempt}

theorem getAttemptCountAsync_eq : getAttemptCountAsync messageId subscriptionId attempts =
    (attemptsOf messageId subscriptionId attempts).length := by
  unfold getAttemptCountAsync
  simp only
  rw [tryGetValue_getDeliveryStatesAsync, if_pos (List.mem_singleton_self subscriptionId), group]
  split
  · next hempty =>
      rw [List.isEmpty_iff] at hempty
      rw [hempty]
      rfl
  · simp

theorem hasSuccessfulDeliveryAsync_eq : hasSuccessfulDeliveryAsync messageId subscriptionId attempts =
    hasSuccess messageId subscriptionId attempts :=
  tryGetValue_hasSuccess (List.mem_singleton_self subscriptionId)

/-! ## The attempts of a message -/

theorem getByMessageIdAsync_sorted : (getByMessageIdAsync messageId scan).Pairwise
    fun a b => a.attemptNumber ≤ b.attemptNumber :=
  List.pairwise_insertionSort (fun a b : DeliveryAttempt => a.attemptNumber ≤ b.attemptNumber) _

/-- The part of a subscription of the list for a message. -/
def historyOf (subscriptionId : Guid) (history : List DeliveryAttempt) : List DeliveryAttempt :=
  history.filter fun a => a.webhookSubscriptionId = subscriptionId

/-- **The history of a subscription** has the attempts that are stored. -/
theorem historyOf_perm (hscan : scan.Perm attempts.rows) :
    (historyOf subscriptionId (getByMessageIdAsync messageId scan)).Perm
      (attemptsOf messageId subscriptionId attempts) := by
  have hsort : (getByMessageIdAsync messageId scan).Perm
      (attempts.rows.filter fun a => a.outboxMessageId = messageId) :=
    (List.perm_insertionSort _ _).trans (hscan.filter _)
  have hrows := hsort.filter fun a => decide (a.webhookSubscriptionId = subscriptionId)
  rw [List.filter_filter] at hrows
  refine hrows.trans (List.Perm.of_eq ?_)
  rw [attemptsOf]
  exact congrArg (List.filter · attempts.rows) (funext fun a => Bool.and_comm _ _)

/-- It comes in the order of the numbers. -/
theorem historyOf_sorted : (historyOf subscriptionId (getByMessageIdAsync messageId scan)).Pairwise
    fun a b => a.attemptNumber ≤ b.attemptNumber :=
  getByMessageIdAsync_sorted.filter _

end OutboxNet.AttemptStore
