import OutboxNet.Delivery.HttpWebhookDeliverer
import OutboxNet.Delivery.Identifiers
import OutboxNet.Processor.Isolation

/-!
# What a receiver can tell by the delivery id

`DeliverToSubscriptionsAsync` derives an id for each attempt, and `DeliverAsync` sends it in
`X-Outbox-Delivery-Id`, as the key by which receivers tell the attempts apart.  Two requests with one
value of the header are requests of one attempt, as far as the hash has no collision among the attempts
there are: the text tells the id, and what is hashed tells the attempt.

The custom headers of a subscription are added after those of the deliverer, under any names.  They may
add further values to the header, but its first one is the id; requests with the same values of it have
the same first one.
-/

set_option autoImplicit false

namespace OutboxNet

open AttemptStore (States)
open HttpWebhookDeliverer (deliverAsync deliveryRequest orderMessage testSubscription)
open SubscriptionStore (guidToString)

/-! ## The deliveries of the loop -/

/-- A delivery, if it is one, is one of `message` and carries the id of its next attempt. -/
def Call.CarriesKey (sha256 : Hash) (message : OutboxMessage) (states : States) : Call → Prop
  | .deliver m subscription deliveryId => m = message ∧
      deliveryId = deriveDeliveryId sha256 message.id subscription.id
        (Pipeline.nextAttempt states subscription)
  | _ => True

namespace Pipeline

variable {p : Pipeline} {message : OutboxMessage} {states : States}

/-- The loop starts only deliveries that carry the ids of their attempts. -/
theorem deliverToSubscriptionsAsync_carriesKey (loop : LoopSchedule)
    (subscriptions : List WebhookSubscription) :
    (p.deliverToSubscriptionsAsync loop message subscriptions states).run.Only
      (Call.CarriesKey p.sha256 message states) :=
  deliverToSubscriptionsAsync_only loop (fun _ _ => ⟨rfl, rfl⟩) trivial

/-- A subscription that is due is delivered to, also when it is the only one. -/
theorem deliverToSubscriptionsAsync_calls {subscription : WebhookSubscription} {limit : Option ℕ}
    (hlimit : parallelOptions p.options.maxConcurrentSubscriptionDeliveries = .ok limit)
    (hsuccess : hasSuccess states subscription = false)
    (hcount : attemptCount states subscription ≤ subscription.maxRetries) :
    (p.deliverToSubscriptionsAsync ⟨false, []⟩ message [subscription] states).run.Calls
      (.deliver message subscription (deriveDeliveryId p.sha256 message.id subscription.id
        (nextAttempt states subscription))) := by
  unfold deliverToSubscriptionsAsync
  rw [hlimit]
  -- with no choices the body is started and run to its end
  show (Prog.bind (Prog.bind (Parallel.finish (p.deliverToSubscription message states
    subscription).run DeliveryOutcome.zero) _) _).Calls _
  rw [Job.deliverToSubscription_run, hsuccess, if_neg Bool.false_ne_true,
    if_neg (Int.not_lt.mpr hcount)]
  exact .inl rfl

end Pipeline

/-! ## The header -/

/-- The name of the header. -/
def deliveryIdName : Text := text "X-Outbox-Delivery-Id"

/-- The first value of the header, if there is one. -/
def deliveryIdHeader (request : HttpRequestMessage) : Option Text :=
  request.headers.lookup deliveryIdName

/-- The value the deliverer adds comes first. -/
theorem deliveryIdHeader_deliveryRequest (message : OutboxMessage) (subscription : WebhookSubscription)
    (deliveryId : Guid) (timestamp signature : Text) (custom : List (Text × Text)) :
    deliveryIdHeader (deliveryRequest message subscription deliveryId timestamp signature custom) =
      some (guidToString deliveryId) := by
  have hsignature : (deliveryIdName == text "X-Outbox-Signature") = false := by decide
  have hevent : (deliveryIdName == text "X-Outbox-Event") = false := by decide
  have hmessage : (deliveryIdName == text "X-Outbox-Message-Id") = false := by decide
  have hid : (deliveryIdName == text "X-Outbox-Delivery-Id") = true := by decide
  unfold deliveryIdHeader deliveryRequest HttpWebhookDeliverer.outboxHeaders
  simp only [List.cons_append, List.lookup_cons, hsignature, hevent, hmessage, hid]

/-- A request is sent in an attempt: a loop over subscriptions starts the delivery, in whatever order it
runs, and the deliverer sends the request, whatever its calls are answered with. -/
inductive SentIn (sha256 : Hash) : AttemptKey → HttpRequestMessage → Prop
  | intro {p : Pipeline} {loop : LoopSchedule} {message message' : OutboxMessage}
      {subscriptions : List WebhookSubscription} {states : States}
      {subscription : WebhookSubscription} {deliveryId : Guid} {hmac : HmacSha256}
      {culture : InvariantCulture} {request : HttpRequestMessage} :
      p.sha256 = sha256 →
      (p.deliverToSubscriptionsAsync loop message subscriptions states).run.Calls
        (.deliver message' subscription deliveryId) →
      (deliverAsync hmac culture message' subscription (some deliveryId)).run.Calls (.send request) →
      SentIn sha256 (message'.id, subscription.id, Pipeline.nextAttempt states subscription) request

variable {sha256 : Hash} {key : AttemptKey} {request : HttpRequestMessage}

/-- The number of an attempt is one of 32 bits. -/
theorem SentIn.isInt32 (h : SentIn sha256 key request) : IsInt32 key.2.2 := by
  cases h with
  | intro _ _ _ => exact isInt32_int32 _

/-- The header has the text of the id derived for the attempt. -/
theorem SentIn.deliveryIdHeader_eq (h : SentIn sha256 key request) :
    deliveryIdHeader request =
      some (guidToString (deriveDeliveryId sha256 key.1 key.2.1 key.2.2)) := by
  cases h with
  | @intro p loop message message' subscriptions states subscription deliveryId hmac culture _ hp hloop
      hsend =>
      subst hp
      obtain ⟨rfl, rfl⟩ :=
        (Pipeline.deliverToSubscriptionsAsync_carriesKey loop subscriptions).calls hloop
      have hsends : HttpWebhookDeliverer.SendsOnly (fun request => deliveryIdHeader request =
          some (guidToString (deriveDeliveryId p.sha256 message'.id subscription.id
            (Pipeline.nextAttempt states subscription))))
          (deliverAsync hmac culture message' subscription (some _)).run :=
        HttpWebhookDeliverer.sendsOnly_deliverAsync fun timestamp signature custom _ =>
          deliveryIdHeader_deliveryRequest message' subscription _ timestamp signature custom
      exact hsends.calls hsend request rfl

/-- The next attempt of a subscription that is due can be sent. -/
theorem sentIn_nextAttempt {p : Pipeline} {message : OutboxMessage} {states : States}
    {subscription : WebhookSubscription} {limit : Option ℕ} {hmac : HmacSha256}
    {culture : InvariantCulture} {signature : Text}
    (hlimit : Pipeline.parallelOptions p.options.maxConcurrentSubscriptionDeliveries = .ok limit)
    (hsuccess : Pipeline.hasSuccess states subscription = false)
    (hcount : Pipeline.attemptCount states subscription ≤ subscription.maxRetries)
    (hsignature : HmacSignatureGenerator.computeSignature hmac culture message.payload
      subscription.secret = .ok signature) (utcNow : DateTimeOffset) :
    SentIn p.sha256 (message.id, subscription.id, Pipeline.nextAttempt states subscription)
      (deliveryRequest message subscription (deriveDeliveryId p.sha256 message.id subscription.id
        (Pipeline.nextAttempt states subscription)) (unixTimeSeconds utcNow) signature
        (subscription.customHeaders.getD [])) :=
  .intro rfl (Pipeline.deliverToSubscriptionsAsync_calls hlimit hsuccess hcount)
    (HttpWebhookDeliverer.deliverAsync_calls hsignature utcNow)

/-- **The delivery id identifies the attempt.** What is hashed tells message, subscription and number;
the writes leave no byte of the buffer as it was, and do not overlap; and among attempts without a
collision, requests with one value of the header are sent in one attempt. -/
theorem deliveryId_identifies_attempt :
    (∀ (messageId messageId' subscriptionId subscriptionId' : Guid)
      (attemptNumber attemptNumber' : ℤ), IsInt32 attemptNumber → IsInt32 attemptNumber' →
      deliveryIdInput messageId subscriptionId attemptNumber =
        deliveryIdInput messageId' subscriptionId' attemptNumber' →
      messageId = messageId' ∧ subscriptionId = subscriptionId' ∧
        attemptNumber = attemptNumber') ∧
    (∀ (messageId subscriptionId : Guid) (attemptNumber : ℤ),
      Buffer.Tiles 36 (deliveryIdWrites messageId subscriptionId attemptNumber) ∧
      ∀ buffer : List Byte, buffer.length = 36 →
        Buffer.writeAll (deliveryIdWrites messageId subscriptionId attemptNumber) buffer =
          deliveryIdInput messageId subscriptionId attemptNumber) ∧
    ∀ (sha256 : Hash) (attempts : Set AttemptKey),
      sha256.CollisionFree (Set.image attemptInput attempts) →
      ∀ key ∈ attempts, ∀ key' ∈ attempts, ∀ request request' : HttpRequestMessage,
        SentIn sha256 key request → SentIn sha256 key' request' →
        deliveryIdHeader request = deliveryIdHeader request' → key = key' := by
  refine ⟨fun _ _ _ _ _ _ => deliveryIdInput_injOn, fun messageId subscriptionId attemptNumber =>
    ⟨tiles_deliveryIdWrites _ _ _, fun buffer hbuffer => ?_⟩, ?_⟩
  · rw [deliveryIdInput_eq_writeAll]
    exact (tiles_deliveryIdWrites messageId subscriptionId attemptNumber).writeAll_eq hbuffer
      List.length_replicate
  · intro sha256 attempts hfree key hkey key' hkey' request request' hsent hsent' hheader
    rw [hsent.deliveryIdHeader_eq, hsent'.deliveryIdHeader_eq] at hheader
    have hid := guidToString_injective (Option.some.inj hheader)
    -- of the attempts only these two matter
    have hpair : ({key, key'} : Set AttemptKey) ⊆ attempts := by
      rintro _ (rfl | rfl)
      · exact hkey
      · exact hkey'
    have hfree' : sha256.CollisionFree (Set.image attemptInput {key, key'}) :=
      hfree.mono (Set.image_mono hpair)
    refine deriveDeliveryId_injOn hfree' ?_ (.inl rfl) (.inr rfl) hid
    rintro _ (rfl | rfl)
    · exact hsent.isInt32
    · exact hsent'.isInt32

/-! ## Two attempts -/

/-- SHA-256 with its values for the first two attempts of message 1 to subscription 7. -/
def twoAttemptsSha256 : Hash where
  hashData input :=
    if input = attemptInput (1, 7, 2) then
      [135, 114, 4, 41, 190, 64, 215, 231, 63, 230, 14, 62, 241, 153, 202, 81, 129, 39, 48, 109, 2, 185,
        232, 176, 108, 77, 243, 157, 42, 225, 59, 37]
    else
      [208, 224, 194, 205, 48, 12, 223, 197, 88, 141, 153, 139, 198, 57, 132, 27, 52, 106, 109, 89, 48,
        94, 122, 14, 6, 209, 5, 250, 79, 146, 170, 156]
  length_hashData input := by split <;> rfl

/-- The two attempts. -/
def twoAttempts : Set AttemptKey := {(1, 7, 1), (1, 7, 2)}

theorem twoAttempts_collisionFree :
    twoAttemptsSha256.CollisionFree (Set.image attemptInput twoAttempts) := by
  have hne : twoAttemptsSha256.guid (attemptInput (1, 7, 1)) ≠
      twoAttemptsSha256.guid (attemptInput (1, 7, 2)) := by decide +kernel
  rintro _ ⟨key, rfl | rfl, rfl⟩ _ ⟨key', rfl | rfl, rfl⟩ h
  · rfl
  · exact absurd h hne
  · exact absurd h.symm hne
  · rfl

/-- A host with that hash. -/
def twoAttemptsHost : Pipeline where
  options := { instanceId := text "func-1" }
  retryPolicy := ExponentialBackoff.policy {}
  sha256 := twoAttemptsSha256

/-- The signature of the payload of the tests. -/
def samplePayloadSignature : Text :=
  text "sha256=" ++ InvariantCulture.ascii.toLower (toHexString
    (sampleHmac.hashData (utf8GetBytes (text "whsec_abc123")) (utf8GetBytes samplePayload)))

/-- The request of an attempt. -/
def attemptRequest (attemptNumber : ℤ) : HttpRequestMessage :=
  deliveryRequest orderMessage testSubscription (deriveDeliveryId twoAttemptsSha256 1 7 attemptNumber)
    (unixTimeSeconds unixEpochTicks) samplePayloadSignature []

/-- The first attempt is sent when there is no state, the second after one failure. -/
theorem sentIn_attemptRequest :
    SentIn twoAttemptsSha256 (1, 7, 1) (attemptRequest 1) ∧
    SentIn twoAttemptsSha256 (1, 7, 2) (attemptRequest 2) := by
  have hsent : ∀ (states : States) (n : ℤ),
      Pipeline.hasSuccess states testSubscription = false →
      Pipeline.attemptCount states testSubscription ≤ 5 →
      Pipeline.nextAttempt states testSubscription = n →
      SentIn twoAttemptsSha256 (1, 7, n) (attemptRequest n) := by
    rintro states _ hsuccess hcount rfl
    have hsignature : HmacSignatureGenerator.computeSignature sampleHmac .ascii orderMessage.payload
        testSubscription.secret = .ok samplePayloadSignature := rfl
    exact sentIn_nextAttempt (p := twoAttemptsHost) rfl hsuccess hcount hsignature unixEpochTicks
  exact ⟨hsent [] 1 rfl (by decide) rfl, hsent [(7, ⟨1, false⟩)] 2 rfl (by decide) rfl⟩

/-- The second attempt is told from the first. -/
theorem second_attempt_told_apart :
    deliveryIdInput 1 7 1 ≠ deliveryIdInput 1 7 2 ∧
    deliveryIdHeader (attemptRequest 1) ≠ deliveryIdHeader (attemptRequest 2) := by
  constructor
  · intro h
    have hsame := deliveryId_identifies_attempt.1 1 1 7 7 1 2 (by decide) (by decide) h
    exact absurd hsame.2.2 (by decide)
  · intro h
    have hsame := deliveryId_identifies_attempt.2.2 twoAttemptsSha256 twoAttempts
      twoAttempts_collisionFree (1, 7, 1) (.inl rfl) (1, 7, 2) (.inr rfl) _ _
      sentIn_attemptRequest.1 sentIn_attemptRequest.2 h
    exact absurd hsame (by decide)

end OutboxNet
