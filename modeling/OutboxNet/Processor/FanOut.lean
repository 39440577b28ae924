import OutboxNet.Core.ServiceCollection
import OutboxNet.Lib.Interleave
import OutboxNet.Processor.Pipeline

/-!
# The limit on concurrent deliveries of a message

`MaxConcurrentSubscriptionDeliveries` from the delegate of `AddOutboxNet` to the loop over the
subscriptions of a message.  The loop keeps the limit it is given, and starts as many bodies as the
limit allows when the scheduler wants it to.  The action that `AddOutboxNet` registers does not copy the
property, so the pipeline is given the default.
-/

set_option autoImplicit false

namespace OutboxNet

open AttemptStore (States)

/-! ## Deliveries in flight -/

namespace Pipeline

/-- A body of the loop over the subscriptions. -/
abbrev LoopBody := Parallel.Body Call Call.Ans DeliveryOutcome Exn

/-- The body is at a delivery that has been started and not been answered. -/
def delivering : LoopBody → Bool
  | .call (.ext (.deliver _ _ _)) _ => true
  | _ => false

/-- The `DeliverAsync` calls in flight. -/
def deliveriesInFlight (threads : List LoopBody) : ℕ := threads.countP delivering

/-- A moment of a run of `DeliverToSubscriptionsAsync`: what is reached from its beginning, calls being
answered in any way. -/
def Moment (p : Pipeline) (message : OutboxMessage) (subscriptions : List WebhookSubscription)
    (states : States) (threads : List LoopBody) : Prop :=
  ∃ limit acc, parallelOptions p.options.maxConcurrentSubscriptionDeliveries = .ok limit ∧
    Parallel.Reaches (fun _ _ _ _ => True) limit subscriptions
      (fun subscription => (p.deliverToSubscription message states subscription).run)
      ⟨[], DeliveryOutcome.zero, ()⟩ ⟨threads, acc, ()⟩

/-- At no moment more than `k` deliveries of a message are in flight. -/
def FanOutWithin (p : Pipeline) (k : ℤ) : Prop :=
  ∀ message subscriptions states threads, p.Moment message subscriptions states threads →
    (deliveriesInFlight threads : ℤ) ≤ k

theorem deliveriesInFlight_le_inFlight (threads : List LoopBody) :
    deliveriesInFlight threads ≤ Parallel.inFlight threads := by
  apply List.countP_mono_left
  intro b _ hb
  cases b with
  | ret r => cases hb
  | call c k => rfl

/-- A degree of parallelism is kept. -/
theorem fanOutWithin_of_le {p : Pipeline} {n : ℕ} {k : ℤ} (hn : 0 < n)
    (hdegree : p.options.maxConcurrentSubscriptionDeliveries = n) (hk : (n : ℤ) ≤ k) :
    p.FanOutWithin k := by
  rintro message subscriptions states threads ⟨limit, acc, hlimit, hreach⟩
  have hsome : limit = some n := by
    rw [hdegree, parallelOptions, if_neg (by omega), if_neg (by omega)] at hlimit
    cases hlimit
    rfl
  rw [hsome] at hreach
  have hle : Parallel.inFlight threads ≤ n := hreach.inFlight_le (Nat.zero_le n)
  have hdeliveries := deliveriesInFlight_le_inFlight threads
  omega

/-- A subscription that has not been delivered to. -/
def freshSubscription (i : ℕ) : WebhookSubscription where
  id := BitVec.ofNat 128 i
  tenantId := none
  eventType := text "order.placed"
  webhookUrl := text "https://example.org/hook"
  secret := some (text "secret")
  isActive := true
  maxRetries := 5
  timeout := 30 * ticksPerSecond
  customHeaders := none

/-- A message for subscriptions that have not been delivered to. -/
def freshMessage : OutboxMessage :=
  ⟨1, text "order.placed", [], none, none, .processing, 0, 0, none, none, none, none, none, none, none,
    none, none⟩

/-- The body for such a subscription begins with its delivery. -/
theorem delivering_freshSubscription (p : Pipeline) (i : ℕ) :
    delivering (p.deliverToSubscription freshMessage [] (freshSubscription i)).run = true :=
  rfl

/-- As many deliveries as the degree of parallelism may be in flight. -/
theorem le_of_fanOutWithin {p : Pipeline} {n : ℕ} {k : ℤ} (hn : 0 < n)
    (hdegree : p.options.maxConcurrentSubscriptionDeliveries = n) (h : p.FanOutWithin k) :
    (n : ℤ) ≤ k := by
  have hlimit : parallelOptions p.options.maxConcurrentSubscriptionDeliveries = .ok (some n) := by
    rw [hdegree, parallelOptions, if_neg (by omega), if_neg (by omega)]
    rfl
  -- `n` subscriptions, all started before one of them is answered
  have hmoment := h freshMessage ((List.range n).map freshSubscription) [] _
    ⟨some n, DeliveryOutcome.zero, hlimit,
      Parallel.reaches_start (n := n) (by rintro m ⟨⟩; exact le_rfl) (by simp) _ _⟩
  have hall : deliveriesInFlight ((((List.range n).map freshSubscription).take n).map
      fun subscription => (p.deliverToSubscription freshMessage [] subscription).run) = n := by
    unfold deliveriesInFlight
    rw [List.countP_eq_length.mpr, List.length_map, List.length_take, List.length_map,
      List.length_range, Nat.min_self]
    intro b hb
    obtain ⟨subscription, hsubscription, rfl⟩ := List.mem_map.mp hb
    obtain ⟨i, -, rfl⟩ := List.mem_map.mp (List.mem_of_mem_take hsubscription)
    exact delivering_freshSubscription p i
  rw [hall] at hmoment
  exact hmoment

/-! ## From the delegate to the loop -/

/-- The pipeline of a container to which `AddOutboxNet` has added its services; `instanceId` and
`instanceId'` are those of the options objects the delegate and the registered actions are applied to. -/
def configured (configure : OutboxOptions → OutboxOptions) (instanceId instanceId' : Text)
    (descriptors : List ServiceDescriptor) (retryPolicy : RetryPolicy) (sha256 : Hash) : Pipeline where
  options := (addOutboxNet configure { instanceId := instanceId } ⟨descriptors, []⟩).outboxOptions
    { instanceId := instanceId' }
  retryPolicy := retryPolicy
  sha256 := sha256

/-- **When the configured limit is kept.** The deliveries of a message stay within the limit the delegate
sets exactly when it is not below the default: that is the one the loop is given. -/
theorem configured_fanOutWithin_iff (configure : OutboxOptions → OutboxOptions)
    (instanceId instanceId' : Text) (descriptors : List ServiceDescriptor) (retryPolicy : RetryPolicy)
    (sha256 : Hash) :
    (configured configure instanceId instanceId' descriptors retryPolicy sha256).FanOutWithin
        (configure { instanceId := instanceId }).maxConcurrentSubscriptionDeliveries ↔
      4 ≤ (configure { instanceId := instanceId }).maxConcurrentSubscriptionDeliveries := by
  have hdegree : (configured configure instanceId instanceId' descriptors retryPolicy
      sha256).options.maxConcurrentSubscriptionDeliveries = (4 : ℕ) := rfl
  constructor
  · exact le_of_fanOutWithin (n := 4) (by omega) hdegree
  · exact fanOutWithin_of_le (n := 4) (by omega) hdegree

/-- Sequential delivery is configured, and four deliveries are in flight. -/
theorem sequential_delivery_lost :
    ¬ (configured (fun o => { o with maxConcurrentSubscriptionDeliveries := 1 }) (text "host-1")
      (text "host-2") [] ⟨fun _ _ => .ok none⟩ ⟨fun _ => List.replicate 32 0, fun _ => rfl⟩).FanOutWithin
        1 := by
  intro h
  have hle := le_of_fanOutWithin (n := 4) (by omega) rfl h
  omega

end Pipeline

end OutboxNet
