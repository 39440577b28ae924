import OutboxNet.Store.OutboxStore
import OutboxNet.Store.SubscriptionStore

/-!
# The envelope of the storage queue

`AzureStorageQueuePublisher` wraps a message in an envelope without its tenant.  The readers of
subscriptions route by event type and tenant, so messages with one envelope can have different
subscriptions: exactly when the reader has a route that tells their tenants apart.
-/

set_option autoImplicit false

namespace OutboxNet

/-! ## The envelope -/

structure QueueMessageEnvelope where
  messageId : Guid
  eventType : Text
  payload : Text
  correlationId : Option Text
  traceId : Option Text
  headers : Option (List (Text × Text))
  createdAt : DateTimeOffset
deriving DecidableEq, Repr

/-- The envelope `PublishAsync` sends for a message. -/
def OutboxMessage.envelope (message : OutboxMessage) : QueueMessageEnvelope where
  messageId := message.id
  eventType := message.eventType
  payload := message.payload
  correlationId := message.correlationId
  traceId := message.traceId
  headers := message.headers
  createdAt := message.createdAt

/-! ## Routes -/

namespace ConfigSubscriptionStore

/-- The endpoint configured for a tenant: its own, or the catch-all. -/
def endpoint (options : WebhookOptions) (tenantId : Option Text) : Option WebhookEndpointConfig :=
  (tenantId.bind (tryGetValue options)).or (tryGetValue options (text "default"))

theorem resolveForTenant_eq (md5 : Md5) (options : WebhookOptions) (tenantId : Option Text) :
    resolveForTenant md5 options tenantId =
      (endpoint options tenantId).toList.map fun config => toSubscription md5 config tenantId := by
  unfold resolveForTenant endpoint
  cases tenantId.bind (tryGetValue options) with
  | some config => rfl
  | none => cases tryGetValue options (text "default") <;> rfl

/-- A subscription has all its endpoint has. -/
theorem toSubscription_inj {md5 : Md5} {config config' : WebhookEndpointConfig}
    {tenantId tenantId' : Option Text}
    (h : toSubscription md5 config tenantId = toSubscription md5 config' tenantId') :
    config = config' ∧
      deterministicId md5 config.url tenantId = deterministicId md5 config.url tenantId' := by
  obtain ⟨url, secret, maxRetries, timeoutSeconds, customHeaders⟩ := config
  obtain ⟨url', secret', maxRetries', timeoutSeconds', customHeaders'⟩ := config'
  simp only [toSubscription, WebhookSubscription.mk.injEq, true_and] at h
  obtain ⟨hid, rfl, rfl, rfl, htimeout, rfl⟩ := h
  have hseconds : timeoutSeconds = timeoutSeconds' :=
    Int.eq_of_mul_eq_mul_right (by decide) htimeout
  rw [hseconds]
  exact ⟨rfl, hid⟩

end ConfigSubscriptionStore

namespace SubscriptionReader

/-- The reader has no route that tells two tenants apart, for messages of an event type. -/
def RoutesAlike (dep : Deployment) (eventType : Text) (tenantId tenantId' : Option Text) :
    SubscriptionReader → Prop
  | database subscriptions _ => ∀ s ∈ subscriptions.rows, s.isActive = true →
      SubscriptionStore.forEventType dep eventType s = true →
      SubscriptionStore.forTenant dep tenantId s = SubscriptionStore.forTenant dep tenantId' s
  | config md5 options => options.mode = .perTenant →
      ConfigSubscriptionStore.endpoint options tenantId =
        ConfigSubscriptionStore.endpoint options tenantId' ∧
      ∀ c, ConfigSubscriptionStore.endpoint options tenantId = some c →
        ConfigSubscriptionStore.deterministicId md5 c.url tenantId =
          ConfigSubscriptionStore.deterministicId md5 c.url tenantId'
  | null => True

/-- The reader gives two messages the same subscriptions. -/
def SameSubscriptions (dep : Deployment) (reader : SubscriptionReader)
    (message message' : OutboxMessage) : Prop :=
  ∀ result, reader.Returns dep message result ↔ reader.Returns dep message' result

variable {dep : Deployment} {message message' : OutboxMessage}

/-- Subscriptions of the table are the same when no row tells the tenants apart. -/
theorem database_sameSubscriptions_iff {subscriptions : Subscriptions}
    {secretRetriever : Option SubscriptionStore.SecretRetriever}
    (heventType : message'.eventType = message.eventType) :
    SameSubscriptions dep (database subscriptions secretRetriever) message message' ↔
      RoutesAlike dep message.eventType message.tenantId message'.tenantId
        (database subscriptions secretRetriever) := by
  constructor
  · intro hsame s hs hactive hevent
    -- the answer in the order of the table is an answer for both
    obtain ⟨rows, hrows, hresult⟩ := (hsame _).mp ⟨subscriptions.rows, List.Perm.refl _, rfl⟩
    have hiff : s.id ∈ (SubscriptionStore.getForMessageAsync dep secretRetriever subscriptions.rows
        message).map WebhookSubscription.id ↔ SubscriptionStore.selects dep message s = true :=
      SubscriptionStore.mem_getForMessageAsync_iff (List.Perm.refl _) hs
    rw [hresult, SubscriptionStore.mem_getForMessageAsync_iff hrows hs,
      SubscriptionStore.selects_eq_and, SubscriptionStore.selects_eq_and, heventType, hactive, hevent,
      Bool.true_and, Bool.true_and] at hiff
    exact Bool.eq_iff_iff.mpr hiff.symm
  · intro halike result
    have hselects : ∀ rows : List WebhookSubscription, rows.Perm subscriptions.rows →
        rows.filter (SubscriptionStore.selects dep message) =
          rows.filter (SubscriptionStore.selects dep message') := by
      intro rows hrows
      refine List.filter_congr fun s hs => ?_
      rw [SubscriptionStore.selects_eq_and, SubscriptionStore.selects_eq_and, heventType]
      cases hactive : s.isActive with
      | false => rfl
      | true =>
          cases hevent : SubscriptionStore.forEventType dep message.eventType s with
          | false => rfl
          | true => rw [halike s (hrows.mem_iff.mp hs) hactive hevent]
    constructor
    · rintro ⟨rows, hrows, rfl⟩
      refine ⟨rows, hrows, ?_⟩
      rw [SubscriptionStore.getForMessageAsync, SubscriptionStore.getForMessageAsync,
        hselects rows hrows]
    · rintro ⟨rows, hrows, rfl⟩
      refine ⟨rows, hrows, ?_⟩
      rw [SubscriptionStore.getForMessageAsync, SubscriptionStore.getForMessageAsync,
        hselects rows hrows]

/-- Subscriptions from configuration are the same when the tenants have one endpoint and one id. -/
theorem config_sameSubscriptions_iff {md5 : Md5} {options : WebhookOptions} {eventType : Text} :
    SameSubscriptions dep (config md5 options) message message' ↔
      RoutesAlike dep eventType message.tenantId message'.tenantId (config md5 options) := by
  have hequal : SameSubscriptions dep (config md5 options) message message' ↔
      ConfigSubscriptionStore.getForMessageAsync md5 options message =
        ConfigSubscriptionStore.getForMessageAsync md5 options message' := by
    constructor
    · exact fun h => (h _).mp rfl
    · intro h result
      show result = _ ↔ result = _
      rw [h]
  -- no rows are read, so the answer is a function of the message; only `perTenant` looks at the tenant
  rw [hequal]
  show _ ↔ (options.mode = .perTenant → _)
  unfold ConfigSubscriptionStore.getForMessageAsync
  cases options.mode with
  | global => exact iff_of_true rfl fun h => nomatch h
  | other => exact iff_of_true rfl fun h => nomatch h
  | perTenant =>
      rw [forall_prop_of_true rfl]
      show ConfigSubscriptionStore.resolveForTenant md5 options message.tenantId =
        ConfigSubscriptionStore.resolveForTenant md5 options message'.tenantId ↔ _
      rw [ConfigSubscriptionStore.resolveForTenant_eq, ConfigSubscriptionStore.resolveForTenant_eq]
      constructor
      · intro h
        cases hc : ConfigSubscriptionStore.endpoint options message.tenantId with
        | none =>
            cases hc' : ConfigSubscriptionStore.endpoint options message'.tenantId with
            | none => exact ⟨rfl, fun c h => nomatch h⟩
            | some c' =>
                rw [hc, hc'] at h
                cases h
        | some c =>
            cases hc' : ConfigSubscriptionStore.endpoint options message'.tenantId with
            | none =>
                rw [hc, hc'] at h
                cases h
            | some c' =>
                rw [hc, hc'] at h
                obtain ⟨rfl, hid⟩ := ConfigSubscriptionStore.toSubscription_inj (List.singleton_inj.mp h)
                refine ⟨rfl, fun c'' hc'' => ?_⟩
                cases hc''
                exact hid
      · rintro ⟨hendpoint, hid⟩
        rw [← hendpoint]
        cases hc : ConfigSubscriptionStore.endpoint options message.tenantId with
        | none => rfl
        | some c =>
            show [ConfigSubscriptionStore.toSubscription md5 c message.tenantId] =
              [ConfigSubscriptionStore.toSubscription md5 c message'.tenantId]
            unfold ConfigSubscriptionStore.toSubscription
            rw [hid c hc]

/-- **Messages with one envelope have the same subscriptions exactly when the reader has no route that
tells their tenants apart.** -/
theorem envelope_routes_iff (reader : SubscriptionReader)
    (henvelope : message.envelope = message'.envelope) :
    SameSubscriptions dep reader message message' ↔
      RoutesAlike dep message.eventType message.tenantId message'.tenantId reader := by
  cases reader with
  | database subscriptions secretRetriever =>
      have heventType : message'.eventType = message.eventType :=
        (congrArg QueueMessageEnvelope.eventType henvelope).symm
      exact database_sameSubscriptions_iff heventType
  | config md5 options => exact config_sameSubscriptions_iff
  | null => exact iff_of_true (fun result => Iff.rfl) trivial

end SubscriptionReader

/-! ## Two tenants behind one envelope -/

/-- A message of a tenant. -/
def tenantInvoice (tenantId : Option Text) : OutboxMessage :=
  { OutboxStore.directRow 0 ⟨1, text "invoice.paid", [], none, none, none, none, none, none⟩ with
    tenantId := tenantId }

/-- A subscription of the tenant "acme". -/
def acmeSubscription : WebhookSubscription where
  id := 7
  tenantId := some (text "acme")
  eventType := text "invoice.paid"
  webhookUrl := text "https://acme.example/hook"
  secret := some (text "s3cret")
  isActive := true
  maxRetries := 5
  timeout := 300000000
  customHeaders := none

/-- A table with this subscription. -/
def acmeReader : SubscriptionReader :=
  .database ⟨[acmeSubscription], List.nodup_singleton _⟩ none

/-- **The envelope does not say whose message it is**: one tenant's message has the subscription, the
other's has none. -/
theorem envelope_loses_tenant :
    (tenantInvoice (some (text "acme"))).envelope = (tenantInvoice (some (text "globex"))).envelope ∧
    acmeReader.Returns (Deployment.binary .directSql) (tenantInvoice (some (text "acme")))
      [acmeSubscription] ∧
    ¬ acmeReader.Returns (Deployment.binary .directSql) (tenantInvoice (some (text "globex")))
      [acmeSubscription] := by
  refine ⟨rfl, ⟨[acmeSubscription], List.Perm.refl _, by decide⟩, ?_⟩
  rintro ⟨rows, hrows, hresult⟩
  rw [List.perm_singleton.mp hrows] at hresult
  revert hresult
  decide

/-- The subscriptions of "acme" and another tenant differ, as there is a row that tells the two apart; those of
two other tenants are the same. -/
theorem envelope_routes_iff_acme :
    ¬ SubscriptionReader.SameSubscriptions (Deployment.binary .directSql) acmeReader
      (tenantInvoice (some (text "acme"))) (tenantInvoice (some (text "globex"))) ∧
    SubscriptionReader.SameSubscriptions (Deployment.binary .directSql) acmeReader
      (tenantInvoice (some (text "initech"))) (tenantInvoice (some (text "globex"))) := by
  have henvelope : ∀ tenantId, (tenantInvoice tenantId).envelope =
      (tenantInvoice (some (text "globex"))).envelope := fun _ => rfl
  constructor
  · intro hsame
    have halike := (SubscriptionReader.envelope_routes_iff acmeReader (henvelope _)).mp hsame
    exact absurd (halike acmeSubscription List.mem_cons_self rfl (by decide)) (by decide)
  · refine (SubscriptionReader.envelope_routes_iff acmeReader (henvelope _)).mpr fun s hs _ _ => ?_
    rw [List.mem_singleton.mp hs]
    decide

end OutboxNet
