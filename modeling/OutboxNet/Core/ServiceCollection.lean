import Mathlib.Tactic.Tauto
import OutboxNet.Core.Options

/-!
# Registrations

What the builder calls of the repository add to a service collection: descriptors of services, and the
actions that configure `OutboxOptions`.  A container resolves a service to the last descriptor of its
type, and options to a fresh object to which all actions are applied in their order.  Lifetimes, the
options of other parts and the services of the frameworks are left out.

`UseConfigWebhooks` removes the first reader of subscriptions and the first store and adds its own
reader.  What is added later is not removed.
-/

set_option autoImplicit false

namespace OutboxNet

/-! ## Service collections -/

/-- The types services are asked for by. -/
inductive ServiceType : Type
  | messageSerializer | outboxContextAccessor | subscriptionReader | subscriptionStore
  | outboxSignal | outboxStore | deliveryAttemptStore | outboxPublisher | outboxProcessor
  | hostedService | webhookDeliverer | retryPolicy | messagePublisher | tenantSecretRetriever
  | outboxDbContext | efCoreSubscriptionStore | directSqlSubscriptionStore
deriving DecidableEq, Repr

/-- The classes of the repository that are registered. -/
inductive ImplementationType : Type
  | jsonMessageSerializer | nullOutboxContextAccessor | httpContextOutboxContextAccessor
  | nullSubscriptionReader | configSubscriptionStore | efCoreSubscriptionStore
  | directSqlSubscriptionStore | channelOutboxSignal | efCoreOutboxStore | directSqlOutboxStore
  | efCoreDeliveryAttemptStore | directSqlDeliveryAttemptStore | efCoreOutboxPublisher
  | directSqlOutboxPublisher | outboxProcessingPipeline | outboxProcessorService
  | httpWebhookDeliverer | exponentialBackoffRetryPolicy | azureStorageQueuePublisher
  | configurationTenantSecretRetriever | outboxDbContext | other
deriving DecidableEq, Repr

/-- What a descriptor makes: an object of a class, or what another service is resolved to. -/
inductive Implementation : Type
  | type (t : ImplementationType)
  | getRequiredService (s : ServiceType)
deriving DecidableEq, Repr

structure ServiceDescriptor where
  serviceType : ServiceType
  implementation : Implementation
deriving DecidableEq, Repr

/-- `IServiceCollection`: the descriptors, and the actions on `OutboxOptions`. -/
structure ServiceCollection where
  descriptors : List ServiceDescriptor
  configureOutboxOptions : List (OutboxOptions → OutboxOptions)

namespace ServiceCollection

/-- Adds descriptors at the end. -/
def add (services : ServiceCollection) (descriptors : List ServiceDescriptor) : ServiceCollection :=
  { services with descriptors := services.descriptors ++ descriptors }

/-- `TryAdd`: not if there is a descriptor of that type. -/
def tryAdd (services : ServiceCollection) (d : ServiceDescriptor) : ServiceCollection :=
  if services.descriptors.any fun d' => d'.serviceType = d.serviceType then services
  else services.add [d]

/-- `TryAddEnumerable`: not if there is the same descriptor. -/
def tryAddEnumerable (services : ServiceCollection) (d : ServiceDescriptor) : ServiceCollection :=
  if d ∈ services.descriptors then services else services.add [d]

/-- `FirstOrDefault` and `Remove`. -/
def removeFirst (services : ServiceCollection) (s : ServiceType) : ServiceCollection :=
  { services with descriptors := services.descriptors.eraseP fun d => d.serviceType = s }

/-- The last descriptor of a type. -/
def lastOf (services : ServiceCollection) (s : ServiceType) : Option Implementation :=
  (services.descriptors.filter fun d => d.serviceType = s).getLast?.map (·.implementation)

/-- `GetRequiredService` of the container that is built. -/
def resolve (services : ServiceCollection) (s : ServiceType) : Option ImplementationType :=
  match services.lastOf s with
  | some (.type t) => some t
  | some (.getRequiredService s') =>
      match services.lastOf s' with
      | some (.type t) => some t
      | _ => none
  | none => none

/-- `IOptions<OutboxOptions>.Value`, `fresh` being a new object. -/
def outboxOptions (services : ServiceCollection) (fresh : OutboxOptions) : OutboxOptions :=
  services.configureOutboxOptions.foldl (fun o configure => configure o) fresh

end ServiceCollection

open ServiceCollection

/-! ## Builder calls -/

/-- The action `AddOutboxNet` registers: the properties of `options` it copies. -/
def copyOutboxOptions (options o : OutboxOptions) : OutboxOptions :=
  { o with
    batchSize := options.batchSize
    defaultVisibilityTimeout := options.defaultVisibilityTimeout
    instanceId := options.instanceId
    maxConcurrentDeliveries := options.maxConcurrentDeliveries
    processingMode := options.processingMode
    enableOrderedProcessing := options.enableOrderedProcessing
    tenantFilter := options.tenantFilter }

/-- `AddOutboxNet`; `fresh` is the new options object its delegate is applied to. -/
def addOutboxNet (configure : OutboxOptions → OutboxOptions) (fresh : OutboxOptions)
    (services : ServiceCollection) : ServiceCollection :=
  let options := configure fresh
  { services with
    configureOutboxOptions := services.configureOutboxOptions ++ [copyOutboxOptions options] }.add
      [⟨.messageSerializer, .type .jsonMessageSerializer⟩,
        ⟨.outboxContextAccessor, .type .nullOutboxContextAccessor⟩,
        ⟨.subscriptionReader, .type .nullSubscriptionReader⟩,
        ⟨.outboxSignal, .type .channelOutboxSignal⟩]

/-- `ReplaceSubscriptionReader`. -/
def replaceSubscriptionReader (store : ImplementationType) (services : ServiceCollection) :
    ServiceCollection :=
  ((services.removeFirst .subscriptionStore).removeFirst .subscriptionReader).add
    [⟨.subscriptionReader, .type store⟩]

/-- `UseConfigWebhooks`; its overloads differ in the options they configure. -/
def useConfigWebhooks (services : ServiceCollection) : ServiceCollection :=
  replaceSubscriptionReader .configSubscriptionStore services

/-- `UseSqlServerContext`; `AddDbContext` tries to add the context. -/
def useSqlServerContext (services : ServiceCollection) : ServiceCollection :=
  (services.tryAdd ⟨.outboxDbContext, .type .outboxDbContext⟩).add
    [⟨.outboxStore, .type .efCoreOutboxStore⟩,
      ⟨.efCoreSubscriptionStore, .type .efCoreSubscriptionStore⟩,
      ⟨.subscriptionStore, .getRequiredService .efCoreSubscriptionStore⟩,
      ⟨.subscriptionReader, .getRequiredService .efCoreSubscriptionStore⟩,
      ⟨.deliveryAttemptStore, .type .efCoreDeliveryAttemptStore⟩,
      ⟨.outboxPublisher, .type .efCoreOutboxPublisher⟩]

/-- `UseDirectSqlServer`. -/
def useDirectSqlServer (services : ServiceCollection) : ServiceCollection :=
  services.add
    [⟨.outboxStore, .type .directSqlOutboxStore⟩,
      ⟨.directSqlSubscriptionStore, .type .directSqlSubscriptionStore⟩,
      ⟨.subscriptionStore, .getRequiredService .directSqlSubscriptionStore⟩,
      ⟨.subscriptionReader, .getRequiredService .directSqlSubscriptionStore⟩,
      ⟨.deliveryAttemptStore, .type .directSqlDeliveryAttemptStore⟩,
      ⟨.outboxPublisher, .type .directSqlOutboxPublisher⟩]

/-- `AddBackgroundProcessor`; `AddHostedService` tries to add the service. -/
def addBackgroundProcessor (services : ServiceCollection) : ServiceCollection :=
  (services.add [⟨.outboxProcessor, .type .outboxProcessingPipeline⟩]).tryAddEnumerable
    ⟨.hostedService, .type .outboxProcessorService⟩

/-- `AddWebhookDelivery`. -/
def addWebhookDelivery (services : ServiceCollection) : ServiceCollection :=
  services.add
    [⟨.webhookDeliverer, .type .httpWebhookDeliverer⟩,
      ⟨.retryPolicy, .type .exponentialBackoffRetryPolicy⟩]

/-- `UseHttpContextAccessor`. -/
def useHttpContextAccessor (services : ServiceCollection) : ServiceCollection :=
  services.add [⟨.outboxContextAccessor, .type .httpContextOutboxContextAccessor⟩]

/-- `UseTenantSecretRetriever`, of the repository's retriever or of another one. -/
def useTenantSecretRetriever (retriever : ImplementationType) (services : ServiceCollection) :
    ServiceCollection :=
  services.add [⟨.tenantSecretRetriever, .type retriever⟩]

/-- `UseAzureStorageQueue`. -/
def useAzureStorageQueue (services : ServiceCollection) : ServiceCollection :=
  services.add [⟨.messagePublisher, .type .azureStorageQueuePublisher⟩]

/-- `AddAzureFunctionsProcessor`. -/
def addAzureFunctionsProcessor (services : ServiceCollection) : ServiceCollection :=
  services.add [⟨.outboxProcessor, .type .outboxProcessingPipeline⟩]

/-- A call on the builder that `AddOutboxNet` returns. -/
inductive BuilderCall : Type
  | useSqlServerContext
  | useDirectSqlServer
  | useConfigWebhooksSection
  | useConfigWebhooksCallback
  | addBackgroundProcessor
  | addWebhookDelivery
  | useHttpContextAccessor
  | useTenantSecretRetriever (retriever : ImplementationType)
  | useAzureStorageQueue
  | addAzureFunctionsProcessor
deriving DecidableEq, Repr

namespace BuilderCall

/-- What a call does to the services. -/
def apply (services : ServiceCollection) : BuilderCall → ServiceCollection
  | .useSqlServerContext => OutboxNet.useSqlServerContext services
  | .useDirectSqlServer => OutboxNet.useDirectSqlServer services
  | .useConfigWebhooksSection => useConfigWebhooks services
  | .useConfigWebhooksCallback => useConfigWebhooks services
  | .addBackgroundProcessor => OutboxNet.addBackgroundProcessor services
  | .addWebhookDelivery => OutboxNet.addWebhookDelivery services
  | .useHttpContextAccessor => OutboxNet.useHttpContextAccessor services
  | .useTenantSecretRetriever retriever => OutboxNet.useTenantSecretRetriever retriever services
  | .useAzureStorageQueue => OutboxNet.useAzureStorageQueue services
  | .addAzureFunctionsProcessor => OutboxNet.addAzureFunctionsProcessor services

/-- The reader of subscriptions a call registers. -/
def reader? : BuilderCall → Option ImplementationType
  | .useSqlServerContext => some .efCoreSubscriptionStore
  | .useDirectSqlServer => some .directSqlSubscriptionStore
  | .useConfigWebhooksSection => some .configSubscriptionStore
  | .useConfigWebhooksCallback => some .configSubscriptionStore
  | _ => none

end BuilderCall

/-- The services after a sequence of calls. -/
def build (services : ServiceCollection) (calls : List BuilderCall) : ServiceCollection :=
  calls.foldl BuilderCall.apply services

/-! ## The reader of subscriptions -/

/-- What is added comes after what was there. -/
theorem lastOf_add (services : ServiceCollection) (descriptors : List ServiceDescriptor)
    (s : ServiceType) : (services.add descriptors).lastOf s =
      ((descriptors.filter fun d => d.serviceType = s).getLast?.map (·.implementation)).or
        (services.lastOf s) := by
  unfold lastOf add
  rw [List.filter_append, List.getLast?_append]
  cases (descriptors.filter fun d => d.serviceType = s).getLast? with
  | none => rfl
  | some d => rfl

/-- What is added of one type leaves the other types alone. -/
theorem lastOf_add_of_ne {services : ServiceCollection} {descriptors : List ServiceDescriptor}
    {s : ServiceType} (hs : ∀ d ∈ descriptors, d.serviceType ≠ s) :
    (services.add descriptors).lastOf s = services.lastOf s := by
  have hnil : (descriptors.filter fun d => d.serviceType = s) = [] := by
    rw [List.filter_eq_nil_iff]
    intro d hd heq
    exact hs d hd (of_decide_eq_true heq)
  rw [lastOf_add, hnil]
  rfl

theorem lastOf_tryAddEnumerable_of_ne {services : ServiceCollection} {d : ServiceDescriptor}
    {s : ServiceType} (hs : d.serviceType ≠ s) :
    (services.tryAddEnumerable d).lastOf s = services.lastOf s := by
  unfold tryAddEnumerable
  split
  · rfl
  · exact lastOf_add_of_ne (by simpa using hs)

/-- The services that make a reader of subscriptions. -/
def ofReader (s : ServiceType) : Prop :=
  s = .subscriptionReader ∨ s = .efCoreSubscriptionStore ∨ s = .directSqlSubscriptionStore

/-- The reader of subscriptions is an object of the class `t`, by its last descriptor or by the last one
of the store it stands for. -/
inductive Reader (services : ServiceCollection) (t : ImplementationType) : Prop
  | plain :
      services.lastOf .subscriptionReader = some (.type t) → Reader services t
  | forwarded (s : ServiceType) :
      ofReader s → services.lastOf .subscriptionReader = some (.getRequiredService s) →
      services.lastOf s = some (.type t) → Reader services t

theorem Reader.resolve {services : ServiceCollection} {t : ImplementationType}
    (h : Reader services t) : services.resolve .subscriptionReader = some t := by
  unfold ServiceCollection.resolve
  cases h with
  | plain hlast => rw [hlast]
  | forwarded s _ hlast hstore =>
      rw [hlast]
      simp only
      rw [hstore]

/-- A call that registers no reader adds nothing to the services that make one. -/
theorem lastOf_apply {services : ServiceCollection} {c : BuilderCall} (hc : c.reader? = none)
    {s : ServiceType} (hs : ofReader s) : (c.apply services).lastOf s = services.lastOf s := by
  have hadd : ∀ descriptors : List ServiceDescriptor,
      (∀ d ∈ descriptors, ¬ ofReader d.serviceType) →
      (services.add descriptors).lastOf s = services.lastOf s := by
    intro descriptors hd
    apply lastOf_add_of_ne
    rintro d hmem rfl
    exact hd d hmem hs
  cases c with
  | useSqlServerContext => cases hc
  | useDirectSqlServer => cases hc
  | useConfigWebhooksSection => cases hc
  | useConfigWebhooksCallback => cases hc
  | addBackgroundProcessor =>
      have hne : ServiceType.hostedService ≠ s := by
        rintro rfl
        simp [ofReader] at hs
      exact (lastOf_tryAddEnumerable_of_ne hne).trans (hadd _ (by simp [ofReader]))
  | _ => exact hadd _ (by simp [ofReader])

/-- **One call.** The reader is that of the call, when it registers one, and the one from before
otherwise. -/
theorem Reader.apply {services : ServiceCollection} {t : ImplementationType}
    (h : Reader services t) (c : BuilderCall) :
    Reader (c.apply services) (c.reader?.getD t) := by
  cases hc : c.reader? with
  | none =>
      cases h with
      | plain hlast => exact .plain ((lastOf_apply hc (.inl rfl)).trans hlast)
      | forwarded s hs hlast hstore =>
          exact .forwarded s hs ((lastOf_apply hc (.inl rfl)).trans hlast)
            ((lastOf_apply hc hs).trans hstore)
  | some t' =>
      cases c with
      | useSqlServerContext =>
          cases hc
          refine .forwarded .efCoreSubscriptionStore (.inr (.inl rfl)) ?_ ?_
          · exact lastOf_add _ _ _
          · exact lastOf_add _ _ _
      | useDirectSqlServer =>
          cases hc
          refine .forwarded .directSqlSubscriptionStore (.inr (.inr rfl)) ?_ ?_
          · exact lastOf_add _ _ _
          · exact lastOf_add _ _ _
      | useConfigWebhooksSection =>
          cases hc
          exact .plain (lastOf_add _ _ _)
      | useConfigWebhooksCallback =>
          cases hc
          exact .plain (lastOf_add _ _ _)
      | _ => cases hc

/-- **A sequence of calls.** The reader is that of the last call that registers one. -/
theorem Reader.build {services : ServiceCollection} {t : ImplementationType}
    (h : Reader services t) (calls : List BuilderCall) :
    Reader (OutboxNet.build services calls) (calls.foldl (fun t c => c.reader?.getD t) t) := by
  induction calls generalizing services t with
  | nil => exact h
  | cons c calls ih => exact ih (h.apply c)

theorem reader_addOutboxNet (configure : OutboxOptions → OutboxOptions) (fresh : OutboxOptions)
    (services : ServiceCollection) :
    Reader (addOutboxNet configure fresh services) .nullSubscriptionReader :=
  .plain (lastOf_add _ _ _)

/-- No call registers the stores of a database. -/
def NoDatabase (calls : List BuilderCall) : Prop :=
  .useSqlServerContext ∉ calls ∧ .useDirectSqlServer ∉ calls

/-- `UseConfigWebhooks` is called, and afterwards no call registers the stores of a database. -/
def ConfigWebhooksLast (calls : List BuilderCall) : Prop :=
  ∃ before c after, calls = before ++ c :: after ∧
    (c = .useConfigWebhooksSection ∨ c = .useConfigWebhooksCallback) ∧ NoDatabase after

theorem reader?_eq_config_iff {c : BuilderCall} : c.reader? = some .configSubscriptionStore ↔
    c = .useConfigWebhooksSection ∨ c = .useConfigWebhooksCallback := by
  cases c <;> simp [BuilderCall.reader?]

theorem configWebhooksLast_cons {c : BuilderCall} {calls : List BuilderCall} :
    ConfigWebhooksLast (c :: calls) ↔ ConfigWebhooksLast calls ∨
      (c.reader? = some .configSubscriptionStore ∧ NoDatabase calls) := by
  rw [reader?_eq_config_iff]
  constructor
  · rintro ⟨before, d, after, heq, hd, hafter⟩
    cases before with
    | nil =>
        obtain ⟨rfl, rfl⟩ := List.cons.inj heq
        exact .inr ⟨hd, hafter⟩
    | cons b before =>
        obtain ⟨rfl, rfl⟩ := List.cons.inj heq
        exact .inl ⟨before, d, after, rfl, hd, hafter⟩
  · rintro (⟨before, d, after, rfl, hd, hafter⟩ | ⟨hc, hcalls⟩)
    · exact ⟨c :: before, d, after, rfl, hd, hafter⟩
    · exact ⟨[], c, calls, rfl, hc, hcalls⟩

/-- The last reader is that of `UseConfigWebhooks` when it is called last, or was there before and no
database is registered. -/
theorem foldl_reader_eq_config_iff (calls : List BuilderCall) (t : ImplementationType) :
    calls.foldl (fun t c => c.reader?.getD t) t = .configSubscriptionStore ↔
      ConfigWebhooksLast calls ∨ (t = .configSubscriptionStore ∧ NoDatabase calls) := by
  induction calls generalizing t with
  | nil =>
      have hnil : ¬ ConfigWebhooksLast [] := by
        rintro ⟨before, c, after, h, -⟩
        cases before <;> cases h
      simp [hnil, NoDatabase]
  | cons c calls ih =>
      rw [List.foldl_cons, ih, configWebhooksLast_cons]
      cases c with
      | useConfigWebhooksSection =>
          simp only [BuilderCall.reader?, NoDatabase, List.mem_cons, Option.getD_some]
          tauto
      | useConfigWebhooksCallback =>
          simp only [BuilderCall.reader?, NoDatabase, List.mem_cons, Option.getD_some]
          tauto
      | _ => simp [BuilderCall.reader?, NoDatabase]

/-- **Whose reader is resolved.** After any sequence of builder calls on what `AddOutboxNet` returns, the
reader of subscriptions is that of `UseConfigWebhooks` exactly when no database is registered after its
last call. -/
theorem resolves_config_iff (configure : OutboxOptions → OutboxOptions) (fresh : OutboxOptions)
    (services : ServiceCollection) (calls : List BuilderCall) :
    (build (addOutboxNet configure fresh services) calls).resolve .subscriptionReader =
        some .configSubscriptionStore ↔ ConfigWebhooksLast calls := by
  rw [((reader_addOutboxNet configure fresh services).build calls).resolve, Option.some.injEq,
    foldl_reader_eq_config_iff]
  simp

/-- An empty collection. -/
def ServiceCollection.empty : ServiceCollection := ⟨[], []⟩

/-- **The order matters.** With the database registered after the configured webhooks, messages are
routed by its table. -/
theorem config_webhooks_replaced :
    (build (addOutboxNet id ⟨text "host-1", 50, 3000000000, 10, 4, .directDelivery, true, none⟩ .empty)
      [.useConfigWebhooksSection, .useSqlServerContext, .addBackgroundProcessor,
        .addWebhookDelivery]).resolve .subscriptionReader ≠ some .configSubscriptionStore := by
  decide

end OutboxNet
