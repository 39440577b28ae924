import OutboxNet.Core.ServiceCollection
import OutboxNet.Lib.PushPop
import OutboxNet.Store.Sql

/-!
# The stores a container gives

A builder call for a database registers its stores and its publisher together.  Whatever calls follow, the
message store, the store of attempts and the publisher that a container resolves are of one provider: the
last one registered.  The store of subscriptions is of that provider too, if there is one.
`UseConfigWebhooks` removes one registration of it at a time, the first, so that there is one exactly when,
from some point on, databases were registered more often than configured webhooks.
-/

set_option autoImplicit false

namespace OutboxNet

open ServiceCollection
open PushPop (Op)

/-! ## Providers -/

namespace Provider

def outboxStore : Provider → ImplementationType
  | .directSql => .directSqlOutboxStore
  | .efCore => .efCoreOutboxStore

def deliveryAttemptStore : Provider → ImplementationType
  | .directSql => .directSqlDeliveryAttemptStore
  | .efCore => .efCoreDeliveryAttemptStore

def outboxPublisher : Provider → ImplementationType
  | .directSql => .directSqlOutboxPublisher
  | .efCore => .efCoreOutboxPublisher

def subscriptionStore : Provider → ImplementationType
  | .directSql => .directSqlSubscriptionStore
  | .efCore => .efCoreSubscriptionStore

/-- The service that `ISubscriptionStore` is forwarded to. -/
def subscriptionStoreService : Provider → ServiceType
  | .directSql => .directSqlSubscriptionStore
  | .efCore => .efCoreSubscriptionStore

end Provider

namespace BuilderCall

/-- The provider whose stores a call registers. -/
def provider? : BuilderCall → Option Provider
  | .useSqlServerContext => some .efCore
  | .useDirectSqlServer => some .directSql
  | _ => none

/-- Whether a call is one of `UseConfigWebhooks`. -/
def usesConfigWebhooks (c : BuilderCall) : Bool := c.reader? = some .configSubscriptionStore

/-- What a call does to the registrations of `ISubscriptionStore`. -/
def onSubscriptionStores : BuilderCall → Op Provider
  | .useSqlServerContext => .push .efCore
  | .useDirectSqlServer => .push .directSql
  | .useConfigWebhooksSection => .pop
  | .useConfigWebhooksCallback => .pop
  | _ => .skip

end BuilderCall

/-- The provider registered last. -/
def providerOf (calls : List BuilderCall) : Option Provider :=
  (calls.filterMap BuilderCall.provider?).getLast?

/-- From some point on there are more calls for a database than for configured webhooks. -/
def DatabasePrevails (calls : List BuilderCall) : Prop :=
  ∃ after, after <:+ calls ∧
    after.countP BuilderCall.usesConfigWebhooks < (after.filterMap BuilderCall.provider?).length

/-! ## The descriptors of a service -/

section Lists

variable {α : Type} {p q : α → Bool}

theorem filter_eraseP_self (p : α → Bool) (l : List α) : (l.eraseP p).filter p = (l.filter p).tail := by
  induction l with
  | nil => rfl
  | cons a l ih =>
      by_cases hp : p a = true
      · rw [List.eraseP_cons_of_pos hp, List.filter_cons_of_pos hp, List.tail_cons]
      · rw [List.eraseP_cons_of_neg hp, List.filter_cons_of_neg hp, List.filter_cons_of_neg hp, ih]

theorem filter_eraseP_other (hpq : ∀ a, q a = true → p a = false) (l : List α) :
    (l.eraseP q).filter p = l.filter p := by
  induction l with
  | nil => rfl
  | cons a l ih =>
      by_cases hq : q a = true
      · rw [List.eraseP_cons_of_pos hq, List.filter_cons_of_neg (by simp [hpq a hq])]
      · rw [List.eraseP_cons_of_neg hq, List.filter_cons, List.filter_cons, ih]

end Lists

namespace ServiceCollection

variable {services : ServiceCollection} {s s' : ServiceType}

def descriptorsOf (services : ServiceCollection) (s : ServiceType) : List ServiceDescriptor :=
  services.descriptors.filter fun d => d.serviceType = s

theorem lastOf_eq : services.lastOf s = (services.descriptorsOf s).getLast?.map (·.implementation) := rfl

theorem descriptorsOf_add (descriptors : List ServiceDescriptor) :
    (services.add descriptors).descriptorsOf s =
      services.descriptorsOf s ++ descriptors.filter fun d => d.serviceType = s :=
  List.filter_append ..

theorem descriptorsOf_tryAdd {d : ServiceDescriptor} (hs : d.serviceType ≠ s) :
    (services.tryAdd d).descriptorsOf s = services.descriptorsOf s := by
  unfold tryAdd
  split
  · rfl
  · rw [descriptorsOf_add, List.filter_cons_of_neg (by simpa using hs)]
    exact List.append_nil _

theorem descriptorsOf_tryAddEnumerable {d : ServiceDescriptor} (hs : d.serviceType ≠ s) :
    (services.tryAddEnumerable d).descriptorsOf s = services.descriptorsOf s := by
  unfold tryAddEnumerable
  split
  · rfl
  · rw [descriptorsOf_add, List.filter_cons_of_neg (by simpa using hs)]
    exact List.append_nil _

theorem descriptorsOf_removeFirst_self :
    (services.removeFirst s).descriptorsOf s = (services.descriptorsOf s).tail :=
  filter_eraseP_self _ _

theorem descriptorsOf_removeFirst (hs : s' ≠ s) :
    (services.removeFirst s').descriptorsOf s = services.descriptorsOf s := by
  apply filter_eraseP_other
  intro d hd
  rw [decide_eq_true_eq] at hd
  exact decide_eq_false (hd ▸ hs)

/-- Configured webhooks leave the services alone that have to do with no subscriptions. -/
theorem descriptorsOf_useConfigWebhooks (hstore : .subscriptionStore ≠ s) (hreader : .subscriptionReader ≠ s) :
    (useConfigWebhooks services).descriptorsOf s = services.descriptorsOf s := by
  show (((services.removeFirst .subscriptionStore).removeFirst .subscriptionReader).add _).descriptorsOf s = _
  rw [descriptorsOf_add, descriptorsOf_removeFirst hreader, descriptorsOf_removeFirst hstore,
    List.filter_cons_of_neg (by simpa using hreader)]
  exact List.append_nil _

/-- A database adds its context, if need be, and its stores. -/
theorem descriptorsOf_useSqlServerContext (hs : .outboxDbContext ≠ s) :
    (useSqlServerContext services).descriptorsOf s =
      (services.add (useSqlServerContext ⟨[], []⟩).descriptors.tail).descriptorsOf s := by
  rw [descriptorsOf_add]
  refine (descriptorsOf_add _).trans ?_
  rw [descriptorsOf_tryAdd hs]
  rfl

theorem descriptorsOf_addBackgroundProcessor (hs : .hostedService ≠ s) :
    (addBackgroundProcessor services).descriptorsOf s =
      (services.add [⟨.outboxProcessor, .type .outboxProcessingPipeline⟩]).descriptorsOf s :=
  descriptorsOf_tryAddEnumerable hs

end ServiceCollection

/-! ## What comes with a provider -/

/-- A service is registered by the calls for a database alone, for provider `p` as `f p`. -/
def RegisteredBy (s : ServiceType) (f : Provider → Option Implementation) : Prop :=
  ∀ (c : BuilderCall) (services : ServiceCollection), (c.apply services).descriptorsOf s =
    services.descriptorsOf s ++ ((c.provider?.bind f).map (ServiceDescriptor.mk s)).toList

namespace RegisteredBy

variable {s : ServiceType} {f : Provider → Option Implementation} {services : ServiceCollection}

/-- It is enough to look at the calls that add something of it. -/
theorem of_calls (hstore : .subscriptionStore ≠ s) (hreader : .subscriptionReader ≠ s)
    (hcalls : ∀ (c : BuilderCall) (services : ServiceCollection), c.usesConfigWebhooks = false →
      (c.apply services).descriptorsOf s =
        services.descriptorsOf s ++ ((c.provider?.bind f).map (ServiceDescriptor.mk s)).toList) :
    RegisteredBy s f := by
  intro c services
  by_cases hc : c.usesConfigWebhooks = true
  · have hnone : (c.provider?.bind f).map (ServiceDescriptor.mk s) = none := by
      cases c <;> first | rfl | cases hc
    have happly : c.apply services = useConfigWebhooks services := by
      cases c <;> first | rfl | cases hc
    rw [hnone, happly, descriptorsOf_useConfigWebhooks hstore hreader]
    exact (List.append_nil _).symm
  · exact hcalls c services (Bool.eq_false_iff.mpr hc)

theorem outboxStore : RegisteredBy .outboxStore fun p => some (.type p.outboxStore) := by
  refine of_calls nofun nofun fun c services hc => ?_
  cases c with
  | useConfigWebhooksSection => cases hc
  | useConfigWebhooksCallback => cases hc
  | useSqlServerContext =>
      exact (descriptorsOf_useSqlServerContext (by decide)).trans (descriptorsOf_add _)
  | addBackgroundProcessor =>
      exact (descriptorsOf_addBackgroundProcessor (by decide)).trans (descriptorsOf_add _)
  | _ => exact descriptorsOf_add _

theorem deliveryAttemptStore :
    RegisteredBy .deliveryAttemptStore fun p => some (.type p.deliveryAttemptStore) := by
  refine of_calls nofun nofun fun c services hc => ?_
  cases c with
  | useConfigWebhooksSection => cases hc
  | useConfigWebhooksCallback => cases hc
  | useSqlServerContext =>
      exact (descriptorsOf_useSqlServerContext (by decide)).trans (descriptorsOf_add _)
  | addBackgroundProcessor =>
      exact (descriptorsOf_addBackgroundProcessor (by decide)).trans (descriptorsOf_add _)
  | _ => exact descriptorsOf_add _

theorem outboxPublisher : RegisteredBy .outboxPublisher fun p => some (.type p.outboxPublisher) := by
  refine of_calls nofun nofun fun c services hc => ?_
  cases c with
  | useConfigWebhooksSection => cases hc
  | useConfigWebhooksCallback => cases hc
  | useSqlServerContext =>
      exact (descriptorsOf_useSqlServerContext (by decide)).trans (descriptorsOf_add _)
  | addBackgroundProcessor =>
      exact (descriptorsOf_addBackgroundProcessor (by decide)).trans (descriptorsOf_add _)
  | _ => exact descriptorsOf_add _

/-- The store of subscriptions under its own class. -/
theorem subscriptionStoreService (p : Provider) : RegisteredBy p.subscriptionStoreService fun q =>
    if q = p then some (.type p.subscriptionStore) else none := by
  cases p with
  | directSql =>
      refine of_calls nofun nofun fun c services hc => ?_
      cases c with
      | useConfigWebhooksSection => cases hc
      | useConfigWebhooksCallback => cases hc
      | useSqlServerContext =>
      exact (descriptorsOf_useSqlServerContext (by decide)).trans (descriptorsOf_add _)
      | addBackgroundProcessor =>
      exact (descriptorsOf_addBackgroundProcessor (by decide)).trans (descriptorsOf_add _)
      | _ => exact descriptorsOf_add _
  | efCore =>
      refine of_calls nofun nofun fun c services hc => ?_
      cases c with
      | useConfigWebhooksSection => cases hc
      | useConfigWebhooksCallback => cases hc
      | useSqlServerContext =>
      exact (descriptorsOf_useSqlServerContext (by decide)).trans (descriptorsOf_add _)
      | addBackgroundProcessor =>
      exact (descriptorsOf_addBackgroundProcessor (by decide)).trans (descriptorsOf_add _)
      | _ => exact descriptorsOf_add _

/-- The run lemma. -/
theorem build (h : RegisteredBy s f) (calls : List BuilderCall) :
    (OutboxNet.build services calls).descriptorsOf s = services.descriptorsOf s ++
      ((calls.filterMap BuilderCall.provider?).filterMap f).map (ServiceDescriptor.mk s) := by
  induction calls generalizing services with
  | nil => exact (List.append_nil _).symm
  | cons c calls ih =>
      show (OutboxNet.build (c.apply services) calls).descriptorsOf s = _
      rw [ih, h c services, List.append_assoc]
      congr 1
      rw [List.filterMap_cons]
      cases c.provider? with
      | none => rfl
      | some p =>
          show _ = ((p :: _).filterMap f).map _
          rw [List.filterMap_cons]
          cases hf : f p with
          | none => simp [hf]
          | some i => simp [hf]

/-- What a container resolves, if there was no such service before. -/
theorem lastOf_build (h : RegisteredBy s f) (hnone : services.descriptorsOf s = [])
    (calls : List BuilderCall) : (OutboxNet.build services calls).lastOf s =
      ((calls.filterMap BuilderCall.provider?).filterMap f).getLast? := by
  rw [lastOf_eq, h.build, hnone, List.nil_append, List.getLast?_map, Option.map_map]
  exact Option.map_id' ..

/-- A service that each provider has is of the last one. -/
theorem resolve_build {impl : Provider → ImplementationType}
    (h : RegisteredBy s fun p => some (.type (impl p))) (hnone : services.descriptorsOf s = [])
    (calls : List BuilderCall) :
    (OutboxNet.build services calls).resolve s = (providerOf calls).map impl := by
  have hlast := h.lastOf_build hnone calls
  have hmap : List.filterMap (fun p => some (Implementation.type (impl p))) =
      List.map fun p => Implementation.type (impl p) := List.filterMap_eq_map
  rw [hmap, List.getLast?_map] at hlast
  unfold resolve
  rw [hlast, providerOf]
  cases (calls.filterMap BuilderCall.provider?).getLast? <;> rfl

end RegisteredBy

/-! ## The store of subscriptions -/

/-- The registration of `ISubscriptionStore` by a provider. -/
def forwarded (p : Provider) : ServiceDescriptor :=
  ⟨.subscriptionStore, .getRequiredService p.subscriptionStoreService⟩

theorem subscriptionStores_apply {services : ServiceCollection} {queue : List Provider}
    (h : services.descriptorsOf .subscriptionStore = queue.map forwarded) (c : BuilderCall) :
    (c.apply services).descriptorsOf .subscriptionStore =
      (c.onSubscriptionStores.apply queue).map forwarded := by
  have hconfig : (useConfigWebhooks services).descriptorsOf .subscriptionStore =
      queue.tail.map forwarded := by
    show (((services.removeFirst .subscriptionStore).removeFirst .subscriptionReader).add _).descriptorsOf
      .subscriptionStore = _
    have hne : ServiceType.subscriptionReader ≠ .subscriptionStore := by decide
    rw [descriptorsOf_add, descriptorsOf_removeFirst hne, descriptorsOf_removeFirst_self, h, List.map_tail]
    exact List.append_nil _
  cases c with
  | useSqlServerContext =>
      refine ((descriptorsOf_useSqlServerContext (by decide)).trans (descriptorsOf_add _)).trans ?_
      rw [h]
      show queue.map forwarded ++ [forwarded .efCore] = (queue ++ [Provider.efCore]).map forwarded
      rw [List.map_append, List.map_singleton]
  | useDirectSqlServer =>
      refine (descriptorsOf_add _).trans ?_
      rw [h]
      show queue.map forwarded ++ [forwarded .directSql] = (queue ++ [Provider.directSql]).map forwarded
      rw [List.map_append, List.map_singleton]
  | useConfigWebhooksSection => exact hconfig
  | useConfigWebhooksCallback => exact hconfig
  | addBackgroundProcessor =>
      refine ((descriptorsOf_addBackgroundProcessor (by decide)).trans (descriptorsOf_add _)).trans ?_
      rw [h]
      exact List.append_nil _
  | _ =>
      refine (descriptorsOf_add _).trans ?_
      rw [h]
      exact List.append_nil _

theorem subscriptionStores_build {services : ServiceCollection} {queue : List Provider}
    (h : services.descriptorsOf .subscriptionStore = queue.map forwarded) (calls : List BuilderCall) :
    (build services calls).descriptorsOf .subscriptionStore =
      ((calls.map BuilderCall.onSubscriptionStores).foldl Op.apply queue).map forwarded := by
  induction calls generalizing services queue with
  | nil => exact h
  | cons c calls ih => exact ih (subscriptionStores_apply h c)

theorem pushed_onSubscriptionStores (calls : List BuilderCall) :
    PushPop.pushed (calls.map BuilderCall.onSubscriptionStores) = calls.filterMap BuilderCall.provider? := by
  rw [PushPop.pushed, List.filterMap_map]
  refine congrArg (fun f => List.filterMap f calls) (funext fun c => ?_)
  cases c <;> rfl

theorem surplus_iff_databasePrevails (calls : List BuilderCall) :
    PushPop.Surplus 1 (calls.map BuilderCall.onSubscriptionStores) ↔ DatabasePrevails calls := by
  have hpops : ∀ after : List BuilderCall, (after.map BuilderCall.onSubscriptionStores).countP Op.isPop =
      after.countP BuilderCall.usesConfigWebhooks := by
    intro after
    rw [List.countP_map]
    refine congrArg (fun p => List.countP p after) (funext fun c => ?_)
    cases c <;> rfl
  unfold PushPop.Surplus DatabasePrevails
  constructor
  · rintro ⟨after, hafter, hle⟩
    obtain ⟨calls', hcalls', rfl⟩ := List.suffix_map_iff.mp hafter
    rw [hpops, pushed_onSubscriptionStores] at hle
    exact ⟨calls', hcalls', by omega⟩
  · rintro ⟨after, hafter, hlt⟩
    refine ⟨after.map _, hafter.map _, ?_⟩
    rw [hpops, pushed_onSubscriptionStores]
    omega

/-! ## What is resolved -/

/-- The services that come with a provider. -/
def ofProvider (s : ServiceType) : Prop :=
  s = .outboxStore ∨ s = .deliveryAttemptStore ∨ s = .outboxPublisher ∨ s = .subscriptionStore ∨
    ∃ p : Provider, s = p.subscriptionStoreService

/-- Nothing that comes with a provider was registered by anyone else. -/
def NoProvider (services : ServiceCollection) : Prop :=
  ∀ s, ofProvider s → services.descriptorsOf s = []

theorem NoProvider.addOutboxNet {services : ServiceCollection} (h : NoProvider services)
    (configure : OutboxOptions → OutboxOptions) (fresh : OutboxOptions) :
    NoProvider (addOutboxNet configure fresh services) := by
  intro s hs
  refine (descriptorsOf_add _).trans ?_
  show services.descriptorsOf s ++ _ = []
  rw [h s hs, List.nil_append, List.filter_eq_nil_iff]
  rcases hs with rfl | rfl | rfl | rfl | ⟨p, rfl⟩
  · decide
  · decide
  · decide
  · decide
  · cases p <;> decide

/-- The last value is kept if it is mapped at all. -/
theorem getLast?_filterMap_of {α β : Type} {f : α → Option β} {l : List α} {a : α} {b : β}
    (hlast : l.getLast? = some a) (hf : f a = some b) : (l.filterMap f).getLast? = some b := by
  obtain ⟨front, rfl⟩ := List.getLast?_eq_some_iff.mp hlast
  rw [List.filterMap_append, List.getLast?_append, List.filterMap_cons_some hf]
  rfl

/-- The store of subscriptions is that of the last provider, as long as one registration is left. -/
theorem resolve_subscriptionStore {services : ServiceCollection} (h : NoProvider services)
    (calls : List BuilderCall) (t : ImplementationType) :
    (build services calls).resolve .subscriptionStore = some t ↔
      (providerOf calls).map Provider.subscriptionStore = some t ∧ DatabasePrevails calls := by
  have hnone : services.descriptorsOf .subscriptionStore = ([] : List Provider).map forwarded :=
    h _ (.inr (.inr (.inr (.inl rfl))))
  have hlast : (build services calls).lastOf .subscriptionStore =
      (PushPop.run (calls.map BuilderCall.onSubscriptionStores)).getLast?.map fun p =>
        .getRequiredService p.subscriptionStoreService := by
    rw [lastOf_eq, subscriptionStores_build hnone, List.getLast?_map, Option.map_map]
    rfl
  have hrun : ∀ p, (PushPop.run (calls.map BuilderCall.onSubscriptionStores)).getLast? = some p ↔
      providerOf calls = some p ∧ DatabasePrevails calls := by
    intro p
    rw [PushPop.getLast?_run, pushed_onSubscriptionStores, surplus_iff_databasePrevails, providerOf]
  unfold resolve
  rw [hlast]
  cases hend : (PushPop.run (calls.map BuilderCall.onSubscriptionStores)).getLast? with
  | none =>
      refine iff_of_false nofun ?_
      rintro ⟨hprovider, hprevails⟩
      obtain ⟨p, hp, -⟩ := Option.map_eq_some_iff.mp hprovider
      have hsome := (hrun p).mpr ⟨hp, hprevails⟩
      rw [hend] at hsome
      cases hsome
  | some p =>
      obtain ⟨hp, hprevails⟩ := (hrun p).mp hend
      have hstore : (build services calls).lastOf p.subscriptionStoreService =
          some (.type p.subscriptionStore) := by
        rw [(RegisteredBy.subscriptionStoreService p).lastOf_build
          (h _ (.inr (.inr (.inr (.inr ⟨p, rfl⟩)))))]
        exact getLast?_filterMap_of hp (if_pos rfl)
      rw [Option.map_some, hp, Option.map_some]
      simp only [hstore]
      exact (and_iff_left hprevails).symm

/-- **Whose stores are resolved.** After any sequence of builder calls on what `AddOutboxNet` returns, the
message store, the store of attempts and the publisher are of the provider registered last.  So is the store
of subscriptions, which is there exactly when from some point on databases were registered more often than
configured webhooks. -/
theorem stores_of_calls {services : ServiceCollection} (h : NoProvider services)
    (configure : OutboxOptions → OutboxOptions) (fresh : OutboxOptions) (calls : List BuilderCall) :
    let container := build (addOutboxNet configure fresh services) calls
    container.resolve .outboxStore = (providerOf calls).map Provider.outboxStore ∧
      container.resolve .deliveryAttemptStore = (providerOf calls).map Provider.deliveryAttemptStore ∧
      container.resolve .outboxPublisher = (providerOf calls).map Provider.outboxPublisher ∧
      ∀ t, container.resolve .subscriptionStore = some t ↔
        (providerOf calls).map Provider.subscriptionStore = some t ∧ DatabasePrevails calls := by
  have hservices := h.addOutboxNet configure fresh
  refine ⟨?_, ?_, ?_, resolve_subscriptionStore hservices calls⟩
  · exact RegisteredBy.outboxStore.resolve_build (hservices _ (.inl rfl)) calls
  · exact RegisteredBy.deliveryAttemptStore.resolve_build (hservices _ (.inr (.inl rfl))) calls
  · exact RegisteredBy.outboxPublisher.resolve_build (hservices _ (.inr (.inr (.inl rfl)))) calls

/-- Of two databases, configured webhooks take the store of the first away. -/
theorem stores_of_two_databases :
    (build (addOutboxNet id { instanceId := text "host-1" } .empty)
      [.useSqlServerContext, .useDirectSqlServer, .useConfigWebhooksSection]).resolve .subscriptionStore =
        some .directSqlSubscriptionStore :=
  ((stores_of_calls (fun _ _ => rfl) id { instanceId := text "host-1" } _).2.2.2 _).mpr
    ⟨rfl, _, List.suffix_rfl, by decide⟩

end OutboxNet
