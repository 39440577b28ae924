import OutboxNet.Delivery.Signature
import OutboxNet.Lib.ExpiringCache
import OutboxNet.Lib.Replace
import OutboxNet.Lib.Traces

/-!
# The secrets of tenants

`ConfigurationTenantSecretRetriever`, and `EnrichSecretsAsync` of the two stores, which asks it for every
subscription.  Requests run side by side on one memory cache and one configuration.  `GetOrCreate` looks a
key up, and when nothing is found runs its factory and sets the entry: three calls with those of other
requests in between.  The configuration may change at any time, and the cache may drop an entry at any
time.

Every secret a store puts into a subscription was shown by the configuration under the key of the
subscription's own tenant, to this request or to one that set it in the cache within `SecretCacheTtl` of
the lookup.  With a configuration that does not change, the retriever is the function of the tenant by
which the stores are modelled elsewhere.
-/

set_option autoImplicit false

namespace OutboxNet

open ExpiringCache (Cache Op DropsAny)
open SubscriptionStore (tenantKey)

/-- `TenantSecretOptions`. -/
structure TenantSecretOptions where
  keyPattern : Text := text "Outbox:Secrets:{tenantId}:WebhookSecret"
  secretCacheTtl : TimeSpan := 5 * 60 * ticksPerSecond
deriving DecidableEq, Repr

/-- `StringComparison.OrdinalIgnoreCase`, next to a letter of ASCII. -/
def ordinalIgnoreCase (a b : UInt16) : Bool := asciiToLower a = asciiToLower b

/-- How `IConfiguration` compares its keys: unit by unit, ignoring case.  What it takes for one case outside
ASCII is left open. -/
structure KeyComparer where
  fold : UInt16 → UInt16
  ascii : ∀ u < 128, fold u = asciiToLower u

namespace KeyComparer

instance : Inhabited KeyComparer := ⟨⟨asciiToLower, fun _ _ => rfl⟩⟩

/-- Two texts that differ in case at most. -/
def Same (comparer : KeyComparer) (a b : Text) : Prop := a.map comparer.fold = b.map comparer.fold

end KeyComparer

/-- The calls of the retriever. -/
inductive SecretCall : Type
  | tryGetValue (key : Text)
  | configuration (key : Text)
  | setEntry (key : Text) (value : Option Text) (relativeToNow : TimeSpan)
deriving DecidableEq, Repr

/-- The answer of a call, with the instant at which it was made. -/
@[reducible] def SecretCall.Ans : SecretCall → Type
  | .tryGetValue _ => DateTimeOffset × Option (Option Text)
  | .configuration _ => DateTimeOffset × Option Text
  | .setEntry _ _ _ => DateTimeOffset × Except Exn Unit

/-- A call with its answer. -/
abbrev SecretEntry := Σ c : SecretCall, c.Ans

abbrev SecretAsync (α : Type) := ExceptT Exn (Prog SecretCall SecretCall.Ans) α

namespace SecretAsync

def tryGetValue (key : Text) : SecretAsync (DateTimeOffset × Option (Option Text)) :=
  ExceptT.lift (Prog.perform (SecretCall.tryGetValue key))

def configuration (key : Text) : SecretAsync (DateTimeOffset × Option Text) :=
  ExceptT.lift (Prog.perform (SecretCall.configuration key))

def setEntry (key : Text) (value : Option Text) (relativeToNow : TimeSpan) :
    SecretAsync (DateTimeOffset × Except Exn Unit) :=
  ExceptT.lift (Prog.perform (SecretCall.setEntry key value relativeToNow))

/-- A pure computation that may throw. -/
def ofExcept {α : Type} (x : Except Exn α) : SecretAsync α := ExceptT.mk (.ret x)

end SecretAsync

/-- The exception of a time to live that is not positive. -/
def Exn.relativeExpirationNotPositive : Exn :=
  ⟨false, text "The relative expiration value must be positive."⟩

namespace ConfigurationTenantSecretRetriever

variable (options : TenantSecretOptions)

/-- The key of a tenant's secret in the configuration. -/
def configurationKey (tenantId : Text) : Text :=
  Replace.replace ordinalIgnoreCase (text "{tenantId}") tenantId options.keyPattern

/-- The key of a tenant's secret in the cache. -/
def cacheKey (tenantId : Text) : Text := text "outbox:secret:" ++ tenantId

/-- `Resolve`. -/
def resolve (tenantId : Text) : SecretAsync (Option Text) := do
  let shown ← SecretAsync.configuration (configurationKey options tenantId)
  return shown.2

/-- `ICacheEntry.AbsoluteExpirationRelativeToNow`. -/
def absoluteExpirationRelativeToNow (value : TimeSpan) : SecretAsync TimeSpan :=
  SecretAsync.ofExcept (if value ≤ 0 then .error .relativeExpirationNotPositive else .ok value)

/-- `IMemoryCache.GetOrCreate`: an entry is set with the time to live and the value of the factory. -/
def getOrCreate (key : Text) (factory : SecretAsync (TimeSpan × Option Text)) :
    SecretAsync (Option Text) := do
  let found ← SecretAsync.tryGetValue key
  found.2.elim (do
    let entry ← factory
    let stored ← SecretAsync.setEntry key entry.2 entry.1
    SecretAsync.ofExcept (stored.2.map fun _ => entry.2)) pure

/-- `GetSecretAsync`. -/
def getSecretAsync (tenantId : Text) : SecretAsync (Option Text) :=
  if options.secretCacheTtl = 0 then resolve options tenantId
  else getOrCreate (cacheKey tenantId) do
    let relativeToNow ← absoluteExpirationRelativeToNow options.secretCacheTtl
    let secret ← resolve options tenantId
    return (relativeToNow, secret)

end ConfigurationTenantSecretRetriever

open ConfigurationTenantSecretRetriever

namespace ConfigurationTenantSecretRetriever

end ConfigurationTenantSecretRetriever

/-! ## The stores -/

/-- What a secret does to a subscription. -/
def WebhookSubscription.withSecret (s : WebhookSubscription) (secret : Option Text) :
    WebhookSubscription := secret.elim s fun secret => { s with secret := some secret }

namespace DirectSqlSubscriptionStore

/-- `EnrichSecretsAsync`: one subscription after the other. -/
def enrichSecretsAsync (options : TenantSecretOptions) :
    List WebhookSubscription → SecretAsync (List WebhookSubscription)
  | [] => return []
  | sub :: rest => do
      let secret ← getSecretAsync options (tenantKey sub)
      let others ← enrichSecretsAsync options rest
      return sub.withSecret secret :: others

end DirectSqlSubscriptionStore

namespace EfCoreSubscriptionStore

/-- `EnrichSecretsAsync`: the tasks of all subscriptions.  The retriever returns tasks that are completed,
so each one runs to its end before the next begins; the exception of `WhenAll` is the first one. -/
def enrichSecretsAsync (options : TenantSecretOptions) :
    List WebhookSubscription → SecretAsync (List WebhookSubscription)
  | [] => return []
  | sub :: rest => ExceptT.mk do
      let secret ← (getSecretAsync options (tenantKey sub)).run
      let others ← (enrichSecretsAsync options rest).run
      return secret.bind fun secret => others.map (sub.withSecret secret :: ·)

end EfCoreSubscriptionStore

/-- `EnrichSecretsAsync` of a provider's store, with this retriever. -/
def enrichSecretsAsync (provider : Provider) (options : TenantSecretOptions)
    (subscriptions : List WebhookSubscription) :
    Prog SecretCall SecretCall.Ans (Except Exn (List WebhookSubscription)) :=
  if provider = .directSql then (DirectSqlSubscriptionStore.enrichSecretsAsync options subscriptions).run
  else (EfCoreSubscriptionStore.enrichSecretsAsync options subscriptions).run

/-! ## Cache and configuration -/

/-- What a call does to the cache. -/
def SecretEntry.op : SecretEntry → Op Text (Option Text)
  | ⟨.tryGetValue key, answer⟩ => .lookup key answer.1 answer.2
  | ⟨.configuration _, answer⟩ => .pass answer.1
  | ⟨.setEntry key value relativeToNow, answer⟩ =>
      if answer.2.isOk then .set key value relativeToNow answer.1 else .pass answer.1

/-- An item is set in the cache by an entry that is set. -/
theorem SecretEntry.eq_of_op {e : SecretEntry} {key : Text} {value : Option Text}
    {lifetime instant : ℤ} (h : e.op = .set key value lifetime instant) :
    e = ⟨.setEntry key value lifetime, (instant, .ok ())⟩ := by
  obtain ⟨c, a⟩ := e
  cases c with
  | tryGetValue => cases h
  | configuration => cases h
  | setEntry =>
      obtain ⟨t, stored⟩ := a
      cases stored with
      | error => cases h
      | ok =>
          cases h
          rfl

/-- Whether an answer is possible: the configuration may show the value, and an entry is set unless its
time to live goes beyond `DateTime.MaxValue`. -/
def SecretEntry.Admissible (shows : DateTimeOffset → Text → Option Text → Prop) : SecretEntry → Prop
  | ⟨.tryGetValue _, _⟩ => True
  | ⟨.configuration key, answer⟩ => shows answer.1 key answer.2
  | ⟨.setEntry _ _ relativeToNow, answer⟩ =>
      answer.2.isOk = true ↔ answer.1 + relativeToNow ≤ maxTicks

/-- How a call is answered, by a configuration that `shows` values and a cache that `drops` items. -/
def SecretExec (shows : DateTimeOffset → Text → Option Text → Prop)
    (drops : List (ExpiringCache.Item Text (Option Text)) →
      List (ExpiringCache.Item Text (Option Text)) → Prop)
    (c : SecretCall) (cache : Cache Text (Option Text)) (a : c.Ans) (cache' : Cache Text (Option Text)) :
    Prop :=
  ExpiringCache.Step drops cache (SecretEntry.op ⟨c, a⟩) cache' ∧ SecretEntry.Admissible shows ⟨c, a⟩

/-! ## The traces of the retriever -/

namespace ConfigurationTenantSecretRetriever

variable {options : TenantSecretOptions} {tenantId : Text}

theorem getSecretAsync_uncached (h : options.secretCacheTtl = 0) :
    (getSecretAsync options tenantId).run =
      .call (.configuration (configurationKey options tenantId)) fun shown => .ret (.ok shown.2) := by
  rw [getSecretAsync, if_pos h]
  rfl

theorem getSecretAsync_cached (h : options.secretCacheTtl ≠ 0) :
    (getSecretAsync options tenantId).run = .call (.tryGetValue (cacheKey tenantId)) fun found =>
      found.2.elim (if options.secretCacheTtl ≤ 0 then .ret (.error .relativeExpirationNotPositive)
        else .call (.configuration (configurationKey options tenantId)) fun shown =>
          .call (.setEntry (cacheKey tenantId) shown.2 options.secretCacheTtl) fun stored =>
            .ret (stored.2.map fun _ => shown.2)) fun value => .ret (.ok value) := by
  rw [getSecretAsync, if_neg h]
  refine congrArg (Prog.call _) (funext fun found => ?_)
  obtain ⟨instant, found⟩ := found
  cases found with
  | some value => rfl
  | none =>
      by_cases hle : options.secretCacheTtl ≤ 0
      · simp only [absoluteExpirationRelativeToNow, if_pos hle]
        rfl
      · simp only [absoluteExpirationRelativeToNow, if_neg hle]
        rfl

/-- Where a secret comes from: the configuration has shown it under the tenant's key, or it was found in
the cache under the tenant's. -/
def Source (options : TenantSecretOptions) (tenantId : Text) (es : List SecretEntry)
    (secret : Option Text) : Prop :=
  (∃ t, (⟨.configuration (configurationKey options tenantId), (t, secret)⟩ : SecretEntry) ∈ es) ∨
    ∃ t, (⟨.tryGetValue (cacheKey tenantId), (t, some secret)⟩ : SecretEntry) ∈ es

/-- The ways in which the retriever throws. -/
def Refused (options : TenantSecretOptions) (es : List SecretEntry) : Prop :=
  options.secretCacheTtl < 0 ∨ ∃ (key : Text) (value : Option Text) (relativeToNow : TimeSpan)
    (t : DateTimeOffset) (e : Exn),
    (⟨.setEntry key value relativeToNow, (t, Except.error e)⟩ : SecretEntry) ∈ es

/-- Every entry that is set is for a tenant, with the value the configuration has just shown under the
tenant's key. -/
def SetsShown (options : TenantSecretOptions) (es : List SecretEntry) : Prop :=
  ∀ key value relativeToNow a, (⟨.setEntry key value relativeToNow, a⟩ : SecretEntry) ∈ es →
    relativeToNow = options.secretCacheTtl ∧ ∃ tenantId t, key = cacheKey tenantId ∧
      List.Sublist [(⟨.configuration (configurationKey options tenantId), (t, value)⟩ : SecretEntry),
        ⟨.setEntry key value relativeToNow, a⟩] es

variable {es es' : List SecretEntry} {secret : Option Text}

theorem Source.mono (h : Source options tenantId es secret) (hsub : es ⊆ es') :
    Source options tenantId es' secret :=
  h.imp (fun ⟨t, hmem⟩ => ⟨t, hsub hmem⟩) fun ⟨t, hmem⟩ => ⟨t, hsub hmem⟩

theorem Refused.mono (h : Refused options es) (hsub : es ⊆ es') : Refused options es' :=
  h.imp_right fun ⟨key, value, relativeToNow, t, e, hmem⟩ => ⟨key, value, relativeToNow, t, e, hsub hmem⟩

theorem SetsShown.append (h : SetsShown options es) (h' : SetsShown options es') :
    SetsShown options (es ++ es') := by
  intro key value relativeToNow a hmem
  rcases List.mem_append.mp hmem with hmem | hmem
  · obtain ⟨hrelative, τ, t, hkey, hsub⟩ := h key value relativeToNow a hmem
    exact ⟨hrelative, τ, t, hkey, hsub.trans (List.sublist_append_left _ _)⟩
  · obtain ⟨hrelative, τ, t, hkey, hsub⟩ := h' key value relativeToNow a hmem
    exact ⟨hrelative, τ, t, hkey, hsub.trans (List.sublist_append_right _ _)⟩

/-- Calls among which no entry is set. -/
theorem SetsShown.of_none (h : ∀ e ∈ es, ∀ key value relativeToNow,
    e.1 ≠ .setEntry key value relativeToNow) : SetsShown options es :=
  fun key value relativeToNow _ hmem => absurd rfl (h _ hmem key value relativeToNow)

/-- **The traces of `GetSecretAsync`.** -/
theorem getSecretAsync_reaches {p : Prog SecretCall SecretCall.Ans (Except Exn (Option Text))}
    (h : (getSecretAsync options tenantId).run.Reaches es p) : SetsShown options es ∧
      (∀ secret, p = .ret (.ok secret) → Source options tenantId es secret) ∧
      ∀ e, p = .ret (.error e) → Refused options es := by
  by_cases hzero : options.secretCacheTtl = 0
  · -- without a cache
    rw [getSecretAsync_uncached hzero] at h
    rcases Prog.reaches_call h with ⟨rfl, rfl⟩ | ⟨shown, es₁, rfl, h₁⟩
    · exact ⟨.of_none (List.forall_mem_nil _), nofun, nofun⟩
    · obtain ⟨rfl, rfl⟩ := Prog.reaches_ret h₁
      refine ⟨.of_none (by simp), fun secret heq => ?_, nofun⟩
      cases heq
      exact .inl ⟨shown.1, List.mem_cons_self⟩
  rw [getSecretAsync_cached hzero] at h
  rcases Prog.reaches_call h with ⟨rfl, rfl⟩ | ⟨⟨t, found⟩, es₁, rfl, h₁⟩
  · exact ⟨.of_none (List.forall_mem_nil _), nofun, nofun⟩
  cases found with
  | some value =>
      obtain ⟨rfl, rfl⟩ := Prog.reaches_ret h₁
      refine ⟨.of_none (by simp), fun secret heq => ?_, nofun⟩
      cases heq
      exact .inr ⟨t, List.mem_cons_self⟩
  | none =>
      simp only [Option.elim_none] at h₁
      split at h₁
      · next hle =>
          obtain ⟨rfl, rfl⟩ := Prog.reaches_ret h₁
          exact ⟨.of_none (by simp), nofun, fun _ _ => .inl (lt_of_le_of_ne hle hzero)⟩
      · rcases Prog.reaches_call h₁ with ⟨rfl, rfl⟩ | ⟨shown, es₂, rfl, h₂⟩
        · exact ⟨.of_none (by simp), nofun, nofun⟩
        rcases Prog.reaches_call h₂ with ⟨rfl, rfl⟩ | ⟨⟨t', stored⟩, es₃, rfl, h₃⟩
        · exact ⟨.of_none (by simp), nofun, nofun⟩
        obtain ⟨rfl, rfl⟩ := Prog.reaches_ret h₃
        refine ⟨?_, fun secret heq => ?_, fun e heq => ?_⟩
        · intro key value relativeToNow a hmem
          simp only [List.mem_cons, List.not_mem_nil, or_false] at hmem
          rcases hmem with hmem | hmem | hmem
          · cases hmem
          · cases hmem
          · cases hmem
            exact ⟨rfl, tenantId, shown.1, rfl, List.sublist_cons_self _ _⟩
        · cases stored with
          | error => cases heq
          | ok =>
              cases heq
              exact .inl ⟨shown.1, List.mem_cons_of_mem _ List.mem_cons_self⟩
        · cases stored with
          | ok => cases heq
          | error e =>
              refine .inr ⟨cacheKey tenantId, shown.2, options.secretCacheTtl, t', e, ?_⟩
              exact List.mem_cons_of_mem _ (List.mem_cons_of_mem _ List.mem_cons_self)

end ConfigurationTenantSecretRetriever

/-! ## The traces of the stores -/

/-- The subscriptions of the answer carry the secrets of their tenants. -/
def Enriched (options : TenantSecretOptions) (es : List SecretEntry) :
    List WebhookSubscription → List WebhookSubscription → Prop :=
  List.Forall₂ fun sub sub' => ∃ secret, sub' = sub.withSecret secret ∧
    Source options (tenantKey sub) es secret

/-- What is to be shown of the calls of a request and of its result. -/
def RequestOk (options : TenantSecretOptions) (subscriptions : List WebhookSubscription)
    (es : List SecretEntry)
    (p : Prog SecretCall SecretCall.Ans (Except Exn (List WebhookSubscription))) : Prop :=
  SetsShown options es ∧ (∀ result, p = .ret (.ok result) → Enriched options es subscriptions result) ∧
    ∀ e, p = .ret (.error e) → Refused options es

section Traces

variable {options : TenantSecretOptions} {es es' : List SecretEntry}

theorem Enriched.mono {subscriptions result : List WebhookSubscription}
    (h : Enriched options es subscriptions result) (hsub : es ⊆ es') :
    Enriched options es' subscriptions result :=
  h.imp fun _ _ ⟨secret, heq, hsource⟩ => ⟨secret, heq, hsource.mono hsub⟩

theorem RequestOk.empty :
    RequestOk options [] [] (.ret (.ok [])) := by
  refine ⟨.of_none (List.forall_mem_nil _), fun result heq => ?_, nofun⟩
  cases heq
  exact .nil

/-- One subscription, and then the others. -/
theorem Enriched.cons {sub : WebhookSubscription} {rest result : List WebhookSubscription}
    {secret : Option Text} (hfirst : Source options (tenantKey sub) es secret)
    (hrest : Enriched options es' rest result) :
    Enriched options (es ++ es') (sub :: rest) (sub.withSecret secret :: result) :=
  List.Forall₂.cons ⟨secret, rfl, hfirst.mono (List.subset_append_left _ _)⟩
    (hrest.mono (List.subset_append_right _ _))

/-- A request that has not ended. -/
theorem RequestOk.of_call {subscriptions : List WebhookSubscription} (h : SetsShown options es)
    {c : SecretCall} {k : c.Ans → Prog SecretCall SecretCall.Ans (Except Exn (List WebhookSubscription))} :
    RequestOk options subscriptions es (.call c k) := ⟨h, nofun, nofun⟩

theorem DirectSqlSubscriptionStore.enrichSecretsAsync_reaches {subscriptions : List WebhookSubscription}
    {p : Prog SecretCall SecretCall.Ans (Except Exn (List WebhookSubscription))}
    (h : (enrichSecretsAsync options subscriptions).run.Reaches es p) :
    RequestOk options subscriptions es p := by
  induction subscriptions generalizing es p with
  | nil =>
      obtain ⟨rfl, rfl⟩ := Prog.reaches_ret h
      exact .empty
  | cons sub rest ih =>
      have hbind : (enrichSecretsAsync options (sub :: rest)).run =
          (getSecretAsync options (tenantKey sub)).run.bind (ExceptT.bindCont fun secret =>
            ExceptT.mk ((enrichSecretsAsync options rest).run.bind (ExceptT.bindCont fun others =>
              pure (sub.withSecret secret :: others)))) := rfl
      rw [hbind] at h
      rcases Prog.reaches_bind h with ⟨c, k, hq, rfl⟩ | ⟨es₁, es₂, r, rfl, hfirst, hnext⟩
      · exact .of_call (getSecretAsync_reaches hq).1
      obtain ⟨hsets, hsource, hrefused⟩ := getSecretAsync_reaches hfirst
      cases r with
      | error e =>
          -- the loop is left
          obtain ⟨rfl, rfl⟩ := Prog.reaches_ret hnext
          rw [List.append_nil]
          exact ⟨hsets, nofun, fun e' heq => hrefused e rfl⟩
      | ok secret =>
          rcases Prog.reaches_bind hnext with ⟨c, k, hq, rfl⟩ | ⟨es₂, es₃, r, rfl, hrest, hlast⟩
          · exact .of_call (hsets.append (ih hq).1)
          obtain ⟨hsets', henriched, hrefused'⟩ := ih hrest
          cases r with
          | error e =>
              obtain ⟨rfl, rfl⟩ := Prog.reaches_ret hlast
              rw [List.append_nil]
              refine ⟨hsets.append hsets', nofun, fun e' heq => ?_⟩
              exact (hrefused' e rfl).mono (List.subset_append_right _ _)
          | ok others =>
              obtain ⟨rfl, rfl⟩ := Prog.reaches_ret hlast
              rw [List.append_nil]
              refine ⟨hsets.append hsets', fun result heq => ?_, nofun⟩
              cases heq
              exact .cons (hsource secret rfl) (henriched others rfl)

theorem EfCoreSubscriptionStore.enrichSecretsAsync_reaches {subscriptions : List WebhookSubscription}
    {p : Prog SecretCall SecretCall.Ans (Except Exn (List WebhookSubscription))}
    (h : (enrichSecretsAsync options subscriptions).run.Reaches es p) :
    RequestOk options subscriptions es p := by
  induction subscriptions generalizing es p with
  | nil =>
      obtain ⟨rfl, rfl⟩ := Prog.reaches_ret h
      exact .empty
  | cons sub rest ih =>
      have hbind : (enrichSecretsAsync options (sub :: rest)).run =
          (getSecretAsync options (tenantKey sub)).run.bind fun secret =>
            (enrichSecretsAsync options rest).run.bind fun others =>
              .ret (secret.bind fun secret => others.map (sub.withSecret secret :: ·)) := rfl
      rw [hbind] at h
      rcases Prog.reaches_bind h with ⟨c, k, hq, rfl⟩ | ⟨es₁, es₂, r, rfl, hfirst, hnext⟩
      · exact .of_call (getSecretAsync_reaches hq).1
      obtain ⟨hsets, hsource, hrefused⟩ := getSecretAsync_reaches hfirst
      -- the tasks of the other subscriptions run whether or not the first has thrown
      rcases Prog.reaches_bind hnext with ⟨c, k, hq, rfl⟩ | ⟨es₂, es₃, r', rfl, hrest, hlast⟩
      · exact .of_call (hsets.append (ih hq).1)
      obtain ⟨hsets', henriched, hrefused'⟩ := ih hrest
      obtain ⟨rfl, rfl⟩ := Prog.reaches_ret hlast
      rw [List.append_nil]
      refine ⟨hsets.append hsets', fun result heq => ?_, fun e heq => ?_⟩
      · cases r with
        | error => cases heq
        | ok secret =>
            cases r' with
            | error => cases heq
            | ok others =>
                cases heq
                exact .cons (hsource secret rfl) (henriched others rfl)
      · cases r with
        | error e' => exact (hrefused e' rfl).mono (List.subset_append_left _ _)
        | ok secret =>
            cases r' with
            | error e' => exact (hrefused' e' rfl).mono (List.subset_append_right _ _)
            | ok others => cases heq

theorem enrichSecretsAsync_reaches {provider : Provider} {subscriptions : List WebhookSubscription}
    {p : Prog SecretCall SecretCall.Ans (Except Exn (List WebhookSubscription))}
    (h : (enrichSecretsAsync provider options subscriptions).Reaches es p) :
    RequestOk options subscriptions es p := by
  unfold enrichSecretsAsync at h
  split at h
  · exact DirectSqlSubscriptionStore.enrichSecretsAsync_reaches h
  · exact EfCoreSubscriptionStore.enrichSecretsAsync_reaches h

end Traces

/-! ## Requests side by side -/

/-- A run of requests for these lists of subscriptions, from an empty cache. -/
abbrev SecretRun (shows : DateTimeOffset → Text → Option Text → Prop)
    (drops : List (ExpiringCache.Item Text (Option Text)) →
      List (ExpiringCache.Item Text (Option Text)) → Prop)
    (provider : Provider) (options : TenantSecretOptions) (now : DateTimeOffset)
    (requests : List (List WebhookSubscription))
    (acts : List (Threads.Event SecretCall SecretCall.Ans))
    (w : Threads.Config SecretCall SecretCall.Ans (Except Exn (List WebhookSubscription))
      (Cache Text (Option Text))) : Prop :=
  Threads.Run (SecretExec shows drops) (fun _ => False)
    ⟨⟨now, []⟩, requests.map (enrichSecretsAsync provider options)⟩ acts w

/-- The secret that request `i` has put into a subscription of the tenant: the configuration has shown it
at `t` under the tenant's key, to the request itself, or to one that has set it in the cache less than the
time to live before request `i` found it. -/
def Recent (options : TenantSecretOptions) (acts : List (Threads.Event SecretCall SecretCall.Ans))
    (i : ℕ) (tenantId : Text) (t : DateTimeOffset) (secret : Option Text) : Prop :=
  .call i (.configuration (configurationKey options tenantId)) (t, secret) ∈ acts ∨
    ∃ j start found,
      .call j (.configuration (configurationKey options tenantId)) (t, secret) ∈ acts ∧
      .call j (.setEntry (cacheKey tenantId) secret options.secretCacheTtl) (start, .ok ()) ∈ acts ∧
      .call i (.tryGetValue (cacheKey tenantId)) (found, some secret) ∈ acts ∧
      t ≤ start ∧ start ≤ found ∧ found < start + options.secretCacheTtl

/-- The secret that some calls have cached last for a tenant, or one from before. -/
def lastCached (tenantId : Text) (secret : Option Text)
    (acts : List (Threads.Event SecretCall SecretCall.Ans)) : Option Text :=
  ExpiringCache.lastValue (cacheKey tenantId) secret
    ((acts.filterMap Threads.Event.call?).map SecretEntry.op)

namespace SecretRun

variable {shows : DateTimeOffset → Text → Option Text → Prop}
  {drops : List (ExpiringCache.Item Text (Option Text)) →
    List (ExpiringCache.Item Text (Option Text)) → Prop}
  {provider : Provider} {options : TenantSecretOptions} {now : DateTimeOffset}
  {requests : List (List WebhookSubscription)}
  {acts : List (Threads.Event SecretCall SecretCall.Ans)}
  {w : Threads.Config SecretCall SecretCall.Ans (Except Exn (List WebhookSubscription))
    (Cache Text (Option Text))}

/-- The calls of a run are a run of the cache. -/
theorem ops (hrun : SecretRun shows drops provider options now requests acts w) :
    Steps (ExpiringCache.Step drops) ⟨now, []⟩
      ((acts.filterMap Threads.Event.call?).map SecretEntry.op) w.state :=
  (Threads.run_calls hrun).map id SecretEntry.op fun _ _ _ h => h.1

theorem admissible (hrun : SecretRun shows drops provider options now requests acts w) {i : ℕ}
    {c : SecretCall} {a : c.Ans} (hmem : .call i c a ∈ acts) :
    SecretEntry.Admissible shows ⟨c, a⟩ := by
  have hcall : (⟨c, a⟩ : SecretEntry) ∈ acts.filterMap Threads.Event.call? :=
    Threads.mem_filterMap_call?.mpr ⟨i, hmem⟩
  have hcalls := Threads.run_calls hrun
  obtain ⟨before, after, heq⟩ := List.append_of_mem hcall
  rw [heq] at hcalls
  obtain ⟨_, _, -, hexec, -⟩ := hcalls.split
  exact hexec.2

/-- A call is that of a request, which has made the calls of one of its traces. -/
theorem request (hrun : SecretRun shows drops provider options now requests acts w) {j : ℕ}
    {c : SecretCall} {a : c.Ans} (hmem : .call j c a ∈ acts) :
    SetsShown options (Threads.callsOf j acts) := by
  by_cases hlt : j < requests.length
  · have hthread : (requests.map (enrichSecretsAsync provider options))[j]? =
        some (enrichSecretsAsync provider options requests[j]) := by
      rw [List.getElem?_map, List.getElem?_eq_getElem hlt]
      rfl
    obtain ⟨p, -, hreaches⟩ := Threads.reaches hrun hthread
    exact (enrichSecretsAsync_reaches hreaches).1
  · -- nobody else makes a call
    have hlength := Threads.length_eq hrun (fun _ h => h)
    rw [List.length_map] at hlength
    have hnone := Threads.callsOf_eq_nil hrun (i := j) (by omega)
    have hcall := Threads.mem_callsOf.mpr hmem
    rw [hnone] at hcall
    cases hcall

/-- An entry that is set was shown before by the configuration. -/
theorem shown_before_set (hrun : SecretRun shows drops provider options now requests acts w) {j : ℕ}
    {tenantId : Text} {secret : Option Text} {relativeToNow : TimeSpan} {start : DateTimeOffset}
    {stored : Except Exn Unit}
    (hmem : .call j (.setEntry (cacheKey tenantId) secret relativeToNow) (start, stored) ∈ acts) :
    relativeToNow = options.secretCacheTtl ∧ ∃ t ≤ start,
      .call j (.configuration (configurationKey options tenantId)) (t, secret) ∈ acts := by
  have hcall := Threads.mem_callsOf.mpr hmem
  obtain ⟨hrelative, τ, t, hkey, hsub⟩ := hrun.request hmem _ _ _ _ hcall
  -- the key in the cache tells the tenant
  obtain rfl : tenantId = τ := List.append_cancel_left hkey
  have hordered := (ExpiringCache.instants_ordered hrun.ops).1
  rw [List.pairwise_map] at hordered
  have hpair := hordered.sublist (hsub.trans (Threads.callsOf_sublist j acts))
  refine ⟨hrelative, t, ?_, Threads.mem_callsOf.mp (hsub.subset List.mem_cons_self)⟩
  have hle := (List.pairwise_cons.mp hpair).1 _ List.mem_cons_self
  cases stored <;> exact hle

/-- What is found in the cache was set within the time to live. -/
theorem found_was_set (hrun : SecretRun shows drops provider options now requests acts w)
    (hdrops : ∀ items kept, drops items kept → kept ⊆ items) {i : ℕ} {key : Text}
    {secret : Option Text} {found : DateTimeOffset}
    (hmem : .call i (.tryGetValue key) (found, some secret) ∈ acts) :
    ∃ j relativeToNow start, .call j (.setEntry key secret relativeToNow) (start, .ok ()) ∈ acts ∧
      start ≤ found ∧ found < start + relativeToNow := by
  have hcall : (⟨.tryGetValue key, (found, some secret)⟩ : SecretEntry) ∈
      acts.filterMap Threads.Event.call? := Threads.mem_filterMap_call?.mpr ⟨i, hmem⟩
  obtain ⟨before, after, heq⟩ := List.append_of_mem hcall
  have hops := hrun.ops
  rw [heq, List.map_append, List.map_cons] at hops
  obtain ⟨cache, cache', hbefore, hlookup, -⟩ := hops.split
  obtain ⟨front, since, lifetime, start, hset, hle, hlt, -⟩ :=
    ExpiringCache.found_was_set hdrops hbefore hlookup
  -- the operation is that of a call
  have hop : (.set key secret lifetime start : Op Text (Option Text)) ∈ before.map SecretEntry.op := by
    rw [hset]
    exact List.mem_append_right _ List.mem_cons_self
  obtain ⟨e, he, hop⟩ := List.mem_map.mp hop
  have hall : e ∈ acts.filterMap Threads.Event.call? := by
    rw [heq]
    exact List.mem_append_left _ he
  obtain rfl := SecretEntry.eq_of_op hop
  obtain ⟨j, hj⟩ := Threads.mem_filterMap_call?.mp hall
  exact ⟨j, lifetime, start, hj, hle, hlt⟩

/-- Where the secrets of a request come from. -/
theorem recent (hrun : SecretRun shows DropsAny provider options now requests acts w) {i : ℕ}
    {tenantId : Text} {secret : Option Text}
    (hsource : Source options tenantId (Threads.callsOf i acts) secret) :
    ∃ t, shows t (configurationKey options tenantId) secret ∧ Recent options acts i tenantId t secret := by
  rcases hsource with ⟨t, hmem⟩ | ⟨found, hmem⟩
  · have hmem := Threads.mem_callsOf.mp hmem
    exact ⟨t, hrun.admissible hmem, .inl hmem⟩
  · have hmem := Threads.mem_callsOf.mp hmem
    obtain ⟨j, relativeToNow, start, hset, hle, hlt⟩ :=
      hrun.found_was_set (fun items kept hkept => hkept.subset) hmem
    obtain ⟨rfl, t, ht, hshown⟩ := hrun.shown_before_set hset
    exact ⟨t, hrun.admissible hshown, .inr ⟨j, start, found, hshown, hset, hmem, ht, hle, hlt⟩⟩

/-- The request at `i` has made the calls of a trace that ends as the request has. -/
theorem requestOk (hrun : SecretRun shows drops provider options now requests acts w) {i : ℕ}
    {subscriptions : List WebhookSubscription} {r : Except Exn (List WebhookSubscription)}
    (hrequest : requests[i]? = some subscriptions) (hended : w.threads[i]? = some (.ret r)) :
    RequestOk options subscriptions (Threads.callsOf i acts) (.ret r) := by
  have hthread : (requests.map (enrichSecretsAsync provider options))[i]? =
      some (enrichSecretsAsync provider options subscriptions) := by
    rw [List.getElem?_map, hrequest]
    rfl
  obtain ⟨p, hp, hreaches⟩ := Threads.reaches hrun hthread
  rw [hended] at hp
  cases hp
  exact enrichSecretsAsync_reaches hreaches

/-- A request throws only for a time to live that is negative or goes beyond `DateTime.MaxValue`. -/
theorem not_refused (hrun : SecretRun shows drops provider options now requests acts w)
    (hnonneg : 0 ≤ options.secretCacheTtl) (hmax : w.state.now + options.secretCacheTtl ≤ maxTicks)
    {i : ℕ} : ¬ Refused options (Threads.callsOf i acts) := by
  rintro (hneg | ⟨key, value, relativeToNow, t, e, hmem⟩)
  · exact absurd hneg (not_lt.mpr hnonneg)
  · have hcall := Threads.mem_callsOf.mp hmem
    obtain ⟨rfl, -⟩ := hrun.request hcall _ _ _ _ hmem
    have hall := (Threads.callsOf_sublist i acts).subset hmem
    have hbounds := (ExpiringCache.instants_ordered hrun.ops).2.1 _ (List.mem_map_of_mem hall)
    have hle : t ≤ w.state.now := hbounds.2
    have hadmissible : (Except.error e : Except Exn Unit).isOk = true ↔
        t + options.secretCacheTtl ≤ maxTicks := hrun.admissible hcall
    have hfits : t + options.secretCacheTtl ≤ maxTicks :=
      (Int.add_le_add_right hle options.secretCacheTtl).trans hmax
    cases hadmissible.mpr hfits

end SecretRun

/-- Where there is no secret for the tenant, the row's own stays. -/
theorem withSecret_eq_or (sub : WebhookSubscription) (secret : Option Text) :
    sub.withSecret secret = { sub with secret := secret.or sub.secret } := by
  cases secret <;> rfl

/-- A secret and the function of the tenant it is taken from. -/
theorem withSecret_eq_enrichSecret (getSecret : SubscriptionStore.SecretRetriever)
    (sub : WebhookSubscription) :
    sub.withSecret (getSecret (tenantKey sub)) = SubscriptionStore.enrichSecret getSecret sub := by
  unfold SubscriptionStore.enrichSecret WebhookSubscription.withSecret
  cases getSecret (tenantKey sub) <;> rfl

/-! ## Two requests for one tenant -/

/-- A subscription of a tenant. -/
def acmeHook : WebhookSubscription where
  id := 9
  tenantId := some (text "acme")
  eventType := text "order.placed"
  webhookUrl := text "https://acme.example/hook"
  secret := none
  isActive := true
  maxRetries := 3
  timeout := 30 * ticksPerSecond
  customHeaders := none

/-- A configuration with the tenant's secret. -/
def acmeConfiguration (key : Text) : Option Text :=
  if key = text "Outbox:Secrets:acme:WebhookSecret" then some (text "s3cret") else none

/-- The calls of two requests: the first has set the secret when the second looks it up. -/
def acmeActs : List (Threads.Event SecretCall SecretCall.Ans) :=
  [.call 0 (.tryGetValue (cacheKey (text "acme"))) (0, none),
    .call 0 (.configuration (configurationKey {} (text "acme"))) (1, some (text "s3cret")),
    .call 0 (.setEntry (cacheKey (text "acme")) (some (text "s3cret")) (5 * 60 * ticksPerSecond))
      (2, .ok ()),
    .call 1 (.tryGetValue (cacheKey (text "acme"))) (3, some (some (text "s3cret")))]

/-- Both have ended. -/
def acmeEnded : Threads.Config SecretCall SecretCall.Ans (Except Exn (List WebhookSubscription))
    (Cache Text (Option Text)) where
  state := ⟨3, [⟨cacheKey (text "acme"), some (text "s3cret"), 3000000002⟩]⟩
  threads := [.ret (.ok [acmeHook.withSecret (some (text "s3cret"))]),
    .ret (.ok [acmeHook.withSecret (some (text "s3cret"))])]

theorem acme_run {drops : List (ExpiringCache.Item Text (Option Text)) →
      List (ExpiringCache.Item Text (Option Text)) → Prop} (hdrops : ∀ items, drops items items) :
    SecretRun (fun _ key value => value = acmeConfiguration key) drops .directSql {} 0
      [[acmeHook], [acmeHook]] acmeActs acmeEnded := by
  have hkey : acmeConfiguration (configurationKey {} (text "acme")) = some (text "s3cret") := by
    decide
  have hfits : (Except.ok () : Except Exn Unit).isOk = true ↔
      (2 : ℤ) + 5 * 60 * ticksPerSecond ≤ maxTicks := by decide
  refine .cons (.call (s := ⟨0, []⟩) rfl ⟨.lookup (le_refl _) (hdrops _), trivial⟩) ?_
  refine .cons (.call (s := ⟨1, []⟩) rfl ⟨.pass (by decide), hkey.symm⟩) ?_
  refine .cons (.call rfl ⟨.set (by decide) (hdrops _), hfits⟩) ?_
  refine .cons (.call rfl ⟨.lookup (by decide) (hdrops _), trivial⟩) (.nil _)

/-! ## The theorems -/

section Theorems

variable {shows : DateTimeOffset → Text → Option Text → Prop} {provider : Provider}
  {options : TenantSecretOptions} {now : DateTimeOffset} {requests : List (List WebhookSubscription)}
  {acts : List (Threads.Event SecretCall SecretCall.Ans)}
  {w : Threads.Config SecretCall SecretCall.Ans (Except Exn (List WebhookSubscription))
    (Cache Text (Option Text))}

/-- **Secrets are recent and of the own tenant.** Take any number of requests to a store, in any
interleaving of their calls, with a configuration that changes and a cache that drops entries at any times.
Each subscription that a request returns has the secret that the configuration has shown under the key of
that subscription's tenant, or that of its row if the configuration has shown none: to the request itself,
or to one that set it in the cache less than `SecretCacheTtl` before. -/
theorem secrets_recent (hrun : SecretRun shows DropsAny provider options now requests acts w) {i : ℕ}
    {subscriptions result : List WebhookSubscription} (hrequest : requests[i]? = some subscriptions)
    (hended : w.threads[i]? = some (.ret (.ok result))) :
    List.Forall₂ (fun sub sub' => ∃ secret t, sub' = { sub with secret := secret.or sub.secret } ∧
      shows t (configurationKey options (tenantKey sub)) secret ∧
      Recent options acts i (tenantKey sub) t secret) subscriptions result := by
  have henriched := (hrun.requestOk hrequest hended).2.1 result rfl
  refine henriched.imp fun sub sub' ⟨secret, heq, hsource⟩ => ?_
  obtain ⟨t, hshown, hrecent⟩ := hrun.recent hsource
  exact ⟨secret, t, heq.trans (withSecret_eq_or sub secret), hshown, hrecent⟩

/-- The second request has the secret that the first has set. -/
theorem secrets_recent_acme :
    List.Forall₂ (fun sub sub' => ∃ secret t, sub' = { sub with secret := secret.or sub.secret } ∧
      secret = acmeConfiguration (configurationKey {} (tenantKey sub)) ∧
      Recent {} acmeActs 1 (tenantKey sub) t secret)
      [acmeHook] [acmeHook.withSecret (some (text "s3cret"))] :=
  secrets_recent (acme_run List.Sublist.refl) rfl rfl

/-- **The retriever is a function of the tenant** while the configuration does not change: whatever other
requests do, and whatever the cache drops, a request returns what the store returns with that function. -/
theorem secrets_of_configuration {f : Text → Option Text}
    (hrun : SecretRun (fun _ key value => value = f key) DropsAny provider options now requests acts w)
    (hnonneg : 0 ≤ options.secretCacheTtl) (hmax : w.state.now + options.secretCacheTtl ≤ maxTicks)
    {i : ℕ} {subscriptions : List WebhookSubscription} {r : Except Exn (List WebhookSubscription)}
    (hrequest : requests[i]? = some subscriptions) (hended : w.threads[i]? = some (.ret r)) :
    r = .ok (SubscriptionStore.enrichSecretsAsync
      (some fun tenantId => f (configurationKey options tenantId)) subscriptions) := by
  obtain ⟨-, henriched, hrefused⟩ := hrun.requestOk hrequest hended
  cases r with
  | error e => exact absurd (hrefused e rfl) (hrun.not_refused hnonneg hmax)
  | ok result =>
      refine congrArg Except.ok ?_
      rw [SubscriptionStore.enrichSecretsAsync]
      have heach : List.Forall₂ (fun sub sub' => SubscriptionStore.enrichSecret
          (fun tenantId => f (configurationKey options tenantId)) sub = sub') subscriptions result := by
        refine (henriched result rfl).imp fun sub sub' ⟨secret, heq, hsource⟩ => ?_
        obtain ⟨t, hshown, -⟩ := hrun.recent hsource
        rw [heq, hshown]
        exact (withSecret_eq_enrichSecret _ sub).symm
      have hmap := List.forall₂_map_left_iff.mpr heach
      rw [List.forall₂_eq_eq_eq] at hmap
      exact hmap.symm

theorem secrets_of_configuration_acme :
    (.ok [acmeHook.withSecret (some (text "s3cret"))] : Except Exn (List WebhookSubscription)) =
      .ok (SubscriptionStore.enrichSecretsAsync
        (some fun tenantId => acmeConfiguration (configurationKey {} tenantId)) [acmeHook]) :=
  secrets_of_configuration (i := 1) (acme_run List.Sublist.refl) (by decide) (by decide) rfl rfl

/-- **Within the time to live of a secret the cache answers**, if it drops nothing: a request that looks the
tenant up finds the secret cached last, this one or that of a later request. -/
theorem set_secret_found {before between after : List (Threads.Event SecretCall SecretCall.Ans)} {i j : ℕ}
    {tenantId : Text} {secret : Option Text} {relativeToNow : TimeSpan} {start instant : DateTimeOffset}
    {found : Option (Option Text)}
    (hrun : SecretRun shows Eq provider options now requests (before ++
      .call j (.setEntry (cacheKey tenantId) secret relativeToNow) (start, .ok ()) :: (between ++
      .call i (.tryGetValue (cacheKey tenantId)) (instant, found) :: after)) w)
    (hlt : instant < start + options.secretCacheTtl) :
    found = some (lastCached tenantId secret between) := by
  have hmem : .call j (.setEntry (cacheKey tenantId) secret relativeToNow) (start, .ok ()) ∈ before ++
      .call j (.setEntry (cacheKey tenantId) secret relativeToNow) (start, .ok ()) :: (between ++
      .call i (.tryGetValue (cacheKey tenantId)) (instant, found) :: after) :=
    List.mem_append_right _ List.mem_cons_self
  obtain ⟨rfl, -⟩ := hrun.shown_before_set hmem
  have hops := hrun.ops
  simp only [List.filterMap_append, List.map_append] at hops
  obtain ⟨cache, cache₁, -, hset, hrest⟩ := Steps.split hops
  rw [List.filterMap_append, List.map_append] at hrest
  obtain ⟨cache₂, cache₃, hbetween, hlookup, -⟩ := Steps.split hrest
  refine ExpiringCache.found_of_set hset hbetween ?_ hlookup hlt
  -- all requests set entries with the same time to live
  intro value lifetime' instant' hop
  obtain ⟨e, he, hop⟩ := List.mem_map.mp hop
  obtain rfl := SecretEntry.eq_of_op hop
  obtain ⟨l, hl⟩ := Threads.mem_filterMap_call?.mp he
  have hset' := hrun.shown_before_set (List.mem_append_right before
    (List.mem_cons_of_mem _ (List.mem_append_left _ hl)))
  exact hset'.1.ge

/-- Two requests have found nothing and asked a configuration that changed in between; the second sets the
older secret over the newer one, and the third finds it. -/
def overwrittenActs : List (Threads.Event SecretCall SecretCall.Ans) :=
  [.call 0 (.tryGetValue (cacheKey (text "acme"))) (0, none),
    .call 1 (.tryGetValue (cacheKey (text "acme"))) (0, none),
    .call 1 (.configuration (configurationKey {} (text "acme"))) (1, some (text "old")),
    .call 0 (.configuration (configurationKey {} (text "acme"))) (2, some (text "new")),
    .call 0 (.setEntry (cacheKey (text "acme")) (some (text "new")) (5 * 60 * ticksPerSecond)) (3, .ok ()),
    .call 1 (.setEntry (cacheKey (text "acme")) (some (text "old")) (5 * 60 * ticksPerSecond)) (4, .ok ()),
    .call 2 (.tryGetValue (cacheKey (text "acme"))) (5, some (some (text "old")))]

/-- All have ended. -/
def overwrittenEnded : Threads.Config SecretCall SecretCall.Ans (Except Exn (List WebhookSubscription))
    (Cache Text (Option Text)) where
  state := ⟨5, [⟨cacheKey (text "acme"), some (text "old"), 3000000004⟩]⟩
  threads := [.ret (.ok [acmeHook.withSecret (some (text "new"))]),
    .ret (.ok [acmeHook.withSecret (some (text "old"))]),
    .ret (.ok [acmeHook.withSecret (some (text "old"))])]

theorem overwritten_run : SecretRun
    (fun t _ value => value = if t ≤ 1 then some (text "old") else some (text "new")) Eq .directSql {} 0
    [[acmeHook], [acmeHook], [acmeHook]] overwrittenActs overwrittenEnded := by
  have hfits₀ : (Except.ok () : Except Exn Unit).isOk = true ↔
      (3 : ℤ) + 5 * 60 * ticksPerSecond ≤ maxTicks := by decide
  have hfits₁ : (Except.ok () : Except Exn Unit).isOk = true ↔
      (4 : ℤ) + 5 * 60 * ticksPerSecond ≤ maxTicks := by decide
  refine .cons (.call (s := ⟨0, []⟩) rfl ⟨.lookup (le_refl _) rfl, trivial⟩) ?_
  refine .cons (.call (s := ⟨0, []⟩) rfl ⟨.lookup (le_refl _) rfl, trivial⟩) ?_
  refine .cons (.call (s := ⟨1, []⟩) rfl ⟨.pass (by decide), rfl⟩) ?_
  refine .cons (.call (s := ⟨2, []⟩) rfl ⟨.pass (by decide), rfl⟩) ?_
  refine .cons (.call rfl ⟨.set (by decide) rfl, hfits₀⟩) ?_
  refine .cons (.call rfl ⟨.set (by decide) rfl, hfits₁⟩) ?_
  refine .cons (.call rfl ⟨.lookup (by decide) rfl, trivial⟩) (.nil _)

/-- The third request finds the secret set last, not the one whose time to live it is in. -/
theorem set_secret_found_acme :
    (some (some (text "old")) : Option (Option Text)) =
      some (lastCached (text "acme") (some (text "new"))
        [.call 1 (.setEntry (cacheKey (text "acme")) (some (text "old")) (5 * 60 * ticksPerSecond))
          (4, .ok ())]) := by
  have hrun := overwritten_run
  have hacts : overwrittenActs = overwrittenActs.take 4 ++
      .call 0 (.setEntry (cacheKey (text "acme")) (some (text "new")) (5 * 60 * ticksPerSecond))
        (3, .ok ()) ::
      ([.call 1 (.setEntry (cacheKey (text "acme")) (some (text "old")) (5 * 60 * ticksPerSecond))
        (4, .ok ())] ++
      .call 2 (.tryGetValue (cacheKey (text "acme"))) (5, some (some (text "old"))) :: []) := rfl
  rw [hacts] at hrun
  exact set_secret_found hrun (by decide)

end Theorems

end OutboxNet
