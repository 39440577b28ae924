import OutboxNet.Processor.DeliveryId
import OutboxNet.Store.Sql

/-!
# The readers of subscriptions

The four implementations of `ISubscriptionReader`: the two database stores, which select rows and then
ask a secret retriever for each of them, the store driven by configuration, and the one without
subscriptions.  A statement without an `ORDER BY` returns its rows in any order, so an answer is a
relation.  It depends on the event type and the tenant of the message and on nothing else of it.
-/

set_option autoImplicit false

namespace OutboxNet

/-- The table `WebhookSubscriptions`. -/
abbrev Subscriptions := Table WebhookSubscription.id

/-! ## Conditions of a statement -/

/-- The value of a condition: true, false, or unknown. -/
abbrev Truth := Option Bool

namespace Truth

/-- `AND`. -/
def and : Truth → Truth → Truth
  | some true, b => b
  | some false, _ => some false
  | none, some false => some false
  | none, _ => none

/-- `OR`. -/
def or : Truth → Truth → Truth
  | some true, _ => some true
  | some false, b => b
  | none, some true => some true
  | none, _ => none

/-- A row is selected when its condition is true; unknown is not enough. -/
def holds (b : Truth) : Bool := b = some true

@[simp] theorem holds_some (b : Bool) : holds (some b) = b := by
  cases b <;> rfl

@[simp] theorem holds_none : holds none = false := rfl

theorem holds_and (a b : Truth) : (and a b).holds = (a.holds && b.holds) := by
  rcases a with _ | (_ | _) <;> rcases b with _ | (_ | _) <;> rfl

theorem holds_or (a b : Truth) : (or a b).holds = (a.holds || b.holds) := by
  rcases a with _ | (_ | _) <;> rcases b with _ | (_ | _) <;> rfl

end Truth

namespace SubscriptionStore

variable (dep : Deployment)

/-- `a = b` in a statement: a comparison with null is unknown. -/
def equals : Option Text → Option Text → Truth
  | some a, some b => some (dep.sameText a b)
  | _, _ => none

/-- `a IS NULL`. -/
def isNull (a : Option Text) : Truth := some a.isNone

/-- The event type that matches every message. -/
def wildcard : Text := text "*"

/-! ## Rows for a message -/

/-- The `WHERE` clause of `DirectSqlSubscriptionStore.GetForMessageAsync`. -/
def directWhere (eventType : Option Text) (tenantId : Option Text) (s : WebhookSubscription) :
    Truth :=
  Truth.and (some s.isActive)
    (Truth.and
      (Truth.or (equals dep (some s.eventType) eventType)
        (equals dep (some s.eventType) (some wildcard)))
      (Truth.or (isNull s.tenantId) (equals dep s.tenantId tenantId)))

/-- What the direct provider selects: the driver cuts its parameters to their size. -/
def directSelects (message : OutboxMessage) (s : WebhookSubscription) : Bool :=
  (directWhere dep (some (nvarchar 256 message.eventType)) (message.tenantId.map (nvarchar 256))
    s).holds

/-- What EF Core selects for the expression of `EfCoreSubscriptionStore.GetForMessageAsync`: the
translation makes a comparison with null what it is in C#. -/
def efSelects (message : OutboxMessage) (s : WebhookSubscription) : Bool :=
  s.isActive &&
    (dep.sameText s.eventType message.eventType || dep.sameText s.eventType wildcard) &&
    (s.tenantId.isNone || dep.sameKey s.tenantId message.tenantId)

/-- Whether the deployment's provider selects a row for a message. -/
def selects (message : OutboxMessage) (s : WebhookSubscription) : Bool :=
  match dep.provider with
  | .directSql => directSelects dep message s
  | .efCore => efSelects dep message s

/-! ## Secrets -/

/-- A digit in lower case. -/
def hexDigit (n : ℕ) : UInt16 := (text "0123456789abcdef").getD n 0

def hexByte (b : Byte) : Text := [hexDigit (b.toNat / 16), hexDigit (b.toNat % 16)]

/-- `Guid.ToString()`: the first three groups are numbers, least significant byte first in memory. -/
def guidToString (g : Guid) : Text :=
  let bytes := fun indices : List ℕ => indices.flatMap fun i => hexByte (g.bytes.getD i 0)
  let dash := text "-"
  bytes [3, 2, 1, 0] ++ dash ++ bytes [5, 4] ++ dash ++ bytes [7, 6] ++ dash ++ bytes [8, 9] ++
    dash ++ bytes [10, 11, 12, 13, 14, 15]

/-- An `ITenantSecretRetriever`, as a function of its key. -/
abbrev SecretRetriever := Text → Option Text

/-- The key a subscription's secret is asked for by. -/
def tenantKey (s : WebhookSubscription) : Text := s.tenantId.getD (guidToString s.id)

/-- What `EnrichSecretsAsync` does to one subscription. -/
def enrichSecret (getSecret : SecretRetriever) (s : WebhookSubscription) : WebhookSubscription :=
  match getSecret (tenantKey s) with
  | some secret => { s with secret := some secret }
  | none => s

/-- `EnrichSecretsAsync`; there need not be a retriever. -/
def enrichSecretsAsync (secretRetriever : Option SecretRetriever)
    (subscriptions : List WebhookSubscription) : List WebhookSubscription :=
  match secretRetriever with
  | none => subscriptions
  | some getSecret => subscriptions.map (enrichSecret getSecret)

/-- `GetForMessageAsync` of a database store, when the server returns the rows in the order `rows`. -/
def getForMessageAsync (secretRetriever : Option SecretRetriever) (rows : List WebhookSubscription)
    (message : OutboxMessage) : List WebhookSubscription :=
  enrichSecretsAsync secretRetriever (rows.filter (selects dep message))

end SubscriptionStore

/-! ## Subscriptions from configuration -/

/-- `MD5.HashData`, with an output of 16 bytes. -/
structure Md5 where
  hashData : List Byte → List Byte
  length_hashData : ∀ input, (hashData input).length = 16

/-- The layout bits of version 3 and of the RFC 4122 variant. -/
def stampVersion3 (hash : List Byte) : List Byte :=
  (hash.modify 6 fun b => (b &&& 0x0F) ||| 0x30).modify 8 fun b => (b &&& 0x3F) ||| 0x80

/-- `WebhookMode`; a bound configuration may hold a number that is none of its names. -/
inductive WebhookMode : Type
  | global | perTenant | other
deriving DecidableEq, Repr

/-- `WebhookEndpointConfig`; a configuration need not set the secret. -/
structure WebhookEndpointConfig where
  url : Text
  secret : Option Text
  maxRetries : ℤ := 5
  timeoutSeconds : ℤ := 30
  customHeaders : Option (List (Text × Text)) := none
deriving DecidableEq, Repr

/-- `WebhookOptions`.  The keys of the dictionary of tenants are compared by their image under
`comparer`: with case ignored, as the options are declared. -/
structure WebhookOptions where
  mode : WebhookMode := .global
  global : Option WebhookEndpointConfig
  comparer : Text → Text
  tenants : Table fun e : Text × WebhookEndpointConfig => comparer e.1

namespace ConfigSubscriptionStore

variable (md5 : Md5)

/-- `Tenants.TryGetValue`. -/
def tryGetValue (options : WebhookOptions) (tenantId : Text) : Option WebhookEndpointConfig :=
  (options.tenants.find? (options.comparer tenantId)).map Prod.snd

/-- `DeterministicId`. -/
def deterministicId (url : Text) (tenantId : Option Text) : Guid :=
  let key := url ++ text "|" ++ tenantId.getD []
  Guid.ofBytes (stampVersion3 (md5.hashData (utf8GetBytes key)))

/-- `ToSubscription`.  A subscription from configuration names no tenant. -/
def toSubscription (config : WebhookEndpointConfig) (tenantId : Option Text) :
    WebhookSubscription where
  id := deterministicId md5 config.url tenantId
  tenantId := none
  eventType := SubscriptionStore.wildcard
  webhookUrl := config.url
  secret := config.secret
  isActive := true
  maxRetries := config.maxRetries
  timeout := config.timeoutSeconds * ticksPerSecond
  customHeaders := config.customHeaders

/-- `ResolveGlobal`. -/
def resolveGlobal (options : WebhookOptions) : List WebhookSubscription :=
  match options.global with
  | none => []
  | some config => [toSubscription md5 config none]

/-- `ResolveForTenant`. -/
def resolveForTenant (options : WebhookOptions) (tenantId : Option Text) :
    List WebhookSubscription :=
  match tenantId.bind (tryGetValue options) with
  | some config => [toSubscription md5 config tenantId]
  | none =>
      match tryGetValue options (text "default") with
      | some config => [toSubscription md5 config tenantId]
      | none => []

/-- `GetForMessageAsync`. -/
def getForMessageAsync (options : WebhookOptions) (message : OutboxMessage) :
    List WebhookSubscription :=
  match options.mode with
  | .global => resolveGlobal md5 options
  | .perTenant => resolveForTenant md5 options message.tenantId
  | .other => []

end ConfigSubscriptionStore

/-! ## The readers -/

/-- An `ISubscriptionReader` of the repository. -/
inductive SubscriptionReader : Type
  | database (subscriptions : Subscriptions)
      (secretRetriever : Option SubscriptionStore.SecretRetriever)
  | config (md5 : Md5) (options : WebhookOptions)
  | null

namespace SubscriptionReader

/-- `GetForMessageAsync` of a reader may return `result`. -/
def Returns (dep : Deployment) (message : OutboxMessage) (result : List WebhookSubscription) :
    SubscriptionReader → Prop
  | database subscriptions secretRetriever => ∃ rows : List WebhookSubscription,
      rows.Perm subscriptions.rows ∧
        result = SubscriptionStore.getForMessageAsync dep secretRetriever rows message
  | config md5 options => result = ConfigSubscriptionStore.getForMessageAsync md5 options message
  | null => result = []

end SubscriptionReader

/-! ## What an answer depends on -/

namespace SubscriptionStore

variable {dep : Deployment}

/-- A string as the deployment's provider sends it in a parameter of 256 characters. -/
def parameter (dep : Deployment) (s : Text) : Text :=
  match dep.provider with
  | .directSql => nvarchar 256 s
  | .efCore => s

/-- The providers select the same rows, but for what they send. -/
theorem selects_eq (message : OutboxMessage) (s : WebhookSubscription) :
    selects dep message s = (s.isActive &&
      (dep.sameText s.eventType (parameter dep message.eventType) ||
        dep.sameText s.eventType wildcard) &&
      (s.tenantId.isNone || dep.sameKey s.tenantId (message.tenantId.map (parameter dep)))) := by
  unfold selects parameter
  cases dep.provider with
  | directSql =>
      simp only [directSelects, directWhere, Truth.holds_and, Truth.holds_or, equals, isNull,
        Truth.holds_some, Bool.and_assoc]
      congr 2
      cases s.tenantId with
      | none => rfl
      | some a => cases message.tenantId <;> simp [Deployment.sameKey]
  | efCore => simp [efSelects]

/-- A row for a message is active, of its event type or of all, and of its tenant or of all. -/
theorem selects_iff {message : OutboxMessage} {s : WebhookSubscription} :
    selects dep message s = true ↔ s.isActive = true ∧
      (dep.sameText s.eventType (parameter dep message.eventType) = true ∨
        dep.sameText s.eventType wildcard = true) ∧
      (s.tenantId = none ∨ ∃ a b, s.tenantId = some a ∧ message.tenantId = some b ∧
        dep.sameText a (parameter dep b) = true) := by
  rw [selects_eq]
  simp only [Bool.and_eq_true, Bool.or_eq_true, Option.isNone_iff_eq_none, and_assoc]
  refine and_congr_right fun _ => and_congr_right fun _ => ?_
  cases ha : s.tenantId with
  | none => simp
  | some a => cases hb : message.tenantId <;> simp [Deployment.sameKey]

theorem enrichSecretsAsync_perm (secretRetriever : Option SecretRetriever)
    {subscriptions subscriptions' : List WebhookSubscription}
    (h : subscriptions.Perm subscriptions') :
    (enrichSecretsAsync secretRetriever subscriptions).Perm
      (enrichSecretsAsync secretRetriever subscriptions') := by
  cases secretRetriever with
  | none => exact h
  | some getSecret => exact h.map _

/-! ## Routes -/

/-- Whether a row is for messages of an event type. -/
def forEventType (dep : Deployment) (eventType : Text) (s : WebhookSubscription) : Bool :=
  dep.sameText s.eventType (parameter dep eventType) || dep.sameText s.eventType wildcard

/-- Whether a row is for messages of a tenant. -/
def forTenant (dep : Deployment) (tenantId : Option Text) (s : WebhookSubscription) : Bool :=
  s.tenantId.isNone || dep.sameKey s.tenantId (tenantId.map (parameter dep))

theorem selects_eq_and (message : OutboxMessage) (s : WebhookSubscription) :
    selects dep message s =
      (s.isActive && forEventType dep message.eventType s && forTenant dep message.tenantId s) :=
  selects_eq message s

theorem enrichSecret_id (getSecret : SecretRetriever) (s : WebhookSubscription) :
    (enrichSecret getSecret s).id = s.id := by
  unfold enrichSecret
  split <;> rfl

/-- The ids of the subscriptions returned are those of the rows selected. -/
theorem map_id_enrichSecretsAsync (secretRetriever : Option SecretRetriever)
    (subscriptions : List WebhookSubscription) :
    (enrichSecretsAsync secretRetriever subscriptions).map WebhookSubscription.id =
      subscriptions.map WebhookSubscription.id := by
  cases secretRetriever with
  | none => rfl
  | some getSecret =>
      show (subscriptions.map (enrichSecret getSecret)).map WebhookSubscription.id = _
      rw [List.map_map]
      exact List.map_congr_left fun s _ => enrichSecret_id getSecret s

/-- A row is selected when its id is among those returned. -/
theorem mem_getForMessageAsync_iff {secretRetriever : Option SecretRetriever}
    {subscriptions : Subscriptions} {rows : List WebhookSubscription}
    (hrows : rows.Perm subscriptions.rows) {message : OutboxMessage} {s : WebhookSubscription}
    (hs : s ∈ subscriptions.rows) :
    s.id ∈ (getForMessageAsync dep secretRetriever rows message).map WebhookSubscription.id ↔
      selects dep message s = true := by
  rw [getForMessageAsync, map_id_enrichSecretsAsync, List.mem_map]
  constructor
  · rintro ⟨s', hs', hid⟩
    obtain ⟨hmem, hselects⟩ := List.mem_filter.mp hs'
    rw [← subscriptions.eq_of_key_eq (hrows.mem_iff.mp hmem) hs hid]
    exact hselects
  · intro hselects
    exact ⟨s, List.mem_filter.mpr ⟨hrows.mem_iff.mpr hs, hselects⟩, rfl⟩

end SubscriptionStore

namespace SubscriptionReader

variable {dep : Deployment} {reader : SubscriptionReader}

/-- A reader has an answer for every message. -/
theorem exists_returns (reader : SubscriptionReader) (dep : Deployment) (message : OutboxMessage) :
    ∃ result, reader.Returns dep message result := by
  cases reader with
  | database subscriptions secretRetriever => exact ⟨_, subscriptions.rows, List.Perm.refl _, rfl⟩
  | config md5 options => exact ⟨_, rfl⟩
  | null => exact ⟨_, rfl⟩

/-- **Only the key counts.** Messages of the same event type and tenant have the same answers. -/
theorem Returns.of_key {message message' : OutboxMessage} {result : List WebhookSubscription}
    (h : reader.Returns dep message result) (heventType : message'.eventType = message.eventType)
    (htenantId : message'.tenantId = message.tenantId) : reader.Returns dep message' result := by
  cases reader with
  | database subscriptions secretRetriever =>
      obtain ⟨rows, hrows, rfl⟩ := h
      refine ⟨rows, hrows, ?_⟩
      have hselects : SubscriptionStore.selects dep message' =
          SubscriptionStore.selects dep message := by
        funext s
        rw [SubscriptionStore.selects_eq, SubscriptionStore.selects_eq, heventType, htenantId]
      rw [SubscriptionStore.getForMessageAsync, SubscriptionStore.getForMessageAsync, hselects]
  | config md5 options =>
      obtain rfl := h
      show _ = ConfigSubscriptionStore.getForMessageAsync md5 options message'
      rw [ConfigSubscriptionStore.getForMessageAsync, ConfigSubscriptionStore.getForMessageAsync,
        htenantId]
  | null => exact h

/-- Two answers for a message are the same up to their order. -/
theorem Returns.perm {message : OutboxMessage} {result result' : List WebhookSubscription}
    (h : reader.Returns dep message result) (h' : reader.Returns dep message result') :
    result.Perm result' := by
  cases reader with
  | database subscriptions secretRetriever =>
      obtain ⟨rows, hrows, rfl⟩ := h
      obtain ⟨rows', hrows', rfl⟩ := h'
      exact SubscriptionStore.enrichSecretsAsync_perm _ ((hrows.trans hrows'.symm).filter _)
  | config md5 options =>
      obtain rfl := h
      obtain rfl := h'
      exact List.Perm.refl _
  | null =>
      obtain rfl := h
      obtain rfl := h'
      exact List.Perm.refl _

end SubscriptionReader

end OutboxNet
