import OutboxNet.Store.LockDuration
import OutboxNet.Store.PublishRoundTrip
import OutboxNet.Store.SubscriptionStore

/-!
# From `AddAsync` to the readers of subscriptions

What the subscription stores put into the columns of `WebhookSubscriptions`, and what
`OutboxMessageMapper.MapSubscriptionFromReader` and the conversions of
`WebhookSubscriptionConfiguration` make of them.  The time-out is stored in whole seconds.  EF Core
takes a `MaxRetries` of 0 for one that has not been set, and lets the column's default stand in for it.

The other modules read subscriptions from a table that has them as they are;
`getForMessageAsync_eq` says that this is what the records come to.
-/

set_option autoImplicit false

namespace OutboxNet

open OutboxStore (HeaderJson nvarchar_eq_iff map_nvarchar_eq_iff)

/-! ## Records -/

/-- A row of `WebhookSubscriptions` as a `SqlDataReader` gives it; the times of its changes are left
out. -/
structure SubscriptionRecord where
  id : Guid
  tenantId : Option Text
  eventType : Text
  webhookUrl : Text
  secret : Text
  isActive : Bool
  maxRetries : ℤ
  timeoutSeconds : ℤ
  customHeaders : Option Text
deriving DecidableEq, Repr

/-- The table `WebhookSubscriptions`, column by column. -/
abbrev SubscriptionRecords := Table SubscriptionRecord.id

namespace SubscriptionRecord

/-- The subscription of a record, but for the headers. -/
def columns (r : SubscriptionRecord) : WebhookSubscription where
  id := r.id
  tenantId := r.tenantId
  eventType := r.eventType
  webhookUrl := r.webhookUrl
  secret := some r.secret
  isActive := r.isActive
  maxRetries := r.maxRetries
  timeout := r.timeoutSeconds * ticksPerSecond
  customHeaders := none

/-- `MapSubscriptionFromReader`, and what EF Core's conversions do; `none` is the exception of a text
that is no JSON dictionary. -/
def mapSubscriptionFromReader (json : HeaderJson) (r : SubscriptionRecord) :
    Option WebhookSubscription :=
  match r.customHeaders with
  | none => some r.columns
  | some customHeadersJson =>
      (json.deserialize customHeadersJson).map fun customHeaders =>
        { r.columns with customHeaders := some customHeaders }

/-- The headers of the record can be read. -/
def Readable (json : HeaderJson) (r : SubscriptionRecord) : Prop :=
  (r.mapSubscriptionFromReader json).isSome = true

/-- The strings of the record fit their columns. -/
def fits (r : SubscriptionRecord) : Bool :=
  r.tenantId.all (·.length ≤ 256) && r.eventType.length ≤ 256 && r.webhookUrl.length ≤ 2048 &&
    r.secret.length ≤ 512

end SubscriptionRecord

namespace SubscriptionRecords

variable (dep : Deployment) (json : HeaderJson)

/-! ## Writing -/

/-- What a parameter for a column of `n` characters sends: the direct provider cuts it. -/
def parameter (n : ℕ) (s : Text) : Text :=
  match dep.provider with
  | .directSql => nvarchar n s
  | .efCore => s

/-- The parameters of a subscription. -/
def record (id : Guid) (s : WebhookSubscription) (secret : Text) : SubscriptionRecord where
  id := id
  tenantId := s.tenantId.map (parameter dep 256)
  eventType := parameter dep 256 s.eventType
  webhookUrl := parameter dep 2048 s.webhookUrl
  secret := parameter dep 512 secret
  isActive := s.isActive
  maxRetries := s.maxRetries
  timeoutSeconds := dep.castSeconds s.timeout
  customHeaders := s.customHeaders.map json.serialize

theorem record_id (id : Guid) (s : WebhookSubscription) (secret : Text) :
    (record dep json id s secret).id = id := rfl

/-- `HasDefaultValue(5)`: EF Core leaves a column with a default out of an insert when the property has
the default of its type. -/
def insertedRetries (maxRetries : ℤ) : ℤ :=
  match dep.provider with
  | .directSql => maxRetries
  | .efCore => if maxRetries = 0 then 5 else maxRetries

/-- The id a subscription is inserted under: a new one if it has none. -/
def givenId (s : WebhookSubscription) (newId : Guid) : Guid := if s.id = .empty then newId else s.id

/-- `AddAsync`; a null secret is refused, and a string too long for its column. -/
def addAsync (s : WebhookSubscription) (newId : Guid) (t : SubscriptionRecords) :
    Option SubscriptionRecords :=
  match s.secret with
  | none => none
  | some secret =>
      let r := { record dep json (givenId s newId) s secret with
        maxRetries := insertedRetries dep s.maxRetries }
      if r.fits then t.insertAll? [r] else none

/-- `UpdateAsync`.  The direct provider updates the row if there is one; EF Core adds a subscription
without an id, and refuses one whose row is not there. -/
def updateAsync (s : WebhookSubscription) (newId : Guid) (t : SubscriptionRecords) :
    Option SubscriptionRecords :=
  match s.secret with
  | none => none
  | some secret =>
      let updated := t.update (fun r => r.id = s.id)
        (fun r => record dep json r.id s secret) fun r => record_id dep json r.id s secret
      match dep.provider with
      | .directSql => some updated
      | .efCore =>
          if s.id = .empty then addAsync dep json s newId t
          else if (t.find? s.id).isSome && (record dep json s.id s secret).fits then some updated
          else none

/-- `DeactivateAsync`. -/
def deactivateAsync (id : Guid) (t : SubscriptionRecords) : SubscriptionRecords :=
  t.update (fun r => r.id = id) (fun r => { r with isActive := false }) fun _ => rfl

/-! ## Reading -/

/-- `GetByIdAsync`: an exception, nothing, or the subscription. -/
def getByIdAsync (id : Guid) (t : SubscriptionRecords) : Option (Option WebhookSubscription) :=
  match t.find? id with
  | none => some none
  | some r => (r.mapSubscriptionFromReader json).map some

/-- `GetForMessageAsync`, when the server returns the rows in the order `rows`.  One record that cannot be
read is an exception for all; the secrets are asked for when all have been read. -/
def getForMessageAsync (secretRetriever : Option SubscriptionStore.SecretRetriever)
    (rows : List SubscriptionRecord) (message : OutboxMessage) : Option (List WebhookSubscription) :=
  let subscriptions := (rows.filter fun r => SubscriptionStore.selects dep message r.columns).mapM
    fun r => r.mapSubscriptionFromReader json
  subscriptions.map (SubscriptionStore.enrichSecretsAsync secretRetriever)

variable {dep json}

/-- The columns a statement looks at. -/
theorem selects_congr {message : OutboxMessage} {s s' : WebhookSubscription}
    (hactive : s'.isActive = s.isActive) (htype : s'.eventType = s.eventType)
    (htenant : s'.tenantId = s.tenantId) :
    SubscriptionStore.selects dep message s' = SubscriptionStore.selects dep message s := by
  rw [SubscriptionStore.selects_eq, SubscriptionStore.selects_eq, hactive, htype, htenant]

/-- A record that is read says in its subscription what it says in its columns. -/
theorem mapSubscriptionFromReader_columns {r : SubscriptionRecord} {s : WebhookSubscription}
    (h : r.mapSubscriptionFromReader json = some s) :
    s = { r.columns with customHeaders := s.customHeaders } := by
  unfold SubscriptionRecord.mapSubscriptionFromReader at h
  cases hheaders : r.customHeaders with
  | none =>
      rw [hheaders] at h
      cases h
      rfl
  | some headersJson =>
      rw [hheaders] at h
      obtain ⟨headers, -, rfl⟩ := Option.map_eq_some_iff.mp h
      rfl

/-- A statement selects a record as it selects the subscription in it. -/
theorem mapM_filter_eq {rows : List SubscriptionRecord} {subscriptions : List WebhookSubscription}
    (h : rows.mapM (fun r => r.mapSubscriptionFromReader json) = some subscriptions)
    (message : OutboxMessage) :
    (rows.filter fun r => SubscriptionStore.selects dep message r.columns).mapM
        (fun r => r.mapSubscriptionFromReader json) =
      some (subscriptions.filter (SubscriptionStore.selects dep message)) := by
  induction rows generalizing subscriptions with
  | nil =>
      cases h
      rfl
  | cons r rows ih =>
      rw [List.mapM_cons] at h
      obtain ⟨s, hs, hcons⟩ := Option.bind_eq_some_iff.mp h
      obtain ⟨rest, hrest, heq⟩ := Option.bind_eq_some_iff.mp hcons
      cases heq
      have hselects : SubscriptionStore.selects dep message r.columns =
          SubscriptionStore.selects dep message s := by
        rw [mapSubscriptionFromReader_columns hs]
        exact selects_congr rfl rfl rfl
      have htail := ih hrest
      simp only [List.filter_cons, hselects]
      split
      · rw [List.mapM_cons, hs, htail]
        rfl
      · exact htail

/-- **The records behind the subscriptions.** When every record can be read, `GetForMessageAsync` over
the records is `GetForMessageAsync` over the subscriptions they hold. -/
theorem getForMessageAsync_eq {rows : List SubscriptionRecord} {subscriptions : List WebhookSubscription}
    (h : rows.mapM (fun r => r.mapSubscriptionFromReader json) = some subscriptions)
    (secretRetriever : Option SubscriptionStore.SecretRetriever) (message : OutboxMessage) :
    getForMessageAsync dep json secretRetriever rows message =
      some (SubscriptionStore.getForMessageAsync dep secretRetriever subscriptions message) := by
  rw [getForMessageAsync, mapM_filter_eq h message]
  rfl

/-! ## Runs of a store -/

/-- A call that writes, with the id a new row would get. -/
inductive Write : Type
  | add (s : WebhookSubscription) (newId : Guid)
  | update (s : WebhookSubscription) (newId : Guid)
  | deactivate (id : Guid)

/-- What a call does, if it is not refused. -/
def Write.run (dep : Deployment) (json : HeaderJson) (t : SubscriptionRecords) :
    Write → Option SubscriptionRecords
  | .add s newId => addAsync dep json s newId t
  | .update s newId => updateAsync dep json s newId t
  | .deactivate id => some (deactivateAsync id t)

/-- A call that goes through. -/
def Step (dep : Deployment) (json : HeaderJson) (t : SubscriptionRecords) (w : Write)
    (t' : SubscriptionRecords) : Prop :=
  w.run dep json t = some t'

/-- Whether a call inserts: `AddAsync`, and with EF Core `UpdateAsync` without an id. -/
def Write.inserts (dep : Deployment) : Write → Bool
  | .add _ _ => true
  | .update s _ => dep.provider = .efCore && s.id = .empty
  | .deactivate _ => false

/-- The id of the row a call is for. -/
def Write.target (dep : Deployment) (w : Write) : Guid :=
  match w with
  | .add s newId => givenId s newId
  | .update s newId => if w.inserts dep then givenId s newId else s.id
  | .deactivate id => id

/-- The subscription a call writes. -/
def Write.subscription? : Write → Option WebhookSubscription
  | .add s _ => some s
  | .update s _ => some s
  | .deactivate _ => none

/-- The row an insert leaves. -/
theorem addAsync_find? {s : WebhookSubscription} {newId k : Guid} {t t' : SubscriptionRecords}
    (h : addAsync dep json s newId t = some t') : ∃ secret, s.secret = some secret ∧
      t'.find? k = (t.find? k).or (if givenId s newId = k then
        some { record dep json (givenId s newId) s secret with
          maxRetries := insertedRetries dep s.maxRetries } else none) ∧
      (givenId s newId = k → t.find? k = none) := by
  unfold addAsync at h
  cases hsecret : s.secret with
  | none =>
      rw [hsecret] at h
      cases h
  | some secret =>
      rw [hsecret] at h
      simp only at h
      split at h
      · refine ⟨secret, rfl, ?_, ?_⟩
        · rw [Table.find?_insertAll? h, List.find?_singleton]
          simp only [decide_eq_true_eq]
          rfl
        · intro hk
          have hnew := (Table.insertAll?_isSome.mp (Option.isSome_of_eq_some h)).2 _
            List.mem_cons_self
          rw [Table.find?_eq_none_iff]
          intro r hr
          rw [← hk]
          exact hnew r hr
      · cases h

/-- An update that inserts is an `AddAsync`. -/
theorem updateAsync_of_inserts {s : WebhookSubscription} {newId : Guid} {t : SubscriptionRecords}
    (hinserts : (Write.update s newId).inserts dep = true) :
    updateAsync dep json s newId t = addAsync dep json s newId t := by
  simp only [Write.inserts, Bool.and_eq_true, decide_eq_true_eq] at hinserts
  unfold updateAsync
  cases hsecret : s.secret with
  | none =>
      unfold addAsync
      rw [hsecret]
  | some secret => simp only [hinserts.1, hinserts.2, if_true]

/-- The row an update leaves. -/
theorem updateAsync_find? {s : WebhookSubscription} {newId k : Guid} {t t' : SubscriptionRecords}
    (h : updateAsync dep json s newId t = some t')
    (hinserts : (Write.update s newId).inserts dep = false) : ∃ secret, s.secret = some secret ∧
      t'.find? k =
        (t.find? k).map (fun r => if r.id = s.id then record dep json r.id s secret else r) := by
  unfold updateAsync at h
  cases hsecret : s.secret with
  | none =>
      rw [hsecret] at h
      cases h
  | some secret =>
      rw [hsecret] at h
      refine ⟨secret, rfl, ?_⟩
      have hupdate : t' = t.update (fun r => r.id = s.id)
          (fun r => record dep json r.id s secret) fun r => record_id dep json r.id s secret := by
        simp only at h
        split at h
        · exact (Option.some.inj h).symm
        · next hprovider =>
            have hid : s.id ≠ .empty := by
              simpa [Write.inserts, hprovider] using hinserts
            rw [if_neg hid] at h
            split at h
            · exact (Option.some.inj h).symm
            · cases h
      rw [hupdate, Table.find?_update]
      simp only [decide_eq_true_eq]

/-- **The other rows stay.** -/
theorem Step.find?_other {w : Write} {t t' : SubscriptionRecords} (h : Step dep json t w t') {k : Guid}
    (hk : w.target dep ≠ k) : t'.find? k = t.find? k := by
  have hadd : ∀ {s : WebhookSubscription} {newId : Guid}, addAsync dep json s newId t = some t' →
      givenId s newId ≠ k → t'.find? k = t.find? k := by
    intro s newId h hne
    obtain ⟨secret, -, hfind, -⟩ := addAsync_find? (k := k) h
    rw [hfind, if_neg hne, Option.or_none]
  cases w with
  | add s newId => exact hadd h hk
  | update s newId =>
      cases hinserts : (Write.update s newId).inserts dep with
      | true =>
          have hrun : updateAsync dep json s newId t = some t' := h
          rw [updateAsync_of_inserts hinserts] at hrun
          simp only [Write.target, hinserts, if_true] at hk
          exact hadd hrun hk
      | false =>
          obtain ⟨secret, -, hfind⟩ := updateAsync_find? (k := k) h hinserts
          simp only [Write.target, hinserts, Bool.false_eq_true, if_false] at hk
          rw [hfind]
          cases hr : t.find? k with
          | none => rfl
          | some r =>
              rw [Option.map_some, if_neg (fun hid => hk (hid.symm.trans (Table.find?_key hr)))]
  | deactivate id =>
      cases h
      unfold deactivateAsync
      rw [Table.find?_update]
      cases hr : t.find? k with
      | none => rfl
      | some r =>
          have hne : r.id ≠ id := fun hid => hk (hid.symm.trans (Table.find?_key hr))
          simp [hne]

/-- The record a call writes. -/
def Write.written (dep : Deployment) (json : HeaderJson) (w : Write) (s : WebhookSubscription)
    (secret : Text) : SubscriptionRecord :=
  { record dep json (w.target dep) s secret with
    maxRetries := if w.inserts dep then insertedRetries dep s.maxRetries else s.maxRetries }

/-- **The row a call is for**: it is written, unless an update does not find it. -/
theorem Step.find?_target {w : Write} {s : WebhookSubscription} {t t' : SubscriptionRecords}
    (h : Step dep json t w t') (hs : w.subscription? = some s) : ∃ secret, s.secret = some secret ∧
      t'.find? (w.target dep) = if w.inserts dep = true ∨ (t.find? s.id).isSome = true then
        some (w.written dep json s secret) else none := by
  have hadd : ∀ {newId : Guid}, addAsync dep json s newId t = some t' → ∃ secret,
      s.secret = some secret ∧ t'.find? (givenId s newId) =
        some { record dep json (givenId s newId) s secret with
          maxRetries := insertedRetries dep s.maxRetries } := by
    intro newId h
    obtain ⟨secret, hsecret, hfind, hnew⟩ := addAsync_find? (k := givenId s newId) h
    refine ⟨secret, hsecret, ?_⟩
    rw [hfind, hnew rfl, if_pos rfl, Option.none_or]
  cases w with
  | add s' newId =>
      cases hs
      exact hadd h
  | update s' newId =>
      cases hs
      cases hinserts : (Write.update s newId).inserts dep with
      | true =>
          have hrun : updateAsync dep json s newId t = some t' := h
          rw [updateAsync_of_inserts hinserts] at hrun
          simpa [Write.target, Write.written, hinserts] using hadd hrun
      | false =>
          obtain ⟨secret, hsecret, hfind⟩ := updateAsync_find? (k := s.id) h hinserts
          refine ⟨secret, hsecret, ?_⟩
          simp only [Write.target, Write.written, hinserts, Bool.false_eq_true, if_false, false_or]
          rw [hfind]
          cases hr : t.find? s.id with
          | none => rfl
          | some r =>
              have hid := Table.find?_key hr
              simp only [Option.map_some, Option.isSome_some, if_true, hid]
              rfl
  | deactivate id => cases hs

/-! ## The round trip -/

/-- The subscription read is the one that was written, under the id it has. -/
structure Same (s s' : WebhookSubscription) : Prop where
  tenantId : s'.tenantId = s.tenantId
  eventType : s'.eventType = s.eventType
  webhookUrl : s'.webhookUrl = s.webhookUrl
  secret : s'.secret = s.secret
  maxRetries : s'.maxRetries = s.maxRetries
  timeout : s'.timeout = s.timeout
  customHeaders : s'.customHeaders = s.customHeaders

/-- The strings of a subscription fit their columns. -/
structure FitsColumns (s : WebhookSubscription) : Prop where
  tenantId : ∀ a, s.tenantId = some a → a.length ≤ 256
  eventType : s.eventType.length ≤ 256
  webhookUrl : s.webhookUrl.length ≤ 2048
  secret : ∀ a, s.secret = some a → a.length ≤ 512

/-- A subscription the store may be expected to keep: it fits its columns, is in use, does not time out
before it begins, and has headers that come back from their text. -/
structure Writable (json : HeaderJson) (s : WebhookSubscription) : Prop where
  fits : FitsColumns s
  isActive : s.isActive = true
  timeout : 0 ≤ s.timeout
  customHeaders : ∀ headers, s.customHeaders = some headers →
    json.deserialize (json.serialize headers) = some headers

/-- Both readers give the subscription back: by its id, and for every message it is for, in whatever
order the rows come, if the other records can be read and no retriever gives the secrets. -/
structure ReadsBack (dep : Deployment) (json : HeaderJson) (s : WebhookSubscription) (id : Guid)
    (t : SubscriptionRecords) : Prop where
  byId : ∃ s', getByIdAsync json id t = some (some s') ∧ s'.id = id ∧ Same s s'
  forMessage : ∀ (message : OutboxMessage) (rows : List SubscriptionRecord),
    SubscriptionStore.selects dep message s = true → rows.Perm t.rows →
    (∀ r ∈ rows, r.id ≠ id → r.Readable json) →
    ∃ result, getForMessageAsync dep json none rows message = some result ∧
      ∃ s' ∈ result, s'.id = id ∧ Same s s'

/-- What a write keeps: nothing of the time-out is lost on the way to whole seconds, an insert by EF Core does
not take the number of retries for unset, and an update finds its row. -/
structure Preserved (dep : Deployment) (w : Write) (s : WebhookSubscription)
    (t : SubscriptionRecords) : Prop where
  timeout : dep.lostTicks s.timeout = 0
  maxRetries : dep.provider = .efCore → w.inserts dep = true → s.maxRetries ≠ 0
  row : w.inserts dep = false → (t.find? s.id).isSome = true

theorem parameter_eq {n : ℕ} {a : Text} (h : a.length ≤ n) : parameter dep n a = a := by
  unfold parameter
  cases dep.provider with
  | directSql => exact nvarchar_eq_iff.mpr h
  | efCore => rfl

theorem insertedRetries_eq_iff {n : ℤ} :
    insertedRetries dep n = n ↔ (dep.provider = .efCore → n ≠ 0) := by
  unfold insertedRetries
  cases dep.provider with
  | directSql => simp
  | efCore =>
      by_cases hn : n = 0
      · simp [hn]
      · simp [hn]

/-- A list of computations none of which fails gives the values of all. -/
theorem mapM_of_isSome {α β : Type} {f : α → Option β} {l : List α}
    (h : ∀ a ∈ l, (f a).isSome = true) : ∃ l', l.mapM f = some l' ∧
      ∀ a ∈ l, ∀ b, f a = some b → b ∈ l' := by
  induction l with
  | nil => exact ⟨[], rfl, List.forall_mem_nil _⟩
  | cons a l ih =>
      obtain ⟨b, hb⟩ := Option.isSome_iff_exists.mp (h a List.mem_cons_self)
      obtain ⟨l', hl', hmem⟩ := ih fun x hx => h x (List.mem_cons_of_mem a hx)
      refine ⟨b :: l', by rw [List.mapM_cons, hb, hl']; rfl, ?_⟩
      intro x hx y hy
      rcases List.mem_cons.mp hx with rfl | hx
      · rw [hb] at hy
        cases hy
        exact List.mem_cons_self
      · exact List.mem_cons_of_mem b (hmem x hx y hy)

section

variable {w : Write} {s : WebhookSubscription} {secret : Text}

/-- The subscription in a record that was written. -/
def Write.readBack (dep : Deployment) (json : HeaderJson) (w : Write) (s : WebhookSubscription)
    (secret : Text) : WebhookSubscription :=
  { (w.written dep json s secret).columns with customHeaders := s.customHeaders }

/-- What is read of a record that was written. -/
theorem mapSubscriptionFromReader_written (hjson : ∀ headers, s.customHeaders = some headers →
      json.deserialize (json.serialize headers) = some headers) :
    (w.written dep json s secret).mapSubscriptionFromReader json =
      some (w.readBack dep json s secret) := by
  unfold SubscriptionRecord.mapSubscriptionFromReader
  cases hheaders : s.customHeaders with
  | none =>
      have hnone : (w.written dep json s secret).customHeaders = none := by
        simp [Write.written, record, hheaders]
      rw [hnone, Write.readBack, hheaders]
      rfl
  | some headers =>
      have hsome : (w.written dep json s secret).customHeaders = some (json.serialize headers) := by
        simp [Write.written, record, hheaders]
      rw [hsome]
      simp only [hjson headers hheaders, Option.map_some, Write.readBack, hheaders]

/-- A string or none that fits its column is sent as it is. -/
theorem map_parameter_eq {n : ℕ} {o : Option Text} (h : ∀ a, o = some a → a.length ≤ n) :
    o.map (parameter dep n) = o := by
  cases o with
  | none => rfl
  | some a => rw [Option.map_some, parameter_eq (h a rfl)]

/-- It is what was written when the time-out and the retries survive. -/
theorem same_written_iff (hsecret : s.secret = some secret) (hfits : FitsColumns s) :
    Same s (w.readBack dep json s secret) ↔
      dep.lostTicks s.timeout = 0 ∧
        (dep.provider = .efCore → w.inserts dep = true → s.maxRetries ≠ 0) := by
  have hretries : (if w.inserts dep then insertedRetries dep s.maxRetries else s.maxRetries) =
      s.maxRetries ↔ (dep.provider = .efCore → w.inserts dep = true → s.maxRetries ≠ 0) := by
    cases w.inserts dep with
    | true =>
        rw [if_pos rfl, insertedRetries_eq_iff]
        exact ⟨fun h hp _ => h hp, fun h hp => h hp rfl⟩
    | false => simp
  have htimeout : dep.castSeconds s.timeout * ticksPerSecond = s.timeout ↔
      dep.lostTicks s.timeout = 0 := by
    unfold Deployment.lostTicks
    rw [Int.sub_eq_zero, eq_comm]
  constructor
  · intro h
    exact ⟨htimeout.mp h.timeout, hretries.mp h.maxRetries⟩
  · rintro ⟨hseconds, hkept⟩
    constructor
    · exact map_parameter_eq hfits.tenantId
    · exact parameter_eq hfits.eventType
    · exact parameter_eq hfits.webhookUrl
    · rw [hsecret]
      exact congrArg some (parameter_eq (hfits.secret secret hsecret))
    · exact hretries.mpr hkept
    · exact htimeout.mpr hseconds
    · rfl

/-- **The round trip of a subscription.** Whatever is written for other subscriptions in between, the
readers of both providers give a subscription back exactly when its write keeps it. -/
theorem subscription_roundTrip_iff {t₀ t₁ t₂ : SubscriptionRecords} {between : List Write}
    (hw : w.subscription? = some s) (hfits : FitsColumns s)
    (hjson : ∀ headers, s.customHeaders = some headers →
      json.deserialize (json.serialize headers) = some headers)
    (hwrite : Step dep json t₀ w t₁) (hrun : Steps (Step dep json) t₁ between t₂)
    (hothers : ∀ w' ∈ between, w'.target dep ≠ w.target dep) :
    ReadsBack dep json s (w.target dep) t₂ ↔ Preserved dep w s t₀ := by
  obtain ⟨secret, hsecret, hfind⟩ := hwrite.find?_target hw
  -- the other calls leave the row alone
  have hframe : t₂.find? (w.target dep) = t₁.find? (w.target dep) :=
    hrun.invariant_of (fun t => t.find? (w.target dep) = t₁.find? (w.target dep))
      (fun w' => w'.target dep ≠ w.target dep)
      (fun _ _ _ hne h hs => (hs.find?_other hne).trans h) hothers rfl
  rw [hfind] at hframe
  have hread : (w.written dep json s secret).mapSubscriptionFromReader json =
      some (w.readBack dep json s secret) := mapSubscriptionFromReader_written hjson
  have hsame : Same s (w.readBack dep json s secret) ↔ _ := same_written_iff hsecret hfits
  constructor
  · rintro ⟨⟨s', hbyId, -, hs'⟩, -⟩
    unfold getByIdAsync at hbyId
    rw [hframe] at hbyId
    split at hframe
    · next hrow =>
        rw [if_pos hrow] at hbyId
        simp only [hread, Option.map_some, Option.some.injEq] at hbyId
        subst hbyId
        obtain ⟨hseconds, hretries⟩ := hsame.mp hs'
        refine ⟨hseconds, hretries, fun hno => hrow.resolve_left ?_⟩
        simp [hno]
    · next hrow =>
        -- an update that found no row
        rw [if_neg hrow] at hbyId
        cases hbyId
  · intro h
    have hrow : w.inserts dep = true ∨ (t₀.find? s.id).isSome = true := by
      cases hinserts : w.inserts dep with
      | true => exact .inl rfl
      | false => exact .inr (h.row hinserts)
    rw [if_pos hrow] at hframe
    have hs' := hsame.mpr ⟨h.timeout, h.maxRetries⟩
    constructor
    · refine ⟨_, ?_, rfl, hs'⟩
      unfold getByIdAsync
      rw [hframe]
      simp only [hread, Option.map_some]
    · intro message rows hselects hperm hreadable
      have hmem : w.written dep json s secret ∈ rows := hperm.mem_iff.mpr (Table.find?_mem hframe)
      have hselected : SubscriptionStore.selects dep message (w.written dep json s secret).columns =
          true := by
        rw [← hselects]
        exact selects_congr rfl (parameter_eq hfits.eventType) (map_parameter_eq hfits.tenantId)
      have hall : ∀ r ∈ rows.filter (fun r => SubscriptionStore.selects dep message r.columns),
          (r.mapSubscriptionFromReader json).isSome = true := by
        intro r hr
        obtain ⟨hr, -⟩ := List.mem_filter.mp hr
        by_cases hid : r.id = w.target dep
        · have heq := t₂.eq_of_key_eq (hperm.mem_iff.mp hr) (Table.find?_mem hframe) hid
          rw [heq, hread]
          rfl
        · exact hreadable r hr hid
      obtain ⟨result, hresult, hin⟩ := mapM_of_isSome hall
      refine ⟨result, ?_, _,
        hin _ (List.mem_filter.mpr ⟨hmem, hselected⟩) _ hread, rfl, hs'⟩
      rw [getForMessageAsync, hresult]
      rfl

end

/-! ## An endpoint -/

/-- An endpoint for orders, with one header. -/
def orderEndpoint (maxRetries : ℤ) (timeout : TimeSpan) : WebhookSubscription where
  id := 7
  tenantId := none
  eventType := text "order.placed"
  webhookUrl := text "https://shop.example/hook"
  secret := some (text "s3cret")
  isActive := true
  maxRetries := maxRetries
  timeout := timeout
  customHeaders := some [(text "k", text "v")]

theorem orderEndpoint_fits (maxRetries : ℤ) (timeout : TimeSpan) :
    FitsColumns (orderEndpoint maxRetries timeout) where
  tenantId _ h := nomatch h
  eventType := show (text "order.placed").length ≤ 256 by decide
  webhookUrl := show (text "https://shop.example/hook").length ≤ 2048 by decide
  secret a h := by
    cases h
    decide

theorem orderEndpoint_json (maxRetries : ℤ) (timeout : TimeSpan) (headers : List (Text × Text))
    (h : (orderEndpoint maxRetries timeout).customHeaders = some headers) :
    OutboxStore.oneHeader.deserialize (OutboxStore.oneHeader.serialize headers) = some headers := by
  cases h
  rfl

theorem orderEndpoint_writable (maxRetries : ℤ) {timeout : TimeSpan} (h : 0 ≤ timeout) :
    Writable OutboxStore.oneHeader (orderEndpoint maxRetries timeout) :=
  ⟨orderEndpoint_fits maxRetries timeout, rfl, h, orderEndpoint_json maxRetries timeout⟩

/-- The table with the endpoint in it. -/
def endpointTable (provider : Provider) (maxRetries : ℤ) (timeout : TimeSpan) : SubscriptionRecords :=
  ⟨[(Write.add (orderEndpoint maxRetries timeout) 9).written (Deployment.binary provider)
    OutboxStore.oneHeader (orderEndpoint maxRetries timeout) (text "s3cret")], List.nodup_singleton _⟩

/-- The endpoint added to an empty table. -/
theorem orderEndpoint_added (provider : Provider) (maxRetries : ℤ) (timeout : TimeSpan) :
    Step (Deployment.binary provider) OutboxStore.oneHeader Table.empty
      (.add (orderEndpoint maxRetries timeout) 9) (endpointTable provider maxRetries timeout) := by
  cases provider <;> rfl

/-- A time-out of half a second comes back as none at all, and with EF Core an endpoint that is not to
be retried comes back with five retries; nothing else is wrong with either. -/
theorem endpoint_changed :
    (Writable OutboxStore.oneHeader (orderEndpoint 5 5000000) ∧
      Step (Deployment.binary .directSql) OutboxStore.oneHeader Table.empty
        (.add (orderEndpoint 5 5000000) 9) (endpointTable .directSql 5 5000000) ∧
      ¬ ReadsBack (Deployment.binary .directSql) OutboxStore.oneHeader (orderEndpoint 5 5000000) 7
        (endpointTable .directSql 5 5000000)) ∧
    (Writable OutboxStore.oneHeader (orderEndpoint 0 300000000) ∧
      Step (Deployment.binary .efCore) OutboxStore.oneHeader Table.empty
        (.add (orderEndpoint 0 300000000) 9) (endpointTable .efCore 0 300000000) ∧
      ¬ ReadsBack (Deployment.binary .efCore) OutboxStore.oneHeader (orderEndpoint 0 300000000) 7
        (endpointTable .efCore 0 300000000)) := by
  refine ⟨⟨orderEndpoint_writable 5 (by decide), orderEndpoint_added .directSql 5 5000000, ?_⟩,
    orderEndpoint_writable 0 (by decide), orderEndpoint_added .efCore 0 300000000, ?_⟩
  · intro h
    obtain ⟨s', hs', -, hsame⟩ := h.byId
    cases hs'
    exact absurd hsame.timeout (by decide)
  · intro h
    obtain ⟨s', hs', -, hsame⟩ := h.byId
    cases hs'
    exact absurd hsame.maxRetries (by decide)

/-- The endpoint with the default time-out and retries comes back. -/
theorem endpoint_kept : ReadsBack (Deployment.binary .efCore) OutboxStore.oneHeader
    (orderEndpoint 5 300000000) 7 (endpointTable .efCore 5 300000000) :=
  (subscription_roundTrip_iff rfl (orderEndpoint_fits 5 300000000)
    (orderEndpoint_json 5 300000000) (orderEndpoint_added .efCore 5 300000000) (.nil _)
    (List.forall_mem_nil _)).mpr ⟨by decide, fun _ _ => by decide, fun h => nomatch h⟩

end SubscriptionRecords

end OutboxNet
