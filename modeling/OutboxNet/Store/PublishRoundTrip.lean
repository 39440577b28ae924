import OutboxNet.Store.RowInvariant

/-!
# From `PublishAsync` to the processor

What `DirectSqlOutboxPublisher.PublishAsync` puts into the columns of `OutboxMessages` and what
`OutboxMessageMapper.MapFromReader` makes of them when the row is locked.  No statement in between
touches the content of a row.  The strings come back as they were published exactly when they fit the
sizes of the parameters; a longer one is cut and the insert goes through.
-/

set_option autoImplicit false

namespace OutboxNet.OutboxStore

/-! ## Columns -/

/-- JSON of string dictionaries, as `System.Text.Json` writes and reads it. -/
structure HeaderJson where
  serialize : List (Text × Text) → Text
  deserialize : Text → Option (List (Text × Text))

/-- A row of `OutboxMessages` as a `SqlDataReader` gives it: the headers are text. -/
structure MessageRecord where
  id : Guid
  eventType : Text
  payload : Text
  correlationId : Option Text
  traceId : Option Text
  status : MessageStatus
  retryCount : ℤ
  createdAt : DateTimeOffset
  processedAt : Option DateTimeOffset
  lockedUntil : Option DateTimeOffset
  lockedBy : Option Text
  nextRetryAt : Option DateTimeOffset
  lastError : Option Text
  headers : Option Text
  tenantId : Option Text
  userId : Option Text
  entityId : Option Text
deriving DecidableEq, Repr

namespace HeaderJson

variable (json : HeaderJson)

/-- The record `PublishAsync` inserts.  A parameter with a size sends as many characters at most. -/
def publishRecord (now : DateTimeOffset) (a : PublishArgs) : MessageRecord where
  id := a.id
  eventType := nvarchar 256 a.eventType
  payload := a.payload
  correlationId := a.correlationId.map (nvarchar 128)
  traceId := a.traceId.map (nvarchar 128)
  status := .pending
  retryCount := 0
  createdAt := round3 now
  processedAt := none
  lockedUntil := none
  lockedBy := none
  nextRetryAt := none
  lastError := none
  headers := a.headers.map json.serialize
  tenantId := a.tenantId.map (nvarchar 256)
  userId := a.userId.map (nvarchar 256)
  entityId := a.entityId.map (nvarchar 256)

/-- `MapFromReader`; `none` is the exception of a text that is no JSON dictionary. -/
def mapFromReader (r : MessageRecord) : Option OutboxMessage :=
  let message (headers : Option (List (Text × Text))) : OutboxMessage :=
    { id := r.id, eventType := r.eventType, payload := r.payload, correlationId := r.correlationId
      traceId := r.traceId, status := r.status, retryCount := r.retryCount, createdAt := r.createdAt
      processedAt := r.processedAt, lockedUntil := r.lockedUntil, lockedBy := r.lockedBy
      nextRetryAt := r.nextRetryAt, lastError := r.lastError, headers := headers
      tenantId := r.tenantId, userId := r.userId, entityId := r.entityId }
  match r.headers with
  | none => some (message none)
  | some headersJson => (json.deserialize headersJson).map fun headers => message (some headers)

/-- The record behind a row of the model. -/
def record (m : OutboxMessage) : MessageRecord where
  id := m.id
  eventType := m.eventType
  payload := m.payload
  correlationId := m.correlationId
  traceId := m.traceId
  status := m.status
  retryCount := m.retryCount
  createdAt := m.createdAt
  processedAt := m.processedAt
  lockedUntil := m.lockedUntil
  lockedBy := m.lockedBy
  nextRetryAt := m.nextRetryAt
  lastError := m.lastError
  headers := m.headers.map json.serialize
  tenantId := m.tenantId
  userId := m.userId
  entityId := m.entityId

/-- The row of the model stands for the record that is inserted. -/
theorem record_directRow (now : DateTimeOffset) (a : PublishArgs) :
    json.record (directRow now a) = json.publishRecord now a := rfl

/-- The mapper reads back what stands in a row, if its headers survive. -/
theorem mapFromReader_record {m : OutboxMessage}
    (h : ∀ headers, m.headers = some headers →
      json.deserialize (json.serialize headers) = some headers) :
    json.mapFromReader (json.record m) = some m := by
  obtain ⟨⟩ := m
  next headers tenantId userId entityId =>
  cases headers with
  | none => rfl
  | some headers =>
      show (json.deserialize (json.serialize headers)).map _ = _
      rw [h headers rfl]
      rfl

end HeaderJson

/-! ## The content of a row -/

/-- Two versions of a row have the same content. -/
structure SameContent (m m' : OutboxMessage) : Prop where
  eventType : m'.eventType = m.eventType
  payload : m'.payload = m.payload
  correlationId : m'.correlationId = m.correlationId
  traceId : m'.traceId = m.traceId
  headers : m'.headers = m.headers
  tenantId : m'.tenantId = m.tenantId
  userId : m'.userId = m.userId
  entityId : m'.entityId = m.entityId

variable {dep : Deployment}

/-- **No statement changes the content of a row**; only a publish makes a new one. -/
theorem RowChange.content {e : Event} {o o' : Option OutboxMessage} (h : RowChange dep e o o')
    {m₀ : OutboxMessage} (ho : ∀ m, o = some m → SameContent m₀ m)
    (hpublish : ∀ a m, e.op = .publish a → publishedRow dep e.now a = some m → o' = some m →
      SameContent m₀ m) : ∀ m, o' = some m → SameContent m₀ m := by
  cases h with
  | same => exact ho
  | publish hop hrow => exact fun m hm => hpublish _ m hop (by rw [hrow]; exact hm) hm
  | lock =>
      rintro m ⟨⟩
      obtain ⟨he, hp, hc, ht, hh, htenant, hu, hentity⟩ := ho _ rfl
      exact ⟨he, hp, hc, ht, hh, htenant, hu, hentity⟩
  | @writeBack kind _ _ row =>
      rintro m ⟨⟩
      obtain ⟨he, hp, hc, ht, hh, htenant, hu, hentity⟩ := ho _ rfl
      cases kind <;> exact ⟨he, hp, hc, ht, hh, htenant, hu, hentity⟩
  | release =>
      rintro m ⟨⟩
      obtain ⟨he, hp, hc, ht, hh, htenant, hu, hentity⟩ := ho _ rfl
      exact ⟨he, hp, hc, ht, hh, htenant, hu, hentity⟩
  | purge => exact fun m hm => nomatch hm

/-- The content of a row over a run in which its id is not used again. -/
theorem content_run {events : List Event} {t t' : Messages} {k : Guid} {m₀ : OutboxMessage}
    (hrun : Steps (Step dep) t events t')
    (hfresh : ∀ e ∈ events, ∀ a, e.op = .publish a → a.id ≠ k)
    (ht : ∀ m, t.find? k = some m → SameContent m₀ m) :
    ∀ m, t'.find? k = some m → SameContent m₀ m := by
  refine hrun.invariant_of (fun t => ∀ m, t.find? k = some m → SameContent m₀ m)
    (fun e => ∀ a, e.op = .publish a → a.id ≠ k) ?_ hfresh ht
  intro t e t' hnew ih hstep
  refine (hstep.rowChange k).content ih fun a m hop hrow hm => ?_
  have hid : m.id = a.id := (publishedRow_fields hrow).1
  exact absurd (hid.symm.trans (Table.find?_key hm)) (hnew a hop)

/-- A publish that succeeds has put its row into the table. -/
theorem Step.published {t t' : Messages} {now : DateTimeOffset} {a : PublishArgs}
    (h : Step dep t ⟨now, .publish a, .unit⟩ t') :
    ∃ m, publishedRow dep now a = some m ∧ t'.find? m.id = some m := by
  obtain ⟨-, hrun⟩ := h
  rcases orRefused_cases hrun with ⟨hrefused, -⟩ | ⟨_, hpublished, -⟩
  · cases hrefused
  obtain ⟨m, hrow, hinsert⟩ := Option.bind_eq_some_iff.mp hpublished
  obtain ⟨t'', hinsert, heq⟩ := Option.map_eq_some_iff.mp hinsert
  cases heq
  have hrows : t'.rows = t.rows ++ [m] := Table.insertAll?_eq_some_iff.mp hinsert
  refine ⟨m, hrow, ?_⟩
  rw [Table.find?_eq_some_iff, hrows]
  exact ⟨List.mem_append_right _ List.mem_cons_self, rfl⟩

/-! ## The round trip -/

/-- The message carries what the application published. -/
structure Carries (a : PublishArgs) (m : OutboxMessage) : Prop where
  eventType : m.eventType = a.eventType
  payload : m.payload = a.payload
  correlationId : m.correlationId = a.correlationId
  entityId : m.entityId = a.entityId
  headers : m.headers = a.headers
  tenantId : m.tenantId = a.tenantId
  userId : m.userId = a.userId

/-- The strings fit the parameters of the insert. -/
structure FitsParameters (a : PublishArgs) : Prop where
  eventType : a.eventType.length ≤ 256
  correlationId : ∀ s, a.correlationId = some s → s.length ≤ 128
  entityId : ∀ s, a.entityId = some s → s.length ≤ 256
  tenantId : ∀ s, a.tenantId = some s → s.length ≤ 256
  userId : ∀ s, a.userId = some s → s.length ≤ 256

/-- The row inserted carries what was published when the strings fit, and only then. -/
theorem carries_directRow_iff {now : DateTimeOffset} {a : PublishArgs} {m : OutboxMessage}
    (h : SameContent (directRow now a) m) : Carries a m ↔ FitsParameters a := by
  constructor
  · intro hc
    exact ⟨nvarchar_eq_iff.mp (h.eventType.symm.trans hc.eventType),
      map_nvarchar_eq_iff.mp (h.correlationId.symm.trans hc.correlationId),
      map_nvarchar_eq_iff.mp (h.entityId.symm.trans hc.entityId),
      map_nvarchar_eq_iff.mp (h.tenantId.symm.trans hc.tenantId),
      map_nvarchar_eq_iff.mp (h.userId.symm.trans hc.userId)⟩
  · intro hf
    exact ⟨h.eventType.trans (nvarchar_eq_iff.mpr hf.eventType), h.payload,
      h.correlationId.trans (map_nvarchar_eq_iff.mpr hf.correlationId),
      h.entityId.trans (map_nvarchar_eq_iff.mpr hf.entityId), h.headers,
      h.tenantId.trans (map_nvarchar_eq_iff.mpr hf.tenantId),
      h.userId.trans (map_nvarchar_eq_iff.mpr hf.userId)⟩

/-- **The message the processor gets is the one that was published exactly when its strings fit the
parameters**, whatever happens to the row in between. -/
theorem publish_roundTrip_iff (json : HeaderJson) (hdirect : dep.provider = .directSql)
    {a : PublishArgs} {now : DateTimeOffset} {events : List Event} {e : Event}
    {t t₁ t₂ t₃ : Messages} {m : OutboxMessage}
    (hjson : ∀ headers, a.headers = some headers →
      json.deserialize (json.serialize headers) = some headers)
    (hpublish : Step dep t ⟨now, .publish a, .unit⟩ t₁) (hrun : Steps (Step dep) t₁ events t₂)
    (hfresh : ∀ e ∈ events, ∀ a', e.op = .publish a' → a'.id ≠ a.id)
    (hlock : Step dep t₂ e t₃) (hm : m ∈ e.result.batch) (hid : m.id = a.id) :
    ∃ message, json.mapFromReader (json.record m) = some message ∧
      (Carries a message ↔ FitsParameters a) := by
  -- the row after the publish
  obtain ⟨row, hrow, hinserted⟩ := hpublish.published
  rw [publishedRow, hdirect] at hrow
  cases hrow
  have hnew : ∀ m, t₁.find? a.id = some m → SameContent (directRow now a) m := by
    intro m hm
    have hfind : t₁.find? a.id = some (directRow now a) := hinserted
    cases hfind.symm.trans hm
    exact ⟨rfl, rfl, rfl, rfl, rfl, rfl, rfl, rfl⟩
  -- the row the lock finds
  have hkept := content_run hrun hfresh hnew
  obtain ⟨visibilityTimeout, lockedBy, chosen, until_, hacq⟩ := hlock.acquired hm
  obtain ⟨row, hfind, -, rfl, -⟩ := hacq.mem_batch hm
  have hrowid : row.id = a.id := hid
  have hcontent : SameContent (directRow now a) (lockRow lockedBy until_ row) := by
    obtain ⟨he, hp, hc, ht, hh, htenant, hu, hentity⟩ := hkept row (hrowid ▸ hfind)
    exact ⟨he, hp, hc, ht, hh, htenant, hu, hentity⟩
  refine ⟨_, json.mapFromReader_record fun headers hh => ?_, carries_directRow_iff hcontent⟩
  exact hjson headers (hcontent.headers.symm.trans hh)

/-! ## A tenant -/

/-- A message published for a tenant, with one header. -/
def tenantMessage (tenant : Text) : PublishArgs :=
  ⟨1, text "invoice.paid", text "\x7b\x7d", none, none, some [(text "k", text "v")], some tenant, none, none⟩

/-- JSON of the one dictionary that is published here. -/
def oneHeader : HeaderJson where
  serialize _ := text "\x7b\"k\":\"v\"\x7d"
  deserialize headersJson :=
    if headersJson = text "\x7b\"k\":\"v\"\x7d" then some [(text "k", text "v")] else none

/-- The table with its row. -/
def tenantMessages (tenant : Text) : Messages :=
  ⟨[directRow 0 (tenantMessage tenant)], List.nodup_singleton _⟩

/-- The row, locked. -/
def tenantLocked (tenant : Text) : OutboxMessage :=
  lockRow (text "worker-1") 3000000000 (directRow 0 (tenantMessage tenant))

/-- The lock on it. -/
def tenantLock (tenant : Text) : Event :=
  ⟨0, .tryLockById 1 3000000000 (text "worker-1"), .locked [tenantLocked tenant]⟩

theorem tenant_publish (tenant : Text) : Step (Deployment.binary .directSql) Table.empty
    ⟨0, .publish (tenantMessage tenant), .unit⟩ (tenantMessages tenant) := ⟨trivial, rfl⟩

theorem tenant_lock (tenant : Text) : Step (Deployment.binary .directSql) (tenantMessages tenant)
    (tenantLock tenant) ⟨[tenantLocked tenant], List.nodup_singleton _⟩ := ⟨trivial, rfl⟩

theorem oneHeader_roundTrip (tenant : Text) (headers : List (Text × Text))
    (h : (tenantMessage tenant).headers = some headers) :
    oneHeader.deserialize (oneHeader.serialize headers) = some headers := by
  cases h
  rfl

/-- **A tenant id of 257 characters comes back as another one.** -/
theorem long_tenant_cut : ∃ tenant message, tenant = List.replicate 257 65 ∧
    Step (Deployment.binary .directSql) Table.empty ⟨0, .publish (tenantMessage tenant), .unit⟩
      (tenantMessages tenant) ∧
    Step (Deployment.binary .directSql) (tenantMessages tenant) (tenantLock tenant)
      ⟨[tenantLocked tenant], List.nodup_singleton _⟩ ∧
    oneHeader.mapFromReader (oneHeader.record (tenantLocked tenant)) = some message ∧
    message.tenantId = some (List.replicate 256 65) ∧ ¬ Carries (tenantMessage tenant) message := by
  have hcut : (tenantLocked (List.replicate 257 65)).tenantId = some (List.replicate 256 65) :=
    congrArg some (List.take_replicate.trans (congrArg (List.replicate · 65) (by decide)))
  refine ⟨_, tenantLocked (List.replicate 257 65), rfl, tenant_publish _, tenant_lock _, ?_, hcut, ?_⟩
  · exact oneHeader.mapFromReader_record (oneHeader_roundTrip (List.replicate 257 65))
  · intro hc
    have hsame : List.replicate 256 (65 : UInt16) = List.replicate 257 65 :=
      Option.some_inj.mp (hcut.symm.trans hc.tenantId)
    have hlength := congrArg List.length hsame
    rw [List.length_replicate, List.length_replicate] at hlength
    omega

/-- A tenant id that fits comes back. -/
theorem publish_roundTrip_iff_acme : ∃ message,
    oneHeader.mapFromReader (oneHeader.record (tenantLocked (text "acme"))) = some message ∧
      (Carries (tenantMessage (text "acme")) message ↔ FitsParameters (tenantMessage (text "acme"))) :=
  publish_roundTrip_iff oneHeader rfl (oneHeader_roundTrip _) (tenant_publish _) (.nil _)
    (List.forall_mem_nil _) (tenant_lock _) List.mem_cons_self rfl

end OutboxNet.OutboxStore
