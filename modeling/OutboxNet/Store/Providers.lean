import OutboxNet.Store.RowInvariant

/-!
# The two providers of the message store

`EfCoreOutboxStore` and `DirectSqlOutboxStore` write every operation of `IOutboxStore` once more.  Most
statements are the same; they part in what `SaveMessageAsync` stores, in what is sent for a string longer
than its column, and in what the change tracker of an `OutboxDbContext` keeps of an insert.  A run of
calls that stays clear of these has the same results and the same table with both.
-/

set_option autoImplicit false

namespace OutboxNet.OutboxStore

/-! ## Saving a message -/

section Save

variable (dep : Deployment)

/-- Whether the strings of a message fit their columns. -/
def fitsColumns (m : OutboxMessage) : Bool :=
  fits 256 m.eventType && m.correlationId.all (fits 128) && m.traceId.all (fits 128) &&
    m.lockedBy.all (fits 256) && m.tenantId.all (fits 256) && m.userId.all (fits 256) &&
    m.entityId.all (fits 256)

/-- The row `DirectSqlOutboxStore.SaveMessageAsync` inserts for a message with an id: it has no column
for the lock, the times of the processing and the last error. -/
def directSavedRow (now : DateTimeOffset) (m : OutboxMessage) : OutboxMessage where
  id := m.id
  eventType := nvarchar 256 m.eventType
  payload := m.payload
  correlationId := m.correlationId.map (nvarchar 128)
  traceId := m.traceId.map (nvarchar 128)
  status := m.status
  retryCount := m.retryCount
  createdAt := dep.clientTime (if m.createdAt = 0 then now else m.createdAt)
  processedAt := none
  lockedUntil := none
  lockedBy := none
  nextRetryAt := none
  lastError := none
  headers := m.headers
  tenantId := m.tenantId.map (nvarchar 256)
  userId := m.userId.map (nvarchar 256)
  entityId := m.entityId.map (nvarchar 256)

/-- The row EF Core inserts: all columns of the entity, `CreatedAt` by its default when it is not set.  A
string too long for its column makes the insert fail. -/
def efSavedRow (now : DateTimeOffset) (m : OutboxMessage) : Option OutboxMessage :=
  if fitsColumns m then
    some { m with
      createdAt := if m.createdAt = 0 then round3 now else dep.clientTime m.createdAt
      processedAt := m.processedAt.map dep.clientTime
      lockedUntil := m.lockedUntil.map dep.clientTime
      nextRetryAt := m.nextRetryAt.map dep.clientTime }
  else none

/-- An `OutboxDbContext`: its table and its change tracker, with the entities a failed `SaveChangesAsync`
has left to be added, and those that have been saved. -/
structure EfContext where
  table : Messages
  added : List OutboxMessage
  unchanged : List Guid

/-- The entity is in the change tracker. -/
def EfContext.tracks (s : EfContext) (id : Guid) : Bool :=
  s.unchanged.contains id || s.added.any fun m => m.id = id

/-- The inserts of one `SaveChangesAsync`, all or none. -/
def saveChanges (now : DateTimeOffset) : List OutboxMessage → Messages → Option Messages
  | [], t => some t
  | m :: added, t =>
      (efSavedRow dep now m).bind fun row => (t.insertAll? [row]).bind (saveChanges now added)

/-- `EfCoreOutboxStore.SaveMessageAsync`: an entity with the key of a tracked one is refused before
anything is sent. -/
def efSaveMessageAsync (now : DateTimeOffset) (m : OutboxMessage) (s : EfContext) :
    Result × EfContext :=
  if s.tracks m.id then (.refused, s)
  else
    match saveChanges dep now (s.added ++ [m]) s.table with
    | some t => (.unit, ⟨t, [], s.unchanged ++ (s.added ++ [m]).map OutboxMessage.id⟩)
    | none => (.refused, { s with added := s.added ++ [m] })

/-- `DirectSqlOutboxStore.SaveMessageAsync`. -/
def directSaveMessageAsync (now : DateTimeOffset) (m : OutboxMessage) (t : Messages) :
    Result × Messages :=
  match t.insertAll? [directSavedRow dep now m] with
  | some t' => (.unit, t')
  | none => (.refused, t)

end Save

/-! ## Calls to a provider -/

/-- A call of `IOutboxStore`, or of a publisher. -/
inductive Request : Type
  | saveMessage (m : OutboxMessage)
  | statement (op : Op)
deriving DecidableEq, Repr

/-- A call of the direct provider. -/
def Request.direct (dep : Deployment) (now : DateTimeOffset) (t : Messages) :
    Request → Result × Messages
  | .saveMessage m => directSaveMessageAsync dep now m t
  | .statement op => op.run dep now t

/-- The cutoff of a purge as EF Core sends it: `sent` may cut it to the precision of the column. -/
def Op.sentBy (sent : DateTimeOffset → DateTimeOffset) : Op → Op
  | .purgeProcessedMessages olderThan => .purgeProcessedMessages (sent olderThan)
  | op => op

/-- A call of the EF Core provider. -/
def Request.ef (dep : Deployment) (sent : DateTimeOffset → DateTimeOffset) (now : DateTimeOffset)
    (s : EfContext) : Request → Result × EfContext
  | .saveMessage m => efSaveMessageAsync dep now m s
  | .statement op =>
      let r := (op.sentBy sent).run dep now s.table
      (r.1, { s with table := r.2 })

/-- Calls of the direct provider, one after another, with their clock values. -/
def runDirect (dep : Deployment) : List (DateTimeOffset × Request) → Messages → List Result × Messages
  | [], t => ([], t)
  | (now, request) :: calls, t =>
      let r := request.direct dep now t
      let rest := runDirect dep calls r.2
      (r.1 :: rest.1, rest.2)

/-- Calls of the EF Core provider on one context. -/
def runEf (dep : Deployment) (sent : DateTimeOffset → DateTimeOffset) :
    List (DateTimeOffset × Request) → EfContext → List Result × EfContext
  | [], s => ([], s)
  | (now, request) :: calls, s =>
      let r := request.ef dep sent now s
      let rest := runEf dep sent calls r.2
      (r.1 :: rest.1, rest.2)

/-! ## Where they do not part -/

/-- Two deployments on one database: they have its collation, and the runtime. -/
structure Paired (direct ef : Deployment) : Prop where
  direct_provider : direct.provider = .directSql
  ef_provider : ef.provider = .efCore
  collation : direct.collation = ef.collation
  castSeconds : direct.castSeconds = ef.castSeconds

/-- A message both providers store alike: nothing is in the columns one of them leaves out, no string is
too long, and its time of creation is stored alike. -/
structure SavedAlike (direct ef : Deployment) (now : DateTimeOffset) (m : OutboxMessage) : Prop where
  processedAt : m.processedAt = none
  lockedUntil : m.lockedUntil = none
  lockedBy : m.lockedBy = none
  nextRetryAt : m.nextRetryAt = none
  lastError : m.lastError = none
  fits : fitsColumns m = true
  defaulted : m.createdAt = 0 → direct.clientTime now = round3 now
  created : m.createdAt ≠ 0 → direct.clientTime m.createdAt = ef.clientTime m.createdAt

/-- The instance name means the same cut to its column and in full. -/
def NamedAlike (ef : Deployment) (lockedBy : Text) : Prop :=
  ef.collation (nvarchar 256 lockedBy) = ef.collation lockedBy

/-- A call on which the providers agree, in the state of the context before it. -/
def Request.Alike (direct ef : Deployment) (sent : DateTimeOffset → DateTimeOffset)
    (now : DateTimeOffset) (s : EfContext) : Request → Prop
  | .saveMessage m => (s.table.find? m.id).isSome = true ∨
      (s.added = [] ∧ s.tracks m.id = false ∧ SavedAlike direct ef now m)
  | .statement (.publish a) => (efRow ef now a).isSome = true ∧ ef.clientTime now = round3 now
  | .statement (.writeBack (.retry nextRetryAt _) _ lockedBy) =>
      NamedAlike ef lockedBy ∧ direct.clientTime nextRetryAt = ef.clientTime nextRetryAt
  | .statement (.writeBack _ _ lockedBy) => NamedAlike ef lockedBy
  | .statement (.isLockHeld _ lockedBy) => NamedAlike ef lockedBy
  | .statement (.purgeProcessedMessages olderThan) => sent olderThan = olderThan
  | .statement _ => True

/-- Every call of a run is one on which the providers agree. -/
def AlikeRun (direct ef : Deployment) (sent : DateTimeOffset → DateTimeOffset) :
    List (DateTimeOffset × Request) → EfContext → Prop
  | [], _ => True
  | (now, request) :: calls, s => request.Alike direct ef sent now s ∧
      AlikeRun direct ef sent calls (request.ef ef sent now s).2

variable {direct ef : Deployment} {sent : DateTimeOffset → DateTimeOffset} {now : DateTimeOffset}

/-! ## Saving -/

/-- Both providers insert the same row for a message saved alike. -/
theorem SavedAlike.row {m : OutboxMessage} (h : SavedAlike direct ef now m) :
    efSavedRow ef now m = some (directSavedRow direct now m) := by
  have hfits := h.fits
  simp only [fitsColumns, Bool.and_eq_true, all_fits_iff] at hfits
  obtain ⟨⟨⟨⟨⟨⟨heventType, hcorrelationId⟩, htraceId⟩, -⟩, htenantId⟩, huserId⟩, hentityId⟩ := hfits
  have heventType : nvarchar 256 m.eventType = m.eventType :=
    nvarchar_eq_iff.mpr (of_decide_eq_true heventType)
  have hcreated : (if m.createdAt = 0 then round3 now else ef.clientTime m.createdAt) =
      direct.clientTime (if m.createdAt = 0 then now else m.createdAt) := by
    split
    · next hzero => exact (h.defaulted hzero).symm
    · next hset => exact (h.created hset).symm
  rw [efSavedRow, if_pos h.fits, directSavedRow, h.processedAt, h.lockedUntil, h.nextRetryAt, heventType,
    hcorrelationId, htraceId, htenantId, huserId, hentityId, hcreated]
  obtain ⟨⟩ := m
  cases h.lockedBy
  cases h.lastError
  rfl

theorem efSavedRow_id {m row : OutboxMessage} (h : efSavedRow ef now m = some row) : row.id = m.id := by
  unfold efSavedRow at h
  split at h
  · cases h
    rfl
  · cases h

/-- A row whose id is taken cannot be inserted. -/
theorem insertAll?_taken {t : Messages} {row : OutboxMessage} (h : (t.find? row.id).isSome = true) :
    t.insertAll? [row] = none := by
  rw [← Option.not_isSome_iff_eq_none, Table.insertAll?_isSome]
  rintro ⟨-, hfresh⟩
  obtain ⟨row', hrow'⟩ := Option.isSome_iff_exists.mp h
  exact hfresh row List.mem_cons_self row' (Table.find?_mem hrow') (Table.find?_key hrow')

/-- `SaveChangesAsync` fails with an entity whose id is taken. -/
theorem saveChanges_taken {added : List OutboxMessage} {t : Messages} {m : OutboxMessage}
    (hm : m ∈ added) (h : (t.find? m.id).isSome = true) : saveChanges ef now added t = none := by
  induction added generalizing t with
  | nil => cases hm
  | cons m' added ih =>
      rw [saveChanges]
      cases hrow : efSavedRow ef now m' with
      | none => rfl
      | some row =>
          rw [Option.bind_some]
          cases hinsert : t.insertAll? [row] with
          | none => rfl
          | some t' =>
              rw [Option.bind_some]
              rcases List.mem_cons.mp hm with rfl | hm
              · rw [insertAll?_taken (by rw [efSavedRow_id hrow]; exact h)] at hinsert
                cases hinsert
              · refine ih hm ?_
                rw [Table.find?_insertAll? hinsert, Option.isSome_or, h, Bool.true_or]

/-- Both providers refuse a message whose id is taken. -/
theorem saveMessage_taken {s : EfContext} {m : OutboxMessage}
    (h : (s.table.find? m.id).isSome = true) :
    (directSaveMessageAsync direct now m s.table) = (.refused, s.table) ∧
      (efSaveMessageAsync ef now m s).1 = .refused ∧ (efSaveMessageAsync ef now m s).2.table = s.table := by
  constructor
  · have hrow : ((s.table.find? (directSavedRow direct now m).id)).isSome = true := h
    rw [directSaveMessageAsync, insertAll?_taken hrow]
  · have hmem : m ∈ s.added ++ [m] := List.mem_append_right _ List.mem_cons_self
    unfold efSaveMessageAsync
    rw [saveChanges_taken hmem h]
    split <;> exact ⟨rfl, rfl⟩

/-- Both providers store a message that is saved alike. -/
theorem saveMessage_alike {s : EfContext} {m : OutboxMessage} (hadded : s.added = [])
    (htracks : s.tracks m.id = false) (h : SavedAlike direct ef now m) :
    (directSaveMessageAsync direct now m s.table).1 = (efSaveMessageAsync ef now m s).1 ∧
      (efSaveMessageAsync ef now m s).2.table = (directSaveMessageAsync direct now m s.table).2 := by
  have hchanges : saveChanges ef now (s.added ++ [m]) s.table =
      s.table.insertAll? [directSavedRow direct now m] := by
    rw [hadded]
    show (efSavedRow ef now m).bind _ = _
    rw [h.row, Option.bind_some]
    exact Option.bind_fun_some _
  unfold efSaveMessageAsync directSaveMessageAsync
  rw [htracks, hchanges, if_neg Bool.false_ne_true]
  cases s.table.insertAll? [directSavedRow direct now m] <;> exact ⟨rfl, rfl⟩

/-! ## The statements -/

namespace Paired

variable (h : Paired direct ef)

include h

theorem sameText : direct.sameText = ef.sameText := by
  funext a b
  rw [Deployment.sameText, Deployment.sameText, h.collation]

theorem sameKey : direct.sameKey = ef.sameKey := by
  funext a b
  cases a with
  | none => cases b <;> rfl
  | some a =>
      cases b with
      | none => rfl
      | some b => exact congrFun (congrFun h.sameText a) b

/-- The lock statements are the same. -/
theorem lockNextBatch : OutboxStore.lockNextBatchAsync direct = OutboxStore.lockNextBatchAsync ef := by
  have hblocks : blocks direct = blocks ef := by
    funext now m m2
    rw [blocks, blocks, h.sameKey]
  have hcandidate : candidate direct = candidate ef := by
    funext options now skipIds t m
    rw [candidate, candidate, h.sameText, hblocks]
  have hselected : selected direct = selected ef := by
    funext options now batchSize skipIds t scan
    rw [selected, selected, hcandidate]
  funext options now batchSize visibilityTimeout lockedBy skipIds scan t
  rw [lockNextBatchAsync, lockNextBatchAsync, hselected, h.castSeconds]

theorem tryLockById : OutboxStore.tryLockByIdAsync direct = OutboxStore.tryLockByIdAsync ef := by
  funext now messageId visibilityTimeout lockedBy t
  rw [tryLockByIdAsync, tryLockByIdAsync, h.castSeconds]

/-- The rows held under a name that means the same cut and in full. -/
theorem heldBy {lockedBy : Text} (hname : NamedAlike ef lockedBy) (messageId : Guid) :
    OutboxStore.heldBy direct messageId lockedBy = OutboxStore.heldBy ef messageId lockedBy := by
  funext m
  have hparam : ∀ name : Text, direct.sameText name (writeBackParam direct lockedBy) =
      ef.sameText name (writeBackParam ef lockedBy) := by
    intro name
    rw [h.sameText, writeBackParam, writeBackParam, h.direct_provider, h.ef_provider]
    show decide (ef.collation name = ef.collation (nvarchar 256 lockedBy)) =
      decide (ef.collation name = ef.collation lockedBy)
    rw [hname]
  rw [OutboxStore.heldBy, OutboxStore.heldBy]
  simp only [hparam]

theorem writeBack {lockedBy : Text} (hname : NamedAlike ef lockedBy) (messageId : Guid)
    (set : OutboxMessage → OutboxMessage) (hset : ∀ m, (set m).id = m.id) (t : Messages) :
    OutboxStore.writeBack direct messageId lockedBy set hset t =
      OutboxStore.writeBack ef messageId lockedBy set hset t := by
  rw [OutboxStore.writeBack, OutboxStore.writeBack, h.heldBy hname]

theorem incrementRetry {lockedBy : Text} {nextRetryAt : DateTimeOffset} (hname : NamedAlike ef lockedBy)
    (htime : direct.clientTime nextRetryAt = ef.clientTime nextRetryAt) (messageId : Guid)
    (error : Option Text) (t : Messages) :
    incrementRetryAsync direct messageId lockedBy nextRetryAt error t =
      incrementRetryAsync ef messageId lockedBy nextRetryAt error t := by
  have hset : setRetry direct nextRetryAt error = setRetry ef nextRetryAt error := by
    funext m
    rw [setRetry, setRetry, htime]
  rw [incrementRetryAsync, incrementRetryAsync, h.heldBy hname]
  simp only [OutboxStore.writeBack, h.heldBy hname, hset]

theorem published {a : PublishArgs} (hfits : (efRow ef now a).isSome = true)
    (htime : ef.clientTime now = round3 now) : publishedRow direct now a = publishedRow ef now a := by
  rw [publishedRow, publishedRow, h.direct_provider, h.ef_provider]
  show some (directRow now a) = efRow ef now a
  unfold efRow at hfits ⊢
  split
  · rw [htime]
    rfl
  · next hlong =>
      rw [if_neg hlong] at hfits
      cases hfits

/-- **A call on which the providers agree** has the same result and leaves the same table. -/
theorem request {s : EfContext} (r : Request) (halike : r.Alike direct ef sent now s) :
    (r.direct direct now s.table).1 = (r.ef ef sent now s).1 ∧
      (r.ef ef sent now s).2.table = (r.direct direct now s.table).2 := by
  cases r with
  | saveMessage m =>
      rcases halike with htaken | ⟨hadded, htracks, hsaved⟩
      · obtain ⟨hdirect, href, htable⟩ :
            directSaveMessageAsync direct now m s.table = (.refused, s.table) ∧
            (efSaveMessageAsync ef now m s).1 = .refused ∧
            (efSaveMessageAsync ef now m s).2.table = s.table := saveMessage_taken htaken
        show (directSaveMessageAsync direct now m s.table).1 = (efSaveMessageAsync ef now m s).1 ∧
          (efSaveMessageAsync ef now m s).2.table = (directSaveMessageAsync direct now m s.table).2
        rw [hdirect, href, htable]
        exact ⟨rfl, rfl⟩
      · exact saveMessage_alike hadded htracks hsaved
  | statement op =>
      -- both providers send the same statement up to its parameters
      have hrun : op.run direct now s.table = (op.sentBy sent).run ef now s.table := by
        cases op with
        | publish a =>
            show orRefused _ _ ((publishedRow direct now a).bind _) =
              orRefused _ _ ((publishedRow ef now a).bind _)
            rw [h.published halike.1 halike.2]
        | lockNextBatch options batchSize visibilityTimeout lockedBy skipIds scan =>
            show orRefused _ _ (lockNextBatchAsync direct _ _ _ _ _ _ _ _) = orRefused _ _ _
            rw [h.lockNextBatch]
        | tryLockById messageId visibilityTimeout lockedBy =>
            show orRefused _ _ (tryLockByIdAsync direct _ _ _ _ _) = orRefused _ _ _
            rw [h.tryLockById]
        | writeBack kind messageId lockedBy =>
            cases kind with
            | processed =>
                exact congrArg (fun r => orRefused Result.answer s.table (some r))
                  (h.writeBack halike messageId _ (setProcessed_id now) s.table)
            | failed error =>
                exact congrArg (fun r => orRefused Result.answer s.table (some r))
                  (h.writeBack halike messageId _ (setFailed_id error) s.table)
            | retry nextRetryAt error =>
                exact congrArg (orRefused Result.answer s.table)
                  (h.incrementRetry halike.1 halike.2 messageId error s.table)
            | deadLettered =>
                exact congrArg (fun r => orRefused Result.answer s.table (some r))
                  (h.writeBack halike messageId _ setDeadLettered_id s.table)
        | isLockHeld messageId lockedBy =>
            show (Result.answer (isLockHeldAsync direct _ _ _ _), s.table) = (Result.answer _, s.table)
            rw [isLockHeldAsync, isLockHeldAsync, h.heldBy halike]
        | releaseExpiredLocks => rfl
        | purgeProcessedMessages olderThan =>
            have hsent : sent olderThan = olderThan := halike
            show _ = Op.run ef now (.purgeProcessedMessages (sent olderThan)) s.table
            rw [hsent]
            rfl
      show (op.run direct now s.table).1 = ((op.sentBy sent).run ef now s.table).1 ∧
        ((op.sentBy sent).run ef now s.table).2 = (op.run direct now s.table).2
      rw [hrun]
      exact ⟨rfl, rfl⟩

end Paired

/-- **The providers implement the same store**: in every run of calls on which they agree, they give the
same results and come to the same table. -/
theorem providers_agree (h : Paired direct ef) (calls : List (DateTimeOffset × Request))
    (s : EfContext) (halike : AlikeRun direct ef sent calls s) :
    (runDirect direct calls s.table).1 = (runEf ef sent calls s).1 ∧
      (runEf ef sent calls s).2.table = (runDirect direct calls s.table).2 := by
  induction calls generalizing s with
  | nil => exact ⟨rfl, rfl⟩
  | cons call calls ih =>
      obtain ⟨now, r⟩ := call
      obtain ⟨hresult, htable⟩ := h.request r halike.1
      obtain ⟨hresults, htables⟩ := ih _ halike.2
      rw [htable] at hresults htables
      constructor
      · show _ :: _ = _ :: _
        rw [hresult, hresults]
      · exact htables

/-! ## A message that is not due yet -/

/-- A message saved with a time before which it is not to be delivered. -/
def savedMessage (nextRetryAt : Option DateTimeOffset) : OutboxMessage :=
  { directRow 0 ⟨1, text "invoice.paid", [], none, none, none, none, none, none⟩ with
    createdAt := 10000, nextRetryAt := nextRetryAt }

/-- It is saved and, at once, locked and marked. -/
def savedCalls (nextRetryAt : Option DateTimeOffset) : List (DateTimeOffset × Request) :=
  [(20000, .saveMessage (savedMessage nextRetryAt)),
    (20000, .statement (.tryLockById 1 3000000000 (text "worker-1"))),
    (30000, .statement (.writeBack .processed 1 (text "worker-1")))]

/-- A new context over an empty table. -/
def newContext : EfContext := ⟨Table.empty, [], []⟩

/-- **The direct provider forgets the time**: it locks the message where EF Core does not. -/
theorem saved_retry_time_lost :
    (runDirect (Deployment.binary .directSql) (savedCalls (some 50000000)) newContext.table).1 =
      [.unit, .locked [lockRow (text "worker-1") 3000020000 (savedMessage none)], .answer true] ∧
    (runEf (Deployment.binary .efCore) id (savedCalls (some 50000000)) newContext).1 =
      [.unit, .locked [], .answer false] := by
  decide

/-- Without such a time the providers agree. -/
theorem providers_agree_due :
    (runDirect (Deployment.binary .directSql) (savedCalls none) newContext.table).1 =
      (runEf (Deployment.binary .efCore) id (savedCalls none) newContext).1 ∧
    (runEf (Deployment.binary .efCore) id (savedCalls none) newContext).2.table =
      (runDirect (Deployment.binary .directSql) (savedCalls none) newContext.table).2 := by
  have hpaired : Paired (Deployment.binary .directSql) (Deployment.binary .efCore) :=
    ⟨rfl, rfl, rfl, rfl⟩
  refine providers_agree hpaired (savedCalls none) newContext ?_
  refine ⟨.inr ⟨rfl, rfl, ⟨rfl, rfl, rfl, rfl, rfl, by decide, fun _ => rfl, fun _ => rfl⟩⟩, trivial, ?_,
    trivial⟩
  exact (by decide : nvarchar 256 (text "worker-1") = text "worker-1")

end OutboxNet.OutboxStore
