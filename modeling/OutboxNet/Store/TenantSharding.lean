import OutboxNet.Lib.Restrict
import OutboxNet.Store.RowInvariant

/-!
# Instances of their own for a tenant

With `TenantFilter` an instance scans for the messages of one tenant.  When every instance has a filter,
the tenants do not notice each other: what happens to the messages of a tenant, and every answer about them,
is what would happen if no other tenant were in the database.  The partitions of ordered processing are no
exception, since they are within a tenant; nor is the size of a batch, since the filter comes before it.
Tenants whose names the collation takes for equal are one tenant here.
-/

set_option autoImplicit false

namespace OutboxNet.OutboxStore

section Definitions

variable (dep : Deployment) (tenant : Text) (mine : Guid → Bool)

/-- Whether a row is of the tenant. -/
def ofTenant (m : OutboxMessage) : Bool := m.tenantId.any (dep.sameText · tenant)

/-- The ids in `mine` are those of the tenant's messages. -/
def Assigned (t : Messages) : Prop := ∀ m ∈ t.rows, mine m.id = ofTenant dep tenant m

/-- A call of a deployment in which every instance has a filter and every tenant message ids of its own. -/
def Op.dedicated (now : DateTimeOffset) : Op → Bool
  | .publish a => (publishedRow dep now a).all fun m => mine m.id = ofTenant dep tenant m
  | .lockNextBatch options _ _ _ _ _ => options.tenantFilter.isSome
  | _ => true

/-- Whether a call is about the tenant: its scans, and what names one of its messages.  Maintenance is about
every tenant. -/
def Op.concerns : Op → Bool
  | .publish a => mine a.id
  | .lockNextBatch options _ _ _ _ _ =>
      options.tenantFilter.any fun f => dep.sameText (nvarchar 256 f) tenant
  | .tryLockById messageId _ _ => mine messageId
  | .writeBack _ messageId _ => mine messageId
  | .isLockHeld messageId _ => mine messageId
  | _ => true

/-- The call as it is made where the tenant is alone: its scan meets no other rows. -/
def Op.within : Op → Op
  | .lockNextBatch options batchSize visibilityTimeout lockedBy skipIds scan =>
      .lockNextBatch options batchSize visibilityTimeout lockedBy skipIds
        (scan.filter fun m => mine m.id)
  | op => op

/-- The second event is the first without other tenants: at the same time, with the same answer.  A purge
counts fewer rows. -/
structure SeenBy (e e' : Event) : Prop where
  now : e'.now = e.now
  op : e'.op = e.op.within mine
  result : (∀ olderThan, e.op ≠ .purgeProcessedMessages olderThan) → e'.result = e.result

end Definitions

variable {dep : Deployment} {tenant : Text} {mine : Guid → Bool} {t t' : Messages}

/-! ## Rows of the tenant -/

theorem ofTenant_iff {m : OutboxMessage} : ofTenant dep tenant m = true ↔
    ∃ name, m.tenantId = some name ∧ dep.sameText name tenant = true := by
  rw [ofTenant, Option.any_eq_true]

/-- A change of a row leaves it with its tenant. -/
theorem WriteBack.set_tenantId (kind : WriteBack) (now : DateTimeOffset) (m : OutboxMessage) :
    (kind.set dep now m).tenantId = m.tenantId := by
  cases kind <;> rfl

/-- The step lemma. -/
theorem Assigned.step (h : Assigned dep tenant mine t) {e : Event} (hs : Step dep t e t')
    (hdedicated : e.op.dedicated dep tenant mine e.now = true) : Assigned dep tenant mine t' := by
  intro m' hm'
  have hchange := hs.rowChange m'.id
  rw [Table.find?_eq_some_iff.mpr ⟨hm', rfl⟩] at hchange
  generalize ho : t.find? m'.id = o at hchange
  cases hchange with
  | same => exact h m' (Table.find?_mem ho)
  | publish hop hrow =>
      rw [hop, Op.dedicated, hrow, Option.all_some, decide_eq_true_eq] at hdedicated
      exact hdedicated
  | @lock m _ _ _ _ _ => exact h m (Table.find?_mem ho)
  | @writeBack kind _ _ m _ _ _ =>
      have hid := Table.find?_key ho
      rw [← hid, h m (Table.find?_mem ho), ofTenant, ofTenant, WriteBack.set_tenantId]
  | @release m _ _ => exact h m (Table.find?_mem ho)

/-- What keeps a message back is of the same tenant. -/
theorem ofTenant_of_blocks {now : DateTimeOffset} {m m₂ : OutboxMessage}
    (hm : ofTenant dep tenant m = true) (hblocks : blocks dep now m m₂ = true) :
    ofTenant dep tenant m₂ = true := by
  obtain ⟨name, hname, hsame⟩ := ofTenant_iff.mp hm
  simp only [blocks, Bool.and_eq_true] at hblocks
  have hkey := hblocks.1.1.1.2
  rw [hname] at hkey
  cases hname₂ : m₂.tenantId with
  | none =>
      rw [hname₂] at hkey
      cases hkey
  | some name₂ =>
      rw [hname₂] at hkey
      refine ofTenant_iff.mpr ⟨name₂, hname₂, ?_⟩
      rw [Deployment.sameText_iff] at hsame ⊢
      exact ((Deployment.sameText_iff dep).mp hkey).trans hsame

/-! ## Scans -/

section Scan

variable {options : OutboxOptions} {now : DateTimeOffset} {skipIds : List Guid} {f : Text}
variable {m : OutboxMessage}

/-- A candidate is of the tenant of the filter. -/
theorem ofTenant_of_candidate (hfilter : options.tenantFilter = some f)
    (hcand : candidate dep options now skipIds t m = true) :
    ofTenant dep tenant m = dep.sameText (nvarchar 256 f) tenant := by
  simp only [candidate, hfilter, Bool.and_eq_true, Option.all_some] at hcand
  obtain ⟨name, hname, hsame⟩ := (Option.any_eq_true _ _).mp hcand.1.1.2
  rw [ofTenant, hname, Option.any_some, Deployment.sameText, Deployment.sameText,
    (Deployment.sameText_iff dep).mp hsame]

/-- For a message of the tenant the other rows do not count. -/
theorem candidate_only (h : Assigned dep tenant mine t) (hm : ofTenant dep tenant m = true) :
    candidate dep options now skipIds (t.only mine) m = candidate dep options now skipIds t m := by
  have hblocks : (t.only mine).rows.any (blocks dep now m) = t.rows.any (blocks dep now m) := by
    apply Table.any_only
    intro m₂ hm₂ hb
    exact (h m₂ hm₂).trans (ofTenant_of_blocks hm hb)
  rw [candidate, candidate, hblocks]

/-- The rows that a scan of the tenant selects. -/
theorem selected_only (h : Assigned dep tenant mine t) (hfilter : options.tenantFilter = some f)
    (hsame : dep.sameText (nvarchar 256 f) tenant = true) {scan : List OutboxMessage}
    (hscan : scan.Perm t.rows) (batchSize : ℤ) :
    selected dep options now batchSize skipIds (t.only mine) (scan.filter fun m => mine m.id) =
      selected dep options now batchSize skipIds t scan := by
  have hcandidates : (scan.filter fun m => mine m.id).filter
      (candidate dep options now skipIds (t.only mine)) =
        scan.filter (candidate dep options now skipIds t) := by
    rw [List.filter_filter]
    apply List.filter_congr
    intro m hm
    have hassigned := h m (hscan.mem_iff.mp hm)
    by_cases hmine : mine m.id = true
    · rw [hmine, Bool.and_true]
      exact candidate_only h (hassigned.symm.trans hmine)
    · have hno : candidate dep options now skipIds t m ≠ true := fun hcand =>
        hmine (hassigned.trans ((ofTenant_of_candidate hfilter hcand).trans hsame))
      rw [Bool.eq_false_iff.mpr hmine, Bool.and_false, Bool.eq_false_iff.mpr hno]
  rw [selected, selected, hcandidates]

end Scan

/-! ## Statements -/

/-- A statement in the part of the table, where it answers the same. -/
def onPart {α : Type} (mine : Guid → Bool) (x : α × Messages) : α × Messages := (x.1, x.2.only mine)

/-- The results of a statement in the part. -/
theorem orRefused_only {α : Type} {result : α → Result} {o : Option (α × Messages)} :
    orRefused result (t.only mine) (o.map (onPart mine)) = onPart mine (orRefused result t o) := by
  cases o <;> rfl

theorem publish_only {now : DateTimeOffset} {a : PublishArgs} (ha : mine a.id = true) :
    ((publishedRow dep now a).bind fun m => ((t.only mine).insertAll? [m]).map fun t' => ((), t')) =
      ((publishedRow dep now a).bind fun m => (t.insertAll? [m]).map fun t' => ((), t')).map
        (onPart mine) := by
  cases hrow : publishedRow dep now a with
  | none => rfl
  | some m =>
      have hm : mine m.id = true := by rw [(publishedRow_fields hrow).1, ha]
      rw [Option.bind_some, Option.bind_some, Table.insert_only hm, Option.map_map, Option.map_map]
      rfl

/-- **A scan of the tenant** does to the tenant's messages what it does where the tenant is alone. -/
theorem lockNextBatch_only (h : Assigned dep tenant mine t) {options : OutboxOptions} {f : Text}
    (hfilter : options.tenantFilter = some f) (hsame : dep.sameText (nvarchar 256 f) tenant = true)
    {now : DateTimeOffset} {batchSize : ℤ} {visibilityTimeout : TimeSpan} {lockedBy : Text}
    {skipIds : List Guid} {scan : List OutboxMessage} (hscan : scan.Perm t.rows) :
    lockNextBatchAsync dep options now batchSize visibilityTimeout lockedBy skipIds
        (scan.filter fun m => mine m.id) (t.only mine) =
      (lockNextBatchAsync dep options now batchSize visibilityTimeout lockedBy skipIds scan t).map
        (onPart mine) := by
  unfold lockNextBatchAsync
  rw [selected_only h hfilter hsame hscan]
  by_cases hsize : batchSize < 0
  · rw [if_pos hsize, if_pos hsize]
    rfl
  · rw [if_neg hsize, if_neg hsize]
    cases dateAddSeconds (dep.castSeconds visibilityTimeout) now with
    | none => rfl
    | some until_ =>
        have hchosen : ∀ m ∈ t.rows, ((selected dep options now batchSize skipIds t scan).map
            OutboxMessage.id).contains m.id = true → mine m.id = true := by
          intro m hm hc
          rw [h m hm, ofTenant_of_candidate hfilter (candidate_of_selected hscan hm hc), hsame]
        show some (_, _) = some (_, _)
        rw [Table.filter_only hchosen, Table.only_update]

/-- A scan of another tenant leaves the tenant's messages alone. -/
theorem lockNextBatch_other (h : Assigned dep tenant mine t) {options : OutboxOptions} {f : Text}
    (hfilter : options.tenantFilter = some f) (hother : dep.sameText (nvarchar 256 f) tenant = false)
    {now : DateTimeOffset} {batchSize : ℤ} {visibilityTimeout : TimeSpan} {lockedBy : Text}
    {skipIds : List Guid} {scan batch : List OutboxMessage} (hscan : scan.Perm t.rows)
    (hlock : lockNextBatchAsync dep options now batchSize visibilityTimeout lockedBy skipIds scan t =
      some (batch, t')) : t'.only mine = t.only mine := by
  obtain ⟨chosen, until_, hacq, hcand⟩ := lockNextBatchAsync_spec hscan hlock
  rw [hacq.table_eq]
  apply Table.only_update_of_other
  intro m hm hc
  rw [h m hm, ofTenant_of_candidate hfilter (hcand m hm hc), hother]

section ById

variable {messageId : Guid} {now : DateTimeOffset} {lockedBy : Text}

/-- What names a message of the tenant finds no other rows. -/
theorem mine_of_id {p : OutboxMessage → Bool} (hp : ∀ m, p m = true → m.id = messageId)
    (hmine : mine messageId = true) : ∀ m ∈ t.rows, p m = true → mine m.id = true := by
  intro m _ hpm
  rw [hp m hpm, hmine]

theorem other_of_id {p : OutboxMessage → Bool} (hp : ∀ m, p m = true → m.id = messageId)
    (hother : mine messageId = false) : ∀ m ∈ t.rows, p m = true → mine m.id = false := by
  intro m _ hpm
  rw [hp m hpm, hother]

theorem id_of_lockable (m : OutboxMessage) (hm : lockable now messageId m = true) : m.id = messageId :=
  (lockable_iff.mp hm).1

theorem tryLockById_only (hmine : mine messageId = true) (visibilityTimeout : TimeSpan) :
    tryLockByIdAsync dep now messageId visibilityTimeout lockedBy (t.only mine) =
      (tryLockByIdAsync dep now messageId visibilityTimeout lockedBy t).map (onPart mine) := by
  unfold tryLockByIdAsync
  cases dateAddSeconds (dep.castSeconds visibilityTimeout) now with
  | none => rfl
  | some until_ =>
      show some (_, _) = some (_, _)
      rw [Table.find?_only (mine_of_id id_of_lockable hmine), Table.only_update]

theorem writeBack_only (hmine : mine messageId = true) (kind : WriteBack) :
    kind.run dep now messageId lockedBy (t.only mine) =
      (kind.run dep now messageId lockedBy t).map (onPart mine) := by
  have hset : ∀ (set : OutboxMessage → OutboxMessage) (hset : ∀ m, (set m).id = m.id),
      some (writeBack dep messageId lockedBy set hset (t.only mine)) =
        (some (writeBack dep messageId lockedBy set hset t)).map (onPart mine) := by
    intro set hset
    show some (_, _) = some (_, (t.update _ set hset).only mine)
    rw [Table.any_only (mine_of_id id_of_heldBy hmine), Table.only_update]
    rfl
  cases kind with
  | processed => exact hset _ _
  | failed error => exact hset _ _
  | retry nextRetryAt error =>
      have hfull : ((t.only mine).rows.any fun m =>
          heldBy dep messageId lockedBy m && int32Max ≤ m.retryCount) =
            t.rows.any fun m => heldBy dep messageId lockedBy m && int32Max ≤ m.retryCount :=
        Table.any_only (mine_of_id (fun m hm => id_of_heldBy m (Bool.and_eq_true_iff.mp hm).1) hmine)
      show incrementRetryAsync .. = (incrementRetryAsync ..).map _
      unfold incrementRetryAsync
      rw [hfull]
      split
      · rfl
      · exact hset _ _
  | deadLettered => exact hset _ _

end ById

/-! ## Events -/

/-- A call about the tenant, where the tenant is alone. -/
theorem Op.run_within (h : Assigned dep tenant mine t) {op : Op} {now : DateTimeOffset}
    (hvalid : op.Valid t)
    (hconcerns : op.concerns dep tenant mine = true) :
    ((op.within mine).run dep now (t.only mine)).2 = (op.run dep now t).2.only mine ∧
      ((∀ olderThan, op ≠ .purgeProcessedMessages olderThan) →
        ((op.within mine).run dep now (t.only mine)).1 = (op.run dep now t).1) := by
  -- every statement but a purge answers the same in the part of the table
  suffices hpart : (∀ olderThan, op ≠ .purgeProcessedMessages olderThan) →
      (op.within mine).run dep now (t.only mine) = onPart mine (op.run dep now t) by
    by_cases hpurge : ∃ olderThan, op = .purgeProcessedMessages olderThan
    · obtain ⟨olderThan, rfl⟩ := hpurge
      exact ⟨Table.only_delete.symm, fun hno => absurd rfl (hno olderThan)⟩
    · have hno := not_exists.mp hpurge
      rw [hpart hno]
      exact ⟨rfl, fun _ => rfl⟩
  intro hno
  cases op with
  | publish a =>
      show orRefused _ _ _ = _
      rw [publish_only hconcerns, orRefused_only]
      rfl
  | lockNextBatch options batchSize visibilityTimeout lockedBy skipIds scan =>
      obtain ⟨f, hfilter, hsame⟩ := (Option.any_eq_true _ _).mp hconcerns
      show orRefused _ _ _ = _
      rw [lockNextBatch_only h hfilter hsame hvalid, orRefused_only]
      rfl
  | tryLockById messageId visibilityTimeout lockedBy =>
      show orRefused _ _ _ = _
      rw [tryLockById_only hconcerns, orRefused_only]
      rfl
  | writeBack kind messageId lockedBy =>
      show orRefused _ _ _ = _
      rw [writeBack_only hconcerns, orRefused_only]
      rfl
  | isLockHeld messageId lockedBy =>
      have hheld : isLockHeldAsync dep now messageId lockedBy (t.only mine) =
          isLockHeldAsync dep now messageId lockedBy t := by
        apply Table.any_only
        intro m hm hp
        simp only [Bool.and_eq_true] at hp
        exact mine_of_id id_of_heldBy hconcerns m hm hp.1.1
      show (Result.answer _, _) = _
      rw [hheld]
      rfl
  | releaseExpiredLocks =>
      show (Result.unit, releaseExpiredLocksAsync now (t.only mine)) = _
      rw [releaseExpiredLocksAsync, ← Table.only_update]
      rfl
  | purgeProcessedMessages olderThan => exact absurd rfl (hno olderThan)

/-- A statement that leaves the tenant's messages alone, or is refused. -/
theorem only_orRefused {α : Type} {result : α → Result} {o : Option (α × Messages)}
    (h : ∀ a u, o = some (a, u) → u.only mine = t.only mine) :
    (orRefused result t o).2.only mine = t.only mine := by
  cases o with
  | none => rfl
  | some x => exact h x.1 x.2 rfl

/-- A call that is not about the tenant leaves its messages alone. -/
theorem Step.only_of_other (h : Assigned dep tenant mine t) {e : Event} (hs : Step dep t e t')
    (hdedicated : e.op.dedicated dep tenant mine e.now = true)
    (hother : e.op.concerns dep tenant mine = false) : t'.only mine = t.only mine := by
  obtain ⟨now, op, result⟩ := e
  obtain ⟨hvalid, hrun⟩ := hs
  obtain rfl : (op.run dep now t).2 = t' := congrArg Prod.snd hrun
  cases op with
  | publish a =>
      apply only_orRefused
      intro _ u hu
      obtain ⟨m, hrow, hu⟩ := Option.bind_eq_some_iff.mp hu
      obtain ⟨u', hins, hu⟩ := Option.map_eq_some_iff.mp hu
      cases hu
      apply Table.only_insert_of_other hins
      rw [(publishedRow_fields hrow).1]
      exact hother
  | lockNextBatch options batchSize visibilityTimeout lockedBy skipIds scan =>
      obtain ⟨f, hfilter⟩ := Option.isSome_iff_exists.mp hdedicated
      have hsame : dep.sameText (nvarchar 256 f) tenant = false := by
        rw [Op.concerns, hfilter, Option.any_some] at hother
        exact hother
      exact only_orRefused fun _ _ hlock => lockNextBatch_other h hfilter hsame hvalid hlock
  | tryLockById messageId visibilityTimeout lockedBy =>
      apply only_orRefused
      intro _ u hlock
      unfold tryLockByIdAsync at hlock
      split at hlock
      · cases hlock
      · cases hlock
        exact Table.only_update_of_other (other_of_id id_of_lockable hother)
  | writeBack kind messageId lockedBy =>
      apply only_orRefused
      intro _ u hwrite
      obtain ⟨-, hf, rfl⟩ := WriteBack.run_eq hwrite
      exact Table.only_update_of_other (other_of_id id_of_heldBy hother)
  | isLockHeld => rfl
  | releaseExpiredLocks => cases hother
  | purgeProcessedMessages => cases hother

/-- A call about the tenant is one where the tenant is alone, and there it has the same answer. -/
theorem Step.within (h : Assigned dep tenant mine t) {e : Event} (hs : Step dep t e t')
    (hconcerns : e.op.concerns dep tenant mine = true) :
    ∃ e', Step dep (t.only mine) e' (t'.only mine) ∧ SeenBy mine e e' := by
  obtain ⟨hvalid, hrun⟩ := hs
  obtain ⟨htable, hresult⟩ := Op.run_within h hvalid hconcerns
  rw [hrun] at htable hresult
  refine ⟨⟨e.now, e.op.within mine, ((e.op.within mine).run dep e.now (t.only mine)).1⟩,
    ⟨?_, ?_⟩, rfl, rfl, hresult⟩
  · obtain ⟨now, op, result⟩ := e
    cases op with
    | lockNextBatch => exact hvalid.filter _
    | _ => trivial
  · exact Prod.ext rfl htable

/-- **Tenants do not notice each other.** Take any run of the store in which every instance that scans has a
filter, and the ids of the tenant's messages are those in `mine`: any number of instances of any tenants,
with any options, hot paths and write-backs, releases and purges.  The calls about the tenant are a run on
the tenant's messages alone, at the same times and with the same answers, up to the number of rows that a
purge counts; and it ends in the tenant's messages. -/
theorem tenants_do_not_show {events : List Event} (hrun : Steps (Step dep) t events t')
    (hassigned : Assigned dep tenant mine t)
    (hdedicated : ∀ e ∈ events, e.op.dedicated dep tenant mine e.now = true) :
    ∃ events', Steps (Step dep) (t.only mine) events' (t'.only mine) ∧
      List.Forall₂ (SeenBy mine) (events.filter fun e => e.op.concerns dep tenant mine) events' := by
  obtain ⟨events', u, hrun', hseen, -, rfl⟩ := Steps.project
    (fun t u => Assigned dep tenant mine t ∧ u = t.only mine)
    (fun e => e.op.concerns dep tenant mine) (SeenBy mine)
    (fun e => e.op.dedicated dep tenant mine e.now = true)
    (fun t e t' u ⟨h, hu⟩ hdedicated hother hs =>
      ⟨h.step hs hdedicated, hu.trans (hs.only_of_other h hdedicated hother).symm⟩)
    (fun t e t' u ⟨h, hu⟩ hdedicated hconcerns hs => by
      obtain ⟨e', hs', hseen⟩ := hs.within h hconcerns
      exact ⟨e', _, hu ▸ hs', hseen, h.step hs hdedicated, rfl⟩)
    hrun hdedicated ⟨hassigned, rfl⟩
  exact ⟨events', hrun', hseen⟩

/-! ## Two tenants -/

/-- What the instances of two tenants call: each publishes a message, and each scans. -/
def twoTenants : List (DateTimeOffset × Op) :=
  let order (id : Guid) (tenant : Text) : PublishArgs :=
    ⟨id, text "order.placed", [], none, none, none, some tenant, none, none⟩
  let acme := directRow 0 (order 1 (text "acme"))
  let globex := directRow 0 (order 2 (text "globex"))
  let scan (tenant : Text) (rows : List OutboxMessage) : Op :=
    .lockNextBatch { instanceId := tenant, tenantFilter := some tenant } 1 (5 * ticksPerSecond)
      tenant [] rows
  [(0, .publish (order 1 (text "acme"))), (0, .publish (order 2 (text "globex"))),
    (10000, scan (text "globex") [acme, globex]),
    (20000, scan (text "acme") [acme, lockRow (text "globex") 50010000 globex]),
    (30000, .writeBack .processed 2 (text "globex")),
    (40000, .writeBack .processed 1 (text "acme"))]

/-- Their calls, with the results. -/
def twoTenantsEvents : List Event := (execute (Deployment.binary .directSql) twoTenants Table.empty).1

/-- The first tenant sees a publish, a scan and a status update. -/
theorem tenants_do_not_show_acme : ∃ events' t',
    Steps (Step (Deployment.binary .directSql)) Table.empty events' t' ∧
      List.Forall₂ (SeenBy (· = 1)) (twoTenantsEvents.filter fun e =>
        e.op.concerns (Deployment.binary .directSql) (text "acme") (· = 1)) events' := by
  have hexecutable : executable (Deployment.binary .directSql) twoTenants Table.empty = true := by
    decide
  have hdedicated : ∀ e ∈ twoTenantsEvents,
      e.op.dedicated (Deployment.binary .directSql) (text "acme") (· = 1) e.now = true := by
    decide
  obtain ⟨events', hrun', hseen⟩ :=
    tenants_do_not_show (execute_steps _ hexecutable) (List.forall_mem_nil _) hdedicated
  exact ⟨events', _, hrun', hseen⟩

end OutboxNet.OutboxStore
