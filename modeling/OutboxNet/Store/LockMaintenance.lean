import OutboxNet.Lib.Alike
import OutboxNet.Store.LockDuration

/-!
# What the release of expired locks changes

`ReleaseExpiredLocksAsync` sets the rows whose lock has expired back to `Pending`.  A batch takes these
rows as they are, in the same order and to the same effect.  So releases do not show in the results of
other calls, whenever and however often they are made: only `TryLockByIdAsync`, which wants a row that is
`Pending`, and the write-backs of an instance whose lock has expired tell a released row from one that is
not.
-/

set_option autoImplicit false

namespace OutboxNet.OutboxStore

variable {dep : Deployment} {now : DateTimeOffset}

/-! ## Rows that a release may have changed -/

/-- The second row is the first, or the first without its lock, which has expired. -/
inductive MaybeReleased (now : DateTimeOffset) : OutboxMessage → OutboxMessage → Prop
  | same (m : OutboxMessage) : MaybeReleased now m m
  | released {m : OutboxMessage} : expired now m = true → MaybeReleased now m (unlockAs .pending m)

theorem expired_iff {m : OutboxMessage} : expired now m = true ↔
    m.status = .processing ∧ ∃ u, m.lockedUntil = some u ∧ u < now := by
  simp only [expired, Bool.and_eq_true, decide_eq_true_eq, Option.any_eq_true]

namespace MaybeReleased

variable {m m' : OutboxMessage}

theorem id (h : MaybeReleased now m m') : m'.id = m.id := by
  cases h <;> rfl

theorem createdAt (h : MaybeReleased now m m') : m'.createdAt = m.createdAt := by
  cases h <;> rfl

/-- A lock that has expired stays so. -/
theorem later {now' : DateTimeOffset} (h : MaybeReleased now m m') (hle : now ≤ now') :
    MaybeReleased now' m m' := by
  cases h with
  | same => exact .same m
  | released hexp =>
      obtain ⟨hst, u, hu, hlt⟩ := expired_iff.mp hexp
      exact .released (expired_iff.mpr ⟨hst, u, hu, lt_of_lt_of_le hlt hle⟩)

/-- A row whose lock has not expired is as it was. -/
theorem eq (h : MaybeReleased now m m') (hexp : expired now m = false) : m' = m := by
  cases h with
  | same => rfl
  | released hexp' => exact absurd hexp' (by simp [hexp])

/-- One more release. -/
theorem release (h : MaybeReleased now m m') :
    MaybeReleased now m (if expired now m' then unlockAs .pending m' else m') := by
  by_cases hexp : expired now m' = true
  · rw [if_pos hexp]
    cases h with
    | same => exact .released hexp
    | released => exact absurd hexp (by simp [expired, unlockAs])
  · rw [if_neg hexp]
    exact h

theorem lockRow_eq (h : MaybeReleased now m m') (lockedBy : Text) (until_ : DateTimeOffset) :
    lockRow lockedBy until_ m = lockRow lockedBy until_ m' := by
  cases h <;> rfl

/-- An expired lock is no lock to an acquisition. -/
theorem due_eq (h : MaybeReleased now m m') : due now m = due now m' := by
  cases h with
  | same => rfl
  | released hexp =>
      obtain ⟨-, u, hu, hlt⟩ := expired_iff.mp hexp
      rw [due, due, hu, Option.all_some, decide_eq_true hlt]
      rfl

/-- An expired lock keeps no sibling back. -/
theorem blocks_eq (h : MaybeReleased now m m') {m₂ m₂' : OutboxMessage}
    (h₂ : MaybeReleased now m₂ m₂') : blocks dep now m m₂ = blocks dep now m' m₂' := by
  have hleft : ∀ x, blocks dep now m x = blocks dep now m' x := fun x => by
    cases h <;> rfl
  rw [hleft]
  cases h₂ with
  | same => rfl
  | released hexp =>
      obtain ⟨hst, u, hu, hlt⟩ := expired_iff.mp hexp
      rw [blocks, blocks, hu, Option.any_some, decide_eq_false (not_lt.mpr hlt.le)]
      simp [unlockAs]

theorem candidate_eq {options : OutboxOptions} {skipIds : List Guid} {t u : Messages}
    (h : MaybeReleased now m m') (hrows : Table.Alike (MaybeReleased now) t u) :
    candidate dep options now skipIds t m = candidate dep options now skipIds u m' := by
  have hblocks : t.rows.any (blocks dep now m) = u.rows.any (blocks dep now m') :=
    List.Forall₂.any_eq hrows fun _ _ h₂ => h.blocks_eq h₂
  rw [candidate, candidate, hblocks, h.due_eq]
  cases h with
  | same => rfl
  | released hexp =>
      rw [(expired_iff.mp hexp).1]
      rfl

theorem purgeable_eq (h : MaybeReleased now m m') (olderThan : DateTimeOffset) :
    purgeable olderThan m = purgeable olderThan m' := by
  cases h with
  | same => rfl
  | released hexp =>
      rw [purgeable, purgeable, (expired_iff.mp hexp).1]
      rfl

/-- A lock that has expired is not held. -/
theorem isLockHeld_eq (h : MaybeReleased now m m') (messageId : Guid) (lockedBy : Text) :
    (heldBy dep messageId lockedBy m && m.status = .processing && m.lockedUntil.any (now < ·)) =
      (heldBy dep messageId lockedBy m' && m'.status = .processing && m'.lockedUntil.any (now < ·)) := by
  cases h with
  | same => rfl
  | released hexp =>
      obtain ⟨-, u, hu, hlt⟩ := expired_iff.mp hexp
      rw [hu, Option.any_some, decide_eq_false (not_lt.mpr hlt.le), Bool.and_false]
      simp [unlockAs]

end MaybeReleased

/-! ## Calls -/

/-- The message that a call looks up by its id, to lock it or to write back. -/
def Op.addressee : Op → Option Guid
  | .tryLockById messageId _ _ => some messageId
  | .writeBack _ messageId _ => some messageId
  | _ => none

/-- The same call; a scan meets the messages in the same order. -/
inductive SameCall : Op → Op → Prop
  | refl (op : Op) : SameCall op op
  | scan {options : OutboxOptions} {batchSize : ℤ} {visibilityTimeout : TimeSpan} {lockedBy : Text}
      {skipIds : List Guid} {scan scan' : List OutboxMessage} :
      scan.map OutboxMessage.id = scan'.map OutboxMessage.id →
      SameCall (.lockNextBatch options batchSize visibilityTimeout lockedBy skipIds scan)
        (.lockNextBatch options batchSize visibilityTimeout lockedBy skipIds scan')

/-- The same call at the same time. -/
structure Event.Matches (e e' : Event) : Prop where
  now : e'.now = e.now
  op : SameCall e.op e'.op

/-- Whether a call is a release. -/
def Event.releases (e : Event) : Bool := e.op = .releaseExpiredLocks

/-- A call that is not addressed to a message whose lock has expired. -/
structure InTimeStep (dep : Deployment) (t : Messages) (e : Event) (t' : Messages) : Prop where
  step : Step dep t e t'
  inTime : ∀ m ∈ t.rows, e.op.addressee = some m.id → expired e.now m = false

/-- Both tables, up to locks that have expired. -/
abbrev UpToReleases (now : DateTimeOffset) (t u : Messages) : Prop := Table.Alike (MaybeReleased now) t u

/-- A statement does the same to both tables, or is refused by both. -/
inductive BothRun {α : Type} (now : DateTimeOffset) :
    Option (α × Messages) → Option (α × Messages) → Prop
  | refused : BothRun now none none
  | done {a : α} {t u : Messages} : UpToReleases now t u → BothRun now (some (a, t)) (some (a, u))

/-- The results of a statement that does the same to both tables. -/
theorem BothRun.orRefused {α : Type} {result : α → Result} {t u : Messages}
    {o o' : Option (α × Messages)} (h : BothRun now o o') (htables : UpToReleases now t u) :
    (orRefused result t o).1 = (orRefused result u o').1 ∧
      UpToReleases now (orRefused result t o).2 (orRefused result u o').2 := by
  cases h with
  | refused => exact ⟨rfl, htables⟩
  | done htables' => exact ⟨rfl, htables'⟩

namespace UpToReleases

variable {t u : Messages}

theorem publish (h : UpToReleases now t u) (row : Option OutboxMessage) :
    BothRun now (row.bind fun m => (t.insertAll? [m]).map fun t' => ((), t'))
      (row.bind fun m => (u.insertAll? [m]).map fun t' => ((), t')) := by
  cases row with
  | none => exact .refused
  | some m =>
      rw [Option.bind_some, Option.bind_some]
      rcases Table.Alike.insert h (fun _ _ => MaybeReleased.id) .same m with
        ⟨ht, hu⟩ | ⟨t', u', ht, hu, h'⟩
      · rw [ht, hu]
        exact .refused
      · rw [ht, hu]
        exact .done h'

/-- **A batch takes the same messages**, and leaves tables alike. -/
theorem lockNextBatch (h : UpToReleases now t u) {options : OutboxOptions} {batchSize : ℤ}
    {visibilityTimeout : TimeSpan} {lockedBy : Text} {skipIds : List Guid}
    {scan scan' : List OutboxMessage} (hscan : scan.Perm t.rows) (hscan' : scan'.Perm u.rows)
    (hids : scan.map OutboxMessage.id = scan'.map OutboxMessage.id) :
    BothRun now (lockNextBatchAsync dep options now batchSize visibilityTimeout lockedBy skipIds scan t)
      (lockNextBatchAsync dep options now batchSize visibilityTimeout lockedBy skipIds scan' u) := by
  have hscans : List.Forall₂ (MaybeReleased now) scan scan' :=
    Table.Alike.forall₂ h (fun _ _ => MaybeReleased.id) (fun _ => hscan.mem_iff.mp)
      (fun _ => hscan'.mem_iff.mp) hids
  have hselected : List.Forall₂ (MaybeReleased now) (selected dep options now batchSize skipIds t scan)
      (selected dep options now batchSize skipIds u scan') := by
    refine List.forall₂_take _ ((hscans.filter fun _ _ hr => hr.candidate_eq h).insertionSort ?_)
    intro a b a₁ b₁ hr hr₁
    rw [hr.createdAt, hr₁.createdAt]
  unfold lockNextBatchAsync
  rw [hselected.map_eq fun _ _ hr => hr.id.symm]
  by_cases hsize : batchSize < 0
  · rw [if_pos hsize, if_pos hsize]
    exact .refused
  · rw [if_neg hsize, if_neg hsize]
    cases dateAddSeconds (dep.castSeconds visibilityTimeout) now with
    | none => exact .refused
    | some until_ =>
        generalize (selected dep options now batchSize skipIds u scan').map OutboxMessage.id = ids
        have hchosen : ∀ m m', MaybeReleased now m m' → ids.contains m.id = ids.contains m'.id :=
          fun m m' hr => by rw [hr.id]
        have hbatch : (t.rows.filter fun m => ids.contains m.id).map (lockRow lockedBy until_) =
            (u.rows.filter fun m => ids.contains m.id).map (lockRow lockedBy until_) :=
          (List.Forall₂.filter h hchosen).map_eq fun _ _ hr => hr.lockRow_eq lockedBy until_
        show BothRun now (some (_, _)) (some (_, _))
        rw [hbatch]
        refine .done (Table.Alike.update h fun m m' hr => ?_)
        rw [hchosen m m' hr, hr.lockRow_eq lockedBy until_]
        by_cases hc : ids.contains m'.id = true
        · rw [if_pos hc, if_pos hc]
          exact .same _
        · rw [if_neg hc, if_neg hc]
          exact hr

/-- The rows with an id are the same if no lock on them has expired. -/
theorem at_id (h : UpToReleases now t u) {messageId : Guid}
    (hintime : ∀ m ∈ t.rows, some messageId = some m.id → expired now m = false) :
    Table.Alike (fun m m' => MaybeReleased now m m' ∧ (m.id = messageId → m' = m)) t u := by
  have hmem : List.Forall₂ (fun m m' => m ∈ t.rows ∧ MaybeReleased now m m') t.rows u.rows :=
    (List.forall₂_and_left _ _).mpr ⟨fun _ hm => hm, h⟩
  refine List.Forall₂.imp ?_ hmem
  rintro m m' ⟨hm, hr⟩
  exact ⟨hr, fun hid => hr.eq (hintime m hm (congrArg some hid.symm))⟩

/-- A condition on the id. -/
theorem at_id_eq {messageId : Guid} {p : OutboxMessage → Bool} (hp : ∀ m, p m = true → m.id = messageId)
    {m m' : OutboxMessage} (hr : MaybeReleased now m m' ∧ (m.id = messageId → m' = m)) : p m = p m' := by
  by_cases hid : m.id = messageId
  · rw [hr.2 hid]
  · have hm : p m = false := Bool.eq_false_iff.mpr fun h => hid (hp m h)
    have hm' : p m' = false := Bool.eq_false_iff.mpr fun h => hid (hr.1.id ▸ hp m' h)
    rw [hm, hm']

/-- The update of the row with an id. -/
theorem update_at_id {messageId : Guid}
    (h : Table.Alike (fun m m' => MaybeReleased now m m' ∧ (m.id = messageId → m' = m)) t u)
    {p : OutboxMessage → Bool} (hp : ∀ m, p m = true → m.id = messageId)
    {f : OutboxMessage → OutboxMessage} (hf : ∀ m, (f m).id = m.id) :
    UpToReleases now (t.update p f hf) (u.update p f hf) := by
  refine Table.Alike.update h fun m m' hr => ?_
  rw [← at_id_eq hp hr]
  by_cases hpm : p m = true
  · rw [if_pos hpm, if_pos hpm, hr.2 (hp m hpm)]
    exact .same _
  · rw [if_neg hpm, if_neg hpm]
    exact hr.1

theorem tryLockById (h : UpToReleases now t u) {messageId : Guid}
    (hintime : ∀ m ∈ t.rows, some messageId = some m.id → expired now m = false)
    (visibilityTimeout : TimeSpan) (lockedBy : Text) :
    BothRun now (tryLockByIdAsync dep now messageId visibilityTimeout lockedBy t)
      (tryLockByIdAsync dep now messageId visibilityTimeout lockedBy u) := by
  have hrows := h.at_id hintime
  have hp : ∀ m, lockable now messageId m = true → m.id = messageId := fun m hm =>
    (lockable_iff.mp hm).1
  unfold tryLockByIdAsync
  cases dateAddSeconds (dep.castSeconds visibilityTimeout) now with
  | none => exact .refused
  | some until_ =>
      have hfound : (t.rows.find? (lockable now messageId)).map (lockRow lockedBy until_) =
          (u.rows.find? (lockable now messageId)).map (lockRow lockedBy until_) :=
        List.Forall₂.find?_map_eq hrows (fun _ _ hr => at_id_eq hp hr)
          fun _ _ hr => hr.1.lockRow_eq lockedBy until_
      show BothRun now (some (_, _)) (some (_, _))
      rw [hfound]
      exact .done (update_at_id hrows hp _)

theorem writeBack (h : UpToReleases now t u) {messageId : Guid}
    (hintime : ∀ m ∈ t.rows, some messageId = some m.id → expired now m = false) (lockedBy : Text)
    (kind : WriteBack) :
    BothRun now (kind.run dep now messageId lockedBy t) (kind.run dep now messageId lockedBy u) := by
  have hrows := h.at_id hintime
  have hp : ∀ m, heldBy dep messageId lockedBy m = true → m.id = messageId := id_of_heldBy
  have hset : ∀ (set : OutboxMessage → OutboxMessage) (hset : ∀ m, (set m).id = m.id),
      BothRun now (some (OutboxStore.writeBack dep messageId lockedBy set hset t))
        (some (OutboxStore.writeBack dep messageId lockedBy set hset u)) := by
    intro set hset
    show BothRun now (some (_, _)) (some (_, _))
    rw [List.Forall₂.any_eq hrows fun _ _ hr => at_id_eq hp hr]
    exact .done (update_at_id hrows hp _)
  cases kind with
  | processed => exact hset _ _
  | failed error => exact hset _ _
  | retry nextRetryAt error =>
      have hfull : (t.rows.any fun m => heldBy dep messageId lockedBy m && int32Max ≤ m.retryCount) =
          u.rows.any fun m => heldBy dep messageId lockedBy m && int32Max ≤ m.retryCount := by
        refine List.Forall₂.any_eq hrows fun m m' hr => ?_
        refine at_id_eq (p := fun m => heldBy dep messageId lockedBy m && int32Max ≤ m.retryCount) ?_ hr
        intro m hm
        exact hp m (Bool.and_eq_true_iff.mp hm).1
      show BothRun now (incrementRetryAsync ..) (incrementRetryAsync ..)
      unfold incrementRetryAsync
      rw [hfull]
      split
      · exact .refused
      · exact hset _ _
  | deadLettered => exact hset _ _

/-- **One call.** It has the same result, and leaves tables alike. -/
theorem step (h : UpToReleases now t u) {e e' : Event} {t' u' : Messages} (hle : now ≤ e.now)
    (hs : InTimeStep dep t e t') (hs' : Step dep u e' u') (hmatch : e.Matches e')
    (hreleases : e'.releases = false) : e'.result = e.result ∧ UpToReleases e.now t' u' := by
  obtain ⟨⟨hvalid, hrun⟩, hintime⟩ := hs
  obtain ⟨hvalid', hrun'⟩ := hs'
  obtain ⟨hnow, hop⟩ := hmatch
  have h₁ : UpToReleases e.now t u := Table.Alike.mono h fun _ _ hr => hr.later hle
  rw [hnow] at hrun'
  obtain ⟨now', op, result⟩ := e
  obtain ⟨now'', op', result'⟩ := e'
  simp only at h₁ hvalid hvalid' hrun hrun' hintime hop ⊢
  -- it is enough that the call runs alike from both tables
  suffices hboth : (op.run dep now' t).1 = (op'.run dep now' u).1 ∧
      UpToReleases now' (op.run dep now' t).2 (op'.run dep now' u).2 by
    rw [hrun, hrun'] at hboth
    exact ⟨hboth.1.symm, hboth.2⟩
  cases hop with
  | scan hids => exact (h₁.lockNextBatch hvalid hvalid' hids).orRefused h₁
  | refl op =>
      cases op with
      | publish a => exact (h₁.publish (publishedRow dep now' a)).orRefused h₁
      | lockNextBatch options batchSize visibilityTimeout lockedBy skipIds scan =>
          exact (h₁.lockNextBatch hvalid hvalid' rfl).orRefused h₁
      | tryLockById messageId visibilityTimeout lockedBy =>
          exact (h₁.tryLockById hintime visibilityTimeout lockedBy).orRefused h₁
      | writeBack kind messageId lockedBy =>
          exact (h₁.writeBack hintime lockedBy kind).orRefused h₁
      | isLockHeld messageId lockedBy =>
          refine ⟨congrArg Result.answer ?_, h₁⟩
          exact List.Forall₂.any_eq h₁ fun _ _ hr => hr.isLockHeld_eq messageId lockedBy
      | releaseExpiredLocks => exact absurd hreleases (by simp [Event.releases])
      | purgeProcessedMessages olderThan =>
          refine ⟨congrArg Result.count ?_, Table.Alike.delete h₁ fun _ _ hr => hr.purgeable_eq olderThan⟩
          show t.rows.countP (purgeable olderThan) = u.rows.countP (purgeable olderThan)
          rw [List.countP_eq_length_filter, List.countP_eq_length_filter]
          exact (List.Forall₂.filter h₁ fun _ _ hr => hr.purgeable_eq olderThan).length_eq

/-- **One more release.** -/
theorem release (h : UpToReleases now t u) {e : Event} {u' : Messages} (hle : now ≤ e.now)
    (hs : Step dep u e u') (hreleases : e.releases = true) : UpToReleases e.now t u' := by
  obtain ⟨now', op, result⟩ := e
  obtain rfl : op = .releaseExpiredLocks := of_decide_eq_true hreleases
  cases hs.2
  exact Table.Alike.update_right h fun _ _ hr => (hr.later hle).release

end UpToReleases

/-! ## Runs -/

variable {t u t' : Messages} {s s' : Clocked} {events events' : List Event}

/-- **Releases do not show.** Take two runs of the same calls at the same times, with any number of
releases put into the second, at any times.  If no `TryLockByIdAsync` and no write-back of the first run is
addressed to a message whose lock has expired, then all calls have the same results, and in the end the
tables are the same up to locks that have expired. -/
theorem releases_do_not_show (hrun : Steps (InTimeStep dep) s.table events t')
    (hrun' : Steps (TimedStep dep) s events' s')
    (hmatch : List.Forall₂ Event.Matches events (events'.filter fun e => !e.releases)) :
    List.Forall₂ (fun e e' => e'.result = e.result) events (events'.filter fun e => !e.releases) ∧
    List.Forall₂ (fun m m' => m' = m ∨ expired s'.now m = true ∧ m' = unlockAs .pending m)
      t'.rows s'.table.rows := by
  have hsame : UpToReleases s.now s.table s.table := Table.Alike.refl .same _
  obtain ⟨hresults, hend⟩ := Steps.extra_steps (fun t s => UpToReleases s.now t s.table) Event.releases
    Event.Matches (fun e e' => e'.result = e.result)
    (fun t s e s' h hreleases ⟨hle, hnow, hs⟩ => by
      rw [hnow]
      exact h.release hle hs hreleases)
    (fun t s e t' e' s' h hreleases hm hs ⟨hle, hnow, hs'⟩ => by
      rw [hnow, hm.now]
      exact h.step (hm.now ▸ hle) hs hs' hm hreleases) hrun hrun' hmatch hsame
  refine ⟨hresults, List.Forall₂.imp ?_ hend⟩
  intro m m' hr
  cases hr with
  | same => exact .inl rfl
  | released hexp => exact .inr ⟨hexp, rfl⟩

/-! ## A message left behind -/

/-- A message that an instance has locked for a second. -/
def leftBehind : OutboxMessage :=
  lockRow (text "a") 10002000 (directRow 1000 ⟨1, text "order.placed", [], none, none, none, none, none, none⟩)

/-- The same message, taken over by another instance. -/
def takenOverRow : OutboxMessage := lockRow (text "b") 160000000 leftBehind

/-- The other instance takes it ten seconds later, from the row as it is then. -/
def takesOver (row : OutboxMessage) : Event where
  now := 110000000
  op := .lockNextBatch { instanceId := text "b" } 50 (5 * ticksPerSecond) (text "b") [] [row]
  result := .locked [takenOverRow]

/-- And delivers it. -/
def finishes : Event := ⟨120000000, .writeBack .processed 1 (text "b"), .answer true⟩

def releasedAt (now : DateTimeOffset) : Event := ⟨now, .releaseExpiredLocks, .unit⟩

/-- Releases before it is taken over and while it is delivered. -/
def withReleases : List Event :=
  [releasedAt 40000000, takesOver (unlockAs .pending leftBehind), releasedAt 115000000, finishes]

theorem leftBehind_run : Steps (InTimeStep (Deployment.binary .directSql))
    ⟨[leftBehind], List.nodup_singleton _⟩ [takesOver leftBehind, finishes]
    ⟨[setProcessed 120000000 takenOverRow], List.nodup_singleton _⟩ := by
  have htake : InTimeStep (Deployment.binary .directSql) ⟨[leftBehind], List.nodup_singleton _⟩
      (takesOver leftBehind) ⟨[takenOverRow], List.nodup_singleton _⟩ :=
    ⟨⟨List.Perm.refl _, by decide⟩, fun _ _ h => nomatch h⟩
  refine .cons htake (.cons ⟨⟨trivial, by decide⟩, ?_⟩ (.nil _))
  intro m hm _
  rw [List.mem_singleton.mp hm]
  decide

theorem leftBehind_run_released : Steps (TimedStep (Deployment.binary .directSql))
    ⟨⟨[leftBehind], List.nodup_singleton _⟩, 10002000⟩ withReleases
    ⟨⟨[setProcessed 120000000 takenOverRow], List.nodup_singleton _⟩, 120000000⟩ := by
  have hrelease : TimedStep (Deployment.binary .directSql)
      ⟨⟨[leftBehind], List.nodup_singleton _⟩, 10002000⟩ (releasedAt 40000000)
      ⟨⟨[unlockAs .pending leftBehind], List.nodup_singleton _⟩, 40000000⟩ :=
    ⟨by decide, rfl, trivial, by decide⟩
  have htake : TimedStep (Deployment.binary .directSql)
      ⟨⟨[unlockAs .pending leftBehind], List.nodup_singleton _⟩, 40000000⟩
      (takesOver (unlockAs .pending leftBehind))
      ⟨⟨[takenOverRow], List.nodup_singleton _⟩, 110000000⟩ :=
    ⟨by decide, rfl, List.Perm.refl _, by decide⟩
  have hagain : TimedStep (Deployment.binary .directSql)
      ⟨⟨[takenOverRow], List.nodup_singleton _⟩, 110000000⟩ (releasedAt 115000000)
      ⟨⟨[takenOverRow], List.nodup_singleton _⟩, 115000000⟩ :=
    ⟨by decide, rfl, trivial, by decide⟩
  exact .cons hrelease (.cons htake (.cons hagain (.cons ⟨by decide, rfl, trivial, by decide⟩ (.nil _))))

/-- With the releases, the other instance gets the same. -/
theorem releases_do_not_show_leftBehind :
    List.Forall₂ (fun e e' => e'.result = e.result) [takesOver leftBehind, finishes]
      (withReleases.filter fun e => !e.releases) := by
  have hmatch : List.Forall₂ Event.Matches [takesOver leftBehind, finishes]
      (withReleases.filter fun e => !e.releases) :=
    .cons ⟨rfl, .scan rfl⟩ (.cons ⟨rfl, .refl _⟩ .nil)
  exact (releases_do_not_show leftBehind_run leftBehind_run_released hmatch).1

end OutboxNet.OutboxStore
