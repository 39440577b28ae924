import Mathlib.Algebra.Group.Int.Defs
import OutboxNet.Store.LockExclusion

/-!
# How long a lock lasts

The time-out of an acquisition goes to the server as a whole number of seconds, and the instant it ends
at is stored in milliseconds.  The seconds are cut, the milliseconds are rounded.  A lock of a fraction
of a second is over at once; one of whole seconds ends early by the part of a millisecond that the
rounding takes away; one that is longer than 32 bits of seconds is cut to them.
-/

set_option autoImplicit false

namespace OutboxNet

/-! ## Time-outs -/

/-- The part of a time-out that does not reach the server. -/
def Deployment.lostTicks (dep : Deployment) (visibilityTimeout : TimeSpan) : ℤ :=
  visibilityTimeout - dep.castSeconds visibilityTimeout * ticksPerSecond

namespace OutboxStore

variable {dep : Deployment}

/-- Of a time-out of up to seventeen years the fraction of a second is lost. -/
theorem lostTicks_eq {visibilityTimeout : ℤ} (hpos : 0 ≤ visibilityTimeout)
    (hshort : visibilityTimeout < 2 ^ 29 * 10000000) :
    dep.lostTicks visibilityTimeout = visibilityTimeout % ticksPerSecond := by
  have hcast := dep.castSeconds_spec visibilityTimeout (by omega)
  have hsplit := Int.emod_add_mul_ediv visibilityTimeout ticksPerSecond
  unfold Deployment.lostTicks
  rw [hcast, Int.tdiv_eq_ediv_of_nonneg hpos, Int.mul_comm]
  omega

/-- The rounding to milliseconds makes up for what is lost.  The last tick is free: the next acquisition
comes strictly after the end of the lock. -/
def Covered (dep : Deployment) (visibilityTimeout : TimeSpan) (now : DateTimeOffset) : Prop :=
  dep.lostTicks visibilityTimeout ≤
    if now % 10000 < 5000 then 1 - now % 10000 else 10001 - now % 10000

instance (visibilityTimeout : TimeSpan) (now : DateTimeOffset) :
    Decidable (Covered dep visibilityTimeout now) := inferInstanceAs (Decidable (_ ≤ _))

/-- An end in milliseconds, against the instant that was asked for. -/
theorem le_round3_iff {now timeout seconds : ℤ} :
    now + timeout - 1 ≤ round3 (now + seconds * ticksPerSecond) ↔
      timeout - seconds * ticksPerSecond ≤
        if now % 10000 < 5000 then 1 - now % 10000 else 10001 - now % 10000 := by
  unfold round3 ticksPerSecond
  split <;> omega

/-- No rounding makes up for a time-out that does not fit into 32 bits of seconds. -/
theorem not_covered_of_long {visibilityTimeout : ℤ} {now : ℤ}
    (hlong : (int32Max + 1) * ticksPerSecond ≤ visibilityTimeout) :
    ¬ Covered dep visibilityTimeout now := by
  intro h
  have hrange := (dep.castSeconds_range visibilityTimeout).2
  have hcovered : visibilityTimeout - dep.castSeconds visibilityTimeout * ticksPerSecond ≤
      if now % 10000 < 5000 then 1 - now % 10000 else 10001 - now % 10000 := h
  unfold int32Max ticksPerSecond at *
  split at hcovered <;> omega

/-! ## Holding a lock -/

/-- One event under a clock that does not go back. -/
def TimedStep (dep : Deployment) (s : Clocked) (e : Event) (s' : Clocked) : Prop :=
  s.now ≤ e.now ∧ s'.now = e.now ∧ Step dep s.table e s'.table

/-- A write-back on message `k` that returned true. -/
def Event.wroteBack (k : Guid) (e : Event) : Prop :=
  ∃ kind lockedBy, e.op = .writeBack kind k lockedBy ∧ e.result = .answer true

/-- The event acquires message `k`, or releases it. -/
def Taken (k : Guid) (s : Clocked) (e : Event) (s' : Clocked) : Prop :=
  (∃ m ∈ e.result.batch, m.id = k) ∨
    (e.op = .releaseExpiredLocks ∧ s'.table.find? k ≠ s.table.find? k)

/-- Unless a write-back on message `k` succeeds first, no event takes it before `until_`. -/
def LastsUntil (dep : Deployment) (k : Guid) (until_ : DateTimeOffset) (s : Clocked) : Prop :=
  ∀ between s₁ e s₂, Steps (TimedStep dep) s between s₁ → (∀ e' ∈ between, ¬ e'.wroteBack k) →
    TimedStep dep s₁ e s₂ → Taken k s₁ e s₂ → until_ ≤ e.now

/-- Message `k` is locked until `u`, or the clock has passed `u`. -/
def HeldUntil (k : Guid) (u : DateTimeOffset) (s : Clocked) : Prop :=
  (∃ m, s.table.find? k = some m ∧ m.status = .processing ∧ m.lockedUntil = some u) ∨ u < s.now

/-- A lock until `u` is taken after `u`. -/
theorem HeldUntil.lt_of_taken {k : Guid} {u : DateTimeOffset} {s s' : Clocked} {e : Event}
    (h : HeldUntil k u s) (hs : TimedStep dep s e s') (htaken : Taken k s e s') : u < e.now := by
  obtain ⟨hle, -, hstep⟩ := hs
  rcases h with ⟨m, hm, hstatus, hu⟩ | hlt
  · rcases htaken with ⟨m', hm', hid⟩ | ⟨hop, hchanged⟩
    · -- an acquisition finds its rows due
      obtain ⟨_, lockedBy, chosen, until_, hacq⟩ := hstep.acquired hm'
      obtain ⟨m₀, hm₀, hchosen, -, -⟩ := hacq.mem_batch hm'
      rw [hid, hm] at hm₀
      cases hm₀
      have hdue := hacq.due m (Table.find?_mem hm) hchosen
      simp only [due, hu, Bool.and_eq_true, Option.all_some, decide_eq_true_eq] at hdue
      exact hdue.1
    · -- a release changes only what has expired
      have hchange := hstep.rowChange k
      rw [hm] at hchange hchanged
      generalize s'.table.find? k = o' at hchange hchanged
      cases hchange with
      | same => exact absurd rfl hchanged
      | lock _ hdue _ =>
          simp only [due, hu, Bool.and_eq_true, Option.all_some, decide_eq_true_eq] at hdue
          exact hdue.1
      | writeBack hop' => rw [hop] at hop'; cases hop'
      | release _ hexpired =>
          simp only [expired, hu, Option.any_some, Bool.and_eq_true, decide_eq_true_eq] at hexpired
          exact hexpired.2
      | purge hop' => rw [hop] at hop'; cases hop'
  · exact lt_of_lt_of_le hlt hle

/-- The step lemma: what is no write-back on `k` leaves it locked until `u`. -/
theorem HeldUntil.step {k : Guid} {u : DateTimeOffset} {s s' : Clocked} {e : Event}
    (h : HeldUntil k u s) (hs : TimedStep dep s e s') (hback : ¬ e.wroteBack k) :
    HeldUntil k u s' := by
  by_cases hlt : u < s'.now
  · exact .inr hlt
  have hnow := hs.2.1
  have hnot : ¬ u < e.now := by
    rw [← hnow]
    exact hlt
  rcases h with ⟨m, hm, hstatus, hu⟩ | hpast
  · left
    have hchange := hs.2.2.rowChange k
    rw [hm] at hchange
    generalize s'.table.find? k = o' at hchange
    cases hchange with
    | same => exact ⟨m, rfl, hstatus, hu⟩
    | lock _ hdue _ =>
        simp only [due, hu, Bool.and_eq_true, Option.all_some, decide_eq_true_eq] at hdue
        exact absurd hdue.1 hnot
    | @writeBack kind messageId lockedBy m hop hheld hres =>
        have hid : messageId = k := by
          simp only [heldBy, Bool.and_eq_true, decide_eq_true_eq] at hheld
          exact hheld.1.symm.trans (Table.find?_key hm)
        exact absurd ⟨kind, lockedBy, hid ▸ hop, hres⟩ hback
    | release _ hexpired =>
        simp only [expired, hu, Option.any_some, Bool.and_eq_true, decide_eq_true_eq] at hexpired
        exact absurd hexpired.2 hnot
    | purge _ hpurge =>
        -- a locked message has not been dealt with
        simp [purgeable, hstatus] at hpurge
  · exact absurd (lt_of_lt_of_le hpast hs.1) hnot

/-- A message locked until `u`, at a time before `until_`, stays locked until then exactly when `u` is
the last instant before it, or later. -/
theorem lastsUntil_iff {k : Guid} {u until_ : ℤ} {s : Clocked} {m : OutboxMessage}
    (hm : s.table.find? k = some m) (hstatus : m.status = .processing)
    (hu : m.lockedUntil = some u) (hbefore : s.now < until_) :
    LastsUntil dep k until_ s ↔ until_ - 1 ≤ u := by
  constructor
  · intro h
    by_contra hlt
    -- the lock is released as soon as it can be
    let now : ℤ := max s.now (u + 1)
    let s' : Clocked := ⟨releaseExpiredLocksAsync now s.table, now⟩
    have hrelease : TimedStep dep s ⟨now, .releaseExpiredLocks, .unit⟩ s' :=
      ⟨le_max_left _ _, rfl, trivial, rfl⟩
    have hexpired : expired now m = true := by
      have hpast : u < now := lt_of_lt_of_le (Int.lt_succ u) (le_max_right _ _)
      simp [expired, hstatus, hu, hpast]
    have hchanged : s'.table.find? k = some (unlockAs .pending m) := by
      show (releaseExpiredLocksAsync now s.table).find? k = _
      unfold releaseExpiredLocksAsync
      rw [Table.find?_update, hm, Option.map_some, if_pos hexpired]
    have htaken : Taken k s ⟨now, .releaseExpiredLocks, .unit⟩ s' := by
      refine .inr ⟨rfl, ?_⟩
      rw [hchanged, hm]
      intro heq
      have hnone := congrArg (Option.map OutboxMessage.lockedUntil) heq
      simp [unlockAs, hu] at hnone
    have hlate := h [] s _ s' (.nil s) (List.forall_mem_nil _) hrelease htaken
    have hnow : now < until_ := max_lt hbefore (by omega)
    exact absurd hlate (not_le.mpr hnow)
  · intro hle between s₁ e s₂ hbetween hback he htaken
    have hheld : HeldUntil k u s₁ := hbetween.invariant_of (HeldUntil k u) (fun e => ¬ e.wroteBack k)
      (fun _ _ _ hne h hs => h.step hs hne) hback (.inl ⟨m, hm, hstatus, hu⟩)
    have hlt : u < e.now := hheld.lt_of_taken he htaken
    exact Int.le_of_sub_one_lt (lt_of_le_of_lt hle hlt)

/-- **How long a lock lasts.** A message acquired by either statement, with whatever positive time-out
and from whatever table, is kept for as long as was asked exactly when the rounding covers what the
conversion to seconds loses. -/
theorem lock_lasts_iff {visibilityTimeout : TimeSpan} (hpos : 0 < visibilityTimeout)
    {s₀ s : Clocked} {e : Event} (he : TimedStep dep s₀ e s)
    (hop : e.op.visibilityTimeout? = some visibilityTimeout) {m : OutboxMessage}
    (hm : m ∈ e.result.batch) :
    LastsUntil dep m.id (e.now + visibilityTimeout) s ↔ Covered dep visibilityTimeout e.now := by
  obtain ⟨-, hnow, hstep⟩ := he
  obtain ⟨timeout, lockedBy, chosen, until_, hop', hacq⟩ := hstep.acquired_with hm
  obtain rfl : timeout = visibilityTimeout := by
    rw [hop] at hop'
    exact (Option.some.inj hop').symm
  obtain ⟨m₀, -, -, rfl, hfind⟩ := hacq.mem_batch hm
  have huntil : until_ = e.now + dep.castSeconds timeout * ticksPerSecond := by
    have hadd := hacq.until_eq
    simp only [dateAddSeconds] at hadd
    split at hadd
    · exact (Option.some.inj hadd).symm
    · cases hadd
  have hbefore : s.now < e.now + timeout := by
    rw [hnow]
    exact Int.lt_add_of_pos_right _ hpos
  rw [lastsUntil_iff hfind rfl rfl hbefore, huntil]
  exact le_round3_iff

/-! ## A lock of half a second -/

/-- A new order. -/
def newOrder : OutboxMessage :=
  directRow 1000 ⟨1, text "order.placed", [], none, none, none, none, none, none⟩

/-- The order alone in the table. -/
def onlyOrder : Clocked := ⟨⟨[newOrder], by simp⟩, 1000⟩

/-- The order locked until some instant, at some time. -/
def lockedOrder (lockedBy : Text) (until_ now : DateTimeOffset) : Clocked :=
  ⟨⟨[lockRow lockedBy until_ newOrder], by simp⟩, now⟩

/-- One instance asks for half a second, gets none of it, and the next takes the order at the same
instant. -/
theorem half_second_lock : ¬ ∀ (visibilityTimeout : TimeSpan) (s₀ s : Clocked) (e : Event)
    (m : OutboxMessage), 0 < visibilityTimeout →
    TimedStep (Deployment.binary .directSql) s₀ e s →
    e.op.visibilityTimeout? = some visibilityTimeout → m ∈ e.result.batch →
    LastsUntil (Deployment.binary .directSql) m.id (e.now + visibilityTimeout) s := by
  intro h
  let first : Event := ⟨2000, .tryLockById 1 5000000 (text "a"),
    .locked [lockRow (text "a") 2000 newOrder]⟩
  let second : Event := ⟨2000, .lockNextBatch { instanceId := text "b" } 50 5000000 (text "b") []
    [lockRow (text "a") 2000 newOrder], .locked [lockRow (text "b") 2000 newOrder]⟩
  have hfirst : TimedStep (Deployment.binary .directSql) onlyOrder first
      (lockedOrder (text "a") 2000 2000) := ⟨by decide, rfl, trivial, by decide⟩
  have hsecond : TimedStep (Deployment.binary .directSql) (lockedOrder (text "a") 2000 2000) second
      (lockedOrder (text "b") 2000 2000) := ⟨by decide, rfl, List.Perm.refl _, by decide⟩
  have htaken : Taken 1 (lockedOrder (text "a") 2000 2000) second
      (lockedOrder (text "b") 2000 2000) := .inl ⟨_, List.mem_cons_self, rfl⟩
  have hlate := h 5000000 _ _ first _ (by decide) hfirst rfl List.mem_cons_self [] _ second _
    (.nil _) (List.forall_mem_nil _) hsecond htaken
  exact absurd hlate (by decide)

/-- A lock of a second, taken on a millisecond, lasts for it. -/
theorem one_second_lock : LastsUntil (Deployment.binary .directSql) 1 (20000 + 10000000)
    (lockedOrder (text "a") 10020000 20000) := by
  let first : Event := ⟨20000, .tryLockById 1 10000000 (text "a"),
    .locked [lockRow (text "a") 10020000 newOrder]⟩
  have hfirst : TimedStep (Deployment.binary .directSql) onlyOrder first
      (lockedOrder (text "a") 10020000 20000) := ⟨by decide, rfl, trivial, by decide⟩
  exact (lock_lasts_iff (by decide) hfirst rfl List.mem_cons_self).mpr (by decide)

end OutboxStore

end OutboxNet
