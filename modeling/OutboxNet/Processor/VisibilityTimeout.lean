import Mathlib.Algebra.Order.Ring.Int
import OutboxNet.Lib.ListSchedule
import OutboxNet.Store.OutboxStore

/-!
# The visibility timeout

`OutboxOptions` says how long the lock of a batch must be: longer than
`ceil(BatchSize / MaxConcurrentDeliveries) × MaxConcurrentSubscriptionDeliveries × subscription.Timeout`.
The two nested loops of the processor take longer when a message has more subscriptions than the formula
allows for: a message with `n` of them takes `ceil(n / MaxConcurrentSubscriptionDeliveries)` rounds.
-/

set_option autoImplicit false

namespace OutboxNet

open ListSchedule (rounds makespan loopFinishes)

/-! ## The nested loops -/

namespace OutboxOptions

variable (options : OutboxOptions)

/-- How long the delivery phase of a message lasts, given how long `DeliverAsync` takes for each of its
subscriptions: the loop of `DeliverToSubscriptionsAsync`. -/
def deliveryPhase (times : List TimeSpan) : TimeSpan :=
  makespan options.maxConcurrentSubscriptionDeliveries.toNat times

/-- When the messages of a batch end their delivery phases, from the start of the batch: the loop of
`ProcessDirectDeliveryAsync`. -/
def batchFinishes (batch : List (List TimeSpan)) : List TimeSpan :=
  loopFinishes options.maxConcurrentDeliveries.toNat (batch.map options.deliveryPhase)

/-- The rounds of a whole batch. -/
def batchRounds : ℕ := rounds options.maxConcurrentDeliveries.toNat options.batchSize.toNat

/-- The bound `OutboxOptions` gives for the processing of a batch. -/
def documentedWorstCase (timeout : TimeSpan) : TimeSpan :=
  options.batchRounds * options.maxConcurrentSubscriptionDeliveries * timeout

/-- What the loops can take, with up to `n` subscriptions a message. -/
def worstCase (n : ℕ) (timeout : TimeSpan) : TimeSpan :=
  options.batchRounds * rounds options.maxConcurrentSubscriptionDeliveries.toNat n * timeout

/-- The `LockedUntil` of a batch locked at `now`, when the instant can be dated. -/
def lockedUntil (dep : Deployment) (now : DateTimeOffset) : Option DateTimeOffset :=
  (dateAddSeconds (dep.castSeconds options.defaultVisibilityTimeout) now).map round3

/-- The times of a batch: at most `BatchSize` messages, at most `n` subscriptions each, no delivery
longer than `timeout`. -/
structure TimesOf (n : ℕ) (timeout : TimeSpan) (batch : List (List TimeSpan)) : Prop where
  size : (batch.length : ℤ) ≤ options.batchSize
  subscriptions : ∀ times ∈ batch, times.length ≤ n
  nonneg : ∀ times ∈ batch, ∀ d ∈ times, 0 ≤ d
  within : ∀ times ∈ batch, ∀ d ∈ times, d ≤ timeout

/-- A visibility timeout above the documented bound is enough: every message of every batch ends its
delivery phase before its `LockedUntil`. -/
def TimeoutSuffices (dep : Deployment) (n : ℕ) (timeout : TimeSpan) (now : DateTimeOffset) : Prop :=
  options.documentedWorstCase timeout < options.defaultVisibilityTimeout →
    ∀ until_, options.lockedUntil dep now = some until_ →
    ∀ batch, options.TimesOf n timeout batch → ∀ finish ∈ options.batchFinishes batch,
      now + finish < until_

end OutboxOptions

/-- The batch of a lock statement has at most `BatchSize` messages, locked until then. -/
theorem OutboxStore.lockNextBatchAsync_lockedUntil {dep : Deployment} {options : OutboxOptions}
    {now : DateTimeOffset} {lockedBy : Text} {skipIds : List Guid} {scan batch : List OutboxMessage}
    {t t' : Messages}
    (h : lockNextBatchAsync dep options now options.batchSize options.defaultVisibilityTimeout lockedBy
      skipIds scan t = some (batch, t')) :
    (batch.length : ℤ) ≤ options.batchSize ∧
      ∀ m ∈ batch, m.lockedUntil = options.lockedUntil dep now := by
  unfold lockNextBatchAsync at h
  split at h
  · cases h
  next hsize =>
  split at h
  · cases h
  next until_ huntil =>
  simp only [Option.some.injEq, Prod.mk.injEq] at h
  obtain ⟨rfl, -⟩ := h
  constructor
  · -- the rows locked are among those selected
    have hlength : (selected dep options now options.batchSize skipIds t scan).length ≤
        options.batchSize.toNat := List.length_take_le _ _
    generalize selected dep options now options.batchSize skipIds t scan = chosen at hlength ⊢
    have hsub : ((t.rows.filter fun m => (chosen.map OutboxMessage.id).contains m.id).map
        OutboxMessage.id).Subperm (chosen.map OutboxMessage.id) := by
      refine List.subperm_of_subset (t.nodup.sublist (List.filter_sublist.map _)) fun id hid => ?_
      obtain ⟨m, hm, rfl⟩ := List.mem_map.mp hid
      exact List.contains_iff_mem.mp (List.mem_filter.mp hm).2
    have hle := hsub.length_le
    rw [List.length_map, List.length_map] at hle
    rw [List.length_map]
    omega
  · intro m hm
    obtain ⟨row, -, rfl⟩ := List.mem_map.mp hm
    rw [OutboxOptions.lockedUntil, huntil]
    rfl

namespace OutboxOptions

variable {options : OutboxOptions} {n : ℕ} {timeout : TimeSpan}

/-- A message ends its delivery phase within the rounds of its subscriptions. -/
theorem deliveryPhase_le (hsubscriptions : 1 ≤ options.maxConcurrentSubscriptionDeliveries)
    (htimeout : 0 ≤ timeout) {times : List TimeSpan} (hn : times.length ≤ n)
    (hle : ∀ d ∈ times, d ≤ timeout) : options.deliveryPhase times ≤
      rounds options.maxConcurrentSubscriptionDeliveries.toNat n • timeout :=
  ListSchedule.makespan_le (by omega) htimeout hle hn

/-- **No batch takes longer than the worst case.** -/
theorem batchFinishes_le (hdeliveries : 1 ≤ options.maxConcurrentDeliveries)
    (hsubscriptions : 1 ≤ options.maxConcurrentSubscriptionDeliveries) (htimeout : 0 ≤ timeout)
    {batch : List (List TimeSpan)} (hbatch : options.TimesOf n timeout batch) {finish : TimeSpan}
    (hfinish : finish ∈ options.batchFinishes batch) : finish ≤ options.worstCase n timeout := by
  have hphase : 0 ≤ rounds options.maxConcurrentSubscriptionDeliveries.toNat n • timeout :=
    nsmul_nonneg htimeout _
  have hphases : ∀ d ∈ batch.map options.deliveryPhase,
      d ≤ rounds options.maxConcurrentSubscriptionDeliveries.toNat n • timeout := by
    intro d hd
    obtain ⟨times, htimes, rfl⟩ := List.mem_map.mp hd
    exact deliveryPhase_le hsubscriptions htimeout (hbatch.subscriptions times htimes)
      (hbatch.within times htimes)
  have hlength : (batch.map options.deliveryPhase).length ≤ options.batchSize.toNat := by
    have hsize := hbatch.size
    rw [List.length_map]
    omega
  calc finish
      ≤ rounds options.maxConcurrentDeliveries.toNat options.batchSize.toNat •
          rounds options.maxConcurrentSubscriptionDeliveries.toNat n • timeout :=
        ListSchedule.loopFinishes_le (by omega) hphase hphases hlength hfinish
    _ = options.worstCase n timeout := by
        rw [nsmul_eq_mul, nsmul_eq_mul, worstCase, batchRounds, mul_assoc]

/-- **The worst case happens**: a full batch of messages with `n` subscriptions, all timing out. -/
theorem worstCase_mem_batchFinishes (hdeliveries : 1 ≤ options.maxConcurrentDeliveries)
    (hsubscriptions : 1 ≤ options.maxConcurrentSubscriptionDeliveries) (htimeout : 0 ≤ timeout)
    (hsize : 0 < options.batchSize) : options.worstCase n timeout ∈
      options.batchFinishes (List.replicate options.batchSize.toNat (List.replicate n timeout)) := by
  have hphase : options.deliveryPhase (List.replicate n timeout) =
      rounds options.maxConcurrentSubscriptionDeliveries.toNat n • timeout :=
    ListSchedule.makespan_replicate (by omega) htimeout n
  have hlast : rounds options.maxConcurrentDeliveries.toNat options.batchSize.toNat •
      options.deliveryPhase (List.replicate n timeout) ∈
        loopFinishes options.maxConcurrentDeliveries.toNat
          (List.replicate options.batchSize.toNat (options.deliveryPhase (List.replicate n timeout))) := by
    refine ListSchedule.rounds_mem_loopFinishes (by omega) ?_ (by omega)
    rw [hphase]
    exact nsmul_nonneg htimeout _
  rw [batchFinishes, List.map_replicate]
  have heq : options.worstCase n timeout =
      rounds options.maxConcurrentDeliveries.toNat options.batchSize.toNat •
        options.deliveryPhase (List.replicate n timeout) := by
    rw [hphase, nsmul_eq_mul, nsmul_eq_mul, worstCase, batchRounds, mul_assoc]
  rw [heq]
  exact hlast

/-- **A visibility timeout above the documented bound is enough exactly when it covers what the loops
can take.** -/
theorem timeoutSuffices_iff {dep : Deployment} {now : DateTimeOffset}
    (hdeliveries : 1 ≤ options.maxConcurrentDeliveries)
    (hsubscriptions : 1 ≤ options.maxConcurrentSubscriptionDeliveries) (htimeout : 0 ≤ timeout) :
    options.TimeoutSuffices dep n timeout now ↔
      (options.documentedWorstCase timeout < options.defaultVisibilityTimeout →
        0 < options.batchSize → ∀ until_, options.lockedUntil dep now = some until_ →
          now + options.worstCase n timeout < until_) := by
  constructor
  · intro h hbound hsize until_ huntil
    -- the full batch, every delivery taking the whole time-out
    refine h hbound until_ huntil _ ⟨?_, ?_, ?_, ?_⟩ _
      (worstCase_mem_batchFinishes hdeliveries hsubscriptions htimeout hsize)
    · rw [List.length_replicate]
      omega
    · intro times htimes
      rw [List.eq_of_mem_replicate htimes, List.length_replicate]
    · intro times htimes d hd
      rw [List.eq_of_mem_replicate htimes] at hd
      rw [List.eq_of_mem_replicate hd]
      exact htimeout
    · intro times htimes d hd
      rw [List.eq_of_mem_replicate htimes] at hd
      exact (List.eq_of_mem_replicate hd).le
  · intro h hbound until_ huntil batch hbatch finish hfinish
    -- a batch with a message in it needs a positive size
    have hsize : 0 < options.batchSize := by
      have hlength := hbatch.size
      cases batch with
      | nil =>
          rw [batchFinishes, List.map_nil, loopFinishes, ListSchedule.finishes_nil] at hfinish
          cases hfinish
      | cons times batch =>
          rw [List.length_cons] at hlength
          omega
    calc now + finish
        ≤ now + options.worstCase n timeout :=
          Int.add_le_add_left (batchFinishes_le hdeliveries hsubscriptions htimeout hbatch hfinish) now
      _ < until_ := h hbound hsize until_ huntil

theorem natAbs_lt {v : ℤ} (hnonneg : 0 ≤ v) (hv : v < 2 ^ 29 * 10000000) :
    v.natAbs < 2 ^ 29 * 10000000 := by
  omega

/-- What is left of a timeout cut to seconds and a lock rounded to milliseconds. -/
theorem lt_round3 {now v bound worst : ℤ} (hspare : bound + ticksPerSecond + 5000 ≤ v)
    (hworst : worst ≤ bound) : now + worst < round3 (now + v / ticksPerSecond * ticksPerSecond) := by
  show now + worst < (now + v / 10000000 * 10000000 + 5000) / 10000 * 10000
  have hspare' : bound + 10000000 + 5000 ≤ v := hspare
  omega

/-- The bound covers messages with up to the square of `MaxConcurrentSubscriptionDeliveries`
subscriptions, with a second and half a millisecond to spare for what the lock is rounded by. -/
theorem timeoutSuffices_of_square {dep : Deployment} {now : DateTimeOffset}
    (hdeliveries : 1 ≤ options.maxConcurrentDeliveries)
    (hsubscriptions : 1 ≤ options.maxConcurrentSubscriptionDeliveries) (htimeout : 0 ≤ timeout)
    (hn : (n : ℤ) ≤ options.maxConcurrentSubscriptionDeliveries ^ 2)
    (hspare : options.documentedWorstCase timeout + ticksPerSecond + 5000 ≤
      options.defaultVisibilityTimeout)
    (hyears : options.defaultVisibilityTimeout < 2 ^ 29 * 10000000) :
    options.TimeoutSuffices dep n timeout now := by
  refine (timeoutSuffices_iff hdeliveries hsubscriptions htimeout).mpr fun hbound _ until_ huntil => ?_
  -- the subscriptions of a message pass in as many rounds as the formula has
  have hrounds : (rounds options.maxConcurrentSubscriptionDeliveries.toNat n : ℤ) ≤
      options.maxConcurrentSubscriptionDeliveries := by
    obtain ⟨s, hs⟩ : ∃ s : ℕ, options.maxConcurrentSubscriptionDeliveries = s :=
      ⟨_, (Int.toNat_of_nonneg (by omega)).symm⟩
    rw [hs] at hn hsubscriptions ⊢
    have hsquare : n ≤ s * s := by
      have hn' : (n : ℤ) ≤ ((s * s : ℕ) : ℤ) := by rw [Nat.cast_mul, ← sq]; exact hn
      exact Int.ofNat_le.mp hn'
    have hle : rounds (s : ℤ).toNat n ≤ s := by
      rw [Int.toNat_natCast, rounds, Nat.div_le_iff_le_mul (by omega)]
      omega
    exact Int.ofNat_le.mpr hle
  have hworst : options.worstCase n timeout ≤ options.documentedWorstCase timeout := by
    rw [worstCase, documentedWorstCase]
    exact mul_le_mul_of_nonneg_right (mul_le_mul_of_nonneg_left hrounds (Int.natCast_nonneg _)) htimeout
  -- the lock loses less than a second and half a millisecond
  have hdocumented : 0 ≤ options.documentedWorstCase timeout := by
    rw [documentedWorstCase]
    exact mul_nonneg (mul_nonneg (Int.natCast_nonneg _) (zero_le_one.trans hsubscriptions)) htimeout
  have hnonneg : 0 ≤ options.defaultVisibilityTimeout := hdocumented.trans hbound.le
  rw [lockedUntil, Option.map_eq_some_iff] at huntil
  obtain ⟨u, hu, rfl⟩ := huntil
  rw [dep.castSeconds_spec _ (natAbs_lt hnonneg hyears), dateAddSeconds,
    Int.tdiv_eq_ediv_of_nonneg hnonneg] at hu
  simp only [Option.ite_none_right_eq_some, Option.some.injEq] at hu
  obtain ⟨-, rfl⟩ := hu
  exact lt_round3 hspare hworst

/-! ## Two subscriptions, one at a time -/

/-- One message at a time, one subscription at a time, and a lock of fifteen seconds. -/
def oneAtATime : OutboxOptions where
  instanceId := text "worker-1"
  batchSize := 1
  maxConcurrentDeliveries := 1
  maxConcurrentSubscriptionDeliveries := 1
  defaultVisibilityTimeout := 15 * ticksPerSecond

/-- **A message with two subscriptions of ten seconds outlives its lock**, though the lock is longer than
the bound. -/
theorem two_subscriptions_outlive_lock :
    oneAtATime.documentedWorstCase (10 * ticksPerSecond) < oneAtATime.defaultVisibilityTimeout ∧
    oneAtATime.lockedUntil (Deployment.binary .directSql) 0 = some (15 * ticksPerSecond) ∧
    oneAtATime.batchFinishes [[10 * ticksPerSecond, 10 * ticksPerSecond]] = [20 * ticksPerSecond] ∧
    ¬ oneAtATime.TimeoutSuffices (Deployment.binary .directSql) 2 (10 * ticksPerSecond) 0 := by
  have hbound : oneAtATime.documentedWorstCase (10 * ticksPerSecond) <
      oneAtATime.defaultVisibilityTimeout := by decide
  have huntil : oneAtATime.lockedUntil (Deployment.binary .directSql) 0 =
      some (15 * ticksPerSecond) := by decide
  have hfinishes : oneAtATime.batchFinishes [[10 * ticksPerSecond, 10 * ticksPerSecond]] =
      [20 * ticksPerSecond] := by decide
  refine ⟨hbound, huntil, hfinishes, fun h => ?_⟩
  have htimes : oneAtATime.TimesOf 2 (10 * ticksPerSecond)
      [[10 * ticksPerSecond, 10 * ticksPerSecond]] := by
    constructor <;> decide
  have hlate := h hbound _ huntil _ htimes (20 * ticksPerSecond) (by rw [hfinishes]; exact List.mem_cons_self)
  revert hlate
  decide

/-- Twenty-five messages, ten at a time with four subscriptions at a time, and a lock of 130 seconds. -/
def fourAtATime : OutboxOptions where
  instanceId := text "worker-1"
  batchSize := 25
  maxConcurrentDeliveries := 10
  maxConcurrentSubscriptionDeliveries := 4
  defaultVisibilityTimeout := 130 * ticksPerSecond

/-- With fourteen subscriptions a message, of ten seconds each, the lock is long enough; with eighteen it is
not. -/
theorem timeoutSuffices_iff_four :
    fourAtATime.TimeoutSuffices (Deployment.binary .directSql) 14 (10 * ticksPerSecond) 0 ∧
    ¬ fourAtATime.TimeoutSuffices (Deployment.binary .directSql) 18 (10 * ticksPerSecond) 0 := by
  have huntil : fourAtATime.lockedUntil (Deployment.binary .directSql) 0 =
      some (130 * ticksPerSecond) := by decide
  constructor
  · refine (timeoutSuffices_iff (by decide) (by decide) (by decide)).mpr fun _ _ until_ huntil' => ?_
    cases huntil.symm.trans huntil'
    decide
  · intro hsuffices
    have hcovers := (timeoutSuffices_iff (by decide) (by decide) (by decide)).mp hsuffices (by decide)
      (by decide) _ huntil
    revert hcovers
    decide

end OutboxOptions

end OutboxNet
