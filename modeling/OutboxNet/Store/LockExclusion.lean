import OutboxNet.Store.RowInvariant

/-!
# Mutual exclusion of locks

Calls reach the database one statement at a time, under a clock that does not go back.  A message that
was acquired until `u` is not acquired again before the clock has passed `u`, unless an
`IncrementRetryAsync` on it has succeeded in between: the other write-backs end in a status that no
acquisition accepts, and only an expired lock is released.
-/

set_option autoImplicit false

namespace OutboxNet.OutboxStore

variable {dep : Deployment}

/-- The table and the clock of the database. -/
structure Clocked where
  table : Messages
  now : DateTimeOffset

/-- An event under a clock that does not go back; purges are left out. -/
def ClockedStep (dep : Deployment) (s : Clocked) (e : Event) (s' : Clocked) : Prop :=
  s.now ≤ e.now ∧ s'.now = e.now ∧ (∀ olderThan, e.op ≠ .purgeProcessedMessages olderThan) ∧
    Step dep s.table e s'.table

/-- An `IncrementRetryAsync` on message `k` that returned true. -/
def Event.retried (k : Guid) (e : Event) : Prop :=
  ∃ nextRetryAt error lockedBy, e.op = .writeBack (.retry nextRetryAt error) k lockedBy ∧
    e.result = .answer true

theorem TableOk.clockedSteps {s s' : Clocked} {events : List Event} (h : TableOk s.table)
    (hs : Steps (ClockedStep dep) s events s') : TableOk s'.table :=
  hs.invariant (fun s => TableOk s.table) (fun _ _ _ h hs => h.step hs.2.2.2) h

/-- Message `k`, acquired until `u`, is out of reach: still locked, or the clock has passed `u`, or in
a status no acquisition accepts. -/
def OutOfReach (k : Guid) (u : DateTimeOffset) (s : Clocked) : Prop :=
  TableOk s.table ∧ ∃ m, s.table.find? k = some m ∧
    ((m.status = .processing ∧ m.lockedUntil = some u) ∨ u < s.now ∨ terminal m = true)

/-- An acquisition of a message out of reach happens after `u`. -/
theorem OutOfReach.lt_of_due {k : Guid} {u : DateTimeOffset} {s : Clocked} {now : DateTimeOffset}
    (h : OutOfReach k u s) (hnow : s.now ≤ now) {m : OutboxMessage} (hm : s.table.find? k = some m)
    (hfree : m.status = .pending ∨ m.status = .processing) (hdue : due now m = true) : u < now := by
  obtain ⟨-, m', hm', hcase⟩ := h
  obtain rfl : m = m' := by
    rw [hm] at hm'
    exact Option.some.inj hm'
  rcases hcase with ⟨-, hu⟩ | hlt | hterm
  · simp only [due, hu, Bool.and_eq_true, Option.all_some, decide_eq_true_eq] at hdue
    exact hdue.1
  · exact lt_of_lt_of_le hlt hnow
  · obtain ⟨hpending, hprocessing⟩ := terminal_ne hterm
    exact absurd hfree (not_or.mpr ⟨hpending, hprocessing⟩)

/-- The step lemma: an event that is not a successful retry of `k` keeps `k` out of reach. -/
theorem OutOfReach.step {k : Guid} {u : DateTimeOffset} {s s' : Clocked} {e : Event}
    (h : OutOfReach k u s) (hs : ClockedStep dep s e s') (hretry : ¬ e.retried k) :
    OutOfReach k u s' := by
  obtain ⟨hle, hnow, hpurge, hstep⟩ := hs
  have hok := h.1
  obtain ⟨m, hm, hcase⟩ := h.2
  refine ⟨hok.step hstep, ?_⟩
  have hlater : u < s.now → u < s'.now := fun hlt => by
    rw [hnow]
    exact lt_of_lt_of_le hlt hle
  have hc := hstep.rowChange k
  rw [hm] at hc
  generalize ho' : s'.table.find? k = o' at hc
  cases hc with
  | same =>
      refine ⟨m, rfl, ?_⟩
      rcases hcase with hlock | hlt | hterm
      · exact .inl hlock
      · exact .inr (.inl (hlater hlt))
      · exact .inr (.inr hterm)
  | lock hfree hdue _ =>
      refine ⟨_, rfl, .inr (.inl ?_)⟩
      rw [hnow]
      exact h.lt_of_due hle hm hfree hdue
  | @writeBack kind messageId lockedBy m hop hheld hres =>
      refine ⟨_, rfl, ?_⟩
      cases kind with
      | processed => exact .inr (.inr rfl)
      | failed error => exact .inr (.inr rfl)
      | deadLettered => exact .inr (.inr rfl)
      | retry nextRetryAt error =>
          -- the one write-back that frees the message; it is addressed to `k`
          have hid : messageId = k := by
            simp only [heldBy, Bool.and_eq_true, decide_eq_true_eq] at hheld
            exact hheld.1.symm.trans (Table.find?_key hm)
          exact absurd ⟨_, _, _, hid ▸ hop, hres⟩ hretry
  | release _ hexp =>
      refine ⟨_, rfl, .inr (.inl ?_)⟩
      rcases hcase with ⟨-, hu⟩ | hlt | hterm
      · simp only [expired, hu, Option.any_some, Bool.and_eq_true, decide_eq_true_eq] at hexp
        rw [hnow]
        exact hexp.2
      · exact hlater hlt
      · simp only [expired, Bool.and_eq_true, decide_eq_true_eq] at hexp
        exact absurd hexp.1 (terminal_ne hterm).2
  | purge hop _ => exact absurd hop (hpurge _)

/-- A message just acquired is out of reach. -/
theorem OutOfReach.of_acquired {s s' : Clocked} {e : Event} (hok : TableOk s.table)
    (hs : ClockedStep dep s e s') {m : OutboxMessage} (hm : m ∈ e.result.batch) :
    ∃ u, m.lockedUntil = some u ∧ OutOfReach m.id u s' := by
  obtain ⟨-, -, -, hstep⟩ := hs
  obtain ⟨_, lockedBy, chosen, until_, hacq⟩ := hstep.acquired hm
  obtain ⟨m₀, -, -, rfl, hfind⟩ := hacq.mem_batch hm
  exact ⟨round3 until_, rfl, hok.step hstep, _, hfind, .inl ⟨rfl, rfl⟩⟩

/-- **Mutual exclusion.** Between an acquisition of a message until `u` and the next acquisition of
it, the clock has strictly passed `u` or an `IncrementRetryAsync` on it has returned true. -/
theorem acquire_after_expiry_or_retry {s₀ s₁ s₂ s₃ s₄ : Clocked} {before between : List Event}
    {e₁ e₂ : Event} {m₁ m₂ : OutboxMessage} (hempty : s₀.table = Table.empty)
    (hbefore : Steps (ClockedStep dep) s₀ before s₁) (he₁ : ClockedStep dep s₁ e₁ s₂)
    (hm₁ : m₁ ∈ e₁.result.batch) (hbetween : Steps (ClockedStep dep) s₂ between s₃)
    (he₂ : ClockedStep dep s₃ e₂ s₄) (hm₂ : m₂ ∈ e₂.result.batch) (hid : m₂.id = m₁.id) :
    ∃ u, m₁.lockedUntil = some u ∧ (u < e₂.now ∨ ∃ e ∈ between, e.retried m₁.id) := by
  have hok : TableOk s₁.table := by
    refine TableOk.clockedSteps ?_ hbefore
    rw [hempty]
    exact TableOk.empty
  obtain ⟨u, hu, hreach⟩ := OutOfReach.of_acquired hok he₁ hm₁
  refine ⟨u, hu, ?_⟩
  by_cases hretry : ∃ e ∈ between, e.retried m₁.id
  · exact .inr hretry
  · left
    have hreach₃ : OutOfReach m₁.id u s₃ :=
      hbetween.invariant_of (OutOfReach m₁.id u) (fun e => ¬ e.retried m₁.id)
        (fun _ _ _ hne h hs => h.step hs hne) (fun e he hr => hretry ⟨e, he, hr⟩) hreach
    obtain ⟨hle, -, -, hstep⟩ := he₂
    obtain ⟨_, lockedBy, chosen, until_, hacq⟩ := hstep.acquired hm₂
    obtain ⟨m, hm, hc, -, -⟩ := hacq.mem_batch hm₂
    rw [hid] at hm
    have hrow := Table.find?_mem hm
    exact hreach₃.lt_of_due hle hm (hacq.free m hrow hc) (hacq.due m hrow hc)

/-- A message locked for one second by the hot path, and again by a scan after two. -/
theorem acquire_after_expiry_or_retry_expired :
    let dep := Deployment.binary .efCore
    let m := directRow 1000 ⟨1, text "order.placed", [], none, none, none, none, none, none⟩
    ∃ u, (lockRow (text "a") 10002000 m).lockedUntil = some u ∧
      (u < 20000000 ∨ ∃ e ∈ ([] : List Event), e.retried m.id) ∧
      (Op.run dep 20000000 (.lockNextBatch { instanceId := text "b" } 50 ticksPerSecond (text "b") []
        [lockRow (text "a") 10002000 m]) ⟨[lockRow (text "a") 10002000 m], by simp⟩).1.batch =
          [lockRow (text "b") 30000000 m] := by
  intro dep m
  let t₁ : Messages := ⟨[m], by simp⟩
  let t₂ : Messages := ⟨[lockRow (text "a") 10002000 m], by simp⟩
  let publish := Op.publish ⟨1, text "order.placed", [], none, none, none, none, none, none⟩
  let hot := Op.tryLockById 1 ticksPerSecond (text "a")
  let cold := Op.lockNextBatch { instanceId := text "b" } 50 ticksPerSecond (text "b") [] t₂.rows
  let e₀ : Event := ⟨1000, publish, .unit⟩
  let e₁ : Event := ⟨2000, hot, .locked [lockRow (text "a") 10002000 m]⟩
  let e₂ : Event := ⟨20000000, cold, .locked [lockRow (text "b") 30000000 m]⟩
  have h₀ : ClockedStep dep ⟨Table.empty, 0⟩ e₀ ⟨t₁, 1000⟩ :=
    ⟨by decide, rfl, nofun, trivial, by decide⟩
  have h₁ : ClockedStep dep ⟨t₁, 1000⟩ e₁ ⟨t₂, 2000⟩ :=
    ⟨by decide, rfl, nofun, trivial, by decide⟩
  have h₂ : ClockedStep dep ⟨t₂, 2000⟩ e₂ ⟨⟨[lockRow (text "b") 30000000 m], by simp⟩, 20000000⟩ :=
    ⟨by decide, rfl, nofun, List.Perm.refl _, by decide⟩
  have hm₁ : lockRow (text "a") 10002000 m ∈ e₁.result.batch := List.mem_cons_self
  have hm₂ : lockRow (text "b") 30000000 m ∈ e₂.result.batch := List.mem_cons_self
  obtain ⟨u, hu, hcase⟩ :=
    acquire_after_expiry_or_retry rfl (.cons h₀ (.nil _)) h₁ hm₁ (.nil _) h₂ hm₂ rfl
  exact ⟨u, hu, hcase, by decide⟩

end OutboxNet.OutboxStore
