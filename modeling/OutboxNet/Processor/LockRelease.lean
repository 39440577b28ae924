import OutboxNet.Lib.Threads
import OutboxNet.Processor.HotCold
import OutboxNet.Processor.Noninterference

/-!
# The throttle of `ReleaseExpiredLocksAsync`

Any number of calls of `ProcessBatchAsync` on one pipeline, side by side.  Each reads the clock, reads
`_lastLockReleaseTicks`, and, when 30 seconds lie between the two, exchanges the value for its reading of
the clock.  Each of the three is atomic; between them others may have read and stored, and the clock may
go back.

An exchange succeeds on the value its caller has compared with, and puts a value in its place that is 30
seconds or more later.  So the values only rise, no value comes back to be taken for an old one, and a
caller whose exchange fails has been overtaken by one whose exchange has not.
-/

set_option autoImplicit false

namespace OutboxNet

/-- The calls of the throttle. -/
def BatchCall.ofThrottle : BatchCall → Bool
  | .utcNow => true
  | .readLastLockRelease => true
  | .compareExchangeLastLockRelease _ _ => true
  | .releaseExpiredLocks => true
  | _ => false

namespace LockRelease

/-! ## The field -/

/-- The value that a call stores in the field: that of an exchange which has found its comparand. -/
def stored? : (Σ c : BatchCall, c.Ans) → Option ℤ
  | ⟨.compareExchangeLastLockRelease value comparand, (found : ℤ)⟩ =>
      if found = comparand then some value else none
  | _ => none

@[simp] theorem stored?_compareExchange (value comparand found : ℤ) :
    stored? ⟨.compareExchangeLastLockRelease value comparand, found⟩ =
      if found = comparand then some value else none := rfl

/-- The field `_lastLockReleaseTicks` under the calls of a batch.  The calls that do not go to it get any
answer. -/
inductive Exec : (c : BatchCall) → ℤ → c.Ans → ℤ → Prop
  | read (lastTicks : ℤ) : Exec .readLastLockRelease lastTicks lastTicks lastTicks
  | compareExchange (value comparand lastTicks : ℤ) :
      Exec (.compareExchangeLastLockRelease value comparand) lastTicks lastTicks
        (if lastTicks = comparand then value else lastTicks)
  | other {c : BatchCall} {a : c.Ans} {lastTicks : ℤ} :
      c ≠ .readLastLockRelease →
      (∀ value comparand, c ≠ .compareExchangeLastLockRelease value comparand) →
      Exec c lastTicks a lastTicks

/-- The field holds what was stored last. -/
theorem Exec.eq_getD {c : BatchCall} {a : c.Ans} {lastTicks lastTicks' : ℤ}
    (h : Exec c lastTicks a lastTicks') : lastTicks' = (stored? ⟨c, a⟩).getD lastTicks := by
  cases h with
  | read => rfl
  | compareExchange value comparand =>
      rw [stored?_compareExchange]
      split <;> rfl
  | other hread hexchange =>
      cases c with
      | compareExchangeLastLockRelease value comparand => exact absurd rfl (hexchange value comparand)
      | _ => rfl

theorem Exec.of_read {a lastTicks lastTicks' : ℤ}
    (h : Exec .readLastLockRelease lastTicks a lastTicks') : a = lastTicks := by
  cases h with
  | read => rfl
  | other hread => exact absurd rfl hread

theorem Exec.of_compareExchange {value comparand found lastTicks lastTicks' : ℤ}
    (h : Exec (.compareExchangeLastLockRelease value comparand) lastTicks found lastTicks') :
    found = lastTicks := by
  cases h with
  | compareExchange => rfl
  | other _ hexchange => exact absurd rfl (hexchange value comparand)

/-! ## What one caller does -/

/-- Where a call of `ProcessBatchAsync` is in its throttle; it goes to exchange only when a release is
due. -/
inductive Stage : Type
  | entered
  | clockRead (nowTicks : ℤ)
  | due (nowTicks lastTicks : ℤ)
      (hdue : nowTicks - lastTicks ≥ Pipeline.releaseExpiredLocksInterval)
  | won
  | past
deriving DecidableEq

/-- The protocol of a caller. -/
inductive Trans : (c : BatchCall) → Stage → c.Ans → Stage → Prop
  | utcNow (nowTicks : ℤ) : Trans .utcNow .entered nowTicks (.clockRead nowTicks)
  | due {nowTicks lastTicks : ℤ}
      (hdue : nowTicks - lastTicks ≥ Pipeline.releaseExpiredLocksInterval) :
      Trans .readLastLockRelease (.clockRead nowTicks) lastTicks (.due nowTicks lastTicks hdue)
  | early {nowTicks lastTicks : ℤ} : ¬ nowTicks - lastTicks ≥ Pipeline.releaseExpiredLocksInterval →
      Trans .readLastLockRelease (.clockRead nowTicks) lastTicks .past
  | won {nowTicks lastTicks : ℤ}
      (hdue : nowTicks - lastTicks ≥ Pipeline.releaseExpiredLocksInterval) :
      Trans (.compareExchangeLastLockRelease nowTicks lastTicks) (.due nowTicks lastTicks hdue)
        lastTicks .won
  | lost {nowTicks lastTicks found : ℤ}
      (hdue : nowTicks - lastTicks ≥ Pipeline.releaseExpiredLocksInterval) :
      found ≠ lastTicks →
      Trans (.compareExchangeLastLockRelease nowTicks lastTicks) (.due nowTicks lastTicks hdue) found
        .past
  | release (a : BatchCall.releaseExpiredLocks.Ans) : Trans .releaseExpiredLocks .won a .past
  | other {c : BatchCall} {a : c.Ans} : c.ofThrottle = false → Trans c .past a .past

/-- A program from stage `s` of the throttle on. -/
abbrev Follows {α : Type} (q : Prog BatchCall BatchCall.Ans α) (s : Stage) : Prop :=
  q.Conforms Trans (fun _ s' => s' = .past) s

/-- The throttle follows its protocol. -/
theorem releaseExpiredLocksAsync_follows :
    Follows Pipeline.releaseExpiredLocksAsync.run .entered := by
  refine fun (nowTicks : ℤ) => ⟨.clockRead nowTicks, .utcNow nowTicks, fun (lastTicks : ℤ) => ?_⟩
  show ∃ s', Trans .readLastLockRelease (.clockRead nowTicks) lastTicks s' ∧
    Follows (if nowTicks - lastTicks ≥ Pipeline.releaseExpiredLocksInterval then _ else _ :
      BatchAsync Unit).run s'
  by_cases hdue : nowTicks - lastTicks ≥ Pipeline.releaseExpiredLocksInterval
  · rw [if_pos hdue]
    refine ⟨.due nowTicks lastTicks hdue, .due hdue, fun (found : ℤ) => ?_⟩
    show ∃ s', Trans (.compareExchangeLastLockRelease nowTicks lastTicks)
      (.due nowTicks lastTicks hdue) found s' ∧
      Follows (if found = lastTicks then _ else _ : BatchAsync Unit).run s'
    by_cases hfound : found = lastTicks
    · rw [if_pos hfound]
      subst hfound
      exact ⟨.won, .won hdue, fun a => ⟨.past, .release a, rfl⟩⟩
    · rw [if_neg hfound]
      exact ⟨.past, .lost hdue hfound, rfl⟩
  · rw [if_neg hdue]
    exact ⟨.past, .early hdue, rfl⟩

end LockRelease

namespace Pipeline

variable {p : Pipeline} {hasPublisher : Bool} {schedule : BatchSchedule} {lockedBy : Text}
variable {messages : List OutboxMessage}

/-- The call is none of the throttle. -/
def Elsewhere (c : BatchCall) : Prop := c.ofThrottle = false

theorem processQueueMediatedAsync_elsewhere :
    (p.processQueueMediatedAsync lockedBy messages).run.Only Elsewhere := by
  induction messages with
  | nil => trivial
  | cons first messages ih =>
      rw [processQueueMediatedAsync_cons]
      refine Prog.Only.bindThrowing ?_ fun _ => ih
      refine Prog.Only.mapCalls ?_ (Prog.only_true _)
      exact fun _ _ => rfl

theorem processDirectDeliveryAsync_elsewhere {cache : SubscriptionCache} :
    (p.processDirectDeliveryAsync schedule lockedBy cache messages).run.Only Elsewhere := by
  unfold processDirectDeliveryAsync
  cases parallelOptions p.options.maxConcurrentDeliveries with
  | error e => trivial
  | ok limit =>
      refine Parallel.forEachAsync_only BatchCall.nonempty_ans (fun m _ => ?_) _ _ _
      refine Prog.Only.mapCalls ?_ (Prog.only_true _)
      exact fun _ _ => rfl

/-- Past the throttle, a batch makes none of its calls. -/
theorem processLockedBatchAsync_elsewhere :
    (p.processLockedBatchAsync hasPublisher schedule messages).run.Only Elsewhere := by
  unfold processLockedBatchAsync
  split
  · exact processQueueMediatedAsync_elsewhere
  · refine Prog.Only.bindThrowing ?_ fun cache => processDirectDeliveryAsync_elsewhere
    refine (foldlM_cacheMessageAsync_asks messages []).mono ?_
    rintro c ⟨message, rfl⟩
    rfl

/-- **A batch follows the protocol of the throttle.** -/
theorem processBatchAsync_follows (skipIds : Option (List Guid)) :
    LockRelease.Follows (p.processBatchAsync hasPublisher schedule skipIds).run .entered := by
  unfold processBatchAsync
  refine Prog.Conforms.bindThrowing LockRelease.releaseExpiredLocksAsync_follows ?_ fun _ _ h => h
  rintro _ s rfl
  refine Prog.Only.conforms (P := Elsewhere) (fun _ _ hc => .other hc) ?_
  refine Prog.Only.bindThrowing ⟨rfl, fun _ => trivial⟩ fun messages => ?_
  split
  · trivial
  refine Prog.Only.bindThrowing ⟨rfl, fun _ => trivial⟩ fun _ => ?_
  exact Prog.Only.bindThrowing processLockedBatchAsync_elsewhere fun _ => trivial

end Pipeline

namespace LockRelease

/-! ## Many callers -/

/-- The programs that run: calls of `ProcessBatchAsync` on the pipeline. -/
def Starts (p : Pipeline) (q : Prog BatchCall BatchCall.Ans (Except Exn ℕ)) : Prop :=
  ∃ hasPublisher schedule skipIds, q = (p.processBatchAsync hasPublisher schedule skipIds).run

/-- The callers, and the field. -/
abbrev Callers := Threads.Config BatchCall BatchCall.Ans (Except Exn ℕ) ℤ

abbrev Event := Threads.Event BatchCall BatchCall.Ans

/-- A run of any number of callers. -/
abbrev Run (p : Pipeline) : Callers → List Event → Callers → Prop := Threads.Run Exec (Starts p)

/-- No caller yet; the field has the ticks of `DateTimeOffset.MinValue`. -/
def initial : Callers := ⟨0, []⟩

/-- The value stored by a move. -/
def storedBy : Event → Option ℤ
  | .start => none
  | .call _ c a => stored? ⟨c, a⟩

/-- The values stored in the field, in their order. -/
def written (acts : List Event) : List ℤ := acts.filterMap storedBy

/-- The exchanges of caller `i` that succeeded. -/
def exchanges (i : ℕ) (acts : List Event) : ℕ :=
  (Threads.callsOf i acts).countP fun e => (stored? e).isSome

/-- The calls of `ReleaseExpiredLocksAsync` caller `i` has made. -/
def releases (i : ℕ) (acts : List Event) : ℕ :=
  (Threads.callsOf i acts).countP fun e => e.1 = .releaseExpiredLocks

variable {p : Pipeline} {w w' : Callers} {act : Event} {acts : List Event}

theorem stored?_eq_some {e : Σ c : BatchCall, c.Ans} {value : ℤ} :
    stored? e = some value ↔
      ∃ comparand : ℤ, e = ⟨.compareExchangeLastLockRelease value comparand, comparand⟩ := by
  constructor
  · intro h
    obtain ⟨c, a⟩ := e
    cases c with
    | compareExchangeLastLockRelease value' comparand =>
        change ℤ at a
        rw [stored?_compareExchange] at h
        split at h
        next hfound =>
          cases h
          exact ⟨comparand, by rw [hfound]⟩
        · cases h
    | _ => cases h
  · rintro ⟨comparand, rfl⟩
    rw [stored?_compareExchange, if_pos rfl]

theorem starts_follows {q : Prog BatchCall BatchCall.Ans (Except Exn ℕ)} (h : Starts p q) :
    Follows q .entered := by
  obtain ⟨hasPublisher, schedule, skipIds, rfl⟩ := h
  exact Pipeline.processBatchAsync_follows skipIds

/-- What a move does to the field. -/
theorem move_state (h : Threads.Move Exec (Starts p) w act w') :
    w'.state = (storedBy act).getD w.state := by
  cases h with
  | start => rfl
  | call _ hexec => exact hexec.eq_getD

/-! ## The values rise -/

/-- An exchange is offered a value that is 30 seconds or more after its comparand. -/
def Due (c : BatchCall) : Prop := ∀ value comparand,
  c = .compareExchangeLastLockRelease value comparand →
    comparand + Pipeline.releaseExpiredLocksInterval ≤ value

theorem Trans.due_call {c : BatchCall} {s s' : Stage} {a : c.Ans} (h : Trans c s a s') : Due c := by
  rintro value comparand rfl
  cases h with
  | won hdue => omega
  | lost hdue => omega
  | other hc => cases hc

/-- Every exchange of a run is due. -/
theorem due_of_mem (hrun : Run p initial acts w) {i : ℕ} {c : BatchCall} {a : c.Ans}
    (hmem : .call i c a ∈ acts) : Due c := by
  have hstarts : ∀ q, Starts p q → q.Only Due := fun q hq =>
    (starts_follows hq).only BatchCall.nonempty_ans fun _ _ _ _ h => h.due_call
  exact (Threads.calls_only hstarts hrun (by simp [initial])).2 i c a hmem

/-- The values stored, after the first, each 30 seconds or more after the one before; the last is the
one in the field. -/
structure Spaced (acts : List Event) (lastTicks : ℤ) : Prop where
  chain : (0 :: written acts).IsChain fun last next =>
    last + Pipeline.releaseExpiredLocksInterval ≤ next
  last : (0 :: written acts).getLast? = some lastTicks

theorem Spaced.step (h : Spaced acts w.state) (hmove : Threads.Move Exec (Starts p) w act w')
    (hdue : ∀ i c a, act = .call i c a → Due c) : Spaced (acts ++ [act]) w'.state := by
  have hstate := move_state hmove
  have happend : written (acts ++ [act]) = written acts ++ (storedBy act).toList := by
    unfold written
    rw [List.filterMap_append]
    cases hstored : storedBy act <;> simp [hstored]
  cases hstored : storedBy act with
  | none =>
      rw [hstored] at hstate happend
      have hsame : written (acts ++ [act]) = written acts := by simpa using happend
      have hlast : w'.state = w.state := hstate
      constructor
      · rw [hsame]
        exact h.chain
      · rw [hsame, hlast]
        exact h.last
  | some value =>
      rw [hstored] at hstate happend
      have hvalue : w'.state = value := hstate
      have hnext : w.state + Pipeline.releaseExpiredLocksInterval ≤ value := by
        cases hmove with
        | start => cases hstored
        | @call i c k a s hi hexec =>
            obtain ⟨comparand, heq⟩ := stored?_eq_some.mp hstored
            cases heq
            have hfound := hexec.of_compareExchange
            have hle := hdue _ _ _ rfl value comparand rfl
            rwa [hfound] at hle
      have hcons : (0 :: written (acts ++ [act])) = (0 :: written acts) ++ [value] := by
        rw [happend]
        rfl
      constructor
      · rw [hcons, List.isChain_append]
        refine ⟨h.chain, List.isChain_singleton value, ?_⟩
        intro last hlast next hnext'
        rw [h.last] at hlast
        cases hlast
        cases hnext'
        exact hnext
      · rw [hcons, List.getLast?_concat, hvalue]

/-- **The values rise by 30 seconds or more.** -/
theorem spaced_run (hrun : Run p initial acts w) : Spaced acts w.state := by
  have hinvariant := hrun.invariant_history (fun acts w =>
    (∀ i c a, .call i c a ∈ acts → Due c) → Spaced acts w.state) ?_
    (fun _ => ⟨List.isChain_singleton 0, rfl⟩)
  · exact hinvariant fun i c a hmem => due_of_mem hrun hmem
  intro acts w act w' h hmove hdue
  refine (h fun i c a hmem => hdue i c a (List.mem_append_left _ hmem)).step hmove ?_
  rintro i c a rfl
  exact hdue i c a (List.mem_append_right _ List.mem_cons_self)

/-! ## What is stored was read from the clock -/

/-- The reading of the clock a caller has in hand. -/
def Stage.reading? : Stage → Option ℤ
  | .clockRead nowTicks => some nowTicks
  | .due nowTicks _ _ => some nowTicks
  | _ => none

/-- A reading in hand has just been made, or was in hand before. -/
theorem Trans.reading {c : BatchCall} {s s' : Stage} {a : c.Ans} (h : Trans c s a s') {value : ℤ}
    (hvalue : s'.reading? = some value) :
    (⟨c, a⟩ : Σ c : BatchCall, c.Ans) = ⟨.utcNow, value⟩ ∨ s.reading? = some value := by
  cases h with
  | utcNow nowTicks =>
      cases hvalue
      exact .inl rfl
  | due => exact .inr hvalue
  | _ => cases hvalue

/-- What a caller stores is the reading in its hand. -/
theorem Trans.stored {c : BatchCall} {s s' : Stage} {a : c.Ans} (h : Trans c s a s') {value : ℤ}
    (hvalue : stored? ⟨c, a⟩ = some value) : s.reading? = some value := by
  obtain ⟨comparand, heq⟩ := stored?_eq_some.mp hvalue
  cases heq
  cases h with
  | won => rfl
  | lost => rfl
  | other hc => cases hc

theorem reading_path {log : List (Σ c : BatchCall, c.Ans)} {s : Stage}
    (h : Steps (fun s (e : Σ c : BatchCall, c.Ans) s' => Trans e.1 s e.2 s') .entered log s) :
    (∀ value : ℤ, s.reading? = some value → ⟨.utcNow, value⟩ ∈ log) ∧
      ∀ e ∈ log, ∀ value : ℤ, stored? e = some value → ⟨.utcNow, value⟩ ∈ log := by
  refine h.invariant_history (fun log s =>
    (∀ value : ℤ, s.reading? = some value → ⟨.utcNow, value⟩ ∈ log) ∧
      ∀ e ∈ log, ∀ value : ℤ, stored? e = some value → ⟨.utcNow, value⟩ ∈ log) ?_
    ⟨nofun, List.forall_mem_nil _⟩
  rintro log s ⟨c, a⟩ s' ⟨hreading, hstored⟩ (htrans : Trans c s a s')
  constructor
  · intro value hvalue
    rcases htrans.reading hvalue with heq | hbefore
    · rw [heq]
      exact List.mem_append_right _ List.mem_cons_self
    · exact List.mem_append_left _ (hreading value hbefore)
  · intro e he value hvalue
    rcases List.mem_append.mp he with he | he
    · exact List.mem_append_left _ (hstored e he value hvalue)
    · rw [List.mem_singleton.mp he] at hvalue
      exact List.mem_append_left _ (hreading value (htrans.stored hvalue))

/-- The field holds a reading of the clock, once one is stored. -/
theorem written_reading (hrun : Run p initial acts w) {value : ℤ} (hvalue : value ∈ written acts) :
    ∃ i, .call i .utcNow value ∈ acts := by
  obtain ⟨act, hact, hstored⟩ := List.mem_filterMap.mp hvalue
  cases act with
  | start => cases hstored
  | call i c a =>
      -- the caller is one of the run
      have hcaller : i < w.threads.length := by
        by_contra hge
        have hnone := Threads.callsOf_eq_nil hrun (Nat.le_of_not_lt hge)
        rw [← Threads.mem_callsOf, hnone] at hact
        cases hact
      obtain ⟨s, hpath, -⟩ := Threads.follows (fun _ => starts_follows) hrun
        (List.getElem?_eq_getElem hcaller)
      exact ⟨i, Threads.mem_callsOf.mp
        ((reading_path hpath).2 _ (Threads.mem_callsOf.mpr hact) value hstored)⟩

/-- The field stays within the range of dates, so that no difference leaves 64 bits. -/
theorem field_range (hrun : Run p initial acts w)
    (hclock : ∀ i (nowTicks : ℤ), .call i .utcNow nowTicks ∈ acts → 0 ≤ nowTicks ∧ nowTicks ≤ maxTicks) :
    0 ≤ w.state ∧ w.state ≤ maxTicks := by
  have hlast := List.mem_of_getLast? (spaced_run hrun).last
  rcases List.mem_cons.mp hlast with hzero | hwritten
  · rw [hzero]
    exact ⟨le_rfl, by decide⟩
  · obtain ⟨i, hread⟩ := written_reading hrun hwritten
    exact hclock i w.state hread

/-! ## Who releases -/

/-- The call a stage waits for, except the last, which waits for none of the throttle. -/
def Stage.call? : Stage → Option BatchCall
  | .entered => some .utcNow
  | .clockRead _ => some .readLastLockRelease
  | .due nowTicks lastTicks _ => some (.compareExchangeLastLockRelease nowTicks lastTicks)
  | .won => some .releaseExpiredLocks
  | .past => none

theorem Follows.next_eq {α : Type} {q : Prog BatchCall BatchCall.Ans α} {s : Stage}
    (h : Follows q s) (hs : s ≠ .past) : q.next? = s.call? := by
  cases q with
  | ret r => exact absurd h hs
  | call c k =>
      obtain ⟨a⟩ := c.nonempty_ans
      obtain ⟨s', htrans, -⟩ := h a
      cases htrans with
      | other => exact absurd rfl hs
      | _ => rfl

/-- Past the throttle nobody is about to make one of its calls. -/
theorem Follows.next_past {α : Type} {q : Prog BatchCall BatchCall.Ans α} (h : Follows q .past)
    {c : BatchCall} (hc : q.next? = some c) : c.ofThrottle = false := by
  cases q with
  | ret r => cases hc
  | call c' k =>
      cases hc
      obtain ⟨a⟩ := c.nonempty_ans
      obtain ⟨s', htrans, -⟩ := h a
      cases htrans with
      | other hc => exact hc

/-- The successful exchanges and the releases of one caller that is at stage `s`. -/
inductive Counted (exchanges releases : ℕ) : Stage → Prop
  | before {s : Stage} : s ≠ .won → s ≠ .past → exchanges = 0 → releases = 0 →
      Counted exchanges releases s
  | won : exchanges = 1 → releases = 0 → Counted exchanges releases .won
  | past : exchanges ≤ 1 → releases = exchanges → Counted exchanges releases .past

/-- A successful exchange is made by the call that wins, and the next call is the release. -/
theorem Counted.step {exchanges releases : ℕ} {c : BatchCall} {s s' : Stage} {a : c.Ans}
    (h : Counted exchanges releases s) (htrans : Trans c s a s') :
    Counted (exchanges + if (stored? ⟨c, a⟩).isSome = true then 1 else 0)
      (releases + if decide (c = .releaseExpiredLocks) = true then 1 else 0) s' := by
  cases htrans with
  | utcNow nowTicks =>
      cases h with
      | before _ _ hexchanges hreleases => exact .before nofun nofun hexchanges hreleases
  | due hdue =>
      cases h with
      | before _ _ hexchanges hreleases => exact .before nofun nofun hexchanges hreleases
  | early hdue =>
      cases h with
      | before _ _ hexchanges hreleases =>
          subst hexchanges hreleases
          exact .past (Nat.zero_le 1) rfl
  | won hdue =>
      cases h with
      | before _ _ hexchanges hreleases =>
          subst hexchanges hreleases
          refine .won ?_ rfl
          rw [stored?_compareExchange, if_pos rfl]
          rfl
  | lost hdue hfound =>
      cases h with
      | before _ _ hexchanges hreleases =>
          subst hexchanges hreleases
          rw [stored?_compareExchange, if_neg hfound]
          exact .past (Nat.zero_le 1) rfl
  | release =>
      cases h with
      | before hne => exact absurd rfl hne
      | won hexchanges hreleases =>
          subst hexchanges hreleases
          exact .past (Nat.le_refl 1) rfl
  | other hc =>
      cases h with
      | before _ hne => exact absurd rfl hne
      | past hexchanges hreleases =>
          subst hreleases
          have hstored : (stored? ⟨c, a⟩).isSome = false := by
            cases c with
            | compareExchangeLastLockRelease => cases hc
            | _ => rfl
          have hrelease : c ≠ .releaseExpiredLocks := by
            rintro rfl
            cases hc
          simp only [hstored, hrelease, decide_false, Bool.false_eq_true, if_false, Nat.add_zero]
          exact .past hexchanges rfl

theorem counted_path {log : List (Σ c : BatchCall, c.Ans)} {s : Stage}
    (h : Steps (fun s (e : Σ c : BatchCall, c.Ans) s' => Trans e.1 s e.2 s') .entered log s) :
    Counted (log.countP fun e => (stored? e).isSome)
      (log.countP fun e => e.1 = .releaseExpiredLocks) s := by
  refine h.invariant_history (fun log s => Counted (log.countP fun e => (stored? e).isSome)
    (log.countP fun e => e.1 = .releaseExpiredLocks) s) ?_ (.before nofun nofun rfl rfl)
  rintro log s ⟨c, a⟩ s' hcounted (htrans : Trans c s a s')
  rw [List.countP_append, List.countP_append, List.countP_singleton, List.countP_singleton]
  exact hcounted.step htrans

/-- **The callers whose exchange succeeds release**: each has made as many releases as successful
exchanges, or its next call is the release; and it succeeds once at most. -/
theorem released_run (hrun : Run p initial acts w) {i : ℕ}
    {q : Prog BatchCall BatchCall.Ans (Except Exn ℕ)} (hq : w.threads[i]? = some q) :
    releases i acts + (if q.next? = some .releaseExpiredLocks then 1 else 0) = exchanges i acts ∧
      exchanges i acts ≤ 1 := by
  obtain ⟨s, hpath, (hfollows : Follows q s)⟩ := Threads.follows (fun _ => starts_follows) hrun hq
  have hcounted := counted_path hpath
  unfold releases exchanges
  cases hcounted with
  | before hwon hpast hexchanges hreleases =>
      have hnext : q.next? ≠ some .releaseExpiredLocks := by
        rw [hfollows.next_eq hpast]
        cases s with
        | won => exact absurd rfl hwon
        | _ => nofun
      rw [if_neg hnext, hexchanges, hreleases]
      exact ⟨rfl, Nat.zero_le 1⟩
  | won hexchanges hreleases =>
      have hnext : q.next? = some .releaseExpiredLocks := hfollows.next_eq nofun
      rw [if_pos hnext, hexchanges, hreleases]
      exact ⟨rfl, Nat.le_refl 1⟩
  | past hexchanges hreleases =>
      have hnext : q.next? ≠ some .releaseExpiredLocks := by
        intro hnext
        cases hfollows.next_past hnext
      rw [if_neg hnext, hreleases]
      exact ⟨rfl, hexchanges⟩

/-! ## Some caller succeeds -/

/-- The caller is at the second or the third step of its throttle. -/
def Deciding (q : Prog BatchCall BatchCall.Ans (Except Exn ℕ)) : Prop :=
  q.next? = some .readLastLockRelease ∨
    ∃ value comparand, q.next? = some (.compareExchangeLastLockRelease value comparand)

/-- Caller `i` has stored `value`. -/
def StoredIn (i : ℕ) (value : ℤ) (acts : List Event) : Prop :=
  ∃ e ∈ Threads.callsOf i acts, stored? e = some value

/-- A caller has read the clock, and the field has the value it had then. -/
structure Racing (i : ℕ) (nowTicks lastTicks : ℤ) (w : Callers) : Prop where
  state : w.state = lastTicks
  stage : ∃ q s, w.threads[i]? = some q ∧ Follows q s ∧
    (s = .clockRead nowTicks ∨ ∃ hdue, s = .due nowTicks lastTicks hdue)

variable {i : ℕ} {nowTicks lastTicks : ℤ}

/-- A racing caller is not past its throttle. -/
theorem Racing.deciding (h : Racing i nowTicks lastTicks w)
    {q : Prog BatchCall BatchCall.Ans (Except Exn ℕ)} (hq : w.threads[i]? = some q) : Deciding q := by
  obtain ⟨q', s, hq', hfollows, hs⟩ := h.stage
  rw [hq] at hq'
  cases hq'
  rcases hs with rfl | ⟨hdue, rfl⟩
  · exact .inl (hfollows.next_eq nofun)
  · exact .inr ⟨nowTicks, lastTicks, hfollows.next_eq nofun⟩

/-- Reading the clock begins the race. -/
theorem Racing.begin_ (hrun : Run p initial acts w)
    (hmove : Threads.Move Exec (Starts p) w (.call i .utcNow nowTicks) w') :
    Racing i nowTicks w.state w' := by
  refine ⟨move_state hmove, ?_⟩
  cases hmove with
  | @call _ _ k _ s hi hexec =>
      obtain ⟨stage, -, hfollows⟩ := Threads.follows (fun _ => starts_follows) hrun hi
      obtain ⟨stage', htrans, hk⟩ := hfollows nowTicks
      refine ⟨k nowTicks, stage', ?_, hk, .inl ?_⟩
      · exact List.getElem?_set_self (List.getElem?_eq_some_iff.mp hi).1
      · cases htrans with
        | utcNow => rfl
        | other hc => cases hc

/-- One move of the race: it goes on, or the caller has stored its reading, or another caller has stored
one. -/
theorem Racing.step (h : Racing i nowTicks lastTicks w)
    (hdue : nowTicks - lastTicks ≥ Pipeline.releaseExpiredLocksInterval)
    (hmove : Threads.Move Exec (Starts p) w act w') :
    Racing i nowTicks lastTicks w' ∨ StoredIn i nowTicks [act] ∨
      ∃ j, j ≠ i ∧ ∃ value, StoredIn j value [act] := by
  obtain ⟨hstate, q, s, hq, hfollows, hs⟩ := h
  have hlt := (List.getElem?_eq_some_iff.mp hq).1
  cases hmove with
  | start hnew =>
      refine .inl ⟨hstate, q, s, ?_, hfollows, hs⟩
      show (w.threads ++ [_])[i]? = some q
      rw [List.getElem?_append_left hlt]
      exact hq
  | @call j c k a state hj hexec =>
      have hnext := hexec.eq_getD
      by_cases hji : j = i
      · -- a step of the caller itself
        subst hji
        rw [hq] at hj
        cases hj
        obtain ⟨s', htrans, hk⟩ := hfollows a
        have hset : (w.threads.set j (k a))[j]? = some (k a) := List.getElem?_set_self hlt
        rcases hs with rfl | ⟨_, rfl⟩
        · cases htrans with
          | due hdue' =>
              have hread := hexec.of_read
              rw [hstate] at hread
              subst hread
              exact .inl ⟨hnext.trans hstate, _, _, hset, hk, .inr ⟨hdue', rfl⟩⟩
          | early hearly =>
              have hread := hexec.of_read
              rw [hstate] at hread
              subst hread
              exact absurd hdue hearly
        · cases htrans with
          | won =>
              refine .inr (.inl ⟨_, ?_, stored?_eq_some.mpr ⟨lastTicks, rfl⟩⟩)
              exact Threads.mem_callsOf.mpr (List.mem_singleton_self _)
          | lost _ hne => exact absurd (hexec.of_compareExchange.trans hstate) hne
      · -- a step of another caller
        have hset : (w.threads.set j (k a))[i]? = some q := by
          rw [List.getElem?_set_ne hji]
          exact hq
        cases hstored : stored? ⟨c, a⟩ with
        | none =>
            rw [hstored] at hnext
            exact .inl ⟨hnext.trans hstate, q, s, hset, hfollows, hs⟩
        | some value =>
            refine .inr (.inr ⟨j, hji, value, ⟨c, a⟩, ?_, hstored⟩)
            exact Threads.mem_callsOf.mpr (List.mem_singleton_self _)

theorem StoredIn.append_left {value : ℤ} (h : StoredIn i value acts) (acts' : List Event) :
    StoredIn i value (acts ++ acts') := by
  obtain ⟨e, he, hvalue⟩ := h
  exact ⟨e, by rw [Threads.callsOf_append]; exact List.mem_append_left _ he, hvalue⟩

theorem StoredIn.append_right {value : ℤ} (acts : List Event) {acts' : List Event}
    (h : StoredIn i value acts') : StoredIn i value (acts ++ acts') := by
  obtain ⟨e, he, hvalue⟩ := h
  exact ⟨e, by rw [Threads.callsOf_append]; exact List.mem_append_right _ he, hvalue⟩

/-- The race goes on until the caller has stored its reading or another caller has stored one. -/
theorem Racing.run (h : Racing i nowTicks lastTicks w)
    (hdue : nowTicks - lastTicks ≥ Pipeline.releaseExpiredLocksInterval)
    (hrun : Run p w acts w') :
    Racing i nowTicks lastTicks w' ∨ StoredIn i nowTicks acts ∨
      ∃ j, j ≠ i ∧ ∃ value, StoredIn j value acts := by
  refine hrun.invariant_history (fun acts w => Racing i nowTicks lastTicks w ∨
    StoredIn i nowTicks acts ∨ ∃ j, j ≠ i ∧ ∃ value, StoredIn j value acts) ?_ (.inl h)
  rintro acts w act w' (hracing | hown | ⟨j, hne, value, hother⟩) hmove
  · rcases hracing.step hdue hmove with hracing | hown | ⟨j, hne, value, hother⟩
    · exact .inl hracing
    · exact .inr (.inl (hown.append_right acts))
    · exact .inr (.inr ⟨j, hne, value, hother.append_right acts⟩)
  · exact .inr (.inl (hown.append_left [act]))
  · exact .inr (.inr ⟨j, hne, value, hother.append_left [act]⟩)

/-- What the throttle keeps to, after the run `acts` to `w`.  The values stored rise by 30 seconds or
more.  A caller releases exactly when its exchange has succeeded: the release is its next call, and once it
has ended the numbers agree.  And when a caller has read a clock 30 seconds or more past the field, and
has decided, then it has stored its reading unless another caller has stored one meanwhile. -/
structure Throttled (p : Pipeline) (acts : List Event) (w : Callers) : Prop where
  spaced : Spaced acts w.state
  released : ∀ i q, w.threads[i]? = some q →
    releases i acts + (if q.next? = some .releaseExpiredLocks then 1 else 0) = exchanges i acts ∧
      exchanges i acts ≤ 1
  stored : ∀ (i : ℕ) (nowTicks : ℤ) (w₁ w₂ : Callers) (acts' : List Event)
    (q : Prog BatchCall BatchCall.Ans (Except Exn ℕ)),
    Threads.Move Exec (Starts p) w (.call i .utcNow nowTicks) w₁ →
    nowTicks - w.state ≥ Pipeline.releaseExpiredLocksInterval →
    Run p w₁ acts' w₂ → w₂.threads[i]? = some q → ¬ Deciding q →
    StoredIn i nowTicks acts' ∨ ∃ j, j ≠ i ∧ ∃ value, StoredIn j value acts'

/-- **Locks are released once in 30 seconds.** Any number of calls of `ProcessBatchAsync` on one pipeline,
with any readings of the clock, any answers to their other calls and any interleaving of their steps. -/
theorem throttled (hrun : Run p initial acts w) : Throttled p acts w where
  spaced := spaced_run hrun
  released _ _ hq := released_run hrun hq
  stored i nowTicks w₁ w₂ acts' q hmove hdue hrun' hq hdecided := by
    rcases (Racing.begin_ hrun hmove).run hdue hrun' with hracing | hstored
    · exact absurd (hracing.deciding hq) hdecided
    · exact hstored

/-! ## On a host -/

variable {dep : Deployment} {options : OutboxOptions} {reader : SubscriptionReader}

/-- The calls of a batch on a host, as far as the field is concerned. -/
theorem exec_host {c : BatchCall} {h h' : Host} {a : c.Ans}
    (hexec : Host.Exec dep options reader c h a h') :
    Exec c h.lastLockRelease a h'.lastLockRelease := by
  have heffect : ∀ {now : DateTimeOffset} {a : c.Ans} {h' : Host},
      Host.Effect dep options reader c (h.at_ now) a h' →
      Exec c h.lastLockRelease a h'.lastLockRelease := by
    intro now a h' heffect
    cases heffect with
    | readLastLockRelease => exact .read _
    | compareExchange value comparand =>
        have hfield := Exec.compareExchange value comparand h.lastLockRelease
        show Exec _ _ _ (Host.lastLockRelease (if h.lastLockRelease = comparand then _ else _))
        split
        next heq =>
          rw [if_pos heq] at hfield
          exact hfield
        next hne =>
          rw [if_neg hne] at hfield
          exact hfield
    | _ => exact .other nofun nofun
  cases hexec with
  | effect _ h => exact heffect h
  | failed _ hthrew =>
      cases c with
      | readLastLockRelease => cases hthrew
      | compareExchangeLastLockRelease => cases hthrew
      | _ => exact .other nofun nofun
  | answerLost _ hthrew h =>
      have hfield := (heffect h).eq_getD
      cases c with
      | readLastLockRelease => cases hthrew
      | compareExchangeLastLockRelease => cases hthrew
      | _ =>
          rw [hfield]
          exact .other nofun nofun

/-- **Batches on a host are callers of the throttle**, whatever else their calls do. -/
theorem run_host {db : Database} {w : Threads.Config BatchCall BatchCall.Ans (Except Exn ℕ) Host}
    (hrun : Threads.Run (Host.Exec dep options reader) (Starts p) ⟨⟨db, 0⟩, []⟩ acts w) :
    Run p initial acts (w.map Host.lastLockRelease) := by
  refine Threads.run_map Host.lastLockRelease ?_ hrun
  exact fun _ _ _ _ => exec_host

/-! ## A race -/

/-- The readings of two hosts in one second. -/
def firstReading : ℤ := 638000000000000000
def secondReading : ℤ := 638000000005000000

/-- Two batches race, and the first wins. -/
def race : List Event :=
  [.start, .start, .call 0 .utcNow firstReading, .call 1 .utcNow secondReading,
    .call 0 .readLastLockRelease (0 : ℤ), .call 1 .readLastLockRelease (0 : ℤ),
    .call 0 (.compareExchangeLastLockRelease firstReading 0) (0 : ℤ),
    .call 1 (.compareExchangeLastLockRelease secondReading 0) firstReading,
    .call 0 .releaseExpiredLocks (Except.ok ())]

theorem race_throttled : ∃ w, Run (Pipeline.shopPipeline .queueMediated) initial race w ∧
    Throttled (Pipeline.shopPipeline .queueMediated) race w ∧ written race = [firstReading] ∧
    releases 0 race = 1 ∧ releases 1 race = 0 := by
  have hstarts : Starts (Pipeline.shopPipeline .queueMediated) _ :=
    ⟨false, ⟨⟨false, []⟩, fun _ => ⟨false, []⟩⟩, none, rfl⟩
  have hnil : Run (Pipeline.shopPipeline .queueMediated) initial [] initial := .nil _
  have hread := hnil.snoc .start (.start hstarts)
    |>.snoc .start (.start hstarts)
    |>.snoc (.call 0 .utcNow firstReading) (.call rfl (.other nofun nofun))
    |>.snoc (.call 1 .utcNow secondReading) (.call rfl (.other nofun nofun))
    |>.snoc (.call 0 .readLastLockRelease (0 : ℤ)) (.call rfl (.read 0))
    |>.snoc (.call 1 .readLastLockRelease (0 : ℤ)) (.call rfl (.read 0))
  have hexchanged := hread
    |>.snoc (.call 0 (.compareExchangeLastLockRelease firstReading 0) (0 : ℤ))
      (.call rfl (.compareExchange firstReading 0 0))
    |>.snoc (.call 1 (.compareExchangeLastLockRelease secondReading 0) firstReading)
      (.call rfl (.compareExchange secondReading 0 firstReading))
    |>.snoc (.call 0 .releaseExpiredLocks (Except.ok ())) (.call rfl (.other nofun nofun))
  exact ⟨_, hexchanged, throttled hexchanged, by decide, by decide, by decide⟩

end LockRelease

end OutboxNet
