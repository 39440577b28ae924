import OutboxNet.Lib.Runs
import OutboxNet.Processor.FaultIsolation
import OutboxNet.Processor.HotCold

/-!
# The loops of the service

`OutboxProcessorService` runs two loops until its host stops it: the hot path takes message ids from the
channel of the signal, the cold path polls.  Both take an `OperationCanceledException` for the end of the
service, whoever has thrown it.  So they go on exactly as long as no call of the processor ends in one.
-/

set_option autoImplicit false

namespace OutboxNet

/-- `ProcessorOptions`. -/
structure ProcessorOptions where
  coldPollingInterval : TimeSpan := ticksPerSecond
deriving DecidableEq, Repr

/-- The exception of `Task.Delay` for a duration it does not take. -/
def Exn.delayOutOfRange : Exn :=
  ⟨false, text "The value needs to translate in milliseconds to -1 (signifying an infinite timeout), 0, or a positive integer less than or equal to the maximum allowed timer duration. (Parameter 'delay')"⟩

namespace OutboxProcessorService

open Pipeline (parallelOptions parallelOptions_all)

/-! ## The state of the service -/

/-- Where `RunColdPathAsync` is: at the condition of its loop, in `ProcessBatchAsync` with its argument,
or in `Task.Delay`. -/
inductive ColdPath : Type
  | atHead
  | inBatch (skipIds : Option (List Guid))
  | delaying
  | ended (r : Except Exn Unit)

/-- Where `RunHotPathAsync` is: in its parallel loop, with the messages of its bodies in flight and the
first exception of a body, or at its end. -/
inductive HotPath : Type
  | running (bodies : List Guid) (thrown : Option Exn)
  | ended (r : Except Exn Unit)

/-- The service: the token that stops it, the channel, `_hotInFlight`, and the two loops.  `batches` and
`consumed` say what they have done: the calls of `ProcessBatchAsync`, and the ids taken. -/
structure Service where
  cancelled : Bool
  channel : List Guid
  hotInFlight : List Guid
  cold : ColdPath
  hot : HotPath
  batches : ℕ
  consumed : List Guid

/-- What `Task.Delay` makes of a duration, in whole milliseconds. -/
inductive Delay : Type
  | outOfRange | infinite | finite
deriving DecidableEq, Repr

def delayOf (interval : TimeSpan) : Delay :=
  let ms := interval.tdiv 10000
  if ms < -1 ∨ 4294967294 < ms then .outOfRange else if ms = -1 then .infinite else .finite

variable (options : OutboxOptions) (processorOptions : ProcessorOptions)

/-! ## Steps -/

/-- After `ProcessBatchAsync`: the cancellation ends the loop, other exceptions are logged. -/
def afterBatch : Except Exn ℕ → ColdPath
  | .ok _ => .delaying
  | .error e => if e.isCanceled then .ended (.ok ()) else .delaying

/-- After `Task.Delay`, if it ends. -/
def afterDelay (cancelled : Bool) : Option ColdPath :=
  match delayOf processorOptions.coldPollingInterval with
  | .outOfRange => some (.ended (.error Exn.delayOutOfRange))
  | .infinite => if cancelled then some (.ended (.ok ())) else none
  | .finite => if cancelled then some (.ended (.ok ())) else some .atHead

/-- After the body of a message: a cancellation leaves the body, other exceptions are logged. -/
def afterBody (thrown : Option Exn) : Except Exn Bool → Option Exn
  | .ok _ => thrown
  | .error e => if e.isCanceled then thrown.or (some e) else thrown

/-- After the loop of the hot path. -/
def afterLoop : Option Exn → Except Exn Unit
  | none => .ok ()
  | some e => if e.isCanceled then .ok () else .error e

/-- Whether a further body may start. -/
def slotFree (bodies : List Guid) : Prop :=
  ∃ limit, parallelOptions options.maxConcurrentDeliveries = .ok limit ∧
    ∀ n, limit = some n → bodies.length < n

/-- What can happen to the service. -/
inductive Event : Type
  | notify (messageId : Guid)
  | stop
  | turn
  | batchReturned (r : Except Exn ℕ)
  | delayEnded
  | take
  | bodyReturned (messageId : Guid) (r : Except Exn Bool)
  | loopEnded

/-- A call of the processor has ended in a cancellation. -/
def Event.canceled : Event → Prop
  | .batchReturned (.error e) => e.isCanceled = true
  | .bodyReturned _ (.error e) => e.isCanceled = true
  | _ => False

/-- The steps of the service.  `Parallel.ForEachAsync` takes no further item once a body has thrown. -/
inductive Step : Service → Event → Service → Prop
  | notify (s : Service) (messageId : Guid) :
      Step s (.notify messageId) { s with channel := ChannelOutboxSignal.notify s.channel messageId }
  | stop (s : Service) : Step s .stop { s with cancelled := true }
  | turn_cancelled {s : Service} : s.cold = .atHead → s.cancelled = true →
      Step s .turn { s with cold := .ended (.ok ()) }
  | turn {s : Service} : s.cold = .atHead → s.cancelled = false →
      Step s .turn { s with
        cold := .inBatch (if s.hotInFlight.isEmpty then none else some s.hotInFlight)
        batches := s.batches + 1 }
  | batchReturned {s : Service} {skipIds : Option (List Guid)} (r : Except Exn ℕ) :
      s.cold = .inBatch skipIds → Step s (.batchReturned r) { s with cold := afterBatch r }
  | delayEnded {s : Service} {cold : ColdPath} : s.cold = .delaying →
      afterDelay processorOptions s.cancelled = some cold →
      Step s .delayEnded { s with cold := cold }
  | take {s : Service} {bodies : List Guid} {messageId : Guid} {channel : List Guid} :
      s.hot = .running bodies none → s.cancelled = false → slotFree options bodies →
      s.channel = messageId :: channel →
      Step s .take { s with
        channel := channel
        hotInFlight := if messageId ∈ s.hotInFlight then s.hotInFlight
          else s.hotInFlight ++ [messageId]
        hot := .running (bodies ++ [messageId]) none
        consumed := s.consumed ++ [messageId] }
  | bodyReturned {s : Service} {bodies : List Guid} {thrown : Option Exn} {messageId : Guid}
      (r : Except Exn Bool) : s.hot = .running bodies thrown → messageId ∈ bodies →
      Step s (.bodyReturned messageId r) { s with
        hotInFlight := s.hotInFlight.erase messageId
        hot := .running (bodies.erase messageId) (afterBody thrown r) }
  | loopEnded {s : Service} {thrown : Option Exn} : s.hot = .running [] thrown →
      thrown.isSome = true ∨ s.cancelled = true →
      Step s .loopEnded { s with hot := .ended (afterLoop thrown) }

/-- The service when both loops have been started.  A degree of parallelism that is not allowed ends the
hot path at once. -/
def start : Service where
  cancelled := false
  channel := []
  hotInFlight := []
  cold := .atHead
  hot := match parallelOptions options.maxConcurrentDeliveries with
    | .ok _ => .running [] none
    | .error e => .ended (.error e)
  batches := 0
  consumed := []

/-! ## Going on -/

/-- The service goes on: it comes to another call of `ProcessBatchAsync`, and to every further id written
to the channel. -/
structure GoesOn (s : Service) : Prop where
  cold : ∃ events s', Steps (Step options processorOptions) s events s' ∧ s'.batches = s.batches + 1
  hot : ∀ messageId, ∃ events s',
    Steps (Step options processorOptions) s (.notify messageId :: events) s' ∧
      messageId ∈ s'.consumed.drop s.consumed.length

/-- A run that lets the loops go on: no call of the processor ends in a cancellation, the degree of
parallelism is one that `ParallelOptions` takes and, if the cold path has called `ProcessBatchAsync`, the
interval one that `Task.Delay` ends after. -/
structure Uninterrupted (events : List Event) : Prop where
  calls : ∀ e ∈ events, ¬ e.canceled
  degree : ∃ limit, parallelOptions options.maxConcurrentDeliveries = .ok limit
  interval : Event.turn ∈ events → delayOf processorOptions.coldPollingInterval = .finite

/-- Both loops are running, and the cold path can come back to its head. -/
structure Alive (s : Service) : Prop where
  cold : ∀ r, s.cold ≠ .ended r
  interval : s.cold = .atHead ∨ delayOf processorOptions.coldPollingInterval = .finite
  hot : ∃ bodies, s.hot = .running bodies none

/-- The cold path has ended, or does not come back to its head. -/
def ColdDead (s : Service) : Prop :=
  (∃ r, s.cold = .ended r) ∨
    s.cold ≠ .atHead ∧ delayOf processorOptions.coldPollingInterval ≠ .finite

/-- The hot path has ended, or is about to. -/
def HotDead (s : Service) : Prop :=
  (∃ r, s.hot = .ended r) ∨ ∃ bodies e, s.hot = .running bodies (some e)

variable {options processorOptions} {s s' : Service} {e : Event} {events : List Event}

/-! ## The end of a loop -/

/-- The delay leads back to the head of the loop only if it is finite. -/
theorem afterDelay_of_not_finite {cancelled : Bool} {cold : ColdPath}
    (hdelay : delayOf processorOptions.coldPollingInterval ≠ .finite)
    (h : afterDelay processorOptions cancelled = some cold) : ∃ r, cold = .ended r := by
  unfold afterDelay at h
  cases hinterval : delayOf processorOptions.coldPollingInterval with
  | finite => exact absurd hinterval hdelay
  | outOfRange =>
      rw [hinterval] at h
      exact ⟨_, (Option.some.inj h).symm⟩
  | infinite =>
      rw [hinterval] at h
      cases cancelled with
      | false => cases h
      | true => exact ⟨_, (Option.some.inj h).symm⟩

/-- The cold path calls nothing more when it has ended. -/
theorem ColdDead.step (h : ColdDead processorOptions s) (hs : Step options processorOptions s e s') :
    ColdDead processorOptions s' ∧ s'.batches = s.batches := by
  have hhead : s.cold ≠ .atHead := by
    rcases h with ⟨r, hcold⟩ | ⟨hcold, -⟩
    · rw [hcold]
      nofun
    · exact hcold
  cases hs with
  | notify => exact ⟨h, rfl⟩
  | stop => exact ⟨h, rfl⟩
  | turn_cancelled hcold => exact absurd hcold hhead
  | turn hcold => exact absurd hcold hhead
  | batchReturned r hcold =>
      refine ⟨.inr ⟨?_, ?_⟩, rfl⟩
      · show afterBatch r ≠ _
        unfold afterBatch
        split
        · nofun
        · split <;> nofun
      · rcases h with ⟨r', h⟩ | ⟨-, h⟩
        · cases hcold.symm.trans h
        · exact h
  | delayEnded hcold hdelay =>
      rcases h with ⟨r', h⟩ | ⟨-, h⟩
      · cases hcold.symm.trans h
      · exact ⟨.inl (afterDelay_of_not_finite h hdelay), rfl⟩
  | take => exact ⟨h, rfl⟩
  | bodyReturned => exact ⟨h, rfl⟩
  | loopEnded => exact ⟨h, rfl⟩

theorem afterBody_some (e : Exn) (r : Except Exn Bool) : afterBody (some e) r = some e := by
  cases r with
  | ok _ => rfl
  | error e' =>
      show (if e'.isCanceled then _ else _) = _
      split <;> rfl

/-- The hot path takes nothing more when a body has thrown. -/
theorem HotDead.step (h : HotDead s) (hs : Step options processorOptions s e s') :
    HotDead s' ∧ s'.consumed = s.consumed := by
  cases hs with
  | notify => exact ⟨h, rfl⟩
  | stop => exact ⟨h, rfl⟩
  | turn_cancelled => exact ⟨h, rfl⟩
  | turn => exact ⟨h, rfl⟩
  | batchReturned => exact ⟨h, rfl⟩
  | delayEnded => exact ⟨h, rfl⟩
  | take hhot =>
      rcases h with ⟨r, h⟩ | ⟨bodies, e, h⟩
      · cases h.symm.trans hhot
      · cases h.symm.trans hhot
  | bodyReturned r hhot =>
      rcases h with ⟨r', h⟩ | ⟨bodies, e, h⟩
      · cases h.symm.trans hhot
      · cases h.symm.trans hhot
        exact ⟨.inr ⟨_, e, by rw [afterBody_some]⟩, rfl⟩
  | loopEnded => exact ⟨.inl ⟨_, rfl⟩, rfl⟩

theorem ColdDead.run (h : ColdDead processorOptions s)
    (hrun : Steps (Step options processorOptions) s events s') :
    ColdDead processorOptions s' ∧ s'.batches = s.batches := by
  have hinv := hrun.invariant (fun x => ColdDead processorOptions x ∧ x.batches = s.batches)
    (fun x e x' hx hs => ⟨(hx.1.step hs).1, (hx.1.step hs).2.trans hx.2⟩) ⟨h, rfl⟩
  exact hinv

theorem HotDead.run (h : HotDead s) (hrun : Steps (Step options processorOptions) s events s') :
    HotDead s' ∧ s'.consumed = s.consumed := by
  have hinv := hrun.invariant (fun x => HotDead x ∧ x.consumed = s.consumed)
    (fun x e x' hx hs => ⟨(hx.1.step hs).1, (hx.1.step hs).2.trans hx.2⟩) ⟨h, rfl⟩
  exact hinv

/-- **A cancellation ends the loop it comes to**, whether or not the service is stopping. -/
theorem Step.dead_of_canceled (hs : Step options processorOptions s e s') (he : e.canceled) :
    ColdDead processorOptions s' ∨ HotDead s' := by
  cases hs with
  | batchReturned r hcold =>
      cases r with
      | ok n => cases he
      | error e =>
          refine .inl (.inl ⟨.ok (), ?_⟩)
          have hcanceled : e.isCanceled = true := he
          show (if e.isCanceled then _ else _) = _
          rw [if_pos hcanceled]
  | @bodyReturned bodies thrown messageId r hhot hmem =>
      cases r with
      | ok b => cases he
      | error e =>
          refine .inr (.inr ⟨bodies.erase messageId, thrown.getD e, ?_⟩)
          have hthrown : afterBody thrown (.error e) = some (thrown.getD e) := by
            have hcanceled : e.isCanceled = true := he
            show (if e.isCanceled then thrown.or (some e) else thrown) = _
            rw [if_pos hcanceled]
            cases thrown <;> rfl
          show HotPath.running _ (afterBody thrown (.error e)) = _
          rw [hthrown]
  | _ => cases he

/-- A turn ends the cold path in its delay, if that is not finite. -/
theorem Step.dead_of_turn (hs : Step options processorOptions s .turn s') (hstop : s'.cancelled = false)
    (hdelay : delayOf processorOptions.coldPollingInterval ≠ .finite) :
    ColdDead processorOptions s' := by
  cases hs with
  | turn_cancelled _ hcancelled => cases hstop.symm.trans hcancelled
  | turn => exact .inr ⟨by nofun, hdelay⟩

/-- A service with a loop that has ended does not go on. -/
theorem not_goesOn_of_dead (h : ColdDead processorOptions s ∨ HotDead s) : ¬ GoesOn options processorOptions s := by
  intro hgoes
  rcases h with h | h
  · obtain ⟨events, s', hrun, hbatches⟩ := hgoes.cold
    have hsame := (h.run hrun).2
    omega
  · obtain ⟨events, s', hrun, hmem⟩ := hgoes.hot 0
    rw [(h.run hrun).2, List.drop_length] at hmem
    cases hmem

/-! ## Without cancellations -/

/-- A token stays cancelled. -/
theorem Step.cancelled_of (hs : Step options processorOptions s e s') (h : s.cancelled = true) :
    s'.cancelled = true := by
  cases hs <;> first | exact h | rfl

/-- A service that is not stopped after a run was not before. -/
theorem not_cancelled_of_run (hrun : Steps (Step options processorOptions) s events s')
    (hstop : s'.cancelled = false) : s.cancelled = false := by
  by_contra hcancelled
  rw [Bool.not_eq_false] at hcancelled
  have hinv := hrun.invariant (fun x => x.cancelled = true)
    (fun x e x' hx hs => hs.cancelled_of hx) hcancelled
  cases hstop.symm.trans hinv

/-- **The loops keep running** while the service is not stopped and no call is cancelled. -/
theorem Alive.step (h : Alive processorOptions s) (hs : Step options processorOptions s e s')
    (hstop : s'.cancelled = false) (he : ¬ e.canceled)
    (hturn : e = .turn → delayOf processorOptions.coldPollingInterval = .finite) :
    Alive processorOptions s' := by
  obtain ⟨hcold, hinterval, bodies, hhot⟩ := h
  -- an event that ends a loop is a stop or a cancelled call
  cases hs with
  | notify => exact ⟨hcold, hinterval, bodies, hhot⟩
  | stop => cases hstop
  | turn_cancelled _ hcancelled => cases hstop.symm.trans hcancelled
  | turn => exact ⟨fun r hr => (by cases hr), .inr (hturn rfl), bodies, hhot⟩
  | batchReturned r hin =>
      refine ⟨fun r' hr' => ?_, .inr (hinterval.resolve_left fun h => by cases hin.symm.trans h),
        bodies, hhot⟩
      cases r with
      | ok n => cases hr'
      | error e =>
          have hended : (if e.isCanceled then ColdPath.ended (.ok ()) else .delaying) = .ended r' := hr'
          have hcaught : ¬ e.isCanceled = true := he
          rw [if_neg hcaught] at hended
          cases hended
  | delayEnded hdelaying hdelay =>
      have hfinite := hinterval.resolve_left fun h => by cases hdelaying.symm.trans h
      refine ⟨fun r hr => ?_, .inr hfinite, bodies, hhot⟩
      have hcancelled : s.cancelled = false := hstop
      rw [afterDelay, hfinite, hcancelled] at hdelay
      cases hdelay
      cases hr
  | take => exact ⟨hcold, hinterval, _, rfl⟩
  | @bodyReturned bodies' thrown messageId r hhot' =>
      cases hhot.symm.trans hhot'
      refine ⟨hcold, hinterval, bodies.erase messageId, ?_⟩
      show HotPath.running _ (afterBody none r) = _
      cases r with
      | ok b => rfl
      | error e =>
          have hcaught : afterBody none (.error e) = none := if_neg he
          rw [hcaught]
  | loopEnded hhot' hend =>
      cases hhot.symm.trans hhot'
      rcases hend with hthrown | hcancelled
      · cases hthrown
      · cases hstop.symm.trans hcancelled

/-- The service starts with both loops running, if it may run bodies at all. -/
theorem alive_start (hdegree : ∃ limit, parallelOptions options.maxConcurrentDeliveries = .ok limit) :
    Alive processorOptions (start options) := by
  obtain ⟨limit, hlimit⟩ := hdegree
  refine ⟨fun r hr => (by cases hr), .inl rfl, [], ?_⟩
  rw [start, hlimit]

/-- Otherwise the hot path has ended before it began. -/
theorem hotDead_start (hdegree : ¬ ∃ limit, parallelOptions options.maxConcurrentDeliveries = .ok limit) :
    HotDead (start options) := by
  cases hlimit : parallelOptions options.maxConcurrentDeliveries with
  | ok limit => exact absurd ⟨limit, hlimit⟩ hdegree
  | error e =>
      refine .inl ⟨.error e, ?_⟩
      rw [start, hlimit]

/-- The bodies in flight may return, one after another. -/
theorem exists_idle {bodies : List Guid} (hhot : s.hot = .running bodies none) :
    ∃ events s', Steps (Step options processorOptions) s events s' ∧ s'.hot = .running [] none ∧
      s'.cancelled = s.cancelled ∧ s'.channel = s.channel ∧ s'.consumed = s.consumed := by
  induction bodies generalizing s with
  | nil => exact ⟨[], s, .nil s, hhot, rfl, rfl, rfl⟩
  | cons messageId bodies ih =>
      have hreturn : Step options processorOptions s (.bodyReturned messageId (.ok true)) _ :=
        .bodyReturned (.ok true) hhot List.mem_cons_self
      rw [List.erase_cons_head] at hreturn
      obtain ⟨events, s', hrun, hidle, hcancelled, hchannel, hconsumed⟩ :=
        ih (s := { s with
          hotInFlight := s.hotInFlight.erase messageId
          hot := .running bodies (afterBody none (.ok true)) }) rfl
      exact ⟨_, s', .cons hreturn hrun, hidle, hcancelled, hchannel, hconsumed⟩

/-- **The channel can be drained.** -/
theorem exists_drained
    (hdegree : ∃ limit, parallelOptions options.maxConcurrentDeliveries = .ok limit)
    {bodies channel : List Guid} (hhot : s.hot = .running bodies none) (hstop : s.cancelled = false)
    (hchannel : s.channel = channel) :
    ∃ events s', Steps (Step options processorOptions) s events s' ∧
      s'.consumed = s.consumed ++ channel := by
  induction channel generalizing s bodies with
  | nil => exact ⟨[], s, .nil s, (List.append_nil _).symm⟩
  | cons messageId channel ih =>
      have hreturn : ∃ events s₁, Steps (Step options processorOptions) s events s₁ ∧
          s₁.hot = .running [] none ∧ s₁.cancelled = s.cancelled ∧ s₁.channel = s.channel ∧
            s₁.consumed = s.consumed := exists_idle hhot
      obtain ⟨events, s₁, hrun, hidle, hcancelled, hchannel₁, hconsumed⟩ := hreturn
      -- with no body in flight there is a slot for the next id
      have hfree : slotFree options [] := by
        obtain ⟨limit, hlimit⟩ := hdegree
        refine ⟨limit, hlimit, fun n hn => ?_⟩
        have hall := parallelOptions_all hlimit
        rw [hn] at hall
        exact of_decide_eq_true hall
      have htake : Step options processorOptions s₁ .take _ :=
        .take hidle (hcancelled.trans hstop) hfree (hchannel₁.trans hchannel)
      obtain ⟨events', s', hrun', hdrained⟩ := ih (s := { s₁ with
        channel := channel
        hotInFlight := if messageId ∈ s₁.hotInFlight then s₁.hotInFlight
          else s₁.hotInFlight ++ [messageId]
        hot := .running ([] ++ [messageId]) none
        consumed := s₁.consumed ++ [messageId] }) rfl (hcancelled.trans hstop) rfl
      refine ⟨_, s', hrun.append (.cons htake hrun'), ?_⟩
      rw [hdrained]
      show s₁.consumed ++ [messageId] ++ channel = _
      rw [hconsumed, List.append_assoc]
      rfl

/-- A running service goes on. -/
theorem Alive.goesOn (h : Alive processorOptions s)
    (hdegree : ∃ limit, parallelOptions options.maxConcurrentDeliveries = .ok limit)
    (hstop : s.cancelled = false) : GoesOn options processorOptions s := by
  obtain ⟨hcold, hinterval, bodies, hhot⟩ := h
  constructor
  · -- the rest of the turn, and the beginning of the next
    have hturn : ∀ s : Service, s.cold = .atHead → s.cancelled = false →
        ∃ events s', Steps (Step options processorOptions) s events s' ∧
          s'.batches = s.batches + 1 := fun s hhead hstop =>
      ⟨_, _, .cons (.turn hhead hstop) (.nil _), rfl⟩
    have hdelay : ∀ s : Service, delayOf processorOptions.coldPollingInterval = .finite →
        s.cold = .delaying → s.cancelled = false →
        ∃ events s', Steps (Step options processorOptions) s events s' ∧
          s'.batches = s.batches + 1 := by
      intro s hfinite hdelaying hstop
      have hafter : afterDelay processorOptions s.cancelled = some .atHead := by
        rw [afterDelay, hfinite, hstop]
        rfl
      obtain ⟨events, s', hrun, hbatches⟩ := hturn { s with cold := .atHead } rfl hstop
      exact ⟨_, s', .cons (.delayEnded hdelaying hafter) hrun, hbatches⟩
    cases hat : s.cold with
    | atHead => exact hturn s hat hstop
    | inBatch skipIds =>
        have hfinite := hinterval.resolve_left fun h => by cases hat.symm.trans h
        obtain ⟨events, s', hrun, hbatches⟩ :=
          hdelay { s with cold := afterBatch (.ok 0) } hfinite rfl hstop
        exact ⟨_, s', .cons (.batchReturned (.ok 0) hat) hrun, hbatches⟩
    | delaying =>
        exact hdelay s (hinterval.resolve_left fun h => by cases hat.symm.trans h) hat hstop
    | ended r => exact absurd hat (hcold r)
  · intro messageId
    obtain ⟨events, s', hrun, hdrained⟩ := exists_drained hdegree
      (s := { s with channel := ChannelOutboxSignal.notify s.channel messageId }) hhot hstop rfl
    refine ⟨events, s', .cons (.notify s messageId) hrun, ?_⟩
    rw [hdrained, List.drop_left]
    exact DropOldest.mem_write

/-- What interrupts a run ends a loop. -/
theorem uninterrupted_of_goesOn (hrun : Steps (Step options processorOptions) s events s')
    (hstop : s'.cancelled = false) (hgoes : GoesOn options processorOptions s') :
    (∀ e ∈ events, ¬ e.canceled) ∧
      (Event.turn ∈ events → delayOf processorOptions.coldPollingInterval = .finite) := by
  induction hrun with
  | nil => exact ⟨List.forall_mem_nil _, fun h => by cases h⟩
  | @cons s₀ s₁ s e events hs hrun ih =>
      obtain ⟨hcalls, hinterval⟩ := ih hstop hgoes
      have hdead : ¬ (ColdDead processorOptions s₁ ∨ HotDead s₁) := fun hdead =>
        not_goesOn_of_dead (hdead.imp (fun h => (h.run hrun).1) fun h => (h.run hrun).1) hgoes
      refine ⟨List.forall_mem_cons.mpr ⟨fun he => hdead (hs.dead_of_canceled he), hcalls⟩, fun hmem => ?_⟩
      by_contra hdelay
      rcases List.mem_cons.mp hmem with heq | hlater
      · subst heq
        exact hdead (.inl (hs.dead_of_turn (not_cancelled_of_run hrun hstop) hdelay))
      · exact hdelay (hinterval hlater)

/-- The loops run to the end of a run that nothing interrupts. -/
theorem Alive.run (h : Alive processorOptions s)
    (hrun : Steps (Step options processorOptions) s events s') (hstop : s'.cancelled = false)
    (hcalls : ∀ e ∈ events, ¬ e.canceled)
    (hinterval : Event.turn ∈ events → delayOf processorOptions.coldPollingInterval = .finite) :
    Alive processorOptions s' := by
  induction hrun with
  | nil => exact h
  | @cons s₀ s₁ s e events hs hrun ih =>
      obtain ⟨he, hcalls⟩ := List.forall_mem_cons.mp hcalls
      have hnext := h.step hs (not_cancelled_of_run hrun hstop) he fun heq =>
        hinterval (heq ▸ List.mem_cons_self)
      exact ih hnext hstop hcalls fun hlater => hinterval (List.mem_cons_of_mem _ hlater)

/-- **The loops go on exactly as long as nothing interrupts the run**, in every run of a service that has
not been stopped. -/
theorem goes_on_iff (hrun : Steps (Step options processorOptions) (start options) events s)
    (hstop : s.cancelled = false) :
    GoesOn options processorOptions s ↔ Uninterrupted options processorOptions events := by
  constructor
  · intro hgoes
    obtain ⟨hcalls, hinterval⟩ := uninterrupted_of_goesOn hrun hstop hgoes
    refine ⟨hcalls, ?_, hinterval⟩
    by_contra hdegree
    exact not_goesOn_of_dead (.inr ((hotDead_start hdegree).run hrun).1) hgoes
  · rintro ⟨hcalls, hdegree, hinterval⟩
    exact ((alive_start hdegree).run hrun hstop hcalls hinterval).goesOn hdegree hstop

/-! ## A service that polls once -/

/-- The processor of the shop. -/
def shopProcessor : Pipeline := Pipeline.shopPipeline .directDelivery

/-- After one turn of the cold path. -/
theorem goes_on_iff_turn : GoesOn shopProcessor.options {}
      { start shopProcessor.options with cold := .inBatch none, batches := 1 } ↔
    Uninterrupted shopProcessor.options {} [.turn] := by
  refine goes_on_iff (.cons ?_ (.nil _)) rfl
  exact .turn rfl rfl

/-- A call that does what it is for, and the rest. -/
theorem exec_call_of_effect {α : Type} {dep : Deployment} {reader : SubscriptionReader} {c : BatchCall}
    {a : c.Ans} {f : c.Ans → Prog BatchCall BatchCall.Ans α} {x x' : BatchSession} {h : Host} {r : α}
    (heffect : Host.Effect dep options reader c x.host a h)
    (hrest : Prog.Exec (BatchSession.Exec dep options reader) (f a) ⟨h, x.log ++ [⟨c, a⟩]⟩ r x') :
    Prog.Exec (BatchSession.Exec dep options reader) (.call c f) x r x' :=
  have hcall : Host.Exec dep options reader c x.host a h := .effect (le_refl x.host.db.now) heffect
  .call ⟨hcall, rfl⟩ hrest

/-- The exception of a secret retriever that has not been answered in time. -/
def retrieverTimeout : Exn := ⟨true, text "A task was canceled."⟩

/-- **A secret retriever that times out ends the cold path**: no batch follows, although nobody has stopped
the service. -/
theorem cold_path_ends : ∃ x' s,
    Prog.Exec (BatchSession.Exec (Deployment.binary .directSql) shopProcessor.options Pipeline.shopReader)
      (shopProcessor.processBatchAsync false Pipeline.uncanceled none).run Pipeline.shopSession
      (.error retrieverTimeout) x' ∧
    Steps (Step shopProcessor.options {}) (start shopProcessor.options)
      [.turn, .batchReturned (.error retrieverTimeout)] s ∧
    s.cancelled = false ∧ ¬ GoesOn shopProcessor.options {} s := by
  obtain ⟨scan, m, messages, hscan, -, hlock⟩ := Pipeline.coldLocks_shop .directDelivery
  have hbatch : ∃ x', Prog.Exec (BatchSession.Exec (Deployment.binary .directSql)
      shopProcessor.options Pipeline.shopReader)
      (shopProcessor.processBatchAsync false Pipeline.uncanceled none).run Pipeline.shopSession
      (.error retrieverTimeout) x' := by
    -- no locks to release, one message to lock, and no answer for it
    have hask : ∀ x : BatchSession, BatchSession.Exec (Deployment.binary .directSql)
        shopProcessor.options Pipeline.shopReader (.getForMessage m) x (Except.error retrieverTimeout)
        ⟨x.host, x.log ++ [⟨.getForMessage m, Except.error retrieverTimeout⟩]⟩ := fun x =>
      ⟨.failed (le_refl x.host.db.now) rfl, rfl⟩
    exact ⟨_, exec_call_of_effect (.utcNow 1000 _)
      (exec_call_of_effect (.readLastLockRelease _)
      (exec_call_of_effect (.lockNextBatch hscan hlock)
      (exec_call_of_effect (.recordBatch 1 _)
      (.call (hask _) (.ret _ _)))))⟩
  obtain ⟨x', hexec⟩ := hbatch
  refine ⟨x', { start shopProcessor.options with cold := .ended (.ok ()), batches := 1 }, hexec, ?_, rfl,
    not_goesOn_of_dead (.inl (.inl ⟨.ok (), rfl⟩))⟩
  refine .cons (.turn rfl rfl) (.cons ?_ (.nil _))
  exact .batchReturned (.error retrieverTimeout) rfl

end OutboxProcessorService

end OutboxNet
