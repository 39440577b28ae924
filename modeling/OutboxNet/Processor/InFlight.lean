import OutboxNet.Processor.Rehearsal
import OutboxNet.Processor.Service
import OutboxNet.Store.BatchPartition
import OutboxNet.Store.Eligibility

/-!
# What the hot path has in flight

The two loops of `OutboxProcessorService` share `_hotInFlight`, and the publishers and the hot path share
the channel of the signal.

While no id is published twice, `_hotInFlight` has the ids of the bodies in flight, no more and no fewer,
so the batch of a turn locks none of their messages.  The channel hands the ids on in the order in which
they were published, and loses only ids after which more than its capacity were published.
-/

set_option autoImplicit false

namespace OutboxNet

namespace OutboxProcessorService

open ChannelOutboxSignal (capacity)
open DropOldest (Relays)
open Pipeline (parallelOptions)

variable {options : OutboxOptions} {processorOptions : ProcessorOptions} {s s' : Service} {e : Event}
  {events : List Event}

/-- The ids that publishers have written to the channel, in their order. -/
def notified (events : List Event) : List Guid :=
  events.filterMap fun e => match e with
    | .notify messageId => some messageId
    | _ => none

/-- The messages of the bodies in flight. -/
def Service.bodies (s : Service) : List Guid :=
  match s.hot with
  | .running bodies _ => bodies
  | .ended _ => []

/-! ## The channel -/

/-- The step lemma of the channel. -/
theorem relays_step (h : Relays capacity (notified events) s.consumed s.channel)
    (hs : Step options processorOptions s e s') :
    Relays capacity (notified (events ++ [e])) s'.consumed s'.channel := by
  have hcapacity : 0 < capacity := by decide
  have hsame : notified [e] = [] → notified (events ++ [e]) = notified events := by
    intro hnone
    rw [notified, List.filterMap_append]
    change notified events ++ notified [e] = notified events
    rw [hnone, List.append_nil]
  cases hs with
  | notify messageId =>
      have hnotified : notified (events ++ [.notify messageId]) = notified events ++ [messageId] := by
        rw [notified, List.filterMap_append]
        rfl
      rw [hnotified]
      exact h.write hcapacity
  | take hhot hstop hfree hchannel =>
      rw [hsame rfl]
      rw [hchannel] at h
      exact h.take
  | _ => rwa [hsame rfl]

theorem relays_run (hrun : Steps (Step options processorOptions) (start options) events s) :
    Relays capacity (notified events) s.consumed s.channel :=
  hrun.invariant_history
    (fun events s => Relays capacity (notified events) s.consumed s.channel)
    (fun _ _ _ _ h hs => relays_step h hs) Relays.nil

/-- **The signal hands ids on in order.** In every run of the service, the ids the hot path has taken,
followed by those in the channel, come in the order in which they were published.  The last ten thousand
ids published are among them, and if no more were published, all are. -/
theorem signal_relays (hrun : Steps (Step options processorOptions) (start options) events s) :
    (s.consumed ++ s.channel).Sublist (notified events) ∧ s.channel.length ≤ 10000 ∧
    (∀ messageId ∈ (notified events).drop ((notified events).length - 10000),
      messageId ∈ s.consumed ∨ messageId ∈ s.channel) ∧
    ((notified events).length ≤ 10000 → s.consumed ++ s.channel = notified events) :=
  have h := relays_run hrun
  ⟨h.ordered, h.length_le, h.latest, h.all⟩

/-- The service after two notifications, with the first id taken. -/
def oneInFlight : Service where
  cancelled := false
  channel := [2]
  hotInFlight := [1]
  cold := .atHead
  hot := .running [1] none
  batches := 0
  consumed := [1]

theorem oneInFlight_run : Steps (Step shopProcessor.options {}) (start shopProcessor.options)
    [.notify 1, .notify 2, .take] oneInFlight := by
  have htake : Step shopProcessor.options {}
      { start shopProcessor.options with channel := [1, 2] } .take oneInFlight := by
    have hfree : slotFree shopProcessor.options [] := by
      refine ⟨some 10, rfl, fun n hn => ?_⟩
      cases hn
      decide
    exact .take rfl rfl hfree rfl
  exact .cons (.notify _ 1) (.cons (.notify _ 2) (.cons htake (.nil _)))

theorem signal_relays_two : [1, 2].Sublist (notified [.notify 1, .notify 2, .take]) ∧
    oneInFlight.channel.length ≤ 10000 ∧
    (∀ messageId ∈ (notified [.notify 1, .notify 2, .take]).drop (2 - 10000),
      messageId ∈ oneInFlight.consumed ∨ messageId ∈ oneInFlight.channel) ∧
    (2 ≤ 10000 → oneInFlight.consumed ++ oneInFlight.channel = [1, 2]) :=
  signal_relays oneInFlight_run

/-! ## The bodies in flight -/

/-- What the two loops know of the bodies in flight. -/
structure Tracked (options : OutboxOptions) (s : Service) : Prop where
  perm : s.hotInFlight.Perm s.bodies
  nodup : s.bodies.Nodup
  consumed : s.bodies ⊆ s.consumed
  limit : ∀ n, parallelOptions options.maxConcurrentDeliveries = .ok (some n) → s.bodies.length ≤ n

theorem Service.bodies_running {bodies : List Guid} {thrown : Option Exn}
    (h : s.hot = .running bodies thrown) : s.bodies = bodies := by
  rw [Service.bodies, h]

/-- A step that leaves the hot path alone. -/
theorem Tracked.congr (h : Tracked options s) (hflight : s'.hotInFlight = s.hotInFlight)
    (hhot : s'.hot = s.hot) (hconsumed : s'.consumed = s.consumed) : Tracked options s' := by
  have hbodies : s'.bodies = s.bodies := by rw [Service.bodies, Service.bodies, hhot]
  exact ⟨by rw [hflight, hbodies]; exact h.perm, hbodies ▸ h.nodup,
    by rw [hbodies, hconsumed]; exact h.consumed, fun n hn => hbodies ▸ h.limit n hn⟩

/-- The step lemma: an id that was not taken before is not in flight. -/
theorem Tracked.step (h : Tracked options s) (hs : Step options processorOptions s e s')
    (hdistinct : (s.consumed ++ s.channel).Nodup) : Tracked options s' := by
  cases hs with
  | notify => exact h.congr rfl rfl rfl
  | stop => exact h.congr rfl rfl rfl
  | turn_cancelled => exact h.congr rfl rfl rfl
  | turn => exact h.congr rfl rfl rfl
  | batchReturned => exact h.congr rfl rfl rfl
  | delayEnded => exact h.congr rfl rfl rfl
  | @take bodies messageId channel hhot hstop hfree hchannel =>
      obtain ⟨hperm, hnodup, hconsumed, -⟩ := h
      rw [Service.bodies_running hhot] at hperm hnodup hconsumed
      have hfresh : messageId ∉ bodies := by
        intro hmem
        rw [hchannel] at hdistinct
        exact (List.nodup_append.mp hdistinct).2.2 _ (hconsumed hmem) _ List.mem_cons_self rfl
      refine ⟨?_, ?_, ?_, fun n hn => ?_⟩
      · show (if messageId ∈ s.hotInFlight then s.hotInFlight else _).Perm (bodies ++ [messageId])
        rw [if_neg fun hmem => hfresh (hperm.mem_iff.mp hmem)]
        exact hperm.append_right _
      · show (bodies ++ [messageId]).Nodup
        exact List.nodup_append.mpr ⟨hnodup, List.nodup_singleton _, fun x hx y hy =>
          fun heq => hfresh (List.mem_singleton.mp hy ▸ heq ▸ hx)⟩
      · show bodies ++ [messageId] ⊆ s.consumed ++ [messageId]
        exact fun x hx => (List.mem_append.mp hx).elim
          (fun hx => List.mem_append_left _ (hconsumed hx)) fun hx => List.mem_append_right _ hx
      · obtain ⟨limit, hlimit, hlt⟩ := hfree
        have hsame : limit = some n := Except.ok.inj (hlimit.symm.trans hn)
        have hlt := hlt n hsame
        show (bodies ++ [messageId]).length ≤ n
        rw [List.length_append, List.length_singleton]
        omega
  | @bodyReturned bodies thrown messageId r hhot hmem =>
      obtain ⟨hperm, hnodup, hconsumed, hlimit⟩ := h
      rw [Service.bodies_running hhot] at hperm hnodup hconsumed hlimit
      refine ⟨hperm.erase messageId, hnodup.erase messageId, ?_, fun n hn => ?_⟩
      · exact fun x hx => hconsumed (List.mem_of_mem_erase hx)
      · exact (List.length_erase_le).trans (hlimit n hn)
  | @loopEnded thrown hhot hend =>
      obtain ⟨hperm, -, -, -⟩ := h
      rw [Service.bodies_running hhot] at hperm
      exact ⟨hperm, List.nodup_nil, List.nil_subset _, fun n _ => Nat.zero_le n⟩

theorem tracked_start : Tracked options (start options) := by
  have hbodies : (start options).bodies = [] := by
    unfold Service.bodies start
    cases parallelOptions options.maxConcurrentDeliveries <;> rfl
  refine ⟨?_, ?_, ?_, fun n _ => ?_⟩ <;> rw [hbodies]
  · exact List.Perm.refl _
  · exact List.nodup_nil
  · exact List.nil_subset _
  · exact Nat.zero_le n

theorem tracked_run (hrun : Steps (Step options processorOptions) (start options) events s)
    (hdistinct : (notified events).Nodup) : Tracked options s := by
  have hinv := hrun.invariant_history
    (fun events s => Relays capacity (notified events) s.consumed s.channel ∧
      ((notified events).Nodup → Tracked options s)) ?_ ⟨Relays.nil, fun _ => tracked_start⟩
  · exact hinv.2 hdistinct
  · rintro events s e s' ⟨hrelays, htracked⟩ hs
    refine ⟨relays_step hrelays hs, fun hnodup => ?_⟩
    have hbefore : (notified events).Nodup := by
      rw [notified, List.filterMap_append] at hnodup
      exact (List.nodup_append.mp hnodup).1
    exact (htracked hbefore).step hs (hrelays.ordered.nodup hbefore)

/-- No message of a batch has an id that was to be skipped. -/
theorem not_mem_skipIds {dep : Deployment} {reader : SubscriptionReader} {batchSize : ℤ}
    {visibilityTimeout : TimeSpan} {lockedBy : Text} {skipIds : Option (List Guid)} {h h' : Host}
    {batch : List OutboxMessage}
    (hexec : Host.Exec dep options reader
      (BatchCall.lockNextBatch batchSize visibilityTimeout lockedBy skipIds) h (Except.ok batch) h')
    {m : OutboxMessage} (hm : m ∈ batch) : m.id ∉ skipIds.getD [] := by
  obtain ⟨now, scan, messages, -, hscan, hlock, -⟩ := hexec.locked
  obtain ⟨-, until_, hbatch⟩ := OutboxStore.mem_batch_iff hscan hlock
  obtain ⟨row, hrow, rfl⟩ := (hbatch m).mp hm
  rw [OutboxStore.lockRow_id]
  exact (OutboxStore.candidate_iff.mp (OutboxStore.mem_selected hrow).2).2.2.2.1

/-- **The loops do not race for a message.** In every run of the service in which no id is published twice,
`_hotInFlight` has the ids of the bodies in flight, each once, and these are at most
`MaxConcurrentDeliveries`.  A turn of the cold path passes just them on, and whatever the database does,
none of the messages that the batch locks is one of theirs. -/
theorem cold_path_skips_in_flight
    (hrun : Steps (Step options processorOptions) (start options) events s)
    (hdistinct : (notified events).Nodup) :
    s.hotInFlight.Perm s.bodies ∧ s.bodies.Nodup ∧
    (∀ n, parallelOptions options.maxConcurrentDeliveries = .ok (some n) → s.bodies.length ≤ n) ∧
    ∀ s' skipIds, Step options processorOptions s .turn s' → s'.cold = .inBatch skipIds →
      (∀ messageId, messageId ∈ skipIds.getD [] ↔ messageId ∈ s.bodies) ∧
      ∀ (dep : Deployment) (reader : SubscriptionReader) (batchSize : ℤ) (visibilityTimeout : TimeSpan)
        (lockedBy : Text) (h h' : Host) (batch : List OutboxMessage),
        Host.Exec dep options reader
          (BatchCall.lockNextBatch batchSize visibilityTimeout lockedBy skipIds) h (Except.ok batch) h' →
        ∀ m ∈ batch, m.id ∉ s.bodies := by
  obtain ⟨hperm, hnodup, -, hlimit⟩ := tracked_run hrun hdistinct
  refine ⟨hperm, hnodup, hlimit, fun s' skipIds hs hcold => ?_⟩
  have hskip : ∀ messageId, messageId ∈ skipIds.getD [] ↔ messageId ∈ s.bodies := by
    intro messageId
    rw [← hperm.mem_iff]
    cases hs with
    | turn_cancelled => cases hcold
    | turn =>
        cases hcold
        split
        · next hempty =>
            rw [List.isEmpty_iff.mp hempty]
            rfl
        · rfl
  refine ⟨hskip, fun dep reader batchSize visibilityTimeout lockedBy h h' batch hexec m hm hmem => ?_⟩
  exact not_mem_skipIds hexec hm ((hskip _).mpr hmem)

/-- Two messages that are `Pending`: the body for the first one has not come to its lock yet. -/
def twoPending : Host := ⟨⟨OutboxStore.orderMessages, Table.empty, 20000⟩, 0⟩

/-- A turn of the cold path passes the first id on, and its batch takes the second message only. -/
theorem cold_path_skips_in_flight_one :
    [1].Perm oneInFlight.bodies ∧ oneInFlight.bodies.length ≤ 10 ∧
    ∃ s', Step shopProcessor.options {} oneInFlight .turn s' ∧ s'.cold = .inBatch (some [1]) ∧
      ∃ batch h', Host.Exec (Deployment.binary .directSql) shopProcessor.options .null
          (BatchCall.lockNextBatch 10 3000000000 (text "shop-1") (some [1])) twoPending
          (Except.ok batch) h' ∧
        batch.map (·.id) = [2] ∧ ∀ m ∈ batch, m.id ∉ oneInFlight.bodies := by
  obtain ⟨hflight, -, hlimit, hturn⟩ := cold_path_skips_in_flight oneInFlight_run (by decide)
  have hs : Step shopProcessor.options {} oneInFlight .turn
      { oneInFlight with cold := .inBatch (some [1]), batches := 1 } := .turn rfl rfl
  have hbatch : (Host.exec? (Deployment.binary .directSql) shopProcessor.options (fun _ => [])
      (BatchCall.lockNextBatch 10 3000000000 (text "shop-1") (some [1])) .done twoPending).map
        (fun x => x.1.toOption.map (·.map OutboxMessage.id)) = some (some [2]) := by
    decide
  have hnone : ∀ message, SubscriptionReader.null.Returns (Deployment.binary .directSql) message [] :=
    fun _ => rfl
  obtain ⟨⟨answer, h'⟩, hexec, hids⟩ := Option.map_eq_some_iff.mp hbatch
  cases answer with
  | error e => cases hids
  | ok batch =>
      have hlocked : Host.Exec (Deployment.binary .directSql) shopProcessor.options .null
          (BatchCall.lockNextBatch 10 3000000000 (text "shop-1") (some [1])) twoPending
          (Except.ok batch) h' := .of_exec? hnone hexec
      exact ⟨hflight, hlimit 10 rfl, _, hs, rfl, batch, h', hlocked, Option.some.inj hids,
        (hturn _ _ hs rfl).2 _ _ _ _ _ _ _ batch hlocked⟩

end OutboxProcessorService

end OutboxNet
