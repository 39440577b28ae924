import OutboxNet.Lib.FirstSeen
import OutboxNet.System.Duplicates

/-!
# What a receiver sees

A delivery is repeated when rounds overlap, a worker crashes or a save fails.  A receiver is to tell the
repetitions by `X-Outbox-Delivery-Id`, which comes from the number of the attempt.  A round takes this number
from the count of the attempts that are stored, and an attempt is stored only after it was sent.  So the
count never exceeds the different numbers sent so far: whatever happens, a number is sent for the first time
only when all smaller ones have been.  A receiver that drops the ids it has seen sees the attempts
1, 2, … in this order, and never more than `MaxRetries + 1` of them (`attempts_sent_in_order`).
-/

set_option autoImplicit false

namespace OutboxNet

open AttemptStore (States attemptsOf)
open FirstSeen (Progressive)
open Pipeline (attemptCount nextAttempt)

variable {dep : Deployment} {budget : Guid → ℤ} {sha256 : Hash}

/-- The id that an entry sends message `k` to subscription `s` with. -/
def Entry.deliveryId? (k s : Guid) : Entry → Option Guid
  | ⟨.deliver message subscription deliveryId, _⟩ =>
      if message.id = k ∧ subscription.id = s then some deliveryId else none
  | _ => none

theorem Entry.deliveryId?_eq_some {k s deliveryId : Guid} {e : Entry} :
    e.deliveryId? k s = some deliveryId ↔ ∃ message subscription result,
      e = ⟨.deliver message subscription deliveryId, result⟩ ∧ message.id = k ∧ subscription.id = s := by
  constructor
  · intro h
    unfold Entry.deliveryId? at h
    split at h
    · next message subscription _ result =>
        split at h
        · next hids =>
            cases h
            exact ⟨message, subscription, result, rfl, hids⟩
        · cases h
    · cases h
  · rintro ⟨message, subscription, result, rfl, hk, hs⟩
    exact if_pos ⟨hk, hs⟩

/-- The id of the attempt with number `i + 1`. -/
def attemptId (sha256 : Hash) (k s : Guid) (i : ℕ) : Guid := deriveDeliveryId sha256 k s (i + 1)

/-- How a round comes to be delivering: by its read, by a call that leaves its results, or by a delivery. -/
theorem Job.Trans.delivering_inv {job : Job} {c : Call} {s s' : Stage} {a : c.Ans}
    (h : job.Trans c s a s') {states : States} {results : Results}
    (hs' : s' = .delivering states results) :
    (s = .start ∧ results = Results.none ∧ (⟨c, a⟩ : Entry) =
      ⟨.getDeliveryStates job.message.id (job.subscriptions.map (·.id)), Except.ok states⟩) ∨
    s = .delivering states results ∨
    ∃ results₀ i subscription r, s = .delivering states results₀ ∧
      results = Function.update results₀ i (some r) ∧ job.subscriptions[i]? = some subscription ∧
      Job.attempted states subscription = true ∧
      (⟨c, a⟩ : Entry) = ⟨.deliver job.message subscription (job.deliveryId states subscription), r⟩ := by
  induction h with
  | metric => exact .inr (.inl hs')
  | attemptTime => exact .inr (.inl hs')
  | read =>
      cases hs'
      exact .inl ⟨rfl, rfl, rfl⟩
  | readThrew => split at hs' <;> cases hs'
  | deliver hsub _ hatt =>
      cases hs'
      exact .inr (.inr ⟨_, _, _, _, rfl, rfl, hsub, hatt, rfl⟩)
  | saveThrew =>
      unfold Job.afterFailedSave at hs'
      split at hs' <;> cases hs'
  | nothingToSave _ _ _ ih =>
      rcases ih hs' with ⟨hs, -⟩ | hs | ⟨_, _, _, _, hs, -⟩ <;> cases hs
  | faulted _ _ ih =>
      rcases ih hs' with ⟨hs, -⟩ | hs | ⟨_, _, _, _, hs, -⟩ <;> cases hs
  | retry _ _ ih =>
      rcases ih hs' with ⟨hs, -⟩ | hs | ⟨_, _, _, _, hs, -⟩ <;> cases hs
  | _ => cases hs'

namespace World

variable {w w' : World} {stages stages' : ℕ → Stage} {act : Action} {k s : Guid} {numbers : List ℕ}

/-- The ids that message `k` was sent to subscription `s` with. -/
def deliveryIds (w : World) (k s : Guid) : List Guid := w.log.filterMap fun x => x.2.deliveryId? k s

theorem Step.deliveryIds {token : ℕ} {entry : Entry}
    (hs : Step dep (Database.Exec dep) w (.call token entry) w') :
    w'.deliveryIds k s = w.deliveryIds k s ++ (entry.deliveryId? k s).toList := by
  rw [World.deliveryIds, hs.called.2, List.filterMap_append]
  refine congrArg (w.deliveryIds k s ++ ·) ?_
  cases h : entry.deliveryId? k s <;> simp [h]

/-- A round that is delivering has counted no more attempts than different numbers were sent, and what it
has a result of was sent. -/
def Counts (k s : Guid) (numbers : List ℕ) (job : Job) : Stage → Prop
  | .delivering states results => job.message.id = k → ∀ i subscription,
      job.subscriptions[i]? = some subscription → subscription.id = s →
      (attemptCount states subscription).toNat ≤ numbers.eraseDups.length ∧
        (results i ≠ none → (attemptCount states subscription).toNat ∈ numbers)
  | _ => True

/-- The numbers, less one, that message `k` was sent to subscription `s` with so far. -/
structure Sent (budget : Guid → ℤ) (sha256 : Hash) (k s : Guid) (numbers : List ℕ) (w : World)
    (stages : ℕ → Stage) : Prop where
  keys : KeysOk budget sha256 w stages
  ids : w.deliveryIds k s = numbers.map (attemptId sha256 k s)
  progressive : Progressive numbers
  bounded : ∀ i ∈ numbers, (i : ℤ) ≤ budget s
  stored : ∀ a ∈ attemptsOf k s w.db.attempts, ∃ i ∈ numbers, a.attemptNumber = i + 1
  rounds : ForRounds (fun _ => Counts k s numbers) w stages

theorem Counts.mono {job : Job} {stage : Stage} (h : Counts k s numbers job stage) {numbers' : List ℕ}
    (hlength : numbers.eraseDups.length ≤ numbers'.eraseDups.length)
    (hsubset : ∀ n ∈ numbers, n ∈ numbers') : Counts k s numbers' job stage := by
  cases stage with
  | delivering states results =>
      intro hk i subscription hsub hs
      obtain ⟨hle, hmem⟩ := h hk i subscription hsub hs
      exact ⟨hle.trans hlength, fun hi => hsubset _ (hmem hi)⟩
  | _ => trivial

namespace Sent

/-- A round counts no more attempts than different numbers were sent. -/
theorem length_attemptsOf_le (h : Sent budget sha256 k s numbers w stages) :
    (attemptsOf k s w.db.attempts).length ≤ numbers.eraseDups.length := by
  have hinj : Set.InjOn (fun i : ℕ => (i : ℤ) + 1) {i | i ∈ numbers} := by
    intro i _ j _ hij
    have hij : (i : ℤ) + 1 = (j : ℤ) + 1 := hij
    omega
  have hsubset : ∀ n ∈ (attemptsOf k s w.db.attempts).map (·.attemptNumber),
      n ∈ numbers.map fun i : ℕ => (i : ℤ) + 1 := by
    intro n hn
    obtain ⟨a, ha, rfl⟩ := List.mem_map.mp hn
    obtain ⟨i, hi, hnumber⟩ := h.stored a ha
    exact List.mem_map.mpr ⟨i, hi, hnumber.symm⟩
  calc
    (attemptsOf k s w.db.attempts).length =
        ((attemptsOf k s w.db.attempts).map (·.attemptNumber)).length := (List.length_map _).symm
    _ ≤ (numbers.map fun i : ℕ => (i : ℤ) + 1).eraseDups.length :=
      FirstSeen.length_le (h.keys.attemptNumber_nodup k s) hsubset
    _ = numbers.eraseDups.length := by rw [FirstSeen.eraseDups_map hinj, List.length_map]

/-- What a step stores was sent. -/
theorem stored_step (h : Sent budget sha256 k s numbers w stages) (hbudget : ∀ s, budget s < int32Max)
    (hs : Step dep (Database.Exec dep) w act w') (hst : StageStep w stages act stages') :
    ∀ a ∈ attemptsOf k s w'.db.attempts, ∃ i ∈ numbers, a.attemptNumber = i + 1 := by
  intro a ha
  obtain ⟨hmem, hk, hsub⟩ := AttemptStore.mem_attemptsOf.mp ha
  by_cases hact : act = .purgeAttempts
  · subst hact
    cases hs with
    | purgeAttempts =>
        exact h.stored a (AttemptStore.mem_attemptsOf.mpr ⟨(Table.mem_delete.mp hmem).1, hk, hsub⟩)
  · have hattempts := hs.attempts hst hact
    generalize w'.db.attempts = attempts at hattempts hmem
    cases hattempts with
    | same => exact h.stored a (AttemptStore.mem_attemptsOf.mpr ⟨hmem, hk, hsub⟩)
    | @saved token _ r subscriptions loop prog states results utcNow _ _ _ _ hr hwork hstage hperm hsave =>
        rcases AttemptStore.mem_saveAttemptsAsync hsave hmem with hmem | ⟨i, x, hx, rfl⟩
        · exact h.stored a (AttemptStore.mem_attemptsOf.mpr ⟨hmem, hk, hsub⟩)
        · -- the attempt of a position that has a result
          obtain ⟨j, subscription, res, hj, hres, rfl⟩ := Job.mem_newAttempts.mp (hperm.mem_iff.mp hx)
          have hcounts := h.rounds token r subscriptions loop prog hr hwork
          have hattempting := h.keys.rounds token r subscriptions loop prog hr hwork
          rw [hstage] at hcounts hattempting
          obtain ⟨subscription', hj', hatt⟩ := hattempting.1 j _ hres
          obtain rfl : subscription = subscription' := Option.some.inj (hj.symm.trans hj')
          have hin : subscription ∈ subscriptions := List.mem_of_getElem? hj
          have hnonneg := hattempting.2 subscription hin
          obtain ⟨hnext, -⟩ :=
            nextAttempt_eq hbudget hnonneg hatt ((h.keys.planned token r _ hr hwork).2 subscription hin)
          refine ⟨_, (hcounts hk j subscription hj hsub).2 (by rw [hres]; exact Option.some_ne_none _), ?_⟩
          show nextAttempt states subscription = _
          rw [hnext, Int.toNat_of_nonneg hnonneg]
    | cascade =>
        exact h.stored a
          (AttemptStore.mem_attemptsOf.mpr ⟨(AttemptStore.mem_cascade.mp hmem).1, hk, hsub⟩)
    | purged hpurge => exact absurd hpurge hact

/-- A delivery sends the number that the round has counted to. -/
theorem sends (h : Sent budget sha256 k s numbers w stages) (hbudget : ∀ s, budget s < int32Max)
    (hsha256 : ∀ r ∈ w.rounds, r.pipeline.sha256 = sha256) {token : ℕ} {message : OutboxMessage}
    {subscription : WebhookSubscription} {deliveryId : Guid} {result : Except Exn DeliveryResult}
    (hst : StageStep w stages (.call token ⟨.deliver message subscription deliveryId, result⟩) stages')
    (hk : message.id = k) (hs : subscription.id = s) :
    ∃ states results, stages token = .delivering states results ∧
      deliveryId = attemptId sha256 k s (attemptCount states subscription).toNat ∧
      (attemptCount states subscription).toNat ≤ numbers.eraseDups.length ∧
      ((attemptCount states subscription).toNat : ℤ) ≤ budget s := by
  cases hst with
  | @call _ _ r subscriptions loop prog stage hr hwork htrans =>
      obtain ⟨states, results, i, hstage, -, rfl, hi, -, hatt, rfl⟩ := htrans.deliver_inv
      have hcounts := h.rounds token r subscriptions loop prog hr hwork
      have hattempting := h.keys.rounds token r subscriptions loop prog hr hwork
      rw [hstage] at hcounts hattempting
      have hin : subscription ∈ subscriptions := List.mem_of_getElem? hi
      have hnonneg := hattempting.2 subscription hin
      obtain ⟨hnext, hle⟩ :=
        nextAttempt_eq hbudget hnonneg hatt ((h.keys.planned token r _ hr hwork).2 subscription hin)
      refine ⟨states, results, hstage, ?_, (hcounts hk i subscription hi hs).1, ?_⟩
      · rw [attemptId, Int.toNat_of_nonneg hnonneg, ← hnext, ← hk, ← hs,
          ← hsha256 r (List.mem_of_getElem? hr)]
        rfl
      · rw [Int.toNat_of_nonneg hnonneg, ← hs]
        exact hle
  | queued _ _ hof => cases hof
  | other hnone => cases hnone

/-- The rounds after a step that may have sent a number. -/
theorem rounds_step (h : Sent budget sha256 k s numbers w stages)
    (hs : Step dep (Database.Exec dep) w act w') (hst : StageStep w stages act stages')
    {numbers' : List ℕ} (hlength : numbers.eraseDups.length ≤ numbers'.eraseDups.length)
    (hsubset : ∀ n ∈ numbers, n ∈ numbers')
    (hsent : ∀ token message subscription deliveryId result states results,
      act = .call token ⟨.deliver message subscription deliveryId, result⟩ →
      message.id = k → subscription.id = s → stages token = .delivering states results →
      (attemptCount states subscription).toNat ∈ numbers') :
    ForRounds (fun _ => Counts k s numbers') w' stages' := by
  -- the stage of a round is known
  have hrounds : ForRounds (fun token job stage => stage = stages token ∧ Counts k s numbers job stage)
      w stages := fun token r subscriptions loop prog hr hwork =>
    ⟨rfl, h.rounds token r subscriptions loop prog hr hwork⟩
  refine hrounds.step_of_work hs hst (fun _ _ _ _ _ _ _ => trivial) ?_ ?_
  · rintro token r subscriptions loop prog stage - - - ⟨-, hcounts⟩
    exact hcounts.mono hlength hsubset
  · rintro token ⟨c, a⟩ r subscriptions loop prog stage stage' rfl hr hwork htrans ⟨hstage, hcounts⟩
    have hnodup := (h.keys.planned token r _ hr hwork).1
    cases hs' : stage' with
    | delivering states results =>
        intro hk i subscription hi hid
        rcases htrans.delivering_inv hs' with ⟨-, rfl, hentry⟩ | rfl |
          ⟨results₀, j, subscription', res, rfl, rfl, hj, -, hentry⟩
        · cases hentry
          have hcount : attemptCount states subscription =
              (attemptsOf r.message.id subscription.id w.db.attempts).length := by
            rw [hs.called.1.read.1]
            exact Pipeline.attemptCount_getDeliveryStatesAsync
              (List.mem_map_of_mem (List.mem_of_getElem? hi)) hnodup
          have hk : r.message.id = k := hk
          refine ⟨?_, fun hres => absurd rfl hres⟩
          rw [hcount, Int.toNat_natCast, hk, hid]
          exact h.length_attemptsOf_le.trans hlength
        · exact hcounts.mono hlength hsubset hk i subscription hi hid
        · cases hentry
          obtain ⟨hle, hmem⟩ := hcounts hk i subscription hi hid
          refine ⟨hle.trans hlength, fun hres => ?_⟩
          by_cases heq : i = j
          · subst heq
            obtain rfl : subscription = subscription' := Option.some.inj (hi.symm.trans hj)
            exact hsent _ _ _ _ _ states results₀ rfl hk hid hstage.symm
          · rw [Function.update_of_ne heq] at hres
            exact hsubset _ (hmem hres)
    | _ => trivial

/-- The step lemma: the numbers stay, or go on. -/
theorem step (h : Sent budget sha256 k s numbers w stages) (hbudget : ∀ s, budget s < int32Max)
    (hsha256 : ∀ r ∈ w.rounds, r.pipeline.sha256 = sha256)
    (hs : Step dep (Database.Exec dep) w act w') (hst : StageStep w stages act stages')
    (hbegin : ∀ token plan, act = .begin_ token plan → plan.Within budget) :
    ∃ numbers', Sent budget sha256 k s numbers' w' stages' := by
  have hkeys := h.keys.step hbudget hsha256 hs hst hbegin
  have hstored := h.stored_step hbudget hs hst
  by_cases hdelivers : ∃ token message subscription deliveryId result,
      act = .call token ⟨.deliver message subscription deliveryId, result⟩ ∧
        message.id = k ∧ subscription.id = s
  · obtain ⟨token, message, subscription, deliveryId, result, rfl, hk, hsub⟩ := hdelivers
    obtain ⟨states, results, hstage, hid, hle, hbound⟩ := h.sends hbudget hsha256 hst hk hsub
    refine ⟨numbers ++ [(attemptCount states subscription).toNat], hkeys, ?_, h.progressive.concat hle,
      ?_, ?_, ?_⟩
    · have hsome : Entry.deliveryId? k s ⟨.deliver message subscription deliveryId, result⟩ =
          some deliveryId := Entry.deliveryId?_eq_some.mpr ⟨_, _, _, rfl, hk, hsub⟩
      rw [hs.deliveryIds, hsome, h.ids, List.map_append, List.map_singleton, ← hid]
      rfl
    · intro i hi
      rcases List.mem_append.mp hi with hi | hi
      · exact h.bounded i hi
      · rw [List.mem_singleton.mp hi]
        exact hbound
    · intro a ha
      obtain ⟨i, hi, hnumber⟩ := hstored a ha
      exact ⟨i, List.mem_append_left _ hi, hnumber⟩
    · refine h.rounds_step hs hst (FirstSeen.length_le_concat _ _) (fun n => List.mem_append_left _) ?_
      intro token' message' subscription' deliveryId' result' states' results' hact _ _ hstage'
      cases hact
      rw [hstage] at hstage'
      cases hstage'
      exact List.mem_append_right _ List.mem_cons_self
  · refine ⟨numbers, hkeys, ?_, h.progressive, h.bounded, hstored,
      h.rounds_step hs hst (le_refl _) (fun _ hn => hn) ?_⟩
    · rw [← h.ids]
      by_cases hcall : ∃ token entry, act = .call token entry
      · obtain ⟨token, entry, rfl⟩ := hcall
        have hnone : entry.deliveryId? k s = none := by
          by_contra hsome
          obtain ⟨deliveryId, hsome⟩ := Option.ne_none_iff_exists'.mp hsome
          obtain ⟨message, subscription, result, heq, hids⟩ := Entry.deliveryId?_eq_some.mp hsome
          exact hdelivers ⟨token, message, subscription, deliveryId, result, by rw [heq], hids⟩
        rw [hs.deliveryIds, hnone]
        exact List.append_nil _
      · cases hs with
        | @call token => exact absurd ⟨token, _, rfl⟩ hcall
        | _ => rfl
    · intro token message subscription deliveryId result _ _ hact hk hsub _
      exact absurd ⟨token, message, subscription, deliveryId, result, hact, hk, hsub⟩ hdelivers

theorem initial (now : DateTimeOffset) :
    Sent budget sha256 k s [] (initial now) fun _ => .start where
  keys := KeysOk.initial now
  ids := rfl
  progressive := Progressive.nil
  bounded := List.forall_mem_nil _
  stored := List.forall_mem_nil _
  rounds := ForRounds.initial _ now _

/-- Numbers are told by their ids, as far as the hash tells them. -/
theorem attemptId_injOn (h : Sent budget sha256 k s numbers w stages) (hbudget : ∀ s, budget s < int32Max)
    (hfree : sha256.CollisionFree (Set.image attemptInput {key | ∃ i ∈ numbers, key = (k, s, (i : ℤ) + 1)})) :
    Set.InjOn (attemptId sha256 k s) {i | i ∈ numbers} := by
  have hnumbers : ∀ key ∈ {key : AttemptKey | ∃ i ∈ numbers, key = (k, s, (i : ℤ) + 1)},
      IsInt32 key.2.2 := by
    rintro key ⟨i, hi, rfl⟩
    have hle := h.bounded i hi
    have hlt := hbudget s
    rw [IsInt32, int32Max] at *
    show _ ≤ (i : ℤ) + 1 ∧ (i : ℤ) + 1 ≤ _
    omega
  intro i hi j hj hid
  have hkey := deriveDeliveryId_injOn hfree hnumbers ⟨i, hi, rfl⟩ ⟨j, hj, rfl⟩ hid
  have hnumber : (i : ℤ) + 1 = (j : ℤ) + 1 := congrArg (fun key : AttemptKey => key.2.2) hkey
  omega

end Sent

/-- **What a receiver sees.** Take any run of any number of workers: rounds overlap and crash, deliveries and
the database fail, messages and attempts are purged at any times.  The ids that a message is sent to a
subscription with come from numbers of attempts; whatever is repeated, the numbers come for the first time in
the order 1, 2, …, up to at most `MaxRetries + 1`; and every attempt stored was sent.  As far as the hash
tells these numbers apart, a receiver that drops the ids it has seen sees just these attempts. -/
theorem attempts_sent_in_order {now : DateTimeOffset} {acts : List Action}
    (hrun : Run dep (Database.Exec dep) (initial now) acts w) (hbudget : ∀ s, budget s < int32Max)
    (hplans : ∀ token plan, .begin_ token plan ∈ acts → plan.Within budget)
    (hsha256 : ∀ r ∈ w.rounds, r.pipeline.sha256 = sha256) (k s : Guid) :
    ∃ (numbers : List ℕ) (n : ℕ), n ≤ (budget s + 1).toNat ∧
      w.deliveryIds k s = numbers.map (attemptId sha256 k s) ∧ numbers.eraseDups = List.range n ∧
      (∀ a ∈ attemptsOf k s w.db.attempts, a.id ∈ w.deliveryIds k s) ∧
      (sha256.CollisionFree (Set.image attemptInput {key | ∃ i < n, key = (k, s, (i : ℤ) + 1)}) →
        (w.deliveryIds k s).eraseDups = (List.range n).map (attemptId sha256 k s)) := by
  obtain ⟨stages, -, numbers, h⟩ := run_with_hash
    (fun w stages => ∃ numbers, Sent budget sha256 k s numbers w stages)
    (fun act => ∀ token plan, act = .begin_ token plan → plan.Within budget)
    (fun _ _ _ _ _ hbegin hbefore ⟨_, h⟩ hs hst => h.step hbudget hbefore hs hst hbegin) hrun
    (by rintro act hact token plan rfl; exact hplans token plan hact) hsha256 ⟨[], Sent.initial now⟩
  refine ⟨numbers, numbers.eraseDups.length, ?_, h.ids, h.progressive, ?_, fun hfree => ?_⟩
  · apply h.progressive.length_le_of_lt
    intro i hi
    have hle := h.bounded i hi
    omega
  · intro a ha
    obtain ⟨i, hi, hnumber⟩ := h.stored a ha
    obtain ⟨hmem, hk, hsub⟩ := AttemptStore.mem_attemptsOf.mp ha
    rw [h.ids, (h.keys.keyed a hmem).1, hk, hsub, hnumber]
    exact List.mem_map_of_mem hi
  · have hfree' : sha256.CollisionFree
        (Set.image attemptInput {key | ∃ i ∈ numbers, key = (k, s, (i : ℤ) + 1)}) := by
      refine hfree.mono (Set.image_mono ?_)
      rintro key ⟨i, hi, rfl⟩
      exact ⟨i, h.progressive.mem_iff.mp hi, rfl⟩
    rw [h.ids, FirstSeen.eraseDups_map (h.attemptId_injOn hbudget hfree'), ← h.progressive]

/-- The four rounds of the order have sent three attempts, the first of them twice. -/
theorem attempts_sent_in_order_order :
    (∃ (numbers : List ℕ) (n : ℕ), n ≤ 4 ∧
      overlapped.deliveryIds 1 7 = numbers.map (attemptId Hash.sparse 1 7) ∧
      numbers.eraseDups = List.range n ∧
      ∀ a ∈ attemptsOf 1 7 overlapped.db.attempts, a.id ∈ overlapped.deliveryIds 1 7) ∧
    overlapped.deliveryIds 1 7 = [0, 0, 1, 2].map (attemptId Hash.sparse 1 7) := by
  obtain ⟨acts, hrun, hplans, -⟩ := overlapped_run
  have hbudget : ∀ _ : Guid, (3 : ℤ) < int32Max := fun _ => by decide
  obtain ⟨numbers, n, hn, hids, hnumbers, hstored, -⟩ :=
    attempts_sent_in_order hrun hbudget hplans overlapped_sha256 1 7
  exact ⟨⟨numbers, n, hn, hids, hnumbers, hstored⟩, by decide +kernel⟩

end World

end OutboxNet
